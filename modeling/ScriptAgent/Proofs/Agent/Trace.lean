import ScriptAgent.Agent
import ScriptAgent.Proofs.Exchange.Decode
import ScriptAgent.Proofs.Json.Writable
import ScriptAgent.Proofs.Sandbox.Execute

/-!
# Traces of runs

A run is described by its `Trace`: the rounds that it has completed, each a script that has been
executed without an answer, and why it has stopped after them. The trace alone gives how the run
ends, what it leaves in the conversation, and the calls that it has made of the model and of the
sandbox, in order.

`Backend.run_trace` says that every run is that of a trace, for every model, every budget and every
way of being cancelled, as long as each execution returns. The proof carries the number of completed
rounds through the loop (`Backend.iterate_trace`). The calls are those that are recorded by
`Backend.recorded`, which behaves as the model and the sandbox that it records.
-/

namespace ScriptAgent.Agent

/-! ## Traces -/

/-- A call of the model or of the sandbox, with its result. -/
inductive Call where
  | generated (prompt : String) (g : Model.Generated)
  | executed (code : String) (r : Except Sandbox.Failure Sandbox.Execution)

namespace Call

/-- Whether a call is one of the model. -/
def isGenerated : Call → Bool
  | generated .. => true
  | executed .. => false

/-- Whether a call is one of the sandbox. -/
def isExecuted (call : Call) : Bool := !call.isGenerated

/-- Whether a call is not one of the sandbox that fails. -/
def returns : Call → Bool
  | generated .. | executed _ (.ok _) => true
  | executed _ (.error _) => false

end Call

/-- A script that a model was prompted for, and its execution. -/
structure Round where
  prompt : String
  code : String
  execution : Sandbox.Execution

namespace Round

/-- The calls of a round. -/
def calls (r : Round) : List Call :=
  [.generated r.prompt (.code r.code), .executed r.code (.ok r.execution)]

/-- What the execution of a script without an answer adds to a conversation: the error, or else what
was printed. -/
def reaction (e : Sandbox.Execution) : List Message :=
  match e.outcome with
  | .failed kind message => [⟨.system, s!"Error: {kind.text}: {message}"⟩]
  | .continued | .answered _ => if e.output.isEmpty then [] else [⟨.system, e.output⟩]

/-- What a completed round adds to a conversation: the script, and the reaction to it. -/
def messages (r : Round) : List Message := ⟨.assistant, r.code⟩ :: reaction r.execution

end Round

/-- Why a run stops. -/
inductive Stop where
  /-- The budget is used up. -/
  | exhausted
  | cancelled
  /-- The model reports a failure. -/
  | refused (prompt message : String)
  /-- The model fails in any other way. -/
  | crashed (prompt : String) (crash : Model.Crash)
  /-- A script gives an answer; `text` is the answer as a text. -/
  | answered (last : Round) (answer : Datum) (text : String)

namespace Stop

/-- The calls after the completed rounds. -/
def calls : Stop → List Call
  | exhausted | cancelled => []
  | refused prompt message => [.generated prompt (.refused message)]
  | crashed prompt crash => [.generated prompt (.crashed crash)]
  | answered last _ _ => last.calls

/-- What is added to the conversation after the completed rounds. -/
def messages : Stop → List Message
  | exhausted | cancelled | refused .. | crashed .. => []
  | answered last _ _ => [⟨.assistant, last.code⟩]

/-- How a run ends that stops in its `k`-th iteration. -/
def ending (budget k : Nat) : Stop → Ending
  | exhausted => .exhausted budget
  | cancelled => .cancelled k
  | refused _ message => .refused message
  | crashed _ crash => .refused crash.message
  | answered _ _ text => .answered text

/-- A run stops for this reason in its `k`-th iteration, after a conversation. -/
def At (p : Plan) (k : Nat) (c : List Message) : Stop → Prop
  | exhausted => k = p.budget + 1
  | cancelled => k ≤ p.budget ∧ p.isCancelled k = true
  | refused prompt _ | crashed prompt _ =>
    k ≤ p.budget ∧ p.isCancelled k = false ∧ prompt = p.prompt ⟨c⟩
  | answered last answer text =>
    k ≤ p.budget ∧ p.isCancelled k = false ∧ last.prompt = p.prompt ⟨c⟩ ∧
      last.execution.outcome = .answered answer ∧ answer.answer = .ok text

end Stop

/-- Rounds can be completed from the `k`-th iteration on, after a conversation: none of them is
cancelled or gives an answer, and each prompt shows the conversation up to it. -/
def Completed (p : Plan) (k : Nat) (c : List Message) : List Round → Prop
  | [] => True
  | r :: rest =>
    p.isCancelled k = false ∧ r.prompt = p.prompt ⟨c⟩ ∧
      (∀ answer, r.execution.outcome ≠ .answered answer) ∧
      Completed p (k + 1) (c ++ r.messages) rest

/-- The completed rounds of a run, and why it has stopped after them. -/
structure Trace where
  rounds : List Round
  stop : Stop

namespace Trace

/-- What a run adds to a conversation after the task. -/
def messages (t : Trace) : List Message := t.rounds.flatMap Round.messages ++ t.stop.messages

/-- The calls of a run. -/
def calls (t : Trace) : List Call := t.rounds.flatMap Round.calls ++ t.stop.calls

/-- The number of calls of the model. -/
def generations (t : Trace) : Nat :=
  match t.stop with
  | .exhausted | .cancelled => t.rounds.length
  | .refused .. | .crashed .. | .answered .. => t.rounds.length + 1

/-- The number of calls of the sandbox. -/
def executions (t : Trace) : Nat :=
  match t.stop with
  | .exhausted | .cancelled | .refused .. | .crashed .. => t.rounds.length
  | .answered .. => t.rounds.length + 1

/-- A trace is one of a run from the `k`-th iteration on, after a conversation. -/
structure From (p : Plan) (k : Nat) (c : List Message) (t : Trace) : Prop where
  completed : Completed p k c t.rounds
  stopped : t.stop.At p (k + t.rounds.length) (c ++ t.rounds.flatMap Round.messages)

/-- The calls of completed rounds: one of the model and one of the sandbox each. -/
theorem countP_rounds (rounds : List Round) :
    (rounds.flatMap Round.calls).countP Call.isGenerated = rounds.length ∧
      (rounds.flatMap Round.calls).countP Call.isExecuted = rounds.length := by
  induction rounds with
  | nil => exact ⟨rfl, rfl⟩
  | cons r rest ih =>
    rw [List.flatMap_cons, List.countP_append, List.countP_append, ih.1, ih.2, List.length_cons,
      Nat.add_comm rest.length]
    exact ⟨rfl, rfl⟩

/-- The numbers of calls of a trace. -/
theorem countP_calls (t : Trace) :
    t.calls.countP Call.isGenerated = t.generations ∧
      t.calls.countP Call.isExecuted = t.executions := by
  obtain ⟨rounds, stop⟩ := t
  rw [calls, List.countP_append, List.countP_append, (countP_rounds rounds).1,
    (countP_rounds rounds).2]
  cases stop <;> exact ⟨rfl, rfl⟩

end Trace

/-! ## Recording calls -/

variable {σ : Type}

namespace Backend

/-- The same model and sandbox, with a record of their calls. -/
def recorded (b : Backend σ) : Backend (σ × List Call) where
  generate prompt s :=
    let (g, s') := b.generate prompt s.1
    (g, s', s.2 ++ [.generated prompt g])
  execute code s :=
    let (r, s') := b.execute code s.1
    (r, s', s.2 ++ [.executed code r])
  log level message s := (b.log level message s.1, s.2)

/-- Every answer is plain data. -/
def AnswersPlain (b : Backend σ) : Prop :=
  ∀ code s e s' answer, b.execute code s = (.ok e, s') → e.outcome = .answered answer →
    answer.Plain

variable {b : Backend σ} {p : Plan} {c : Conversation} {s s₁ s₂ : σ} {log : List Call}

/-- A record shows a call of the model. -/
theorem recorded_generate (log : List Call) {prompt : String} {g : Model.Generated}
    (h : b.generate prompt s = (g, s₁)) :
    b.recorded.generate prompt (s, log) = (g, s₁, log ++ [.generated prompt g]) := by
  simp only [recorded, h]

/-- A record shows a call of the sandbox. -/
theorem recorded_execute (log : List Call) {code : String}
    {r : Except Sandbox.Failure Sandbox.Execution} (h : b.execute code s = (r, s₁)) :
    b.recorded.execute code (s, log) = (r, s₁, log ++ [.executed code r]) := by
  simp only [recorded, h]

/-! ## One iteration -/

section
variable {left : Nat} {code : String} {e : Sandbox.Execution}

/-- An iteration before which a run is cancelled ends it. -/
theorem iterate_cancelled (hc : p.isCancelled (p.budget - left) = true) :
    b.iterate p (left + 1) c s = (.cancelled (p.budget - left), c,
      b.note p .info s!"Cancelled before iteration {p.budget - left}" s) := by
  rw [iterate]
  exact if_pos hc

/-- An iteration in which the model reports a failure ends a run. -/
theorem iterate_refused {message : String} (hc : p.isCancelled (p.budget - left) = false)
    (hg : b.generate (p.prompt c) s = (.refused message, s₁)) :
    b.iterate p (left + 1) c s = (.refused message, c, s₁) := by
  rw [iterate]
  simp only [hc, Bool.false_eq_true, if_false, hg]

/-- An iteration in which the model fails in any other way ends a run. -/
theorem iterate_crashed {crash : Model.Crash} (hc : p.isCancelled (p.budget - left) = false)
    (hg : b.generate (p.prompt c) s = (.crashed crash, s₁)) :
    b.iterate p (left + 1) c s = (.refused crash.message, c,
      b.note p .error s!"LLM call crashed: {crash.message}" s₁) := by
  rw [iterate]
  simp only [hc, Bool.false_eq_true, if_false, hg]

/-- An iteration in which the sandbox fails ends a run. -/
theorem iterate_broken {failure : Sandbox.Failure} (hc : p.isCancelled (p.budget - left) = false)
    (hg : b.generate (p.prompt c) s = (.code code, s₁))
    (he : b.execute code s₁ = (.error failure, s₂)) :
    b.iterate p (left + 1) c s = (.broken failure, c.add .assistant code, s₂) := by
  rw [iterate]
  simp only [hc, Bool.false_eq_true, if_false, hg, he]

/-- An iteration whose script gives an answer ends a run. -/
theorem iterate_answered {answer : Datum} {text : String}
    (hc : p.isCancelled (p.budget - left) = false)
    (hg : b.generate (p.prompt c) s = (.code code, s₁)) (he : b.execute code s₁ = (.ok e, s₂))
    (ho : e.outcome = .answered answer) (ht : answer.answer = .ok text) :
    b.iterate p (left + 1) c s = (.answered text, c.add .assistant code,
      b.note p .info s!"Final answer after {p.budget - left} iteration(s): {text}" s₂) := by
  rw [iterate]
  simp only [hc, Bool.false_eq_true, if_false, hg, he, ho, conclude, ht]

/-- An iteration whose script gives no answer is followed by the next one. -/
theorem iterate_completed (hc : p.isCancelled (p.budget - left) = false)
    (hg : b.generate (p.prompt c) s = (.code code, s₁)) (he : b.execute code s₁ = (.ok e, s₂))
    (ho : ∀ answer, e.outcome ≠ .answered answer) :
    b.iterate p (left + 1) c s =
      b.iterate p left (record (c.add .assistant code) e) (b.noteFailure p e s₂) := by
  rw [iterate]
  simp only [hc, Bool.false_eq_true, if_false, hg, he]
  split
  · next h => exact absurd h (ho _)
  · rfl
  · rfl

end

/-! ## The loop -/

/-- A completed round adds its messages to a conversation. -/
theorem record_eq (c : Conversation) (r : Round) :
    record (c.add .assistant r.code) r.execution = ⟨c.messages ++ r.messages⟩ := by
  unfold record Round.messages Round.reaction
  cases r.execution.outcome with
  | failed kind message => simp [Conversation.add]
  | continued | answered =>
    dsimp only
    by_cases h : r.execution.output.isEmpty = true
    · rw [if_pos h, if_pos h]; rfl
    · rw [if_neg h, if_neg h]; simp [Conversation.add]

/-- A record does not show what is logged about a failure. -/
theorem recorded_noteFailure (e : Sandbox.Execution) :
    b.recorded.noteFailure p e (s, log) = (b.noteFailure p e s, log) := by
  unfold noteFailure
  split <;> rfl

/-- A loop with `left` iterations left, the next of which is the `k`-th, follows a trace: the trace
gives how it ends, what it adds to the conversation and the calls that it makes. -/
structure Follows (b : Backend σ) (p : Plan) (left k : Nat) (c : Conversation) (s : σ)
    (log : List Call) (t : Trace) (s' : σ) : Prop where
  trace : t.From p k c.messages
  recorded : b.recorded.iterate p left c (s, log) =
    (t.stop.ending p.budget (k + t.rounds.length), ⟨c.messages ++ t.messages⟩, s', log ++ t.calls)
  run : b.iterate p left c s =
    (t.stop.ending p.budget (k + t.rounds.length), ⟨c.messages ++ t.messages⟩, s')

variable {left k : Nat}

/-- A loop that stops in its next iteration follows a trace without rounds. -/
theorem Follows.stop (stop : Stop) (s' : σ) (hat : stop.At p k c.messages)
    (hrec : b.recorded.iterate p left c (s, log) =
      (stop.ending p.budget k, ⟨c.messages ++ stop.messages⟩, s', log ++ stop.calls))
    (hrun : b.iterate p left c s = (stop.ending p.budget k, ⟨c.messages ++ stop.messages⟩, s')) :
    ∃ t s', b.Follows p left k c s log t s' := by
  refine ⟨⟨[], stop⟩, s', ⟨trivial, ?_⟩, ?_, ?_⟩
  · rw [List.flatMap_nil, List.append_nil]; exact hat
  · exact hrec
  · exact hrun

/-- A loop that completes a round follows that round and what the rest of the loop follows. -/
theorem Follows.round {r : Round} {t : Trace} {s' : σ} (hc : p.isCancelled k = false)
    (hprompt : r.prompt = p.prompt c) (ho : ∀ answer, r.execution.outcome ≠ .answered answer)
    (hrec : b.recorded.iterate p (left + 1) c (s, log) =
      b.recorded.iterate p left ⟨c.messages ++ r.messages⟩ (s₁, log ++ r.calls))
    (hrun : b.iterate p (left + 1) c s = b.iterate p left ⟨c.messages ++ r.messages⟩ s₁)
    (h : b.Follows p left (k + 1) ⟨c.messages ++ r.messages⟩ s₁ (log ++ r.calls) t s') :
    b.Follows p (left + 1) k c s log ⟨r :: t.rounds, t.stop⟩ s' := by
  have hlen : k + (r :: t.rounds).length = k + 1 + t.rounds.length := by
    rw [List.length_cons]; omega
  have hmess : c.messages ++ (⟨r :: t.rounds, t.stop⟩ : Trace).messages =
      c.messages ++ r.messages ++ t.messages := by
    simp only [Trace.messages, List.flatMap_cons, List.append_assoc]
  have hcalls : log ++ (⟨r :: t.rounds, t.stop⟩ : Trace).calls = log ++ r.calls ++ t.calls := by
    simp only [Trace.calls, List.flatMap_cons, List.append_assoc]
  refine ⟨⟨⟨hc, hprompt, ho, h.trace.completed⟩, ?_⟩, ?_, ?_⟩
  · rw [hlen, List.flatMap_cons, ← List.append_assoc]
    exact h.trace.stopped
  · rw [hrec, h.recorded, hlen, hmess, hcalls]
  · rw [hrun, h.run, hlen, hmess]

/-- The loop follows a trace from any iteration on, if each execution that it makes returns. -/
theorem iterate_trace (hb : b.AnswersPlain) (hk : k + left = p.budget + 1)
    (hr : ∀ call ∈ (b.recorded.iterate p left c (s, log)).2.2.2, call.returns = true) :
    ∃ t s', b.Follows p left k c s log t s' := by
  induction left generalizing k c s log with
  | zero =>
    refine Follows.stop .exhausted (b.note p .warning s!"Gave up after {p.budget} iteration(s)" s)
      hk ?_ ?_
    · rw [Stop.messages, Stop.calls, List.append_nil, List.append_nil]
      rfl
    · rw [Stop.messages, List.append_nil]
      rfl
  | succ left ih =>
    have hkl : p.budget - left = k := by omega
    have hkb : k ≤ p.budget := by omega
    cases hc : p.isCancelled k with
    | true =>
      have hcl : p.isCancelled (p.budget - left) = true := hkl ▸ hc
      refine Follows.stop .cancelled (b.note p .info s!"Cancelled before iteration {k}" s)
        ⟨hkb, hc⟩ ?_ ?_
      · rw [iterate_cancelled hcl, hkl, Stop.messages, Stop.calls, List.append_nil,
          List.append_nil]
        rfl
      · rw [iterate_cancelled hcl, hkl, Stop.messages, List.append_nil]
        rfl
    | false =>
      have hcl : p.isCancelled (p.budget - left) = false := hkl ▸ hc
      rcases hg : b.generate (p.prompt c) s with ⟨g, s₁⟩
      have hg' := recorded_generate log hg
      cases g with
      | refused message =>
        refine Follows.stop (.refused (p.prompt c) message) s₁ ⟨hkb, hc, rfl⟩ ?_ ?_
        · rw [iterate_refused hcl hg', Stop.messages, List.append_nil]
          rfl
        · rw [iterate_refused hcl hg, Stop.messages, List.append_nil]
          rfl
      | crashed crash =>
        refine Follows.stop (.crashed (p.prompt c) crash)
          (b.note p .error s!"LLM call crashed: {crash.message}" s₁) ⟨hkb, hc, rfl⟩ ?_ ?_
        · rw [iterate_crashed hcl hg', Stop.messages, List.append_nil]
          rfl
        · rw [iterate_crashed hcl hg, Stop.messages, List.append_nil]
          rfl
      | code code =>
        rcases he : b.execute code s₁ with ⟨r, s₂⟩
        have he' := recorded_execute (log ++ [.generated (p.prompt c) (.code code)]) he
        rw [List.append_assoc] at he'
        cases r with
        | error failure =>
          rw [iterate_broken hcl hg' he'] at hr
          exact absurd (hr (.executed code (.error failure)) (by simp)) nofun
        | ok e =>
          by_cases ho : ∃ answer, e.outcome = .answered answer
          · obtain ⟨answer, ho⟩ := ho
            obtain ⟨text, ht⟩ := Datum.answer_plain (hb code s₁ e s₂ answer he ho)
            refine Follows.stop (.answered ⟨p.prompt c, code, e⟩ answer text)
              (b.note p .info s!"Final answer after {k} iteration(s): {text}" s₂)
              ⟨hkb, hc, rfl, ho, ht⟩ ?_ ?_
            · rw [iterate_answered hcl hg' he' ho ht, hkl]
              rfl
            · rw [iterate_answered hcl hg he ho ht, hkl]
              rfl
          · have ho : ∀ answer, e.outcome ≠ .answered answer := fun answer h => ho ⟨answer, h⟩
            have hrec : b.recorded.iterate p (left + 1) c (s, log) =
                b.recorded.iterate p left ⟨c.messages ++ (⟨p.prompt c, code, e⟩ : Round).messages⟩
                  (b.noteFailure p e s₂, log ++ (⟨p.prompt c, code, e⟩ : Round).calls) := by
              rw [iterate_completed hcl hg' he' ho, recorded_noteFailure,
                record_eq c ⟨p.prompt c, code, e⟩]
              rfl
            have hrun : b.iterate p (left + 1) c s =
                b.iterate p left ⟨c.messages ++ (⟨p.prompt c, code, e⟩ : Round).messages⟩
                  (b.noteFailure p e s₂) := by
              rw [iterate_completed hcl hg he ho, record_eq c ⟨p.prompt c, code, e⟩]
            obtain ⟨t, s', ht⟩ := ih (k := k + 1) (by omega) (hrec ▸ hr)
            exact ⟨_, s', Follows.round hc rfl ho hrec hrun ht⟩

/-- Every run is that of a trace, for every model, every budget, every conversation and every way of
being cancelled, if the sandbox answers with plain data and each execution of the run returns: the
trace gives how the run ends, what it leaves in the conversation after the task, which calls it
makes of the model and of the sandbox, and how many. -/
theorem run_trace (b : Backend σ) (hb : b.AnswersPlain) (p : Plan) (task : String)
    (c : Conversation) (s : σ)
    (hr : ∀ call ∈ (b.recorded.run p task c (s, [])).2.2.2, call.returns = true) :
    ∃ (t : Trace) (s' : σ), t.From p 1 (c.messages ++ [⟨.user, task⟩]) ∧
      b.recorded.run p task c (s, []) =
        (t.stop.ending p.budget (t.rounds.length + 1),
          ⟨c.messages ++ ⟨.user, task⟩ :: t.messages⟩, s', t.calls) ∧
      b.run p task c s =
        (t.stop.ending p.budget (t.rounds.length + 1),
          ⟨c.messages ++ ⟨.user, task⟩ :: t.messages⟩, s') ∧
      t.calls.countP Call.isGenerated = t.generations ∧
      t.calls.countP Call.isExecuted = t.executions := by
  obtain ⟨t, s', h⟩ := iterate_trace (c := c.add .user task)
    (s := b.note p .info s!"Starting task: {task}" s) hb (Nat.add_comm 1 p.budget) hr
  have hmess : (c.add .user task).messages ++ t.messages =
      c.messages ++ ⟨.user, task⟩ :: t.messages := by
    rw [Conversation.messages_add, List.append_assoc, List.singleton_append]
  refine ⟨t, s', h.trace, ?_, ?_, t.countP_calls⟩
  · rw [← hmess, Nat.add_comm]
    exact h.recorded
  · rw [← hmess, Nat.add_comm]
    exact h.run

/-- A model that writes the same script every time, and a sandbox that answers the second time. -/
def persistent : Backend Nat where
  generate _ n := (.code "step()", n)
  execute _ n := (.ok ⟨if n = 0 then .continued else .answered (.int 42), ""⟩, n + 1)
  log _ _ n := n

/-- A run with a completed round and an answer. -/
theorem run_trace_persistent :
    persistent.AnswersPlain ∧
      (∀ call ∈ (persistent.recorded.run ⟨"a", Conversation.render, 3, never⟩ "count" .empty
        (0, [])).2.2.2, call.returns = true) ∧
      ∃ (t : Trace) (s' : Nat),
        t.From ⟨"a", Conversation.render, 3, never⟩ 1 ([] ++ [⟨.user, "count"⟩]) ∧
        persistent.recorded.run ⟨"a", Conversation.render, 3, never⟩ "count" .empty (0, []) =
          (t.stop.ending 3 (t.rounds.length + 1), ⟨[] ++ ⟨.user, "count"⟩ :: t.messages⟩, s',
            t.calls) ∧
        persistent.run ⟨"a", Conversation.render, 3, never⟩ "count" .empty 0 =
          (t.stop.ending 3 (t.rounds.length + 1), ⟨[] ++ ⟨.user, "count"⟩ :: t.messages⟩, s') ∧
        t.calls.countP Call.isGenerated = t.generations ∧
        t.calls.countP Call.isExecuted = t.executions := by
  have hb : persistent.AnswersPlain := by
    intro code n e n' answer he ho
    obtain ⟨he, -⟩ := Prod.mk.inj he
    cases he
    dsimp only at ho
    split at ho
    · cases ho
    · cases ho
      exact .int (by decide)
  have hr : ∀ call ∈ (persistent.recorded.run ⟨"a", Conversation.render, 3, never⟩ "count" .empty
      (0, [])).2.2.2, call.returns = true := List.all_eq_true.1 rfl
  exact ⟨hb, hr, run_trace _ hb _ _ _ _ hr⟩

end Backend

/-! ## Agents -/

section
variable {sandbox sandbox' : Sandbox} {w w' : World} {e : Sandbox.Execution}

/-- An answer of the sandbox is plain data, as it is read from a script. -/
theorem execute_answer_plain {code : String} {tools : Sandbox.ToolMap} {answer : Datum}
    (he : sandbox.execute code tools w = (.ok e, sandbox', w'))
    (ho : e.outcome = .answered answer) : answer.Plain := by
  cases Sandbox.execute_eq_ok_iff.1 he with
  | unreadable | failed => cases ho
  | ended =>
    -- Only a value other than nil is an answer.
    unfold Sandbox.outcomeOf at ho
    split at ho
    · cases ho
    · cases ho
      exact Exchange.decode_plain _ _

end

/-- The sandbox of an agent answers with plain data. -/
theorem backend_answersPlain (tools : Sandbox.ToolMap) : (backend tools).AnswersPlain := by
  intro code s e s' answer he ho
  have hr : (s.sandbox.execute code tools s.world).1 = .ok e := congrArg Prod.fst he
  exact execute_answer_plain (Prod.ext hr rfl) ho

/-- A run of an agent is that of a trace, whatever the agent and its past, if each execution of the
run returns. Of the agent nothing changes but the model, the sandbox and the conversation. -/
theorem trace_of_run (a : Agent) (task : String) (isCancelled : Nat → Bool) (w : World)
    (hr : ∀ call ∈ ((backend a.tools).recorded.run (a.plan isCancelled) task a.conversation
      (⟨a.provider, a.sandbox, w⟩, [])).2.2.2, call.returns = true) :
    ∃ (t : Trace) (provider : Model.Provider) (sandbox : Sandbox) (w' : World),
      t.From (a.plan isCancelled) 1 (a.conversation.messages ++ [⟨.user, task⟩]) ∧
      a.run task isCancelled w =
        (t.stop.ending a.budget (t.rounds.length + 1),
          ⟨a.name, a.budget, a.tools, provider,
            ⟨a.conversation.messages ++ ⟨.user, task⟩ :: t.messages⟩, sandbox⟩, w') := by
  obtain ⟨t, s', h⟩ := Backend.iterate_trace (c := a.conversation.add .user task)
    (s := (backend a.tools).note (a.plan isCancelled) .info s!"Starting task: {task}"
      ⟨a.provider, a.sandbox, w⟩) (backend_answersPlain a.tools) (Nat.add_comm 1 a.budget) hr
  refine ⟨t, s'.provider, s'.sandbox, s'.world, h.trace, ?_⟩
  have hrun := h.run
  rw [Conversation.messages_add, List.append_assoc, List.singleton_append, Nat.add_comm] at hrun
  rw [Agent.run, Backend.run]
  exact congrArg (fun r : Ending × Conversation × State => (r.1, { a with
    provider := r.2.2.provider, conversation := r.2.1, sandbox := r.2.2.sandbox }, r.2.2.world))
    hrun

end ScriptAgent.Agent
