import ScriptAgent.Proofs.Agent.Steps
import ScriptAgent.Proofs.Agent.Trace

/-!
# Histories of agents

What happens in runs, one thing after the other: messages are added to the conversation, and the
model and the sandbox are called (`Happening`). What happens in a step is read from the step itself,
made with a record of its calls (`Backend.happenings`), so a history is that of the runs as they are
made; its calls are those of the recorded run and its messages are those that the run adds
(`Backend.history_calls`, `Backend.history_messages`).

The histories of all sequences of runs of an agent have one form, `Story`, whatever the model and
the sandbox do and however each run ends (`histories_story`). A step does one `Deed`
(`Backend.happenings_deed`), a run is one deed after the other (`Backend.history_story`), and so are
runs that follow each other.
-/

namespace ScriptAgent.Agent

/-- Something that happens in a run: a message is added to the conversation, or the model or the
sandbox is called. -/
inductive Happening where
  | said (m : Message)
  | called (call : Call)

namespace Happening

/-- The message that is added. -/
def message? : Happening → Option Message
  | said m => some m
  | called _ => none

/-- The call that is made. -/
def call? : Happening → Option Call
  | said _ => none
  | called call => some call

/-- The calls of a step. -/
theorem calls_of (calls : List Call) (ms : List Message) :
    (calls.map called ++ ms.map said).filterMap call? = calls := by
  have hcalls : call? ∘ called = some := rfl
  have hms : call? ∘ said = fun _ => none := rfl
  rw [List.filterMap_append, List.filterMap_map, List.filterMap_map, hcalls, hms,
    List.filterMap_some, List.filterMap_none, List.append_nil]

/-- The messages of a step. -/
theorem messages_of (calls : List Call) (ms : List Message) :
    (calls.map called ++ ms.map said).filterMap message? = ms := by
  have hcalls : message? ∘ called = fun _ => none := rfl
  have hms : message? ∘ said = some := rfl
  rw [List.filterMap_append, List.filterMap_map, List.filterMap_map, hcalls, hms,
    List.filterMap_some, List.filterMap_none, List.nil_append]

end Happening

variable {σ : Type}

/-- What happens in the next step of a run: its calls, and then what it adds to the conversation. -/
def Backend.happenings (b : Backend σ) (p : Plan) (q : Progress) (c : Conversation) (s : σ) :
    List Happening :=
  let (_, c', _, calls) := b.recorded.advance p q c (s, [])
  calls.map .called ++ (c'.messages.drop c.messages.length).map .said

/-- What happens in so many steps of a run. -/
def Backend.history (b : Backend σ) (p : Plan) :
    Nat → Progress → Conversation → σ → List Happening
  | 0, _, _, _ => []
  | n + 1, q, c, s =>
    let (q', c', s') := b.advance p q c s
    b.happenings p q c s ++ history b p n q' c' s'

/-- What happens in a run of an agent. -/
def history (a : Agent) (task : String) (isCancelled : Nat → Bool) (w : World) : List Happening :=
  let p := a.plan isCancelled
  (backend a.tools).history p ((Progress.ready task).remaining p.budget) (.ready task)
    a.conversation ⟨a.provider, a.sandbox, w⟩

/-- A run that is asked for. -/
structure Errand where
  task : String
  /-- The iterations before which it is cancelled. -/
  isCancelled : Nat → Bool

/-- What happens in runs of an agent, one after the other. -/
def histories : List Errand → Agent → World → List Happening
  | [], _, _ => []
  | r :: rest, a, w =>
    let (_, a', w') := a.run r.task r.isCancelled w
    a.history r.task r.isCancelled w ++ histories rest a' w'

/-! ## The form of a history -/

/-- Where a sequence of runs stands: between two runs, before the next iteration of one, or before
the execution of a script. -/
inductive Stage where
  | idle
  | asking
  | acting (code : String)

/-- Where a run stands that has come so far. -/
def Progress.stage : Progress → Stage
  | ready _ | ended _ => .idle
  | iterating _ => .asking
  | executing _ code => .acting code

/-- What one step does, from a stage and a conversation to the next ones: each prompt is that of the
conversation so far, a script is added to the conversation before it is executed, and the step that
executes it adds the reaction to it. -/
inductive Deed (prompt : Conversation → String) :
    Stage → List Message → List Happening → Stage → List Message → Prop where
  | task (ms : List Message) (text : String) :
    Deed prompt .idle ms [.said ⟨.user, text⟩] .asking (ms ++ [⟨.user, text⟩])
  /-- A run that has ended stays where it is. -/
  | pause (ms : List Message) : Deed prompt .idle ms [] .idle ms
  /-- The budget is used up, or the run is cancelled. -/
  | stop (ms : List Message) : Deed prompt .asking ms [] .idle ms
  | failure (ms : List Message) (g : Model.Generated) (fails : ∀ code, g ≠ .code code) :
    Deed prompt .asking ms [.called (.generated (prompt ⟨ms⟩) g)] .idle ms
  | script (ms : List Message) (code : String) :
    Deed prompt .asking ms
      [.called (.generated (prompt ⟨ms⟩) (.code code)), .said ⟨.assistant, code⟩]
      (.acting code) (ms ++ [⟨.assistant, code⟩])
  | breakdown (ms : List Message) (code : String) (failure : Sandbox.Failure) :
    Deed prompt (.acting code) ms [.called (.executed code (.error failure))] .idle ms
  | answer (ms : List Message) (code : String) (e : Sandbox.Execution) (answer : Datum)
      (outcome : e.outcome = .answered answer) :
    Deed prompt (.acting code) ms [.called (.executed code (.ok e))] .idle ms
  | reaction (ms : List Message) (code : String) (e : Sandbox.Execution)
      (outcome : ∀ answer, e.outcome ≠ .answered answer) :
    Deed prompt (.acting code) ms
      (.called (.executed code (.ok e)) :: (Round.reaction e).map .said) .asking
      (ms ++ Round.reaction e)

/-- The form of what happens from a stage and a conversation on: one step after the other, until
there is no run any more. -/
inductive Story (prompt : Conversation → String) :
    Stage → List Message → List Happening → Prop where
  | done (ms : List Message) : Story prompt .idle ms []
  | step {stage stage' : Stage} {ms ms' : List Message} {hs rest : List Happening}
      (deed : Deed prompt stage ms hs stage' ms') (next : Story prompt stage' ms' rest) :
    Story prompt stage ms (hs ++ rest)

/-- No step is left of a run only if it has ended. -/
theorem Progress.exists_ended {q : Progress} {budget : Nat} (h : q.remaining budget = 0) :
    ∃ ending, q = .ended ending := by
  cases q with
  | ended ending => exact ⟨ending, rfl⟩
  | ready _ | iterating _ | executing _ _ => simp only [remaining] at h; omega

namespace Backend

variable {b : Backend σ} {p : Plan} {q : Progress} {c : Conversation} {s : σ}

/-- A script that has come to something without an answer adds the reaction to it. -/
theorem messages_record (c : Conversation) (e : Sandbox.Execution) :
    (record c e).messages = c.messages ++ Round.reaction e := by
  unfold record Round.reaction
  cases e.outcome with
  | failed kind message => rfl
  | continued | answered =>
    dsimp only
    split
    · exact (List.append_nil _).symm
    · rfl

/-- A step of a run makes these calls and adds these messages, and does nothing else that a record
of its calls would show. -/
structure Makes (b : Backend σ) (p : Plan) (q : Progress) (c : Conversation) (s : σ)
    (calls : List Call) (ms : List Message) : Prop where
  recorded : ∀ log, b.recorded.advance p q c (s, log) =
    ((b.advance p q c s).1, (b.advance p q c s).2.1, (b.advance p q c s).2.2, log ++ calls)
  messages : (b.advance p q c s).2.1.messages = c.messages ++ ms
  deed : Deed p.prompt q.stage c.messages (calls.map .called ++ ms.map .said)
    (b.advance p q c s).1.stage (b.advance p q c s).2.1.messages

/-- A step is described by what it comes to, with and without a record. -/
theorem Makes.of_eq (calls : List Call) (ms : List Message) (q' : Progress) (c' : Conversation)
    (s' : σ) (hrun : b.advance p q c s = (q', c', s'))
    (hrec : ∀ log, b.recorded.advance p q c (s, log) = (q', c', s', log ++ calls))
    (hc' : c'.messages = c.messages ++ ms)
    (deed : Deed p.prompt q.stage c.messages (calls.map .called ++ ms.map .said) q'.stage
      (c.messages ++ ms)) : b.Makes p q c s calls ms := by
  refine ⟨fun log => ?_, ?_, ?_⟩
  · rw [hrun, hrec]
  · rw [hrun, hc']
  · rw [hrun, hc']
    exact deed

/-- A step that calls nothing and adds nothing. -/
theorem Makes.of_silent (q' : Progress) (s' : σ) (hrun : b.advance p q c s = (q', c, s'))
    (hrec : ∀ log, b.recorded.advance p q c (s, log) = (q', c, s', log))
    (deed : Deed p.prompt q.stage c.messages [] q'.stage c.messages) : b.Makes p q c s [] [] := by
  refine .of_eq [] [] q' c s' hrun (fun log => ?_) (List.append_nil _).symm ?_
  · rw [hrec, List.append_nil]
  · rw [List.append_nil]
    exact deed

/-- A step that calls the model or the sandbox and adds nothing. -/
theorem Makes.of_call (call : Call) (q' : Progress) (s' : σ)
    (hrun : b.advance p q c s = (q', c, s'))
    (hrec : ∀ log, b.recorded.advance p q c (s, log) = (q', c, s', log ++ [call]))
    (deed : Deed p.prompt q.stage c.messages [.called call] q'.stage c.messages) :
    b.Makes p q c s [call] [] := by
  refine .of_eq [call] [] q' c s' hrun hrec (List.append_nil _).symm ?_
  rw [List.append_nil]
  exact deed

/-- What the step of an iteration makes that asks the model. -/
theorem makes_asking {left : Nat} (hc : p.isCancelled (p.budget - left) = false) :
    ∃ calls ms, b.Makes p (.iterating (left + 1)) c s calls ms := by
  rcases hg : b.generate (p.prompt c) s with ⟨code | message | crash, s₁⟩
  · refine ⟨_, _, .of_eq [.generated (p.prompt c) (.code code)] [⟨.assistant, code⟩]
      (.executing left code) (c.add .assistant code) s₁ ?_ (fun log => ?_) rfl (.script _ code)⟩
    · simp only [advance, hc, hg, Bool.false_eq_true, if_false]
    · simp only [advance, hc, recorded_generate log hg, Bool.false_eq_true, if_false]
  · have fails : ∀ code, Model.Generated.refused message ≠ .code code := by
      intro code h
      cases h
    refine ⟨_, _, .of_call (.generated (p.prompt c) (.refused message)) (.ended (.refused message))
      s₁ ?_ (fun log => ?_) (.failure _ _ fails)⟩
    · simp only [advance, hc, hg, Bool.false_eq_true, if_false]
    · simp only [advance, hc, recorded_generate log hg, Bool.false_eq_true, if_false]
  · have fails : ∀ code, Model.Generated.crashed crash ≠ .code code := by
      intro code h
      cases h
    refine ⟨_, _, .of_call (.generated (p.prompt c) (.crashed crash))
      (.ended (.refused crash.message)) (b.note p .error s!"LLM call crashed: {crash.message}" s₁)
      ?_ (fun log => ?_) (.failure _ _ fails)⟩
    · simp only [advance, hc, hg, Bool.false_eq_true, if_false]
    · simp only [advance, hc, recorded_generate log hg, Bool.false_eq_true, if_false]
      rfl

/-- A record does not show how a run is concluded. -/
theorem recorded_conclude (b : Backend σ) (p : Plan) (iteration : Nat) (answer : Datum) (s : σ)
    (log : List Call) :
    b.recorded.conclude p iteration answer (s, log) =
      ((b.conclude p iteration answer s).1, (b.conclude p iteration answer s).2, log) := by
  unfold conclude
  cases answer.answer <;> rfl

/-- What the step makes that executes a script. -/
theorem makes_acting {left : Nat} {code : String} :
    ∃ calls ms, b.Makes p (.executing left code) c s calls ms := by
  rcases he : b.execute code s with ⟨failure | e, s₁⟩
  · refine ⟨_, _, .of_call (.executed code (.error failure)) (.ended (.broken failure)) s₁ ?_
      (fun log => ?_) (.breakdown _ _ _)⟩
    · simp only [advance, he]
    · simp only [advance, recorded_execute log he]
  · by_cases ho : ∃ answer, e.outcome = .answered answer
    · obtain ⟨answer, ho⟩ := ho
      refine ⟨_, _, .of_call (.executed code (.ok e))
        (.ended (b.conclude p (p.budget - left) answer s₁).1)
        (b.conclude p (p.budget - left) answer s₁).2 ?_ (fun log => ?_) (.answer _ _ _ _ ho)⟩
      · simp only [advance, he, ho]
      · simp only [advance, recorded_execute log he, ho, recorded_conclude]
    · have ho : ∀ answer, e.outcome ≠ .answered answer := fun answer h => ho ⟨answer, h⟩
      refine ⟨_, _, .of_eq [.executed code (.ok e)] (Round.reaction e) (.iterating left)
        (record c e) (b.noteFailure p e s₁) ?_ (fun log => ?_) (messages_record c e)
        (.reaction _ code e ho)⟩
      · simp only [advance, he]
        split
        · next h => exact absurd h (ho _)
        · rfl
        · rfl
      · simp only [advance, recorded_execute log he, recorded_noteFailure]
        split
        · next h => exact absurd h (ho _)
        · rfl
        · rfl

/-- Every step of a run makes calls and adds messages that are those of one deed. -/
theorem exists_makes (b : Backend σ) (p : Plan) (q : Progress) (c : Conversation) (s : σ) :
    ∃ calls ms, b.Makes p q c s calls ms := by
  cases q with
  | ready text =>
    exact ⟨_, _, .of_eq [] [⟨.user, text⟩] _ _ _ rfl (fun log => by rw [List.append_nil]; rfl) rfl
      (.task _ text)⟩
  | ended ending => exact ⟨_, _, .of_silent _ _ rfl (fun _ => rfl) (.pause _)⟩
  | executing left code => exact makes_acting
  | iterating left =>
    cases left with
    | zero => exact ⟨_, _, .of_silent _ _ rfl (fun _ => rfl) (.stop _)⟩
    | succ left =>
      cases hc : p.isCancelled (p.budget - left) with
      | false => exact makes_asking hc
      | true =>
        refine ⟨_, _, .of_silent (.ended (.cancelled (p.budget - left)))
          (b.note p .info s!"Cancelled before iteration {p.budget - left}" s) ?_
          (fun log => ?_) (.stop _)⟩
        · simp only [advance, hc, if_true]
        · simp only [advance, hc, if_true]
          rfl

/-- What happens in a step is what it makes. -/
theorem Makes.happenings_eq {calls : List Call} {ms : List Message}
    (h : b.Makes p q c s calls ms) :
    b.happenings p q c s = calls.map .called ++ ms.map .said := by
  unfold happenings
  rw [h.recorded]
  dsimp only
  rw [h.messages, List.drop_left, List.nil_append]

/-- What happens in a step is one deed. -/
theorem happenings_deed (b : Backend σ) (p : Plan) (q : Progress) (c : Conversation) (s : σ) :
    Deed p.prompt q.stage c.messages (b.happenings p q c s) (b.advance p q c s).1.stage
      (b.advance p q c s).2.1.messages := by
  obtain ⟨calls, ms, h⟩ := b.exists_makes p q c s
  rw [h.happenings_eq]
  exact h.deed

/-! ## Whole runs -/

/-- A step that is left of a run leaves fewer. -/
theorem advance_remaining_le {n : Nat} (hn : q.remaining p.budget ≤ n + 1) :
    (b.advance p q c s).1.remaining p.budget ≤ n := by
  by_cases hq : ∃ ending, q = .ended ending
  · obtain ⟨ending, rfl⟩ := hq
    exact Nat.zero_le n
  · have hlt := (b.advances p q c s).remaining fun ending h => hq ⟨ending, h⟩
    omega

/-- The calls in a history are those of the same steps with a record of their calls. -/
theorem history_calls (b : Backend σ) (p : Plan) (n : Nat) (q : Progress) (c : Conversation) (s : σ)
    (log : List Call) :
    b.recorded.steps p n q c (s, log) =
      ((b.steps p n q c s).1, (b.steps p n q c s).2.1, (b.steps p n q c s).2.2,
        log ++ (b.history p n q c s).filterMap Happening.call?) := by
  induction n generalizing q c s log with
  | zero => exact congrArg (fun l => (q, c, s, l)) (List.append_nil log).symm
  | succ n ih =>
    obtain ⟨calls, ms, h⟩ := b.exists_makes p q c s
    rw [steps, h.recorded]
    dsimp only
    rw [ih, history, List.filterMap_append, h.happenings_eq, Happening.calls_of, List.append_assoc]
    rfl

/-- The messages in a history are those that the steps add to the conversation. -/
theorem history_messages (b : Backend σ) (p : Plan) (n : Nat) (q : Progress) (c : Conversation)
    (s : σ) :
    (b.steps p n q c s).2.1.messages =
      c.messages ++ (b.history p n q c s).filterMap Happening.message? := by
  induction n generalizing q c s with
  | zero => exact (List.append_nil _).symm
  | succ n ih =>
    obtain ⟨calls, ms, h⟩ := b.exists_makes p q c s
    rw [steps, ih, h.messages, history, List.filterMap_append, h.happenings_eq,
      Happening.messages_of, List.append_assoc]

/-- The history of enough steps has the form of a story, if what follows it has. -/
theorem history_story (b : Backend σ) (p : Plan) {n : Nat} (q : Progress) (c : Conversation) (s : σ)
    (rest : List Happening) (hn : q.remaining p.budget ≤ n)
    (next : Story p.prompt .idle (b.steps p n q c s).2.1.messages rest) :
    Story p.prompt q.stage c.messages (b.history p n q c s ++ rest) := by
  induction n generalizing q c s with
  | zero =>
    obtain ⟨ending, rfl⟩ := Progress.exists_ended (Nat.le_zero.1 hn)
    exact next
  | succ n ih =>
    rw [history, List.append_assoc]
    exact .step (b.happenings_deed p q c s) (ih _ _ _ (advance_remaining_le hn) next)

/-- A number of steps after others. -/
theorem steps_add (b : Backend σ) (p : Plan) (m n : Nat) (q : Progress) (c : Conversation) (s : σ) :
    b.steps p (m + n) q c s =
      b.steps p n (b.steps p m q c s).1 (b.steps p m q c s).2.1 (b.steps p m q c s).2.2 := by
  induction m generalizing q c s with
  | zero => rw [Nat.zero_add, steps]
  | succ m ih =>
    rw [Nat.succ_add, steps, steps]
    exact ih _ _ _

/-- A run that has ended stays where it is. -/
theorem steps_ended (b : Backend σ) (p : Plan) (n : Nat) (ending : Ending) (c : Conversation)
    (s : σ) : b.steps p n (.ended ending) c s = (.ended ending, c, s) := by
  induction n with
  | zero => rfl
  | succ n ih => exact ih

/-- Enough steps come to an end. -/
theorem steps_remaining {n : Nat} (hn : q.remaining p.budget ≤ n) :
    ∃ ending, (b.steps p n q c s).1 = .ended ending := by
  induction n generalizing q c s with
  | zero => exact Progress.exists_ended (Nat.le_zero.1 hn)
  | succ n ih => exact ih (advance_remaining_le hn)

/-- Enough steps come to the end that the run has. -/
theorem steps_ready (b : Backend σ) (p : Plan) {n : Nat} (task : String) (c : Conversation) (s : σ)
    (hn : (Progress.ready task).remaining p.budget ≤ n) :
    b.steps p n (.ready task) c s = (.ended (b.run p task c s).1, (b.run p task c s).2) := by
  obtain ⟨m, hm⟩ := b.steps_run p task c s
  obtain ⟨ending, he⟩ := steps_remaining (b := b) (c := c) (s := s) hn
  -- the two numbers of steps lead to one end, as an end is not left any more
  rcases Nat.le_total m n with hmn | hnm
  · obtain ⟨d, rfl⟩ := Nat.exists_eq_add_of_le hmn
    rw [steps_add, hm, steps_ended]
  · obtain ⟨d, rfl⟩ := Nat.exists_eq_add_of_le hnm
    rw [steps_add, he, steps_ended, ← he] at hm
    exact hm

end Backend

/-- A history is that of the run: its messages are those that the run adds to the conversation, and
its calls are those that a record of the run shows. -/
theorem history_run (a : Agent) (task : String) (isCancelled : Nat → Bool) (w : World) :
    (a.run task isCancelled w).2.1.conversation.messages =
        a.conversation.messages ++
          (a.history task isCancelled w).filterMap Happening.message? ∧
      ((backend a.tools).recorded.run (a.plan isCancelled) task a.conversation
          (⟨a.provider, a.sandbox, w⟩, [])).2.2.2 =
        (a.history task isCancelled w).filterMap Happening.call? := by
  have hrun := (backend a.tools).steps_ready (a.plan isCancelled) task a.conversation
    ⟨a.provider, a.sandbox, w⟩ (Nat.le_refl _)
  have hrec := (backend a.tools).recorded.steps_ready (a.plan isCancelled) task a.conversation
    (⟨a.provider, a.sandbox, w⟩, []) (Nat.le_refl _)
  have hmessages := (backend a.tools).history_messages (a.plan isCancelled)
    ((Progress.ready task).remaining a.budget) (.ready task) a.conversation
    ⟨a.provider, a.sandbox, w⟩
  have hcalls := (backend a.tools).history_calls (a.plan isCancelled)
    ((Progress.ready task).remaining a.budget) (.ready task) a.conversation
    ⟨a.provider, a.sandbox, w⟩ []
  constructor
  · exact (congrArg (fun r => r.2.1.messages) hrun).symm.trans hmessages
  · exact (congrArg (fun r => r.2.2.2) hrec).symm.trans (congrArg (fun r => r.2.2.2) hcalls)

/-- What happens in runs of an agent has the form of a story. -/
theorem histories_story (errands : List Errand) (a : Agent) (w : World) :
    Story (prompt a.tools) .idle a.conversation.messages (histories errands a w) := by
  induction errands generalizing a w with
  | nil => exact .done _
  | cons r rest ih =>
    have hrun := (backend a.tools).steps_ready (a.plan r.isCancelled) r.task a.conversation
      ⟨a.provider, a.sandbox, w⟩ (Nat.le_refl _)
    have hrest := ih (a.run r.task r.isCancelled w).2.1 (a.run r.task r.isCancelled w).2.2
    have hstory := (backend a.tools).history_story (a.plan r.isCancelled) (.ready r.task)
      a.conversation ⟨a.provider, a.sandbox, w⟩
      (histories rest (a.run r.task r.isCancelled w).2.1 (a.run r.task r.isCancelled w).2.2)
      (Nat.le_refl _)
    rw [hrun] at hstory
    exact hstory hrest

end ScriptAgent.Agent
