import Mathlib.Data.List.Basic
import ScriptAgent.Agent.Steps

/-!
# The steps of a run

`Backend.Advances` says what a step of a run can do. It adds to the conversation the task, or else
at most one message that is not the user's (`Backend.Advances.adds`). The steps of a run that begins
with its task come to the end that the run has, with the same conversation and the same state
(`Backend.steps_run`). So whatever the model and the sandbox do, a run adds its task and then
messages that are not the user's (`Backend.run_adds`).
-/

namespace ScriptAgent.Agent

/-- Messages that a run adds after its task. -/
def Replies (ms : List Message) : Prop := ∀ m ∈ ms, m.role ≠ .user

/-- The messages of a run: its task, and none of the user's after it. -/
def Segment (task : String) (ms : List Message) : Prop :=
  ∃ more, ms = ⟨.user, task⟩ :: more ∧ Replies more

theorem replies_nil : Replies [] := nofun

theorem Replies.append {ms ns : List Message} (hm : Replies ms) (hn : Replies ns) :
    Replies (ms ++ ns) := fun m h => (List.mem_append.1 h).elim (hm m) (hn m)

/-- What a step of a run may add to the conversation. -/
def Progress.Adds : Progress → List Message → Prop
  | ready task, ms => ms = [⟨.user, task⟩]
  | iterating _, ms | executing _ _, ms => ms.length ≤ 1 ∧ Replies ms
  | ended _, ms => ms = []

/-- A step after the task adds messages that are not the user's. -/
theorem Progress.Adds.replies {q : Progress} {ms : List Message} (adds : q.Adds ms)
    (hq : ∀ task, q ≠ .ready task) : Replies ms := by
  cases q with
  | ready task => exact absurd rfl (hq task)
  | iterating left | executing left code => exact adds.2
  | ended ending => exact (show ms = [] from adds) ▸ replies_nil

/-- The messages of a run go on with messages that are not the user's. -/
theorem Segment.append {task : String} {ms ns : List Message} (hm : Segment task ms)
    (hn : Replies ns) : Segment task (ms ++ ns) := by
  obtain ⟨more, rfl, hmore⟩ := hm
  exact ⟨more ++ ns, rfl, hmore.append hn⟩

/-- The largest number of steps that are left of a run. -/
def Progress.remaining (budget : Nat) : Progress → Nat
  | ready _ => 2 * budget + 2
  | iterating left => 2 * left + 1
  | executing left _ => 2 * left + 2
  | ended _ => 0

variable {σ : Type}

/-- What a script has come to adds at most one message, of the system. -/
theorem record_adds (c : Conversation) (e : Sandbox.Execution) :
    ∃ ms, (record c e).messages = c.messages ++ ms ∧ ms.length ≤ 1 ∧ Replies ms := by
  have hnone : ∃ ms, c.messages = c.messages ++ ms ∧ ms.length ≤ 1 ∧ Replies ms :=
    ⟨[], (List.append_nil _).symm, Nat.zero_le 1, replies_nil⟩
  have hone : ∀ text, ∃ ms, (c.add .system text).messages = c.messages ++ ms ∧ ms.length ≤ 1 ∧
      Replies ms := fun text =>
    ⟨[⟨.system, text⟩], rfl, Nat.le_refl 1, fun m hm => by simp [List.mem_singleton.1 hm]⟩
  unfold record
  cases e.outcome with
  | failed kind message => exact hone _
  | continued | answered d =>
    dsimp only
    split
    · exact hnone
    · exact hone _

namespace Backend

variable {b : Backend σ} {p : Plan} {c c' : Conversation} {s s' : σ} {q q' : Progress}

/-- What a step of a run can do, to its progress, to the conversation and to the state. -/
inductive Advances (b : Backend σ) (p : Plan) (c : Conversation) (s : σ) :
    Progress → Progress → Conversation → σ → Prop where
  | task (task : String) :
    Advances b p c s (.ready task) (.iterating p.budget) (c.add .user task)
      (b.note p .info s!"Starting task: {task}" s)
  | exhausted :
    Advances b p c s (.iterating 0) (.ended (.exhausted p.budget)) c
      (b.note p .warning s!"Gave up after {p.budget} iteration(s)" s)
  | cancelled {left : Nat} (cancel : p.isCancelled (p.budget - left) = true) :
    Advances b p c s (.iterating (left + 1)) (.ended (.cancelled (p.budget - left))) c
      (b.note p .info s!"Cancelled before iteration {p.budget - left}" s)
  | refused {left : Nat} {message : String} {s' : σ}
      (asks : b.generate (p.prompt c) s = (.refused message, s')) :
    Advances b p c s (.iterating (left + 1)) (.ended (.refused message)) c s'
  | crashed {left : Nat} {crash : Model.Crash} {s' : σ}
      (asks : b.generate (p.prompt c) s = (.crashed crash, s')) :
    Advances b p c s (.iterating (left + 1)) (.ended (.refused crash.message)) c
      (b.note p .error s!"LLM call crashed: {crash.message}" s')
  | script {left : Nat} {code : String} {s' : σ}
      (asks : b.generate (p.prompt c) s = (.code code, s')) :
    Advances b p c s (.iterating (left + 1)) (.executing left code) (c.add .assistant code) s'
  | broken {left : Nat} {code : String} {failure : Sandbox.Failure} {s' : σ}
      (executes : b.execute code s = (.error failure, s')) :
    Advances b p c s (.executing left code) (.ended (.broken failure)) c s'
  | concluded {left : Nat} {code : String} {e : Sandbox.Execution} {answer : Datum} {s' : σ}
      (executes : b.execute code s = (.ok e, s')) (answered : e.outcome = .answered answer) :
    Advances b p c s (.executing left code)
      (.ended (b.conclude p (p.budget - left) answer s').1) c
      (b.conclude p (p.budget - left) answer s').2
  | recorded {left : Nat} {code : String} {e : Sandbox.Execution} {s' : σ}
      (executes : b.execute code s = (.ok e, s')) :
    Advances b p c s (.executing left code) (.iterating left) (record c e) (b.noteFailure p e s')
  | rest (ending : Ending) : Advances b p c s (.ended ending) (.ended ending) c s

/-- A step of a run does one of these. -/
theorem advances (b : Backend σ) (p : Plan) (q : Progress) (c : Conversation) (s : σ) :
    b.Advances p c s q (b.advance p q c s).1 (b.advance p q c s).2.1
      (b.advance p q c s).2.2 := by
  cases q with
  | ready task => exact .task task
  | ended ending => exact .rest ending
  | iterating left =>
    cases left with
    | zero => exact .exhausted
    | succ left =>
      rw [advance]
      split
      · next cancel => exact .cancelled cancel
      split
      · next asks => exact .refused asks
      · next asks => exact .crashed asks
      · next asks => exact .script asks
  | executing left code =>
    rw [advance]
    split
    · next executes => exact .broken executes
    · next executes =>
      split
      · next answered => exact .concluded executes answered
      · exact .recorded executes
      · exact .recorded executes

/-- A step of a run adds its task to the conversation, or at most one message that is not the
user's. -/
theorem Advances.adds (step : b.Advances p c s q q' c' s') :
    ∃ ms, c'.messages = c.messages ++ ms ∧ q.Adds ms := by
  have hnone : ∃ ms, c.messages = c.messages ++ ms ∧ ms.length ≤ 1 ∧ Replies ms :=
    ⟨[], (List.append_nil _).symm, Nat.zero_le 1, replies_nil⟩
  cases step with
  | task task => exact ⟨[⟨.user, task⟩], rfl, rfl⟩
  | rest ending => exact ⟨[], (List.append_nil _).symm, rfl⟩
  | exhausted | cancelled | refused | crashed | broken | concluded => exact hnone
  | @script _ code =>
    exact ⟨[⟨.assistant, code⟩], rfl, Nat.le_refl 1, fun m hm => by simp [List.mem_singleton.1 hm]⟩
  | recorded => exact record_adds c _

/-- After its task has been recorded, a run does not go back to it. -/
theorem Advances.ne_ready (step : b.Advances p c s q q' c' s') (task : String) :
    q' ≠ .ready task := by
  cases step <;> exact nofun

/-- Each step brings a run nearer to its end. -/
theorem Advances.remaining (step : b.Advances p c s q q' c' s') (hq : ∀ ending, q ≠ .ended ending) :
    q'.remaining p.budget < q.remaining p.budget := by
  cases step with
  | rest ending => exact absurd rfl (hq ending)
  | exhausted => exact Nat.one_pos
  | cancelled | refused | crashed | broken | concluded => exact Nat.succ_pos _
  | task | script | recorded => exact Nat.lt_succ_self _

/-- The steps from the next iteration on come to the end of the loop. -/
theorem steps_iterate (b : Backend σ) (p : Plan) (left : Nat) (c : Conversation) (s : σ) :
    ∃ n, b.steps p n (.iterating left) c s =
      (.ended (b.iterate p left c s).1, (b.iterate p left c s).2) := by
  induction left generalizing c s with
  | zero => exact ⟨1, rfl⟩
  | succ left ih =>
    by_cases hc : p.isCancelled (p.budget - left) = true
    · refine ⟨1, ?_⟩
      rw [iterate, steps, advance]
      simp only [hc, if_true, steps]
    rcases hg : b.generate (p.prompt c) s with ⟨code | message | crash, s₁⟩
    · rcases he : b.execute code s₁ with ⟨failure | e, s₂⟩
      · refine ⟨2, ?_⟩
        rw [iterate, steps, advance]
        simp only [hc, hg, he, steps, advance, Bool.false_eq_true, if_false]
      · cases ho : e.outcome with
        | answered answer =>
          refine ⟨2, ?_⟩
          rw [iterate, steps, advance]
          simp only [hc, hg, he, ho, steps, advance, Bool.false_eq_true, if_false]
        | continued | failed kind message =>
          -- the script is recorded and executed, and the rest of the loop follows
          obtain ⟨n, hn⟩ := ih (record (c.add .assistant code) e) (b.noteFailure p e s₂)
          refine ⟨n + 1 + 1, ?_⟩
          rw [iterate, steps, advance]
          simp only [hc, hg, he, ho, steps, advance, Bool.false_eq_true, if_false]
          exact hn
    · refine ⟨1, ?_⟩
      rw [iterate, steps, advance]
      simp only [hc, hg, steps, Bool.false_eq_true, if_false]
    · refine ⟨1, ?_⟩
      rw [iterate, steps, advance]
      simp only [hc, hg, steps, Bool.false_eq_true, if_false]

/-- The steps of a run come to its end. -/
theorem steps_run (b : Backend σ) (p : Plan) (task : String) (c : Conversation) (s : σ) :
    ∃ n, b.steps p n (.ready task) c s =
      (.ended (b.run p task c s).1, (b.run p task c s).2) := by
  obtain ⟨n, hn⟩ := b.steps_iterate p p.budget (c.add .user task)
    (b.note p .info s!"Starting task: {task}" s)
  exact ⟨n + 1, hn⟩

/-- Steps after the task add messages that are not the user's. -/
theorem steps_adds (n : Nat) (hq : ∀ task, q ≠ .ready task) :
    ∃ ms, (b.steps p n q c s).2.1.messages = c.messages ++ ms ∧ Replies ms := by
  induction n generalizing q c s with
  | zero => exact ⟨[], (List.append_nil _).symm, replies_nil⟩
  | succ n ih =>
    have step := b.advances p q c s
    obtain ⟨ms, hms, hadds⟩ := step.adds
    have hreplies := hadds.replies hq
    obtain ⟨more, hmore, hmore'⟩ := ih (q := (b.advance p q c s).1) (c := (b.advance p q c s).2.1)
      (s := (b.advance p q c s).2.2) step.ne_ready
    refine ⟨ms ++ more, ?_, hreplies.append hmore'⟩
    rw [← List.append_assoc, ← hms]
    exact hmore

/-- A run adds its task to the conversation, and then messages that are not the user's. -/
theorem run_adds (b : Backend σ) (p : Plan) (task : String) (c : Conversation) (s : σ) :
    ∃ ms, (b.run p task c s).2.1.messages = c.messages ++ ms ∧ Segment task ms := by
  obtain ⟨n, hn⟩ := b.steps_iterate p p.budget (c.add .user task)
    (b.note p .info s!"Starting task: {task}" s)
  obtain ⟨more, hmore, hreplies⟩ := steps_adds (b := b) (p := p) (q := .iterating p.budget)
    (c := c.add .user task) (s := b.note p .info s!"Starting task: {task}" s) n nofun
  rw [hn] at hmore
  refine ⟨⟨.user, task⟩ :: more, ?_, more, rfl, hreplies⟩
  rw [Conversation.messages_add, List.append_assoc] at hmore
  exact hmore

end Backend

/-- A step of a run of an agent adds its task to the conversation, or at most one message that is
not the user's. -/
theorem advance_adds (a : Agent) (q : Progress) (w : World) :
    ∃ ms, (a.advance q w).2.1.conversation.messages = a.conversation.messages ++ ms ∧ q.Adds ms :=
  ((backend a.tools).advances (a.plan never) q a.conversation ⟨a.provider, a.sandbox, w⟩).adds

/-- After its task has been recorded, a run of an agent does not go back to it. -/
theorem advance_ne_ready (a : Agent) (q : Progress) (w : World) (task : String) :
    (a.advance q w).1 ≠ .ready task :=
  ((backend a.tools).advances (a.plan never) q a.conversation
    ⟨a.provider, a.sandbox, w⟩).ne_ready task

/-- A run of an agent adds its task to the conversation, and then messages that are not the
user's. -/
theorem run_adds (a : Agent) (task : String) (isCancelled : Nat → Bool) (w : World) :
    ∃ ms, (a.run task isCancelled w).2.1.conversation.messages = a.conversation.messages ++ ms ∧
      Segment task ms :=
  (backend a.tools).run_adds (a.plan isCancelled) task a.conversation ⟨a.provider, a.sandbox, w⟩

/-- Each step brings a run of an agent nearer to its end. -/
theorem advance_remaining (a : Agent) {q : Progress} (hq : ∀ ending, q ≠ .ended ending)
    (w : World) : (a.advance q w).1.remaining a.budget < q.remaining a.budget :=
  ((backend a.tools).advances (a.plan never) q a.conversation
    ⟨a.provider, a.sandbox, w⟩).remaining hq

/-- So many steps of a run of an agent. -/
def steps : Nat → Progress → Agent → World → Progress × Agent × World
  | 0, q, a, w => (q, a, w)
  | n + 1, q, a, w =>
    let (q, a, w) := a.advance q w
    steps n q a w

/-- The steps of a run of an agent are those with its model and its sandbox. -/
theorem steps_eq (n : Nat) (q : Progress) (a : Agent) (w : World) :
    steps n q a w =
      let (q, conversation, s) := (backend a.tools).steps (a.plan never) n q a.conversation
        ⟨a.provider, a.sandbox, w⟩
      (q, { a with
        provider := s.provider, conversation := conversation, sandbox := s.sandbox },
        s.world) := by
  induction n generalizing q a w with
  | zero => rfl
  | succ n ih =>
    rw [steps, Backend.steps]
    exact ih _ _ _

/-- The steps of a run of an agent come to its end. -/
theorem steps_run (a : Agent) (task : String) (w : World) :
    ∃ n, steps n (.ready task) a w = (.ended (a.run task never w).1, (a.run task never w).2) := by
  obtain ⟨n, hn⟩ := (backend a.tools).steps_run (a.plan never) task a.conversation
    ⟨a.provider, a.sandbox, w⟩
  exact ⟨n, by rw [steps_eq, hn]; rfl⟩

/-- A number of steps after others. -/
theorem steps_add (m n : Nat) (q : Progress) (a : Agent) (w : World) :
    steps (m + n) q a w =
      steps n (steps m q a w).1 (steps m q a w).2.1 (steps m q a w).2.2 := by
  induction m generalizing q a w with
  | zero => rw [Nat.zero_add, steps]
  | succ m ih =>
    rw [Nat.succ_add, steps, steps]
    exact ih _ _ _

/-- A run that has ended stays where it is. -/
theorem steps_ended (n : Nat) (ending : Ending) (a : Agent) (w : World) :
    steps n (.ended ending) a w = (.ended ending, a, w) := by
  induction n with
  | zero => rfl
  | succ n ih => exact ih

/-- A run has one end. -/
theorem eq_of_steps_ended {m n : Nat} {q : Progress} {a : Agent} {w : World}
    {ending ending' : Ending} {x x' : Agent × World} (hm : steps m q a w = (.ended ending, x))
    (hn : steps n q a w = (.ended ending', x')) : ending = ending' ∧ x = x' := by
  have hle : ∀ {m n ending ending' x x'}, m ≤ n → steps m q a w = (.ended ending, x) →
      steps n q a w = (.ended ending', x') → ending = ending' ∧ x = x' := by
    intro m n ending ending' x x' hmn hm hn
    obtain ⟨d, rfl⟩ := Nat.exists_eq_add_of_le hmn
    rw [steps_add, hm, steps_ended] at hn
    cases hn
    exact ⟨rfl, rfl⟩
  rcases Nat.le_total m n with hmn | hnm
  · exact hle hmn hm hn
  · obtain ⟨hending, hx⟩ := hle hnm hn hm
    exact ⟨hending.symm, hx.symm⟩

end ScriptAgent.Agent
