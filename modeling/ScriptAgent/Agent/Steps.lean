import ScriptAgent.Agent

/-!
# Runs in steps

A run can be made step by step, with other work between any two steps. Each step adds at most one
message to the conversation. Made one after the other, the steps are the run
(`Backend.steps_run`).
-/

namespace ScriptAgent.Agent

/-- How far a run has come. -/
inductive Progress where
  /-- The task is to be recorded. -/
  | ready (task : String)
  /-- The next iteration is to begin; so many are left. -/
  | iterating (left : Nat)
  /-- A script has been recorded and is to be executed; so many iterations are left after it. -/
  | executing (left : Nat) (code : String)
  | ended (ending : Ending)
deriving Inhabited

variable {σ : Type}

/-- The next step of a run. -/
def Backend.advance (b : Backend σ) (p : Plan) :
    Progress → Conversation → σ → Progress × Conversation × σ
  | .ready task, c, s =>
    (.iterating p.budget, c.add .user task, b.note p .info s!"Starting task: {task}" s)
  | .iterating 0, c, s =>
    (.ended (.exhausted p.budget), c, b.note p .warning s!"Gave up after {p.budget} iteration(s)" s)
  | .iterating (left + 1), c, s =>
    let iteration := p.budget - left
    if p.isCancelled iteration then
      (.ended (.cancelled iteration), c,
        b.note p .info s!"Cancelled before iteration {iteration}" s)
    else
      match b.generate (p.prompt c) s with
      | (.refused message, s) => (.ended (.refused message), c, s)
      | (.crashed crash, s) =>
        (.ended (.refused crash.message), c,
          b.note p .error s!"LLM call crashed: {crash.message}" s)
      | (.code code, s) => (.executing left code, c.add .assistant code, s)
  | .executing left code, c, s =>
    match b.execute code s with
    | (.error failure, s) => (.ended (.broken failure), c, s)
    | (.ok e, s) =>
      match e.outcome with
      | .answered answer =>
        let (ending, s) := b.conclude p (p.budget - left) answer s
        (.ended ending, c, s)
      | .continued | .failed .. => (.iterating left, record c e, b.noteFailure p e s)
  | .ended ending, c, s => (.ended ending, c, s)

/-- So many steps of a run. -/
def Backend.steps (b : Backend σ) (p : Plan) :
    Nat → Progress → Conversation → σ → Progress × Conversation × σ
  | 0, q, c, s => (q, c, s)
  | n + 1, q, c, s =>
    let (q, c, s) := b.advance p q c s
    steps b p n q c s

/-- The next step of a run of an agent that is not cancelled. -/
def advance (a : Agent) (q : Progress) (w : World) : Progress × Agent × World :=
  let (q, conversation, s) := (backend a.tools).advance (a.plan never) q a.conversation
    ⟨a.provider, a.sandbox, w⟩
  (q, { a with
    provider := s.provider, conversation := conversation, sandbox := s.sandbox }, s.world)

end ScriptAgent.Agent
