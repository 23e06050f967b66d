import ScriptAgent.Sandbox

/-!
# Reports of executions

The flat form in which the outcome of an execution is handed on: a status, and fields that hold
something or nothing depending on it.
-/

namespace ScriptAgent.Sandbox

/-- What an execution has ended with. -/
inductive Status where
  | continued | answered | failed
deriving DecidableEq, Inhabited

/-- The word for a status. -/
def Status.text : Status → String
  | .continued => "continue"
  | .answered => "final_answer"
  | .failed => "error"

/-- A report of an execution. -/
structure Report where
  status : Status
  output : String
  answer : Datum
  errorKind : Option ErrorKind
  error : Option String
deriving Inhabited

/-- The report of an execution. -/
def Execution.report (e : Execution) : Report :=
  match e.outcome with
  | .continued => ⟨.continued, e.output, .none, none, none⟩
  | .answered d => ⟨.answered, e.output, d, none, none⟩
  | .failed kind message => ⟨.failed, e.output, .none, some kind, some message⟩

end ScriptAgent.Sandbox
