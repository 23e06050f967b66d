import ScriptAgent.Json.Encoded
import ScriptAgent.Validation

/-!
# Bodies of requests

What the body of a request holds. A body counts as data only if its content type says that it is
JSON; without a content type it is taken for JSON as well.
-/

namespace ScriptAgent.Service

/-- Why a body cannot be read. -/
inductive BodyFault where
  /-- The text is no JSON from this place on. -/
  | noJson (position : Nat)
  | unreadable
deriving DecidableEq, Inhabited

/-- Whether a content type says that a body is JSON. -/
def isJson (contentType : String) : Bool :=
  if contentType.isEmpty then true
  else
    let type := Text.stripChars (contentType.toList.takeWhile (· != ';'))
    match Text.splitAt '/' (type.map Char.toLower) with
    | [main, sub] =>
      let sub := String.ofList sub
      main == "application".toList && (sub == "json" || sub.endsWith "+json")
    | _ => false

/-- The data in a body; nothing if the body is empty or holds nothing. -/
def readBody (contentType : String) (body : Bytes) : Except BodyFault Datum :=
  if body.isEmpty then .ok .none
  else if !isJson contentType then .ok (.bytes body)
  else
    match Json.parseBytes body with
    | .ok d => .ok d
    | .error (.located f) =>
      match f.cause with
      | .longInteger _ => .error .unreadable
      | _ => .error (.noJson f.position)
    | .error (.misfit _) => .error .unreadable

/-- A task that is to be run. -/
structure Task where
  text : String
  session : Option String
  budget : Option Int
deriving Inhabited, DecidableEq

/-- A task from its fields. -/
def Task.ofFields (fields : Datum) : Checked Task :=
  (Checked.both (Check.required "task" (Check.textOfLength 1) fields)
    (Checked.both (Check.defaulted "session_id" none (Check.optional Check.text) fields)
      (Check.defaulted "max_iterations" none (Check.optional (Check.integerFrom 0)) fields))).map
    fun (text, session, budget) => ⟨text, session, budget⟩

/-- The task in the data of a body. -/
def Task.ofBody (d : Datum) : Checked Task :=
  (match d with
  | .none => Checked.fault .missing
  | .dict entries => Task.ofFields (.dict entries)
  | _ => Checked.fault .fields).inside (.name "body")

end ScriptAgent.Service
