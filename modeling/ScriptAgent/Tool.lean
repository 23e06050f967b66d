import ScriptAgent.Datum
import ScriptAgent.World

/-!
# Tools

A tool is a function of the host under a name, with a description of its parameters. What calling
it does is a function of its arguments and the surroundings; every way in which the call can end
is an `Outcome`.

A tool has an identity: two tools are the same object exactly if their `id` is the same, which
is what binding tools again compares.
-/

namespace ScriptAgent

/-- The types that parameters are shown with. -/
inductive TypeTag where
  | string | number | boolean | table
deriving DecidableEq, Inhabited

namespace TypeTag

/-- The word for a tag. -/
def text : TypeTag → String
  | .string => "string"
  | .number => "number"
  | .boolean => "boolean"
  | .table => "table"

/-- The tag of a word. -/
def ofText? (s : String) : Option TypeTag :=
  [string, number, boolean, table].find? (·.text == s)

end TypeTag

/-- The type of a parameter: one tag, or a list of those that it admits. -/
inductive ParameterType where
  | one (tag : TypeTag)
  | many (tags : List TypeTag)
deriving DecidableEq, Inhabited

namespace ParameterType

/-- The tags that a parameter admits. -/
def tags : ParameterType → List TypeTag
  | .one t => [t]
  | .many ts => ts

/-- The type as it is shown. -/
def label (t : ParameterType) : String := String.intercalate "|" (t.tags.map TypeTag.text)

end ParameterType

/-- A parameter as it is shown to the model. -/
structure Parameter where
  name : String
  type : ParameterType
  description : String
  required : Bool
deriving DecidableEq, Inhabited

/-- A parameter as it is shown in the signature of its tool. -/
def Parameter.label (p : Parameter) : String :=
  p.name ++ (if p.required then "" else "?") ++ ": " ++ p.type.label

namespace Tool

/-- How the call of a tool's function ends. -/
inductive Outcome where
  | value (d : Datum)
  /-- The function states by itself whether it has succeeded. -/
  | result (ok : Bool) (value : Datum) (error : Option String)
  /-- The function reports a failure. -/
  | refused (message : String)
  /-- The arguments do not fit. -/
  | mismatch (message : String)
  /-- The function fails in any other way. -/
  | crashed (message : String)
deriving Inhabited

end Tool

/-- A tool. -/
structure Tool where
  id : Nat
  name : String
  description : String
  parameters : List Parameter
  run : List Datum → World → Tool.Outcome × World

instance : Inhabited Tool := ⟨⟨0, "", "", [], fun _ w => (.value .none, w)⟩⟩

namespace Tool

/-- A tool as it is shown to the model, under a name; its own name stands in for an empty one. -/
def describe (t : Tool) (name : String) : String :=
  let shown := if name.isEmpty then t.name else name
  s!"- {shown}(" ++ String.intercalate ", " (t.parameters.map Parameter.label) ++ "): " ++
    t.description

/-- What is left of a call once every way of failing has been caught. -/
structure Result where
  ok : Bool
  value : Datum
  error : Option String
deriving Inhabited

/-- The logger of tool calls. -/
def logger : String := "luagent.agent.tool_executor"

/-- Calls a tool. A failure is logged and becomes a result; nothing else leaves the call. -/
def execute (t : Tool) (args : List Datum) (w : World) : Result × World :=
  let (outcome, w) := t.run args w
  match outcome with
  | .value d => (⟨true, d, none⟩, w)
  | .result ok d error => (⟨ok, d, error⟩, w)
  | .refused message =>
    (⟨false, .none, some message⟩,
      w.log logger .warning s!"Tool '{t.name}' reported an error: {message}")
  | .mismatch message =>
    (⟨false, .none, some s!"Invalid arguments for tool '{t.name}': {message}"⟩,
      w.log logger .error s!"Argument error while executing tool '{t.name}'")
  | .crashed message =>
    (⟨false, .none, some s!"Tool '{t.name}' raised an error: {message}"⟩,
      w.log logger .error s!"Unhandled error in tool '{t.name}'")

end Tool

end ScriptAgent
