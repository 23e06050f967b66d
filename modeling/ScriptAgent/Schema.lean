import ScriptAgent.Conversation
import ScriptAgent.Sandbox.Report
import ScriptAgent.Validation

/-!
# Records from untyped fields

The records that cross the borders of the library, read from untyped fields. Fields are checked in
the order in which they are declared, and unknown fields are passed over.
-/

namespace ScriptAgent

open Checked Check

/-! ## Tools -/

/-- The words for tags. -/
def TypeTag.choices : List (String × TypeTag) :=
  [TypeTag.string, .number, .boolean, .table].map fun t => (t.text, t)

namespace Check

/-- The type of a parameter: the word for a tag, or a list of such words. -/
def parameterType : Check ParameterType := fun d =>
  either (((word TypeTag.choices d).inside (.name "str-enum[TypeTag]")).map .one)
    (((listOf (word TypeTag.choices) d).inside (.name "list[str-enum[TypeTag]]")).map .many)

/-- A parameter from its fields. -/
def parameterFields : Check Parameter := fun fields =>
  (both (required "name" text fields)
    (both (defaulted "type" (.one .string) parameterType fields)
      (both (defaulted "description" "" text fields)
        (defaulted "required" true flag fields)))).map
    fun (name, type, description, isRequired) => ⟨name, type, description, isRequired⟩

/-- A record of a type, given as a dictionary of its fields. -/
def record {α : Type} (type : String) (c : Check α) : Check α
  | .dict entries => c (.dict entries)
  | _ => Checked.fault (.record type)

/-- A function; no plain value is one. -/
def function : Check Empty := fun _ => Checked.fault .callable

/-- A tool from its fields, which plain values never make. -/
def tool : Check Empty := record "Tool" fun fields =>
  (both (required "name" text fields)
    (both (defaulted "description" "" text fields)
      (both (defaulted "parameters" [] (listOf (record "Parameter" parameterFields)) fields)
        (required "function" function fields)))).map fun (_, _, _, f) => f

/-- The name and the description of a tool. -/
def toolLabels (name description : Datum) : Checked (String × String) :=
  both ((text name).inside (.name "name")) ((text description).inside (.name "description"))

/-- The text of a key in a path. -/
def keyText : Datum → String
  | .str s => s
  | d => d.quoted

/-- A dictionary from names to tools, of which plain values make only the empty one. -/
def toolMap : Check (List (String × Empty))
  | .dict entries =>
    all (entries.map fun (key, value) =>
      (both ((text key).inside (.name "[key]")) (tool value)).inside (.name (keyText key)))
  | _ => Checked.fault .dictionary

end Check

/-- A parameter as plain data. -/
def Parameter.toDatum (p : Parameter) : Datum :=
  Datum.ofFields [("name", .str p.name),
    ("type", match p.type with
      | .one t => .str t.text
      | .many ts => Datum.texts (ts.map TypeTag.text)),
    ("description", .str p.description), ("required", .bool p.required)]

namespace Tool

/-- A tool from a name, a description and parameters that are untyped. The parameters are checked
one after the other, before the name. -/
def ofFields (name description : Datum) (parameters : List Datum) (id : Nat)
    (run : List Datum → World → Outcome × World) : Checked Tool := do
  let parameters ← parameters.mapM parameterFields
  let (name, description) ← toolLabels name description
  return ⟨id, name, description, parameters, run⟩

/-- The result of a call from its fields. -/
def Result.ofFields (fields : Datum) : Checked Result :=
  (both (required "ok" flag fields)
    (both (defaulted "value" .none any fields)
      (defaulted "error" none (optional text) fields))).map
    fun (ok, value, error) => ⟨ok, value, error⟩

end Tool

/-! ## Data in answers -/

namespace Datum

mutual

/-- The name of a key in plain data: the parts of a tuple are joined by commas. -/
def plainName : Datum → String
  | .str s => s
  | .bool b => if b then "true" else "false"
  | .bytes bs => Utf8.decode bs
  | .tuple items => String.intercalate "," (plainNames items)
  | .choice _ _ value => plainName value
  | d => d.display

/-- The names of some keys. -/
def plainNames : List Datum → List String
  | [] => []
  | d :: rest => plainName d :: plainNames rest

end

mutual

/-- A value as plain data: sequences as lists, bytes as texts, records as dictionaries. Of two keys
with one name the later gives the value. -/
def plain : Datum → Datum
  | .bytes bs => .str (Utf8.decode bs)
  | .list items | .tuple items | .set items | .frozenset items => .list (plainItems items)
  | .dict entries => ofEntries (plainEntries entries)
  | .model _ fields | .record _ fields => .dict (plainFields fields)
  | .choice _ _ value => plain value
  | d => d

/-- Some values as plain data. -/
def plainItems : List Datum → List Datum
  | [] => []
  | d :: rest => plain d :: plainItems rest

/-- Entries as plain data. -/
def plainEntries : List (Datum × Datum) → List (Datum × Datum)
  | [] => []
  | entry :: rest => plainEntry entry :: plainEntries rest

/-- An entry as plain data. -/
def plainEntry : Datum × Datum → Datum × Datum
  | (key, value) => (.str (plainName key), plain value)

/-- Fields as plain data. -/
def plainFields : List (String × Datum) → List (Datum × Datum)
  | [] => []
  | field :: rest => plainField field :: plainFields rest

/-- A field as plain data. -/
def plainField : String × Datum → Datum × Datum
  | (name, value) => (.str name, plain value)

end

end Datum

/-- The result of a call as plain data. -/
def Tool.Result.toDatum (r : Tool.Result) : Datum :=
  Datum.ofFields [("ok", .bool r.ok), ("value", r.value.plain), ("error", Datum.ofText? r.error)]

/-! ## Messages -/

/-- The words for roles. -/
def Role.choices : List (String × Role) := Role.all.map fun r => (r.text, r)

/-- A message from its fields. -/
def Message.ofFields (fields : Datum) : Checked Message :=
  (both (required "role" (word Role.choices) fields) (required "content" text fields)).map
    fun (role, content) => ⟨role, content⟩

/-- A message as plain data. -/
def Message.toDatum (m : Message) : Datum :=
  Datum.ofFields [("role", .str m.role.text), ("content", .str m.content)]

/-- Adds a message whose content is untyped. -/
def Conversation.addChecked (c : Conversation) (role : Role) (content : Datum) :
    Checked Conversation :=
  ((text content).inside (.name "content")).map (c.add role)

/-! ## Reports -/

namespace Sandbox

/-- The words for statuses. -/
def Status.choices : List (String × Status) :=
  [Status.continued, .answered, .failed].map fun s => (s.text, s)

/-- The words for kinds of failure. -/
def ErrorKind.choices : List (String × ErrorKind) :=
  [ErrorKind.compilation, .runtime].map fun k => (k.text, k)

/-- A report from its fields. -/
def Report.ofFields (fields : Datum) : Checked Report :=
  (both (required "status" (word Status.choices) fields)
    (both (defaulted "output" "" text fields)
      (both (defaulted "final_answer" .none any fields)
        (both (defaulted "error_kind" none (optional (word ErrorKind.choices)) fields)
          (defaulted "error" none (optional text) fields))))).map
    fun (status, output, answer, kind, error) => ⟨status, output, answer, kind, error⟩

/-- A report as plain data. -/
def Report.toDatum (r : Report) : Datum :=
  Datum.ofFields [("status", .str r.status.text), ("output", .str r.output),
    ("final_answer", r.answer.plain),
    ("error_kind", Datum.ofText? (r.errorKind.map ErrorKind.text)),
    ("error", Datum.ofText? r.error)]

end Sandbox

/-! ## Agents -/

namespace Check

/-- The budget of an agent: the number of scripts that a run may execute. -/
def budget : Check Nat := fun d => (integerFrom 0 d).map Int.toNat

/-- The budget and the name of an agent. -/
def agentOptions (budgetDatum name : Datum) : Checked (Nat × String) :=
  both ((budget budgetDatum).inside (.name "max_iterations")) ((text name).inside (.name "name"))

/-- The budget and the name of an agent from the fields of its options. -/
def agentFields (fields : Datum) : Checked (Nat × String) :=
  (both (defaulted "tools" [] toolMap fields)
    (both (defaulted "max_iterations" 10 budget fields)
      (defaulted "name" "Luagent" text fields))).map fun (_, options) => options

end Check

end ScriptAgent
