import ScriptAgent.Datum
import ScriptAgent.Validation.Number

/-!
# Checking untyped fields

Fields that come from outside are untyped values. A check turns a value into a typed one, or gives
every fault that it finds, each with its place. Checks are lenient: a word may stand for a truth
value, and a text for a number.

`Checked.both` keeps the faults of both sides, so a record is checked to its end.
-/

namespace ScriptAgent

/-- A rule that a value breaks. -/
inductive Fault where
  | missing
  | text
  /-- Bytes that encode no text. -/
  | textBytes
  | textTooShort (least : Nat)
  | flag
  | flagText
  | integer
  | integerText
  | integerSize
  | integerFraction
  | finite
  | number
  | numberText
  | tooSmall (least : Int)
  | word (choices : List String)
  | list
  | dictionary
  /-- Neither fields nor a record of the type that is named. -/
  | record (type : String)
  /-- Nothing that has fields. -/
  | fields
  | callable
  | json
deriving DecidableEq, Inhabited

namespace Fault

/-- Words in quotes, with "or" before the last one. -/
def alternatives : List String → String
  | [] => ""
  | [w] => s!"'{w}'"
  | [v, w] => s!"'{v}' or '{w}'"
  | w :: rest => s!"'{w}', " ++ alternatives rest

/-- The name of a fault. -/
def kind : Fault → String
  | .missing => "missing"
  | .text => "string_type"
  | .textBytes => "string_unicode"
  | .textTooShort _ => "string_too_short"
  | .flag => "bool_type"
  | .flagText => "bool_parsing"
  | .integer => "int_type"
  | .integerText => "int_parsing"
  | .integerSize => "int_parsing_size"
  | .integerFraction => "int_from_float"
  | .finite => "finite_number"
  | .number => "float_type"
  | .numberText => "float_parsing"
  | .tooSmall _ => "greater_than_equal"
  | .word _ => "enum"
  | .list => "list_type"
  | .dictionary => "dict_type"
  | .record _ => "model_type"
  | .fields => "model_attributes_type"
  | .callable => "callable_type"
  | .json => "json_invalid"

/-- The message of a fault. -/
def message : Fault → String
  | .missing => "Field required"
  | .text => "Input should be a valid string"
  | .textBytes => "Input should be a valid string, unable to parse raw data as a unicode string"
  | .textTooShort least =>
    let unit := if least = 1 then "character" else "characters"
    s!"String should have at least {least} {unit}"
  | .flag => "Input should be a valid boolean"
  | .flagText => "Input should be a valid boolean, unable to interpret input"
  | .integer => "Input should be a valid integer"
  | .integerText => "Input should be a valid integer, unable to parse string as an integer"
  | .integerSize => "Unable to parse input string as an integer, exceeded maximum size"
  | .integerFraction => "Input should be a valid integer, got a number with a fractional part"
  | .finite => "Input should be a finite number"
  | .number => "Input should be a valid number"
  | .numberText => "Input should be a valid number, unable to parse string as a number"
  | .tooSmall least => s!"Input should be greater than or equal to {least}"
  | .word choices => "Input should be " ++ alternatives choices
  | .list => "Input should be a valid list"
  | .dictionary => "Input should be a valid dictionary"
  | .record type => s!"Input should be a valid dictionary or instance of {type}"
  | .fields => "Input should be a valid dictionary or object to extract fields from"
  | .callable => "Input should be callable"
  | .json => "JSON decode error"

end Fault

/-- A part of the way to a place. -/
inductive PathItem where
  | name (s : String)
  | index (i : Nat)
deriving DecidableEq, Inhabited

/-- The text of a part of the way. -/
def PathItem.text : PathItem → String
  | .name s => s
  | .index i => toString i

/-- A fault at a place. -/
structure Issue where
  path : List PathItem
  fault : Fault
deriving DecidableEq, Inhabited

/-- A checked value, or what is wrong with it. -/
abbrev Checked (α : Type) := Except (List Issue) α

namespace Checked

variable {α β : Type}

/-- A single fault. -/
def fault (f : Fault) : Checked α := .error [⟨[], f⟩]

/-- Moves faults to a place further inside. -/
def inside (item : PathItem) (c : Checked α) : Checked α :=
  match c with
  | .ok a => .ok a
  | .error issues => .error (issues.map fun i => ⟨item :: i.path, i.fault⟩)

/-- Two checked values, or the faults of both. -/
def both (a : Checked α) (b : Checked β) : Checked (α × β) :=
  match a, b with
  | .ok a, .ok b => .ok (a, b)
  | .ok _, .error issues => .error issues
  | .error issues, .ok _ => .error issues
  | .error issues, .error more => .error (issues ++ more)

/-- Some checked values, or the faults of all. -/
def all : List (Checked α) → Checked (List α)
  | [] => .ok []
  | c :: rest => (both c (all rest)).map fun (a, as) => a :: as

/-- The faults of two checks, neither of which a value passes. -/
def either (a b : Checked α) : Checked α :=
  match a, b with
  | .ok a, _ => .ok a
  | .error _, .ok b => .ok b
  | .error issues, .error more => .error (issues ++ more)

@[simp] theorem both_ok (a : α) (b : β) : both (.ok a) (.ok b) = .ok (a, b) := rfl

end Checked

/-- A check of an untyped value. -/
abbrev Check (α : Type) := Datum → Checked α

namespace Check

variable {α β : Type}

/-- Takes any value. -/
def any : Check Datum := .ok

/-- A text; bytes and members of enumerations count as theirs. -/
def text : Check String
  | .str s => .ok s
  | .bytes bs =>
    let s := Utf8.decode bs
    if Utf8.encode s = bs then .ok s else Checked.fault .textBytes
  | .choice _ _ value => .ok value.display
  | _ => Checked.fault .text

/-- A text of at least some characters. -/
def textOfLength (least : Nat) : Check String := fun d =>
  match text d with
  | .ok s => if s.length < least then Checked.fault (.textTooShort least) else .ok s
  | .error issues => .error issues

/-- The words that count as true. -/
def yesWords : List String := ["1", "on", "t", "true", "y", "yes"]

/-- The words that count as false. -/
def noWords : List String := ["0", "off", "f", "false", "n", "no"]

/-- The truth value that a word stands for, in any case. -/
def flagOfText (s : String) : Checked Bool :=
  let word := String.ofList (s.toList.map Char.toLower)
  if yesWords.contains word then .ok true
  else if noWords.contains word then .ok false
  else Checked.fault .flagText

/-- The truth value that an integer stands for. -/
def flagOfInt (i : Int) : Checked Bool :=
  if i = 1 then .ok true else if i = 0 then .ok false else Checked.fault .flagText

/-- Whether an integer has at most 64 bits. -/
def isSmall (i : Int) : Bool := -0x8000000000000000 ≤ i && i < 0x8000000000000000

/-- A truth value. -/
def flag : Check Bool
  | .bool b => .ok b
  | .str s => flagOfText s
  | .bytes bs => flagOfText (Utf8.decode bs)
  | .int i => if isSmall i then flagOfInt i else Checked.fault .flag
  | .float x =>
    match Decimal.toInt? x with
    | some i => if isSmall i then flagOfInt i else Checked.fault .flag
    | none => Checked.fault .flag
  | _ => Checked.fault .flag

/-- The integer that a text stands for. -/
def integerOfText (s : String) : Checked Int :=
  if Validation.isOversized s then Checked.fault .integerSize
  else
    match Validation.integer? s with
    | some i => .ok i
    | none => Checked.fault .integerText

/-- An integer. -/
def integer : Check Int
  | .int i => .ok i
  | .bool b => .ok (if b then 1 else 0)
  | .str s => integerOfText s
  | .bytes bs => integerOfText (Utf8.decode bs)
  | .float x =>
    match Decimal.classify x with
    | .finite .. =>
      match Decimal.toInt? x with
      | some i => if isSmall i then .ok i else Checked.fault .integerSize
      | none => Checked.fault .integerFraction
    | _ => Checked.fault .finite
  | .choice _ _ (.int i) => .ok i
  | _ => Checked.fault .integer

/-- An integer that is not below a bound. -/
def integerFrom (least : Int) : Check Int := fun d =>
  match integer d with
  | .ok i => if i < least then Checked.fault (.tooSmall least) else .ok i
  | .error issues => .error issues

/-- A float; only texts are checked, because settings are texts. -/
def numberOfText (s : String) : Checked Float :=
  match Validation.number? s with
  | some x => .ok x
  | none => Checked.fault .numberText

/-- One of some words, each standing for a value. -/
def word (choices : List (String × α)) : Check α := fun d =>
  match text d with
  | .ok s =>
    match choices.lookup s with
    | some a => .ok a
    | none => Checked.fault (.word (choices.map Prod.fst))
  | .error _ => Checked.fault (.word (choices.map Prod.fst))

/-- A value that may be none. -/
def optional (c : Check α) : Check (Option α)
  | .none => .ok none
  | d => (c d).map some

/-- The items of a value that can be read as a list. -/
def items? : Datum → Option (List Datum)
  | .list items | .tuple items | .set items | .frozenset items => some items
  | .range n => some ((List.range n).map fun (i : Nat) => Datum.int i)
  | _ => none

/-- A list of values. -/
def listOf (c : Check α) : Check (List α) := fun d =>
  match items? d with
  | some items => Checked.all (items.zipIdx.map fun (item, i) => (c item).inside (.index i))
  | none => Checked.fault .list

/-! ## Fields -/

/-- A field that has to be there. -/
def required (name : String) (c : Check α) (fields : Datum) : Checked α :=
  (match fields.get? name with
  | some d => c d
  | none => Checked.fault .missing).inside (.name name)

/-- A field with a default. -/
def defaulted (name : String) (default : α) (c : Check α) (fields : Datum) : Checked α :=
  match fields.get? name with
  | some d => (c d).inside (.name name)
  | none => .ok default

end Check

end ScriptAgent
