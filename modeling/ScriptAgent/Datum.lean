import ScriptAgent.Decimal.Shortest
import ScriptAgent.Text.Quoted

/-!
# Host values

The values that the host exchanges with scripts, tools and clients. Besides plain data there are the
forms that a tool may answer with and that are turned into plain data on the way to a script:
records, members of enumerations, and objects of which only a text is known.

`Datum.display` is the text of a value in messages, `Datum.quoted` its form as a literal.
-/

namespace ScriptAgent

/-- A value of the host. -/
inductive Datum where
  | none
  | bool (b : Bool)
  | int (i : Int)
  | float (x : Float)
  | str (s : String)
  | bytes (bs : Bytes)
  | list (items : List Datum)
  | tuple (items : List Datum)
  | set (items : List Datum)
  | frozenset (items : List Datum)
  /-- The numbers below `n`. -/
  | range (n : Nat)
  | dict (entries : List (Datum × Datum))
  /-- A record whose fields are validated. -/
  | model (type : String) (fields : List (String × Datum))
  /-- A plain record. -/
  | record (type : String) (fields : List (String × Datum))
  /-- A member of an enumeration. -/
  | choice (type member : String) (value : Datum)
  /-- An object of which only its text is known. -/
  | object (type text : String)
deriving Inhabited, BEq

namespace Datum

/-- The name of a value's type. -/
def typeName : Datum → String
  | .none => "NoneType"
  | .bool _ => "bool"
  | .int _ => "int"
  | .float _ => "float"
  | .str _ => "str"
  | .bytes _ => "bytes"
  | .list _ => "list"
  | .tuple _ => "tuple"
  | .set _ => "set"
  | .frozenset _ => "frozenset"
  | .range _ => "range"
  | .dict _ => "dict"
  | .model type _ | .record type _ | .choice type _ _ | .object type _ => type

/-- Whether a value counts as true. -/
def truthy : Datum → Bool
  | .none | .bool false | .int 0 | .str "" | .bytes [] | .list [] | .tuple [] | .set []
  | .frozenset [] | .range 0 | .dict [] => false
  | .float x => x != 0
  | _ => true

/-- A value, or the default where it counts as false. -/
def orDefault (d default : Datum) : Datum := if d.truthy then d else default

/-- A value, or the default where it is nothing. -/
def orMissing (d default : Datum) : Datum :=
  match d with
  | .none => default
  | d => d

/-- What a value stands for: a member of an enumeration stands for its value. -/
def underlying : Datum → Datum
  | .choice _ _ value => value.underlying
  | d => d

/-! ## Texts -/

/-- The text of an integer. -/
def intText (i : Int) : String := toString i

/-- The text of a float: the fewest digits that read back. -/
def floatText (x : Float) : String := Decimal.hostLayout.render x

/-- Joins texts by commas. -/
def commas (texts : List String) : String := String.intercalate ", " texts

mutual

/-- A value as a literal. -/
def quoted : Datum → String
  | .none => "None"
  | .bool b => if b then "True" else "False"
  | .int i => intText i
  | .float x => floatText x
  | .str s => Text.quoted s
  | .bytes bs => Text.quotedBytes bs
  | .list items => "[" ++ commas (quotedItems items) ++ "]"
  | .tuple [item] => "(" ++ quoted item ++ ",)"
  | .tuple items => "(" ++ commas (quotedItems items) ++ ")"
  | .set [] => "set()"
  | .set items => "\x7b" ++ commas (quotedItems items) ++ "\x7d"
  | .frozenset [] => "frozenset()"
  | .frozenset items => "frozenset(\x7b" ++ commas (quotedItems items) ++ "\x7d)"
  | .range n => s!"range(0, {n})"
  | .dict entries => "\x7b" ++ commas (quotedEntries entries) ++ "\x7d"
  | .model type fields | .record type fields =>
    type ++ "(" ++ commas (quotedFields fields) ++ ")"
  | .choice type member value => s!"<{type}.{member}: " ++ quoted value ++ ">"
  | .object _ text => text

/-- The literals of some values. -/
def quotedItems : List Datum → List String
  | [] => []
  | item :: rest => quoted item :: quotedItems rest

/-- The literals of the entries of a dictionary. -/
def quotedEntries : List (Datum × Datum) → List String
  | [] => []
  | entry :: rest => quotedEntry entry :: quotedEntries rest

/-- The literal of an entry of a dictionary. -/
def quotedEntry : Datum × Datum → String
  | (key, value) => quoted key ++ ": " ++ quoted value

/-- The literals of the fields of a record. -/
def quotedFields : List (String × Datum) → List String
  | [] => []
  | field :: rest => quotedField field :: quotedFields rest

/-- The literal of a field of a record. -/
def quotedField : String × Datum → String
  | (name, value) => name ++ "=" ++ quoted value

end

/-- The text of a value in messages. -/
def display : Datum → String
  | .str s => s
  | .model _ fields => String.intercalate " " (quotedFields fields)
  | .choice type member _ => type ++ "." ++ member
  | d => quoted d

/-! ## Dictionaries -/

/-- The exact value of a number that can be compared with an integer. -/
def asNumber? : Datum → Option Int
  | .bool b => some (if b then 1 else 0)
  | .int i => some i
  | .float x => Decimal.toInt? x
  | _ => Option.none

mutual

/-- Whether two values are the same key of a dictionary: numbers are compared by their values. -/
def sameKey : Datum → Datum → Bool
  | .str s, .str t => s == t
  | .bytes s, .bytes t => s == t
  | .none, .none => true
  | .tuple xs, .tuple ys => sameKeys xs ys
  | .float x, .float y => x == y
  | d, e =>
    match d.asNumber?, e.asNumber? with
    | some i, some j => i == j
    | _, _ => false

/-- Whether two lists hold the same keys. -/
def sameKeys : List Datum → List Datum → Bool
  | [], [] => true
  | d :: ds, e :: es => sameKey d e && sameKeys ds es
  | _, _ => false

end

/-- Puts a value at a key; a new key comes last. -/
def putEntry (key value : Datum) : List (Datum × Datum) → List (Datum × Datum)
  | [] => [(key, value)]
  | (k, v) :: rest =>
    if sameKey k key then (k, value) :: rest else (k, v) :: putEntry key value rest

/-- The dictionary made from entries in order; a later entry replaces the value of an earlier
one with the same key. -/
def ofEntries (entries : List (Datum × Datum)) : Datum :=
  .dict (entries.foldl (fun acc (k, v) => putEntry k v acc) [])

/-- A dictionary with texts as keys. -/
def ofFields (fields : List (String × Datum)) : Datum :=
  .dict (fields.map fun (name, value) => (.str name, value))

/-- The value at a text in a dictionary. -/
def get? (d : Datum) (name : String) : Option Datum :=
  match d with
  | .dict entries => (entries.find? fun (k, _) => sameKey k (.str name)).map Prod.snd
  | _ => Option.none

/-- A list of texts. -/
def texts (ss : List String) : Datum := .list (ss.map Datum.str)

/-- A text that may be missing. -/
def ofText? (s : Option String) : Datum :=
  match s with
  | some s => .str s
  | Option.none => .none

end Datum

end ScriptAgent
