import ScriptAgent.Datum

/-!
# Writing JSON

`Json.write` writes a host value as JSON in a layout: with or without line breaks, the members of
objects in their own order or sorted by name. Characters beyond ASCII are written as they are.
A float is written by the fewest digits that read back, so reading gives it back.

What is no JSON value is refused: other types, and, where the layout says so, floats that are not
finite.
-/

namespace ScriptAgent.Json

/-- How values are laid out. -/
structure Layout where
  /-- What separates items. -/
  itemSeparator : String
  /-- What separates a name from its value. -/
  nameSeparator : String
  /-- The number of blanks by which the parts of a value are indented, each on its own line. -/
  indent : Option Nat
  sorted : Bool
  finiteOnly : Bool

/-- On one line, with blanks after separators. -/
def Layout.spaced : Layout := ⟨", ", ": ", none, false, false⟩

/-- On one line without blanks, members sorted. -/
def Layout.compact : Layout := ⟨",", ":", none, true, false⟩

/-- Indented by two blanks, members sorted. -/
def Layout.pretty : Layout := ⟨",", ": ", some 2, true, false⟩

/-- On one line without blanks, finite numbers only: the form in which bodies are sent. -/
def Layout.body : Layout := ⟨",", ":", none, false, true⟩

/-- Why a value cannot be written. -/
inductive Refusal where
  | noJson (type : String)
  | noName (type : String)
  /-- Two names that have no order. -/
  | unordered (first second : String)
  | notFinite (x : Float)

/-- The message of a refusal. -/
def Refusal.message : Refusal → String
  | .noJson type => s!"Object of type {type} is not JSON serializable"
  | .noName type => s!"keys must be str, int, float, bool or None, not {type}"
  | .unordered first second =>
    s!"'<' not supported between instances of '{first}' and '{second}'"
  | .notFinite _ => "Out of range float values are not JSON compliant"

/-- Whether a value of the wrong type is the reason. -/
def Refusal.isType : Refusal → Bool
  | .notFinite _ => false
  | _ => true

/-! ## Scalars -/

/-- One character of a string. -/
def escapeChar (c : Char) : List Char :=
  match c with
  | '"' => ['\\', '"']
  | '\\' => ['\\', '\\']
  | '\n' => ['\\', 'n']
  | '\r' => ['\\', 'r']
  | '\t' => ['\\', 't']
  | c =>
    if c.toNat = 8 then ['\\', 'b']
    else if c.toNat = 12 then ['\\', 'f']
    else if c.toNat < 32 then '\\' :: 'u' :: Text.hexDigits 4 c.toNat
    else [c]

/-- A string. -/
def writeString (s : List Char) : List Char := '"' :: s.flatMap escapeChar ++ ['"']

/-- An integer. -/
def writeInt (i : Int) : List Char := (toString i).toList

/-- A float. -/
def writeFloat (l : Layout) (x : Float) : Except Refusal (List Char) :=
  match Decimal.classify x with
  | .finite .. => .ok (Decimal.jsonLayout.render x).toList
  | _ => if l.finiteOnly then .error (.notFinite x) else .ok (Decimal.jsonLayout.render x).toList

/-- The name that a key is written as. -/
def nameOf (l : Layout) (key : Datum) : Except Refusal (List Char) :=
  match key with
  | .str s => .ok s.toList
  | .none => .ok "null".toList
  | .bool b => .ok (if b then "true" else "false").toList
  | .int i => .ok (writeInt i)
  | .float x => writeFloat l x
  | key => .error (.noName key.typeName)

/-! ## Order of members -/

/-- Whether two keys can be compared. -/
def comparable (d e : Datum) : Bool :=
  match d, e with
  | .str _, .str _ => true
  | .bytes _, .bytes _ => true
  | .tuple _, .tuple _ => true
  | .bool _, .bool _ | .bool _, .int _ | .bool _, .float _ => true
  | .int _, .bool _ | .int _, .int _ | .int _, .float _ => true
  | .float _, .bool _ | .float _, .int _ | .float _, .float _ => true
  | _, _ => false

/-- Whether a key does not come after another one. -/
def keyAtMost (d e : Datum) : Bool :=
  match d, e with
  | .str s, .str t => s ≤ t
  | .float x, .float y => !(y < x)
  | .float x, e =>
    match e.asNumber? with
    | some j => Decimal.compareInt j x != some .lt
    | none => true
  | d, .float y =>
    match d.asNumber? with
    | some i => Decimal.compareInt i y != some .gt
    | none => true
  | d, e =>
    match d.asNumber?, e.asNumber? with
    | some i, some j => i ≤ j
    | _, _ => true

/-- The first pair of neighbours that cannot be compared, the later key first. -/
def findUnordered : List Datum → Option (Datum × Datum)
  | d :: e :: rest => if comparable e d then findUnordered (e :: rest) else some (e, d)
  | _ => none

/-- Puts members into the order in which they are written. -/
def arrange {α : Type} (l : Layout) (members : List (Datum × α)) :
    Except Refusal (List (Datum × α)) :=
  if l.sorted then
    match findUnordered (members.map Prod.fst) with
    | some (d, e) => .error (.unordered d.typeName e.typeName)
    | none => .ok (members.mergeSort fun a b => keyAtMost a.1 b.1)
  else .ok members

/-! ## Values -/

/-- A line break and the indentation of a level, if the layout has line breaks. -/
def Layout.newline (l : Layout) (level : Nat) : List Char :=
  match l.indent with
  | some n => '\n' :: List.replicate (n * level) ' '
  | none => []

/-- Puts brackets around parts and separators between them. -/
def Layout.enclose (l : Layout) (level : Nat) (opener closer : Char)
    (parts : List (List Char)) : List Char :=
  if parts.isEmpty then [opener, closer]
  else
    let separator := l.itemSeparator.toList ++ l.newline (level + 1)
    opener :: l.newline (level + 1) ++ List.intercalate separator parts ++ l.newline level ++
      [closer]

mutual

/-- The characters of a value at a level. -/
def writeChars (l : Layout) (level : Nat) : Datum → Except Refusal (List Char)
  | .none => .ok "null".toList
  | .bool b => .ok (if b then "true" else "false").toList
  | .int i => .ok (writeInt i)
  | .float x => writeFloat l x
  | .str s => .ok (writeString s.toList)
  | .list items | .tuple items => do
    return l.enclose level '[' ']' (← writeItems l (level + 1) items)
  | .dict entries => do
    let members ← arrange l (writeEntries l (level + 1) entries)
    return l.enclose level '{' '}' (← members.mapM Prod.snd)
  | d => .error (.noJson d.typeName)

/-- The characters of some values. -/
def writeItems (l : Layout) (level : Nat) : List Datum → Except Refusal (List (List Char))
  | [] => .ok []
  | item :: rest => do
    let first ← writeChars l level item
    return first :: (← writeItems l level rest)

/-- The members of an object, each with its key. -/
def writeEntries (l : Layout) (level : Nat) :
    List (Datum × Datum) → List (Datum × Except Refusal (List Char))
  | [] => []
  | entry :: rest => writeEntry l level entry :: writeEntries l level rest

/-- A member of an object with its key. -/
def writeEntry (l : Layout) (level : Nat) :
    Datum × Datum → Datum × Except Refusal (List Char)
  | (key, value) =>
    let text := writeChars l level value
    (key, do return writeString (← nameOf l key) ++ l.nameSeparator.toList ++ (← text))

end

/-- Writes a value. -/
def write (l : Layout) (d : Datum) : Except Refusal String := do
  return String.ofList (← writeChars l 0 d)

end ScriptAgent.Json
