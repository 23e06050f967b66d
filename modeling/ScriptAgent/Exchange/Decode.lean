import ScriptAgent.Datum
import ScriptAgent.Script.State

/-!
# From scripts to the host

`decode` reads a script value as plain data. A table whose keys are exactly the integers from one
to the number of its entries is a list, any other table a dictionary with texts as keys.
Functions, coroutines and what belongs to the host are read as nothing, and so is a table that
lies inside itself or deeper than `maxDepth`.

A reading is one pass over the heap. It numbers the tables that it comes to, and remembers the
numbers of those that it is inside of; a number is forgotten when its table has been read, so a
table that is reached on two ways is read in full on each of them. The entries of a table are read
in the order in which they are enumerated (`Enumeration`), those of a sequence in the order of
their indices.
-/

namespace ScriptAgent.Exchange

open Script

/-- The deepest level at which tables are read. -/
def maxDepth : Nat := 100

/-- The kinds of script values, as the host sees them. -/
inductive Kind where
  | nil | boolean | number | string | table | other
deriving DecidableEq, Inhabited

namespace Kind

/-- The word for a kind. -/
def text : Kind → String
  | .nil => "nil"
  | .boolean => "boolean"
  | .number => "number"
  | .string => "string"
  | .table => "table"
  | .other => "opaque"

/-- The kind of a value. A text of the host is a text again. -/
def ofValue : Value → Kind
  | .nil => .nil
  | .bool _ => .boolean
  | .num _ => .number
  | .str _ | .foreign _ => .string
  | .table _ => .table
  | _ => .other

end Kind

/-- The text of a number as a key: a float that is an integer is written like that integer. -/
def numberText : Script.Num → String
  | .int i => Datum.intText i.toInt
  | .float x =>
    match Decimal.toInt? x with
    | some i => Datum.intText i
    | none => Datum.floatText x

/-- The text that a key is read as. -/
def keyText : Value → String
  | .str s => Utf8.decode s
  | .bool b => if b then "true" else "false"
  | .num n => numberText n
  | .foreign t => t
  | .nil => "None"
  | v => "<" ++ Bytes.latin1 (Operation.plainText v) ++ ">"

/-- Reads a value that is no table. -/
def decodeScalar : Value → Datum
  | .bool b => .bool b
  | .num (.int i) => .int i.toInt
  | .num (.float x) => .float x
  | .str s => .str (Utf8.decode s)
  | .foreign t => .str t
  | _ => .none

/-! ## Tables -/

/-- An order in which the entries of tables are enumerated. -/
structure Enumeration where
  items : Table → List (Key × Value)
  perm : ∀ t, (items t).Perm t.toList

/-- The enumeration by the order of keys. -/
def Enumeration.byKey : Enumeration := ⟨Table.toList, fun _ => .refl _⟩

/-- Whether a key is an integer. -/
def isIndex : Key → Bool
  | .int _ => true
  | _ => false

/-- The values of a sequence in the order of their indices: of entries whose keys are exactly the
integers from one to the number of the entries. -/
def sequence? (items : List (Key × Value)) : Option (List Value) :=
  if items.all fun e => isIndex e.1 then
    let sorted := items.mergeSort fun e f => e.1.number ≤ f.1.number
    if sorted.map (fun e => e.1.number) =
        (List.range items.length).map fun i : Nat => (i : Int) + 1 then
      some (sorted.map Prod.snd)
    else none
  else none

/-! ## Readings -/

/-- A reading: the numbers of the tables that it has come to, and of those that it is inside of. -/
structure Reading where
  ids : Std.ExtTreeMap Address Nat
  path : List Nat

namespace Reading

/-- A reading that has come to no table. -/
def fresh : Reading := ⟨∅, []⟩

/-- The number of a table; one that has none is given the next. -/
def identify (s : Reading) (a : Address) : Nat × Reading :=
  match s.ids[a]? with
  | some id => (id, s)
  | none => (s.ids.size + 1, ⟨s.ids.insert a (s.ids.size + 1), s.path⟩)

/-- Goes inside a table. -/
def enter (s : Reading) (id : Nat) : Reading := ⟨s.ids, id :: s.path⟩

/-- Leaves a table. -/
def leave (s : Reading) (id : Nat) : Reading := ⟨s.ids, s.path.filter (· ≠ id)⟩

end Reading

/-- Reads values one after the other; `done` are those that have been read, the last one first. -/
def readAll (read : Value → Reading → Datum × Reading) (done : List Datum) :
    List Value → Reading → List Datum × Reading
  | [], s => (done.reverse, s)
  | v :: rest, s =>
    let (d, s) := read v s
    readAll read (d :: done) rest s

/-- Reads the entries of a table: the values of a sequence, or a dictionary. -/
def readItems (read : Value → Reading → Datum × Reading) (items : List (Key × Value))
    (s : Reading) : Datum × Reading :=
  match sequence? items with
  | some vs =>
    let (ds, s) := readAll read [] vs s
    (.list ds, s)
  | none =>
    let (ds, s) := readAll read [] (items.map Prod.snd) s
    (Datum.ofEntries ((items.map fun e => Datum.str (keyText e.1.value)).zip ds), s)

/-- Reads a value at a level that leaves room for `room` more. -/
def read (e : Enumeration) (h : Heap) : Nat → Value → Reading → Datum × Reading
  | room, v, s =>
    match v, room with
    | .table _, 0 => (.none, s)
    | .table a, room + 1 =>
      let (id, s) := s.identify a
      if s.path.contains id then (.none, s)
      else
        let (d, s) := readItems (read e h room) (e.items (h.table a)) (s.enter id)
        (d, s.leave id)
    | v, _ => (decodeScalar v, s)

/-- Reads a value, with the entries of tables in some order. -/
def decodeBy (e : Enumeration) (h : Heap) (v : Value) : Datum := (read e h maxDepth v .fresh).1

/-- Reads a value. -/
def decode (h : Heap) (v : Value) : Datum := decodeBy .byKey h v

end ScriptAgent.Exchange
