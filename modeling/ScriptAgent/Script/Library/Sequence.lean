import ScriptAgent.Script.Library.Argument

/-!
# Functions on sequences

The functions on tables that hold values at successive integers. They read and write through
metamethods like the script's own code.

`table.sort` sorts in place: it moves a median of three to the end, splits the rest around it and
sorts the two parts, the shorter one first. A comparison that contradicts itself may let a
scan leave its part, which is an error of the caller.
-/

namespace ScriptAgent.Script.Library

open Invocation

/-! ## Access -/

/-- What a function does with a table. -/
structure Access where
  reads : Bool
  writes : Bool
  measures : Bool

/-- Whether a value has a metamethod, if it needs one. -/
def allows (v : Value) (needed : Bool) (event : String) : Program Bool := do
  if needed then return (← Operation.handler v event) != .nil else return true

/-- A table, or a value whose metatable makes up for what is done with it. -/
def accessible (inv : Invocation) (i : Nat) (a : Access) : Program Value := do
  let v := inv.arg i
  match v with
  | .table _ => return v
  | _ =>
    if (← Program.queryOne (.metatable v)) == .nil then inv.wrongType i "table"
    else if !(← allows v a.reads "index") then inv.wrongType i "table"
    else if !(← allows v a.writes "newindex") then inv.wrongType i "table"
    else if !(← allows v a.measures "len") then inv.wrongType i "table"
    else return v

/-- The number of values of a sequence. -/
def measure (inv : Invocation) (v : Value) : Program Int64 := do
  match ← Operation.length .library none v with
  | .num n =>
    match n.toInt? with
    | some i => return i
    | none => inv.failText "object length is not an integer"
  | _ => inv.failText "object length is not an integer"

/-- A sequence and the number of its values. -/
def sequence (inv : Invocation) (reads writes : Bool) : Program (Value × Int64) := do
  let v ← accessible inv 1 ⟨reads, writes, true⟩
  return (v, ← measure inv v)

/-- The value at an integer. -/
def item (v : Value) (i : Int64) : Program Value :=
  Operation.index .library none v (.num (.int i))

/-- Writes a value at an integer. -/
def setItem (v : Value) (i : Int64) (w : Value) : Program Unit :=
  Operation.setIndex .library none v (.num (.int i)) w

/-! ## Moving values -/

/-- Moves the values below `i` up by one place, `n` of them, from the top. -/
def shiftUp (t : Value) (i : Int64) : Nat → Program Unit
  | 0 => .done ()
  | n + 1 => do
    setItem t i (← item t (i - 1))
    shiftUp t (i - 1) n

/-- `table.insert`. -/
def tableInsert (inv : Invocation) : Program (List Value) := do
  let (t, size) ← sequence inv true true
  let e := size + 1
  match inv.args.length with
  | 2 =>
    setItem t e (inv.arg 2)
    return []
  | 3 =>
    let i ← inv.integer 2
    if (i - 1).toUInt64 < e.toUInt64 then
      shiftUp t e (e - i).toInt.toNat
      setItem t i (inv.arg 3)
      return []
    else inv.wrongText 2 "position out of bounds"
  | _ => inv.failText "wrong number of arguments to 'insert'"

/-- Moves the values above `i` down by one place, `n` of them, from the bottom. -/
def shiftDown (t : Value) (i : Int64) : Nat → Program Unit
  | 0 => .done ()
  | n + 1 => do
    setItem t i (← item t (i + 1))
    shiftDown t (i + 1) n

/-- `table.remove`. -/
def tableRemove (inv : Invocation) : Program (List Value) := do
  let (t, size) ← sequence inv true true
  let i ← inv.integerOr 2 size
  if i != size && !((i - 1).toUInt64 ≤ size.toUInt64) then
    inv.wrongText 2 "position out of bounds"
  let v ← item t i
  let count := if i < size then (size - i).toInt.toNat else 0
  shiftDown t i count
  setItem t (i + Int64.ofNat count) .nil
  return [v]

/-- Copies `n` values upwards. -/
def copyUp (s t : Value) (i j : Int64) : Nat → Program Unit
  | 0 => .done ()
  | n + 1 => do
    setItem t j (← item s i)
    copyUp s t (i + 1) (j + 1) n

/-- Copies `n` values downwards, the last one first. -/
def copyDown (s t : Value) (i j : Int64) : Nat → Program Unit
  | 0 => .done ()
  | n + 1 => do
    setItem t (j + Int64.ofNat n) (← item s (i + Int64.ofNat n))
    copyDown s t i j n

/-- `table.move`. -/
def tableMove (inv : Invocation) : Program (List Value) := do
  let first ← inv.integer 2
  let last ← inv.integer 3
  let target ← inv.integer 4
  let place := if inv.lacks 5 then 1 else 5
  let s ← accessible inv 1 ⟨true, false, false⟩
  let t ← accessible inv place ⟨false, true, false⟩
  if last ≥ first then
    if !(first > 0 || last.toInt < 0x7FFFFFFFFFFFFFFF + first.toInt) then
      inv.wrongText 3 "too many elements to move"
    let n := (last.toInt - first.toInt + 1).toNat
    if !(target.toInt ≤ 0x7FFFFFFFFFFFFFFF - n + 1) then inv.wrongText 4 "destination wrap around"
    let apart ← do
      if target > last || target ≤ first then pure true
      else if place = 1 then pure false
      else pure (!(← Operation.equal .library s t))
    if apart then copyUp s t first target n else copyDown s t first target n
  return [t]

/-! ## Joining and packing -/

/-- The text of the value at an integer. -/
def itemText (inv : Invocation) (t : Value) (i : Int64) : Program Bytes := do
  match (← item t i).toBytes? with
  | some s => return s
  | none =>
    inv.failText s!"invalid value (at index {i.toInt}) in table for 'concat'"

/-- The texts of `n` values, each after the separator; in reverse order. -/
def joinItems (inv : Invocation) (t : Value) (separator : Bytes) (i : Int64)
    (acc : List Bytes) : Nat → Program (List Bytes)
  | 0 => .done acc
  | n + 1 => do
    let s ← itemText inv t i
    joinItems inv t separator (i + 1) (s :: separator :: acc) n

/-- `table.concat`. -/
def tableConcat (inv : Invocation) : Program (List Value) := do
  let (t, size) ← sequence inv true false
  let separator ← inv.bytesOr 2 []
  let first ← inv.integerOr 3 1
  let last ← inv.integerOr 4 size
  if last < first then return [.str []]
  let start ← itemText inv t first
  let more ← joinItems inv t separator (first + 1) [] (last.toInt - first.toInt).toNat
  return [.str (start ++ more.reverse.flatten)]

/-- `table.create`: the sizes are only hints. -/
def tableCreate (inv : Invocation) : Program (List Value) := do
  let sequenceSize ← inv.integer 1
  let restSize ← inv.integerOr 2 0
  if sequenceSize.toInt < 0 || sequenceSize.toInt > 0x7FFFFFFF then
    inv.wrongText 1 "out of range"
  if restSize.toInt < 0 || restSize.toInt > 0x7FFFFFFF then inv.wrongText 2 "out of range"
  .query .newTable

/-- Writes values at successive integers. -/
def setItems (t : Value) (i : Int64) : List Value → Program Unit
  | [] => .done ()
  | v :: rest => do
    setItem t i v
    setItems t (i + 1) rest

/-- `table.pack`. -/
def tablePack (inv : Invocation) : Program (List Value) := do
  let t ← Program.queryOne .newTable
  setItems t 1 inv.args
  Operation.setIndex .library none t (.text "n") (.int inv.args.length)
  return [t]

/-- The values at `n` successive integers. -/
def items (t : Value) (i : Int64) (acc : List Value) : Nat → Program (List Value)
  | 0 => .done acc.reverse
  | n + 1 => do
    let v ← item t i
    items t (i + 1) (v :: acc) n

/-- The largest number of values that a call can give. -/
def maxResults : Nat := 1000000

/-- `table.unpack`. -/
def tableUnpack (inv : Invocation) : Program (List Value) := do
  let first ← inv.integerOr 2 1
  let last ← if inv.lacks 3 then measure inv (inv.arg 1) else inv.integer 3
  if first > last then return []
  let n := (last.toInt - first.toInt + 1).toNat
  if n ≥ maxResults then inv.failText "too many results to unpack"
  items (inv.arg 1) first [] n

/-! ## Sorting -/

/-- The order of a sort: the comparison of a script, or the order of values. -/
def before (f : Value) (v w : Value) : Program Bool := do
  match f with
  | .nil => Operation.less .library v w
  | f => return ((← call f [v, w]).headD .nil).truthy

/-- Exchanges the values at two integers, which are `v` at `i` and `w` at `j`. -/
def exchange (t : Value) (i j : Int64) (v w : Value) : Program Unit := do
  setItem t i w
  setItem t j v

/-- The first place after `i` whose value does not come before the pivot. -/
def scanUp (inv : Invocation) (t f pivot : Value) (last i : Int64) :
    Nat → Program (Int64 × Value)
  | 0 => inv.failText "invalid order function for sorting"
  | fuel + 1 => do
    let i := i + 1
    let v ← item t i
    if ← before f v pivot then
      if i == last then inv.failText "invalid order function for sorting"
      scanUp inv t f pivot last i fuel
    else return (i, v)

/-- The last place below `j` whose value does not come after the pivot. -/
def scanDown (inv : Invocation) (t f pivot : Value) (i j : Int64) :
    Nat → Program (Int64 × Value)
  | 0 => inv.failText "invalid order function for sorting"
  | fuel + 1 => do
    let j := j - 1
    let v ← item t j
    if ← before f pivot v then
      if j < i then inv.failText "invalid order function for sorting"
      scanDown inv t f pivot i j fuel
    else return (j, v)

/-- Splits a part around the pivot at the place before its last one: the pivot's place. -/
def partition (inv : Invocation) (t f pivot : Value) (high i j : Int64) :
    Nat → Program Int64
  | 0 => inv.failText "invalid order function for sorting"
  | fuel + 1 => do
    let size := (high - i).toInt.toNat + 2
    let (i, v) ← scanUp inv t f pivot (high - 1) i size
    let (j, w) ← scanDown inv t f pivot i j (j.toInt.natAbs + size)
    if j < i then
      exchange t (high - 1) i pivot v
      return i
    else
      exchange t i j v w
      partition inv t f pivot high i j fuel

/-- Puts the values at two places in order. -/
def settle (t f : Value) (i j : Int64) : Program Unit := do
  let v ← item t i
  let w ← item t j
  if ← before f w v then exchange t i j v w

/-- Sorts the part between two places. -/
def sortPart (inv : Invocation) (t f : Value) (low high : Int64) : Nat → Program Unit
  | 0 => .done ()
  | fuel + 1 => do
    if low ≥ high then return
    settle t f low high
    if high - low == 1 then return
    let middle := Int64.ofInt ((low.toInt + high.toInt) / 2)
    let v ← item t middle
    let w ← item t low
    if ← before f v w then exchange t middle low v w
    else
      let w ← item t high
      if ← before f w v then exchange t middle high v w
    if high - low == 2 then return
    let pivot ← item t middle
    let next ← item t (high - 1)
    exchange t middle (high - 1) pivot next
    let p ← partition inv t f pivot high low (high - 1) ((high - low).toInt.toNat + 2)
    if p - low < high - p then
      sortPart inv t f low (p - 1) fuel
      sortPart inv t f (p + 1) high fuel
    else
      sortPart inv t f (p + 1) high fuel
      sortPart inv t f low (p - 1) fuel

/-- `table.sort`. -/
def tableSort (inv : Invocation) : Program (List Value) := do
  let (t, size) ← sequence inv true true
  if size > 1 then
    if size.toInt ≥ 0x7FFFFFFF then inv.wrongText 1 "array too big"
    let f := inv.arg 2
    if f != .nil && !Operation.isFunction f then discard (inv.callable 2)
    sortPart inv t f 1 size (size.toInt.toNat + 1)
  return []

end ScriptAgent.Script.Library
