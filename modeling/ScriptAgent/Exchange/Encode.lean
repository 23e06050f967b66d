import ScriptAgent.Datum
import ScriptAgent.Script.State

/-!
# From the host to scripts

`encode` writes plain data as a script value. Sequences of all kinds become tables with the
integers from one on as keys, dictionaries and records become tables with strings as keys,
and a member of an enumeration becomes its value. Nothing at an index or a key leaves a gap.

An integer beyond 64 bits has no script value; it is the only thing that is refused.
-/

namespace ScriptAgent.Exchange

open Script

/-- An integer does not fit 64 bits. -/
structure TooLarge where

/-- The message for an integer that does not fit. -/
def TooLarge.message : String := "Python int too large to convert to C long"

/-- The string that a key is written as. -/
def keyBytes : Datum → Bytes
  | .bytes bs => bs
  | d => Utf8.encode d.display

mutual

/-- Writes a value. -/
def encode (h : Heap) : Datum → Except TooLarge (Value × Heap)
  | .none => .ok (.nil, h)
  | .bool b => .ok (.bool b, h)
  | .int i => if Script.Num.fits i then .ok (.num (.int (Int64.ofInt i)), h) else .error ⟨⟩
  | .float x => .ok (.num (.float x), h)
  | .str s => .ok (.str (Utf8.encode s), h)
  | .bytes bs => .ok (.str bs, h)
  | .list items | .tuple items | .set items | .frozenset items => do
    let (a, h) := h.newTable Table.empty
    return (.table a, ← encodeItems h a 1 items)
  | .range n =>
    let t := (List.range n).foldl
      (fun t i => t.set (.int (Int64.ofNat (i + 1))) (.int i)) Table.empty
    let (a, h) := h.newTable t
    .ok (.table a, h)
  | .dict entries => do
    let (a, h) := h.newTable Table.empty
    return (.table a, ← encodeEntries h a entries)
  | .model _ fields | .record _ fields => do
    let (a, h) := h.newTable Table.empty
    return (.table a, ← encodeFields h a fields)
  | .choice _ _ value => encode h value
  | .object _ text => .ok (.foreign text, h)

/-- Writes values at successive integers of a table. -/
def encodeItems (h : Heap) (a : Address) (i : Nat) : List Datum → Except TooLarge Heap
  | [] => .ok h
  | item :: rest => do
    let (v, h) ← encode h item
    encodeItems (h.modifyTable a (·.set (.int (Int64.ofNat i)) v)) a (i + 1) rest

/-- Writes the entries of a dictionary to a table. -/
def encodeEntries (h : Heap) (a : Address) : List (Datum × Datum) → Except TooLarge Heap
  | [] => .ok h
  | entry :: rest => do encodeEntries (← encodeEntry h a entry) a rest

/-- Writes an entry of a dictionary to a table. -/
def encodeEntry (h : Heap) (a : Address) : Datum × Datum → Except TooLarge Heap
  | (key, value) => do
    let (v, h) ← encode h value
    return h.modifyTable a (·.set (.str (keyBytes key)) v)

/-- Writes the fields of a record to a table. -/
def encodeFields (h : Heap) (a : Address) : List (String × Datum) → Except TooLarge Heap
  | [] => .ok h
  | field :: rest => do encodeFields (← encodeField h a field) a rest

/-- Writes a field of a record to a table. -/
def encodeField (h : Heap) (a : Address) : String × Datum → Except TooLarge Heap
  | (name, value) => do
    let (v, h) ← encode h value
    return h.modifyTable a (·.set (.str (Utf8.encode name)) v)

end

end ScriptAgent.Exchange
