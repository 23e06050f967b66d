import ScriptAgent.Script.Value

/-!
# Tables

A table is a finite map from keys to values other than nil, with an optional metatable. The map
is extensional: tables with the same entries are equal, whatever the order in which the
entries were written.

* `get_set` and `get_set_ne` say that a write is seen at its key and nowhere else;
* `set_set` says that a second write at a key makes the first one unseen;
* `next?` enumerates the entries in the order of the keys;
* `border` is the length of a sequence.
-/

namespace ScriptAgent.Script

/-- A table. No entry has the value nil. -/
structure Table where
  entries : Std.ExtTreeMap Key Value Key.order
  metatable : Option Address
  ne_nil : ∀ k : Key, entries[k]? ≠ some Value.nil

namespace Table

/-- The table without entries. -/
def empty : Table := ⟨∅, none, by simp⟩

instance : Inhabited Table := ⟨empty⟩

/-- The same entries with another metatable. -/
def withMetatable (t : Table) (m : Option Address) : Table := ⟨t.entries, m, t.ne_nil⟩

/-- The value at a key, or nil. -/
def get (t : Table) (k : Key) : Value := t.entries[k]?.getD .nil

/-- Writes a value at a key; nil removes the entry. -/
def set (t : Table) (k : Key) (v : Value) : Table :=
  match t with
  | ⟨entries, metatable, ne_nil⟩ =>
    if h : v = .nil then
      ⟨entries.erase k, metatable, by
        intro l; rw [Std.ExtTreeMap.getElem?_erase]; split <;> simp [ne_nil]⟩
    else
      ⟨entries.insert k v, metatable, by
        intro l; rw [Std.ExtTreeMap.getElem?_insert]; split <;> simp [ne_nil, h]⟩

/-- The value at a string key. -/
def getStr (t : Table) (s : Bytes) : Value := t.get (.str s)

/-- The value that a value indexes, or nil. -/
def getValue (t : Table) (k : Value) : Value :=
  match k.key? with
  | some k => t.get k
  | none => .nil

/-- The number of entries. -/
def size (t : Table) : Nat := t.entries.size

/-- The entries in the order of their keys. -/
def toList (t : Table) : List (Key × Value) := t.entries.toList

/-- The first entry, or the first one after a key. -/
def next? (t : Table) (k : Option Key) : Option (Key × Value) :=
  match k with
  | none => t.entries.minEntry?
  | some k => t.entries.getEntryGT? k

/-! ## The length of a sequence -/

/-- Whether there is a value at a positive integer. -/
def hasIndex (t : Table) (n : Nat) : Bool := t.entries.contains (.int (Int64.ofNat n))

/-- Counts the values at successive integers from `n + 1` on, at most `fuel` of them. -/
def countFrom (t : Table) (n : Nat) : Nat → Nat
  | 0 => n
  | fuel + 1 => if t.hasIndex (n + 1) then t.countFrom (n + 1) fuel else n

/-- An index without a value, found by doubling one that has a value. -/
def gallop (t : Table) (n : Nat) : Nat → Nat × Nat
  | 0 => (n, 2 * n)
  | fuel + 1 => if t.hasIndex (2 * n) then t.gallop (2 * n) fuel else (n, 2 * n)

/-- A border between an index with a value and one without. -/
def bisect (t : Table) (lo hi : Nat) : Nat → Nat
  | 0 => lo
  | fuel + 1 =>
    if hi ≤ lo + 1 then lo
    else
      let mid := (lo + hi) / 2
      if t.hasIndex mid then t.bisect mid hi fuel else t.bisect lo mid fuel

/-- A border: the number of values of a sequence. A short sequence ends at its first gap; in a
long one, a border is found by doubling and halving. -/
def border (t : Table) : Nat :=
  let n := t.countFrom 0 64
  if n < 64 then n
  else
    let (lo, hi) := t.gallop 64 64
    t.bisect lo hi 128

/-! ## Laws -/

theorem getElem?_entries (t : Table) (k : Key) :
    t.entries[k]? = if t.get k = .nil then none else some (t.get k) := by
  have h := t.ne_nil k
  cases e : t.entries[k]? <;> simp_all [get]

/-- A table is determined by its values and its metatable. -/
theorem ext {t u : Table} (h : ∀ k, t.get k = u.get k) (hm : t.metatable = u.metatable) :
    t = u := by
  have he : t.entries = u.entries := by
    apply Std.ExtTreeMap.ext_getElem?
    intro k
    rw [getElem?_entries, getElem?_entries, h]
  cases t; cases u
  simp_all

@[simp] theorem get_empty (k : Key) : empty.get k = .nil := by simp [get, empty]

theorem get_set (t : Table) (k l : Key) (v : Value) :
    (t.set k v).get l = if k = l then v else t.get l := by
  by_cases hv : v = .nil <;> by_cases hk : k = l <;>
    simp [set, get, hv, hk, Std.ExtTreeMap.getElem?_erase, Std.ExtTreeMap.getElem?_insert]

@[simp] theorem get_set_self (t : Table) (k : Key) (v : Value) : (t.set k v).get k = v := by
  simp [get_set]

theorem get_set_ne (t : Table) {k l : Key} (h : k ≠ l) (v : Value) :
    (t.set k v).get l = t.get l := by
  simp [get_set, h]

@[simp] theorem metatable_set (t : Table) (k : Key) (v : Value) :
    (t.set k v).metatable = t.metatable := by
  by_cases hv : v = .nil <;> simp [set, hv]

/-- A second write at a key makes the first one unseen. -/
theorem set_set (t : Table) (k : Key) (v w : Value) : (t.set k v).set k w = t.set k w := by
  apply ext
  · intro l
    simp only [get_set]
    split <;> rfl
  · simp

/-- Writes at different keys commute. -/
theorem set_comm (t : Table) {k l : Key} (h : k ≠ l) (v w : Value) :
    (t.set k v).set l w = (t.set l w).set k v := by
  apply ext
  · intro m
    simp only [get_set]
    split <;> split <;> simp_all
  · simp

end Table

end ScriptAgent.Script
