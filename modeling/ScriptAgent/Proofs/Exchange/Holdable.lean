import ScriptAgent.Exchange.Encode

/-!
# What scripts can hold

A value of the host has an image in a script unless an integer beyond 64 bits occurs somewhere in it
(`Datum.isHoldable`): writing it then fails, whatever the heap, and nothing else makes it fail
(`Exchange.isOk_encode`).
-/

namespace ScriptAgent

namespace Datum

mutual

/-- Whether no integer beyond 64 bits occurs in a value. -/
def isHoldable : Datum → Bool
  | .int i => Script.Num.fits i
  | .list items | .tuple items | .set items | .frozenset items => areHoldable items
  | .dict entries => areHoldableEntries entries
  | .model _ fields | .record _ fields => areHoldableFields fields
  | .choice _ _ value => isHoldable value
  | .none | .bool _ | .float _ | .str _ | .bytes _ | .range _ | .object .. => true

/-- Whether no integer beyond 64 bits occurs in some values. -/
def areHoldable : List Datum → Bool
  | [] => true
  | d :: rest => isHoldable d && areHoldable rest

/-- Whether no integer beyond 64 bits occurs in the values of some entries. -/
def areHoldableEntries : List (Datum × Datum) → Bool
  | [] => true
  | e :: rest => isHoldableEntry e && areHoldableEntries rest

/-- Whether no integer beyond 64 bits occurs in the value of an entry. -/
def isHoldableEntry : Datum × Datum → Bool
  | (_, value) => isHoldable value

/-- Whether no integer beyond 64 bits occurs in the values of some fields. -/
def areHoldableFields : List (String × Datum) → Bool
  | [] => true
  | f :: rest => isHoldableField f && areHoldableFields rest

/-- Whether no integer beyond 64 bits occurs in the value of a field. -/
def isHoldableField : String × Datum → Bool
  | (_, value) => isHoldable value

end

/-- `areHoldable` in the natural per-element form. -/
theorem areHoldable_iff (items : List Datum) :
    areHoldable items = true ↔ ∀ d ∈ items, d.isHoldable = true := by
  induction items with
  | nil => simp [areHoldable]
  | cons d rest ih => rw [areHoldable, Bool.and_eq_true, ih, List.forall_mem_cons]

/-- `areHoldableEntries` in the natural per-element form. -/
theorem areHoldableEntries_iff (entries : List (Datum × Datum)) :
    areHoldableEntries entries = true ↔ ∀ e ∈ entries, e.2.isHoldable = true := by
  induction entries with
  | nil => simp [areHoldableEntries]
  | cons e rest ih =>
    rw [areHoldableEntries, Bool.and_eq_true, ih, List.forall_mem_cons, isHoldableEntry]

end Datum

namespace Exchange

open Script

/-- A computation after another one succeeds if both do. -/
theorem isOk_bind {α β ε : Type} {x : Except ε α} {f : α → Except ε β} {b c : Bool}
    (hx : x.isOk = b) (hf : ∀ a, (f a).isOk = c) : (x >>= f).isOk = (b && c) := by
  subst hx
  cases x with
  | error e => rfl
  | ok a => exact hf a

/-- A computation whose result is only wrapped up succeeds if it does itself. -/
theorem isOk_bind_pure {α β ε : Type} {x : Except ε α} {g : α → β} {b : Bool} (hx : x.isOk = b) :
    (x >>= fun a => (pure (g a) : Except ε β)).isOk = b := by
  rw [isOk_bind (c := true) hx fun _ => rfl, Bool.and_true]

mutual

/-- A value can be written exactly if scripts can hold it. -/
theorem isOk_encode (h : Heap) : ∀ d : Datum, (encode h d).isOk = d.isHoldable
  | .int i => by
    rw [encode, Datum.isHoldable]
    split
    · next hi => rw [hi]; rfl
    · next hi => rw [Bool.eq_false_iff.2 hi]; rfl
  | .list items | .tuple items | .set items | .frozenset items => by
    rw [encode, Datum.isHoldable]
    exact isOk_bind_pure (isOk_encodeItems _ _ _ items)
  | .dict entries => by
    rw [encode, Datum.isHoldable]
    exact isOk_bind_pure (isOk_encodeEntries _ _ entries)
  | .model _ fields | .record _ fields => by
    rw [encode, Datum.isHoldable]
    exact isOk_bind_pure (isOk_encodeFields _ _ fields)
  | .choice _ _ value => by rw [encode, Datum.isHoldable, isOk_encode h value]
  | .none | .bool _ | .float _ | .str _ | .bytes _ | .range _ | .object .. => by
    rw [encode, Datum.isHoldable]; rfl

/-- Items can be written exactly if scripts can hold them. -/
theorem isOk_encodeItems (h : Heap) (a : Address) (i : Nat) :
    ∀ items : List Datum, (encodeItems h a i items).isOk = Datum.areHoldable items
  | [] => by rw [encodeItems, Datum.areHoldable]; rfl
  | d :: rest => by
    rw [encodeItems, Datum.areHoldable]
    exact isOk_bind (isOk_encode h d) fun _ => isOk_encodeItems _ _ _ rest

/-- Entries can be written exactly if scripts can hold them. -/
theorem isOk_encodeEntries (h : Heap) (a : Address) :
    ∀ entries : List (Datum × Datum),
      (encodeEntries h a entries).isOk = Datum.areHoldableEntries entries
  | [] => by rw [encodeEntries, Datum.areHoldableEntries]; rfl
  | e :: rest => by
    rw [encodeEntries, Datum.areHoldableEntries]
    exact isOk_bind (isOk_encodeEntry h a e) fun _ => isOk_encodeEntries _ _ rest

/-- An entry can be written exactly if scripts can hold it. -/
theorem isOk_encodeEntry (h : Heap) (a : Address) :
    ∀ e : Datum × Datum, (encodeEntry h a e).isOk = Datum.isHoldableEntry e
  | (_, value) => by
    rw [encodeEntry, Datum.isHoldableEntry]
    exact isOk_bind_pure (isOk_encode h value)

/-- Fields can be written exactly if scripts can hold them. -/
theorem isOk_encodeFields (h : Heap) (a : Address) :
    ∀ fields : List (String × Datum),
      (encodeFields h a fields).isOk = Datum.areHoldableFields fields
  | [] => by rw [encodeFields, Datum.areHoldableFields]; rfl
  | f :: rest => by
    rw [encodeFields, Datum.areHoldableFields]
    exact isOk_bind (isOk_encodeField h a f) fun _ => isOk_encodeFields _ _ rest

/-- A field can be written exactly if scripts can hold it. -/
theorem isOk_encodeField (h : Heap) (a : Address) :
    ∀ f : String × Datum, (encodeField h a f).isOk = Datum.isHoldableField f
  | (_, value) => by
    rw [encodeField, Datum.isHoldableField]
    exact isOk_bind_pure (isOk_encode h value)

end

/-- A value is written as what it stands for. -/
theorem encode_underlying (h : Heap) (d : Datum) : encode h d.underlying = encode h d := by
  induction d using Datum.underlying.induct with
  | case1 _ _ value ih => rw [Datum.underlying, encode, ih]
  | case2 d hd => rw [Datum.underlying]; exact hd

end Exchange

end ScriptAgent
