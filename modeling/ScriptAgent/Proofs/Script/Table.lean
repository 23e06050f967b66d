import Mathlib.Data.List.Nodup
import ScriptAgent.Script.Table

/-!
# Tables that are filled entry by entry

`Table.setAll` writes entries to a table one after the other. At distinct keys each of them stays
what is read at its key (`Table.get_setAll`), and an empty table that is filled this way is
enumerated as the entries whose values are not nil, in some order (`Table.toList_setAll_perm`). Its
size is therefore the number of entries exactly if none of them is nil (`Table.size_setAll_iff`).
-/

namespace ScriptAgent.Script

/-- Integer keys below the largest integer are told apart. -/
theorem Key.int_ofNat_inj {m n : Nat} (hm : m < 0x8000000000000000) (hn : n < 0x8000000000000000)
    (h : Key.int (Int64.ofNat m) = Key.int (Int64.ofNat n)) : m = n := by
  have hi : Int64.ofNat m = Int64.ofNat n := Key.int.inj h
  have h := congrArg Int64.toInt hi
  rw [Int64.toInt_ofNat_of_lt hm, Int64.toInt_ofNat_of_lt hn] at h
  exact Int.ofNat.inj h

/-- Of the members of a list with a property, one is the last. -/
theorem exists_last {α : Type} {p : α → Prop} {l : List α} (h : ∃ x ∈ l, p x) :
    ∃ before x after, l = before ++ x :: after ∧ p x ∧ ∀ y ∈ after, ¬ p y := by
  induction l with
  | nil => simp at h
  | cons y rest ih =>
    by_cases hrest : ∃ x ∈ rest, p x
    · obtain ⟨before, x, after, rfl, hx, last⟩ := ih hrest
      exact ⟨y :: before, x, after, rfl, hx, last⟩
    · obtain ⟨x, hx, hpx⟩ := h
      rcases List.mem_cons.1 hx with rfl | hx
      · exact ⟨[], x, rest, rfl, hpx, fun z hz hpz => hrest ⟨z, hz, hpz⟩⟩
      · exact absurd ⟨x, hx, hpx⟩ hrest

namespace Table

/-- Writes entries to a table, in order. -/
def setAll (t : Table) : List (Key × Value) → Table
  | [] => t
  | e :: rest => (t.set e.1 e.2).setAll rest

section
variable {es : List (Key × Value)}

/-! ## Reading -/

/-- A key that nothing is written at reads as before. -/
theorem get_setAll_of_not_mem {t : Table} {k : Key} (hk : k ∉ es.map Prod.fst) :
    (t.setAll es).get k = t.get k := by
  induction es generalizing t with
  | nil => rfl
  | cons e rest ih =>
    rw [List.map_cons, List.mem_cons, not_or] at hk
    rw [setAll, ih hk.2, get_set_ne _ (Ne.symm hk.1)]

/-- Of entries with distinct keys, each is read at its key. -/
theorem get_setAll {t : Table} (hnd : (es.map Prod.fst).Nodup) {e : Key × Value} (he : e ∈ es) :
    (t.setAll es).get e.1 = e.2 := by
  induction es generalizing t with
  | nil => cases he
  | cons f rest ih =>
    rw [List.map_cons, List.nodup_cons] at hnd
    rw [setAll]
    rcases List.mem_cons.1 he with rfl | he
    · rw [get_setAll_of_not_mem hnd.1, get_set_self]
    · exact ih hnd.2 he

/-- What is read at a key after entries have been written to an empty table was written at it. -/
theorem mem_keys_of_get_setAll {k : Key} (hk : (empty.setAll es).get k ≠ .nil) :
    k ∈ es.map Prod.fst := by
  by_contra h
  rw [get_setAll_of_not_mem h, get_empty] at hk
  exact hk rfl

/-- What is read after entries have been written to an empty table is the value of one of them. -/
theorem mem_of_get_setAll {k : Key} (hk : (empty.setAll es).get k ≠ .nil) :
    (k, (empty.setAll es).get k) ∈ es := by
  suffices h : ∀ t : Table, (t.setAll es).get k = t.get k ∨ (k, (t.setAll es).get k) ∈ es by
    refine (h empty).resolve_left fun he => hk ?_
    rw [he, get_empty]
  clear hk
  intro t
  induction es generalizing t with
  | nil => exact .inl rfl
  | cons e rest ih =>
    obtain ⟨l, v⟩ := e
    rw [setAll]
    rcases ih (t.set l v) with hsame | hmem
    · by_cases hl : l = k
      · subst hl
        rw [hsame, get_set_self]
        exact .inr List.mem_cons_self
      · exact .inl (hsame.trans (get_set_ne t hl v))
    · exact .inr (List.mem_cons_of_mem _ hmem)

/-- Writing entries after others is writing all of them. -/
theorem setAll_append {t : Table} {es fs : List (Key × Value)} :
    t.setAll (es ++ fs) = (t.setAll es).setAll fs := by
  induction es generalizing t with
  | nil => rfl
  | cons e rest ih => exact ih

/-- The last of the entries that are written at a key is read at it. -/
theorem get_setAll_last {t : Table} {before after : List (Key × Value)} {k : Key} {v : Value}
    (last : k ∉ after.map Prod.fst) : (t.setAll (before ++ (k, v) :: after)).get k = v := by
  rw [setAll_append, setAll, get_setAll_of_not_mem last, get_set_self]

/-! ## Enumeration -/

/-- An entry is enumerated exactly if it is what is read at its key and not nil. -/
theorem mem_toList {t : Table} {e : Key × Value} :
    e ∈ t.toList ↔ t.get e.1 = e.2 ∧ e.2 ≠ .nil := by
  obtain ⟨k, v⟩ := e
  rw [toList, Std.ExtTreeMap.mem_toList_iff_getElem?_eq_some, getElem?_entries]
  split
  · next h => simp [h, eq_comm]
  · next h =>
    rw [Option.some.injEq]
    exact ⟨fun hv => ⟨hv, hv ▸ h⟩, And.left⟩

/-- A key is enumerated exactly if something is read at it. -/
theorem mem_keys_toList {t : Table} {k : Key} : k ∈ t.toList.map Prod.fst ↔ t.get k ≠ .nil := by
  constructor
  · intro hk
    obtain ⟨e, he, rfl⟩ := List.mem_map.1 hk
    obtain ⟨hget, hne⟩ := mem_toList.1 he
    exact hget ▸ hne
  · intro hk
    exact List.mem_map_of_mem (f := Prod.fst) (mem_toList (e := (k, _)).2 ⟨rfl, hk⟩)

/-- No key is enumerated twice. -/
theorem nodup_keys_toList (t : Table) : (t.toList.map Prod.fst).Nodup := by
  rw [toList, Std.ExtTreeMap.map_fst_toList_eq_keys]
  exact Std.ExtTreeMap.nodup_keys

/-- The size of a table is the number of entries that are enumerated. -/
theorem length_toList (t : Table) : t.toList.length = t.size := Std.ExtTreeMap.length_toList

/-- What is enumerated after entries have been written to an empty table has the key of one of
them. -/
theorem mem_keys_of_mem_toList_setAll {k : Key}
    (hk : k ∈ (empty.setAll es).toList.map Prod.fst) : k ∈ es.map Prod.fst :=
  mem_keys_of_get_setAll (mem_keys_toList.1 hk)

/-- A table that is filled with entries at distinct keys is enumerated as those that are not nil,
in some order. -/
theorem toList_setAll_perm (hnd : (es.map Prod.fst).Nodup) :
    (empty.setAll es).toList.Perm (es.filter fun e => e.2 ≠ .nil) := by
  refine (List.perm_ext_iff_of_nodup (.of_map _ (nodup_keys_toList _))
    ((List.Nodup.of_map _ hnd).filter _)).2 fun e => ?_
  rw [mem_toList, List.mem_filter, decide_eq_true_eq]
  refine and_congr_left fun hv => ⟨fun h => ?_, get_setAll hnd⟩
  have hk := mem_keys_of_mem_toList_setAll (List.mem_map_of_mem (mem_toList.2 ⟨h, hv⟩))
  obtain ⟨f, hf, hfe⟩ := List.mem_map.1 hk
  rw [← hfe, get_setAll hnd hf] at h
  rwa [← Prod.ext hfe h]

/-- A table that is filled with entries at distinct keys is enumerated as these entries, in some
order, if none of them is nil. -/
theorem toList_setAll_perm_self (hnd : (es.map Prod.fst).Nodup) (hv : ∀ e ∈ es, e.2 ≠ .nil) :
    (empty.setAll es).toList.Perm es := by
  have h := toList_setAll_perm hnd
  rwa [List.filter_eq_self.2 fun e he => decide_eq_true (hv e he)] at h

/-- A table that is filled with entries at distinct keys has that many entries exactly if none of
them is nil. -/
theorem size_setAll_iff (hnd : (es.map Prod.fst).Nodup) :
    (empty.setAll es).size = es.length ↔ ∀ e ∈ es, e.2 ≠ .nil := by
  rw [← length_toList, (toList_setAll_perm hnd).length_eq, List.length_filter_eq_length_iff]
  simp only [decide_eq_true_eq]

end

end Table

end ScriptAgent.Script
