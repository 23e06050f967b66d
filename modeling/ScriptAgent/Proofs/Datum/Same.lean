import Mathlib.Data.List.Perm.Basic
import ScriptAgent.Proofs.Datum.Plain

/-!
# The same data

`Datum.Same` is an equivalence on plain data (`Datum.Plain.same_self`, `Datum.Same.symm`,
`Datum.Same.trans`), and what is the same data as plain data is plain (`Datum.Same.plain`).

The entries of a dictionary may stand in any order. `Datum.Ascending` says that those of every
dictionary in a value stand in the order of their keys; data has only one such form
(`Datum.Ascending.eq_of_same`).
-/

namespace ScriptAgent.Datum

variable {c d e : Datum}

/-! ## An equivalence -/

/-- A member of a list of entries has a counterpart in any list with the same keys. -/
theorem exists_entry_of_perm {es fs : List (Datum × Datum)} {k v : Datum}
    (keys : (es.map Prod.fst).Perm (fs.map Prod.fst)) (h : (k, v) ∈ es) : ∃ w, (k, w) ∈ fs := by
  obtain ⟨⟨_, w⟩, hw, rfl⟩ := List.mem_map.1 (keys.mem_iff.1 (List.mem_map_of_mem h))
  exact ⟨w, hw⟩

/-- Plain data is the same as itself. -/
theorem Plain.same_self (hd : d.Plain) : d.Same d := by
  induction hd with
  | none => exact .none
  | bool b => exact .bool b
  | int => exact .int _
  | float x => exact .float x
  | str s => exact .str s
  | list _ ih => exact .list rfl fun i hi _ => ih _ (List.getElem_mem hi)
  | @dict entries _ distinct _ ih =>
    refine .dict (.refl _) ?_
    intro k v w hv hw
    -- The keys are distinct, so both values stand in one entry.
    have hvw : (k, v) = (k, w) := List.inj_on_of_nodup_map distinct hv hw rfl
    cases hvw
    exact ih _ hv

/-- The same data the other way round. -/
theorem Same.symm (h : d.Same e) : e.Same d := by
  induction h with
  | none => exact .none
  | bool b => exact .bool b
  | int i => exact .int i
  | float x => exact .float x
  | str s => exact .str s
  | list length _ ih => exact .list length.symm fun i hy hx => ih i hx hy
  | dict keys _ ih => exact .dict keys.symm fun k v w hv hw => ih k w v hw hv

/-- What is the same data as a third value is the same data. -/
theorem Same.trans (h₁ : c.Same d) (h₂ : d.Same e) : c.Same e := by
  induction h₁ generalizing e with
  | none | bool | int | float | str => exact h₂
  | list length _ ih =>
    cases h₂ with
    | list length' items =>
      refine .list (length.trans length') ?_
      intro i hx hz
      have hy := length ▸ hx
      exact ih i hx hy (items i hy hz)
  | dict keys _ ih =>
    cases h₂ with
    | dict keys' values =>
      refine .dict (keys.trans keys') ?_
      intro k u w hu hw
      obtain ⟨v, hv⟩ := exists_entry_of_perm keys hu
      exact ih k u v hu hv (values k v w hv hw)

/-- What is the same data as plain data is plain. -/
theorem Same.plain (h : d.Same e) (hd : d.Plain) : e.Plain := by
  induction h with
  | none | bool | int | float | str => exact hd
  | list length _ ih =>
    cases hd with
    | list hitems =>
      refine .list ?_
      intro y hy
      obtain ⟨i, hi, rfl⟩ := List.getElem_of_mem hy
      exact ih i (length ▸ hi) hi (hitems _ (List.getElem_mem _))
  | dict keys _ ih =>
    cases hd with
    | dict texts distinct hvalues =>
      refine .dict ?_ (keys.nodup_iff.1 distinct) ?_
      · intro f hf
        obtain ⟨v, hv⟩ := exists_entry_of_perm keys.symm hf
        exact texts (f.1, v) hv
      · intro f hf
        obtain ⟨v, hv⟩ := exists_entry_of_perm keys.symm hf
        exact ih f.1 v f.2 hv hf (hvalues _ hv)

/-! ## One order of entries -/

/-- The keys of each dictionary in a value are texts in strictly increasing order. -/
def Ascending (d : Datum) : Prop :=
  ∀ entries, Inside (.dict entries) d →
    ∃ names : List String, entries.map Prod.fst = names.map str ∧ names.Pairwise (· < ·)

/-- What is in an ascending value is ascending. -/
theorem Ascending.inside (h : Ascending d) (hed : Inside e d) : Ascending e := by
  intro entries hin
  exact h entries (hin.trans hed)

/-- The keys of ascending dictionaries with the same keys stand in the same order. -/
theorem Ascending.keys_eq {es fs : List (Datum × Datum)} (hes : Ascending (.dict es))
    (hfs : Ascending (.dict fs)) (keys : (es.map Prod.fst).Perm (fs.map Prod.fst)) :
    es.map Prod.fst = fs.map Prod.fst := by
  obtain ⟨ms, hms, msorted⟩ := hes es .refl
  obtain ⟨ns, hns, nsorted⟩ := hfs fs .refl
  rw [hms, hns] at keys ⊢
  have perm : ms.Perm ns := (List.map_perm_map_iff fun _ _ hst => Datum.str.inj hst).1 keys
  have anti : ∀ s t : String, s ∈ ms → t ∈ ns → s < t → t < s → s = t := by
    intro s t _ _ hst hts
    exact absurd hts (Std.not_gt_of_lt hst)
  rw [List.Perm.eq_of_pairwise anti msorted nsorted perm]

/-- Ascending values of the same data are equal. -/
theorem Ascending.eq_of_same (hd : Ascending d) (he : Ascending e) (h : d.Same e) : d = e := by
  induction h with
  | none | bool | int | float | str => rfl
  | list length _ ih =>
    refine congrArg list (List.ext_getElem length ?_)
    intro i hx hy
    exact ih i hx hy (hd.inside (.item (List.getElem_mem hx) .refl))
      (he.inside (.item (List.getElem_mem hy) .refl))
  | @dict es fs keys _ ih =>
    have hkeys := hd.keys_eq he keys
    have hlen : es.length = fs.length := by simpa using congrArg List.length hkeys
    refine congrArg dict (List.ext_getElem hlen ?_)
    intro i hx hy
    have hkey : es[i].1 = fs[i].1 := by
      have := List.getElem_of_eq hkeys (i := i) (by simpa using hx)
      simpa using this
    have hmem : (es[i].1, fs[i].2) ∈ fs := hkey ▸ List.getElem_mem hy
    refine Prod.ext hkey (ih es[i].1 _ _ (List.getElem_mem hx) hmem ?_ ?_)
    · exact hd.inside (.value (List.getElem_mem hx) .refl)
    · exact he.inside (.value (List.getElem_mem hy) .refl)

end ScriptAgent.Datum
