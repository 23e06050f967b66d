import Mathlib.Data.List.Nodup

/-!
# Sorting by names

Things with names that are sorted by these names are the same things, in increasing order
(`Text.byName_sorted`), and in strictly increasing order if the names are distinct
(`Text.byName_strict`). The order they had before has no part in it (`Text.byName_eq_of_perm`).
-/

namespace ScriptAgent.Text

variable {α β : Type}

/-- Things with names, sorted by these names. -/
def byName (fields : List (String × α)) : List (String × α) :=
  fields.mergeSort fun a b => a.1 ≤ b.1

variable {fields fields' : List (String × α)}

/-- Things that are changed keep their names. -/
theorem names_map (g : String × α → β) (fields : List (String × α)) :
    (fields.map fun f => (f.1, g f)).map Prod.fst = fields.map Prod.fst := by
  rw [List.map_map]
  rfl

/-- Things may be changed before or after they are sorted, as long as the names stay. -/
theorem byName_map (g : String × α → β) (fields : List (String × α)) :
    byName (fields.map fun f => (f.1, g f)) = (byName fields).map fun f => (f.1, g f) :=
  (List.map_mergeSort (f := fun a : String × α => (a.1, g a)) fun _ _ _ _ => rfl).symm

/-- Sorting keeps things and puts them into increasing order. -/
theorem byName_sorted (fields : List (String × α)) :
    (byName fields).Perm fields ∧ (byName fields).Pairwise fun a b => a.1 ≤ b.1 := by
  refine ⟨List.mergeSort_perm _ _, ?_⟩
  have htrans : ∀ a b c : String × α, decide (a.1 ≤ b.1) = true → decide (b.1 ≤ c.1) = true →
      decide (a.1 ≤ c.1) = true := by
    intro a b c hab hbc
    exact decide_eq_true (String.le_trans (of_decide_eq_true hab) (of_decide_eq_true hbc))
  have htotal : ∀ a b : String × α, (decide (a.1 ≤ b.1) || decide (b.1 ≤ a.1)) = true := by
    intro a b
    rw [Bool.or_eq_true, decide_eq_true_eq, decide_eq_true_eq]
    exact String.le_total a.1 b.1
  exact (List.pairwise_mergeSort htrans htotal fields).imp of_decide_eq_true

/-- Names that differ are in strictly increasing order. -/
theorem byName_strict (names : (fields.map Prod.fst).Nodup) :
    ((byName fields).map Prod.fst).Pairwise (· < ·) := by
  obtain ⟨hperm, hsorted⟩ := byName_sorted fields
  have hnodup : ((byName fields).map Prod.fst).Nodup := (hperm.map Prod.fst).nodup_iff.2 names
  have hle : ((byName fields).map Prod.fst).Pairwise (· ≤ ·) := List.pairwise_map.2 hsorted
  exact (hle.and hnodup).imp fun ⟨hab, hne⟩ => Std.lt_of_le_of_ne hab hne

/-- The order before sorting has no part in the order after it. -/
theorem byName_eq_of_perm (names : (fields.map Prod.fst).Nodup) (same : fields.Perm fields') :
    byName fields = byName fields' := by
  obtain ⟨hperm, hsorted⟩ := byName_sorted fields
  obtain ⟨hperm', hsorted'⟩ := byName_sorted fields'
  have hanti : ∀ a b, a ∈ byName fields → b ∈ byName fields' → a.1 ≤ b.1 → b.1 ≤ a.1 →
      a = b := by
    intro a b ha hb hab hba
    have ha : a ∈ fields := hperm.mem_iff.1 ha
    have hb : b ∈ fields := same.mem_iff.2 (hperm'.mem_iff.1 hb)
    exact List.inj_on_of_nodup_map names ha hb (String.le_antisymm hab hba)
  exact List.Perm.eq_of_pairwise hanti hsorted hsorted' (hperm.trans (same.trans hperm'.symm))

end ScriptAgent.Text
