import ScriptAgent.Exchange.Decode
import ScriptAgent.Proofs.Exchange.Encode

/-!
# Sequences

A table is read as a list exactly if its keys count from one on (`Counts`), in whichever order its
entries are enumerated, and the list then has the values at these keys
(`Exchange.sequence?_items_iff`).
-/

namespace ScriptAgent.Exchange

open Script

/-- The keys of a table are exactly the integers from one to a number. -/
structure Counts (t : Table) (n : Nat) : Prop where
  short : n < listBound
  keys : (t.toList.map Prod.fst).Perm (indexKeys 1 n)

section
variable {t : Table} {n m : Nat} {items : List (Key × Value)} {vs : List Value}

/-- A table whose keys count has as many entries. -/
theorem Counts.length (h : Counts t n) : t.toList.length = n := by
  rw [← List.length_map (f := Prod.fst), h.keys.length_eq, length_indexKeys]

/-- The keys of a table count to one number only. -/
theorem Counts.unique (hn : Counts t n) (hm : Counts t m) : n = m := by
  rw [← hn.length, hm.length]

/-- An integer key is determined by its number. -/
theorem eq_int_of_number {k : Key} (hk : isIndex k = true) {i : Nat}
    (hi : k.number = (i : Int)) : i < listBound ∧ k = .int (Int64.ofNat i) := by
  cases k with
  | int j =>
    have hj : j.toInt = (i : Int) := hi
    have hlt := Int64.toInt_lt j
    have hb : i < listBound := by unfold listBound; omega
    refine ⟨hb, congrArg Key.int (Int64.toInt_inj.1 ?_)⟩
    rw [hj, Int64.toInt_ofNat_of_lt hb]
  | _ => cases hk

/-- The keys of `n` items are integers, and their numbers those from one on. -/
theorem numbers_indexKeys (hn : n < listBound) :
    (indexKeys 1 n).map Key.number = (List.range n).map fun i : Nat => (i : Int) + 1 := by
  rw [indexKeys, List.range'_eq_map_range, List.map_map, List.map_map]
  refine List.map_congr_left fun i hi => ?_
  have hlt : 1 + i < 2 ^ 63 := by
    have := List.mem_range.1 hi
    unfold listBound at hn
    omega
  simp only [Function.comp_apply, Key.number, Int64.toInt_ofNat_of_lt hlt]
  omega

/-- Integer keys with the numbers from one on are those of items. -/
theorem eq_indexKeys_of_numbers {ks : List Key} (hk : ∀ k ∈ ks, isIndex k = true)
    (h : ks.map Key.number = (List.range n).map fun i : Nat => (i : Int) + 1) :
    ks = indexKeys 1 n ∧ n < listBound := by
  have hlen : ks.length = n := by
    rw [← List.length_map (f := Key.number), h, List.length_map, List.length_range]
  have hkey : ∀ i (hi : i < ks.length), i + 1 < listBound ∧ ks[i] = .int (Int64.ofNat (i + 1)) := by
    intro i hi
    refine eq_int_of_number (hk _ (List.getElem_mem hi)) ?_
    have hi' : i < (ks.map Key.number).length := by rwa [List.length_map]
    have hnum := List.getElem_of_eq h hi'
    rw [List.getElem_map, List.getElem_map, List.getElem_range] at hnum
    rw [hnum]
    norm_cast
  refine ⟨List.ext_getElem (by rw [hlen, length_indexKeys]) fun i hi hj => ?_, ?_⟩
  · rw [(hkey i hi).2]
    simp only [indexKeys, List.getElem_map, List.getElem_range', Nat.one_mul, Nat.add_comm 1 i]
  · cases n with
    | zero => unfold listBound; omega
    | succ n => exact (hkey n (hlen ▸ Nat.lt_succ_self n)).1

/-- Entries sorted by the numbers of their keys. -/
theorem pairwise_sorted (items : List (Key × Value)) :
    ((items.mergeSort fun e f => e.1.number ≤ f.1.number).map fun e => e.1.number).Pairwise
      (· ≤ ·) := by
  rw [List.pairwise_map]
  refine (List.pairwise_mergeSort (fun a b c hab hbc => ?_) (fun a b => ?_) items).imp
    of_decide_eq_true
  · exact decide_eq_true (Int.le_trans (of_decide_eq_true hab) (of_decide_eq_true hbc))
  · rw [Bool.or_eq_true, decide_eq_true_eq, decide_eq_true_eq]
    exact Int.le_total _ _

/-- The values of a sequence are those of its entries in the order of their keys. -/
theorem sorted_of_sequence? (h : sequence? items = some vs) :
    items.length < listBound ∧ ∃ sorted : List (Key × Value), sorted.Perm items ∧
      sorted.map Prod.fst = indexKeys 1 items.length ∧ sorted.map Prod.snd = vs := by
  unfold sequence? at h
  split at h
  · next hindex =>
    dsimp only at h
    split at h
    · next hnumbers =>
      have hperm := List.mergeSort_perm items fun e f => decide (e.1.number ≤ f.1.number)
      have hsorted : ∀ k ∈ (items.mergeSort fun e f => e.1.number ≤ f.1.number).map Prod.fst,
          isIndex k = true := by
        intro k hk
        obtain ⟨e, he, rfl⟩ := List.mem_map.1 hk
        exact List.all_eq_true.1 hindex e (hperm.mem_iff.1 he)
      have hkeys := eq_indexKeys_of_numbers hsorted (by rw [List.map_map]; exact hnumbers)
      exact ⟨hkeys.2, _, hperm, hkeys.1, Option.some.inj h⟩
    · cases h
  · cases h

/-- Entries whose keys are those of items are a sequence. -/
theorem exists_sequence? (hn : n < listBound) (hkeys : (items.map Prod.fst).Perm (indexKeys 1 n)) :
    ∃ vs, sequence? items = some vs := by
  have hlen : items.length = n := by
    rw [← List.length_map (f := Prod.fst), hkeys.length_eq, length_indexKeys]
  have hindex : items.all (fun e => isIndex e.1) = true := by
    refine List.all_eq_true.2 fun e he => ?_
    obtain ⟨j, -, hj⟩ := List.mem_map.1 (hkeys.mem_iff.1 (List.mem_map_of_mem he))
    rw [← hj]
    rfl
  have hnumbers : (items.mergeSort fun e f => decide (e.1.number ≤ f.1.number)).map
      (fun e => e.1.number) = (List.range items.length).map fun i : Nat => (i : Int) + 1 := by
    refine List.Perm.eq_of_pairwise (fun a b _ _ => Int.le_antisymm) (pairwise_sorted items) ?_ ?_
    · rw [List.pairwise_map]
      exact List.pairwise_le_range.imp fun h => by omega
    · rw [hlen, ← numbers_indexKeys hn]
      have hmap := hkeys.map Key.number
      rw [List.map_map] at hmap
      exact ((List.mergeSort_perm items _).map _).trans hmap
  unfold sequence?
  rw [if_pos hindex]
  exact ⟨_, if_pos hnumbers⟩

variable {e : Enumeration}

/-- The keys of a table in any order of enumeration. -/
theorem Enumeration.keys_perm (e : Enumeration) (t : Table) :
    ((e.items t).map Prod.fst).Perm (t.toList.map Prod.fst) := (e.perm t).map _

/-- A table is read as a sequence exactly if its keys count, and then its values are those at
successive integers. -/
theorem sequence?_items_iff :
    sequence? (e.items t) = some vs ↔
      Counts t vs.length ∧
      ∀ i (hi : i < vs.length), vs[i] = t.get (.int (Int64.ofNat (i + 1))) := by
  have hof : ∀ {vs}, sequence? (e.items t) = some vs → Counts t vs.length ∧
      ∀ i (hi : i < vs.length), vs[i] = t.get (.int (Int64.ofNat (i + 1))) := by
    intro vs h
    obtain ⟨hshort, sorted, hperm, hkeys, rfl⟩ := sorted_of_sequence? h
    have hlen : sorted.length = (e.items t).length := hperm.length_eq
    refine ⟨⟨by rwa [List.length_map, hlen], ?_⟩, fun i hi => ?_⟩
    · rw [List.length_map, hlen, ← hkeys]
      exact ((hperm.map _).trans (e.keys_perm t)).symm
    · rw [List.length_map] at hi
      have hmem : sorted[i] ∈ t.toList :=
        (hperm.trans (e.perm t)).mem_iff.1 (List.getElem_mem hi)
      have hkey := List.getElem_of_eq hkeys (i := i) (by rwa [List.length_map])
      simp only [indexKeys, List.getElem_map, List.getElem_range', Nat.one_mul,
        Nat.add_comm 1 i] at hkey
      rw [List.getElem_map, ← hkey]
      exact (Table.mem_toList.1 hmem).1.symm
  refine ⟨hof, ?_⟩
  rintro ⟨hc, hv⟩
  obtain ⟨ws, hws⟩ := exists_sequence? hc.short ((e.keys_perm t).trans hc.keys)
  obtain ⟨hd, hw⟩ := hof hws
  rw [hws, List.ext_getElem (hd.unique hc) fun i hi hj => (hw i hi).trans (hv i hj).symm]

/-- A table is read as a dictionary exactly if its keys do not count. -/
theorem sequence?_items_eq_none_iff : sequence? (e.items t) = none ↔ ∀ n, ¬ Counts t n := by
  constructor
  · intro h n hc
    obtain ⟨ws, hws⟩ := exists_sequence? hc.short ((e.keys_perm t).trans hc.keys)
    rw [h] at hws
    cases hws
  · intro h
    cases hs : sequence? (e.items t) with
    | none => rfl
    | some vs => exact absurd (sequence?_items_iff.1 hs).1 (h _)

end

end ScriptAgent.Exchange
