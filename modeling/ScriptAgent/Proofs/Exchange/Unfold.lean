import ScriptAgent.Proofs.Exchange.Sequence

/-!
# Reading as unfolding

A heap may share tables and have cycles. `Unfolds e h path level v d` says that a value unfolds to a
tree: a table is cut off if it lies in itself (it is on the path) or too deep, and otherwise is the
list of its values, if its keys count from one on, or a dictionary of them.

A reading does the same with numbers for tables. As long as its numbers are those of the tables of
the path (`Reading.Tracks`), it reads what the value unfolds to and keeps this agreement
(`Exchange.read_eq`), so the whole reading is the unfolding from an empty path
(`Exchange.decodeBy_eq_iff_unfolds`).
-/

namespace ScriptAgent.Exchange

open Script

/-- The keys of the entries that a table is read as are texts. -/
theorem texts_of_mem_zip {items : List (Key × Value)} {ds : List Datum} {i : Datum × Datum}
    (hi : i ∈ (items.map fun i => Datum.str (keyText i.1.value)).zip ds) : ∃ s, i.1 = .str s := by
  obtain ⟨j, -, hj⟩ := List.mem_map.1 (List.of_mem_zip hi).1
  exact ⟨_, hj.symm⟩

/-- Keys beside what the values are read as are the entries that are read. -/
theorem zip_values {items : List (Key × Value)} {f : Key × Value → Datum} {g : Value → Datum} :
    (items.map f).zip ((items.map Prod.snd).map g) = items.map fun i => (f i, g i.2) := by
  rw [List.map_map]
  exact List.zip_map'

/-! ## Reading without numbers -/

/-- Reads a value at a level that leaves room for `room` more; `path` are the tables that it
lies in. -/
def decodeFrom (e : Enumeration) (h : Heap) : Nat → List Address → Value → Datum
  | room, path, v =>
    match v, room with
    | .table _, 0 => .none
    | .table a, room + 1 =>
      if a ∈ path then .none
      else
        let items := e.items (h.table a)
        let inner := decodeFrom e h room (a :: path)
        match sequence? items with
        | some vs => .list (vs.map inner)
        | none => Datum.ofEntries (items.map fun i => (.str (keyText i.1.value), inner i.2))
    | v, _ => decodeScalar v

section
variable {e : Enumeration} {h : Heap} {room : Nat} {path : List Address} {a : Address} {v : Value}

/-- What is no table is read as it is. -/
theorem decodeFrom_scalar (hv : ∀ a, v ≠ .table a) :
    decodeFrom e h room path v = decodeScalar v := by
  unfold decodeFrom
  split
  · exact absurd rfl (hv _)
  · exact absurd rfl (hv _)
  · rfl

/-- A table that lies in itself is cut off. -/
theorem decodeFrom_cyclic (ha : a ∈ path) : decodeFrom e h room path (.table a) = .none := by
  cases room with
  | zero => rfl
  | succ room => exact if_pos ha

/-- A table that is not entered again is read by its entries. -/
theorem decodeFrom_table (ha : a ∉ path) :
    decodeFrom e h (room + 1) path (.table a) =
      match sequence? (e.items (h.table a)) with
      | some vs => .list (vs.map (decodeFrom e h room (a :: path)))
      | none => Datum.ofEntries ((e.items (h.table a)).map fun i =>
        (.str (keyText i.1.value), decodeFrom e h room (a :: path) i.2)) :=
  if_neg ha

end

/-! ## Numbers for tables -/

namespace Reading

/-- The numbers of a reading are those of tables, and those that it is inside of are the numbers of
the tables of a path. -/
structure Tracks (s : Reading) (path : List Address) : Prop where
  bounded : ∀ (a : Address) (id : Nat), s.ids[a]? = some id → id ≤ s.ids.size
  injective : ∀ (a b : Address) (id : Nat), s.ids[a]? = some id → s.ids[b]? = some id → a = b
  path : s.path.map some = path.map (s.ids[·]?)

section
variable {s : Reading} {path : List Address} {a : Address} {id : Nat}

/-- A fresh reading is inside of no table. -/
theorem Tracks.fresh : fresh.Tracks [] where
  bounded a id h := by simp [Reading.fresh] at h
  injective a b id h := by simp [Reading.fresh] at h
  path := rfl

/-- Giving a number to a table does not go anywhere. -/
@[simp] theorem path_identify (s : Reading) (a : Address) : (s.identify a).2.path = s.path := by
  unfold identify
  split <;> rfl

/-- A table that is entered comes first on the path. -/
theorem path_enter_identify (s : Reading) (a : Address) :
    ((s.identify a).2.enter (s.identify a).1).path = (s.identify a).1 :: s.path :=
  congrArg (List.cons _) (path_identify s a)

/-- The tables of the path have numbers. -/
theorem Tracks.number_of_mem (t : s.Tracks path) (ha : a ∈ path) :
    ∃ id, s.ids[a]? = some id ∧ id ∈ s.path := by
  have hm : s.ids[a]? ∈ s.path.map some := t.path ▸ List.mem_map_of_mem ha
  obtain ⟨id, hid, h⟩ := List.mem_map.1 hm
  exact ⟨id, h.symm, hid⟩

/-- A number is on the path exactly if its table is. -/
theorem Tracks.mem_path_iff (t : s.Tracks path) (hid : s.ids[a]? = some id) :
    id ∈ s.path ↔ a ∈ path := by
  constructor
  · intro h
    have hm : some id ∈ path.map (s.ids[·]?) := t.path ▸ List.mem_map_of_mem h
    obtain ⟨b, hb, hbid⟩ := List.mem_map.1 hm
    exact t.injective b a id hbid hid ▸ hb
  · intro h
    obtain ⟨j, hj, hmem⟩ := t.number_of_mem h
    rw [hid, Option.some.injEq] at hj
    exact hj ▸ hmem

/-- Giving a number to a table keeps the path. -/
theorem Tracks.identify (t : s.Tracks path) (a : Address) :
    (s.identify a).2.Tracks path ∧ (s.identify a).2.ids[a]? = some (s.identify a).1 := by
  unfold Reading.identify
  split
  · next id hid => exact ⟨t, hid⟩
  · next hnew =>
    have hsize : (s.ids.insert a (s.ids.size + 1)).size = s.ids.size + 1 := by
      rw [Std.ExtTreeMap.size_insert, if_neg]
      intro hmem
      rw [Std.ExtTreeMap.contains_eq_isSome_getElem?, hnew] at hmem
      cases hmem
    have hget : ∀ b, (s.ids.insert a (s.ids.size + 1))[b]? =
        if a = b then some (s.ids.size + 1) else s.ids[b]? := by
      intro b
      rw [Std.ExtTreeMap.getElem?_insert]
      simp only [Std.LawfulEqOrd.compare_eq_iff_eq]
    refine ⟨⟨fun b id hb => ?_, fun b c id hb hc => ?_, ?_⟩, by rw [hget, if_pos rfl]⟩
    · rw [hget] at hb
      rw [hsize]
      split at hb
      · cases hb; exact Nat.le_refl _
      · exact Nat.le_succ_of_le (t.bounded b id hb)
    -- The new number is larger than all others, so it is that of one table only.
    · rw [hget] at hb hc
      split at hb <;> split at hc
      · next hb' hc' => rw [← hb', ← hc']
      · cases hb; exact absurd (t.bounded c _ hc) (Nat.not_succ_le_self _)
      · cases hc; exact absurd (t.bounded b _ hb) (Nat.not_succ_le_self _)
      · exact t.injective b c id hb hc
    · refine t.path.trans (List.map_congr_left fun b hb => ?_)
      have hne : a ≠ b := by
        rintro rfl
        obtain ⟨id, hid, -⟩ := t.number_of_mem hb
        rw [hnew] at hid
        cases hid
      rw [hget, if_neg hne]

/-- Inside a table, it comes first on the path. -/
theorem Tracks.enter (t : s.Tracks path) (hid : s.ids[a]? = some id) :
    (s.enter id).Tracks (a :: path) :=
  ⟨t.bounded, t.injective, by rw [Reading.enter, List.map_cons, List.map_cons, t.path, hid]⟩

/-- A reading that leaves the table that it has entered last is where it was before. -/
theorem path_leave {ids : List Nat} (hs : s.path = id :: ids) (hid : id ∉ ids) :
    (s.leave id).path = ids := by
  have hids : ∀ j ∈ ids, decide (j ≠ id) = true := fun j hj =>
    decide_eq_true fun hji => hid (hji ▸ hj)
  rw [leave, hs, List.filter_cons_of_neg (by simp), List.filter_eq_self.2 hids]

/-- Outside of a table again, the numbers are those of the rest of the path. -/
theorem Tracks.leave (t : s.Tracks (a :: path)) {ids : List Nat} (hs : s.path = id :: ids)
    (hid : id ∉ ids) : (s.leave id).Tracks path where
  bounded := t.bounded
  injective := t.injective
  path := by
    have hpath := t.path
    rw [hs, List.map_cons, List.map_cons, List.cons.injEq] at hpath
    rw [path_leave hs hid]
    exact hpath.2

end

end Reading

/-! ## A reading step by step -/

section
variable {e : Enumeration} {h : Heap} {room : Nat} {v : Value} {s : Reading} {a : Address}

/-- What is no table is read as it is. -/
theorem read_scalar (hv : ∀ a, v ≠ .table a) : read e h room v s = (decodeScalar v, s) := by
  unfold read
  split
  · exact absurd rfl (hv _)
  · exact absurd rfl (hv _)
  · rfl

/-- A table that the reading is inside of is not entered again. -/
theorem read_inside (hid : (s.identify a).1 ∈ s.path) :
    read e h (room + 1) (.table a) s = (.none, (s.identify a).2) := by
  rw [← Reading.path_identify s a] at hid
  exact if_pos (List.contains_iff_mem.2 hid)

/-- Any other table is entered, and left when its entries have been read. -/
theorem read_enter (hid : (s.identify a).1 ∉ s.path) :
    read e h (room + 1) (.table a) s =
      let r := readItems (read e h room) (e.items (h.table a))
        ((s.identify a).2.enter (s.identify a).1)
      (r.1, r.2.leave (s.identify a).1) := by
  rw [← Reading.path_identify s a] at hid
  exact if_neg fun hc => hid (List.contains_iff_mem.1 hc)

/-- Reading values one after the other keeps what reading each of them keeps. -/
theorem readAll_keeps {p : Reading → Prop} {read : Value → Reading → Datum × Reading}
    (hread : ∀ v s, p s → p (read v s).2) {done : List Datum} {vs : List Value} (hs : p s) :
    p (readAll read done vs s).2 := by
  induction vs generalizing done s with
  | nil => exact hs
  | cons v rest ih => exact ih (hread v s hs)

/-- Reading the entries of a table keeps what reading each value keeps. -/
theorem readItems_keeps {p : Reading → Prop} {read : Value → Reading → Datum × Reading}
    (hread : ∀ v s, p s → p (read v s).2) (items : List (Key × Value)) (hs : p s) :
    p (readItems read items s).2 := by
  unfold readItems
  split <;> exact readAll_keeps hread hs

/-- After a value has been read, the reading is inside of the same tables as before. -/
theorem path_read (e : Enumeration) (h : Heap) (room : Nat) (v : Value) (s : Reading) :
    (read e h room v s).2.path = s.path := by
  induction room generalizing v s with
  | zero => cases v <;> rfl
  | succ room ih =>
    rcases v.table_or_not with ⟨a, rfl⟩ | noTable
    · by_cases hid : (s.identify a).1 ∈ s.path
      · rw [read_inside hid, Reading.path_identify]
      · rw [read_enter hid]
        exact Reading.path_leave (readItems_keeps (fun v r hr => (ih v r).trans hr) _
          (Reading.path_enter_identify s a)) hid
    · rw [read_scalar noTable]

variable {path : List Address} {inner : Value → Datum}
  {read' : Value → Reading → Datum × Reading}

/-- Values are read one by one if each is, whatever has been read before. -/
theorem readAll_eq (hread : ∀ v s, s.Tracks path →
      (read' v s).1 = inner v ∧ (read' v s).2.Tracks path)
    {done : List Datum} {vs : List Value} (t : s.Tracks path) :
    (readAll read' done vs s).1 = done.reverse ++ vs.map inner := by
  induction vs generalizing done s with
  | nil => exact (List.append_nil _).symm
  | cons v rest ih =>
    rw [readAll, ih (hread v s t).2, (hread v s t).1, List.reverse_cons, List.append_assoc]
    rfl

/-- The entries of a table are read if each value is, whatever has been read before. -/
theorem readItems_eq (hread : ∀ v s, s.Tracks path →
      (read' v s).1 = inner v ∧ (read' v s).2.Tracks path)
    {items : List (Key × Value)} (t : s.Tracks path) :
    (readItems read' items s).1 =
      match sequence? items with
      | some vs => .list (vs.map inner)
      | none => Datum.ofEntries
        (items.map fun i => (Datum.str (keyText i.1.value), inner i.2)) := by
  unfold readItems
  cases sequence? items with
  | some vs => exact congrArg Datum.list (readAll_eq hread t)
  | none =>
    rw [← zip_values]
    exact congrArg (fun ds => Datum.ofEntries (List.zip _ ds)) (readAll_eq hread t)

/-- A reading reads a value as if there were no numbers, as long as its numbers are those of the
tables of the path, and they stay so. -/
theorem read_eq (t : s.Tracks path) :
    (read e h room v s).1 = decodeFrom e h room path v ∧ (read e h room v s).2.Tracks path := by
  induction room generalizing path v s with
  | zero => cases v <;> exact ⟨rfl, t⟩
  | succ room ih =>
    rcases v.table_or_not with ⟨a, rfl⟩ | noTable
    · obtain ⟨ti, hids⟩ := t.identify a
      have hmem := ti.mem_path_iff hids
      rw [Reading.path_identify] at hmem
      by_cases ha : a ∈ path
      · rw [read_inside (hmem.2 ha), decodeFrom_cyclic ha]
        exact ⟨rfl, ti⟩
      · have hid := mt hmem.1 ha
        have te := ti.enter hids
        have hread := fun v (r : Reading) (hr : r.Tracks (a :: path)) => ih (v := v) hr
        rw [read_enter hid, decodeFrom_table ha, readItems_eq hread te]
        have hpath := readItems_keeps (p := fun r => r.path = (s.identify a).1 :: s.path)
          (fun v r hr => (path_read e h room v r).trans hr) (e.items (h.table a))
          (Reading.path_enter_identify s a)
        exact ⟨rfl, (readItems_keeps (fun v r hr => (hread v r hr).2) _ te).leave hpath hid⟩
    · rw [read_scalar noTable, decodeFrom_scalar noTable]
      exact ⟨rfl, t⟩

end

/-- A whole reading reads a value as if there were no numbers. -/
theorem decodeBy_eq (e : Enumeration) (h : Heap) (v : Value) :
    decodeBy e h v = decodeFrom e h maxDepth [] v := (read_eq .fresh).1

/-! ## Unfolding -/

/-- A value of a heap unfolds to a tree, below the tables of a path and at a level. Tables are told
apart by their addresses, not by their entries. -/
inductive Unfolds (e : Enumeration) (h : Heap) : List Address → Nat → Value → Datum → Prop where
  | scalar {path : List Address} {level : Nat} {v : Value} (hv : ∀ a, v ≠ .table a) :
      Unfolds e h path level v (decodeScalar v)
  | deep {path : List Address} {level : Nat} {a : Address} (hl : maxDepth ≤ level) :
      Unfolds e h path level (.table a) .none
  | cyclic {path : List Address} {level : Nat} {a : Address} (ha : a ∈ path) :
      Unfolds e h path level (.table a) .none
  | list {path : List Address} {level : Nat} {a : Address} {ds : List Datum}
      (hl : level < maxDepth) (ha : a ∉ path) (counts : Counts (h.table a) ds.length)
      (values : ∀ i (hi : i < ds.length), Unfolds e h (a :: path) (level + 1)
        ((h.table a).get (.int (Int64.ofNat (i + 1)))) ds[i]) :
      Unfolds e h path level (.table a) (.list ds)
  | dict {path : List Address} {level : Nat} {a : Address} {ds : List Datum}
      (hl : level < maxDepth) (ha : a ∉ path) (counts : ∀ n, ¬ Counts (h.table a) n)
      (length : ds.length = (e.items (h.table a)).length)
      (values : ∀ i (hi : i < (e.items (h.table a)).length) (hd : i < ds.length),
        Unfolds e h (a :: path) (level + 1) (e.items (h.table a))[i].2 ds[i]) :
      Unfolds e h path level (.table a)
        (Datum.ofEntries (((e.items (h.table a)).map fun i => .str (keyText i.1.value)).zip ds))

section
variable {e : Enumeration} {h : Heap} {path : List Address} {level room : Nat} {v : Value}
  {d d' : Datum}

/-- A value unfolds to one tree only. -/
theorem Unfolds.unique (hd : Unfolds e h path level v d) (hd' : Unfolds e h path level v d') :
    d = d' := by
  induction hd generalizing d' with
  | scalar hv =>
    cases hd' with
    | scalar => rfl
    | _ => exact absurd rfl (hv _)
  | deep hl =>
    cases hd' with
    | scalar hv => exact absurd rfl (hv _)
    | list hl' => exact absurd hl' (Nat.not_lt.2 hl)
    | dict hl' => exact absurd hl' (Nat.not_lt.2 hl)
    | _ => rfl
  | cyclic ha =>
    cases hd' with
    | scalar hv => exact absurd rfl (hv _)
    | list _ ha' => exact absurd ha ha'
    | dict _ ha' => exact absurd ha ha'
    | _ => rfl
  | list hl ha counts _ ih =>
    cases hd' with
    | scalar hv => exact absurd rfl (hv _)
    | deep hl' => exact absurd hl (Nat.not_lt.2 hl')
    | cyclic ha' => exact absurd ha' ha
    | list _ _ counts' values' =>
      exact congrArg Datum.list
        (List.ext_getElem (counts.unique counts') fun i hi hj => ih i hi (values' i hj))
    | dict _ _ counts' => exact absurd counts (counts' _)
  | dict hl ha counts length _ ih =>
    cases hd' with
    | scalar hv => exact absurd rfl (hv _)
    | deep hl' => exact absurd hl (Nat.not_lt.2 hl')
    | cyclic ha' => exact absurd ha' ha
    | list _ _ counts' => exact absurd counts' (counts _)
    | dict _ _ _ length' values' =>
      rw [List.ext_getElem (length.trans length'.symm) fun i hi hj =>
        ih i (length ▸ hi) hi (values' i (length ▸ hi) hj)]

/-- What a value is read as, without numbers, it unfolds to. -/
theorem unfolds_decodeFrom (hlevel : level + room = maxDepth) :
    Unfolds e h path level v (decodeFrom e h room path v) := by
  induction room generalizing path level v with
  | zero =>
    rcases v.table_or_not with ⟨a, rfl⟩ | noTable
    · exact .deep (Nat.le_of_eq hlevel.symm)
    · rw [decodeFrom_scalar noTable]
      exact .scalar noTable
  | succ room ih =>
    rcases v.table_or_not with ⟨a, rfl⟩ | noTable
    · have hl : level < maxDepth := by omega
      have hinner : ∀ w, Unfolds e h (a :: path) (level + 1) w
          (decodeFrom e h room (a :: path) w) := fun w => ih (by omega)
      by_cases ha : a ∈ path
      · rw [decodeFrom_cyclic ha]
        exact .cyclic ha
      rw [decodeFrom_table ha]
      cases hs : sequence? (e.items (h.table a)) with
      | some vs =>
        obtain ⟨counts, hget⟩ := sequence?_items_iff.1 hs
        refine .list hl ha (by rwa [List.length_map]) fun i hi => ?_
        rw [List.length_map] at hi
        rw [List.getElem_map, hget i hi]
        exact hinner _
      | none =>
        dsimp only
        rw [← zip_values]
        refine .dict hl ha (sequence?_items_eq_none_iff.1 hs) (by simp) fun i hi hd => ?_
        rw [List.getElem_map, List.getElem_map]
        exact hinner _
    · rw [decodeFrom_scalar noTable]
      exact .scalar noTable

/-- A value is read as a tree that it unfolds to. -/
theorem unfolds_decodeBy (e : Enumeration) (h : Heap) (v : Value) :
    Unfolds e h [] 0 v (decodeBy e h v) := by
  rw [decodeBy_eq]
  exact unfolds_decodeFrom (Nat.zero_add _)

/-- The tree of a value nests no deeper than there are levels left. -/
theorem Unfolds.depth_le (hd : Unfolds e h path level v d) : d.depth ≤ maxDepth - level := by
  induction hd with
  | @scalar _ _ v _ => cases v with
    | num n => cases n <;> exact Nat.zero_le _
    | _ => exact Nat.zero_le _
  | deep _ => exact Nat.zero_le _
  | cyclic _ => exact Nat.zero_le _
  | @list _ level _ ds hl _ _ _ ih =>
    rw [show maxDepth - level = maxDepth - (level + 1) + 1 by omega, Datum.depth_list_le_iff]
    intro d hd
    obtain ⟨i, hi, rfl⟩ := List.getElem_of_mem hd
    exact ih i hi
  | @dict _ level a ds hl _ _ length _ ih =>
    rw [show maxDepth - level = maxDepth - (level + 1) + 1 by omega]
    refine Datum.depth_ofEntries_le (fun i hi => ?_) fun i hi => ?_
    · exact texts_of_mem_zip hi
    · obtain ⟨j, hj, hij⟩ := List.getElem_of_mem (List.of_mem_zip hi).2
      rw [← hij]
      exact ih j (length ▸ hj) hj

end

/-! ## What is reached -/

/-- A value of a table shows in what the table is read as: it is one of a sequence, or that of the
last entry with the text of its key. -/
inductive Shown (e : Enumeration) (t : Table) : Value → Prop where
  | item {n i : Nat} (counts : Counts t n) (hi : i < n) :
      Shown e t (t.get (.int (Int64.ofNat (i + 1))))
  | value {before after : List (Key × Value)} {k : Key} {v : Value}
      (counts : ∀ n, ¬ Counts t n) (items : e.items t = before ++ (k, v) :: after)
      (last : ∀ f ∈ after, keyText f.1.value ≠ keyText k.value) : Shown e t v

/-- A value is reached from another one through the tables of a path, none of them twice, the last
one first. -/
inductive Reaches (e : Enumeration) (h : Heap) (v : Value) : List Address → Value → Prop where
  | root : Reaches e h v [] v
  | step {path : List Address} {a : Address} {u : Value} (ha : a ∉ path)
      (shown : Shown e (h.table a) u) : Reaches e h v path (.table a) → Reaches e h v (a :: path) u

section
variable {e : Enumeration} {h : Heap} {path : List Address} {level : Nat} {v u : Value} {d : Datum}
  {a : Address}

/-- A table that is not cut off unfolds to what it has, not to nothing. -/
theorem Unfolds.ne_none (hd : Unfolds e h path level (.table a) d) (hl : level < maxDepth)
    (ha : a ∉ path) : d ≠ .none := by
  cases hd with
  | scalar hv => exact absurd rfl (hv a)
  | deep hl' => exact absurd hl (Nat.not_lt.2 hl')
  | cyclic ha' => exact absurd ha' ha
  | list => exact nofun
  | dict => exact nofun

/-- Pairs at a position, before it and after it. -/
theorem zip_split {α β : Type} {xs ys : List α} {x : α} {zs : List β} {n : Nat}
    (hn : n < zs.length) (hx : xs.length = n) :
    (xs ++ x :: ys).zip zs = xs.zip (zs.take n) ++ (x, zs[n]) :: ys.zip (zs.drop (n + 1)) := by
  conv_lhs => rw [← List.take_append_drop n zs, List.drop_eq_getElem_cons hn]
  rw [List.zip_append (by rw [List.length_take, hx, Nat.min_eq_left (Nat.le_of_lt hn)]),
    List.zip_cons_cons]

/-- What shows in a table that is not cut off is in the tree of the table. -/
theorem Unfolds.shown (hd : Unfolds e h path level (.table a) d) (hl : level < maxDepth)
    (ha : a ∉ path) (hu : Shown e (h.table a) u) :
    ∃ d', Unfolds e h (a :: path) (level + 1) u d' ∧ Datum.Inside d' d := by
  cases hd with
  | scalar hv => exact absurd rfl (hv a)
  | deep hl' => exact absurd hl (Nat.not_lt.2 hl')
  | cyclic ha' => exact absurd ha' ha
  | list _ _ counts values =>
    cases hu with
    | item counts' hi =>
      rw [counts'.unique counts] at hi
      exact ⟨_, values _ hi, .item (List.getElem_mem hi) .refl⟩
    | value counts' => exact absurd counts (counts' _)
  | @dict _ _ _ ds _ _ counts length values =>
    cases hu with
    | item counts' => exact absurd counts' (counts _)
    | @value before after k v _ items last =>
      have hlen : before.length < ds.length := by rw [length, items]; simp
      have hd := values before.length (length ▸ hlen) hlen
      simp only [items, List.getElem_append_right (Nat.le_refl _), Nat.sub_self,
        List.getElem_cons_zero] at hd
      have hlast : Datum.str (keyText k.value) ∉
          ((after.map fun i => Datum.str (keyText i.1.value)).zip
            (ds.drop (before.length + 1))).map Prod.fst := fun hk => by
        obtain ⟨i, hi, hik⟩ := List.mem_map.1 hk
        obtain ⟨f, hf, hfi⟩ := List.mem_map.1 (List.of_mem_zip hi).1
        exact last f hf (Datum.str.inj (hfi.trans hik))
      obtain ⟨fs, hfs, hmem⟩ := Datum.mem_ofEntries (v := ds[before.length])
        (List.forall_mem_append.2 ⟨fun i hi => texts_of_mem_zip hi,
          List.forall_mem_cons.2 ⟨⟨_, rfl⟩, fun i hi => texts_of_mem_zip hi⟩⟩) hlast
      refine ⟨_, hd, ?_⟩
      rw [items, List.map_append, List.map_cons, zip_split hlen (List.length_map _), hfs]
      exact .value hmem .refl

/-- What is reached through few enough tables is in the tree of the whole, with the tree that it
unfolds to where it is reached. -/
theorem Unfolds.reaches {d : Datum} (hd : Unfolds e h [] 0 v d) (hu : Reaches e h v path u)
    (hl : path.length ≤ maxDepth) :
    ∃ d', Unfolds e h path path.length u d' ∧ Datum.Inside d' d := by
  induction hu with
  | root => exact ⟨d, hd, .refl⟩
  | step ha shown _ ih =>
    have hlt := Nat.lt_of_succ_le hl
    obtain ⟨d', hd', hin⟩ := ih (Nat.le_of_lt hlt)
    obtain ⟨d'', hd'', hin'⟩ := hd'.shown hlt ha shown
    exact ⟨d'', hd'', hin'.trans hin⟩

end

/-- Any value of any heap, with its entries in any order, is read as the one tree that it unfolds
to, and this tree nests at most `maxDepth` lists and dictionaries. What is reached through tables
none of which comes twice is in it with its own tree, which is not nothing for a table that is not
too deep and not on the way. After each part of the reading, it is inside of the same tables as
before that part. -/
theorem decodeBy_eq_iff_unfolds (e : Enumeration) (h : Heap) (v : Value) :
    (∀ d, decodeBy e h v = d ↔ Unfolds e h [] 0 v d) ∧
    (decodeBy e h v).depth ≤ maxDepth ∧
    (∀ path u, Reaches e h v path u → path.length ≤ maxDepth →
      ∃ d, Unfolds e h path path.length u d ∧ Datum.Inside d (decodeBy e h v) ∧
        ∀ a, u = .table a → a ∉ path → path.length < maxDepth → d ≠ .none) ∧
    ∀ room u s, (read e h room u s).2.path = s.path := by
  have hread := unfolds_decodeBy e h v
  refine ⟨fun d => ⟨fun hd => hd ▸ hread, hread.unique⟩, hread.depth_le, fun path u hu hl => ?_,
    path_read e h⟩
  obtain ⟨d, hd, hin⟩ := hread.reaches hu hl
  refine ⟨d, hd, hin, ?_⟩
  rintro a rfl ha hlt
  exact hd.ne_none hlt ha

/-- A heap with a list, and a table that has the list at the keys x and y and itself at z. -/
def sharedHeap : Heap :=
  let list := Table.empty.setAll [(.int 1, .num (.int 7))]
  let outer := Table.empty.setAll
    [(.str [120], .table 0), (.str [121], .table 0), (.str [122], .table 1)]
  ((Heap.empty.newTable list).2.newTable outer).2

example : decode sharedHeap (.table 1) = .dict
    [(.str "x", .list [.int 7]), (.str "y", .list [.int 7]), (.str "z", .none)] := by
  cbv

end ScriptAgent.Exchange
