import ScriptAgent.Proofs.Exchange.RoundTrip

/-!
# Structured values of scripts

A value of a script is structured if it is a tree of tables, each either a sequence or a record with
texts as keys, with booleans, numbers and texts as leaves (`Exchange.Structured`). Such a value is
read in full (`denotes_decodeFrom`): no table in it lies in itself, since each is a tree of fewer
levels than the tables around it.

What is written from the same data is the value again, table by table and key by key
(`Denotes.alike`), whatever tables it is made of.
-/

namespace ScriptAgent.Exchange

open Script

/-- Nothing, a boolean, a number, or a string that is a text. -/
inductive Basic : Value → Prop where
  | nil : Basic .nil
  | bool (b : Bool) : Basic (.bool b)
  | num (n : Script.Num) : Basic (.num n)
  | str (s : String) : Basic (.str (Utf8.encode s))

/-- A value is a tree of at most `n` levels of tables, in each of which the keys are either the
integers from one to a number or texts, and what is no table is nothing, a boolean, a number or a
text. -/
inductive Structured (h : Heap) : Nat → Value → Prop where
  | basic {n : Nat} {v : Value} (hv : Basic v) : Structured h n v
  | table {n : Nat} {a : Address} (keys : (∃ m, Counts (h.table a) m) ∨ TextKeys (h.table a))
      (values : ∀ k, Structured h n ((h.table a).get k)) : Structured h (n + 1) (.table a)

/-- Two values are alike: the same nothing, boolean, number or string, or tables with values that
are alike at each key. -/
inductive Alike (h h' : Heap) : Value → Value → Prop where
  | basic {v : Value} (hv : Basic v) : Alike h h' v v
  | table {a b : Address} (values : ∀ k, Alike h h' ((h.table a).get k) ((h'.table b).get k)) :
      Alike h h' (.table a) (.table b)

/-- A value of a script denotes a value of the host: a table that counts denotes a list of what its
values denote, and any other table a dictionary with an entry for each key. -/
inductive Denotes (h : Heap) : Value → Datum → Prop where
  | basic {v : Value} (hv : Basic v) : Denotes h v (decodeScalar v)
  | list {a : Address} {ds : List Datum} (counts : Counts (h.table a) ds.length)
      (values : ∀ i (hi : i < ds.length),
        Denotes h ((h.table a).get (.int (Int64.ofNat (i + 1)))) ds[i]) :
      Denotes h (.table a) (.list ds)
  | dict {a : Address} {entries : List (Datum × Datum)}
      (keys : ∀ k, (h.table a).get k ≠ .nil → k ∈ entries.map entryKey)
      (values : ∀ e ∈ entries, Denotes h ((h.table a).get (entryKey e)) e.2) :
      Denotes h (.table a) (.dict entries)

section
variable {h h' : Heap} {n m : Nat} {x y v : Value} {d d' : Datum}

/-- What is basic is no table. -/
theorem Basic.ne_table (hv : Basic v) (a : Address) : v ≠ .table a := by
  rintro rfl
  cases hv

/-- A table that is filled with trees at the integers from one on is a tree. -/
theorem Structured.sequence {a : Address} {es : List (Key × Value)}
    (table : h.table a = Table.empty.setAll es) (short : m < listBound)
    (keys : es.map Prod.fst = indexKeys 1 m) (filled : ∀ e ∈ es, e.2 ≠ .nil)
    (values : ∀ e ∈ es, Structured h n e.2) : Structured h (n + 1) (.table a) := by
  refine .table (.inl ⟨m, table ▸ counts_items short keys filled⟩) fun k => ?_
  by_cases hk : (h.table a).get k = .nil
  · exact hk ▸ .basic .nil
  · rw [table] at hk ⊢
    exact values _ (Table.mem_of_get_setAll hk)

/-- A table that is filled with trees at texts is a tree. -/
theorem Structured.record {a : Address} {es : List (Key × Value)}
    (table : h.table a = Table.empty.setAll es)
    (keys : ∀ e ∈ es, ∃ s, e.1 = .str (Utf8.encode s))
    (values : ∀ e ∈ es, Structured h n e.2) : Structured h (n + 1) (.table a) := by
  refine .table (.inr fun k hk => ?_) fun k => ?_
  · rw [table] at hk
    exact keys _ (Table.mem_of_get_setAll hk)
  · by_cases hk : (h.table a).get k = .nil
    · exact hk ▸ .basic .nil
    · rw [table] at hk ⊢
      exact values _ (Table.mem_of_get_setAll hk)

/-! ## Reading -/

/-- A tree has at most any larger number of levels too. -/
theorem Structured.mono (hx : Structured h n x) (hnm : n ≤ m) : Structured h m x := by
  induction hx generalizing m with
  | basic hv => exact .basic hv
  | table keys _ ih =>
    obtain ⟨m, rfl⟩ : ∃ k, m = k + 1 := ⟨m - 1, by omega⟩
    exact .table keys fun k => ih k (by omega)

/-- A table with texts as keys that does not count is read as a dictionary with an entry for each
key. -/
theorem denotes_dict {e : Enumeration} {a : Address} {inner : Value → Datum}
    (texts : TextKeys (h.table a))
    (values : ∀ k, Denotes h ((h.table a).get k) (inner ((h.table a).get k))) :
    Denotes h (.table a) (Datum.ofEntries ((e.items (h.table a)).map fun i =>
      (.str (keyText i.1.value), inner i.2))) := by
  have hitem : ∀ i ∈ e.items (h.table a), (h.table a).get i.1 = i.2 ∧
      ∃ s, i.1 = .str (Utf8.encode s) ∧ keyText i.1.value = s := by
    intro i hi
    obtain ⟨hget, hne⟩ := Table.mem_toList.1 ((e.perm _).mem_iff.1 hi)
    obtain ⟨s, hs⟩ := texts i.1 (hget ▸ hne)
    exact ⟨hget, s, hs, by rw [hs]; exact Utf8.decode_encode s⟩
  have hkey : ∀ i ∈ e.items (h.table a),
      entryKey (.str (keyText i.1.value), inner i.2) = i.1 := by
    intro i hi
    obtain ⟨-, s, hs, htext⟩ := hitem i hi
    rw [htext, hs]
    rfl
  rw [Datum.ofEntries_of_nodup (str_of_mem_items _ inner) (texts.apart.nodup inner)]
  refine .dict (fun k hk => ?_) fun p hp => ?_
  · have hi : (k, (h.table a).get k) ∈ e.items (h.table a) :=
      (e.perm _).mem_iff.2 (Table.mem_toList.2 ⟨rfl, hk⟩)
    rw [List.map_map]
    exact List.mem_map.2 ⟨_, hi, hkey _ hi⟩
  · obtain ⟨i, hi, rfl⟩ := List.mem_map.1 hp
    rw [hkey i hi, ← (hitem i hi).1]
    exact values i.1

/-- A tree is read as what it denotes if there is room for its levels and the tables that it lies in
are no trees of so few levels. -/
theorem denotes_decodeFrom {e : Enumeration} {room : Nat} {path : List Address}
    (hx : Structured h n x) (hroom : n ≤ room)
    (hpath : ∀ b ∈ path, ¬ Structured h n (.table b)) :
    Denotes h x (decodeFrom e h room path x) := by
  induction n generalizing room path x with
  | zero =>
    cases hx with
    | basic hv => exact decodeFrom_scalar hv.ne_table ▸ .basic hv
  | succ n ih =>
    have hbelow : ∀ b ∈ path, ¬ Structured h n (.table b) := fun b hb hs =>
      hpath b hb (hs.mono (Nat.le_succ n))
    by_cases hless : Structured h n x
    · exact ih hless (Nat.le_of_succ_le hroom) hbelow
    cases hx with
    | basic hv => exact absurd (.basic hv) hless
    | @table _ a keys values =>
      obtain ⟨room, rfl⟩ : ∃ r, room = r + 1 := ⟨room - 1, by omega⟩
      have ha : a ∉ path := fun ha => hpath a ha (.table keys values)
      -- The table has no fewer levels, so none of its values can be the table itself.
      have hinner : ∀ k, Denotes h ((h.table a).get k)
          (decodeFrom e h room (a :: path) ((h.table a).get k)) := fun k =>
        ih (values k) (by omega) (List.forall_mem_cons.2 ⟨hless, hbelow⟩)
      rw [decodeFrom_table ha]
      cases hseq : sequence? (e.items (h.table a)) with
      | some vs =>
        obtain ⟨counts, hget⟩ := sequence?_items_iff.1 hseq
        refine .list (by rwa [List.length_map]) fun i hi => ?_
        rw [List.length_map] at hi
        rw [List.getElem_map, hget i hi]
        exact hinner _
      | none =>
        have texts := keys.resolve_left fun ⟨m, hm⟩ => sequence?_items_eq_none_iff.1 hseq m hm
        exact denotes_dict texts hinner

/-- A tree of at most `maxDepth` levels is read as what it denotes, in whichever order the entries
of tables are enumerated. -/
theorem denotes_decodeBy (e : Enumeration) (hx : Structured h maxDepth x) :
    Denotes h x (decodeBy e h x) := by
  rw [decodeBy_eq]
  exact denotes_decodeFrom hx (Nat.le_refl _) (List.forall_mem_nil _)

/-- A tree of at most `maxDepth` levels is read as what it denotes. -/
theorem denotes_decode (hx : Structured h maxDepth x) : Denotes h x (decode h x) :=
  denotes_decodeBy .byKey hx

/-! ## Writing -/

/-- Lists in what a value denotes are as short as tables are. -/
theorem Denotes.short (hx : Denotes h x d) (same : d.Same d') : Short d' := by
  induction hx generalizing d' with
  | basic hv =>
    intro items hi
    cases hv with
    | nil | bool | str => cases same; cases hi
    | num n => cases n <;> cases same <;> cases hi
  | list counts _ ih =>
    cases same with
    | list length values =>
      intro items hi
      cases hi with
      | refl => exact length ▸ counts.short
      | item he hi =>
        obtain ⟨i, hi', rfl⟩ := List.getElem_of_mem he
        exact ih i (length ▸ hi') (values i (length ▸ hi') hi') items hi
  | @dict a entries keys values ih =>
    cases same with
    | @dict _ fs perm same =>
      intro items hi
      cases hi with
      | @value _ f hf hi =>
        obtain ⟨e, he, hef⟩ := List.mem_map.1 (perm.mem_iff.2 (List.mem_map_of_mem hf))
        exact ih e he (same e.1 _ _ he (hef ▸ hf)) items hi

/-- What holds the same data as a basic value is that value. -/
theorem Basic.eq_of_holds {lo : Address} (hv : Basic v) (same : (decodeScalar v).Same d')
    (hy : Holds h' lo y d') : y = v := by
  cases hv with
  | nil => cases same; cases hy; rfl
  | bool b => cases same; cases hy; rfl
  | str s =>
    rw [decodeScalar, Utf8.decode_encode] at same
    cases same
    cases hy
    rfl
  | num n =>
    cases n with
    | int i => cases same; cases hy; rw [Int64.ofInt_toInt]
    | float x => cases same; cases hy; rfl

/-- A table is alike one that is filled with entries if it has values at their keys only, and a
value that is alike at each of these. -/
theorem Alike.of_entries {a b : Address} {es : List (Key × Value)}
    (table : h'.table b = Table.empty.setAll es) (distinct : (es.map Prod.fst).Nodup)
    (keys : ∀ k, (h.table a).get k ≠ .nil → k ∈ es.map Prod.fst)
    (values : ∀ i (hi : i < es.length), Alike h h' ((h.table a).get es[i].1) es[i].2) :
    Alike h h' (.table a) (.table b) := by
  refine .table fun k => ?_
  rw [table]
  by_cases hk : k ∈ es.map Prod.fst
  · obtain ⟨e, he, rfl⟩ := List.mem_map.1 hk
    obtain ⟨i, hi, rfl⟩ := List.getElem_of_mem he
    rw [Table.get_setAll distinct he]
    exact values i hi
  · rw [not_ne_iff.1 (mt (keys k) hk), Table.get_setAll_of_not_mem hk, Table.get_empty]
    exact .basic .nil

/-- What holds the same data as a value denotes is alike. -/
theorem Denotes.alike {lo : Address} (hx : Denotes h x d) (same : d.Same d')
    (hy : Holds h' lo y d') : Alike h h' x y := by
  induction hx generalizing lo y d' with
  | basic hv =>
    obtain rfl := hv.eq_of_holds same hy
    exact .basic hv
  | @list a ds counts _ ih =>
    cases same with
    | @list _ ds' length values =>
      cases hy with
      | @list _ b es _ _ _ short table keys holds =>
        have hnd : (es.map Prod.fst).Nodup := keys ▸ nodup_indexKeys short
        have hlen : es.length = ds'.length := (length_of_keys keys).trans (length_indexKeys 1 _)
        refine .of_entries table hnd (fun k hk => ?_) fun i hi => ?_
        · rw [keys, ← length]
          exact counts.keys.mem_iff.1 (Table.mem_keys_toList.2 hk)
        · have hd' : i < ds'.length := hlen ▸ hi
          rw [key_of_indexKeys keys hi]
          exact ih i (length ▸ hd') (values i (length ▸ hd') hd') (holds i hi hd')
  | @dict a entries keysOf _ ih =>
    cases same with
    | @dict _ fs perm values =>
      cases hy with
      | @dict _ b es _ _ _ texts distinct table keys holds =>
        have hnd : (es.map Prod.fst).Nodup := keys ▸ nodup_entryKeys texts distinct
        have hlen : es.length = fs.length := (length_of_keys keys).trans (List.length_map _)
        refine .of_entries table hnd (fun k hk => ?_) fun i hi => ?_
        · obtain ⟨e, he, rfl⟩ := List.mem_map.1 (keysOf k hk)
          obtain ⟨f, hf, hfe⟩ := List.mem_map.1 (perm.mem_iff.1 (List.mem_map_of_mem he))
          rw [keys]
          exact List.mem_map.2 ⟨f, hf, by rw [entryKey, hfe, entryKey]⟩
        · have hf : i < fs.length := hlen ▸ hi
          obtain ⟨e, he, hef⟩ :=
            List.mem_map.1 (perm.mem_iff.2 (List.mem_map_of_mem (List.getElem_mem hf)))
          have hkey : es[i].1 = entryKey e := by
            rw [key_of_keys keys hi (length_of_keys keys ▸ hi), List.getElem_map, entryKey,
              entryKey, hef]
          have hmem : (e.1, fs[i].2) ∈ fs := hef ▸ List.getElem_mem hf
          rw [hkey]
          exact ih e he (values e.1 e.2 fs[i].2 he hmem) (holds i hi hf)

end

end ScriptAgent.Exchange
