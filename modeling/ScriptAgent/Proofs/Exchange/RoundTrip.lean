import ScriptAgent.Proofs.Exchange.Keys

/-!
# The round trip of plain values

`Exchange.decode_encode_iff`: a plain value that is written into a heap and read back is the same
value exactly if it is one that is kept (`Datum.Kept`): it holds nothing in no list and at no key of
a dictionary, it has no empty dictionary in it, and it nests at most `maxDepth` lists and
dictionaries.

The proof is an induction over images (`same_decodeFrom_iff`). A table has as many entries as it has
got values other than nil, so a list or a dictionary with a gap changes its length, and the keys of
a table tell lists and dictionaries apart as long as there is a key.
-/

namespace ScriptAgent

/-! ## What is kept -/

namespace Datum

/-- What a value that is written and read back with `n` levels must be like to be the same. -/
structure Kept (n : Nat) (d : Datum) : Prop where
  /-- It nests at most `n` lists and dictionaries. -/
  depth : d.depth ≤ n
  /-- No item of a list in it is nothing. -/
  items : ∀ items, Inside (.list items) d → .none ∉ items
  /-- No value of a dictionary in it is nothing. -/
  values : ∀ entries, Inside (.dict entries) d → ∀ e ∈ entries, e.2 ≠ .none
  /-- No dictionary in it is empty. -/
  filled : ¬ Inside (.dict []) d

namespace Kept

variable {n : Nat}

/-- Nothing is in a value that is neither a list nor a dictionary, so it is kept. -/
theorem scalar {d : Datum} (hl : ∀ items, d ≠ .list items) (hd : ∀ entries, d ≠ .dict entries) :
    d.Kept n := by
  have hself : ∀ e, Inside e d → e = d := fun e he => by
    cases he with
    | refl => rfl
    | item => exact absurd rfl (hl _)
    | value => exact absurd rfl (hd _)
  refine ⟨?_, fun _ h => absurd (hself _ h).symm (hl _), fun _ h => absurd (hself _ h).symm (hd _),
    fun h => absurd (hself _ h).symm (hd _)⟩
  rw [Datum.depth]
  exacts [Nat.zero_le n, hl, hd]

/-- A list is kept on no level. -/
theorem not_list_zero (items : List Datum) : ¬ (Datum.list items).Kept 0 := fun h => by
  have hd := h.depth
  rw [Datum.depth] at hd
  omega

/-- A dictionary is kept on no level. -/
theorem not_dict_zero (entries : List (Datum × Datum)) : ¬ (Datum.dict entries).Kept 0 := by
  intro h
  have hd := h.depth
  rw [Datum.depth] at hd
  omega

/-- A list is kept exactly if its items are, on one level less, and none of them is nothing. -/
theorem list_iff {items : List Datum} :
    (Datum.list items).Kept (n + 1) ↔ ∀ d ∈ items, d ≠ .none ∧ d.Kept n := by
  constructor
  · intro h d hd
    refine ⟨fun hn => h.items items .refl (hn ▸ hd), ?_, ?_, ?_, ?_⟩
    · exact (depth_list_le_iff items).1 h.depth d hd
    · exact fun is hi => h.items is (.item hd hi)
    · exact fun es hi => h.values es (.item hd hi)
    · exact fun hi => h.filled (.item hd hi)
  · intro h
    refine ⟨(depth_list_le_iff items).2 fun d hd => (h d hd).2.depth, ?_, ?_, ?_⟩
    · intro is hi
      cases hi with
      | refl => exact fun hn => (h _ hn).1 rfl
      | item hd hi => exact (h _ hd).2.items is hi
    · intro es hi
      cases hi with
      | item hd hi => exact (h _ hd).2.values es hi
    · intro hi
      cases hi with
      | item hd hi => exact (h _ hd).2.filled hi

/-- A dictionary is kept exactly if it has an entry, its values are kept, on one level less, and
none of them is nothing. -/
theorem dict_iff {entries : List (Datum × Datum)} :
    (Datum.dict entries).Kept (n + 1) ↔
      entries ≠ [] ∧ ∀ e ∈ entries, e.2 ≠ .none ∧ e.2.Kept n := by
  constructor
  · intro h
    refine ⟨fun he => h.filled (he ▸ .refl),
      fun e he => ⟨h.values entries .refl e he, ?_, ?_, ?_, ?_⟩⟩
    · exact (depth_dict_le_iff entries).1 h.depth e he
    · exact fun is hi => h.items is (.value he hi)
    · exact fun es hi => h.values es (.value he hi)
    · exact fun hi => h.filled (.value he hi)
  · intro ⟨hne, h⟩
    refine ⟨(depth_dict_le_iff entries).2 fun e he => (h e he).2.depth, ?_, ?_, ?_⟩
    · intro is hi
      cases hi with
      | value he hi => exact (h _ he).2.items is hi
    · intro es hi
      cases hi with
      | refl => exact fun e he => (h e he).1
      | value he hi => exact (h _ he).2.values es hi
    · intro hi
      cases hi with
      | refl => exact hne rfl
      | value he hi => exact (h _ he).2.filled hi

end Kept

end Datum

/-! ## Reading images -/

namespace Exchange

open Script

variable {h : Heap} {lo a : Address} {x : Value} {d : Datum} {room : Nat} {path : List Address}
  {e : Enumeration}

/-- The keys of items are distinct, as a list of the host is short. -/
theorem nodup_indexKeys {n : Nat} (hn : n < listBound) : (indexKeys 1 n).Nodup := by
  refine (List.nodup_range' (s := 1) (n := n)).map_on fun i hi j hj hij => ?_
  rw [List.mem_range'_1] at hi hj
  exact Key.int_ofNat_inj (by unfold listBound at hn; omega) (by unfold listBound at hn; omega) hij

/-- The keys of entries at distinct texts are distinct. -/
theorem nodup_entryKeys {entries : List (Datum × Datum)} (texts : ∀ e ∈ entries, ∃ s, e.1 = .str s)
    (distinct : (entries.map Prod.fst).Nodup) : (entries.map entryKey).Nodup := by
  have hk : entries.map entryKey = (entries.map Prod.fst).map fun k => .str (keyBytes k) := by
    rw [List.map_map]; rfl
  rw [hk]
  refine distinct.map_on fun k hk l hl hkl => ?_
  obtain ⟨e, he, rfl⟩ := List.mem_map.1 hk
  obtain ⟨f, hf, rfl⟩ := List.mem_map.1 hl
  obtain ⟨s, hs⟩ := texts e he
  obtain ⟨t, ht⟩ := texts f hf
  rw [hs, ht] at hkl ⊢
  exact congrArg Datum.str (Utf8.encode_injective (Key.str.inj hkl))

section
variable {es : List (Key × Value)}

/-- There are as many entries as keys. -/
theorem length_of_keys {ks : List Key} (keys : es.map Prod.fst = ks) : es.length = ks.length := by
  rw [← keys, List.length_map]

/-- The key of an entry is the one in its place. -/
theorem key_of_keys {ks : List Key} (keys : es.map Prod.fst = ks) {i : Nat} (he : i < es.length)
    (hk : i < ks.length) : es[i].1 = ks[i] := by
  subst keys
  exact (List.getElem_map Prod.fst).symm

/-- The index of an item is its key. -/
theorem key_of_indexKeys {n i : Nat} (keys : es.map Prod.fst = indexKeys 1 n) (he : i < es.length) :
    es[i].1 = .int (Int64.ofNat (i + 1)) := by
  rw [key_of_keys keys he (length_of_keys keys ▸ he)]
  simp only [indexKeys, List.getElem_map, List.getElem_range', Nat.one_mul, Nat.add_comm 1 i]

/-- A table that is filled with items is a sequence if none of them is nil. -/
theorem counts_items {n : Nat} (hn : n < listBound) (keys : es.map Prod.fst = indexKeys 1 n)
    (hv : ∀ e ∈ es, e.2 ≠ .nil) : Counts (Table.empty.setAll es) n where
  short := hn
  keys := keys ▸ (Table.toList_setAll_perm_self (keys ▸ nodup_indexKeys hn) hv).map _

/-- A table that is filled with items and has a value for each of them is read by them. -/
theorem sequence?_setAll {n : Nat} (hn : n < listBound)
    (keys : es.map Prod.fst = indexKeys 1 n) (hv : ∀ e ∈ es, e.2 ≠ .nil) :
    sequence? (e.items (Table.empty.setAll es)) = some (es.map Prod.snd) := by
  have hlen : (es.map Prod.snd).length = n := by
    rw [List.length_map, length_of_keys keys, length_indexKeys]
  refine sequence?_items_iff.2 ⟨hlen ▸ counts_items hn keys hv, fun i hi => ?_⟩
  rw [List.length_map] at hi
  rw [List.getElem_map, ← key_of_indexKeys keys hi,
    Table.get_setAll (keys ▸ nodup_indexKeys hn) (List.getElem_mem hi)]

/-- A table that is filled at texts is no sequence if it has an entry. -/
theorem sequence?_texts (keys : ∀ e ∈ es, ∃ s, e.1 = .str s)
    (hs : (Table.empty.setAll es).size ≠ 0) :
    sequence? (e.items (Table.empty.setAll es)) = none := by
  rw [sequence?_items_eq_none_iff]
  intro n hc
  rw [← Table.length_toList, hc.length] at hs
  have hone : Key.int (Int64.ofNat 1) ∈ indexKeys 1 n :=
    List.mem_map_of_mem (List.mem_range'_1.2 ⟨Nat.le_refl 1, by omega⟩)
  obtain ⟨e, he, hek⟩ :=
    List.mem_map.1 (Table.mem_keys_of_mem_toList_setAll (hc.keys.mem_iff.2 hone))
  obtain ⟨s, hs⟩ := keys e he
  rw [hs] at hek
  cases hek

/-- The image of a list is read as the list exactly if it has no gap and each item is read. -/
theorem same_list_iff {items : List Datum} (hpath : a ∉ path) (short : items.length < listBound)
    (table : h.table a = Table.empty.setAll es)
    (keys : es.map Prod.fst = indexKeys 1 items.length) :
    (decodeFrom e h (room + 1) path (.table a)).Same (.list items) ↔
      (∀ e ∈ es, e.2 ≠ .nil) ∧ ∀ i (he : i < es.length) (hd : i < items.length),
        (decodeFrom e h room (a :: path) es[i].2).Same items[i] := by
  have hnd : (es.map Prod.fst).Nodup := keys ▸ nodup_indexKeys short
  have hlen : es.length = items.length := (length_of_keys keys).trans (length_indexKeys 1 _)
  rw [decodeFrom_table hpath, table]
  constructor
  · intro hsame
    have hv : ∀ e ∈ es, e.2 ≠ .nil := by
      rw [← Table.size_setAll_iff hnd, ← Table.length_toList]
      cases hseq : sequence? (e.items (Table.empty.setAll es)) with
      | none => rw [hseq] at hsame; cases hsame
      | some vs =>
        rw [hseq] at hsame
        cases hsame with
        | list length _ =>
          rw [List.length_map] at length
          rw [(sequence?_items_iff.1 hseq).1.length, length, hlen]
    refine ⟨hv, fun i he hd => ?_⟩
    rw [sequence?_setAll short keys hv] at hsame
    cases hsame with
    | list length values =>
      have hi := values i (by rwa [List.length_map, List.length_map]) hd
      rwa [List.getElem_map, List.getElem_map] at hi
  · intro ⟨hv, values⟩
    rw [sequence?_setAll short keys hv]
    refine .list (by rw [List.length_map, List.length_map, hlen]) fun i hx hy => ?_
    rw [List.getElem_map, List.getElem_map]
    exact values i (hlen ▸ hy) hy

/-- The text of the key of an entry is its text. -/
theorem keyText_entryKey {e : Datum × Datum} (he : ∃ s, e.1 = .str s) :
    Datum.str (keyText (entryKey e).value) = e.1 := by
  obtain ⟨s, hs⟩ := he
  rw [entryKey, hs]
  exact congrArg Datum.str (Utf8.decode_encode s)

/-- The keys of a table that is filled with entries are texts. -/
theorem textKeys_setAll {entries : List (Datum × Datum)} (texts : ∀ e ∈ entries, ∃ s, e.1 = .str s)
    (keys : es.map Prod.fst = entries.map entryKey) : TextKeys (Table.empty.setAll es) := by
  intro k hk
  have hmem := Table.mem_keys_of_get_setAll hk
  rw [keys] at hmem
  obtain ⟨e, he, rfl⟩ := List.mem_map.1 hmem
  obtain ⟨s, hs⟩ := texts e he
  exact ⟨s, by rw [entryKey, hs]; rfl⟩

/-- The keys that entries are written at are read as their texts. -/
theorem text_of_keys {entries : List (Datum × Datum)} (texts : ∀ e ∈ entries, ∃ s, e.1 = .str s)
    (keys : es.map Prod.fst = entries.map entryKey) {i : Nat} (he : i < es.length)
    (hd : i < entries.length) : Datum.str (keyText es[i].1.value) = entries[i].1 := by
  rw [key_of_keys keys he (length_of_keys keys ▸ he), List.getElem_map]
  exact keyText_entryKey (texts _ (List.getElem_mem hd))

/-- The texts of all keys that entries are written at are their texts. -/
theorem texts_of_keys {entries : List (Datum × Datum)} (texts : ∀ e ∈ entries, ∃ s, e.1 = .str s)
    (keys : es.map Prod.fst = entries.map entryKey) :
    es.map (fun e => Datum.str (keyText e.1.value)) = entries.map Prod.fst := by
  have hlen : es.length = entries.length := (length_of_keys keys).trans (List.length_map _)
  refine List.ext_getElem (by simpa using hlen) fun i hi hj => ?_
  rw [List.length_map] at hi hj
  rw [List.getElem_map, List.getElem_map, text_of_keys texts keys hi hj]

/-- What a table that is filled with entries is read as by key has the same entries as they are if
it has no gap and each value is read. -/
theorem same_entries {entries : List (Datum × Datum)} {inner : Value → Datum}
    (texts : ∀ e ∈ entries, ∃ s, e.1 = .str s) (distinct : (entries.map Prod.fst).Nodup)
    (keys : es.map Prod.fst = entries.map entryKey) (filled : ∀ e ∈ es, e.2 ≠ .nil)
    (values : ∀ i (he : i < es.length) (hd : i < entries.length),
      (inner es[i].2).Same entries[i].2) :
    (Datum.dict ((e.items (Table.empty.setAll es)).map fun i =>
      (.str (keyText i.1.value), inner i.2))).Same (.dict entries) := by
  have hnd : (es.map Prod.fst).Nodup := keys ▸ nodup_entryKeys texts distinct
  have hlen : es.length = entries.length := (length_of_keys keys).trans (List.length_map _)
  have hperm := (e.perm _).trans (Table.toList_setAll_perm_self hnd filled)
  refine .dict ?_ fun k v w hkv hkw => ?_
  · rw [List.map_map]
    exact texts_of_keys texts keys ▸ hperm.map _
  · obtain ⟨e, he, hek⟩ := List.mem_map.1 hkv
    obtain ⟨i, hi, rfl⟩ := List.getElem_of_mem (hperm.mem_iff.1 he)
    obtain ⟨j, hj, hjk⟩ := List.getElem_of_mem hkw
    obtain ⟨rfl, rfl⟩ := Prod.mk.inj hek
    -- Both entries have one text as key, so they are in the same place.
    have hkey : entries[i].1 = entries[j].1 := by
      rw [← text_of_keys texts keys hi (hlen ▸ hi), hjk]
    have hi' : i < (entries.map Prod.fst).length := by
      simpa using hlen ▸ hi
    have hj' : j < (entries.map Prod.fst).length := by
      simpa using hj
    have hfst : (entries.map Prod.fst)[i] = (entries.map Prod.fst)[j] := by
      rw [List.getElem_map, List.getElem_map, hkey]
    obtain rfl : i = j := distinct.getElem_inj_iff.1 hfst
    have hw := values i hi hj
    rwa [hjk] at hw

/-- A table that is filled with entries and read as them by key has no gap, and each value is
read. -/
theorem filled_of_same {entries : List (Datum × Datum)} {inner : Value → Datum}
    (texts : ∀ e ∈ entries, ∃ s, e.1 = .str s) (distinct : (entries.map Prod.fst).Nodup)
    (keys : es.map Prod.fst = entries.map entryKey)
    (hsame : (Datum.dict ((e.items (Table.empty.setAll es)).map fun i =>
      (.str (keyText i.1.value), inner i.2))).Same (.dict entries)) :
    (∀ e ∈ es, e.2 ≠ .nil) ∧ ∀ i (he : i < es.length) (hd : i < entries.length),
      (inner es[i].2).Same entries[i].2 := by
  have hnd : (es.map Prod.fst).Nodup := keys ▸ nodup_entryKeys texts distinct
  have hlen : es.length = entries.length := (length_of_keys keys).trans (List.length_map _)
  cases hsame with
  | dict hkeys hvals =>
    have hsize : (Table.empty.setAll es).size = es.length := by
      have hl := hkeys.length_eq
      rwa [List.length_map, List.length_map, List.length_map, (e.perm _).length_eq,
        Table.length_toList, ← hlen] at hl
    have filled := (Table.size_setAll_iff hnd).1 hsize
    refine ⟨filled, fun i he hd => ?_⟩
    refine hvals _ _ _ (List.mem_map.2 ⟨es[i], ?_, ?_⟩) (List.getElem_mem hd)
    · exact ((e.perm _).trans (Table.toList_setAll_perm_self hnd filled)).mem_iff.2
        (List.getElem_mem he)
    · exact Prod.ext (text_of_keys texts keys he hd) rfl

/-- The image of a dictionary is read as the dictionary exactly if it has an entry, no gap, and each
value is read. -/
theorem same_dict_iff {entries : List (Datum × Datum)} (hpath : a ∉ path)
    (texts : ∀ e ∈ entries, ∃ s, e.1 = .str s) (distinct : (entries.map Prod.fst).Nodup)
    (table : h.table a = Table.empty.setAll es) (keys : es.map Prod.fst = entries.map entryKey) :
    (decodeFrom e h (room + 1) path (.table a)).Same (.dict entries) ↔
      entries ≠ [] ∧ (∀ e ∈ es, e.2 ≠ .nil) ∧
        ∀ i (he : i < es.length) (hd : i < entries.length),
          (decodeFrom e h room (a :: path) es[i].2).Same entries[i].2 := by
  have hnd : (es.map Prod.fst).Nodup := keys ▸ nodup_entryKeys texts distinct
  have hlen : es.length = entries.length := (length_of_keys keys).trans (List.length_map _)
  have hof := Datum.ofEntries_of_nodup (str_of_mem_items _ (decodeFrom e h room (a :: path)))
    ((textKeys_setAll texts keys).apart.nodup (e := e) (decodeFrom e h room (a :: path)))
  rw [decodeFrom_table hpath, table]
  constructor
  · intro hsame
    cases hseq : sequence? (e.items (Table.empty.setAll es)) with
    | some vs => rw [hseq] at hsame; cases hsame
    | none =>
      rw [hseq] at hsame
      simp only [hof] at hsame
      obtain ⟨filled, values⟩ := filled_of_same texts distinct keys hsame
      refine ⟨fun hne => ?_, filled, values⟩
      -- Without an entry the table would be read as a list.
      have hnil : es = [] := List.length_eq_zero_iff.1 (by rw [hlen, hne]; rfl)
      exact sequence?_items_eq_none_iff.1 hseq 0
        (counts_items (by decide) (by rw [hnil]; rfl) filled)
  · intro ⟨hne, filled, values⟩
    have hstr : ∀ e ∈ es, ∃ s, e.1 = .str s := by
      intro e he
      have hmem : e.1 ∈ es.map Prod.fst := List.mem_map_of_mem he
      rw [keys] at hmem
      obtain ⟨f, -, hf⟩ := List.mem_map.1 hmem
      exact ⟨_, hf.symm⟩
    have hsize : (Table.empty.setAll es).size ≠ 0 := by
      rw [(Table.size_setAll_iff hnd).2 filled, hlen]
      exact fun h0 => hne (List.length_eq_zero_iff.1 h0)
    rw [sequence?_texts hstr hsize]
    simp only [hof]
    exact same_entries texts distinct keys filled values

end

/-- The parts of an image have no gap and are read as the parts of the value exactly if these are
kept and none of them is nothing. -/
theorem parts_iff {α : Type} {es : List (Key × Value)} {parts : List α} {f : α → Datum}
    {inner : Value → Datum} (hlen : es.length = parts.length)
    (values : ∀ i (he : i < es.length) (hp : i < parts.length), Holds h lo es[i].2 (f parts[i]))
    (ih : ∀ i (he : i < es.length) (hp : i < parts.length),
      (inner es[i].2).Same (f parts[i]) ↔ (f parts[i]).Kept room) :
    ((∀ e ∈ es, e.2 ≠ .nil) ∧ ∀ i (he : i < es.length) (hp : i < parts.length),
      (inner es[i].2).Same (f parts[i])) ↔ ∀ p ∈ parts, f p ≠ .none ∧ (f p).Kept room := by
  constructor
  · intro ⟨hv, hs⟩ p hp
    obtain ⟨i, hi, rfl⟩ := List.getElem_of_mem hp
    have he : i < es.length := hlen ▸ hi
    exact ⟨fun hn => hv _ (List.getElem_mem he) ((values i he hi).eq_nil_iff.2 hn),
      (ih i he hi).1 (hs i he hi)⟩
  · intro hk
    refine ⟨fun e he hn => ?_, fun i he hp => (ih i he hp).2 (hk _ (List.getElem_mem hp)).2⟩
    obtain ⟨i, hi, rfl⟩ := List.getElem_of_mem he
    have hp : i < parts.length := hlen ▸ hi
    exact (hk _ (List.getElem_mem hp)).1 ((values i hi hp).eq_nil_iff.1 hn)

/-- What lies in a table has this table on its way too, below all tables of its image. -/
theorem below_cons (hpath : ∀ b ∈ path, b < lo) (hlo : lo ≤ a) : ∀ b ∈ a :: path, b < a + 1 :=
  List.forall_mem_cons.2 ⟨Nat.lt_succ_self a, fun b hb =>
    Nat.lt_succ_of_le (Nat.le_trans (Nat.le_of_lt (hpath b hb)) hlo)⟩

/-- The image of a value is read as that value exactly if the value is kept on as many levels as
there is room for. -/
theorem same_decodeFrom_iff (hx : Holds h lo x d) (hpath : ∀ b ∈ path, b < lo) :
    (decodeFrom e h room path x).Same d ↔ d.Kept room := by
  induction hx generalizing room path with
  | none => exact iff_of_true (by cases room <;> exact .none) (.scalar (by simp) (by simp))
  | bool b => exact iff_of_true (by cases room <;> exact .bool b) (.scalar (by simp) (by simp))
  | @int _ i fits =>
    refine iff_of_true ?_ (.scalar (by simp) (by simp))
    have hi : (Int64.ofInt i).toInt = i := by
      simp only [Num.fits, Bool.and_eq_true, decide_eq_true_eq] at fits
      exact Int64.toInt_ofInt_of_le (by omega) (by omega)
    have hs : (Datum.int (Int64.ofInt i).toInt).Same (.int i) := by rw [hi]; exact .int i
    cases room <;> exact hs
  | float x => exact iff_of_true (by cases room <;> exact .float x) (.scalar (by simp) (by simp))
  | str s =>
    refine iff_of_true ?_ (.scalar (by simp) (by simp))
    have hs : (Datum.str (Utf8.decode (Utf8.encode s))).Same (.str s) := by
      rw [Utf8.decode_encode]; exact .str s
    cases room <;> exact hs
  | @list _ a es items from_lo inside short table keys values ih =>
    cases room with
    | zero =>
      refine iff_of_false ?_ (Datum.Kept.not_list_zero items)
      rw [decodeFrom]
      intro hsame
      cases hsame
    | succ room =>
      have ha : a ∉ path := fun hm => Nat.lt_irrefl a (Nat.lt_of_lt_of_le (hpath a hm) from_lo)
      have hlen := (length_of_keys keys).trans (length_indexKeys 1 _)
      rw [same_list_iff ha short table keys, Datum.Kept.list_iff]
      exact parts_iff (f := id) hlen values fun i he hd => ih i he hd (below_cons hpath from_lo)
  | @dict _ a es entries from_lo inside texts distinct table keys values ih =>
    cases room with
    | zero =>
      refine iff_of_false ?_ (Datum.Kept.not_dict_zero entries)
      rw [decodeFrom]
      intro hsame
      cases hsame
    | succ room =>
      have ha : a ∉ path := fun hm => Nat.lt_irrefl a (Nat.lt_of_lt_of_le (hpath a hm) from_lo)
      have hlen := (length_of_keys keys).trans (List.length_map _)
      rw [same_dict_iff ha texts distinct table keys, Datum.Kept.dict_iff]
      exact and_congr_right fun _ => parts_iff (f := Prod.snd) hlen values fun i he hd =>
        ih i he hd (below_cons hpath from_lo)

/-- A plain value with lists of the host that is written into any heap, and then read back, is the
same value exactly if no list in it has nothing as an item, no dictionary in it has nothing as a
value, no dictionary in it is empty, and it nests at most `maxDepth` lists and dictionaries. -/
theorem decode_encode_iff {d : Datum} (hd : d.Plain) (hs : Short d) (h : Heap) :
    ∃ x h', encode h d = .ok (x, h') ∧
      ((decode h' x).Same d ↔
        (∀ items, Datum.Inside (.list items) d → .none ∉ items) ∧
        (∀ entries, Datum.Inside (.dict entries) d → ∀ e ∈ entries, e.2 ≠ .none) ∧
        ¬ Datum.Inside (.dict []) d ∧ d.depth ≤ maxDepth) := by
  obtain ⟨x, h', run, holds⟩ := encode_holds hd hs h
  refine ⟨x, h', run, ?_⟩
  rw [decode, decodeBy_eq, same_decodeFrom_iff holds (List.forall_mem_nil _)]
  exact ⟨fun k => ⟨k.items, k.values, k.filled, k.depth⟩,
    fun ⟨items, values, filled, depth⟩ => ⟨depth, items, values, filled⟩⟩

/-- A dictionary with a list in it, on a heap without tables. -/
theorem decode_encode_iff_nested :
    (Datum.dict [(.str "xs", .list [.int (-1), .str "é"])]).Plain ∧
      Short (.dict [(.str "xs", .list [.int (-1), .str "é"])]) ∧
      ∃ x h', encode Heap.empty (.dict [(.str "xs", .list [.int (-1), .str "é"])]) = .ok (x, h') ∧
        ((decode h' x).Same (.dict [(.str "xs", .list [.int (-1), .str "é"])]) ↔
          (∀ items, Datum.Inside (.list items) (.dict [(.str "xs", .list [.int (-1), .str "é"])]) →
            .none ∉ items) ∧
          (∀ entries,
            Datum.Inside (.dict entries) (.dict [(.str "xs", .list [.int (-1), .str "é"])]) →
            ∀ e ∈ entries, e.2 ≠ .none) ∧
          ¬ Datum.Inside (.dict []) (.dict [(.str "xs", .list [.int (-1), .str "é"])]) ∧
          (Datum.dict [(.str "xs", .list [.int (-1), .str "é"])]).depth ≤ maxDepth) := by
  have hp : (Datum.dict [(.str "xs", .list [.int (-1), .str "é"])]).Plain := by
    refine .dict (by simp) (by simp) fun e he => ?_
    rw [List.mem_singleton.1 he]
    exact .list (List.forall_mem_cons.2 ⟨.int (by decide), List.forall_mem_singleton.2 (.str _)⟩)
  have hs : Short (.dict [(.str "xs", .list [.int (-1), .str "é"])]) := by
    intro items hi
    obtain - | - | ⟨he, hi⟩ := hi
    rw [List.mem_singleton.1 he] at hi
    obtain - | ⟨hd, hi⟩ := hi
    · decide
    · rcases List.mem_pair.1 hd with rfl | rfl <;> cases hi
  exact ⟨hp, hs, decode_encode_iff hp hs Heap.empty⟩

end Exchange

end ScriptAgent
