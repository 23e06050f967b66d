import Mathlib.Data.List.Nodup
import ScriptAgent.Datum
import ScriptAgent.Script.Number

/-!
# Plain data

`Datum.Plain` are the host values that scripts and the host both have: nothing, booleans, integers
of 64 bits, floats, texts, lists, and dictionaries with texts as keys. `Datum.Same` is equality of
plain data up to the order of the entries of dictionaries; `Datum.Inside` and `Datum.depth` say what
occurs in a value and how far it nests.

A dictionary that is made of entries with texts as keys has distinct keys, and each of its values is
one of those of the entries (`Datum.ofEntries_plain`).
-/

namespace ScriptAgent.Datum

/-- Nothing, booleans, integers of 64 bits, floats, texts, lists, and dictionaries with distinct
texts as keys. -/
inductive Plain : Datum → Prop where
  | none : Plain .none
  | bool (b : Bool) : Plain (.bool b)
  | int {i : Int} (h : Script.Num.fits i = true) : Plain (.int i)
  | float (x : Float) : Plain (.float x)
  | str (s : String) : Plain (.str s)
  | list {items : List Datum} (h : ∀ d ∈ items, Plain d) : Plain (.list items)
  | dict {entries : List (Datum × Datum)} (keys : ∀ e ∈ entries, ∃ s, e.1 = .str s)
      (distinct : (entries.map Prod.fst).Nodup) (h : ∀ e ∈ entries, Plain e.2) :
      Plain (.dict entries)

/-- A plain value stands for itself. -/
theorem Plain.underlying {d : Datum} (hd : d.Plain) : d.underlying = d := by
  cases hd <;> rfl

/-- Two values are the same data: the same value of the same type, lists item by item,
dictionaries by their keys whatever the order of the entries. -/
inductive Same : Datum → Datum → Prop where
  | none : Same .none .none
  | bool (b : Bool) : Same (.bool b) (.bool b)
  | int (i : Int) : Same (.int i) (.int i)
  | float (x : Float) : Same (.float x) (.float x)
  | str (s : String) : Same (.str s) (.str s)
  | list {xs ys : List Datum} (length : xs.length = ys.length)
      (items : ∀ i (hx : i < xs.length) (hy : i < ys.length), Same xs[i] ys[i]) :
      Same (.list xs) (.list ys)
  | dict {es fs : List (Datum × Datum)} (keys : (es.map Prod.fst).Perm (fs.map Prod.fst))
      (values : ∀ k v w, (k, v) ∈ es → (k, w) ∈ fs → Same v w) : Same (.dict es) (.dict fs)

/-- A value occurs in another one: it is that value, or it occurs in an item of a list or in a
value of a dictionary. -/
inductive Inside (d : Datum) : Datum → Prop where
  | refl : Inside d d
  | item {items : List Datum} {e : Datum} (h : e ∈ items) : Inside d e → Inside d (.list items)
  | value {entries : List (Datum × Datum)} {e : Datum × Datum} (h : e ∈ entries) :
      Inside d e.2 → Inside d (.dict entries)

/-- What occurs in something that occurs in a value occurs in that value. -/
theorem Inside.trans {c d e : Datum} (hcd : Inside c d) (hde : Inside d e) : Inside c e := by
  induction hde with
  | refl => exact hcd
  | item he _ ih => exact .item he ih
  | value he _ ih => exact .value he ih

/-! ## Depth -/

mutual

/-- How many lists and dictionaries lie in one another. -/
def depth : Datum → Nat
  | .list items => depthOfItems items + 1
  | .dict entries => depthOfEntries entries + 1
  | _ => 0

/-- The largest depth of some values. -/
def depthOfItems : List Datum → Nat
  | [] => 0
  | d :: rest => max (depth d) (depthOfItems rest)

/-- The largest depth of the values of some entries. -/
def depthOfEntries : List (Datum × Datum) → Nat
  | [] => 0
  | e :: rest => max (depthOfEntry e) (depthOfEntries rest)

/-- The depth of the value of an entry. -/
def depthOfEntry : Datum × Datum → Nat
  | (_, value) => depth value

end

/-- `depthOfItems` in the natural per-element form. -/
theorem depthOfItems_le_iff {n : Nat} (items : List Datum) :
    depthOfItems items ≤ n ↔ ∀ d ∈ items, d.depth ≤ n := by
  induction items with
  | nil => simp [depthOfItems]
  | cons d rest ih => rw [depthOfItems, Nat.max_le, ih, List.forall_mem_cons]

/-- `depthOfEntries` in the natural per-element form. -/
theorem depthOfEntries_le_iff {n : Nat} (entries : List (Datum × Datum)) :
    depthOfEntries entries ≤ n ↔ ∀ e ∈ entries, e.2.depth ≤ n := by
  induction entries with
  | nil => simp [depthOfEntries]
  | cons e rest ih =>
    obtain ⟨k, v⟩ := e
    rw [depthOfEntries, Nat.max_le, ih, List.forall_mem_cons, depthOfEntry]

/-- A list nests one level more than its items. -/
@[simp] theorem depth_list_le_iff {n : Nat} (items : List Datum) :
    (Datum.list items).depth ≤ n + 1 ↔ ∀ d ∈ items, d.depth ≤ n := by
  rw [depth, Nat.add_le_add_iff_right, depthOfItems_le_iff]

/-- A dictionary nests one level more than its values. -/
@[simp] theorem depth_dict_le_iff {n : Nat} (entries : List (Datum × Datum)) :
    (Datum.dict entries).depth ≤ n + 1 ↔ ∀ e ∈ entries, e.2.depth ≤ n := by
  rw [depth, Nat.add_le_add_iff_right, depthOfEntries_le_iff]

/-! ## Dictionaries made of entries -/

section
variable {entries : List (Datum × Datum)} {s : String} {v : Datum}

/-- A value is put at a text that is no key of a dictionary as the last entry. -/
theorem putEntry_of_not_mem (keys : ∀ e ∈ entries, ∃ t, e.1 = .str t)
    (h : Datum.str s ∉ entries.map Prod.fst) :
    putEntry (.str s) v entries = entries ++ [(.str s, v)] := by
  induction entries with
  | nil => rfl
  | cons e rest ih =>
    obtain ⟨k, w⟩ := e
    obtain ⟨t, rfl⟩ : ∃ t, k = .str t := keys (k, w) List.mem_cons_self
    rw [List.map_cons, List.mem_cons, not_or] at h
    have hst : t ≠ s := fun e => h.1 (by rw [e])
    have hrest := ih (fun e he => keys e (List.mem_cons_of_mem _ he)) h.2
    simp only [putEntry, sameKey, beq_iff_eq, hst, if_false, hrest, List.cons_append]

/-- A value is put at a text in the place of the one that has been there, or as the last entry if
there has been none. -/
theorem putEntry_cases (keys : ∀ e ∈ entries, ∃ t, e.1 = .str t) (s : String) (v : Datum) :
    (∃ before w after, entries = before ++ (.str s, w) :: after ∧
      putEntry (.str s) v entries = before ++ (.str s, v) :: after) ∨
    (Datum.str s ∉ entries.map Prod.fst ∧
      putEntry (.str s) v entries = entries ++ [(.str s, v)]) := by
  by_cases hmem : Datum.str s ∈ entries.map Prod.fst
  · refine .inl ?_
    induction entries with
    | nil => cases hmem
    | cons e rest ih =>
      obtain ⟨k, u⟩ := e
      obtain ⟨t, rfl⟩ : ∃ t, k = .str t := keys (k, u) List.mem_cons_self
      by_cases hst : t = s
      · exact ⟨[], u, rest, by rw [hst]; rfl, by simp [putEntry, sameKey, hst]⟩
      · have hrest : Datum.str s ∈ rest.map Prod.fst :=
          (List.mem_cons.1 hmem).resolve_left fun h => hst (Datum.str.inj h).symm
        obtain ⟨before, w, after, rfl, hput⟩ :=
          ih (fun e he => keys e (List.mem_cons_of_mem _ he)) hrest
        exact ⟨(.str t, u) :: before, w, after, rfl, by simp [putEntry, sameKey, hst, hput]⟩
  · exact .inr ⟨hmem, putEntry_of_not_mem keys hmem⟩

/-- A value that is put at a text keeps the keys, up to a new one at the end. -/
theorem keys_putEntry (keys : ∀ e ∈ entries, ∃ t, e.1 = .str t) :
    (putEntry (.str s) v entries).map Prod.fst = entries.map Prod.fst ∨
      (putEntry (.str s) v entries).map Prod.fst = entries.map Prod.fst ++ [.str s] ∧
        Datum.str s ∉ entries.map Prod.fst := by
  rcases putEntry_cases keys s v with ⟨before, w, after, rfl, hput⟩ | ⟨hn, hput⟩
  · exact .inl (by rw [hput, List.map_append, List.map_append]; rfl)
  · exact .inr ⟨by rw [hput, List.map_append]; rfl, hn⟩

/-- An entry after a value is put at a text is one of before or has that key and that value. -/
theorem mem_putEntry (keys : ∀ e ∈ entries, ∃ t, e.1 = .str t) {e : Datum × Datum}
    (he : e ∈ putEntry (.str s) v entries) : e ∈ entries ∨ e = (.str s, v) := by
  rcases putEntry_cases keys s v with ⟨before, w, after, rfl, hput⟩ | ⟨-, hput⟩
  · rw [hput, List.mem_append, List.mem_cons] at he
    rw [List.mem_append, List.mem_cons]
    tauto
  · rw [hput, List.mem_append, List.mem_singleton] at he
    exact he

/-- A value that is put at a text is there. -/
theorem mem_putEntry_self (keys : ∀ e ∈ entries, ∃ t, e.1 = .str t) (s : String) (v : Datum) :
    (.str s, v) ∈ putEntry (.str s) v entries := by
  rcases putEntry_cases keys s v with ⟨before, w, after, rfl, hput⟩ | ⟨-, hput⟩
  · exact hput ▸ List.mem_append_right _ List.mem_cons_self
  · exact hput ▸ List.mem_append_right _ List.mem_cons_self

/-- A value that is put at a text leaves the entries at other texts. -/
theorem mem_putEntry_of_ne (keys : ∀ e ∈ entries, ∃ t, e.1 = .str t) {t : String} (hst : t ≠ s)
    {w : Datum} (h : (.str t, w) ∈ entries) : (.str t, w) ∈ putEntry (.str s) v entries := by
  rcases putEntry_cases keys s v with ⟨before, u, after, rfl, hput⟩ | ⟨-, hput⟩
  · have hne : (Datum.str t, w) ≠ (.str s, u) := fun he =>
      hst (Datum.str.inj (Prod.mk.inj he).1)
    rw [List.mem_append, List.mem_cons] at h
    rw [hput, List.mem_append, List.mem_cons]
    exact h.imp_right fun h => .inr (h.resolve_left hne)
  · exact hput ▸ List.mem_append_left _ h

end

/-- What a dictionary that is made of entries consists of: texts as keys, each once, and values of
these entries. -/
structure TextKeyed (p : Datum → Prop) (entries : List (Datum × Datum)) : Prop where
  keys : ∀ e ∈ entries, ∃ s, e.1 = .str s
  distinct : (entries.map Prod.fst).Nodup
  values : ∀ e ∈ entries, p e.2

/-- No entries have texts as keys, each once. -/
theorem TextKeyed.nil {p : Datum → Prop} : TextKeyed p [] := ⟨by simp, .nil, by simp⟩

/-- Putting a value at a text keeps texts as keys, each once. -/
theorem TextKeyed.putEntry {p : Datum → Prop} {entries : List (Datum × Datum)}
    (h : TextKeyed p entries) (s : String) {v : Datum} (hv : p v) :
    TextKeyed p (putEntry (.str s) v entries) where
  keys e he := by
    rcases mem_putEntry h.keys he with he | rfl
    · exact h.keys e he
    · exact ⟨s, rfl⟩
  distinct := by
    rcases keys_putEntry (s := s) (v := v) h.keys with hk | ⟨hk, hn⟩
    · exact hk ▸ h.distinct
    · rw [hk, List.nodup_append]
      refine ⟨h.distinct, List.nodup_singleton _, fun a ha b hb hab => hn ?_⟩
      rwa [hab, List.mem_singleton.1 hb] at ha
  values e he := by
    rcases mem_putEntry h.keys he with he | rfl
    · exact h.values e he
    · exact hv

/-- Putting values at texts, one after the other, keeps texts as keys, each once. -/
theorem TextKeyed.putEntries {p : Datum → Prop} {acc entries : List (Datum × Datum)}
    (h : TextKeyed p acc) (keys : ∀ e ∈ entries, ∃ s, e.1 = .str s)
    (values : ∀ e ∈ entries, p e.2) :
    TextKeyed p (entries.foldl (fun acc (k, v) => Datum.putEntry k v acc) acc) := by
  induction entries generalizing acc with
  | nil => exact h
  | cons e rest ih =>
    obtain ⟨k, v⟩ := e
    obtain ⟨s, rfl⟩ : ∃ s, k = .str s := keys (k, v) List.mem_cons_self
    exact ih (h.putEntry s (values _ List.mem_cons_self))
      (fun e he => keys e (List.mem_cons_of_mem _ he))
      fun e he => values e (List.mem_cons_of_mem _ he)

/-- A dictionary that is made of entries has texts as keys, each once, and values of theirs. -/
theorem ofEntries_textKeyed {p : Datum → Prop} {entries : List (Datum × Datum)}
    (keys : ∀ e ∈ entries, ∃ s, e.1 = .str s) (values : ∀ e ∈ entries, p e.2) :
    ∃ fs, ofEntries entries = .dict fs ∧ TextKeyed p fs :=
  ⟨_, rfl, TextKeyed.nil.putEntries keys values⟩

/-- A dictionary that is made of entries with texts as keys and plain values is plain. -/
theorem ofEntries_plain {entries : List (Datum × Datum)} (keys : ∀ e ∈ entries, ∃ s, e.1 = .str s)
    (values : ∀ e ∈ entries, e.2.Plain) : (ofEntries entries).Plain := by
  obtain ⟨fs, hfs, h⟩ := ofEntries_textKeyed keys values
  exact hfs ▸ .dict h.keys h.distinct h.values

/-- A dictionary that is made of entries nests at most one level more than their values. -/
theorem depth_ofEntries_le {n : Nat} {entries : List (Datum × Datum)}
    (keys : ∀ e ∈ entries, ∃ s, e.1 = .str s) (values : ∀ e ∈ entries, e.2.depth ≤ n) :
    (ofEntries entries).depth ≤ n + 1 := by
  obtain ⟨fs, hfs, h⟩ := ofEntries_textKeyed (p := fun v => v.depth ≤ n) keys values
  rw [hfs, depth_dict_le_iff]
  exact h.values

/-- Putting values at texts, one after the other, adds these texts to the keys and no others. -/
theorem mem_keys_putEntries {acc entries : List (Datum × Datum)} {key : Datum}
    (hacc : TextKeyed (fun _ => True) acc) (keys : ∀ e ∈ entries, ∃ s, e.1 = .str s) :
    key ∈ (entries.foldl (fun acc (k, v) => Datum.putEntry k v acc) acc).map Prod.fst ↔
      key ∈ acc.map Prod.fst ∨ key ∈ entries.map Prod.fst := by
  induction entries generalizing acc with
  | nil => simp
  | cons e rest ih =>
    obtain ⟨k, v⟩ := e
    obtain ⟨s, rfl⟩ : ∃ s, k = .str s := keys (k, v) List.mem_cons_self
    have hput : key ∈ (Datum.putEntry (.str s) v acc).map Prod.fst ↔
        key ∈ acc.map Prod.fst ∨ key = .str s := by
      have hself := List.mem_map_of_mem (f := Prod.fst) (mem_putEntry_self hacc.keys s v)
      rcases keys_putEntry (s := s) (v := v) hacc.keys with hk | ⟨hk, -⟩
      · rw [hk] at hself ⊢
        exact ⟨.inl, fun h => h.elim id fun h => h ▸ hself⟩
      · rw [hk, List.mem_append, List.mem_singleton]
    have hrest := ih (hacc.putEntry s (v := v) trivial) fun e he =>
      keys e (List.mem_cons_of_mem _ he)
    rw [List.map_cons, List.mem_cons, ← or_assoc, ← hput]
    exact hrest

/-- The keys of a dictionary that is made of entries are those of the entries. -/
theorem mem_keys_ofEntries {entries fs : List (Datum × Datum)} {key : Datum}
    (keys : ∀ e ∈ entries, ∃ s, e.1 = .str s) (h : ofEntries entries = .dict fs) :
    key ∈ fs.map Prod.fst ↔ key ∈ entries.map Prod.fst := by
  cases h
  rw [mem_keys_putEntries .nil keys, List.map_nil]
  simp

/-- Values that are put at other texts leave the entry at a text. -/
theorem mem_putEntries_of_not_mem {acc entries : List (Datum × Datum)}
    (hacc : TextKeyed (fun _ => True) acc) (keys : ∀ e ∈ entries, ∃ t, e.1 = .str t) {s : String}
    {v : Datum} (h : (.str s, v) ∈ acc) (hs : Datum.str s ∉ entries.map Prod.fst) :
    (.str s, v) ∈ entries.foldl (fun acc (k, v) => Datum.putEntry k v acc) acc := by
  induction entries generalizing acc with
  | nil => exact h
  | cons e rest ih =>
    obtain ⟨k, w⟩ := e
    obtain ⟨t, rfl⟩ : ∃ t, k = .str t := keys (k, w) List.mem_cons_self
    rw [List.map_cons, List.mem_cons, not_or] at hs
    exact ih (hacc.putEntry t trivial) (fun e he => keys e (List.mem_cons_of_mem _ he))
      (mem_putEntry_of_ne hacc.keys (fun hst => hs.1 (by rw [hst])) h) hs.2

/-- The last of the entries at a text is the one in the dictionary that is made of them. -/
theorem mem_ofEntries {before after : List (Datum × Datum)} {s : String} {v : Datum}
    (keys : ∀ e ∈ before ++ (.str s, v) :: after, ∃ t, e.1 = .str t)
    (last : Datum.str s ∉ after.map Prod.fst) :
    ∃ fs, ofEntries (before ++ (.str s, v) :: after) = .dict fs ∧ (.str s, v) ∈ fs := by
  rw [List.forall_mem_append, List.forall_mem_cons] at keys
  obtain ⟨hbefore, -, hafter⟩ := keys
  have hacc := TextKeyed.nil.putEntries (p := fun _ => True) hbefore fun _ _ => trivial
  refine ⟨_, rfl, ?_⟩
  rw [List.foldl_append, List.foldl_cons]
  exact mem_putEntries_of_not_mem (hacc.putEntry s trivial) hafter
    (mem_putEntry_self hacc.keys s v) last

/-- A dictionary that is made of entries with distinct texts as keys has these entries. -/
theorem ofEntries_of_nodup {entries : List (Datum × Datum)}
    (keys : ∀ e ∈ entries, ∃ s, e.1 = .str s) (distinct : (entries.map Prod.fst).Nodup) :
    ofEntries entries = .dict entries := by
  suffices h : ∀ done, (∀ e ∈ done, ∃ s, e.1 = Datum.str s) →
      ((done ++ entries).map Prod.fst).Nodup →
      entries.foldl (fun acc (k, v) => Datum.putEntry k v acc) done = done ++ entries by
    exact congrArg Datum.dict (h [] (by simp) distinct)
  clear distinct
  induction entries with
  | nil => exact fun done _ _ => (List.append_nil done).symm
  | cons e rest ih =>
    intro done hdone hnd
    obtain ⟨k, v⟩ := e
    obtain ⟨s, rfl⟩ : ∃ s, k = .str s := keys (k, v) List.mem_cons_self
    have hn : Datum.str s ∉ done.map Prod.fst := by
      intro hm
      rw [List.map_append, List.nodup_append] at hnd
      exact hnd.2.2 _ hm _ List.mem_cons_self rfl
    rw [List.append_cons] at hnd ⊢
    simp only [List.foldl_cons, putEntry_of_not_mem hdone hn]
    refine ih (fun e he => keys e (List.mem_cons_of_mem _ he)) _ (fun e he => ?_) hnd
    rcases List.mem_append.1 he with he | he
    · exact hdone e he
    · exact ⟨s, by rw [List.mem_singleton.1 he]⟩

end ScriptAgent.Datum
