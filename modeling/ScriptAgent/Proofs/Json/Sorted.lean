import ScriptAgent.Proofs.Datum.Same
import ScriptAgent.Proofs.Json.Writable
import ScriptAgent.Proofs.Text.Order

/-!
# Members in the order of their names

`Datum.sorted` puts the entries of every dictionary in a value into the order of their keys. Plain
data and its sorted form are the same data (`Datum.Plain.same_sorted`), the sorted form is ascending
(`Datum.Plain.ascending_sorted`), and so data is the same exactly if the sorted forms are equal
(`Datum.Plain.same_iff`).

A layout that sorts members writes a value as the layout that does not writes its sorted form
(`Json.writeChars_sorted`).
-/

namespace ScriptAgent

namespace Datum

/-! ## The sorted form -/

mutual

/-- A value with the entries of its dictionaries in the order of their keys. -/
def sorted : Datum → Datum
  | .list items => .list (sortedItems items)
  | .dict entries => .dict ((sortedEntries entries).mergeSort fun e f => Json.keyAtMost e.1 f.1)
  | d => d

/-- The sorted forms of some values. -/
def sortedItems : List Datum → List Datum
  | [] => []
  | d :: rest => sorted d :: sortedItems rest

/-- Some entries with the sorted forms of their values. -/
def sortedEntries : List (Datum × Datum) → List (Datum × Datum)
  | [] => []
  | e :: rest => sortedEntry e :: sortedEntries rest

/-- An entry with the sorted form of its value. -/
def sortedEntry : Datum × Datum → Datum × Datum
  | (key, value) => (key, sorted value)

end

/-- `sortedItems` in the natural per-element form. -/
theorem sortedItems_eq_map (items : List Datum) : sortedItems items = items.map sorted := by
  induction items with
  | nil => rw [sortedItems, List.map_nil]
  | cons d rest ih => rw [sortedItems, ih, List.map_cons]

/-- `sortedEntries` in the natural per-element form. -/
theorem sortedEntries_eq_map (entries : List (Datum × Datum)) :
    sortedEntries entries = entries.map fun e => (e.1, e.2.sorted) := by
  induction entries with
  | nil => rw [sortedEntries, List.map_nil]
  | cons e rest ih => rw [sortedEntries, ih, List.map_cons, sortedEntry]

/-- A list is sorted item by item. -/
theorem sorted_list (items : List Datum) :
    (Datum.list items).sorted = .list (items.map sorted) := by
  rw [sorted, sortedItems_eq_map]

/-! ## Fields -/

/-- A field with its name as a key. -/
def entryOf {α : Type} (field : String × α) : Datum × α := (.str field.1, field.2)

/-- Entries with texts as keys are those of fields. -/
theorem exists_fields {entries : List (Datum × Datum)} (keys : ∀ e ∈ entries, ∃ s, e.1 = .str s) :
    ∃ fields : List (String × Datum), entries = fields.map entryOf := by
  induction entries with
  | nil => exact ⟨[], rfl⟩
  | cons e rest ih =>
    obtain ⟨s, hs⟩ := keys e List.mem_cons_self
    obtain ⟨fields, rfl⟩ := ih fun e he => keys e (List.mem_cons_of_mem _ he)
    refine ⟨(s, e.2) :: fields, ?_⟩
    rw [List.map_cons, entryOf, ← hs]

section
variable {α : Type}

/-- The keys of fields are their names. -/
theorem keys_fields (fields : List (String × α)) :
    (fields.map entryOf).map Prod.fst = (fields.map Prod.fst).map str := by
  rw [List.map_map, List.map_map]
  rfl

/-- Fields are sorted by their keys as by their names. -/
theorem mergeSort_fields (fields : List (String × α)) :
    ((fields.map entryOf).mergeSort fun e f => Json.keyAtMost e.1 f.1) =
      (Text.byName fields).map entryOf :=
  (List.map_mergeSort (f := entryOf) fun _ _ _ _ => rfl).symm

end

/-- A dictionary is sorted by the names of its fields. -/
theorem sorted_fields (fields : List (String × Datum)) :
    (dict (fields.map entryOf)).sorted =
      .dict (((Text.byName fields).map fun f => (f.1, f.2.sorted)).map entryOf) := by
  have hvalues : sortedEntries (fields.map entryOf) =
      (fields.map fun f => (f.1, f.2.sorted)).map entryOf := by
    rw [sortedEntries_eq_map, List.map_map, List.map_map]
    rfl
  rw [sorted, hvalues, mergeSort_fields, Text.byName_map]

/-! ## The same data -/

namespace Plain

variable {d e : Datum}

/-- The sorted form is the same data. -/
theorem same_sorted (hd : d.Plain) : d.Same d.sorted := by
  induction hd with
  | none => exact .none
  | bool b => exact .bool b
  | int => exact .int _
  | float x => exact .float x
  | str s => exact .str s
  | list _ ih =>
    rw [sorted_list]
    refine .list (List.length_map _).symm ?_
    intro i hi hi'
    rw [List.getElem_map]
    exact ih _ (List.getElem_mem hi)
  | dict keys distinct _ ih =>
    obtain ⟨fields, rfl⟩ := exists_fields keys
    obtain ⟨hperm, -⟩ := Text.byName_sorted fields
    rw [sorted_fields]
    refine .dict ?_ ?_
    · rw [keys_fields, keys_fields, Text.names_map]
      exact ((hperm.map Prod.fst).map Datum.str).symm
    · intro k v w hv hw
      rw [List.map_map] at hw
      obtain ⟨⟨n, u⟩, hf, heq⟩ := List.mem_map.1 hw
      cases heq
      have hu : (Datum.str n, u) ∈ fields.map entryOf :=
        List.mem_map_of_mem (f := entryOf) (hperm.mem_iff.1 hf)
      -- The names are distinct, so both values belong to one field.
      have huv : (Datum.str n, u) = (.str n, v) := List.inj_on_of_nodup_map distinct hu hv rfl
      cases huv
      exact ih _ hv

/-- The sorted form is ascending. -/
theorem ascending_sorted (hd : d.Plain) : Ascending d.sorted := by
  induction hd with
  | none | bool | int | float | str =>
    intro entries hin
    cases hin
  | list _ ih =>
    intro entries hin
    rw [sorted_list] at hin
    cases hin with
    | item he hin =>
      obtain ⟨d, hd, rfl⟩ := List.mem_map.1 he
      exact ih d hd entries hin
  | dict keys distinct _ ih =>
    obtain ⟨fields, rfl⟩ := exists_fields keys
    have names : (fields.map Prod.fst).Nodup := (keys_fields fields ▸ distinct).of_map _
    intro entries hin
    rw [sorted_fields] at hin
    cases hin with
    | refl =>
      refine ⟨(Text.byName fields).map Prod.fst, ?_, Text.byName_strict names⟩
      rw [keys_fields, Text.names_map]
    | value he hin =>
      rw [List.map_map] at he
      obtain ⟨f, hf, rfl⟩ := List.mem_map.1 he
      have hmem : f ∈ fields := (Text.byName_sorted fields).1.mem_iff.1 hf
      exact ih (entryOf f) (List.mem_map_of_mem hmem) entries hin

/-- Plain values are the same data exactly if their sorted forms are equal. -/
theorem same_iff (hd : d.Plain) (he : e.Plain) : d.Same e ↔ d.sorted = e.sorted := by
  constructor
  · intro h
    have hsorted : d.sorted.Same e.sorted :=
      hd.same_sorted.symm.trans (h.trans he.same_sorted)
    exact hd.ascending_sorted.eq_of_same he.ascending_sorted hsorted
  · intro h
    exact hd.same_sorted.trans (h ▸ he.same_sorted.symm)

end Plain

end Datum

namespace Json

variable {l : Layout}

/-- A layout whose members stay in their own order. -/
def Layout.unsorted (l : Layout) : Layout := { l with sorted := false }

/-- A layout that sorts members puts those with names as keys into the order of their names. -/
theorem arrange_fields {α : Type} (hl : l.sorted = true) (fields : List (String × α)) :
    arrange l (fields.map Datum.entryOf) = .ok ((Text.byName fields).map Datum.entryOf) := by
  have hnames : findUnordered ((fields.map Datum.entryOf).map Prod.fst) = none := by
    refine findUnordered_texts ?_
    intro k hk
    rw [Datum.keys_fields] at hk
    obtain ⟨s, -, rfl⟩ := List.mem_map.1 hk
    exact ⟨s, rfl⟩
  rw [arrange, hl, if_pos rfl, hnames, ← Datum.mergeSort_fields]

/-- Items are written as others in another layout if each of them is. -/
theorem writeItems_congr {l' : Layout} {level : Nat} {items : List Datum} {g : Datum → Datum}
    (h : ∀ d ∈ items, writeChars l level d = writeChars l' level (g d)) :
    writeItems l level items = writeItems l' level (items.map g) := by
  induction items with
  | nil => rfl
  | cons d rest ih =>
    have hrest := ih fun d hd => h d (List.mem_cons_of_mem _ hd)
    rw [List.map_cons, writeItems, writeItems, h d List.mem_cons_self, hrest]

/-- A layout that sorts members writes a plain value as the layout that does not writes its sorted
form. -/
theorem writeChars_sorted (hl : l.sorted = true) {d : Datum} (hd : d.Plain) (level : Nat) :
    writeChars l level d = writeChars l.unsorted level d.sorted := by
  induction hd generalizing level with
  | none | bool | int | float | str => rfl
  | list _ ih =>
    rw [Datum.sorted_list, writeChars, writeChars, writeItems_congr fun d hd => ih d hd (level + 1)]
    rfl
  | dict keys _ _ ih =>
    obtain ⟨fields, rfl⟩ := Datum.exists_fields keys
    -- Both layouts write the same text for a member, and the keys decide about the order.
    let member (f : String × Datum) := (writeEntry l (level + 1) (Datum.entryOf f)).2
    have hwritten : writeEntries l (level + 1) (fields.map Datum.entryOf) =
        (fields.map fun f => (f.1, member f)).map Datum.entryOf := by
      rw [writeEntries_eq_map, List.map_map, List.map_map]
      refine List.map_congr_left ?_
      intro f _
      simp only [Function.comp_apply, member, Datum.entryOf, writeEntry]
    have hmembers : writeEntries l.unsorted (level + 1)
        (((Text.byName fields).map fun f => (f.1, f.2.sorted)).map Datum.entryOf) =
        ((Text.byName fields).map fun f => (f.1, member f)).map Datum.entryOf := by
      rw [writeEntries_eq_map, List.map_map, List.map_map, List.map_map]
      refine List.map_congr_left ?_
      intro f hf
      have hmem : f ∈ fields := (Text.byName_sorted fields).1.mem_iff.1 hf
      have hvalue := ih (Datum.entryOf f) (List.mem_map_of_mem hmem) (level + 1)
      simp only [Function.comp_apply, member, Datum.entryOf, writeEntry] at hvalue ⊢
      rw [hvalue]
      rfl
    rw [Datum.sorted_fields, writeChars, writeChars, hwritten, hmembers, arrange_fields hl,
      Text.byName_map]
    rfl

/-- A layout that sorts members gives a plain value the text that the layout that does not gives its
sorted form. -/
theorem write_sorted (hl : l.sorted = true) {d : Datum} (hd : d.Plain) :
    write l d = write l.unsorted d.sorted := by
  rw [write, write, writeChars_sorted hl hd]

end Json

end ScriptAgent
