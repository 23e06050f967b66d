import ScriptAgent.Proofs.Datum.Plain
import ScriptAgent.Proofs.Exchange.Image

/-!
# Writing plain values

`Holds h lo x d` says that the script value `x` of the heap `h` holds the plain value `d`: it is an
image with a table for each list and each dictionary, the keys of lists are in the range of
integers, and those of dictionaries are distinct texts. Writing a plain value never fails, and gives
what holds the value (`Exchange.encode_holds`).
-/

namespace ScriptAgent.Exchange

open Script

/-- A script value is the image of a plain value in a heap, and the tables of the image are at
addresses from `lo` on. -/
inductive Holds (h : Heap) : Address → Value → Datum → Prop where
  | none {lo : Address} : Holds h lo .nil .none
  | bool {lo : Address} (b : Bool) : Holds h lo (.bool b) (.bool b)
  | int {lo : Address} {i : Int} (fits : Num.fits i = true) :
      Holds h lo (.num (.int (Int64.ofInt i))) (.int i)
  | float {lo : Address} (x : Float) : Holds h lo (.num (.float x)) (.float x)
  | str {lo : Address} (s : String) : Holds h lo (.str (Utf8.encode s)) (.str s)
  | list {lo a : Address} {es : List (Key × Value)} {items : List Datum} (from_lo : lo ≤ a)
      (inside : a < h.tables.size) (short : items.length < listBound)
      (table : h.table a = Table.empty.setAll es)
      (keys : es.map Prod.fst = indexKeys 1 items.length)
      (values : ∀ i (he : i < es.length) (hd : i < items.length),
        Holds h (a + 1) es[i].2 items[i]) : Holds h lo (.table a) (.list items)
  | dict {lo a : Address} {es : List (Key × Value)} {entries : List (Datum × Datum)}
      (from_lo : lo ≤ a) (inside : a < h.tables.size)
      (texts : ∀ e ∈ entries, ∃ s, e.1 = .str s) (distinct : (entries.map Prod.fst).Nodup)
      (table : h.table a = Table.empty.setAll es) (keys : es.map Prod.fst = entries.map entryKey)
      (values : ∀ i (he : i < es.length) (hd : i < entries.length),
        Holds h (a + 1) es[i].2 entries[i].2) : Holds h lo (.table a) (.dict entries)

/-- Only nothing is written as nil. -/
theorem Holds.eq_nil_iff {h : Heap} {lo : Address} {x : Value} {d : Datum} (hx : Holds h lo x d) :
    x = .nil ↔ d = .none := by
  cases hx <;> simp

/-- Every list in a value holds as few items as the host's lists do. -/
def Short (d : Datum) : Prop := ∀ items, Datum.Inside (.list items) d → items.length < listBound

/-- What is in an item of a short list is short. -/
theorem Short.item {items : List Datum} (hs : Short (.list items)) {d : Datum} (hd : d ∈ items) :
    Short d := fun _ hi => hs _ (.item hd hi)

/-- What is in a value of a short dictionary is short. -/
theorem Short.value {entries : List (Datum × Datum)} (hs : Short (.dict entries))
    {e : Datum × Datum} (he : e ∈ entries) : Short e.2 := fun _ hi => hs _ (.value he hi)

/-- An image of a plain value holds the value. -/
theorem Image.holds {h : Heap} {lo : Address} {x : Value} {d : Datum} (hd : d.Plain) (hs : Short d)
    (hx : Image h lo x d) : Holds h lo x d := by
  induction hd generalizing lo x with
  | none =>
    cases hx with
    | none => exact .none
    | table _ _ parts => cases parts
  | bool b =>
    cases hx with
    | bool => exact .bool b
    | table _ _ parts => cases parts
  | int fits =>
    cases hx with
    | int => exact .int fits
    | table _ _ parts => cases parts
  | float x =>
    cases hx with
    | float => exact .float x
    | table _ _ parts => cases parts
  | str s =>
    cases hx with
    | str => exact .str s
    | table _ _ parts => cases parts
  | @list items _ ih =>
    cases hx with
    | table from_lo inside parts table keys values =>
      cases parts
      have hlen : (indexKeys 1 items.length).length = items.length := length_indexKeys 1 _
      rw [List.map_fst_zip (Nat.le_of_eq hlen)] at keys
      refine .list from_lo inside (hs _ .refl) table keys fun i he hi => ?_
      have hv := values i he (by rw [List.length_zip, hlen, Nat.min_self]; exact hi)
      rw [List.getElem_zip] at hv
      exact ih _ (List.getElem_mem hi) (hs.item (List.getElem_mem hi)) hv
  | @dict entries texts distinct _ ih =>
    cases hx with
    | table from_lo inside parts table keys values =>
      cases parts
      rw [List.map_map] at keys
      refine .dict from_lo inside texts distinct table keys fun i he hi => ?_
      have hv := values i he (by rwa [List.length_map])
      rw [List.getElem_map] at hv
      exact ih _ (List.getElem_mem hi) (hs.value (List.getElem_mem hi)) hv

/-- Scripts can hold a plain value. -/
theorem isHoldable_of_plain {d : Datum} (hd : d.Plain) : d.isHoldable = true := by
  induction hd with
  | int fits => rw [Datum.isHoldable, fits]
  | list _ ih => rw [Datum.isHoldable, Datum.areHoldable_iff]; exact ih
  | dict _ _ _ ih => rw [Datum.isHoldable, Datum.areHoldableEntries_iff]; exact ih
  | _ => rw [Datum.isHoldable]

/-- A plain value can be written in every heap, and what is written holds it. -/
theorem encode_holds {d : Datum} (hd : d.Plain) (hs : Short d) (h : Heap) :
    ∃ x h', encode h d = .ok (x, h') ∧ Holds h' h.tables.size x d := by
  have hok := isOk_encode h d
  rw [isHoldable_of_plain hd] at hok
  cases hx : encode h d with
  | error e => rw [hx] at hok; cases hok
  | ok r =>
    obtain ⟨x, h'⟩ := r
    exact ⟨x, h', rfl, (written_of_encode hx).image.holds hd hs⟩

end ScriptAgent.Exchange
