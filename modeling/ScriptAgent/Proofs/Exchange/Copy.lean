import ScriptAgent.Proofs.Datum.Same
import ScriptAgent.Proofs.Exchange.Data
import ScriptAgent.Proofs.Exchange.Decode
import ScriptAgent.Proofs.Exchange.Structured

/-!
# Copies

A value that is read and written back is a copy of the value (`Exchange.Copy`): it is alike, and a
table is copied to a new one, with new tables in it. So no change of the tables of the copy is a
change of a table that was there before.

Whatever an image leads to is made of tables of the image (`Image.le_of_leads`). That is why the
copy of a structured value is apart from the value (`Structured.copy`), although the value may have
one table in several places.
-/

namespace ScriptAgent.Exchange

open Script

/-- The value `y` of a later heap is a copy of `x`: it is alike, a table is copied to a new one, and
all tables of before stay as they are if no tables other than those of the copy are changed. -/
structure Copy (h h' : Heap) (x y : Value) : Prop where
  alike : Alike h h' x y
  table : ∀ a, x = .table a → ∃ b, y = .table b ∧ h.tables.size ≤ b
  apart : ∀ h'', h'.Keeps (fun a => ¬ Leads h' (.table a) y) h'' → h.Keeps (fun _ => True) h''

section
variable {h h' h'' : Heap} {lo b : Address} {x y : Value} {d : Datum}

/-- An image with its tables from an address on leads to no table below it. -/
theorem Image.le_of_leads (hx : Image h lo x d) (hb : Leads h (.table b) x) : lo ≤ b := by
  induction hx with
  | none | bool | int | float | str | bytes | object =>
    exact absurd (hb.eq_of_not_table nofun) nofun
  | choice _ ih => exact ih hb
  | @table lo a es d ps from_lo _ parts table keys _ ih =>
    cases hb with
    | refl => exact from_lo
    | @key _ k there next =>
      rw [table] at there
      have hk := isData_key_of_parts? parts (keys ▸ Table.mem_keys_of_get_setAll there)
      exact absurd (next.eq_of_not_table hk.2).symm (hk.2 b)
    | @value _ k there next =>
      rw [table] at there next
      obtain ⟨i, hi, hentry⟩ := List.getElem_of_mem (Table.mem_of_get_setAll there)
      have hlt : i < ps.length := by
        rwa [length_of_keys keys, List.length_map] at hi
      exact Nat.le_trans from_lo (Nat.le_of_succ_le (ih i hi hlt (hentry.symm ▸ next)))

/-- What is written is made of new tables, so no change of these is a change of one of before. -/
theorem Written.apart (hw : Written h d y h')
    (hk : h'.Keeps (fun a => ¬ Leads h' (.table a) y) h'') : h.Keeps (fun _ => True) h'' := by
  have outside : ∀ a < h.tables.size, ¬ Leads h' (.table a) y := fun a ha hleads =>
    Nat.not_le.2 ha (hw.image.le_of_leads hleads)
  have below : h.Keeps (· < h.tables.size) h'' :=
    (hw.keeps.mono fun _ _ => trivial).trans (hk.mono outside)
  exact ⟨below.size, fun a ha _ => below.table a ha ha⟩

/-- What a value denotes can be written, and is written as a copy of the value. -/
theorem Denotes.copy (hx : Denotes h x d) (hd : d.Plain) :
    ∃ y h', encode h d = .ok (y, h') ∧ Copy h h' x y := by
  obtain ⟨y, h', run, holds⟩ := encode_holds hd (hx.short hd.same_self) h
  have hw := written_of_encode run
  have alike := hx.alike hd.same_self holds
  refine ⟨y, h', run, alike, ?_, fun _ hk => hw.apart hk⟩
  rintro a rfl
  cases alike with
  | basic hv => exact absurd rfl (hv.ne_table a)
  | @table _ b => exact ⟨b, rfl, hw.image.le_of_leads .refl⟩

/-- A tree of at most `maxDepth` levels can be written back after it has been read, in whichever
order the entries of tables are enumerated, and is written as a copy. -/
theorem Structured.copy (hx : Structured h maxDepth x) (e : Enumeration) :
    ∃ y h', encode h (decodeBy e h x) = .ok (y, h') ∧ Copy h h' x y :=
  (denotes_decodeBy e hx).copy (decodeBy_plain e h x)

end

end ScriptAgent.Exchange
