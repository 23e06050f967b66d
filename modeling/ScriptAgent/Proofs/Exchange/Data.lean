import ScriptAgent.Proofs.Exchange.Image

/-!
# What arrives as data

A value of the host arrives as data if all that a script finds in its image is nothing, a boolean, a
number, a string or a table (`Leads`, `IsData`). This is so unless an object shows in the value
(`Image.isData_iff`): an object arrives as itself, and shows unless a later entry of its dictionary
is written at the same key.
-/

namespace ScriptAgent.Exchange

open Script

/-- A value is data of scripts: nothing, a boolean, a number, a string or a table. -/
def IsData (v : Value) : Prop := v.typeName ∈ ["nil", "boolean", "number", "string", "table"]

instance (v : Value) : Decidable (IsData v) := inferInstanceAs (Decidable (_ ∈ _))

/-- A value leads to itself, and a table to what its keys and values lead to. -/
inductive Leads (h : Heap) (u : Value) : Value → Prop where
  | refl : Leads h u u
  | key {a : Address} {k : Key} (there : (h.table a).get k ≠ .nil) (next : Leads h u k.value) :
      Leads h u (.table a)
  | value {a : Address} {k : Key} (there : (h.table a).get k ≠ .nil)
      (next : Leads h u ((h.table a).get k)) : Leads h u (.table a)

/-- What shows in a value that is written: the value itself, and what shows in what it stands for or
in the last of its parts at a key. -/
inductive Shows (e : Datum) : Datum → Prop where
  | refl : Shows e e
  | stands {type member : String} {d : Datum} (next : Shows e d) : Shows e (.choice type member d)
  | part {d f : Datum} {k : Key} {before after : List (Key × Datum)}
      (parts : parts? d = some (before ++ (k, f) :: after)) (last : k ∉ after.map Prod.fst)
      (next : Shows e f) : Shows e d

section
variable {h : Heap} {lo a : Address} {x u v : Value} {d f : Datum} {k : Key}
  {es before after : List (Key × Value)} {ps : List (Key × Datum)}

/-- What is no table leads to itself only. -/
theorem Leads.eq_of_not_table (hu : Leads h u x) (hx : ∀ a, x ≠ .table a) : u = x := by
  cases hu with
  | refl => rfl
  | key | value => exact absurd rfl (hx _)

/-- What shows in another value that has parts shows in one of them. -/
theorem Shows.in_part {e : Datum} (hs : Shows e d) (hps : parts? d = some ps) (hne : d ≠ e) :
    ∃ q ∈ ps, Shows e q.2 := by
  cases hs with
  | refl => exact absurd rfl hne
  | stands => cases hps
  | part parts _ next =>
    cases parts.symm.trans hps
    exact ⟨_, List.mem_append_right _ List.mem_cons_self, next⟩

/-- The parts of a value are written at integers and strings. -/
theorem isData_key_of_parts? (hps : parts? d = some ps) (hk : k ∈ ps.map Prod.fst) :
    IsData k.value ∧ ∀ a, k.value ≠ .table a := by
  have hkeys : (∃ i, k = .int i) ∨ ∃ s, k = .str s := by
    obtain ⟨q, hq, rfl⟩ := List.mem_map.1 hk
    cases d with
    | list | tuple | set | frozenset | range =>
      cases hps
      obtain ⟨i, -, hi⟩ := List.mem_map.1 (List.of_mem_zip hq).1
      exact .inl ⟨_, hi.symm⟩
    | dict | model | record =>
      cases hps
      obtain ⟨e, -, rfl⟩ := List.mem_map.1 hq
      exact .inr ⟨_, rfl⟩
    | _ => cases hps
  rcases hkeys with ⟨i, rfl⟩ | ⟨s, rfl⟩
  · exact ⟨by simp [IsData, Key.value, Value.typeName], nofun⟩
  · exact ⟨by simp [IsData, Key.value, Value.typeName], nofun⟩

/-- Entries with the same keys split at the same places. -/
theorem split_of_keys {α β : Type} {es : List (Key × α)} {fs : List (Key × β)}
    (keys : es.map Prod.fst = fs.map Prod.fst) {before after : List (Key × α)} {x : α}
    (hes : es = before ++ (k, x) :: after) :
    ∃ before' y after', fs = before' ++ (k, y) :: after' ∧ before'.length = before.length ∧
      after'.map Prod.fst = after.map Prod.fst := by
  rw [hes, List.map_append, List.map_cons] at keys
  obtain ⟨before', rest, rfl, hbefore, hrest⟩ := List.map_eq_append_iff.1 keys.symm
  obtain ⟨⟨l, y⟩, after', rfl, hl, hafter⟩ := List.map_eq_cons_iff.1 hrest
  have hlen := congrArg List.length hbefore
  rw [List.length_map, List.length_map] at hlen
  cases hl
  exact ⟨before', y, after', rfl, hlen, hafter⟩

/-- Of the entries at a key, one is the last. -/
theorem exists_last_of_mem {α : Type} {es : List (Key × α)} (hk : k ∈ es.map Prod.fst) :
    ∃ before x after, es = before ++ (k, x) :: after ∧ k ∉ after.map Prod.fst := by
  obtain ⟨e, he, hek⟩ := List.mem_map.1 hk
  have hex : ∃ e ∈ es, e.1 = k := ⟨e, he, hek⟩
  obtain ⟨before, ⟨l, x⟩, after, hes, rfl, last⟩ := exists_last hex
  refine ⟨before, x, after, hes, fun hmem => ?_⟩
  obtain ⟨f, hf, hfk⟩ := List.mem_map.1 hmem
  exact last f hf hfk

/-- The entry of an image and the part of the value at the same place belong together. -/
theorem image_of_split {f : Datum} {before' after' : List (Key × Datum)}
    (values : ∀ i (he : i < es.length) (hp : i < ps.length), Image h lo es[i].2 ps[i].2)
    (hes : es = before ++ (k, v) :: after) (hps : ps = before' ++ (k, f) :: after')
    (hlen : before'.length = before.length) : Image h lo v f := by
  subst hes hps
  have hv := values before.length (by simp) (by simp [hlen])
  rwa [List.getElem_of_append rfl rfl, List.getElem_of_append rfl hlen] at hv

/-- An object that shows in a value is found in its image. -/
theorem Image.leads_object {type text : String} (hx : Image h lo x d)
    (hd : Shows (.object type text) d) : Leads h (.foreign text) x := by
  induction hd generalizing lo x with
  | refl =>
    cases hx with
    | object => exact .refl
    | table _ _ parts => cases parts
  | stands _ ih =>
    cases hx with
    | choice hx => exact ih hx
    | table _ _ parts => cases parts
  | @part d f k before after parts last _ ih =>
    cases hx with
    | @table _ a es _ ps _ _ parts' table keys values =>
      cases parts.symm.trans parts'
      obtain ⟨before', v, after', hes, hlen, hafter⟩ := split_of_keys keys.symm rfl
      have hv := ih (image_of_split values hes rfl hlen.symm)
      have hget : (h.table a).get k = v := by
        rw [table, hes, Table.get_setAll_last (hafter ▸ last)]
      refine .value (k := k) ?_ (hget ▸ hv)
      rw [hget]
      rintro rfl
      exact absurd (hv.eq_of_not_table nofun) nofun
    | _ => cases parts

/-- What is found in the image of a value in which no object shows is data. -/
theorem Image.isData (hx : Image h lo x d) (hd : ∀ type text, ¬ Shows (.object type text) d)
    (hu : Leads h u x) : IsData u := by
  induction hx with
  | none | bool | int | float | str | bytes =>
    rw [hu.eq_of_not_table nofun]
    simp [IsData, Value.int, Value.typeName]
  | object type text => exact absurd .refl (hd type text)
  | choice _ ih => exact ih (fun type text hs => hd type text (.stands hs)) hu
  | @table _ a es d ps _ _ parts table keys values ih =>
    cases hu with
    | refl => simp [IsData, Value.typeName]
    | @key _ k there next =>
      rw [table] at there
      have hk := isData_key_of_parts? parts (keys ▸ Table.mem_keys_of_get_setAll there)
      rw [next.eq_of_not_table hk.2]
      exact hk.1
    | @value _ k there next =>
      rw [table] at there next
      obtain ⟨before, v, after, hes, last⟩ :=
        exists_last_of_mem (Table.mem_keys_of_get_setAll there)
      obtain ⟨before', f, after', hps, hlen, hafter⟩ := split_of_keys keys hes
      rw [hes, Table.get_setAll_last last] at next
      -- The value that is read was written last at its key, so its part shows.
      have hshows : ∀ type text, ¬ Shows (.object type text) f := fun type text hs =>
        hd type text (.part (hps ▸ parts) (hafter ▸ last) hs)
      subst hes hps
      have hv := ih before.length (by simp) (by simp [hlen])
      rw [List.getElem_of_append rfl rfl, List.getElem_of_append rfl hlen] at hv
      exact hv hshows next

/-- All that is found in the image of a value is data exactly if no object shows in the value. -/
theorem Image.isData_iff (hx : Image h lo x d) :
    (∀ u, Leads h u x → IsData u) ↔ ∀ type text, ¬ Shows (.object type text) d := by
  refine ⟨fun hdata type text hs => ?_, fun hd u => hx.isData hd⟩
  exact absurd (hdata _ (hx.leads_object hs)) (by simp [IsData, Value.typeName])

end

end ScriptAgent.Exchange
