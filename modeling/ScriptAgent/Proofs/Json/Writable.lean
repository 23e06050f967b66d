import ScriptAgent.Answer
import ScriptAgent.Proofs.Datum.Plain

/-!
# What can be written as JSON

Plain data can be written in every layout that does not ask for finite floats (`Json.write_plain`),
and so the text of an answer that is plain data exists (`Datum.answer_plain`). Members whose names
are texts can always be ordered, so a layout that sorts them refuses nothing more.
-/

namespace ScriptAgent.Json

section
variable {l : Layout}

/-- A list of texts can be written if each of its parts can. -/
theorem mapM_snd_ok {α ε β : Type} {members : List (α × Except ε β)}
    (h : ∀ m ∈ members, ∃ b, m.2 = .ok b) : ∃ bs, members.mapM Prod.snd = .ok bs := by
  induction members with
  | nil => exact ⟨[], rfl⟩
  | cons m rest ih =>
    obtain ⟨b, hb⟩ := h m List.mem_cons_self
    obtain ⟨bs, hbs⟩ := ih fun m hm => h m (List.mem_cons_of_mem _ hm)
    exact ⟨b :: bs, by rw [List.mapM_cons, hb, hbs]; rfl⟩

/-- A layout that does not ask for finite floats writes every float. -/
theorem writeFloat_ok (hl : l.finiteOnly = false) (x : Float) : ∃ cs, writeFloat l x = .ok cs := by
  unfold writeFloat
  split
  · exact ⟨_, rfl⟩
  · rw [hl]; exact ⟨_, rfl⟩

/-- Texts as names are in order or can be put into it. -/
theorem findUnordered_texts {keys : List Datum} (h : ∀ k ∈ keys, ∃ s, k = .str s) :
    findUnordered keys = none := by
  induction keys with
  | nil => rfl
  | cons k rest ih =>
    cases rest with
    | nil => rfl
    | cons k' rest =>
      obtain ⟨s, rfl⟩ := h k List.mem_cons_self
      obtain ⟨t, rfl⟩ := h k' (List.mem_cons_of_mem _ List.mem_cons_self)
      exact ih fun k hk => h k (List.mem_cons_of_mem _ hk)

/-- Members whose names are texts can be arranged, and none is lost or added. -/
theorem arrange_texts {α : Type} {members : List (Datum × α)}
    (h : ∀ m ∈ members, ∃ s, m.1 = .str s) :
    ∃ arranged, arrange l members = .ok arranged ∧ arranged.Perm members := by
  have hkeys : findUnordered (members.map Prod.fst) = none := by
    refine findUnordered_texts fun k hk => ?_
    obtain ⟨m, hm, rfl⟩ := List.mem_map.1 hk
    exact h m hm
  unfold arrange
  rw [hkeys]
  split
  · exact ⟨_, rfl, List.mergeSort_perm _ _⟩
  · exact ⟨_, rfl, .refl _⟩

/-- Items can be written if each of them can. -/
theorem writeItems_ok {level : Nat} {items : List Datum}
    (h : ∀ d ∈ items, ∃ cs, writeChars l level d = .ok cs) :
    ∃ parts, writeItems l level items = .ok parts := by
  induction items with
  | nil => exact ⟨[], by rw [writeItems]⟩
  | cons d rest ih =>
    obtain ⟨cs, hcs⟩ := h d List.mem_cons_self
    obtain ⟨parts, hparts⟩ := ih fun d hd => h d (List.mem_cons_of_mem _ hd)
    exact ⟨cs :: parts, by rw [writeItems, hcs, hparts]; rfl⟩

/-- The members of an object are written one by one. -/
theorem writeEntries_eq_map (level : Nat) (entries : List (Datum × Datum)) :
    writeEntries l level entries = entries.map (writeEntry l level) := by
  induction entries with
  | nil => rw [writeEntries, List.map_nil]
  | cons e rest ih => rw [writeEntries, ih, List.map_cons]

/-- Plain data can be written. -/
theorem writeChars_plain (hl : l.finiteOnly = false) {d : Datum} (hd : d.Plain) (level : Nat) :
    ∃ cs, writeChars l level d = .ok cs := by
  induction hd generalizing level with
  | none | bool | int | str => exact ⟨_, by rw [writeChars]⟩
  | float x => rw [writeChars]; exact writeFloat_ok hl x
  | list _ ih =>
    obtain ⟨parts, hparts⟩ := writeItems_ok fun d hd => ih d hd (level + 1)
    exact ⟨_, by rw [writeChars, hparts]; rfl⟩
  | @dict entries keys _ _ ih =>
    have hw : ∀ m ∈ writeEntries l (level + 1) entries,
        (∃ s, m.1 = .str s) ∧ ∃ cs, m.2 = .ok cs := by
      intro m hm
      rw [writeEntries_eq_map] at hm
      obtain ⟨⟨k, v⟩, he, rfl⟩ := List.mem_map.1 hm
      obtain ⟨s, rfl⟩ : ∃ s, k = .str s := keys _ he
      obtain ⟨cs, hcs⟩ := ih _ he (level + 1)
      exact ⟨⟨s, by rw [writeEntry]⟩, _, by simp only [writeEntry, hcs, nameOf]; rfl⟩
    obtain ⟨arranged, ha, hperm⟩ := arrange_texts (l := l) fun m hm => (hw m hm).1
    obtain ⟨parts, hparts⟩ := mapM_snd_ok fun m hm => (hw m (hperm.mem_iff.1 hm)).2
    exact ⟨_, by rw [writeChars, ha]; simp only [bind, Except.bind, hparts]; rfl⟩

/-- Plain data can be written as a text. -/
theorem write_plain (hl : l.finiteOnly = false) {d : Datum} (hd : d.Plain) :
    ∃ text, write l d = .ok text := by
  obtain ⟨cs, hcs⟩ := writeChars_plain hl hd 0
  exact ⟨_, by rw [write, hcs]; rfl⟩

end

end ScriptAgent.Json

namespace ScriptAgent.Datum

/-- An answer that is plain data has a text. -/
theorem answer_plain {d : Datum} (hd : d.Plain) : ∃ text, d.answer = .ok text := by
  cases hd with
  | none | bool | int | str => exact ⟨_, rfl⟩
  | float x =>
    simp only [answer]
    split <;> exact ⟨_, rfl⟩
  | list h => exact Json.write_plain rfl (.list h)
  | dict keys distinct h => exact Json.write_plain rfl (.dict keys distinct h)

end ScriptAgent.Datum
