import Mathlib.Data.List.Nodup
import ScriptAgent.Service.Store

/-!
# Looking up sessions

Which agent a session has after the store has changed. Adding, removing or updating a session leaves
the agents of all others.
-/

namespace ScriptAgent.Service

/-! ## Entries under names -/

section
variable {β : Type} {i k : String} {v : β} {l : List (String × β)}

theorem lookup_cons_eq (i k : String) (v : β) (l : List (String × β)) :
    ((k, v) :: l).lookup i = if i = k then some v else l.lookup i := by
  rw [List.lookup_cons]
  by_cases hi : i = k
  · simp [hi]
  · simp [hi, beq_false_of_ne hi]

/-- A name is one of those of entries exactly if something is found under it. -/
theorem mem_names_iff : i ∈ l.map Prod.fst ↔ ∃ v, l.lookup i = some v := by
  induction l with
  | nil => simp
  | cons e rest ih =>
    obtain ⟨k, v⟩ := e
    rw [List.map_cons, List.mem_cons, lookup_cons_eq, ih]
    by_cases hi : i = k <;> simp [hi]

theorem lookup_eq_none (missing : i ∉ l.map Prod.fst) : l.lookup i = none := by
  rw [mem_names_iff] at missing
  exact Option.eq_none_iff_forall_ne_some.2 fun v hv => missing ⟨v, hv⟩

/-- What is found under a name is the value of an entry. -/
theorem mem_of_lookup (found : l.lookup i = some v) : (i, v) ∈ l := by
  obtain ⟨before, after, rfl, -⟩ := List.lookup_eq_some_iff.1 found
  exact List.mem_append_right before List.mem_cons_self

/-- An entry that is put behind the others is found if its name is new. -/
theorem lookup_concat (new : k ∉ l.map Prod.fst) :
    (l ++ [(k, v)]).lookup i = if i = k then some v else l.lookup i := by
  induction l with
  | nil => exact lookup_cons_eq i k v []
  | cons e rest ih =>
    obtain ⟨j, u⟩ := e
    rw [List.map_cons, List.mem_cons, not_or] at new
    rw [List.cons_append, lookup_cons_eq, lookup_cons_eq, ih new.2]
    by_cases hi : i = k
    · have hij : i ≠ j := fun hij => new.1 (hi.symm.trans hij)
      rw [if_neg hij, if_pos hi, if_pos hi]
    · rw [if_neg hi, if_neg hi]

/-- The names that are left when the entries under one are removed. -/
theorem names_filter (k : String) (l : List (String × β)) :
    (l.filter (·.1 != k)).map Prod.fst = (l.map Prod.fst).filter (· != k) := by
  rw [List.filter_map]
  rfl

/-- Entries under other names stay when those under a name are removed. -/
theorem lookup_filter (k : String) (l : List (String × β)) :
    (l.filter (·.1 != k)).lookup i = if i = k then none else l.lookup i := by
  induction l with
  | nil => simp
  | cons e rest ih =>
    obtain ⟨j, u⟩ := e
    rw [List.filter_cons]
    by_cases hj : j = k
    · subst hj
      rw [if_neg (by simp), ih, lookup_cons_eq]
      split <;> rfl
    · rw [if_pos (by simpa using hj), lookup_cons_eq, ih, lookup_cons_eq]
      by_cases hi : i = k
      · have hij : i ≠ j := fun hij => hj (hij.symm.trans hi)
        rw [if_neg hij, if_pos hi, if_pos hi]
      · rw [if_neg hi, if_neg hi]

end

namespace Store

variable {s : Store} {id i : String} {a b : Agent}

/-- An agent is found exactly if the session has it, and a lock. -/
theorem find?_eq_some_iff :
    s.find? id = some a ↔ s.agents.lookup id = some a ∧ id ∈ s.locks := by
  unfold find?
  cases s.agents.lookup id with
  | none => simp
  | some b => by_cases hid : id ∈ s.locks <;> simp [hid]

/-- Where all sessions have locks, an agent is found exactly for those that are live. -/
theorem exists_find?_iff (locked : s.locks = s.ids) :
    (∃ a, s.find? id = some a) ↔ id ∈ s.ids := by
  simp only [find?_eq_some_iff, locked, exists_and_right]
  rw [ids, ← mem_names_iff, and_self]

theorem find?_eq_none_iff (locked : s.locks = s.ids) : s.find? id = none ↔ id ∉ s.ids := by
  rw [← exists_find?_iff locked, Option.eq_none_iff_forall_ne_some, not_exists]

/-! ## Changes of the store -/

/-- The agent of a session after one has been updated. -/
theorem lookup_update (s : Store) (id i : String) (b : Agent) :
    (s.update id b).agents.lookup i =
      if i = id then (s.agents.lookup i).map fun _ => b else s.agents.lookup i := by
  unfold update
  dsimp only
  induction s.agents with
  | nil => simp
  | cons e rest ih =>
    obtain ⟨j, c⟩ := e
    rw [List.map_cons, lookup_cons_eq]
    dsimp only
    by_cases hj : j = id
    · rw [if_pos hj, lookup_cons_eq, ih]
      by_cases hi : i = j
      · simp [hi, hj]
      · rw [if_neg hi, if_neg hi]
    · rw [if_neg hj, lookup_cons_eq, ih]
      by_cases hi : i = j
      · simp [hi, hj]
      · rw [if_neg hi, if_neg hi]

/-- A session that is updated has its new agent. -/
theorem find?_update_self (found : s.find? id = some a) :
    (s.update id b).find? id = some b := by
  obtain ⟨hlookup, hlock⟩ := find?_eq_some_iff.1 found
  refine find?_eq_some_iff.2 ⟨?_, hlock⟩
  rw [lookup_update, if_pos rfl, hlookup]
  rfl

/-- An update leaves the agents of other sessions. -/
theorem find?_update_ne (hi : i ≠ id) : (s.update id b).find? i = s.find? i := by
  rw [find?, find?, lookup_update, if_neg hi]
  rfl

/-- A session that is added has its agent. -/
theorem find?_add_self (new : id ∉ s.ids) : (s.add id a).find? id = some a := by
  refine find?_eq_some_iff.2 ⟨?_, by simp [add]⟩
  rw [add, lookup_concat new, if_pos rfl]

/-- A session that is added leaves the agents of the others. -/
theorem find?_add_ne (new : id ∉ s.ids) (hi : i ≠ id) : (s.add id a).find? i = s.find? i := by
  have hlock : (s.add id a).locks.contains i = s.locks.contains i := by
    simp [add, hi]
  rw [find?, find?, hlock, add, lookup_concat new, if_neg hi]

/-- A session that is removed leaves the agents of the others. -/
theorem find?_remove_ne (hi : i ≠ id) : (s.remove id).find? i = s.find? i := by
  have hlock : (s.remove id).locks.contains i = s.locks.contains i := by
    simp [remove, hi]
  rw [find?, find?, hlock, remove, lookup_filter, if_neg hi]

/-- A session that is removed has no agent. -/
theorem find?_remove_self (s : Store) (id : String) : (s.remove id).find? id = none := by
  rw [find?, remove, lookup_filter, if_pos rfl]

/-- The live sessions after one has been removed. -/
theorem ids_remove (s : Store) (id : String) : (s.remove id).ids = s.ids.filter (· != id) :=
  names_filter id s.agents

end Store

end ScriptAgent.Service
