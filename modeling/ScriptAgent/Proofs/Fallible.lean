/-!
# Computations that may fail

What is known of the parts of a computation from what the whole gives. Programs that may fail are
written as sequences of steps; these equivalences take a sequence apart at its ends.
-/

namespace ScriptAgent.Fallible

variable {ε α β : Type} {x : Except ε α} {e : ε}

/-- A sequence gives what its second step gives for the value of the first. -/
theorem bind_eq_ok_iff {f : α → Except ε β} {b : β} :
    (x >>= f) = .ok b ↔ ∃ a, x = .ok a ∧ f a = .ok b := by
  cases x with
  | error e => exact ⟨nofun, fun ⟨_, h, _⟩ => nomatch h⟩
  | ok a => exact ⟨fun h => ⟨a, rfl, h⟩, by rintro ⟨_, h, h'⟩; cases h; exact h'⟩

/-- A sequence fails where its first step fails or its second one does. -/
theorem bind_eq_error_iff {f : α → Except ε β} :
    (x >>= f) = .error e ↔ x = .error e ∨ ∃ a, x = .ok a ∧ f a = .error e := by
  cases x with
  | error e' => exact ⟨fun h => .inl (by cases h; rfl), by rintro (h | ⟨_, h, _⟩) <;> cases h; rfl⟩
  | ok a => exact ⟨fun h => .inr ⟨a, rfl, h⟩, by rintro (h | ⟨_, h, h'⟩) <;> cases h; exact h'⟩

/-- A value that is taken further fails where it fails. -/
theorem map_eq_error_iff {f : α → β} : x.map f = .error e ↔ x = .error e := by
  cases x with
  | error e' => exact Except.error.injEq (α := β) e' e ▸ Except.error.injEq (α := α) e' e ▸ Iff.rfl
  | ok a => exact iff_of_false nofun nofun

end ScriptAgent.Fallible
