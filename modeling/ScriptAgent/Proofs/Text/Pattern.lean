import ScriptAgent.Text.Pattern
import Mathlib.Data.List.TakeWhile
import Mathlib.Data.Nat.Find

/-!
# What patterns match

A pattern is matched with backtracking. Each piece has the meaning that its order of trying gives
it: white space ends anywhere in the white space at the beginning (`capture?_blanks_eq_some`),
captured characters end at the first place where the rest of the pattern matches
(`capture?_captured_eq_some`), and a search finds the first place where the pattern does
(`search?_eq_some`). None of them fails while a choice is left (`capture?_of_blanks_eq_none`,
`capture?_of_captured_eq_none`, `search?_eq_none`).

Places where a text occurs in another one are given by numbers (`FirstAt`).
-/

namespace ScriptAgent.Text

variable {cs marker : List Char}

/-! ## Pieces -/

section
variable {α : Type} {next : List Char → Option α} {found : α}

/-- What is found after white space is found after a part of the white space at the beginning. -/
theorem blank_of_greedily (h : greedily next cs = some found) :
    ∃ n, (∀ c ∈ cs.take n, isBlank c = true) ∧ next (cs.drop n) = some found := by
  induction cs with
  | nil => exact ⟨0, nofun, h⟩
  | cons c cs ih =>
    have stay (h : next (c :: cs) = some found) :
        ∃ n, (∀ d ∈ (c :: cs).take n, isBlank d = true) ∧ next ((c :: cs).drop n) = some found :=
      ⟨0, nofun, h⟩
    rw [greedily] at h
    split at h
    · next blank =>
      split at h
      · next rest =>
        cases h
        obtain ⟨n, hn, hnext⟩ := ih rest
        exact ⟨n + 1, by simpa using ⟨blank, hn⟩, hnext⟩
      · exact stay h
    · exact stay h

/-- Nothing is found after white space only if nothing is found without it. -/
theorem next_of_greedily (h : greedily next cs = none) : next cs = none := by
  cases cs with
  | nil => exact h
  | cons c cs =>
    rw [greedily] at h
    split at h
    · split at h
      · cases h
      · exact h
    · exact h

end

section
variable {next : List Char → Option (List Char)} {found : List Char}

/-- Captured characters end where the rest is found first. -/
theorem lazily_eq_some (h : lazily next cs = some found) :
    ∃ n rest, next (cs.drop n) = some rest ∧ found = cs.take n ++ rest ∧
      ∀ j < n, next (cs.drop j) = none := by
  induction cs generalizing found with
  | nil => exact ⟨0, found, h, rfl, nofun⟩
  | cons c cs ih =>
    rw [lazily] at h
    split at h
    · next here =>
      cases h
      exact ⟨0, _, here, rfl, nofun⟩
    · next away =>
      obtain ⟨later, hlater, rfl⟩ := Option.map_eq_some_iff.1 h
      obtain ⟨n, rest, hrest, rfl, hearlier⟩ := ih hlater
      refine ⟨n + 1, rest, hrest, rfl, fun j hj => ?_⟩
      cases j with
      | zero => exact away
      | succ j => exact hearlier j (Nat.lt_of_succ_lt_succ hj)

/-- Nothing is found after captured characters only if nothing is found anywhere. -/
theorem lazily_eq_none (h : lazily next cs = none) (n : Nat) : next (cs.drop n) = none := by
  induction cs generalizing n with
  | nil => rw [List.drop_nil]; exact h
  | cons c cs ih =>
    rw [lazily] at h
    split at h
    · cases h
    · next away =>
      cases n with
      | zero => exact away
      | succ n => exact ih (Option.map_eq_none_iff.1 h) n

end

section
variable {pattern : List Piece} {code : List Char}

/-- Characters of a pattern are matched by themselves. -/
@[simp] theorem capture?_text_append :
    capture? (.text marker :: pattern) (marker ++ cs) = capture? pattern cs := by
  simp [capture?, afterBeginning?_eq_some.2 rfl]

/-- Characters of a pattern are matched by nothing else. -/
theorem capture?_text_eq_some (h : capture? (.text marker :: pattern) cs = some code) :
    ∃ rest, cs = marker ++ rest ∧ capture? pattern rest = some code := by
  obtain ⟨rest, hrest, h⟩ := Option.bind_eq_some_iff.1 h
  exact ⟨rest, afterBeginning?_eq_some.1 hrest, h⟩

/-- White space of a pattern ends anywhere in the white space at the beginning. -/
theorem capture?_blanks_eq_some (h : capture? (.blanks :: pattern) cs = some code) :
    ∃ n, (∀ c ∈ cs.take n, isBlank c = true) ∧ capture? pattern (cs.drop n) = some code :=
  blank_of_greedily h

/-- White space of a pattern can be empty. -/
theorem capture?_of_blanks_eq_none (h : capture? (.blanks :: pattern) cs = none) :
    capture? pattern cs = none :=
  next_of_greedily h

/-- What is captured ends where the rest of the pattern matches first. -/
theorem capture?_captured_eq_some (h : capture? (.captured :: pattern) cs = some code) :
    ∃ n rest, capture? pattern (cs.drop n) = some rest ∧ code = cs.take n ++ rest ∧
      ∀ j < n, capture? pattern (cs.drop j) = none :=
  lazily_eq_some h

/-- What is captured can end anywhere. -/
theorem capture?_of_captured_eq_none (h : capture? (.captured :: pattern) cs = none) (n : Nat) :
    capture? pattern (cs.drop n) = none :=
  lazily_eq_none h n

/-- A search finds what is captured at the first place where the pattern matches. -/
theorem search?_eq_some (h : search? pattern cs = some code) :
    ∃ i, capture? pattern (cs.drop i) = some code ∧
      ∀ j < i, capture? pattern (cs.drop j) = none := by
  induction cs with
  | nil => exact ⟨0, h, nofun⟩
  | cons c cs ih =>
    rw [search?] at h
    split at h
    · next here =>
      cases h
      exact ⟨0, here, nofun⟩
    · next away =>
      obtain ⟨i, hi, hearlier⟩ := ih h
      refine ⟨i + 1, hi, fun j hj => ?_⟩
      cases j with
      | zero => exact away
      | succ j => exact hearlier j (Nat.lt_of_succ_lt_succ hj)

/-- A search fails only if the pattern matches nowhere. -/
theorem search?_eq_none (h : search? pattern cs = none) (i : Nat) :
    capture? pattern (cs.drop i) = none := by
  induction cs generalizing i with
  | nil => rw [List.drop_nil]; exact h
  | cons c cs ih =>
    rw [search?] at h
    split at h
    · cases h
    · next away =>
      cases i with
      | zero => exact away
      | succ i => exact ih h i

end

/-! ## Places -/

/-- The first place at or after another one where a text occurs. -/
structure FirstAt (marker cs : List Char) (start i : Nat) : Prop where
  from_start : start ≤ i
  here : marker <+: cs.drop i
  first : ∀ j, start ≤ j → j < i → ¬ marker <+: cs.drop j

namespace FirstAt

variable {start i j : Nat}

/-- There is one first place. -/
theorem unique (hi : FirstAt marker cs start i) (hj : FirstAt marker cs start j) : i = j := by
  rcases Nat.lt_trichotomy i j with h | h | h
  · exact absurd hi.here (hj.first i hi.from_start h)
  · exact h
  · exact absurd hj.here (hi.first j hj.from_start h)

/-- The place is inside the text. -/
theorem add_length_le (h : FirstAt marker cs start i) (nonempty : marker ≠ []) :
    i + marker.length ≤ cs.length := by
  have := h.here.length_le
  have := List.length_pos_iff.2 nonempty
  rw [List.length_drop] at *
  omega

/-- A first place is that of what begins earlier, after what comes before. -/
theorem drop_iff (n : Nat) :
    FirstAt marker (cs.drop n) start i ↔ FirstAt marker cs (n + start) (n + i) := by
  constructor <;> intro h
  · refine ⟨Nat.add_le_add_left h.from_start n, by simpa using h.here, fun j hstart hj => ?_⟩
    have := h.first (j - n) (by omega) (by omega)
    rwa [List.drop_drop, Nat.add_sub_cancel' (by omega)] at this
  · refine ⟨by have := h.from_start; omega, by simpa using h.here, fun j hstart hj => ?_⟩
    rw [List.drop_drop]
    exact h.first (n + j) (by omega) (by omega)

/-- A first place does not depend on what comes after it. -/
theorem append {before after after' : List Char} (h : FirstAt marker (before ++ after) start i)
    (inside : i + marker.length ≤ before.length) : FirstAt marker (before ++ after') start i := by
  have same (x : List Char) {p : Nat} (hp : p + marker.length ≤ before.length) :
      marker <+: (before ++ x).drop p ↔ marker <+: before.drop p := by
    rw [List.drop_append_of_le_length (by omega)]
    refine ⟨fun h => List.prefix_of_prefix_length_le h (List.prefix_append _ _) ?_,
      fun h => h.trans (List.prefix_append _ _)⟩
    rw [List.length_drop]
    omega
  refine ⟨h.from_start, ?_, fun j hstart hj => ?_⟩
  · exact (same _ inside).2 ((same _ inside).1 h.here)
  · have := h.first j hstart hj
    rwa [same _ (by omega)] at this ⊢

end FirstAt

/-! ## Stripping -/

/-- White space at both ends does not matter for what is left without it. -/
theorem stripChars_append {before after : List Char} (hbefore : ∀ c ∈ before, isBlank c = true)
    (hafter : ∀ c ∈ after, isBlank c = true) :
    stripChars (before ++ cs ++ after) = stripChars cs := by
  have left : stripLeft (before ++ cs ++ after) = stripLeft (cs ++ after) := by
    rw [List.append_assoc, stripLeft, stripLeft, List.dropWhile_append_of_pos hbefore]
  have right (x : List Char) : stripRight (x ++ after) = stripRight x := by
    rw [stripRight, List.reverse_append, List.dropWhile_append_of_pos fun c hc =>
      hafter c (List.mem_reverse.1 hc), stripRight]
  rw [stripChars, left, stripChars, stripLeft, List.dropWhile_append]
  split
  · next hblank =>
    rw [stripLeft, List.isEmpty_iff.1 hblank, List.dropWhile_eq_nil_iff.2 hafter]
  · exact right _

/-- Stripping leaves a part of a text. -/
theorem isInfix_stripChars (cs : List Char) : stripChars cs <:+: cs := by
  have right : stripRight (stripLeft cs) <+: stripLeft cs := by
    have := List.dropWhile_suffix isBlank (l := (stripLeft cs).reverse)
    simpa [stripRight] using List.reverse_prefix.2 this
  exact right.isInfix.trans (List.dropWhile_suffix _).isInfix

/-- Stripping takes nothing away but white space. -/
theorem countP_stripChars (cs : List Char) :
    (stripChars cs).countP (fun c => !isBlank c) = cs.countP fun c => !isBlank c := by
  have drop (cs : List Char) :
      (cs.dropWhile isBlank).countP (fun c => !isBlank c) = cs.countP fun c => !isBlank c := by
    induction cs with
    | nil => rfl
    | cons c cs ih =>
      rw [List.dropWhile_cons]
      split
      · next hblank => rw [ih, List.countP_cons_of_neg (by simp [hblank])]
      · rfl
  rw [stripChars, stripRight, List.countP_reverse, drop, List.countP_reverse, stripLeft, drop]

end ScriptAgent.Text
