import ScriptAgent.Proofs.Json.Numbers
import ScriptAgent.Proofs.Text.Lines
import ScriptAgent.Text.Numeral

/-!
# Integers and their texts

The decimal text of an integer denotes it, unless it has more digits than are converted
(`Text.integer?_toString`).
-/

namespace ScriptAgent.Text

variable {cs ds : List Char} {c : Char}

/-- Nothing is taken away from a text without white space. -/
theorem stripChars_eq_self (h : ∀ c ∈ cs, isBlank c = false) : stripChars cs = cs := by
  have hall : cs.countP (fun c => !isBlank c) = cs.length :=
    List.countP_eq_length.2 fun c hc => by rw [h c hc]; rfl
  have hlength : cs.length ≤ (stripChars cs).length := by
    rw [← hall, ← countP_stripChars]
    exact List.countP_le_length
  exact (isInfix_stripChars cs).eq_of_length_le hlength

/-! ## Digits -/

theorem isDigit_iff : Json.isDigit c = true ↔ 48 ≤ c.toNat ∧ c.toNat ≤ 57 := by
  rw [Json.isDigit, Bool.and_eq_true, decide_eq_true_eq, decide_eq_true_eq]

/-- The value of a decimal digit. -/
theorem digit?_of_isDigit (hc : Json.isDigit c = true) : digit? c = some (c.toNat - 48) := by
  obtain ⟨hlow, hhigh⟩ := isDigit_iff.1 hc
  have hfirst : (fun z => decide (z ≤ c.toNat) && decide (c.toNat < z + 10)) 48 = true := by
    simp only [Bool.and_eq_true, decide_eq_true_eq]
    omega
  have hfound : zeros.find? (fun z => z ≤ c.toNat && c.toNat < z + 10) = some 48 :=
    List.find?_cons_of_pos hfirst
  rw [digit?, hfound, Option.map_some]

/-- A decimal digit is no white space. -/
theorem isBlank_of_isDigit (hc : Json.isDigit c = true) : isBlank c = false := by
  obtain ⟨hlow, hhigh⟩ := isDigit_iff.1 hc
  refine Bool.eq_false_iff.2 fun hblank => ?_
  have hcode := toNat_mem_of_isBlank hblank
  simp only [blankCodes, List.mem_cons, List.not_mem_nil, or_false] at hcode
  omega

/-- A decimal digit is none of the characters beside digits. -/
theorem ne_of_isDigit (hc : Json.isDigit c = true) {d : Char} (hd : Json.isDigit d = false) :
    c ≠ d := by
  rintro rfl
  cases hc.symm.trans hd

/-- Digits are read as what they denote. -/
theorem readDigits_eq (hds : ∀ c ∈ ds, Json.isDigit c = true) (n : Nat) :
    readDigits n ds = some (Nat.ofDigitChars 10 ds n) := by
  induction ds generalizing n with
  | nil => rfl
  | cons c ds ih =>
    obtain ⟨hc, hrest⟩ := List.forall_mem_cons.1 hds
    have hread : readDigits n (c :: ds) = (digit? c).bind fun d => readDigits (n * 10 + d) ds := by
      rw [readDigits]
      rintro _ _ rfl -
      cases hc
    rw [hread, digit?_of_isDigit hc, Option.bind_some, ih hrest, Nat.ofDigitChars_cons,
      Nat.mul_comm]
    rfl

/-- A number is read from its digits if these are not too many. -/
theorem natural?_toDigits (n : Nat) : natural? (Nat.toDigits 10 n) =
    if (Nat.toDigits 10 n).length ≤ maxDigits then some n else none := by
  have hds : ∀ c ∈ Nat.toDigits 10 n, Json.isDigit c = true := fun c hc =>
    Json.isDigit_of_mem_toDigits hc
  have hcount : (Nat.toDigits 10 n).countP (· != '_') = (Nat.toDigits 10 n).length :=
    List.countP_eq_length.2 fun c hc => bne_iff_ne.2 (ne_of_isDigit (hds c hc) rfl)
  have hvalue : Nat.ofDigitChars 10 (Nat.toDigits 10 n) 0 = n := Nat.ofDigitChars_ten_toDigits
  unfold natural?
  rw [hcount]
  by_cases hmany : (Nat.toDigits 10 n).length > maxDigits
  · rw [if_pos hmany, if_neg (by omega)]
  · rw [if_neg hmany, if_pos (by omega)]
    cases hd : Nat.toDigits 10 n with
    | nil => exact absurd hd Nat.toDigits_ne_nil
    | cons c ds =>
      rw [hd] at hds hvalue
      obtain ⟨hc, hrest⟩ := List.forall_mem_cons.1 hds
      dsimp only
      rw [digit?_of_isDigit hc, Option.bind_some, readDigits_eq hrest, ← hvalue,
        Nat.ofDigitChars_cons]
      simp

/-! ## Integers -/

/-- The text of an integer is its sign and the digits of its absolute value. -/
theorem toList_toString (n : Int) : (toString n).toList =
    if n < 0 then '-' :: Nat.toDigits 10 n.natAbs else Nat.toDigits 10 n.natAbs := by
  have h := Json.writeInt_append n []
  simp only [List.append_nil, decide_eq_true_eq] at h
  exact h

/-- The text of an integer denotes it if it has not too many digits. -/
theorem integer?_toString (n : Int) : integer? (toString n) =
    if (Nat.toDigits 10 n.natAbs).length ≤ maxDigits then some n else none := by
  have hdigits : ∀ c ∈ Nat.toDigits 10 n.natAbs, Json.isDigit c = true := fun c hc =>
    Json.isDigit_of_mem_toDigits hc
  have hplain : ∀ c ∈ (toString n).toList, isBlank c = false := by
    rw [toList_toString]
    split
    · exact List.forall_mem_cons.2 ⟨rfl, fun c hc => isBlank_of_isDigit (hdigits c hc)⟩
    · exact fun c hc => isBlank_of_isDigit (hdigits c hc)
  rw [integer?, stripChars_eq_self hplain, toList_toString]
  by_cases hneg : n < 0
  · rw [if_pos hneg]
    show (natural? (Nat.toDigits 10 n.natAbs)).map (fun (m : Nat) => -(m : Int)) = _
    rw [natural?_toDigits]
    split
    · rw [Option.map_some]
      congr 1
      omega
    · rfl
  · rw [if_neg hneg]
    have hvalue : (natural? (Nat.toDigits 10 n.natAbs)).map Int.ofNat =
        if (Nat.toDigits 10 n.natAbs).length ≤ maxDigits then some n else none := by
      rw [natural?_toDigits]
      split
      · rw [Option.map_some]
        congr 1
        exact Int.natAbs_of_nonneg (Int.not_lt.1 hneg)
      · rfl
    rw [← hvalue]
    -- Digits do not begin with a sign.
    split
    · next heq => cases hdigits '-' (heq ▸ List.mem_cons_self)
    · next heq => cases hdigits '+' (heq ▸ List.mem_cons_self)
    · rfl

end ScriptAgent.Text
