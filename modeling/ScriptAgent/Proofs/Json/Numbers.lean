import ScriptAgent.Json.Reader
import ScriptAgent.Json.Writer
import ScriptAgent.Proofs.Decimal.Shortest
import ScriptAgent.Script.Number

/-!
# Numbers in JSON

A number is read part by part: the digits before the point, those after it, and an exponent
(`Json.readNumber_parts`). An integer is written as a sign and its digits, and read back if these
are not too many (`Json.readNumber_digits`), as those of an integer of 64 bits are not.

A finite float is written as a `Numeral` that has the value of a decimal that is rounded to the
float, and always has a fraction or an exponent (`Json.writesFloat_chars`). So it is read back as
that float, and never as an integer (`Json.readNumber_render`).
-/

namespace ScriptAgent.Json

open Decimal (ofScientific exponentChars digitChars)

/-! ## Digits -/

/-- Digits denote what their list of characters denotes in base ten. -/
theorem ofDigits_eq (ds : List Char) : ofDigits ds = Nat.ofDigitChars 10 ds 0 := by
  simp only [ofDigits, Nat.ofDigitChars_eq_foldl, Nat.mul_comm]
  rfl

/-- The digits of a number denote the number. -/
theorem ofDigits_toDigits (n : Nat) : ofDigits (Nat.toDigits 10 n) = n := by
  rw [ofDigits_eq, Nat.ofDigitChars_ten_toDigits]

/-- A zero in front changes nothing. -/
theorem ofDigits_zeros (n : Nat) (ds : List Char) :
    ofDigits (List.replicate n '0' ++ ds) = ofDigits ds := by
  rw [ofDigits_eq, ofDigits_eq, Nat.ofDigitChars_append, Nat.ofDigitChars_replicate_zero,
    Nat.mul_zero]

/-- Zeros at the end shift the digits. -/
theorem ofDigits_append_zeros (ds : List Char) (n : Nat) :
    ofDigits (ds ++ List.replicate n '0') = ofDigits ds * 10 ^ n := by
  rw [ofDigits_eq, ofDigits_eq, Nat.ofDigitChars_append, Nat.ofDigitChars_replicate_zero,
    Nat.mul_comm]

/-- The digits of a number are digits. -/
theorem isDigit_of_mem_toDigits {n : Nat} {c : Char} (hc : c ∈ Nat.toDigits 10 n) :
    isDigit c = true := by
  have h := Nat.isDigit_of_mem_toDigits (by decide) (by decide) hc
  simp only [Char.isDigit, Bool.and_eq_true, decide_eq_true_eq, ge_iff_le,
    UInt32.le_iff_toNat_le] at h
  simp only [isDigit, Bool.and_eq_true, decide_eq_true_eq]
  exact h

/-- The digits of a number do not begin with a zero, unless the number is zero. -/
theorem toDigits_lead (n : Nat) :
    Nat.toDigits 10 n = ['0'] ∨ (Nat.toDigits 10 n).head? ≠ some '0' := by
  induction n using Nat.strongRecOn with
  | ind n ih =>
    rcases Nat.lt_or_ge n 10 with hlt | hge
    · rw [Nat.toDigits_of_lt_base hlt]
      by_cases hn : n = 0
      · exact .inl (by rw [hn]; rfl)
      · exact .inr fun h => hn (Nat.digitChar_eq_zero.1 (Option.some.inj h))
    · rw [Nat.toDigits_of_base_le (by decide) hge,
        List.head?_append_of_ne_nil _ Nat.toDigits_ne_nil]
      refine .inr ?_
      rcases ih (n / 10) (by omega) with hzero | hlead
      · have hdigits := ofDigits_toDigits (n / 10)
        rw [hzero] at hdigits
        have : n / 10 = 0 := hdigits.symm
        omega
      · exact hlead

/-! ## The parts of a numeral -/

/-- The parts of a numeral: the digits before the point, those after it, and the exponent. -/
structure Numeral where
  whole : List Char
  fraction : List Char
  exponent : Option Int

namespace Numeral

/-- The text of the fraction; no point stands without digits behind it. -/
def fractionText (n : Numeral) : List Char := if n.fraction = [] then [] else '.' :: n.fraction

/-- The text of the exponent. -/
def exponentText (n : Numeral) : List Char :=
  match n.exponent with
  | none => []
  | some e => 'e' :: exponentChars e

/-- The text of a numeral with a sign. -/
def text (n : Numeral) (negative : Bool) : List Char :=
  let cs := n.whole ++ (n.fractionText ++ n.exponentText)
  if negative then '-' :: cs else cs

/-- The digits of a numeral, without the point. -/
def digits (n : Numeral) : Nat := ofDigits (n.whole ++ n.fraction)

/-- The exponent of the last digit of a numeral. -/
def place (n : Numeral) : Int := n.exponent.getD 0 - n.fraction.length

/-- A numeral has digits only, at least one before the point, and no zero in front of others. -/
structure WellFormed (n : Numeral) : Prop where
  filled : n.whole ≠ []
  whole : ∀ c ∈ n.whole, isDigit c = true
  lead : n.whole = ['0'] ∨ n.whole.head? ≠ some '0'
  fraction : ∀ c ∈ n.fraction, isDigit c = true

end Numeral

/-- A text does not continue a numeral. -/
def EndsNumeral (rest : List Char) : Prop :=
  ∀ c ∈ rest.head?, isDigit c = false ∧ c ≠ '.' ∧ c ≠ 'e' ∧ c ≠ 'E'

/-- The end of a text ends a numeral. -/
theorem endsNumeral_nil : EndsNumeral [] := by
  intro c hc
  cases hc

section
variable {rest ds : List Char}

/-- Digits are taken up to the first other character. -/
theorem takeWhile_digits (hds : ∀ c ∈ ds, isDigit c = true)
    (hrest : ∀ c ∈ rest.head?, isDigit c = false) :
    (ds ++ rest).takeWhile isDigit = ds ∧ (ds ++ rest).dropWhile isDigit = rest := by
  rw [List.takeWhile_append_of_pos hds, List.dropWhile_append_of_pos hds]
  cases rest with
  | nil => exact ⟨List.append_nil ds, rfl⟩
  | cons c rest =>
    have hc := hrest c rfl
    rw [List.takeWhile_cons_of_neg (by rw [hc]; decide),
      List.dropWhile_cons_of_neg (by rw [hc]; decide)]
    exact ⟨List.append_nil ds, rfl⟩

/-- The digits before the point are split off. -/
theorem wholeDigits_append (hds : ∀ c ∈ ds, isDigit c = true)
    (lead : ds = ['0'] ∨ ds.head? ≠ some '0') (filled : ds ≠ [])
    (hrest : ∀ c ∈ rest.head?, isDigit c = false) :
    wholeDigits (ds ++ rest) = (ds, rest) := by
  obtain ⟨htake, hdrop⟩ := takeWhile_digits hds hrest
  rcases lead with rfl | lead
  · rfl
  · unfold wholeDigits
    split
    · next rest' h =>
      refine absurd ?_ lead
      rw [← List.head?_append_of_ne_nil ds filled, h]
      rfl
    · rw [htake, hdrop]

/-- The digits after the point are split off. -/
theorem fractionDigits_append (hds : ∀ c ∈ ds, isDigit c = true)
    (hrest : ∀ c ∈ rest.head?, isDigit c = false ∧ c ≠ '.') :
    fractionDigits ((if ds = [] then [] else '.' :: ds) ++ rest) = (ds, rest) := by
  obtain ⟨htake, hdrop⟩ := takeWhile_digits hds fun c hc => (hrest c hc).1
  cases ds with
  | nil =>
    rw [if_pos rfl, List.nil_append]
    unfold fractionDigits
    split
    · exact absurd rfl (hrest _ rfl).2
    · rfl
  | cons d ds =>
    rw [if_neg (List.cons_ne_nil d ds)]
    simp only [List.cons_append] at htake hdrop ⊢
    rw [fractionDigits, if_pos (hds d List.mem_cons_self), htake, hdrop]

/-- The characters of an exponent are a sign and digits that denote its absolute value. -/
theorem exponentChars_eq (e : Int) : ∃ ds, ds ≠ [] ∧ (∀ c ∈ ds, isDigit c = true) ∧
    ofDigits ds = e.natAbs ∧ exponentChars e = (if e < 0 then '-' else '+') :: ds := by
  refine ⟨if (digitChars e.natAbs).length < 2 then '0' :: digitChars e.natAbs
    else digitChars e.natAbs, ?_, ?_, ?_, rfl⟩
  · split
    · exact List.cons_ne_nil _ _
    · exact Nat.toDigits_ne_nil
  · split
    · exact List.forall_mem_cons.2 ⟨rfl, fun c hc => isDigit_of_mem_toDigits hc⟩
    · exact fun c hc => isDigit_of_mem_toDigits hc
  · split
    · exact (ofDigits_zeros 1 _).trans (ofDigits_toDigits _)
    · exact ofDigits_toDigits _

/-- An exponent is split off if there is one. -/
theorem exponentPart_append (n : Numeral) (hrest : EndsNumeral rest) :
    exponentPart (n.exponentText ++ rest) = (n.exponent, rest) := by
  unfold Numeral.exponentText
  cases n.exponent with
  | none =>
    rw [List.nil_append]
    unfold exponentPart
    split
    · next c rest' =>
      have hc := (hrest c rfl).2.2
      rw [if_neg]
      simp only [Bool.or_eq_true, beq_iff_eq, not_or]
      exact hc
    · rfl
  | some e =>
    obtain ⟨ds, filled, hds, hvalue, hchars⟩ := exponentChars_eq e
    obtain ⟨htake, hdrop⟩ := takeWhile_digits hds fun c hc => (hrest c hc).1
    have hne : ds.isEmpty = false := by rwa [List.isEmpty_eq_false_iff]
    dsimp only
    rw [hchars, List.cons_append, List.cons_append]
    unfold exponentPart
    dsimp only
    rw [if_pos (by decide)]
    by_cases hneg : e < 0
    · simp only [if_pos hneg, htake, hdrop, hne, hvalue, if_true]
      rw [if_neg Bool.false_ne_true]
      congr 2
      omega
    · simp only [if_neg hneg, htake, hdrop, hne, hvalue]
      rw [if_neg Bool.false_ne_true, if_neg Bool.false_ne_true]
      congr 2
      omega

/-- The text of an exponent continues neither the digits before the point nor those after it. -/
theorem head?_exponentText (n : Numeral) (hrest : EndsNumeral rest) :
    ∀ c ∈ (n.exponentText ++ rest).head?, isDigit c = false ∧ c ≠ '.' := by
  unfold Numeral.exponentText
  cases n.exponent with
  | none => exact fun c hc => ⟨(hrest c hc).1, (hrest c hc).2.1⟩
  | some e =>
    intro c hc
    cases hc
    decide

/-- The text of a fraction does not continue the digits before the point. -/
theorem head?_fractionText (n : Numeral) (hrest : EndsNumeral rest) :
    ∀ c ∈ (n.fractionText ++ (n.exponentText ++ rest)).head?, isDigit c = false := by
  unfold Numeral.fractionText
  split
  · exact fun c hc => (head?_exponentText n hrest c hc).1
  · intro c hc
    cases hc
    decide

/-- The first digit is no sign. -/
theorem head?_digits (hds : ∀ c ∈ ds, isDigit c = true) (filled : ds ≠ []) :
    ∀ cs, ds ++ rest ≠ '-' :: cs := by
  intro cs h
  cases ds with
  | nil => exact filled rfl
  | cons d ds =>
    have hd := hds d List.mem_cons_self
    rw [(List.cons.inj h).1] at hd
    exact absurd hd (by decide)

variable {n : Numeral}

/-- A number is read part by part. -/
theorem readNumber_parts (negative : Bool) {whole rest₀ frac rest₁ rest₂ : List Char}
    {exponent : Option Int} (hds : ∀ c ∈ whole, isDigit c = true)
    (lead : whole = ['0'] ∨ whole.head? ≠ some '0')
    (filled : whole ≠ []) (hrest : ∀ c ∈ rest₀.head?, isDigit c = false)
    (hfrac : fractionDigits rest₀ = (frac, rest₁)) (hexp : exponentPart rest₁ = (exponent, rest₂)) :
    readNumber (if negative then '-' :: (whole ++ rest₀) else whole ++ rest₀) =
      if frac.isEmpty && exponent.isNone then
        if whole.length > maxDigits then
          .error ⟨.longInteger whole.length,
            (if negative then '-' :: (whole ++ rest₀) else whole ++ rest₀).length⟩
        else .ok (.int (if negative then -(ofDigits whole : Int) else ofDigits whole), rest₀)
      else .ok (.float (ofScientific negative (ofDigits (whole ++ frac))
        (exponent.getD 0 - frac.length)), rest₂) := by
  have hwhole := wholeDigits_append hds lead filled hrest
  have hsign : ∀ cs, whole ++ rest₀ ≠ '-' :: cs := head?_digits hds filled
  have hne : whole.isEmpty = false := by rwa [List.isEmpty_eq_false_iff]
  cases negative with
  | true =>
    simp only [readNumber, if_true, hwhole, hfrac, hexp, hne]
    rfl
  | false =>
    unfold readNumber
    rw [if_neg Bool.false_ne_true]
    split
    next h =>
    split at h
    · next hcs => exact absurd hcs (hsign _)
    · cases h
      simp only [hwhole, hfrac, hexp, hne]
      rfl

/-- A numeral with a fraction or an exponent is read as a float. -/
theorem readNumber_float (negative : Bool) (hn : n.WellFormed)
    (hf : n.fraction ≠ [] ∨ n.exponent ≠ none) (hrest : EndsNumeral rest) :
    readNumber (n.text negative ++ rest) =
      .ok (.float (ofScientific negative n.digits n.place), rest) := by
  have hfraction : fractionDigits (n.fractionText ++ (n.exponentText ++ rest)) =
      (n.fraction, n.exponentText ++ rest) :=
    fractionDigits_append hn.fraction (head?_exponentText n hrest)
  have hread := readNumber_parts negative hn.whole hn.lead hn.filled
    (head?_fractionText n hrest) hfraction (exponentPart_append n hrest)
  have htext : n.text negative ++ rest =
      if negative then '-' :: (n.whole ++ (n.fractionText ++ (n.exponentText ++ rest)))
      else n.whole ++ (n.fractionText ++ (n.exponentText ++ rest)) := by
    cases negative <;> simp [Numeral.text]
  have hfloat : ¬ (n.fraction.isEmpty && n.exponent.isNone) = true := by
    rw [Bool.and_eq_true, List.isEmpty_iff, Option.isNone_iff_eq_none]
    exact fun h => hf.elim (fun hne => hne h.1) fun hne => hne h.2
  rw [htext, hread, if_neg hfloat]
  rfl

/-- An integer is written as its sign and the digits of its absolute value. -/
theorem writeInt_append (i : Int) (rest : List Char) :
    writeInt i ++ rest = if decide (i < 0) = true then
      '-' :: (Nat.toDigits 10 i.natAbs ++ rest) else Nat.toDigits 10 i.natAbs ++ rest := by
  cases i with
  | ofNat n =>
    have hchars : writeInt (.ofNat n) = Nat.toDigits 10 n := Nat.toList_repr
    rw [if_neg (by simp), hchars]
    rfl
  | negSucc n =>
    have hchars : writeInt (.negSucc n) = '-' :: Nat.toDigits 10 (n + 1) := by
      show ("-" ++ Nat.repr (n + 1)).toList = _
      rw [String.toList_append, Nat.toList_repr]
      rfl
    rw [if_pos (by simp [Int.negSucc_lt_zero]), hchars]
    rfl

/-- An integer of not too many digits is read back. -/
theorem readNumber_digits {i : Int} (hi : (Nat.toDigits 10 i.natAbs).length ≤ maxDigits)
    (hrest : EndsNumeral rest) : readNumber (writeInt i ++ rest) = .ok (.int i, rest) := by
  have hexp : exponentPart rest = (none, rest) := exponentPart_append ⟨[], [], none⟩ hrest
  have hfraction : fractionDigits rest = ([], rest) :=
    fractionDigits_append (List.forall_mem_nil _) fun c hc => ⟨(hrest c hc).1, (hrest c hc).2.1⟩
  have hread := readNumber_parts (decide (i < 0)) (fun c hc => isDigit_of_mem_toDigits hc)
    (toDigits_lead i.natAbs) Nat.toDigits_ne_nil (fun c hc => (hrest c hc).1) hfraction hexp
  rw [writeInt_append, hread, if_pos (by rfl), if_neg (Nat.not_lt.2 hi), ofDigits_toDigits]
  congr 3
  by_cases hneg : i < 0
  · rw [decide_eq_true hneg, if_pos rfl]
    omega
  · rw [decide_eq_false hneg, if_neg Bool.false_ne_true]
    omega

/-- An integer of 64 bits has not too many digits. -/
theorem length_toDigits_of_fits {i : Int} (hi : Script.Num.fits i = true) :
    (Nat.toDigits 10 i.natAbs).length ≤ maxDigits := by
  simp only [Script.Num.fits, Bool.and_eq_true, decide_eq_true_eq] at hi
  have hle := (Nat.length_toDigits_le_iff (n := i.natAbs) (b := 10) (k := 19) (by decide)
    (by decide)).2 (by omega)
  unfold maxDigits
  omega

end

/-! ## Floats -/

section
open Decimal

/-- A text is that of a numeral with a fraction or an exponent, and with a value. -/
def WritesFloat (cs : List Char) (r : ℚ) : Prop :=
  ∃ n : Numeral, n.WellFormed ∧ (n.fraction ≠ [] ∨ n.exponent ≠ none) ∧ n.text false = cs ∧
    (n.digits : ℚ) * 10 ^ n.place = r

variable {ds : List Char}

/-- Digits before the point, with zeros up to it. -/
theorem writesFloat_integral (hds : ∀ c ∈ ds, isDigit c = true) (filled : ds ≠ []) {k : Nat}
    (lead : ds = ['0'] ∧ k = 0 ∨ ds.head? ≠ some '0') :
    WritesFloat (ds ++ List.replicate k '0' ++ ['.', '0']) (ofDigits ds * 10 ^ (k : Int)) := by
  refine ⟨⟨ds ++ List.replicate k '0', ['0'], none⟩, ⟨?_, ?_, ?_, ?_⟩,
    .inl (List.cons_ne_nil _ _), ?_, ?_⟩
  · exact List.append_ne_nil_of_left_ne_nil filled _
  · refine List.forall_mem_append.2 ⟨hds, fun c hc => ?_⟩
    rw [List.eq_of_mem_replicate hc]
    rfl
  · rcases lead with ⟨rfl, rfl⟩ | lead
    · exact .inl rfl
    · exact .inr (by rwa [List.head?_append_of_ne_nil _ filled])
  · exact fun c hc => by rw [List.mem_singleton.1 hc]; rfl
  · simp [Numeral.text, Numeral.fractionText, Numeral.exponentText]
  · have hdigits := ofDigits_append_zeros ds (k + 1)
    rw [List.replicate_succ', ← List.append_assoc] at hdigits
    simp only [Numeral.digits, Numeral.place, hdigits]
    push_cast
    rw [pow_succ]
    norm_num
    ring

/-- Digits on both sides of the point. -/
theorem writesFloat_point (hds : ∀ c ∈ ds, isDigit c = true)
    (lead : ds = ['0'] ∨ ds.head? ≠ some '0') {k : Nat} (hpos : 0 < k) (hk : k < ds.length) :
    WritesFloat (ds.take k ++ '.' :: ds.drop k) (ofDigits ds * 10 ^ ((k : Int) - ds.length)) := by
  have hdrop : ds.drop k ≠ [] := by rwa [Ne, List.drop_eq_nil_iff, Nat.not_le]
  have htake : ds.take k ≠ [] := by
    rw [Ne, List.take_eq_nil_iff, not_or]
    exact ⟨hpos.ne', fun h => by rw [h] at hk; exact Nat.not_lt_zero k hk⟩
  refine ⟨⟨ds.take k, ds.drop k, none⟩, ⟨htake, ?_, ?_, ?_⟩, .inl hdrop, ?_, ?_⟩
  · exact fun c hc => hds c (List.mem_of_mem_take hc)
  · refine .inr ?_
    rw [List.head?_take, if_neg hpos.ne']
    refine lead.resolve_left ?_
    rintro rfl
    rw [List.length_singleton] at hk
    omega
  · exact fun c hc => hds c (List.mem_of_mem_drop hc)
  · simp [Numeral.text, Numeral.fractionText, Numeral.exponentText, hdrop]
  · simp only [Numeral.digits, Numeral.place, List.take_append_drop, List.length_drop]
    congr 2
    rw [Option.getD_none]
    omega

/-- Digits after the point, with zeros behind it. -/
theorem writesFloat_small (hds : ∀ c ∈ ds, isDigit c = true) (filled : ds ≠ []) (k : Nat) :
    WritesFloat ('0' :: '.' :: List.replicate k '0' ++ ds)
      (ofDigits ds * 10 ^ (-(k : Int) - ds.length)) := by
  have hne : List.replicate k '0' ++ ds ≠ [] := List.append_ne_nil_of_right_ne_nil _ filled
  refine ⟨⟨['0'], List.replicate k '0' ++ ds, none⟩, ⟨List.cons_ne_nil _ _, ?_, .inl rfl, ?_⟩,
    .inl hne, ?_, ?_⟩
  · exact fun c hc => by rw [List.mem_singleton.1 hc]; rfl
  · refine List.forall_mem_append.2 ⟨fun c hc => ?_, hds⟩
    rw [List.eq_of_mem_replicate hc]
    rfl
  · simp [Numeral.text, Numeral.fractionText, Numeral.exponentText, filled]
  · have hdigits : ofDigits ('0' :: (List.replicate k '0' ++ ds)) = ofDigits ds :=
      ofDigits_zeros (k + 1) ds
    simp only [Numeral.digits, Numeral.place, List.singleton_append, hdigits, List.length_append,
      List.length_replicate]
    congr 2
    rw [Option.getD_none]
    push_cast
    ring

/-- One digit before the point and an exponent. -/
theorem writesFloat_exponent {d : Char} (hds : ∀ c ∈ d :: ds, isDigit c = true)
    (lead : d :: ds = ['0'] ∨ (d :: ds).head? ≠ some '0') (e : Int) :
    WritesFloat (d :: (if ds = [] then [] else '.' :: ds) ++ 'e' :: exponentChars e)
      (ofDigits (d :: ds) * 10 ^ (e - ds.length)) := by
  rw [List.forall_mem_cons] at hds
  refine ⟨⟨[d], ds, some e⟩, ⟨List.cons_ne_nil _ _, ?_, ?_, hds.2⟩, .inr (by simp), ?_, rfl⟩
  · exact fun c hc => List.mem_singleton.1 hc ▸ hds.1
  · exact lead.imp (fun h => by rw [(List.cons.inj h).1]) id
  · simp [Numeral.text, Numeral.fractionText, Numeral.exponentText]

variable {s : Scientific} {l : Decimal.Layout}

/-- Digits and an exponent are written as a numeral of the same value, and it has a fraction or an
exponent. -/
theorem writesFloat_chars (hl : l.markIntegral = true) (hs : s.digits = 0 → s.exponent = 0) :
    WritesFloat (l.chars s) s.value := by
  have hds : ∀ c ∈ digitChars s.digits, isDigit c = true := fun c hc => isDigit_of_mem_toDigits hc
  have lead : digitChars s.digits = ['0'] ∨ (digitChars s.digits).head? ≠ some '0' :=
    toDigits_lead s.digits
  have hvalue : ofDigits (digitChars s.digits) = s.digits := ofDigits_toDigits s.digits
  have filled : digitChars s.digits ≠ [] := Nat.toDigits_ne_nil
  unfold Layout.chars Scientific.value
  dsimp only
  generalize digitChars s.digits = ds at hds lead hvalue filled ⊢
  rw [← hvalue] at hs ⊢
  have hlength := List.length_pos_iff.2 filled
  split
  · split
    · next hexp =>
      have hzero : ds = ['0'] ∧ s.exponent.toNat = 0 ∨ ds.head? ≠ some '0' :=
        lead.imp (fun h => ⟨h, by rw [hs (by rw [h]; rfl)]; rfl⟩) id
      have h := writesFloat_integral hds filled hzero
      rwa [Int.toNat_of_nonneg hexp] at h
    · next hexp =>
      split
      · next hplace =>
        have h := writesFloat_point hds lead (k := (s.exponent + ds.length - 1).toNat + 1)
          (by omega) (by omega)
        have he : (((s.exponent + ds.length - 1).toNat + 1 : Nat) : Int) - ds.length =
            s.exponent := by omega
        rwa [he] at h
      · next hplace =>
        have h := writesFloat_small hds filled (-(s.exponent + ds.length - 1) - 1).toNat
        have he : -((-(s.exponent + ds.length - 1) - 1).toNat : Int) - ds.length =
            s.exponent := by omega
        rwa [he] at h
  · cases ds with
    | nil => exact absurd rfl filled
    | cons d ds =>
      have h := writesFloat_exponent hds lead (s.exponent + (d :: ds).length - 1)
      have he : s.exponent + (d :: ds).length - 1 - ds.length = s.exponent := by
        rw [List.length_cons]
        omega
      rw [he] at h
      cases ds <;> exact h

variable {v : Magnitude} {negative : Bool} {x : Float} {rest : List Char}

/-- A text with the value of a decimal that is rounded to a magnitude is read as the float with this
magnitude. -/
theorem readNumber_of_attracts {cs : List Char} {r : ℚ} (hcs : WritesFloat cs r) (hv : v.Regular)
    (hr : if v.significand = 0 then r = 0 else v.Attracts r) (hrest : EndsNumeral rest) :
    readNumber ((if negative then '-' :: cs else cs) ++ rest) =
      .ok (.float (ofBits negative v.bits), rest) := by
  obtain ⟨n, hn, marked, rfl, rfl⟩ := hcs
  have htext : (if negative then '-' :: n.text false else n.text false) = n.text negative := by
    cases negative <;> rfl
  rw [htext, readNumber_float negative hn marked hrest]
  congr 3
  split at hr
  · next hzero =>
    have hdigits : n.digits = 0 := by
      have hten : (10 : ℚ) ^ n.place ≠ 0 := zpow_ne_zero _ (by norm_num)
      exact_mod_cast (mul_eq_zero.1 hr).resolve_right hten
    rw [ofScientific, if_pos hdigits, Magnitude.bits, if_pos (by rw [hzero]; decide), hzero]
  · next hpos => exact ofScientific_eq hv hpos hr

/-- A finite float is read back from its text. -/
theorem readNumber_render (hx : classify x = .finite negative v) (hrest : EndsNumeral rest) :
    readNumber ((jsonLayout.render x).toList ++ rest) = .ok (.float x, rest) := by
  obtain ⟨hv, hbits⟩ := ofBits_of_finite hx
  unfold Layout.render
  rw [hx]
  dsimp only
  rw [String.toList_ofList, ← hbits]
  by_cases hzero : v.significand = 0
  · rw [if_pos hzero]
    refine readNumber_of_attracts (writesFloat_chars rfl fun _ => rfl) hv ?_ hrest
    rw [if_pos hzero, Scientific.value, Nat.cast_zero, zero_mul]
  · rw [if_neg hzero]
    have hshort := attracts_shortest hv hzero
    have hdigits : (shortest v).digits ≠ 0 := by
      intro h0
      have hr := hshort.pos hzero
      rw [Scientific.value, h0, Nat.cast_zero, zero_mul] at hr
      exact lt_irrefl _ hr
    refine readNumber_of_attracts (writesFloat_chars rfl fun h => absurd h hdigits) hv ?_ hrest
    rwa [if_neg hzero]

end

end ScriptAgent.Json
