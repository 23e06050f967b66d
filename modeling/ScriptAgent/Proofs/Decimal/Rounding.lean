import ScriptAgent.Proofs.Decimal.Bits

/-!
# Rounding to floats

A number is rounded to a magnitude if it is no further from it than half of its last place, or a
quarter where it lies below a power of two (`Magnitude.Attracts`): there the floats lie twice as
close. `nearest` gives the float with a magnitude for every quotient that is rounded to it
(`Decimal.nearest_eq`), and `ofScientific` for every such decimal (`Decimal.ofScientific_eq`).

`nearest` looks for the exponent of the quotient, which is that of the float unless the quotient is
rounded up to a power of two (`Decimal.exponent_cases`). That `ofScientific` decides some decimals
by their exponents alone changes nothing, as every float lies between the powers of ten that it asks
about (`Magnitude.Attracts.bounds`).
-/

namespace ScriptAgent.Decimal

/-! ## Powers of two parts -/

/-- A power as a quotient of two powers with natural exponents. -/
theorem pow_toNat_div (b : Nat) (hb : b ≠ 0) (e : Int) :
    ((b ^ e.toNat : Nat) : ℚ) / ((b ^ (-e).toNat : Nat) : ℚ) = (b : ℚ) ^ e := by
  have hb' : (b : ℚ) ≠ 0 := Nat.cast_ne_zero.2 hb
  push_cast
  rw [← zpow_natCast, ← zpow_natCast, ← zpow_sub₀ hb']
  congr 1
  omega

/-- The number that a magnitude is. -/
def Magnitude.value (v : Magnitude) : ℚ := v.significand * 2 ^ v.exponent

/-- The numerator and the denominator of a magnitude make up its value. -/
theorem Magnitude.num_div_den (v : Magnitude) : (v.num : ℚ) / v.den = v.value := by
  have h := pow_toNat_div 2 (by decide) v.exponent
  rw [num, den, value, Nat.shiftLeft_eq, Nat.shiftLeft_eq, Nat.one_mul, Nat.cast_mul,
    mul_div_assoc, h]
  rfl

/-- The denominator of a magnitude is positive. -/
theorem Magnitude.den_pos (v : Magnitude) : 0 < v.den := by
  rw [den, Nat.shiftLeft_eq, Nat.one_mul]
  exact Nat.two_pow_pos _

/-- The numerator of a magnitude above zero is not zero. -/
theorem Magnitude.num_ne_zero {v : Magnitude} (hpos : v.significand ≠ 0) : v.num ≠ 0 := by
  rw [num, Nat.shiftLeft_eq]
  exact Nat.mul_ne_zero hpos (Nat.two_pow_pos _).ne'

/-- A quotient with both parts shifted. -/
theorem shift_div (num den : Nat) (q : Int) :
    ((num <<< (-q).toNat : Nat) : ℚ) / ((den <<< q.toNat : Nat) : ℚ) = num / den / 2 ^ q := by
  have h := pow_toNat_div 2 (by decide) q
  rw [Nat.shiftLeft_eq, Nat.shiftLeft_eq, Nat.cast_mul, Nat.cast_mul, mul_div_mul_comm]
  rw [show (2 : ℚ) ^ q = ((2 : ℕ) : ℚ) ^ q by norm_cast, ← h]
  field_simp

/-! ## The nearest natural number -/

/-- A natural number is the one nearest to a number; of two nearest ones it is the even one. -/
structure NearestTo (m : Nat) (r : ℚ) : Prop where
  lower : (m : ℚ) - 1 / 2 ≤ r
  upper : r ≤ m + 1 / 2
  odd : m % 2 = 1 → (m : ℚ) - 1 / 2 < r ∧ r < m + 1 / 2

/-- A quotient is rounded to the nearest natural number. -/
theorem roundDiv_eq {num den m : Nat} (hden : 0 < den) (h : NearestTo m (num / den)) :
    roundDiv num den = m := by
  have hd : (0 : ℚ) < den := Nat.cast_pos.2 hden
  have lower : 2 * (m * den) ≤ 2 * num + den := by
    have hl := (le_div_iff₀ hd).1 h.lower
    have hq : 2 * ((m : ℚ) * den) ≤ 2 * num + den := by linarith
    exact_mod_cast hq
  have upper : 2 * num ≤ 2 * (m * den) + den := by
    have hu := (div_le_iff₀ hd).1 h.upper
    have hq : 2 * (num : ℚ) ≤ 2 * (m * den) + den := by linarith
    exact_mod_cast hq
  have odd : m % 2 = 1 → 2 * (m * den) < 2 * num + den ∧ 2 * num < 2 * (m * den) + den := by
    intro hm
    obtain ⟨ol, ou⟩ := h.odd hm
    have hl := (lt_div_iff₀ hd).1 ol
    have hu := (div_lt_iff₀ hd).1 ou
    have hql : 2 * ((m : ℚ) * den) < 2 * num + den := by linarith
    have hqu : 2 * (num : ℚ) < 2 * (m * den) + den := by linarith
    exact ⟨by exact_mod_cast hql, by exact_mod_cast hqu⟩
  have hdiv : num / den * den + num % den = num := by
    rw [Nat.mul_comm]
    exact Nat.div_add_mod num den
  have hmod := Nat.mod_lt num hden
  -- The quotient is that number or the one before it.
  have hle : num / den ≤ m := by
    by_contra hlt
    have hmul := Nat.mul_le_mul_right den (Nat.succ_le_of_lt (Nat.lt_of_not_le hlt))
    rw [Nat.succ_mul] at hmul
    omega
  have hge : m ≤ num / den + 1 := by
    by_contra hlt
    have hmul := Nat.mul_le_mul_right den (Nat.succ_le_of_lt (Nat.lt_of_not_le hlt))
    rw [Nat.succ_mul, Nat.add_mul, Nat.one_mul] at hmul
    omega
  unfold roundDiv
  dsimp only
  rcases Nat.lt_or_ge (num / den) m with hlt | heq
  · have hm : m = num / den + 1 := by omega
    have hmul : m * den = num / den * den + den := by rw [hm, Nat.add_mul, Nat.one_mul]
    rw [if_pos, hm]
    simp only [Bool.or_eq_true, Bool.and_eq_true, decide_eq_true_eq, beq_iff_eq]
    omega
  · have hm : m = num / den := by omega
    rw [if_neg, hm]
    simp only [Bool.or_eq_true, Bool.and_eq_true, decide_eq_true_eq, beq_iff_eq]
    rw [← hm] at hdiv ⊢
    omega

/-- A rounded quotient differs by a half at most. -/
theorem abs_roundDiv_sub_le {num den : Nat} (hden : 0 < den) :
    |(roundDiv num den : ℚ) - num / den| ≤ 1 / 2 := by
  have hd : (0 : ℚ) < den := Nat.cast_pos.2 hden
  have hmod := Nat.mod_lt num hden
  have hdiv : ((num / den : Nat) : ℚ) * den + (num % den : Nat) = num := by
    rw [mul_comm]
    exact_mod_cast Nat.div_add_mod num den
  have hquot : (num : ℚ) / den = (num / den : Nat) + (num % den : Nat) / den := by
    rw [← hdiv]
    field_simp
  rw [hquot, abs_le]
  unfold roundDiv
  dsimp only
  split
  · next h =>
    simp only [Bool.or_eq_true, Bool.and_eq_true, decide_eq_true_eq, beq_iff_eq] at h
    have hr : (den : ℚ) ≤ 2 * (num % den : Nat) := by
      have : den ≤ 2 * (num % den) := by omega
      exact_mod_cast this
    have hlt : ((num % den : Nat) : ℚ) / den ≤ 1 := (div_le_iff₀ hd).2 (by
      rw [one_mul]
      exact_mod_cast hmod.le)
    have hge : (1 : ℚ) / 2 ≤ (num % den : Nat) / den := (le_div_iff₀ hd).2 (by linarith)
    push_cast
    constructor <;> linarith
  · next h =>
    simp only [Bool.or_eq_true, Bool.and_eq_true, decide_eq_true_eq, beq_iff_eq] at h
    have hr : 2 * ((num % den : Nat) : ℚ) ≤ den := by
      have : 2 * (num % den) ≤ den := by omega
      exact_mod_cast this
    have hge : (0 : ℚ) ≤ (num % den : Nat) / den := by positivity
    have hle : ((num % den : Nat) : ℚ) / den ≤ 1 / 2 := (div_le_iff₀ hd).2 (by linarith)
    constructor <;> linarith

/-! ## The exponent of a quotient -/

/-- A number lies between the powers of two of its logarithm. -/
theorem log2_spec {n : Nat} (hn : n ≠ 0) :
    (2 : ℚ) ^ (n.log2 : Int) ≤ n ∧ (n : ℚ) < 2 ^ ((n.log2 : Int) + 1) := by
  constructor
  · rw [zpow_natCast]
    exact_mod_cast Nat.log2_self_le hn
  · have h : n < 2 ^ (n.log2 + 1) := Nat.lt_log2_self
    exact_mod_cast h

/-- The exponent of a quotient is that of the largest power of two that is at most the quotient. -/
theorem binaryExponent_spec {num den : Nat} (hn : num ≠ 0) (hd : den ≠ 0) :
    (2 : ℚ) ^ binaryExponent num den ≤ num / den ∧
      (num : ℚ) / den < 2 ^ (binaryExponent num den + 1) := by
  have hdp : (0 : ℚ) < den := Nat.cast_pos.2 (Nat.pos_of_ne_zero hd)
  have two : (2 : ℚ) ≠ 0 := two_ne_zero
  obtain ⟨nl, nu⟩ := log2_spec hn
  obtain ⟨dl, du⟩ := log2_spec hd
  have hshift := shift_div num den (num.log2 - den.log2)
  -- The difference of the logarithms is the exponent or one too much.
  have lower : (2 : ℚ) ^ ((num.log2 : Int) - den.log2 - 1) ≤ num / den := by
    rw [le_div_iff₀ hdp]
    calc (2 : ℚ) ^ ((num.log2 : Int) - den.log2 - 1) * den
        ≤ 2 ^ ((num.log2 : Int) - den.log2 - 1) * 2 ^ ((den.log2 : Int) + 1) :=
          mul_le_mul_of_nonneg_left du.le (by positivity)
      _ = 2 ^ (num.log2 : Int) := by rw [← zpow_add₀ two]; congr 1; omega
      _ ≤ num := nl
  have upper : (num : ℚ) / den < 2 ^ ((num.log2 : Int) - den.log2 + 1) := by
    rw [div_lt_iff₀ hdp]
    calc (num : ℚ) < 2 ^ ((num.log2 : Int) + 1) := nu
      _ = 2 ^ ((num.log2 : Int) - den.log2 + 1) * 2 ^ (den.log2 : Int) := by
          rw [← zpow_add₀ two]; congr 1; omega
      _ ≤ 2 ^ ((num.log2 : Int) - den.log2 + 1) * den :=
          mul_le_mul_of_nonneg_left dl (by positivity)
  have test : num <<< (-((num.log2 : Int) - den.log2)).toNat <
      den <<< ((num.log2 : Int) - den.log2).toNat ↔
      (num : ℚ) / den < 2 ^ ((num.log2 : Int) - den.log2) := by
    have hpos : (0 : ℚ) < ((den <<< ((num.log2 : Int) - den.log2).toNat : Nat) : ℚ) := by
      rw [Nat.shiftLeft_eq]
      push_cast
      positivity
    rw [← Nat.cast_lt (α := ℚ), ← div_lt_one₀ hpos, hshift, div_lt_one₀ (by positivity)]
  unfold binaryExponent
  dsimp only
  split
  · next h =>
    rw [Int.sub_add_cancel]
    exact ⟨lower, test.1 h⟩
  · next h => exact ⟨not_lt.1 (mt test.2 h), upper⟩

/-! ## The nearest float -/

/-- How far below a significand a number may be to be rounded to it: below a power of two the
floats lie twice as close. -/
def Magnitude.gap (v : Magnitude) : ℚ :=
  if v.significand = 2 ^ 52 ∧ minExponent < v.exponent then 1 / 4 else 1 / 2

/-- The numbers that are rounded to a magnitude, counted in its last place. -/
structure Magnitude.Attracts (v : Magnitude) (r : ℚ) : Prop where
  lower : v.significand - v.gap ≤ r / 2 ^ v.exponent
  upper : r / 2 ^ v.exponent ≤ v.significand + 1 / 2
  odd : v.significand % 2 = 1 →
    v.significand - v.gap < r / 2 ^ v.exponent ∧ r / 2 ^ v.exponent < v.significand + 1 / 2

section
variable {v : Magnitude} {num den : Nat} {negative : Bool} {r : ℚ}

/-- The gap is a half at most. -/
theorem Magnitude.gap_le (v : Magnitude) : v.gap ≤ 1 / 2 := by
  unfold gap
  split <;> norm_num

/-- A number that is rounded to a magnitude is nearest to its significand, counted in its last
place. -/
theorem Magnitude.Attracts.nearestTo (h : v.Attracts r) :
    NearestTo v.significand (r / 2 ^ v.exponent) where
  lower := by linarith [h.lower, v.gap_le]
  upper := h.upper
  odd hm := ⟨by linarith [(h.odd hm).1, v.gap_le], (h.odd hm).2⟩

/-- Only numbers above zero are rounded to a magnitude above zero. -/
theorem Magnitude.Attracts.pos (h : v.Attracts r) (hv : v.significand ≠ 0) : 0 < r := by
  have one : (1 : ℚ) ≤ v.significand := by exact_mod_cast Nat.pos_of_ne_zero hv
  have hs : (0 : ℚ) < r / 2 ^ v.exponent := by linarith [h.lower, v.gap_le]
  exact (div_pos_iff_of_pos_right (by positivity)).1 hs

/-- The exponent at which a quotient is rounded to a magnitude is that of the magnitude, or the one
below it if rounding goes up to a power of two. -/
theorem exponent_cases (hv : v.Regular) (hn : num ≠ 0) (hd : den ≠ 0)
    (h : v.Attracts (num / den)) {q : Int}
    (hq : q = max (binaryExponent num den - 52) minExponent) :
    (q = v.exponent ∧ NearestTo v.significand (num / den / 2 ^ q)) ∨
      (v.significand = 2 ^ 52 ∧ q = v.exponent - 1 ∧ NearestTo (2 ^ 53) (num / den / 2 ^ q)) := by
  obtain ⟨blower, bupper⟩ := binaryExponent_spec hn hd
  have hnear := h.nearestTo
  have hgap := h.lower
  generalize (num : ℚ) / den = r at *
  generalize binaryExponent num den = b at *
  have two : (2 : ℚ) ≠ 0 := two_ne_zero
  have hpow : (0 : ℚ) < 2 ^ v.exponent := by positivity
  have below : ∀ k : Int, r / 2 ^ v.exponent < 2 ^ k → b < k + v.exponent := fun k hk => by
    rw [div_lt_iff₀ hpow, ← zpow_add₀ two] at hk
    exact (zpow_lt_zpow_iff_right₀ one_lt_two).1 (lt_of_le_of_lt blower hk)
  have above : ∀ k : Int, 2 ^ k ≤ r / 2 ^ v.exponent → k + v.exponent < b + 1 := fun k hk => by
    rw [le_div_iff₀ hpow, ← zpow_add₀ two] at hk
    exact (zpow_lt_zpow_iff_right₀ one_lt_two).1 (lt_of_le_of_lt hk bupper)
  have short : (v.significand : ℚ) + 1 ≤ 2 ^ 53 := by exact_mod_cast hv.short
  have least := hv.least
  rcases Nat.lt_or_ge v.significand (2 ^ 52) with small | normal
  · have hv52 : (v.significand : ℚ) + 1 ≤ 2 ^ 52 := by exact_mod_cast small
    have hb := below 52 (by norm_num at hv52 ⊢; linarith [hnear.upper])
    have he := hv.subnormal small
    have hqe : q = v.exponent := by omega
    exact .inl ⟨hqe, hqe ▸ hnear⟩
  · have hv52 : (2 : ℚ) ^ 52 ≤ v.significand := by exact_mod_cast normal
    rcases le_or_gt ((2 : ℚ) ^ 52) (r / 2 ^ v.exponent) with hle | hlt
    · have hb := below 53 (by norm_num at short ⊢; linarith [hnear.upper])
      have hb' := above 52 (by exact_mod_cast hle)
      have hqe : q = v.exponent := by omega
      exact .inl ⟨hqe, hqe ▸ hnear⟩
    -- Only the numbers just below a power of two have another exponent.
    · have hm : v.significand = 2 ^ 52 := by
        have hlt' : (v.significand : ℚ) < 2 ^ 52 + 1 := by linarith [hnear.lower]
        have : v.significand < 2 ^ 52 + 1 := by exact_mod_cast hlt'
        omega
      have hb := below 52 (by exact_mod_cast hlt)
      rcases eq_or_lt_of_le least with he | he
      · have hqe : q = v.exponent := by omega
        exact .inl ⟨hqe, hqe ▸ hnear⟩
      · rw [Magnitude.gap, if_pos ⟨hm, he⟩] at hgap
        have half : (2 : ℚ) ^ (51 : Int) ≤ 2 ^ 52 - 1 / 4 := by norm_num
        have hb' := above 51 (by linarith)
        have hqe : q = v.exponent - 1 := by omega
        have hdouble : r / 2 ^ q = 2 * (r / 2 ^ v.exponent) := by
          rw [hqe, zpow_sub₀ two, zpow_one]
          field_simp
        refine .inr ⟨hm, hqe, ?_, ?_, fun hodd => absurd hodd (by decide)⟩
        · rw [hdouble]
          push_cast
          linarith
        · rw [hdouble]
          push_cast
          linarith

/-- A quotient that is rounded to a magnitude is rounded to the float with this magnitude. -/
theorem nearest_eq (hv : v.Regular) (hpos : v.significand ≠ 0) (hd : den ≠ 0)
    (h : v.Attracts (num / den)) : nearest negative num den = ofBits negative v.bits := by
  have hn : num ≠ 0 := by
    rintro rfl
    have hr := h.pos hpos
    rw [Nat.cast_zero, zero_div] at hr
    exact lt_irrefl _ hr
  have hden : ∀ q : Int, 0 < den <<< q.toNat := fun q => by
    rw [Nat.shiftLeft_eq]
    exact Nat.mul_pos (Nat.pos_of_ne_zero hd) (Nat.two_pow_pos _)
  unfold nearest
  rw [if_neg hn]
  dsimp only
  generalize hq : max (binaryExponent num den - 52) minExponent = q
  have hround : ∀ m, NearestTo m (num / den / 2 ^ q) →
      roundDiv (num <<< (-q).toNat) (den <<< q.toNat) = m := fun m hm =>
    roundDiv_eq (hden q) (by rwa [shift_div])
  have finish : (if v.significand < 1 <<< 52 then ofBits negative v.significand
      else if (v.exponent - minExponent).toNat + 1 ≥ 2047 then infinity negative
      else ofBits negative ((((v.exponent - minExponent).toNat + 1) <<< 52) +
        (v.significand - (1 <<< 52)))) = ofBits negative v.bits := by
    have greatest := hv.greatest
    have hfield : ¬ (v.exponent - minExponent).toNat + 1 ≥ 2047 := by
      unfold minExponent
      omega
    rw [if_neg hfield, Magnitude.bits, apply_ite (ofBits negative)]
    rfl
  rcases exponent_cases hv hn hd h hq.symm with ⟨rfl, hm⟩ | ⟨hm, rfl, hnear⟩
  · have hne : v.significand ≠ 1 <<< 53 := Nat.ne_of_lt hv.short
    rw [hround _ hm, if_neg hne]
    exact finish
  · have carry : (2 : Nat) ^ 53 = 1 <<< 53 := rfl
    rw [hround _ hnear, if_pos carry, Int.sub_add_cancel]
    rw [hm] at finish
    exact finish

/-! ## Decimals -/

/-- A power is at most another one if the rate at which the bases grow says so. -/
theorem pow_le_pow_of_rate {x y p q a b : Nat} (hx : 0 < x) (hp : p ≠ 0) (rate : x ^ q ≤ y ^ p)
    (h : p * a ≤ q * b) : x ^ a ≤ y ^ b := by
  refine (Nat.pow_le_pow_iff_left hp).1 ?_
  calc (x ^ a) ^ p = x ^ (p * a) := by rw [← Nat.pow_mul, Nat.mul_comm]
    _ ≤ x ^ (q * b) := Nat.pow_le_pow_right hx h
    _ = (x ^ q) ^ b := Nat.pow_mul x q b
    _ ≤ (y ^ p) ^ b := Nat.pow_le_pow_left rate b
    _ = (y ^ b) ^ p := by rw [← Nat.pow_mul, ← Nat.pow_mul, Nat.mul_comm]

/-- A number lies between the powers of ten that its logarithm gives. -/
theorem ten_zpow_log2_spec {d : Nat} (hd : d ≠ 0) :
    (10 : ℚ) ^ ((d.log2 : Int) / 4) ≤ d ∧ (d : ℚ) < 10 ^ ((d.log2 : Int) / 3 + 1) := by
  obtain ⟨dl, du⟩ := log2_spec hd
  constructor
  · have hpow := pow_le_pow_of_rate (x := 10) (y := 2) (p := 4) (q := 1) (a := d.log2 / 4)
      (b := d.log2) (by decide) (by decide) (by decide) (by omega)
    refine le_trans ?_ dl
    exact_mod_cast hpow
  · have hpow := pow_le_pow_of_rate (x := 2) (y := 10) (p := 1) (q := 3) (a := d.log2 + 1)
      (b := d.log2 / 3 + 1) (by decide) (by decide) (by decide) (by omega)
    refine lt_of_lt_of_le du ?_
    exact_mod_cast hpow

/-- What is rounded to a magnitude lies between the powers of ten that every float lies between. -/
theorem Magnitude.Attracts.bounds (h : v.Attracts r) (hv : v.Regular) (hpos : v.significand ≠ 0) :
    (10 : ℚ) ^ (-400 : Int) ≤ r ∧ r < 10 ^ (400 : Int) := by
  have hpow : (0 : ℚ) < 2 ^ v.exponent := by positivity
  have one : (1 : ℚ) ≤ v.significand := by exact_mod_cast Nat.pos_of_ne_zero hpos
  have short : (v.significand : ℚ) + 1 ≤ 2 ^ 53 := by exact_mod_cast hv.short
  have small : (2 : ℚ) ^ 1075 ≤ 10 ^ 400 := by
    exact_mod_cast pow_le_pow_of_rate (x := 2) (y := 10) (p := 1) (q := 3) (a := 1075) (b := 400)
      (by decide) (by decide) (by decide) (by decide)
  constructor
  · have half : (1 : ℚ) / 2 ≤ r / 2 ^ v.exponent := by linarith [h.lower, v.gap_le]
    calc (10 : ℚ) ^ (-400 : Int) ≤ 2 ^ (-1075 : Int) := by
          rw [zpow_neg, zpow_neg]
          exact inv_anti₀ (by positivity) (by exact_mod_cast small)
      _ = 1 / 2 * 2 ^ (-1074 : Int) := by
          rw [one_div, ← zpow_neg_one, ← zpow_add₀ two_ne_zero]
          rfl
      _ ≤ 1 / 2 * 2 ^ v.exponent :=
          mul_le_mul_of_nonneg_left (zpow_le_zpow_right₀ one_le_two hv.least) (by norm_num)
      _ ≤ r := (le_div_iff₀ hpow).1 half
  · have full : r / 2 ^ v.exponent < 2 ^ 53 := by linarith [h.upper]
    calc r < 2 ^ 53 * 2 ^ v.exponent := (div_lt_iff₀ hpow).1 full
      _ ≤ 2 ^ 53 * 2 ^ (971 : Int) :=
          mul_le_mul_of_nonneg_left (zpow_le_zpow_right₀ one_le_two hv.greatest) (by norm_num)
      _ = 2 ^ (1024 : Int) := by
          rw [← zpow_natCast, ← zpow_add₀ two_ne_zero]
          rfl
      _ ≤ 2 ^ (1075 : Int) := zpow_le_zpow_right₀ one_le_two (by decide)
      _ ≤ 10 ^ (400 : Int) := by exact_mod_cast small

/-- A decimal that is rounded to a magnitude is read as the float with this magnitude. -/
theorem ofScientific_eq {d : Nat} {e : Int} (hv : v.Regular) (hpos : v.significand ≠ 0)
    (h : v.Attracts (d * 10 ^ e)) : ofScientific negative d e = ofBits negative v.bits := by
  obtain ⟨lower, upper⟩ := h.bounds hv hpos
  have hd : d ≠ 0 := by
    rintro rfl
    have hr := h.pos hpos
    rw [Nat.cast_zero, zero_mul] at hr
    exact lt_irrefl _ hr
  obtain ⟨dl, du⟩ := ten_zpow_log2_spec hd
  have ten : (10 : ℚ) ≠ 0 := by norm_num
  have large : ¬ (d.log2 : Int) / 4 + e > 400 := by
    intro hgt
    have hle : (10 : ℚ) ^ (400 : Int) ≤ d * 10 ^ e := by
      calc (10 : ℚ) ^ (400 : Int) ≤ 10 ^ ((d.log2 : Int) / 4 + e) :=
            zpow_le_zpow_right₀ (by norm_num) hgt.le
        _ = 10 ^ ((d.log2 : Int) / 4) * 10 ^ e := zpow_add₀ ten _ _
        _ ≤ d * 10 ^ e := mul_le_mul_of_nonneg_right dl (by positivity)
    exact absurd upper (not_lt.2 hle)
  have tiny : ¬ (d.log2 : Int) / 3 + 1 + e < -400 := by
    intro hlt
    have hle : (d : ℚ) * 10 ^ e < 10 ^ (-400 : Int) := by
      calc (d : ℚ) * 10 ^ e < 10 ^ ((d.log2 : Int) / 3 + 1) * 10 ^ e :=
            mul_lt_mul_of_pos_right du (by positivity)
        _ = 10 ^ ((d.log2 : Int) / 3 + 1 + e) := (zpow_add₀ ten _ _).symm
        _ ≤ 10 ^ (-400 : Int) := zpow_le_zpow_right₀ (by norm_num) hlt.le
    exact absurd hle (not_lt.2 lower)
  unfold ofScientific
  rw [if_neg hd, if_neg large, if_neg tiny]
  refine nearest_eq hv hpos (Nat.pos_iff_ne_zero.1 (Nat.pow_pos (by decide))) ?_
  have hquot := pow_toNat_div 10 (by decide) e
  rw [Nat.cast_mul, mul_div_assoc]
  convert h using 2
  exact_mod_cast hquot

/-! ## Integers -/

/-- A magnitude is rounded to itself. -/
theorem Magnitude.attracts_value (v : Magnitude) : v.Attracts v.value := by
  have hgap : 0 < v.gap := by
    unfold gap
    split <;> norm_num
  have hvalue : v.value / 2 ^ v.exponent = v.significand := by
    rw [value, mul_div_assoc, div_self (by positivity), mul_one]
  refine ⟨?_, ?_, fun _ => ⟨?_, ?_⟩⟩ <;> rw [hvalue] <;> linarith

/-- A float that is an integer is made of a magnitude with its absolute value, and of its sign. -/
theorem toInt?_spec {x : Float} {i : Int} (hx : toInt? x = some i) (hi : i ≠ 0) :
    ∃ v : Magnitude, v.Regular ∧ v.significand ≠ 0 ∧ (i.natAbs : ℚ) = v.value ∧
      ofBits (decide (i < 0)) v.bits = x := by
  unfold toInt? at hx
  split at hx
  · next negative v hclass =>
    obtain ⟨hv, hbits⟩ := ofBits_of_finite hclass
    split at hx
    · next hmod =>
      have hint : i = if negative then -((v.num / v.den : Nat) : Int) else (v.num / v.den : Nat) :=
        (Option.some.inj hx).symm
      generalize hn : v.num / v.den = n at hint
      have habs : i.natAbs = v.num / v.den := by
        rw [hint, hn]
        split <;> simp
      have hvalue : (i.natAbs : ℚ) = v.value := by
        have hden : (v.den : ℚ) ≠ 0 := Nat.cast_ne_zero.2 v.den_pos.ne'
        rw [habs, Nat.cast_div (Nat.dvd_of_mod_eq_zero hmod) hden, v.num_div_den]
      have hpos : v.significand ≠ 0 := by
        intro hzero
        rw [Magnitude.value, hzero, Nat.cast_zero, zero_mul] at hvalue
        exact hi (Int.natAbs_eq_zero.1 (by exact_mod_cast hvalue))
      have hsign : decide (i < 0) = negative := by
        cases negative with
        | true =>
          rw [if_pos rfl] at hint
          exact decide_eq_true (by omega)
        | false =>
          rw [if_neg Bool.false_ne_true] at hint
          exact decide_eq_false (by omega)
      exact ⟨v, hv, hpos, hvalue, hsign ▸ hbits⟩
    · cases hx
  · cases hx

/-- A float that is an integer other than zero is the float nearest to it. -/
theorem eq_ofInt_of_toInt? {x : Float} {i : Int} (hx : toInt? x = some i) (hi : i ≠ 0) :
    x = ofInt i := by
  obtain ⟨v, hv, hpos, hvalue, hbits⟩ := toInt?_spec hx hi
  have hnear : v.Attracts (i.natAbs / (1 : Nat)) := by
    rw [Nat.cast_one, div_one, hvalue]
    exact v.attracts_value
  rw [ofInt, nearest_eq hv hpos one_ne_zero hnear, hbits]

/-- No float that is an integer has more bits. -/
def maxBits : Nat := 1024

/-- A float that is an integer has at most `maxBits` bits. -/
theorem natAbs_lt_of_toInt? {x : Float} {i : Int} (hx : toInt? x = some i) :
    i.natAbs < 2 ^ maxBits := by
  by_cases hi : i = 0
  · rw [hi, Int.natAbs_zero]
    exact Nat.two_pow_pos maxBits
  obtain ⟨v, hv, -, hvalue, -⟩ := toInt?_spec hx hi
  have short : (v.significand : ℚ) < 2 ^ 53 := by exact_mod_cast hv.short
  have hlt : (i.natAbs : ℚ) < 2 ^ maxBits :=
    calc (i.natAbs : ℚ) = v.significand * 2 ^ v.exponent := hvalue
      _ < 2 ^ 53 * 2 ^ v.exponent := mul_lt_mul_of_pos_right short (by positivity)
      _ ≤ 2 ^ 53 * 2 ^ (971 : Int) :=
          mul_le_mul_of_nonneg_left (zpow_le_zpow_right₀ one_le_two hv.greatest) (by norm_num)
      _ = 2 ^ maxBits := by
          rw [← zpow_natCast, ← zpow_natCast, ← zpow_add₀ two_ne_zero]
          rfl
  exact_mod_cast hlt

end

end ScriptAgent.Decimal
