import ScriptAgent.Decimal.Shortest
import ScriptAgent.Proofs.Decimal.Rounding

/-!
# The shortest decimal reads back

`Decimal.attracts_shortest`: the decimal that a float is written as is rounded to that float again.
Seventeen digits suffice: decimals with so many digits lie so close that one of them is rounded to
the float (`Decimal.onGrid?_seventeen`), and of whichever grid the search takes a decimal, that
decimal has been tested.
-/

namespace ScriptAgent.Decimal

/-- The number that a decimal is. -/
def Scientific.value (s : Scientific) : ℚ := s.digits * 10 ^ s.exponent

variable {v : Magnitude} {s : Scientific} {d n : Nat} {k e : Int}

/-! ## The test -/

/-- The unit of a magnitude over its denominator. -/
theorem unit_eq (v : Magnitude) :
    ((1 <<< v.exponent.toNat : Nat) : ℚ) = v.den * 2 ^ v.exponent := by
  have hd : (v.den : ℚ) ≠ 0 := Nat.cast_ne_zero.2 v.den_pos.ne'
  have h := pow_toNat_div 2 (by decide) v.exponent
  rw [Magnitude.den, Nat.shiftLeft_eq, Nat.one_mul] at hd ⊢
  rw [Nat.shiftLeft_eq, Nat.one_mul]
  rw [div_eq_iff hd] at h
  rw [h, mul_comm]
  rfl

/-- The interval of a magnitude over its denominator. -/
theorem interval_spec (hpos : v.significand ≠ 0) :
    ((interval v).1 : ℚ) = 4 * v.den * ((v.significand - v.gap) * 2 ^ v.exponent) ∧
      ((interval v).2 : ℚ) = 4 * v.den * ((v.significand + 1 / 2) * 2 ^ v.exponent) := by
  have hunit := unit_eq v
  unfold interval Magnitude.gap
  dsimp only
  generalize 1 <<< v.exponent.toNat = unit at hunit ⊢
  have hle : unit ≤ v.significand * unit := Nat.le_mul_of_pos_left _ (Nat.pos_of_ne_zero hpos)
  have htest : (decide (v.significand = 1 <<< 52) && decide (v.exponent > minExponent)) = true ↔
      v.significand = 2 ^ 52 ∧ minExponent < v.exponent := by
    rw [Bool.and_eq_true, decide_eq_true_eq, decide_eq_true_eq]
    rfl
  constructor
  · split
    · next h =>
      rw [if_pos (htest.1 h), Nat.cast_sub (by rw [Nat.mul_assoc]; omega)]
      push_cast
      rw [hunit]
      ring
    · next h =>
      rw [if_neg (mt htest.2 h), Nat.cast_sub (by rw [Nat.mul_assoc]; omega)]
      push_cast
      rw [hunit]
      ring
  · push_cast
    rw [hunit]
    ring

/-- The test of a decimal says whether it is rounded to the magnitude. -/
theorem readsBack_iff (hpos : v.significand ≠ 0) :
    readsBack v d k = true ↔ v.Attracts (d * 10 ^ k) := by
  obtain ⟨hlo, hhi⟩ := interval_spec hpos
  have hscale := pow_toNat_div 10 (by decide) k
  have hs : (0 : ℚ) < ((10 ^ (-k).toNat : Nat) : ℚ) := by positivity
  have hd : (0 : ℚ) < v.den := Nat.cast_pos.2 v.den_pos
  rw [div_eq_iff hs.ne'] at hscale
  -- Everything is compared over one positive factor.
  have hc : (0 : ℚ) < 4 * v.den * 2 ^ v.exponent * ((10 ^ (-k).toNat : Nat) : ℚ) := by positivity
  have lower : (((interval v).1 * 10 ^ (-k).toNat : Nat) : ℚ) =
      4 * v.den * 2 ^ v.exponent * ((10 ^ (-k).toNat : Nat) : ℚ) * (v.significand - v.gap) := by
    rw [Nat.cast_mul, hlo]
    ring
  have upper : (((interval v).2 * 10 ^ (-k).toNat : Nat) : ℚ) =
      4 * v.den * 2 ^ v.exponent * ((10 ^ (-k).toNat : Nat) : ℚ) * (v.significand + 1 / 2) := by
    rw [Nat.cast_mul, hhi]
    ring
  have middle : ((4 * v.den * (d * 10 ^ k.toNat) : Nat) : ℚ) =
      4 * v.den * 2 ^ v.exponent * ((10 ^ (-k).toNat : Nat) : ℚ) *
        ((d * 10 ^ k : ℚ) / 2 ^ v.exponent) := by
    rw [Nat.cast_mul, Nat.cast_mul, Nat.cast_mul, hscale]
    push_cast
    field_simp
  unfold readsBack
  simp only [Nat.pow_eq]
  split
  · next heven =>
    rw [Bool.and_eq_true, decide_eq_true_eq, decide_eq_true_eq, ← Nat.cast_le (α := ℚ),
      ← Nat.cast_le (α := ℚ), lower, middle, upper, mul_le_mul_iff_right₀ hc,
      mul_le_mul_iff_right₀ hc]
    exact ⟨fun h => ⟨h.1, h.2, fun hodd => by omega⟩, fun h => ⟨h.lower, h.upper⟩⟩
  · next hodd =>
    rw [Bool.and_eq_true, decide_eq_true_eq, decide_eq_true_eq, ← Nat.cast_lt (α := ℚ),
      ← Nat.cast_lt (α := ℚ), lower, middle, upper, mul_lt_mul_iff_right₀ hc,
      mul_lt_mul_iff_right₀ hc]
    exact ⟨fun h => ⟨h.1.le, h.2.le, fun _ => h⟩, fun h => h.odd (by omega)⟩

/-! ## The decimal exponent -/

/-- The estimate of the decimal exponent of a power of two is not too large. -/
theorem ten_zpow_le_two_zpow {b t : Int} (hb : -1100 ≤ b ∧ b ≤ 1100)
    (ht : t = (b * 30103).fdiv 100000) : (10 : ℚ) ^ (t - 2) ≤ 2 ^ b := by
  rw [Int.fdiv_eq_ediv_of_nonneg _ (by decide)] at ht
  rcases lt_or_ge b 0 with hneg | hnonneg
  · have hpow := pow_le_pow_of_rate (x := 2) (y := 10) (p := 13) (q := 43) (a := (-b).toNat)
      (b := (2 - t).toNat) (by decide) (by decide) (by decide) (by omega)
    have hten : (10 : ℚ) ^ (t - 2) = ((10 : ℚ) ^ (2 - t).toNat)⁻¹ := by
      rw [← zpow_natCast, ← zpow_neg]
      congr 1
      omega
    have htwo : (2 : ℚ) ^ b = ((2 : ℚ) ^ (-b).toNat)⁻¹ := by
      rw [← zpow_natCast, ← zpow_neg]
      congr 1
      omega
    rw [hten, htwo]
    exact inv_anti₀ (by positivity) (by exact_mod_cast hpow)
  · have hpow := pow_le_pow_of_rate (x := 10) (y := 2) (p := 10) (q := 3) (a := (t - 2).toNat)
      (b := b.toNat) (by decide) (by decide) (by decide) (by omega)
    calc (10 : ℚ) ^ (t - 2) ≤ 10 ^ ((t - 2).toNat : Int) :=
          zpow_le_zpow_right₀ (by norm_num) (Int.self_le_toNat _)
      _ ≤ 2 ^ (b.toNat : Int) := by exact_mod_cast hpow
      _ = 2 ^ b := by rw [Int.toNat_of_nonneg hnonneg]

/-- A number is at least the power of ten before its decimal exponent. -/
theorem le_of_decimalExponent {num den : Nat} (hn : num ≠ 0) (hd : den ≠ 0)
    (hb : -1100 ≤ binaryExponent num den ∧ binaryExponent num den ≤ 1100) :
    (10 : ℚ) ^ (decimalExponent num den - 1) ≤ num / den := by
  have below : ∀ e : Int, num * Nat.pow 10 (-e).toNat < den * Nat.pow 10 e.toNat ↔
      (num : ℚ) / den < 10 ^ e := by
    intro e
    have hscale := pow_toNat_div 10 (by decide) e
    have hs : (0 : ℚ) < ((10 ^ (-e).toNat : Nat) : ℚ) := by positivity
    have hd' : (0 : ℚ) < den := Nat.cast_pos.2 (Nat.pos_of_ne_zero hd)
    simp only [Nat.pow_eq]
    rw [← Nat.cast_lt (α := ℚ), Nat.cast_mul, Nat.cast_mul, ← lt_div_iff₀ hs, mul_div_assoc, hscale,
      div_lt_iff₀ hd', mul_comm]
    rfl
  have estimate := ten_zpow_le_two_zpow hb rfl
  have hle := (binaryExponent_spec hn hd).1
  have step : ∀ {e : Int}, ¬ num * Nat.pow 10 (-e).toNat < den * Nat.pow 10 e.toNat →
      (10 : ℚ) ^ (e + 1 - 1) ≤ num / den := fun h => by
    rw [Int.add_sub_cancel]
    exact not_lt.1 (mt (below _).2 h)
  unfold decimalExponent
  simp only [decide_eq_true_eq]
  generalize (binaryExponent num den * 30103).fdiv 100000 = t at estimate ⊢
  split
  · rw [Int.sub_sub]
    exact estimate.trans hle
  · next h0 =>
    split
    · exact step h0
    · next h1 =>
      split
      · have h := step h1
        rwa [Int.add_assoc] at h
      · next h2 =>
        have h := step h2
        rwa [Int.add_assoc] at h

/-! ## The search -/

/-- What is found on a grid is rounded to the magnitude. -/
theorem attracts_of_onGrid? (hpos : v.significand ≠ 0) (h : onGrid? v e n = some s) :
    v.Attracts s.value := by
  unfold onGrid? at h
  dsimp only at h
  split at h
  · next hr => cases h; exact (readsBack_iff hpos).1 hr
  · split at h
    · next hr => cases h; exact (readsBack_iff hpos).1 hr
    · split at h
      · next hr => cases h; exact (readsBack_iff hpos).1 hr
      · cases h

/-- A magnitude above zero is not far from one. -/
theorem binaryExponent_bounds (hv : v.Regular) (hpos : v.significand ≠ 0) :
    -1100 ≤ binaryExponent v.num v.den ∧ binaryExponent v.num v.den ≤ 1100 := by
  have two : (2 : ℚ) ≠ 0 := two_ne_zero
  have one : (1 : ℚ) ≤ v.significand := by exact_mod_cast Nat.pos_of_ne_zero hpos
  have short : (v.significand : ℚ) < 2 ^ (53 : Int) := by exact_mod_cast hv.short
  obtain ⟨lower, upper⟩ := binaryExponent_spec (Magnitude.num_ne_zero hpos) v.den_pos.ne'
  rw [v.num_div_den, Magnitude.value] at lower upper
  have below : (2 : ℚ) ^ binaryExponent v.num v.den < 2 ^ (53 + v.exponent) :=
    calc (2 : ℚ) ^ binaryExponent v.num v.den ≤ v.significand * 2 ^ v.exponent := lower
      _ < 2 ^ (53 : Int) * 2 ^ v.exponent := mul_lt_mul_of_pos_right short (by positivity)
      _ = 2 ^ (53 + v.exponent) := (zpow_add₀ two _ _).symm
  have above : (2 : ℚ) ^ v.exponent < 2 ^ (binaryExponent v.num v.den + 1) :=
    calc (2 : ℚ) ^ v.exponent ≤ v.significand * 2 ^ v.exponent :=
          le_mul_of_one_le_left (by positivity) one
      _ < 2 ^ (binaryExponent v.num v.den + 1) := upper
  have hbelow := (zpow_lt_zpow_iff_right₀ one_lt_two).1 below
  have habove := (zpow_lt_zpow_iff_right₀ one_lt_two).1 above
  have least := hv.least
  have greatest := hv.greatest
  unfold minExponent at least
  omega

/-- Half of the distance of decimals with seventeen digits is less than the gap of a magnitude. -/
theorem half_lt_gap (hv : v.Regular) : (v.significand : ℚ) / (2 * 10 ^ 16) < v.gap := by
  have short : (v.significand : ℚ) + 1 ≤ 2 ^ 53 := by exact_mod_cast hv.short
  rw [div_lt_iff₀ (by norm_num)]
  unfold Magnitude.gap
  split
  · next h =>
    rw [h.1]
    norm_num
  · norm_num at short
    linarith

/-- On the grid of seventeen digits there is a decimal that is rounded to the magnitude. -/
theorem onGrid?_seventeen (hv : v.Regular) (hpos : v.significand ≠ 0) :
    ∃ s, onGrid? v (decimalExponent v.num v.den) 17 = some s := by
  have hpow : (0 : ℚ) < 2 ^ v.exponent := by positivity
  have hle := le_of_decimalExponent (Magnitude.num_ne_zero hpos) v.den_pos.ne'
    (binaryExponent_bounds hv hpos)
  rw [v.num_div_den] at hle
  generalize decimalExponent v.num v.den = e at hle ⊢
  unfold onGrid?
  dsimp only
  rw [if_pos]
  · exact ⟨_, rfl⟩
  generalize hk : e - (17 : Nat) = k
  have hgrid : (10 : ℚ) ^ k ≤ v.value / 10 ^ 16 := by
    rw [le_div_iff₀ (by norm_num)]
    refine le_trans (le_of_eq ?_) hle
    rw [← zpow_natCast, ← zpow_add₀ (by norm_num)]
    congr 1
    omega
  have hquot : ((v.num * 10 ^ (-k).toNat : Nat) : ℚ) / (v.den * 10 ^ k.toNat : Nat) =
      v.value / 10 ^ k := by
    have hscale := pow_toNat_div 10 (by decide) k
    rw [Nat.cast_mul, Nat.cast_mul, mul_div_mul_comm, v.num_div_den, ← inv_div, hscale,
      div_eq_mul_inv]
    rfl
  have hden : 0 < v.den * 10 ^ k.toNat := Nat.mul_pos v.den_pos (Nat.pow_pos (by decide))
  have hround := @abs_roundDiv_sub_le (v.num * 10 ^ (-k).toNat) _ hden
  rw [hquot] at hround
  simp only [Nat.pow_eq]
  generalize roundDiv (v.num * 10 ^ (-k).toNat) (v.den * 10 ^ k.toNat) = up at hround ⊢
  have hnear : |(up * 10 ^ k : ℚ) / 2 ^ v.exponent - v.significand| < v.gap := by
    have hten : (0 : ℚ) < 10 ^ k := by positivity
    calc |(up * 10 ^ k : ℚ) / 2 ^ v.exponent - v.significand|
        = |(up - v.value / 10 ^ k) * (10 ^ k / 2 ^ v.exponent)| := by
          rw [Magnitude.value]
          congr 1
          field_simp
      _ = |up - v.value / 10 ^ k| * (10 ^ k / 2 ^ v.exponent) := by
          rw [abs_mul, abs_of_pos (div_pos hten hpow)]
      _ ≤ 1 / 2 * (v.value / 10 ^ 16 / 2 ^ v.exponent) := by gcongr
      _ = v.significand / (2 * 10 ^ 16) := by
          rw [Magnitude.value]
          field_simp
      _ < v.gap := half_lt_gap hv
  have hgap := v.gap_le
  rw [abs_lt] at hnear
  exact (readsBack_iff hpos).2 ⟨by linarith, by linarith, fun _ => ⟨by linarith, by linarith⟩⟩

/-- What the search finds has been found on a grid, if there is something on the last one. -/
theorem shortestFrom_spec {fuel : Nat} (h : ∃ s, onGrid? v e (n + fuel) = some s) :
    ∃ m, onGrid? v e m = some (shortestFrom v e n (fuel + 1)) := by
  induction fuel generalizing n with
  | zero =>
    obtain ⟨s, hs⟩ := h
    rw [Nat.add_zero] at hs
    exact ⟨n, by rw [shortestFrom, hs]⟩
  | succ fuel ih =>
    rw [shortestFrom]
    cases hs : onGrid? v e n with
    | some s => exact ⟨n, hs⟩
    | none => exact ih (by rwa [Nat.add_assoc, Nat.add_comm 1])

/-- Dropping zeros does not change a decimal. -/
theorem Scientific.value_trim (s : Scientific) (fuel : Nat) : (s.trim fuel).value = s.value := by
  induction fuel generalizing s with
  | zero => rfl
  | succ fuel ih =>
    rw [trim]
    split
    · next h =>
      have hdigits : ((s.digits / 10 : Nat) : ℚ) * 10 = s.digits := by
        simp only [Bool.and_eq_true, decide_eq_true_eq] at h
        exact_mod_cast Nat.div_mul_cancel (Nat.dvd_of_mod_eq_zero h.2)
      rw [ih, value, value, zpow_add₀ (by norm_num), zpow_one, mul_comm (_ ^ _), ← mul_assoc,
        hdigits]
    · rfl

/-- The shortest decimal of a magnitude is rounded to the magnitude. -/
theorem attracts_shortest (hv : v.Regular) (hpos : v.significand ≠ 0) :
    v.Attracts (shortest v).value := by
  have hlast : ∃ s, onGrid? v (decimalExponent v.num v.den) (1 + 16) = some s :=
    onGrid?_seventeen hv hpos
  obtain ⟨m, hm⟩ := shortestFrom_spec hlast
  rw [shortest, Scientific.value_trim]
  exact attracts_of_onGrid? hpos hm

end ScriptAgent.Decimal
