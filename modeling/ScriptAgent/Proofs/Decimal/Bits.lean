import Mathlib
import ScriptAgent.Decimal.Binary

/-!
# Floats and their bits

A float is determined by its bits (`Decimal.ofBits_toBits`), and so by what `classify` reads from
them: `Decimal.ofBits_of_finite` makes a finite float from its sign and its magnitude again. The
magnitude of a float has at most 53 bits, and fewer only at the least exponent
(`Magnitude.Regular`).
-/

namespace ScriptAgent.Decimal

/-! ## Fields -/

section
open Float.Model Float.Model.UnpackedFloat

/-- The fields of bits make up these bits. -/
theorem packComponents_unpack (b : BitVec 64) :
    packComponents .binary64 (.ofBitVec (@unpackSign .binary64 b))
      (@unpackExponent .binary64 b) (@unpackMantissa .binary64 b) = b := by
  have hsign : ∀ c : BitVec 1, (Sign.ofBitVec c).toBitVec = c := by decide
  have hb := b.isLt
  rw [packComponents, hsign]
  apply BitVec.eq_of_toNat_eq
  simp only [unpackSign, unpackExponent, unpackMantissa, BitVec.toNat_append, BitVec.toNat_cast,
    BitVec.extractLsb_toNat]
  rw [← Nat.shiftLeft_add_eq_or_of_lt (by omega), ← Nat.shiftLeft_add_eq_or_of_lt (by omega)]
  simp only [Nat.shiftLeft_eq, Nat.shiftRight_eq_div_pow]
  omega

variable {s : Sign} {m k : Nat} {e : Int} {hm : 0 < m}

/-- A significand with all its bits is written without the first one. -/
theorem pack_normal (hk : k + 1 < 2 ^ 11) (he : e + 1075 = k) (hlog : m.log2 = 52) :
    UnpackedFloat.pack .binary64 (.finite s m e hm) =
      packComponents .binary64 s (.ofNat 11 k) (.ofNat 52 m) := by
  have hbias : (e + Format.binary64.exponentBias + (52 : Nat)).toNat = k := by
    rw [show ((Format.binary64.exponentBias : Nat) : Int) = 1023 from rfl]
    omega
  unfold UnpackedFloat.pack
  simp only [hbias]
  rw [if_neg (Nat.not_le.2 hk), if_pos (by rw [hlog]; rfl)]

/-- A shorter significand is written in full, at the least exponent. -/
theorem pack_subnormal (he : e = -1074) (hlog : m.log2 < 52) :
    UnpackedFloat.pack .binary64 (.finite s m e hm) =
      packComponents .binary64 s 0#11 (.ofNat 52 m) := by
  subst he
  have hbias : ((-1074 : Int) + Format.binary64.exponentBias + (52 : Nat)).toNat = 1 := by decide
  unfold UnpackedFloat.pack
  simp only [hbias]
  rw [if_neg (by decide), if_neg (by simp only [Format.mantissaBits]; omega)]

/-- Writing what valid bits are read as gives these bits. -/
theorem pack_unpack {b : BitVec 64} (valid : Format.binary64.Valid b) :
    UnpackedFloat.pack .binary64 (UnpackedFloat.unpack .binary64 b) = b := by
  have fields := packComponents_unpack b
  have hm : (@unpackMantissa .binary64 b).toNat < 2 ^ 52 := BitVec.isLt _
  have he : (@unpackExponent .binary64 b).toNat < 2 ^ 11 := BitVec.isLt _
  unfold UnpackedFloat.unpack
  dsimp only
  split
  · next hmax =>
    rw [hmax] at fields
    split
    · next hzero => rw [hzero] at fields; exact fields
    · next hne => exact (valid.eq_packedNaN hmax hne).symm
  · next hmax =>
    split
    · next hmin =>
      rw [hmin] at fields
      split
      · next hzero => rw [hzero] at fields; exact fields
      · next hne =>
        have hlog := (Nat.log2_lt fun h0 => hne (BitVec.eq_of_toNat_eq h0)).2 hm
        rw [pack_subnormal (by rw [hmin]; rfl) hlog, BitVec.ofNat_toNat, BitVec.setWidth_eq]
        exact fields
    · next hmin =>
      have hne : (@unpackExponent .binary64 b).toNat ≠ 2047 :=
        fun h => hmax (BitVec.eq_of_toNat_eq h)
      have happend : (1#1 ++ @unpackMantissa .binary64 b).toNat =
          2 ^ 52 + (@unpackMantissa .binary64 b).toNat := by
        rw [BitVec.toNat_append, ← Nat.shiftLeft_add_eq_or_of_lt hm]
        rfl
      have hlog : (1#1 ++ @unpackMantissa .binary64 b).toNat.log2 = 52 := by
        rw [happend]
        exact (Nat.log2_eq_iff (by omega)).2 ⟨by omega, by omega⟩
      -- The bit in front is cut off again.
      have hcut : BitVec.ofNat 52 (2 ^ 52 + (@unpackMantissa .binary64 b).toNat) =
          @unpackMantissa .binary64 b := by
        refine BitVec.eq_of_toNat_eq ?_
        rw [BitVec.toNat_ofNat, Nat.add_mod_left, Nat.mod_eq_of_lt hm]
      have hbias : ((@unpackExponent .binary64 b).toNat : Int) -
          (Format.binary64.exponentBias + (52 : Nat)) + 1075 =
          ((@unpackExponent .binary64 b).toNat : Nat) := by
        rw [show ((Format.binary64.exponentBias : Nat) : Int) = 1023 from rfl]
        omega
      rw [pack_normal (by omega) hbias hlog, happend, hcut, BitVec.ofNat_toNat, BitVec.setWidth_eq]
      exact fields

/-- A float is determined by its bits. -/
theorem ofBits_toBits (x : Float) : Float.ofBits x.toBits = x := by
  obtain ⟨⟨bits, valid⟩⟩ := x
  refine congrArg Float.ofModel ?_
  simp only [Float.toBits, Float.Model.ofBits, Float.Model.pack, pack_unpack valid]

/-- What is not a number has the bits of zero over zero. -/
theorem eq_nan_of_toBits {x : Float} (hmax : (x.toBits.toNat >>> 52) % 0x800 = 2047)
    (hne : x.toBits.toNat % (1 <<< 52) ≠ 0) : x = 0.0 / 0.0 := by
  have hzero : (0.0 / 0.0 : Float).toBits = 0x7ff8000000000000 := by decide
  obtain ⟨⟨bits, valid⟩⟩ := x
  have hexponent : @unpackExponent .binary64 bits.toBitVec = -1#_ := by
    refine BitVec.eq_of_toNat_eq ?_
    rw [unpackExponent, BitVec.toNat_cast, BitVec.extractLsb_toNat]
    exact hmax
  have hmantissa : @unpackMantissa .binary64 bits.toBitVec ≠ 0#_ := fun h0 => by
    have hnat := congrArg BitVec.toNat h0
    rw [unpackMantissa, BitVec.toNat_cast, BitVec.extractLsb_toNat] at hnat
    exact hne hnat
  have hbits : bits = 0x7ff8000000000000 :=
    UInt64.eq_of_toBitVec_eq (valid.eq_packedNaN hexponent hmantissa)
  rw [← ofBits_toBits ⟨⟨bits, valid⟩⟩, ← ofBits_toBits (0.0 / 0.0), hzero]
  exact congrArg Float.ofBits hbits

end

/-! ## Finite floats -/

/-- The magnitude of a finite float: the significand has at most 53 bits, and fewer only at the
least exponent. -/
structure Magnitude.Regular (v : Magnitude) : Prop where
  short : v.significand < 2 ^ 53
  least : minExponent ≤ v.exponent
  greatest : v.exponent ≤ 971
  subnormal : v.significand < 2 ^ 52 → v.exponent = minExponent

/-- The bits of a magnitude, without a sign. -/
def Magnitude.bits (v : Magnitude) : Nat :=
  if v.significand < 2 ^ 52 then v.significand
  else (((v.exponent - minExponent).toNat + 1) <<< 52) + (v.significand - 2 ^ 52)

section
variable {x : Float} {negative : Bool} {v : Magnitude}

/-- The sign bit on top of other bits. -/
theorem toNat_sign (bits : Nat) (hb : bits < 2 ^ 64) :
    bits = bits % 2 ^ 63 + if bits >>> 63 == 1 then 1 <<< 63 else 0 := by
  rw [Nat.shiftRight_eq_div_pow]
  split
  · next h => rw [beq_iff_eq] at h; omega
  · next h => rw [beq_iff_eq] at h; omega

/-- A float is made of its sign and its other bits. -/
theorem ofBits_sign (x : Float) :
    ofBits (x.toBits.toNat >>> 63 == 1) (x.toBits.toNat % 2 ^ 63) = x := by
  unfold ofBits
  rw [← toNat_sign _ x.toBits.toNat_lt, UInt64.ofNat_toNat, ofBits_toBits]

/-- A finite float has a regular magnitude, and is made of it and its sign. -/
theorem ofBits_of_finite (hx : classify x = .finite negative v) :
    v.Regular ∧ ofBits negative v.bits = x := by
  have hsign := ofBits_sign x
  unfold classify at hx
  generalize x.toBits.toNat = bits at hx hsign
  have hone : 1 <<< 52 = 2 ^ 52 := rfl
  have hfraction : bits % 2 ^ 52 < 2 ^ 52 := Nat.mod_lt _ (by decide)
  simp only [Nat.shiftRight_eq_div_pow _ 52, hone] at hx
  split at hx
  · split at hx <;> cases hx
  · next hmax =>
    split at hx
    · next hmin =>
      cases hx
      refine ⟨⟨?_, Int.le_refl _, show minExponent ≤ 971 by decide, fun _ => rfl⟩, ?_⟩
      · dsimp only
        omega
      · have hbits : (⟨bits % 2 ^ 52, minExponent⟩ : Magnitude).bits = bits % 2 ^ 63 := by
          rw [Magnitude.bits, if_pos hfraction]
          dsimp only
          omega
        rw [hbits]
        exact hsign
    · next hmin =>
      cases hx
      refine ⟨⟨?_, ?_, ?_, fun h => absurd h (by dsimp only; omega)⟩, ?_⟩
      · dsimp only
        omega
      · dsimp only
        omega
      · dsimp only [minExponent]
        omega
      · have hbits : (⟨2 ^ 52 + bits % 2 ^ 52, minExponent + (bits / 2 ^ 52 % 0x800 - 1 : Nat)⟩ :
            Magnitude).bits = bits % 2 ^ 63 := by
          rw [Magnitude.bits, if_neg (by dsimp only; omega), Nat.shiftLeft_eq]
          dsimp only
          omega
        rw [hbits]
        exact hsign

/-- An infinite float is determined by its sign. -/
theorem eq_infinity_of_infinite (hx : classify x = .infinite negative) :
    x = infinity negative := by
  have hsign := ofBits_sign x
  unfold classify at hx
  generalize x.toBits.toNat = bits at hx hsign
  dsimp only at hx
  split at hx
  · next hmax =>
    split at hx
    · next hzero =>
      cases hx
      have hbits : 2047 <<< 52 = bits % 2 ^ 63 := by
        rw [Nat.shiftRight_eq_div_pow] at hmax
        simp only [Nat.shiftLeft_eq] at hzero ⊢
        omega
      rw [infinity, hbits]
      exact hsign.symm
    · cases hx
  · split at hx <;> cases hx

/-- What is not a number is zero over zero. -/
theorem eq_nan_of_notANumber (hx : classify x = .notANumber) : x = 0.0 / 0.0 := by
  unfold classify at hx
  dsimp only at hx
  split at hx
  · next hmax =>
    split at hx
    · cases hx
    · next hne => exact eq_nan_of_toBits hmax hne
  · split at hx <;> cases hx

end

end ScriptAgent.Decimal
