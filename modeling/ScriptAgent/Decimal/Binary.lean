/-!
# Floats as exact rationals

A finite float is `m · 2 ^ q` for a natural number `m` below `2 ^ 53`. `Magnitude` is that pair,
`magnitude` reads it from the bits of a float and `nearest` goes back from any rational: it
rounds `num / den` to the nearest float, a tie to the even neighbour. All texts of numbers
are read and written through these two functions, in exact arithmetic.
-/

namespace ScriptAgent.Decimal

/-- The absolute value `significand · 2 ^ exponent` of a finite float. -/
structure Magnitude where
  significand : Nat
  exponent : Int
deriving DecidableEq, Repr, Inhabited

/-- What a float is: a sign with a finite magnitude, a signed infinity, or not a number. -/
inductive FloatClass where
  | finite (negative : Bool) (magnitude : Magnitude)
  | infinite (negative : Bool)
  | notANumber
deriving DecidableEq, Repr, Inhabited

/-- The least exponent of a float: all subnormal floats have it. -/
def minExponent : Int := -1074

/-- Reads a float from its bits. -/
def classify (x : Float) : FloatClass :=
  let bits := x.toBits.toNat
  let negative := bits >>> 63 == 1
  let field := (bits >>> 52) % 0x800
  let fraction := bits % (1 <<< 52)
  if field = 2047 then
    if fraction = 0 then .infinite negative else .notANumber
  else if field = 0 then .finite negative ⟨fraction, minExponent⟩
  else .finite negative ⟨(1 <<< 52) + fraction, minExponent + (field - 1 : Nat)⟩

/-- Whether the sign bit of a float is set. -/
def signBit (x : Float) : Bool := x.toBits.toNat >>> 63 == 1

/-- The numerator of a magnitude over `Magnitude.den`. -/
def Magnitude.num (v : Magnitude) : Nat := v.significand <<< v.exponent.toNat

/-- The denominator of a magnitude: a power of two. -/
def Magnitude.den (v : Magnitude) : Nat := 1 <<< (-v.exponent).toNat

/-- The float with these bits. -/
def ofBits (negative : Bool) (bits : Nat) : Float :=
  Float.ofBits (UInt64.ofNat (bits + if negative then 1 <<< 63 else 0))

/-- Infinity with a sign. -/
def infinity (negative : Bool) : Float := ofBits negative (2047 <<< 52)

/-- Rounds a quotient to the nearest natural number, a tie to the even one. -/
def roundDiv (num den : Nat) : Nat :=
  let q := num / den
  let r := num % den
  if 2 * r > den || (2 * r == den && q % 2 == 1) then q + 1 else q

/-- The exponent of the largest power of two that is at most `num / den`. -/
def binaryExponent (num den : Nat) : Int :=
  let e : Int := (num.log2 : Int) - (den.log2 : Int)
  if num <<< (-e).toNat < den <<< e.toNat then e - 1 else e

/-- The float nearest to `num / den`, with the given sign; beyond the largest float it is an
infinity. -/
def nearest (negative : Bool) (num den : Nat) : Float :=
  if num = 0 then ofBits negative 0
  else
    let q := max (binaryExponent num den - 52) minExponent
    let m := roundDiv (num <<< (-q).toNat) (den <<< q.toNat)
    let (m, q) := if m = 1 <<< 53 then (1 <<< 52, q + 1) else (m, q)
    if m < 1 <<< 52 then ofBits negative m
    else
      let field := (q - minExponent).toNat + 1
      if field ≥ 2047 then infinity negative
      else ofBits negative ((field <<< 52) + (m - (1 <<< 52)))

/-- The float nearest to an integer. -/
def ofInt (i : Int) : Float := nearest (i < 0) i.natAbs 1

/-- The float nearest to `digits · 10 ^ exponent`. Exponents that are out of range for every
float decide the result at once. -/
def ofScientific (negative : Bool) (digits : Nat) (exponent : Int) : Float :=
  if digits = 0 then ofBits negative 0
  else
    let size : Int := (digits.log2 : Int) / 4 + exponent
    if size > 400 then infinity negative
    else if ((digits.log2 : Int) / 3 + 1) + exponent < -400 then ofBits negative 0
    else nearest negative (digits * Nat.pow 10 exponent.toNat) (Nat.pow 10 (-exponent).toNat)

/-- The integer that a float is, if it is one. -/
def toInt? (x : Float) : Option Int :=
  match classify x with
  | .finite negative v =>
    if v.num % v.den = 0 then
      let n : Int := (v.num / v.den : Nat)
      some (if negative then -n else n)
    else none
  | _ => none

/-- The integer part of a finite float, rounded towards zero. -/
def truncate? (x : Float) : Option Int :=
  match classify x with
  | .finite negative v =>
    let n : Int := (v.num / v.den : Nat)
    some (if negative then -n else n)
  | _ => none

/-- The greatest integer that is at most a finite float. -/
def floor? (x : Float) : Option Int :=
  match classify x with
  | .finite negative v =>
    let n : Int := (v.num : Int)
    some (Int.fdiv (if negative then -n else n) v.den)
  | _ => none

/-- Compares an integer with a float by their exact values; a float that is not a number has
no place in the order. -/
def compareInt (i : Int) (x : Float) : Option Ordering :=
  match classify x with
  | .notANumber => none
  | .infinite negative => some (if negative then .gt else .lt)
  | .finite negative v =>
    let n : Int := (v.num : Int)
    some (compare (i * v.den) (if negative then -n else n))

/-- The remainder of a division that truncates; its sign is that of the dividend. Both numbers
are finite and the divisor is not zero. -/
def remainder (x y : Float) : Float :=
  match classify x, classify y with
  | .finite nx vx, .finite _ vy =>
    if vy.significand = 0 then Float.ofBits 0x7ff8000000000000
    else
      let q := min vx.exponent vy.exponent
      let a := vx.significand <<< (vx.exponent - q).toNat
      let b := vy.significand <<< (vy.exponent - q).toNat
      let r := a % b
      nearest nx (r <<< q.toNat) (1 <<< (-q).toNat)
  | .finite _ _, .infinite _ => x
  | _, _ => Float.ofBits 0x7ff8000000000000

end ScriptAgent.Decimal
