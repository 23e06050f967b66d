import ScriptAgent.Decimal.Shortest

/-!
# Decimals with a fixed number of digits

Writing a float with a given number of digits rounds its exact value once, a tie to the even
neighbour. `fixed` counts digits after the point, `scientific` digits of the significand, and
`general` chooses between the two by the place of the first digit. `hexadecimal` writes the
significand in base sixteen, without rounding unless a number of digits is given.

The texts here have no sign: signs, padding and the values that are not finite belong to the
caller (`Decimal.signed`).
-/

namespace ScriptAgent.Decimal

/-- `p` significant digits of a magnitude other than zero, and the place of the first. -/
def significant (v : Magnitude) (p : Nat) : Nat × Int :=
  let e := decimalExponent v.num v.den
  let k := e - p
  let d := roundDiv (v.num * Nat.pow 10 (-k).toNat) (v.den * Nat.pow 10 k.toNat)
  if d = Nat.pow 10 p then (Nat.pow 10 (p - 1), e) else (d, e - 1)

/-- Pads with zeros on the left. -/
def padZeros (n : Nat) (cs : List Char) : List Char := List.replicate (n - cs.length) '0' ++ cs

/-- The digits before and after the point, the point itself only if digits follow it or it is
asked for. -/
def pointed (whole frac : List Char) (point : Bool) : List Char :=
  if frac.isEmpty && !point then whole else whole ++ '.' :: frac

/-- Positional notation with `p` digits after the point. -/
def fixed (v : Magnitude) (p : Nat) (point : Bool) : List Char :=
  let ds := padZeros (p + 1) (digitChars (roundDiv (v.num * Nat.pow 10 p) v.den))
  pointed (ds.take (ds.length - p)) (ds.drop (ds.length - p)) point

/-- Drops zeros at the end. -/
def dropTrailingZeros (cs : List Char) : List Char := (cs.reverse.dropWhile (· == '0')).reverse

/-- One digit, a point, `p` digits and an exponent. -/
def scientific (v : Magnitude) (p : Nat) (point trimmed : Bool) : List Char :=
  let (d, place) := if v.significand = 0 then (0, 0) else significant v (p + 1)
  let ds := padZeros (p + 1) (digitChars d)
  let frac := ds.drop 1
  let frac := if trimmed then dropTrailingZeros frac else frac
  pointed (ds.take 1) frac point ++ 'e' :: exponentChars place

/-- `p` significant digits, positional while the first digit stands between the fourth place
after the point and place `p`; zeros at the end are dropped unless the point is asked for. -/
def general (v : Magnitude) (p : Nat) (point : Bool) : List Char :=
  let p := max p 1
  let place := if v.significand = 0 then 0 else (significant v p).2
  if -4 ≤ place && place < p then
    let ds := fixed v (p - 1 - place).toNat point
    if point then ds
    else
      let whole := ds.takeWhile (· != '.')
      let frac := ds.dropWhile (· != '.') |>.drop 1
      pointed whole (dropTrailingZeros frac) false
  else scientific v (p - 1) point (!point)

/-- Writes the exact significand in base sixteen with a binary exponent, rounded to `p` digits
after the point if `p` is given. -/
def hexadecimal (v : Magnitude) (p : Option Nat) (point : Bool) : List Char :=
  let (lead, frac, e) : Nat × Nat × Int :=
    if v.significand = 0 then (0, 0, 0)
    else if v.significand < 1 <<< 52 then (0, v.significand, -1022)
    else (1, v.significand - (1 <<< 52), v.exponent + 52)
  let (lead, ds) :=
    match p with
    | some p =>
      if p ≥ 13 then (lead, (padZeros 13 (Nat.toDigits 16 frac)) ++ List.replicate (p - 13) '0')
      else
        let all := roundDiv ((lead <<< 52) + frac) (Nat.pow 16 (13 - p))
        let (lead, frac) := (all / Nat.pow 16 p, all % Nat.pow 16 p)
        (lead, if p = 0 then [] else padZeros p (Nat.toDigits 16 frac))
    | none => (lead, dropTrailingZeros (padZeros 13 (Nat.toDigits 16 frac)))
  let es := (if e < 0 then '-' else '+') :: digitChars e.natAbs
  '0' :: 'x' :: pointed (digitChars lead) ds point ++ 'p' :: es

/-- The text of a float by a way of writing magnitudes. -/
def signed (x : Float) (body : Magnitude → List Char) : List Char :=
  match classify x with
  | .notANumber => if signBit x then ['-', 'n', 'a', 'n'] else ['n', 'a', 'n']
  | .infinite negative => if negative then ['-', 'i', 'n', 'f'] else ['i', 'n', 'f']
  | .finite negative v => if negative then '-' :: body v else body v

end ScriptAgent.Decimal
