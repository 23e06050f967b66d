import ScriptAgent.Decimal.Binary

/-!
# The shortest decimal that reads back

`shortest v` is the decimal with the fewest digits that rounds to the magnitude `v`, and of
those the nearest to it. The reals that round to `v` form an interval; a decimal with `n`
digits lies in it only if one of the two neighbours of `v` on the grid of such decimals
does, so the search over `n` looks at two candidates for each.

`Layout` is a convention for writing such digits as text: which exponents are written
positionally, and how an exponent is marked. `Layout.render` writes by a convention.
-/

namespace ScriptAgent.Decimal

/-! ## Digits -/

/-- The decimal `digits · 10 ^ exponent`. -/
structure Scientific where
  digits : Nat
  exponent : Int
deriving DecidableEq, Repr, Inhabited

/-- The exponent `e` with `10 ^ (e - 1) ≤ num / den < 10 ^ e`, searched upwards from a lower
bound. -/
def decimalExponent (num den : Nat) : Int :=
  let estimate : Int := (binaryExponent num den * 30103).fdiv 100000 - 1
  let below (e : Int) : Bool := num * Nat.pow 10 (-e).toNat < den * Nat.pow 10 e.toNat
  if below estimate then estimate
  else if below (estimate + 1) then estimate + 1
  else if below (estimate + 2) then estimate + 2
  else estimate + 3

/-- Four times the distance-scaled ends of the interval of reals that round to a magnitude, over
the denominator `4 · den`; below a power of two the gap is half as wide. -/
def interval (v : Magnitude) : Nat × Nat :=
  let unit := 1 <<< v.exponent.toNat
  let four := 4 * v.significand * unit
  let lower := if v.significand = 1 <<< 52 && v.exponent > minExponent then unit else 2 * unit
  (four - lower, four + 2 * unit)

/-- Whether `d · 10 ^ k` rounds to the magnitude `v`: it lies between the ends of the interval,
which count if the significand is even. -/
def readsBack (v : Magnitude) (d : Nat) (k : Int) : Bool :=
  let (lo, hi) := interval v
  let x := 4 * v.den * (d * Nat.pow 10 k.toNat)
  let scale := Nat.pow 10 (-k).toNat
  if v.significand % 2 = 0 then lo * scale ≤ x && x ≤ hi * scale
  else lo * scale < x && x < hi * scale

/-- Drops the zeros at the end of a decimal. -/
def Scientific.trim (fuel : Nat) (s : Scientific) : Scientific :=
  match fuel with
  | 0 => s
  | fuel + 1 =>
    if s.digits ≠ 0 && s.digits % 10 = 0 then
      Scientific.trim fuel ⟨s.digits / 10, s.exponent + 1⟩
    else s

/-- The decimal on the grid of `n` digits that reads back as `v`, if there is one: of the two
neighbours the nearer, a tie to the even one. -/
def onGrid? (v : Magnitude) (e : Int) (n : Nat) : Option Scientific :=
  let k := e - n
  let num := v.num * Nat.pow 10 (-k).toNat
  let den := v.den * Nat.pow 10 k.toNat
  let d := num / den
  let up := roundDiv num den
  if readsBack v up k then some ⟨up, k⟩
  else if readsBack v d k then some ⟨d, k⟩
  else if readsBack v (d + 1) k then some ⟨d + 1, k⟩
  else none

/-- The first grid, from `n` digits on, that holds a decimal which reads back. -/
def shortestFrom (v : Magnitude) (e : Int) (n : Nat) : Nat → Scientific
  | 0 => ⟨v.num, 0⟩
  | fuel + 1 =>
    match onGrid? v e n with
    | some s => s
    | none => shortestFrom v e (n + 1) fuel

/-- The shortest decimal that rounds to a magnitude other than zero, and the nearest of those.
Seventeen digits always suffice. -/
def shortest (v : Magnitude) : Scientific :=
  (shortestFrom v (decimalExponent v.num v.den) 1 17).trim 20

/-! ## Layout -/

/-- The digits of a number as characters, most significant first. -/
def digitChars (n : Nat) : List Char := Nat.toDigits 10 n

/-- A convention for writing a float. -/
structure Layout where
  /-- Numbers with the first digit at this place or above are written with an exponent. -/
  positionalBelow : Int
  /-- Numbers with the first digit below this place are written with an exponent. -/
  positionalFrom : Int
  /-- Whether `.0` marks a float that is an integer and is written positionally. -/
  markIntegral : Bool
  /-- The texts of infinity and of what is not a number. -/
  infinityText : String
  nanText : String

/-- Writes an exponent with a sign and at least two digits. -/
def exponentChars (e : Int) : List Char :=
  let ds := digitChars e.natAbs
  (if e < 0 then '-' else '+') :: (if ds.length < 2 then '0' :: ds else ds)

/-- Writes digits and an exponent by a layout; `place` is the exponent of the first digit. -/
def Layout.chars (l : Layout) (s : Scientific) : List Char :=
  let ds := digitChars s.digits
  let place : Int := s.exponent + ds.length - 1
  if l.positionalFrom ≤ place && place < l.positionalBelow then
    if s.exponent ≥ 0 then
      ds ++ List.replicate s.exponent.toNat '0' ++ (if l.markIntegral then ['.', '0'] else [])
    else if place ≥ 0 then
      ds.take (place.toNat + 1) ++ '.' :: ds.drop (place.toNat + 1)
    else '0' :: '.' :: List.replicate (-place - 1).toNat '0' ++ ds
  else
    match ds with
    | [d] => d :: 'e' :: exponentChars place
    | d :: rest => d :: '.' :: rest ++ 'e' :: exponentChars place
    | [] => []

/-- Writes a float by a layout. -/
def Layout.render (l : Layout) (x : Float) : String :=
  match classify x with
  | .notANumber => l.nanText
  | .infinite negative => if negative then "-" ++ l.infinityText else l.infinityText
  | .finite negative v =>
    let body := if v.significand = 0 then l.chars ⟨0, 0⟩ else l.chars (shortest v)
    String.ofList (if negative then '-' :: body else body)

/-- Host values are written with the fewest digits that read back, positionally from the fourth
place after the point up to sixteen digits before it. -/
def hostLayout : Layout := ⟨16, -4, true, "inf", "nan"⟩

/-- In JSON text the numbers that are not finite have the names of the script language of web
pages. -/
def jsonLayout : Layout := { hostLayout with infinityText := "Infinity", nanText := "NaN" }

end ScriptAgent.Decimal
