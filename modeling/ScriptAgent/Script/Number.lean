import ScriptAgent.Decimal.Fixed
import ScriptAgent.Text.Bytes

/-!
# Numbers of the script language

A script number is an integer of 64 bits, whose arithmetic wraps, or a float. This module
reads and writes numerals and converts between the two kinds:

* a decimal numeral that does not fit an integer is a float, a hexadecimal one wraps;
* a float is written with fifteen digits if these read back, else with seventeen, and is
  always told apart from an integer;
* a float converts to an integer only if it is one.
-/

namespace ScriptAgent.Script

/-- A number of the script language. -/
inductive Num where
  | int (i : Int64)
  | float (x : Float)
deriving DecidableEq, Inhabited

namespace Num

/-! ## Characters -/

/-- White space around a numeral and between tokens. -/
def isSpace (b : UInt8) : Bool := b == 32 || (9 ≤ b.toNat && b.toNat ≤ 13)

/-- A decimal digit. -/
def isDigit (b : UInt8) : Bool := 48 ≤ b.toNat && b.toNat ≤ 57

/-- The value of a digit or letter as a digit in a base up to thirty-six. -/
def digitValue? (b : UInt8) : Option Nat :=
  if isDigit b then some (b.toNat - 48)
  else if 97 ≤ b.toNat && b.toNat ≤ 122 then some (b.toNat - 87)
  else if 65 ≤ b.toNat && b.toNat ≤ 90 then some (b.toNat - 55)
  else none

/-- The value of a hexadecimal digit. -/
def hexValue? (b : UInt8) : Option Nat :=
  match digitValue? b with
  | some d => if d < 16 then some d else none
  | none => none

/-- A hexadecimal digit. -/
def isHexDigit (b : UInt8) : Bool := (hexValue? b).isSome

/-! ## Reading -/

/-- The text without white space at its ends. -/
def trimSpace (bs : Bytes) : Bytes :=
  ((bs.dropWhile isSpace).reverse.dropWhile isSpace).reverse

/-- Splits a sign off. -/
def splitSign : Bytes → Bool × Bytes
  | 45 :: rest => (true, rest)
  | 43 :: rest => (false, rest)
  | bs => (false, bs)

/-- The number that a list of digits denotes in a base. -/
def ofDigits (base : Nat) (ds : Bytes) : Nat :=
  ds.foldl (fun n b => n * base + (digitValue? b).getD 0) 0

/-- Whether a text begins with the mark of a hexadecimal numeral. -/
def splitHex? : Bytes → Option Bytes
  | 48 :: x :: rest => if x == 120 || x == 88 then some rest else none
  | _ => none

/-- Reads an integer numeral without white space. -/
def readInt? (bs : Bytes) : Option Int64 :=
  let (negative, body) := splitSign bs
  match splitHex? body with
  | some ds =>
    if ds.isEmpty || !ds.all isHexDigit then none
    else
      let n : Int := ofDigits 16 ds
      some (Int64.ofInt (if negative then -n else n))
  | none =>
    if body.isEmpty || !body.all isDigit then none
    else
      let n := ofDigits 10 body
      if n < (1 <<< 63) + (if negative then 1 else 0) then
        some (Int64.ofInt (if negative then -(n : Int) else n))
      else none

/-- Reads the exponent part of a numeral: nothing, or a mark with a decimal integer. -/
def readExponent? (lower upper : UInt8) : Bytes → Option Int
  | [] => some 0
  | m :: rest =>
    if m == lower || m == upper then
      let (negative, ds) := splitSign rest
      if ds.isEmpty || !ds.all isDigit then none
      else
        let n : Int := ofDigits 10 ds
        some (if negative then -n else n)
    else none

/-- Splits digits, a point and more digits off; fails if there is no digit. -/
def splitPointed? (digit : UInt8 → Bool) (bs : Bytes) : Option (Bytes × Bytes × Bytes) :=
  let whole := bs.takeWhile digit
  let (frac, rest) :=
    match bs.dropWhile digit with
    | 46 :: more => (more.takeWhile digit, more.dropWhile digit)
    | other => ([], other)
  if whole.isEmpty && frac.isEmpty then none else some (whole, frac, rest)

/-- A magnitude `digits · 2 ^ exponent` as a float; exponents out of range decide it at once. -/
def ofBinary (negative : Bool) (digits : Nat) (exponent : Int) : Float :=
  if digits = 0 then Decimal.ofBits negative 0
  else
    let size : Int := (digits.log2 : Int) + exponent
    if size > 1100 then Decimal.infinity negative
    else if size < -1200 then Decimal.ofBits negative 0
    else Decimal.nearest negative (digits <<< exponent.toNat) (1 <<< (-exponent).toNat)

/-- Reads a float numeral without white space. -/
def readFloat? (bs : Bytes) : Option Float :=
  let (negative, body) := splitSign bs
  match splitHex? body with
  | some rest => do
    let (whole, frac, rest) ← splitPointed? isHexDigit rest
    let e ← readExponent? 112 80 rest
    return ofBinary negative (ofDigits 16 (whole ++ frac)) (e - 4 * frac.length)
  | none => do
    let (whole, frac, rest) ← splitPointed? isDigit body
    let e ← readExponent? 101 69 rest
    return Decimal.ofScientific negative (ofDigits 10 (whole ++ frac)) (e - frac.length)

/-- Reads a numeral with white space around it. -/
def ofBytes? (bs : Bytes) : Option Num :=
  let bs := trimSpace bs
  match readInt? bs with
  | some i => some (.int i)
  | none => (readFloat? bs).map .float

/-! ## Writing -/

/-- The text of an integer. -/
def intBytes (i : Int64) : Bytes := Bytes.ofAscii (toString i.toInt)

/-- The text of a float with `p` significant digits. -/
def floatDigits (x : Float) (p : Nat) : Bytes :=
  (Decimal.signed x fun v => Decimal.general v p false).map fun c => Utf8.byte c.toNat

/-- The text of a float. What is not a number has the sign that the processor gives it. -/
def floatBytes (x : Float) : Bytes :=
  match Decimal.classify x with
  | .notANumber => Bytes.ofAscii "-nan"
  | .infinite _ => floatDigits x 15
  | .finite .. =>
    let short := floatDigits x 15
    let bs := if readFloat? short == some x then short else floatDigits x 17
    if bs.all fun b => isDigit b || b == 45 then bs ++ [46, 48] else bs

/-- The text of a number. -/
def toBytes : Num → Bytes
  | .int i => intBytes i
  | .float x => floatBytes x

/-! ## Conversions -/

/-- Whether an integer fits 64 bits. -/
def fits (n : Int) : Bool := -0x8000000000000000 ≤ n && n < 0x8000000000000000

/-- The integer that a float is, if it fits. -/
def floatToInt? (x : Float) : Option Int64 :=
  match Decimal.toInt? x with
  | some n => if fits n then some (Int64.ofInt n) else none
  | none => none

/-- The integer that a number is. -/
def toInt? : Num → Option Int64
  | .int i => some i
  | .float x => floatToInt? x

/-- The float nearest to a number. -/
def toFloat : Num → Float
  | .int i => Decimal.ofInt i.toInt
  | .float x => x

/-- A float that is an integer is the same table key as that integer. -/
def normalize : Num → Num
  | .int i => .int i
  | .float x =>
    match floatToInt? x with
    | some i => .int i
    | none => .float x

/-! ## Arithmetic -/

/-- Equality of values: an integer equals the float of the same exact value. -/
def eq : Num → Num → Bool
  | .int i, .int j => i == j
  | .float x, .float y => x == y
  | .int i, .float y => Decimal.compareInt i.toInt y == some .eq
  | .float x, .int j => Decimal.compareInt j.toInt x == some .eq

/-- The order of exact values. -/
def lt : Num → Num → Bool
  | .int i, .int j => i < j
  | .float x, .float y => x < y
  | .int i, .float y => Decimal.compareInt i.toInt y == some .lt
  | .float x, .int j => Decimal.compareInt j.toInt x == some .gt

/-- The order of exact values, with equality. -/
def le : Num → Num → Bool
  | .int i, .int j => i ≤ j
  | .float x, .float y => x ≤ y
  | .int i, .float y =>
    match Decimal.compareInt i.toInt y with
    | some o => o != .gt
    | none => false
  | .float x, .int j =>
    match Decimal.compareInt j.toInt x with
    | some o => o != .lt
    | none => false

/-- Division of integers, rounded to the floor; the divisor is not zero. -/
def floorDivInt (i j : Int64) : Int64 := Int64.ofInt (Int.fdiv i.toInt j.toInt)

/-- The remainder of `floorDivInt`; it has the sign of the divisor. -/
def floorModInt (i j : Int64) : Int64 := Int64.ofInt (Int.fmod i.toInt j.toInt)

/-- The remainder of a division of floats that rounds to the floor. -/
def floorModFloat (x y : Float) : Float :=
  let r := if y == 0 then Float.ofBits 0x7ff8000000000000 else Decimal.remainder x y
  if (if r > 0 then y < 0 else r < 0 && y > 0) then r + y else r

/-- A shift to the left; bits beyond the word are lost, a negative amount shifts to the right. -/
def shiftLeft (i : Int64) (amount : Int) : Int64 :=
  if amount ≥ 64 || amount ≤ -64 then 0
  else if amount ≥ 0 then
    Int64.ofInt (Int.ofNat ((i.toUInt64.toNat <<< amount.toNat) % (1 <<< 64)))
  else Int64.ofInt (Int.ofNat (i.toUInt64.toNat >>> (-amount).toNat))

end Num

end ScriptAgent.Script
