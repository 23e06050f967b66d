import ScriptAgent.Script.Library.Argument
import ScriptAgent.Script.Random

/-!
# Functions on numbers

The library's functions on integers and floats. An integer stays an integer where its value is
one; the functions of analysis give floats.
-/

namespace ScriptAgent.Script.Library

open Invocation

/-- A float as a value. -/
def floatValue (x : Float) : Value := .num (.float x)

/-- The ratio of a circle's circumference to its diameter. -/
def pi : Float := 3.141592653589793

/-- A float that is an integer as that integer, if it fits. -/
def integral (x : Float) : Value :=
  match Num.floatToInt? x with
  | some i => .num (.int i)
  | none => floatValue x

/-- A function of analysis. -/
def analytic (f : Float → Float) (inv : Invocation) : Program (List Value) := do
  return [floatValue (f (← inv.number 1).toFloat)]

/-- `math.abs`. -/
def mathAbs (inv : Invocation) : Program (List Value) := do
  match inv.arg 1 with
  | .num (.int i) => return [.num (.int (if i < 0 then -i else i))]
  | _ => return [floatValue (← inv.number 1).toFloat.abs]

/-- `math.floor`. -/
def mathFloor (inv : Invocation) : Program (List Value) := do
  match inv.arg 1 with
  | .num (.int i) => return [.num (.int i)]
  | _ => return [integral (← inv.number 1).toFloat.floor]

/-- `math.ceil`. -/
def mathCeil (inv : Invocation) : Program (List Value) := do
  match inv.arg 1 with
  | .num (.int i) => return [.num (.int i)]
  | _ => return [integral (← inv.number 1).toFloat.ceil]

/-- `math.fmod`: the remainder of a division that rounds to zero. -/
def mathFmod (inv : Invocation) : Program (List Value) := do
  match inv.arg 1, inv.arg 2 with
  | .num (.int i), .num (.int j) =>
    if j == 0 then inv.wrongText 2 "zero"
    return [.int (Int.tmod i.toInt j.toInt)]
  | _, _ =>
    let x := (← inv.number 1).toFloat
    let y := (← inv.number 2).toFloat
    return [floatValue (if y == 0 then 0.0 / 0.0 else Decimal.remainder x y)]

/-- `math.modf`: the integer part and the rest. -/
def mathModf (inv : Invocation) : Program (List Value) := do
  match inv.arg 1 with
  | .num (.int i) => return [.num (.int i), floatValue 0]
  | _ =>
    let x := (← inv.number 1).toFloat
    let whole := if x < 0 then x.ceil else x.floor
    return [floatValue whole, floatValue (if x == whole then 0 else x - whole)]

/-- `math.frexp`: the significand between a half and one, and the exponent. -/
def mathFrexp (inv : Invocation) : Program (List Value) := do
  let (m, e) := (← inv.number 1).toFloat.frExp
  return [floatValue m, .int e]

/-- `math.ldexp`. -/
def mathLdexp (inv : Invocation) : Program (List Value) := do
  let x := (← inv.number 1).toFloat
  let e ← inv.integer 2
  return [floatValue (x.scaleB (max (-5000) (min 5000 e.toInt)))]

/-- `math.log`: the natural logarithm, or the one to a base. -/
def mathLog (inv : Invocation) : Program (List Value) := do
  let x := (← inv.number 1).toFloat
  if inv.lacks 2 then return [floatValue x.log]
  let base := (← inv.number 2).toFloat
  if base == 2 then return [floatValue x.log2]
  if base == 10 then return [floatValue x.log10]
  return [floatValue (x.log / base.log)]

/-- `math.atan`: the angle of a point. -/
def mathAtan (inv : Invocation) : Program (List Value) := do
  let y := (← inv.number 1).toFloat
  let x ← if inv.lacks 2 then pure 1.0 else Num.toFloat <$> inv.number 2
  return [floatValue (Float.atan2 y x)]

/-- The argument that the others do not exceed by a comparison. -/
def extreme (inv : Invocation) (better : Value → Value → Program Bool) (best : Value) (i : Nat) :
    Nat → Program Value
  | 0 => .done best
  | n + 1 => do
    discard (inv.number i)
    let v := inv.arg i
    extreme inv better (if ← better v best then v else best) (i + 1) n

/-- `math.max`. -/
def mathMax (inv : Invocation) : Program (List Value) := do
  discard (inv.number 1)
  let better (v w : Value) := Operation.less .library w v
  return [← extreme inv better (inv.arg 1) 2 (inv.args.length - 1)]

/-- `math.min`. -/
def mathMin (inv : Invocation) : Program (List Value) := do
  discard (inv.number 1)
  return [← extreme inv (Operation.less .library) (inv.arg 1) 2 (inv.args.length - 1)]

/-- `math.tointeger`. -/
def mathTointeger (inv : Invocation) : Program (List Value) := do
  match (inv.arg 1).toNum?.bind Num.toInt? with
  | some i => return [.num (.int i)]
  | none =>
    discard (inv.value 1)
    return [.nil]

/-- `math.type`. -/
def mathType (inv : Invocation) : Program (List Value) := do
  match inv.arg 1 with
  | .num (.int _) => return [.text "integer"]
  | .num (.float _) => return [.text "float"]
  | _ =>
    discard (inv.value 1)
    return [.nil]

/-- `math.ult`: the order of integers read without sign. -/
def mathUlt (inv : Invocation) : Program (List Value) := do
  let i ← inv.integer 1
  let j ← inv.integer 2
  return [.bool (i.toUInt64 < j.toUInt64)]

/-- The next word of the random sequence. -/
def randomWord : Program UInt64 := do
  match ← Program.queryOne .random with
  | .num (.int r) => return r.toUInt64
  | _ => return 0

/-- A word cut to the bits of `mask`, drawn again while it exceeds `n`. Half of the draws
succeed, so the bound is not met. -/
def randomUpTo (n mask word : UInt64) : Nat → Program UInt64
  | 0 => return 0
  | tries + 1 => do
    if word &&& mask ≤ n then return word &&& mask
    randomUpTo n mask (← randomWord) tries

/-- A random integer between two integers. -/
def randomBetween (inv : Invocation) (word : UInt64) (low high : Int64) :
    Program (List Value) := do
  if low > high then inv.wrongText inv.args.length "interval is empty"
  let n := high.toUInt64 - low.toUInt64
  let r ← randomUpTo n (Random.mask n) word 1000
  return [.num (.int (r + low.toUInt64).toInt64)]

/-- `math.random`. -/
def mathRandom (inv : Invocation) : Program (List Value) := do
  let word ← randomWord
  match inv.args.length with
  | 0 => return [floatValue (Random.unit word)]
  | 1 =>
    let high ← inv.integer 1
    if high == 0 then return [.num (.int word.toInt64)]
    randomBetween inv word 1 high
  | 2 =>
    let low ← inv.integer 1
    let high ← inv.integer 2
    randomBetween inv word low high
  | _ => inv.failText "wrong number of arguments"

/-- The integer at or next to a float in the direction of zero; zero if there is none. -/
def truncated (n : Num) : Int64 :=
  match n with
  | .int i => i
  | .float x => (Num.floatToInt? (if x < 0 then x.ceil else x.floor)).getD 0

/-- `math.randomseed`: begins the sequence of a seed, and gives the seed back. -/
def mathRandomseed (inv : Invocation) : Program (List Value) := do
  let (high, low) ← do
    if inv.has 1 then
      let high := truncated (.float (← inv.number 1).toFloat)
      pure (high, ← inv.integerOr 2 0)
    else pure (0, (← randomWord).toInt64)
  discard (Program.query (.seed high.toUInt64 low.toUInt64))
  return [.num (.int high), .num (.int low)]

end ScriptAgent.Script.Library
