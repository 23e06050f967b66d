import ScriptAgent.Tool.Signature

/-!
# Sums and products of host values

Addition adds numbers and joins sequences of one type; multiplication multiplies numbers and
repeats sequences. Booleans count as numbers. Other operands are a mismatch, and an integer that
has no float is a failure.
-/

namespace ScriptAgent.Tool

/-- A number of the host. -/
inductive Operand where
  | int (i : Int)
  | float (x : Float)

/-- The number that a value is. -/
def operand? : Datum → Option Operand
  | .bool b => some (.int (if b then 1 else 0))
  | .int i => some (.int i)
  | .float x => some (.float x)
  | _ => none

/-- The float nearest to a number, if its size allows one. -/
def Operand.toFloat? : Operand → Option Float
  | .float x => some x
  | .int i =>
    let x := Decimal.ofInt i
    if x.isFinite then some x else none

/-- An operation on two numbers. -/
def combine (onInt : Int → Int → Int) (onFloat : Float → Float → Float) (a b : Operand) : Outcome :=
  match a, b with
  | .int i, .int j => .value (.int (onInt i j))
  | a, b =>
    match a.toFloat?, b.toFloat? with
    | some x, some y => .value (.float (onFloat x y))
    | _, _ => .crashed "int too large to convert to float"

/-- The mismatch of an operator and its operands. -/
def unsupported (operator : String) (d e : Datum) : Outcome :=
  .mismatch s!"unsupported operand type(s) for {operator}: '{d.typeName}' and '{e.typeName}'"

/-- The mismatch of a sequence and what is to be joined to it. -/
def cannotJoin (d e : Datum) : Outcome :=
  let t := d.typeName
  .mismatch s!"can only concatenate {t} (not \"{e.typeName}\") to {t}"

/-- The sum of two values. -/
def sum (d e : Datum) : Outcome :=
  match operand? d, operand? e with
  | some a, some b => combine (· + ·) (· + ·) a b
  | _, _ =>
    match d, e with
    | .str s, .str t => .value (.str (s ++ t))
    | .str _, _ => cannotJoin d e
    | .list xs, .list ys => .value (.list (xs ++ ys))
    | .list _, _ => cannotJoin d e
    | .tuple xs, .tuple ys => .value (.tuple (xs ++ ys))
    | .tuple _, _ => cannotJoin d e
    | .bytes s, .bytes t => .value (.bytes (s ++ t))
    | .bytes _, _ => .mismatch s!"can't concat {e.typeName} to bytes"
    | _, _ => unsupported "+" d e

/-- The largest number of parts of a sequence that is made by repetition. -/
def maxRepetition : Nat := 1 <<< 30

/-- A sequence repeated `n` times; a negative number counts as zero. -/
def repeated {α : Type} (n : Int) (xs : List α) : List α := (List.replicate n.toNat xs).flatten

/-- A sequence repeated as often as another value says. -/
def repetition {α : Type} (xs : List α) (make : List α → Datum) (count : Datum) : Outcome :=
  match count with
  | .bool b => .value (make (repeated (if b then 1 else 0) xs))
  | .int n =>
    if n ≥ 0x8000000000000000 || n < -0x8000000000000000 then
      .crashed "cannot fit 'int' into an index-sized integer"
    else if n.toNat * xs.length > maxRepetition then .crashed ""
    else .value (make (repeated n xs))
  | d => .mismatch s!"can't multiply sequence by non-int of type '{d.typeName}'"

/-- A sequence repeated, if a value is a sequence. -/
def repetition? (d count : Datum) : Option Outcome :=
  match d with
  | .str s => some (repetition s.toList (fun cs => .str (String.ofList cs)) count)
  | .bytes bs => some (repetition bs .bytes count)
  | .list xs => some (repetition xs .list count)
  | .tuple xs => some (repetition xs .tuple count)
  | _ => none

/-- The product of two values. -/
def product (d e : Datum) : Outcome :=
  match operand? d, operand? e with
  | some a, some b => combine (· * ·) (· * ·) a b
  | _, _ =>
    match repetition? d e with
    | some outcome => outcome
    | none =>
      match repetition? e d with
      | some outcome => outcome
      | none => unsupported "*" d e

end ScriptAgent.Tool
