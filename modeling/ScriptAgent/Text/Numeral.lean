import ScriptAgent.Text.Blank

/-!
# Integers in texts

The texts that denote integers: digits of any script, single low lines between them, a sign, and
white space around everything.
-/

namespace ScriptAgent.Text

/-- The digits zero of all scripts; in each script the other digits follow in order. -/
def zeros : List Nat := [
  48, 1632, 1776, 1984, 2406, 2534, 2662, 2790, 2918, 3046, 3174, 3302, 3430, 3558, 3664, 3792,
  3872, 4160, 4240, 6112, 6160, 6470, 6608, 6784, 6800, 6992, 7088, 7232, 7248, 42528, 43216,
  43264, 43472, 43504, 43600, 44016, 65296, 66720, 68912, 69734, 69872, 69942, 70096, 70384,
  70736, 70864, 71248, 71360, 71472, 71904, 72016, 72784, 73040, 73120, 92768, 92864, 93008,
  120782, 120792, 120802, 120812, 120822, 123200, 123632, 125264, 130032]

/-- The value of a digit. -/
def digit? (c : Char) : Option Nat :=
  (zeros.find? fun z => z ≤ c.toNat && c.toNat < z + 10).map (c.toNat - ·)

/-- Reads digits after the value `n`; a low line has to have a digit on both sides. -/
def readDigits (n : Nat) : List Char → Option Nat
  | [] => some n
  | '_' :: c :: rest => (digit? c).bind fun d => readDigits (n * 10 + d) rest
  | c :: rest => (digit? c).bind fun d => readDigits (n * 10 + d) rest

/-- The largest number of digits that is converted. -/
def maxDigits : Nat := 4300

/-- The number that a text of digits denotes. -/
def natural? (cs : List Char) : Option Nat :=
  if cs.countP (· != '_') > maxDigits then none
  else
    match cs with
    | [] => none
    | c :: rest => (digit? c).bind fun d => readDigits d rest

/-- The integer that a text denotes. -/
def integer? (s : String) : Option Int :=
  match stripChars s.toList with
  | '-' :: ds => (natural? ds).map fun (n : Nat) => -(n : Int)
  | '+' :: ds => (natural? ds).map Int.ofNat
  | ds => (natural? ds).map Int.ofNat

end ScriptAgent.Text
