import ScriptAgent.Text.Bytes

/-!
# Bytes in letters

Bytes as letters and digits, four for each three bytes, filled up at the end.
-/

namespace ScriptAgent.Text

/-- The character of a value below 64. -/
def letter64 (n : Nat) : Char :=
  if n < 26 then Char.ofNat (65 + n)
  else if n < 52 then Char.ofNat (71 + n)
  else if n < 62 then Char.ofNat (n - 4)
  else if n = 62 then '+'
  else '/'

/-- Bytes as letters. -/
def base64 : Bytes → List Char
  | a :: b :: c :: rest =>
    let n := a.toNat * 65536 + b.toNat * 256 + c.toNat
    letter64 (n / 262144) :: letter64 (n / 4096 % 64) :: letter64 (n / 64 % 64) ::
      letter64 (n % 64) :: base64 rest
  | [a, b] =>
    let n := a.toNat * 1024 + b.toNat * 4
    [letter64 (n / 4096), letter64 (n / 64 % 64), letter64 (n % 64), '=']
  | [a] =>
    let n := a.toNat * 16
    [letter64 (n / 64), letter64 (n % 64), '=', '=']
  | [] => []

end ScriptAgent.Text
