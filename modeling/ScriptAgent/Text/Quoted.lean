import ScriptAgent.Text.Classes
import ScriptAgent.Text.Bytes

/-!
# Quoted texts

How texts and byte strings are shown in messages: in single quotes, or in double quotes if the text
holds a single quote and no double one. The quote and the backslash are escaped, tab and line
ends have short escapes, and what is not printable is written by its code.
-/

namespace ScriptAgent.Text

/-- A digit of base sixteen. -/
def hexDigit (n : Nat) : Char := Nat.digitChar n

/-- A number in base sixteen with at least `width` digits. -/
def hexDigits (width n : Nat) : List Char :=
  let ds := Nat.toDigits 16 n
  List.replicate (width - ds.length) '0' ++ ds

/-- The value of a digit of base sixteen. -/
def hexValue? (c : Char) : Option Nat :=
  let n := c.toNat
  if 48 ≤ n && n ≤ 57 then some (n - 48)
  else if 97 ≤ n && n ≤ 102 then some (n - 87)
  else if 65 ≤ n && n ≤ 70 then some (n - 55)
  else none

/-- A character by its code, in the shortest of three forms. -/
def codeEscape (n : Nat) : List Char :=
  if n < 0x100 then '\\' :: 'x' :: hexDigits 2 n
  else if n < 0x10000 then '\\' :: 'u' :: hexDigits 4 n
  else '\\' :: 'U' :: hexDigits 8 n

/-- The quote for a text: single unless only single quotes occur in it. -/
def chooseQuote (single double : Bool) : Char := if single && !double then '"' else '\''

/-- One character of a quoted text. -/
def quoteChar (quote : Char) (c : Char) : List Char :=
  if c = quote || c = '\\' then ['\\', c]
  else if c = '\t' then ['\\', 't']
  else if c = '\n' then ['\\', 'n']
  else if c = '\r' then ['\\', 'r']
  else if isPrintable c then [c]
  else codeEscape c.toNat

/-- A text in quotes. -/
def quoted (s : String) : String :=
  let cs := s.toList
  let quote := chooseQuote (cs.contains '\'') (cs.contains '"')
  String.ofList (quote :: cs.flatMap (quoteChar quote) ++ [quote])

/-- One byte of a quoted byte string; bytes beyond ASCII are written by their code. -/
def quoteByte (quote : Char) (b : UInt8) : List Char :=
  if b.toNat < 127 then quoteChar quote (Char.ofNat b.toNat) else codeEscape b.toNat

/-- A byte string in quotes. -/
def quotedBytes (bs : Bytes) : String :=
  let quote := chooseQuote (bs.contains 39) (bs.contains 34)
  String.ofList ('b' :: quote :: bs.flatMap (quoteByte quote) ++ [quote])

end ScriptAgent.Text
