import ScriptAgent.Text.Blank
import ScriptAgent.Text.Bytes

/-!
# Character sets

The ways in which the bytes of a message stand for characters. Reading is lenient: what stands for
no character is read as the replacement character.
-/

namespace ScriptAgent.Text

/-- The order of the bytes of a unit. -/
inductive ByteOrder where
  | lowFirst | highFirst
deriving DecidableEq, Inhabited

/-- A character set. -/
inductive Charset where
  | utf8
  /-- With a mark at the beginning that is passed over. -/
  | utf8Marked
  | ascii
  | latin1
  | latin9
  | windows1252
  /-- Without a byte order, the one that the text begins with is taken, or else the low byte is
  first. -/
  | utf16 (order : Option ByteOrder)
  | utf32 (order : Option ByteOrder)
deriving DecidableEq, Inhabited

namespace Charset

/-! ## Names -/

/-- The names of character sets in their plain form. -/
def names : List (String × Charset) := [
  ("utf_8", .utf8), ("utf8", .utf8), ("u8", .utf8), ("utf", .utf8), ("cp65001", .utf8),
  ("utf8_ucs2", .utf8), ("utf8_ucs4", .utf8), ("utf_8_sig", .utf8Marked),
  ("ascii", .ascii), ("us_ascii", .ascii), ("646", .ascii), ("ansi_x3.4_1968", .ascii),
  ("iso646_us", .ascii), ("iso_646.irv_1991", .ascii), ("us", .ascii), ("cp367", .ascii),
  ("ibm367", .ascii), ("iso_ir_6", .ascii),
  ("latin_1", .latin1), ("latin1", .latin1), ("l1", .latin1), ("latin", .latin1),
  ("iso_8859_1", .latin1), ("iso8859_1", .latin1), ("iso8859", .latin1), ("8859", .latin1),
  ("cp819", .latin1), ("ibm819", .latin1), ("iso_ir_100", .latin1),
  ("iso_8859_15", .latin9), ("iso8859_15", .latin9), ("latin9", .latin9), ("l9", .latin9),
  ("cp1252", .windows1252), ("windows_1252", .windows1252), ("1252", .windows1252),
  ("utf_16", .utf16 none), ("utf16", .utf16 none), ("u16", .utf16 none),
  ("utf_16_le", .utf16 (some .lowFirst)), ("utf_16le", .utf16 (some .lowFirst)),
  ("unicodelittleunmarked", .utf16 (some .lowFirst)),
  ("utf_16_be", .utf16 (some .highFirst)), ("utf_16be", .utf16 (some .highFirst)),
  ("unicodebigunmarked", .utf16 (some .highFirst)),
  ("utf_32", .utf32 none), ("utf32", .utf32 none), ("u32", .utf32 none),
  ("utf_32_le", .utf32 (some .lowFirst)), ("utf_32le", .utf32 (some .lowFirst)),
  ("utf_32_be", .utf32 (some .highFirst)), ("utf_32be", .utf32 (some .highFirst))]

/-- The plain form of a name: in lower case, each run of other characters than letters, digits and
points as one low line. -/
def plainName : List Char → List Char
  | [] => []
  | c :: rest =>
    if c.isAlphanum || c = '.' then c.toLower :: plainName rest
    else
      match plainName rest with
      | '_' :: more => '_' :: more
      | more => '_' :: more

/-- The character set of a name. -/
def ofName? (name : String) : Option Charset :=
  names.lookup (String.ofList (plainName name.toList))

/-! ## One byte for each character -/

/-- The characters of the bytes from 128 to 159 that differ from those of the same codes. -/
def windowsCodes : List Nat := [
  0x20AC, 0xFFFD, 0x201A, 0x0192, 0x201E, 0x2026, 0x2020, 0x2021, 0x02C6, 0x2030, 0x0160, 0x2039,
  0x0152, 0xFFFD, 0x017D, 0xFFFD, 0xFFFD, 0x2018, 0x2019, 0x201C, 0x201D, 0x2022, 0x2013, 0x2014,
  0x02DC, 0x2122, 0x0161, 0x203A, 0x0153, 0xFFFD, 0x017E, 0x0178]

/-- The bytes whose characters differ in the newer set for western scripts. -/
def latin9Codes : List (Nat × Nat) := [
  (0xA4, 0x20AC), (0xA6, 0x160), (0xA8, 0x161), (0xB4, 0x17D), (0xB8, 0x17E), (0xBC, 0x152),
  (0xBD, 0x153), (0xBE, 0x178)]

/-- The character of a byte of ASCII. -/
def asciiChar (b : UInt8) : Char :=
  if b.toNat < 0x80 then Char.ofNat b.toNat else Utf8.replacement

/-- The character of a byte in the newer set for western scripts. -/
def latin9Char (b : UInt8) : Char := Char.ofNat ((latin9Codes.lookup b.toNat).getD b.toNat)

/-- The character of a byte in the set of windows. -/
def windowsChar (b : UInt8) : Char :=
  if 0x80 ≤ b.toNat && b.toNat < 0xA0 then Char.ofNat (windowsCodes.getD (b.toNat - 0x80) 0xFFFD)
  else Char.ofNat b.toNat

/-! ## Units of several bytes -/

/-- The value of the bytes of a unit. -/
def unit (order : ByteOrder) (bs : Bytes) : Nat :=
  let digits := match order with
    | .highFirst => bs
    | .lowFirst => bs.reverse
  digits.foldl (fun n b => n * 256 + b.toNat) 0

/-- The units of two bytes; a byte that is left over is no unit. -/
def units16 (order : ByteOrder) : Bytes → List (Option Nat)
  | a :: b :: rest => some (unit order [a, b]) :: units16 order rest
  | [_] => [none]
  | [] => []

/-- The units of four bytes; bytes that are left over are no unit. -/
def units32 (order : ByteOrder) : Bytes → List (Option Nat)
  | a :: b :: c :: d :: rest => some (unit order [a, b, c, d]) :: units32 order rest
  | [] => []
  | _ => [none]

/-- Whether a unit is the upper half of a pair. -/
def isHigh (n : Nat) : Bool := 0xD800 ≤ n && n < 0xDC00

/-- Whether a unit is the lower half of a pair. -/
def isLow (n : Nat) : Bool := 0xDC00 ≤ n && n < 0xE000

/-- The characters of units of two bytes; `lone` stands for a half without the other one. -/
def pairChars (lone : Char) : List (Option Nat) → List Char
  | some m :: some n :: rest =>
    if isHigh m && isLow n then
      Char.ofNat (0x10000 + (m - 0xD800) * 0x400 + (n - 0xDC00)) :: pairChars lone rest
    else (if isHigh m || isLow m then lone else Char.ofNat m) :: pairChars lone (some n :: rest)
  | some m :: rest =>
    (if isHigh m || isLow m then lone else Char.ofNat m) :: pairChars lone rest
  | none :: rest => Utf8.replacement :: pairChars lone rest
  | [] => []

/-- The character of a unit of four bytes. -/
def codeChar (lone : Char) : Option Nat → Char
  | some n =>
    if isHigh n || isLow n then lone
    else if n < 0x110000 then Char.ofNat n
    else Utf8.replacement
  | none => Utf8.replacement

/-- The byte order of units of two bytes, and the bytes without the mark that tells it. -/
def order16 (bs : Bytes) : ByteOrder × Bytes :=
  match bs with
  | 0xFF :: 0xFE :: rest => (.lowFirst, rest)
  | 0xFE :: 0xFF :: rest => (.highFirst, rest)
  | bs => (.lowFirst, bs)

/-- The byte order of units of four bytes, and the bytes without the mark that tells it. -/
def order32 (bs : Bytes) : ByteOrder × Bytes :=
  match bs with
  | 0xFF :: 0xFE :: 0 :: 0 :: rest => (.lowFirst, rest)
  | 0 :: 0 :: 0xFE :: 0xFF :: rest => (.highFirst, rest)
  | bs => (.lowFirst, bs)

/-- Drops the mark at the beginning of a text in UTF-8. -/
def dropMark (bs : Bytes) : Bytes :=
  match bs with
  | 0xEF :: 0xBB :: 0xBF :: rest => rest
  | bs => bs

/-! ## Reading -/

/-- The characters of bytes; `lone` stands for half a pair in units of several bytes. -/
def decodeChars (lone : Char) (c : Charset) (bs : Bytes) : List Char :=
  match c with
  | .utf8 => Utf8.decodeChars bs
  | .utf8Marked => Utf8.decodeChars (dropMark bs)
  | .ascii => bs.map asciiChar
  | .latin1 => bs.map fun b => Char.ofNat b.toNat
  | .latin9 => bs.map latin9Char
  | .windows1252 => bs.map windowsChar
  | .utf16 (some order) => pairChars lone (units16 order bs)
  | .utf16 none =>
    let (order, bs) := order16 bs
    pairChars lone (units16 order bs)
  | .utf32 (some order) => (units32 order bs).map (codeChar lone)
  | .utf32 none =>
    let (order, bs) := order32 bs
    (units32 order bs).map (codeChar lone)

/-- The text of bytes. -/
def decode (c : Charset) (bs : Bytes) : String :=
  String.ofList (c.decodeChars Utf8.replacement bs)

end Charset

end ScriptAgent.Text
