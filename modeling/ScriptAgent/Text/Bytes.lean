/-!
# Byte strings

Script strings are arbitrary byte strings, the host's texts are sequences of characters. This
module fixes both readings between them:

* `Utf8.encode` writes a text as its UTF-8 bytes;
* `Utf8.decode` reads bytes leniently: every maximal part of the input that begins a
  character and cannot be completed is read as one replacement character, so decoding is
  total and the rest of the input is still read;
* `Bytes.latin1` reads each byte as the character of that code.

`Utf8.encodeChar` and `Utf8.decode` are written in arithmetic on code points rather than in
shifts and masks, which is the form in which their laws are stated.
-/

namespace ScriptAgent

/-- A string of bytes: the strings of the script language and the bodies of messages. -/
abbrev Bytes := List UInt8

/-! ## Writing characters -/

namespace Utf8

/-- The byte with the value `n`, for `n` below 256. -/
def byte (n : Nat) : UInt8 := UInt8.ofNat n

/-- The one to four bytes of a character. -/
def encodeChar (c : Char) : Bytes :=
  let n := c.toNat
  if n < 0x80 then [byte n]
  else if n < 0x800 then [byte (0xC0 + n / 64), byte (0x80 + n % 64)]
  else if n < 0x10000 then
    [byte (0xE0 + n / 4096), byte (0x80 + n / 64 % 64), byte (0x80 + n % 64)]
  else
    [byte (0xF0 + n / 262144), byte (0x80 + n / 4096 % 64), byte (0x80 + n / 64 % 64),
      byte (0x80 + n % 64)]

/-- The bytes of a sequence of characters. -/
def encodeChars (cs : List Char) : Bytes := cs.flatMap encodeChar

/-- The bytes of a text. -/
def encode (s : String) : Bytes := encodeChars s.toList

/-! ## Reading characters -/

/-- The character that stands for bytes that are no character. -/
def replacement : Char := Char.ofNat 0xFFFD

/-- A byte that continues a character. -/
def isContinuation (b : UInt8) : Bool := 0x80 ≤ b.toNat && b.toNat < 0xC0

/-- Whether `b` may be the second byte of a character of three bytes that begins with `a`:
no overlong form, no surrogate. -/
def isSecondOfThree (a b : UInt8) : Bool :=
  isContinuation b && (a.toNat != 0xE0 || 0xA0 ≤ b.toNat) && (a.toNat != 0xED || b.toNat < 0xA0)

/-- Whether `b` may be the second byte of a character of four bytes that begins with `a`:
no overlong form, nothing beyond the last code point. -/
def isSecondOfFour (a b : UInt8) : Bool :=
  isContinuation b && (a.toNat != 0xF0 || 0x90 ≤ b.toNat) && (a.toNat != 0xF4 || b.toNat < 0x90)

/-- The payload of a continuation byte. -/
def low (b : UInt8) : Nat := b.toNat - 0x80

/-- Reads bytes as characters; what is no character is read as the replacement character,
one for each maximal part that begins a character. -/
def decodeChars : Bytes → List Char
  | [] => []
  | a :: rest =>
    if a.toNat < 0x80 then Char.ofNat a.toNat :: decodeChars rest
    else if a.toNat < 0xC2 then replacement :: decodeChars rest
    else if a.toNat < 0xE0 then
      match rest with
      | [] => [replacement]
      | b :: rest₁ =>
        if isContinuation b then
          Char.ofNat ((a.toNat - 0xC0) * 64 + low b) :: decodeChars rest₁
        else replacement :: decodeChars (b :: rest₁)
    else if a.toNat < 0xF0 then
      match rest with
      | [] => [replacement]
      | [b] =>
        if isSecondOfThree a b then [replacement] else replacement :: decodeChars [b]
      | b :: c :: rest₂ =>
        if isSecondOfThree a b then
          if isContinuation c then
            Char.ofNat ((a.toNat - 0xE0) * 4096 + low b * 64 + low c) :: decodeChars rest₂
          else replacement :: decodeChars (c :: rest₂)
        else replacement :: decodeChars (b :: c :: rest₂)
    else if a.toNat < 0xF5 then
      match rest with
      | [] => [replacement]
      | [b] =>
        if isSecondOfFour a b then [replacement] else replacement :: decodeChars [b]
      | [b, c] =>
        if isSecondOfFour a b then
          if isContinuation c then [replacement] else replacement :: decodeChars [c]
        else replacement :: decodeChars [b, c]
      | b :: c :: d :: rest₃ =>
        if isSecondOfFour a b then
          if isContinuation c then
            if isContinuation d then
              Char.ofNat ((a.toNat - 0xF0) * 262144 + low b * 4096 + low c * 64 + low d)
                :: decodeChars rest₃
            else replacement :: decodeChars (d :: rest₃)
          else replacement :: decodeChars (c :: d :: rest₃)
        else replacement :: decodeChars (b :: c :: d :: rest₃)
    else replacement :: decodeChars rest
termination_by bs => bs.length

/-- Reads bytes as a text, leniently. -/
def decode (bs : Bytes) : String := String.ofList (decodeChars bs)

end Utf8

/-! ## Other readings -/

namespace Bytes

/-- Reads each byte as the character of that code. -/
def latin1 (bs : Bytes) : String := String.ofList (bs.map fun b => Char.ofNat b.toNat)

/-- The bytes of an ASCII text; used for the fixed words of the script language. -/
def ofAscii (s : String) : Bytes := s.toList.map fun c => Utf8.byte c.toNat

/-- The bytes before the first NUL. -/
def beforeNul (bs : Bytes) : Bytes := bs.takeWhile (· != 0)

end Bytes

end ScriptAgent
