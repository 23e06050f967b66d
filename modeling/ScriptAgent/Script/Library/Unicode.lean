import ScriptAgent.Script.Library.Argument
import ScriptAgent.Script.Token

/-!
# Functions on encoded characters

Strings read as sequences of characters of one to six bytes. Unless a call is lax, a character is
a code point that is no surrogate and not beyond the last one.
-/

namespace ScriptAgent.Script.Library

open Invocation

/-- The pattern that matches one character. -/
def charPattern : Bytes :=
  [91, 0, 45, 0x7F, 0xC2, 45, 0xFD, 93, 91, 0x80, 45, 0xBF, 93, 42]

/-- The error of bytes that are no character. -/
def invalidCharacter : String := "invalid UTF-8 code"

/-- A place counted from one, or back from the end; zero if it lies before the start. -/
def relativePlace (i : Int64) (length : Nat) : Int :=
  if i ≥ 0 then i.toInt else if -i.toInt > length then 0 else length + i.toInt + 1

/-- Whether a byte that is there continues a character. -/
def continues (bs : Bytes) : Bool := bs.head?.any Utf8.isContinuation

/-- The value of `n` continuation bytes after the bits that are known. -/
def continuation (value : Nat) : Nat → Bytes → Option (Nat × Bytes)
  | 0, rest => some (value, rest)
  | n + 1, b :: rest =>
    if Utf8.isContinuation b then continuation (value * 64 + (b.toNat - 0x80)) n rest else none
  | _ + 1, [] => none

/-- The least code points of characters of two and more bytes. -/
def leastOfLength (extra : Nat) : Nat :=
  match extra with
  | 0 => 0
  | 1 => 0x80
  | 2 => 0x800
  | 3 => 0x10000
  | 4 => 0x200000
  | _ => 0x4000000

/-- The first character of a string and the rest of it. -/
def firstCharacter? (lax : Bool) : Bytes → Option (Nat × Bytes)
  | [] => none
  | a :: rest =>
    let n := a.toNat
    let start : Option (Nat × Nat) :=
      if n < 0x80 then some (0, n)
      else if n < 0xC0 then none
      else if n < 0xE0 then some (1, n - 0xC0)
      else if n < 0xF0 then some (2, n - 0xE0)
      else if n < 0xF8 then some (3, n - 0xF0)
      else if n < 0xFC then some (4, n - 0xF8)
      else if n < 0xFE then some (5, n - 0xFC)
      else none
    match start with
    | none => none
    | some (extra, bits) =>
      match continuation bits extra rest with
      | none => none
      | some (c, rest) =>
        if c < leastOfLength extra then none
        else if !lax && (c > 0x10FFFF || (0xD800 ≤ c && c ≤ 0xDFFF)) then none
        else some (c, rest)

/-- The bytes of `utf8.char`. -/
def characterBytes (inv : Invocation) (i : Nat) : Nat → Program Bytes
  | 0 => .done []
  | n + 1 => do
    let c ← inv.integer i
    if c.toUInt64.toNat > 0x7FFFFFFF then inv.wrongText i "value out of range"
    return Token.utf8Extended c.toInt.toNat ++ (← characterBytes inv (i + 1) n)

/-- `utf8.char`. -/
def utf8Char (inv : Invocation) : Program (List Value) := do
  return [.str (← characterBytes inv 1 inv.args.length)]

/-- The characters that begin in the first `n` bytes. -/
def codepoints (inv : Invocation) (lax : Bool) (n : Nat) (bs : Bytes) :
    Nat → Program (List Value)
  | 0 => .done []
  | fuel + 1 => do
    if n = 0 then return []
    match firstCharacter? lax bs with
    | none => inv.failText invalidCharacter
    | some (c, rest) =>
      return .int c :: (← codepoints inv lax (n - (bs.length - rest.length)) rest fuel)

/-- `utf8.codepoint`. -/
def utf8Codepoint (inv : Invocation) : Program (List Value) := do
  let s ← inv.bytes 1
  let first := relativePlace (← inv.integerOr 2 1) s.length
  let last := relativePlace (← inv.integerOr 3 (Int64.ofInt first)) s.length
  if first < 1 then inv.wrongText 2 "out of bounds"
  if last > s.length then inv.wrongText 3 "out of bounds"
  if first > last then return []
  codepoints inv (inv.arg 4).truthy (last - first + 1).toNat (s.drop (first.toNat - 1)) s.length

/-- Counts the characters that begin in the first `n` bytes; fails at the place of what is none. -/
def countCharacters (lax : Bool) (place n count : Nat) (bs : Bytes) : Nat → List Value
  | 0 => [.int count]
  | fuel + 1 =>
    if n = 0 then [.int count]
    else
      match firstCharacter? lax bs with
      | none => [.nil, .int place]
      | some (_, rest) =>
        let size := bs.length - rest.length
        countCharacters lax (place + size) (n - size) (count + 1) rest fuel

/-- `utf8.len`. -/
def utf8Len (inv : Invocation) : Program (List Value) := do
  let s ← inv.bytes 1
  let first := relativePlace (← inv.integerOr 2 1) s.length
  let last := relativePlace (← inv.integerOr 3 (-1)) s.length
  if first < 1 || first - 1 > s.length then
    inv.wrongText 2 "initial position out of bounds"
  if last > s.length then inv.wrongText 3 "final position out of bounds"
  return countCharacters (inv.arg 4).truthy first.toNat (last - first + 1).toNat 0
    (s.drop (first.toNat - 1)) (s.length + 1)

/-- The place before a place at which a character begins. -/
def characterBefore (s : Array UInt8) : Nat → Nat
  | 0 => 0
  | p + 1 => if p = 0 || !Utf8.isContinuation (s.getD p 0) then p else characterBefore s p

/-- The first place from a place on at which no character goes on. -/
def characterFrom (s : Array UInt8) (p : Nat) : Nat → Nat
  | 0 => p
  | fuel + 1 =>
    if p < s.size && Utf8.isContinuation (s.getD p 0) then characterFrom s (p + 1) fuel else p

/-- Moves back over characters: the place and the number of those that are left. -/
def moveBack (s : Array UInt8) (p : Nat) : Nat → Nat × Nat
  | 0 => (p, 0)
  | n + 1 => if p = 0 then (p, n + 1) else moveBack s (characterBefore s p) n

/-- Moves on over characters: the place and the number of those that are left. -/
def moveOn (s : Array UInt8) (p : Nat) : Nat → Nat × Nat
  | 0 => (p, 0)
  | n + 1 => if p ≥ s.size then (p, n + 1) else moveOn s (characterFrom s (p + 1) s.size) n

/-- `utf8.offset`: the first and the last place of a character. -/
def utf8Offset (inv : Invocation) : Program (List Value) := do
  let bs ← inv.bytes 1
  let s := bs.toArray
  let n ← inv.integer 2
  let start : Int64 := if n > 0 then 1 else Int64.ofNat (s.size + 1)
  let place := relativePlace (← inv.integerOr 3 start) s.size - 1
  if place < 0 || place > s.size then inv.wrongText 3 "position out of bounds"
  let p := place.toNat
  let onContinuation := p < s.size && Utf8.isContinuation (s.getD p 0)
  if n != 0 && onContinuation then inv.failText "initial position is a continuation byte"
  let (p, left) :=
    if n == 0 then (if onContinuation then characterBefore s p else p, 0)
    else if n < 0 then moveBack s p (min (-n.toInt).toNat (s.size + 1))
    else moveOn s p (min (n.toInt - 1).toNat (s.size + 1))
  if left != 0 then return [.nil]
  let head := s.getD p 0
  if head.toNat ≥ 0x80 && p < s.size then
    if Utf8.isContinuation head then inv.failText "initial position is a continuation byte"
    return [.int (p + 1 : Nat), .int (characterFrom s (p + 1) s.size)]
  return [.int (p + 1 : Nat), .int (p + 1 : Nat)]

/-- `utf8.codes`: what a loop over the characters of a string needs. -/
def utf8Codes (inv : Invocation) : Program (List Value) := do
  let s ← inv.bytes 1
  if continues s then inv.wrongText 1 invalidCharacter
  let step := if (inv.arg 2).truthy then Native.codesStepLax else Native.codesStep
  return [.native step, .str s, .int 0]

/-- One round of a loop over characters. -/
def codesStep (lax : Bool) (inv : Invocation) : Program (List Value) := do
  let s ← inv.bytes 1
  let n := (inv.arg 2).toNum?.bind Num.toInt? |>.getD 0
  let p := n.toUInt64.toNat
  if p ≥ s.length then return []
  let rest := (s.drop p).dropWhile Utf8.isContinuation
  let place := s.length - rest.length
  if rest.isEmpty then return []
  match firstCharacter? lax rest with
  | none => inv.failText invalidCharacter
  | some (c, more) =>
    if continues more then inv.failText invalidCharacter
    return [.int (place + 1 : Nat), .int c]

end ScriptAgent.Script.Library
