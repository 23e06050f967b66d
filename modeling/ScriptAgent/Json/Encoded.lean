import ScriptAgent.Json.Reader
import ScriptAgent.Text.Charset

/-!
# JSON in bytes

`Json.parseBytes` reads bytes as one JSON value. The bytes do not say in which form of Unicode they
are; as a JSON text begins with two characters of ASCII, the places of zeros among the first
bytes tell it.

Bytes that are no text are refused with their first defect. Half a pair on its own counts as text,
as it does in an escape.
-/

namespace ScriptAgent.Json

open Text (Charset)

/-- The character set of a JSON text. -/
def charsetOf (bs : Bytes) : Charset :=
  let begins (mark : Bytes) : Bool := mark.isPrefixOf bs
  if begins [0, 0, 0xFE, 0xFF] || begins [0xFF, 0xFE, 0, 0] then .utf32 none
  else if begins [0xFE, 0xFF] || begins [0xFF, 0xFE] then .utf16 none
  else if begins [0xEF, 0xBB, 0xBF] then .utf8Marked
  else
    match bs with
    | a :: b :: c :: d :: _ =>
      if a = 0 then (if b = 0 then .utf32 (some .highFirst) else .utf16 (some .highFirst))
      else if b = 0 then
        (if c = 0 && d = 0 then .utf32 (some .lowFirst) else .utf16 (some .lowFirst))
      else .utf8
    | [a, b] =>
      if a = 0 then .utf16 (some .highFirst)
      else if b = 0 then .utf16 (some .lowFirst)
      else .utf8
    | _ => .utf8

/-! ## Defects -/

/-- What is wrong with bytes that are no text. -/
inductive Defect where
  | start
  | continuation
  | ending
deriving DecidableEq, Inhabited

/-- The words for a defect. -/
def Defect.text : Defect → String
  | .start => "invalid start byte"
  | .continuation => "invalid continuation byte"
  | .ending => "unexpected end of data"

/-- Bytes that are no text: their place, the first of them, and their number. -/
structure Misfit where
  position : Nat
  byte : UInt8
  count : Nat
  defect : Defect
deriving DecidableEq, Inhabited

/-- The message about bytes that are no text. -/
def Misfit.message (m : Misfit) : String :=
  let reason := m.defect.text
  if m.count = 1 then
    let shown := String.ofList (Text.hexDigits 2 m.byte.toNat)
    s!"'utf-8' codec can't decode byte 0x{shown} in position {m.position}: {reason}"
  else
    let last := m.position + m.count - 1
    s!"'utf-8' codec can't decode bytes in position {m.position}-{last}: {reason}"

/-- The number of bytes of a character with a first byte; zero if it is none. -/
def lengthOf (a : UInt8) : Nat :=
  let n := a.toNat
  if n < 0x80 then 1 else if n < 0xC2 then 0 else if n < 0xE0 then 2 else if n < 0xF0 then 3
  else if n < 0xF5 then 4 else 0

/-- Whether a byte may follow the first one; half a pair may begin. -/
def mayFollow (a b : UInt8) : Bool :=
  Utf8.isContinuation b && (a.toNat != 0xE0 || 0xA0 ≤ b.toNat) &&
    (a.toNat != 0xF0 || 0x90 ≤ b.toNat) && (a.toNat != 0xF4 || b.toNat < 0x90)

/-- The number of bytes, at most `n`, that continue a character. -/
def continuations : Nat → Bytes → Nat
  | n + 1, b :: rest => if Utf8.isContinuation b then continuations n rest + 1 else 0
  | _, _ => 0

/-- The number of bytes after the first one that belong to its character. -/
def following (a : UInt8) (rest : Bytes) : Nat :=
  match rest with
  | b :: rest =>
    if 2 ≤ lengthOf a && mayFollow a b then continuations (lengthOf a - 2) rest + 1 else 0
  | [] => 0

/-- The first bytes that are no text. -/
def misfit? (position : Nat) : Bytes → Option Misfit
  | [] => none
  | a :: rest =>
    if lengthOf a = 0 then some ⟨position, a, 1, .start⟩
    else
      let n := following a rest
      if n + 1 = lengthOf a then misfit? (position + n + 1) (rest.drop n)
      else if n = rest.length then some ⟨position, a, n + 1, .ending⟩
      else some ⟨position, a, n + 1, .continuation⟩
termination_by bs => bs.length
decreasing_by simp only [List.length_drop, List.length_cons]; omega

/-- Replaces halves of pairs by the character that stands for them. -/
def withoutHalves : Bytes → Bytes
  | 0xED :: b :: c :: rest =>
    if 0xA0 ≤ b.toNat then Utf8.encodeChar loneHalf ++ withoutHalves rest
    else 0xED :: b :: c :: withoutHalves rest
  | b :: rest => b :: withoutHalves rest
  | [] => []

/-! ## Reading -/

/-- Why bytes are no JSON value. -/
inductive BytesFault where
  | misfit (m : Misfit)
  | located (f : Located)
deriving DecidableEq

/-- The message of a fault. -/
def BytesFault.message : BytesFault → String
  | .misfit m => m.message
  | .located f => f.message

/-- The text of bytes, or the first of them that are none. -/
def textOfBytes (bs : Bytes) : Except Misfit String :=
  match charsetOf bs with
  | .utf8 | .utf8Marked =>
    let plain := Charset.dropMark bs
    match misfit? 0 plain with
    | some m => .error m
    | none => .ok (Utf8.decode (withoutHalves plain))
  | charset => .ok (String.ofList (charset.decodeChars loneHalf bs))

/-- Reads bytes as one JSON value. -/
def parseBytes (bs : Bytes) : Except BytesFault Datum :=
  match textOfBytes bs with
  | .error m => .error (.misfit m)
  | .ok text =>
    match parse text with
    | .ok d => .ok d
    | .error f => .error (.located f)

end ScriptAgent.Json
