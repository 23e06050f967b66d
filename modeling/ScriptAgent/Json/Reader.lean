import ScriptAgent.Datum

/-!
# Reading JSON

`Json.parse` reads a text as one JSON value. Besides the standard's values it reads the words for
the floats that are not finite. A numeral without point and exponent is an integer of any
size. A member of an object that occurs twice keeps its first place and its last value.

A text that is no JSON value is refused with its first fault: what was expected, and where.
-/

namespace ScriptAgent.Json

/-- Why a text is no JSON value. -/
inductive Cause where
  | expectingValue
  | extraData
  | unterminatedString
  | controlCharacter
  | invalidEscape
  | invalidCodeEscape
  | expectingComma
  | expectingColon
  | expectingName
  | byteOrderMark
  /-- An integer with more digits than are converted. -/
  | longInteger (digits : Nat)
deriving DecidableEq, Repr

/-- The words for a cause. -/
def Cause.text : Cause → String
  | .expectingValue => "Expecting value"
  | .extraData => "Extra data"
  | .unterminatedString => "Unterminated string starting at"
  | .controlCharacter => "Invalid control character at"
  | .invalidEscape => "Invalid \\escape"
  | .invalidCodeEscape => "Invalid \\uXXXX escape"
  | .expectingComma => "Expecting ',' delimiter"
  | .expectingColon => "Expecting ':' delimiter"
  | .expectingName => "Expecting property name enclosed in double quotes"
  | .byteOrderMark => "Unexpected UTF-8 BOM (decode using utf-8-sig)"
  | .longInteger digits =>
    s!"Exceeds the limit (4300 digits) for integer string conversion: value has {digits} " ++
      "digits; use sys.set_int_max_str_digits() to increase the limit"

/-- A fault, and the number of characters from its place to the end of the text. -/
structure Fault where
  cause : Cause
  left : Nat
deriving DecidableEq, Repr

/-- The end of a reading at a place. -/
def fault {α : Type} (cause : Cause) (rest : List Char) : Except Fault α :=
  .error ⟨cause, rest.length⟩

/-- White space between tokens. -/
def isSpace (c : Char) : Bool := c == ' ' || c == '\t' || c == '\n' || c == '\r'

/-- Drops white space. -/
def skipSpace (cs : List Char) : List Char := cs.dropWhile isSpace

/-! ## Strings -/

/-- The value of four digits of base sixteen. -/
def fourDigits? (a b c d : Char) : Option Nat := do
  return ((← Text.hexValue? a) * 16 + (← Text.hexValue? b)) * 256 + (← Text.hexValue? c) * 16 + (← Text.hexValue? d)

/-- The character that a letter after a backslash stands for. -/
def escaped? (c : Char) : Option Char :=
  match c with
  | '"' => some '"'
  | '\\' => some '\\'
  | '/' => some '/'
  | 'b' => some (Char.ofNat 8)
  | 'f' => some (Char.ofNat 12)
  | 'n' => some '\n'
  | 'r' => some '\r'
  | 't' => some '\t'
  | _ => none

/-- Half of a pair that stands alone is read as a question mark. -/
def loneHalf : Char := '?'

/-- The character with a code, if it is no half of a pair. -/
def ofCode (n : Nat) : Char := if 0xD800 ≤ n && n ≤ 0xDFFF then loneHalf else Char.ofNat n

/-- The character of an escape of two halves, if the second one is the lower one. -/
def ofPair? (high low : Nat) : Option Char :=
  if 0xDC00 ≤ low && low ≤ 0xDFFF then
    some (Char.ofNat (0x10000 + (high - 0xD800) * 0x400 + (low - 0xDC00)))
  else none

/-- Reads the body of a string up to its closing quote; `start` is the string with its opening
quote. -/
def readString (start : List Char) (acc : List Char) :
    List Char → Except Fault (List Char × List Char)
  | [] => fault .unterminatedString start
  | '"' :: rest => .ok (acc.reverse, rest)
  | ['\\'] => fault .unterminatedString start
  | '\\' :: 'u' :: a :: b :: c :: d :: '\\' :: 'u' :: p :: q :: r :: s :: t :: rest =>
    match fourDigits? a b c d, fourDigits? p q r s with
    | none, _ => fault .invalidCodeEscape
      ('u' :: a :: b :: c :: d :: '\\' :: 'u' :: p :: q :: r :: s :: t :: rest)
    | some n, low =>
      if 0xD800 ≤ n && n ≤ 0xDBFF then
        match low with
        | none => fault .invalidCodeEscape ('u' :: p :: q :: r :: s :: t :: rest)
        | some m =>
          match ofPair? n m with
          | some ch => readString start (ch :: acc) (t :: rest)
          | none =>
            readString start (loneHalf :: acc) ('\\' :: 'u' :: p :: q :: r :: s :: t :: rest)
      else readString start (ofCode n :: acc) ('\\' :: 'u' :: p :: q :: r :: s :: t :: rest)
  | '\\' :: 'u' :: a :: b :: c :: d :: e :: rest =>
    match fourDigits? a b c d with
    | none => fault .invalidCodeEscape ('u' :: a :: b :: c :: d :: e :: rest)
    | some n => readString start (ofCode n :: acc) (e :: rest)
  | '\\' :: 'u' :: rest => fault .invalidCodeEscape ('u' :: rest)
  | '\\' :: c :: rest =>
    match escaped? c with
    | some ch => readString start (ch :: acc) rest
    | none => fault .invalidEscape ('\\' :: c :: rest)
  | c :: rest =>
    if c.toNat < 32 then fault .controlCharacter (c :: rest) else readString start (c :: acc) rest
termination_by cs => cs.length

/-! ## Numbers -/

/-- A decimal digit. -/
def isDigit (c : Char) : Bool := 48 ≤ c.toNat && c.toNat ≤ 57

/-- The number that digits denote. -/
def ofDigits (ds : List Char) : Nat := ds.foldl (fun n c => n * 10 + (c.toNat - 48)) 0

/-- The largest number of digits of an integer that is converted. -/
def maxDigits : Nat := 4300

/-- Splits the digits before the point off: no other digit follows a zero at the beginning. -/
def wholeDigits : List Char → List Char × List Char
  | '0' :: rest => (['0'], rest)
  | cs => (cs.takeWhile isDigit, cs.dropWhile isDigit)

/-- Splits the digits after a point off, if there are any. -/
def fractionDigits : List Char → List Char × List Char
  | '.' :: c :: rest =>
    if isDigit c then ((c :: rest).takeWhile isDigit, (c :: rest).dropWhile isDigit)
    else ([], '.' :: c :: rest)
  | cs => ([], cs)

/-- Splits an exponent off, if there is a whole one. -/
def exponentPart : List Char → Option Int × List Char
  | e :: rest =>
    if e == 'e' || e == 'E' then
      let (negative, ds) :=
        match rest with
        | '-' :: ds => (true, ds)
        | '+' :: ds => (false, ds)
        | ds => (false, ds)
      let digits := ds.takeWhile isDigit
      if digits.isEmpty then (none, e :: rest)
      else
        let n : Int := ofDigits digits
        (some (if negative then -n else n), ds.dropWhile isDigit)
    else (none, e :: rest)
  | [] => (none, [])

/-- Reads a number. -/
def readNumber (start : List Char) : Except Fault (Datum × List Char) :=
  let (negative, cs) :=
    match start with
    | '-' :: rest => (true, rest)
    | cs => (false, cs)
  let (whole, rest) := wholeDigits cs
  if whole.isEmpty then fault .expectingValue start
  else
    let (frac, rest₁) := fractionDigits rest
    let (exponent, rest₂) := exponentPart rest₁
    if frac.isEmpty && exponent.isNone then
      if whole.length > maxDigits then .error ⟨.longInteger whole.length, start.length⟩
      else
        let n : Int := ofDigits whole
        .ok (.int (if negative then -n else n), rest)
    else
      let x := Decimal.ofScientific negative (ofDigits (whole ++ frac))
        (exponent.getD 0 - frac.length)
      .ok (.float x, rest₂)

/-! ## Values -/

mutual

/-- Reads a value that begins at once. -/
def readValue : Nat → List Char → Except Fault (Datum × List Char)
  | 0, cs => fault .expectingValue cs
  | fuel + 1, cs =>
    match cs with
    | [] => fault .expectingValue []
    | '"' :: rest => do
      let (s, rest) ← readString cs [] rest
      return (.str (String.ofList s), rest)
    | '{' :: rest =>
      match skipSpace rest with
      | '}' :: rest => .ok (.dict [], rest)
      | rest => readMembers fuel [] rest
    | '[' :: rest =>
      match skipSpace rest with
      | ']' :: rest => .ok (.list [], rest)
      | rest => readItems fuel [] rest
    | 'n' :: 'u' :: 'l' :: 'l' :: rest => .ok (.none, rest)
    | 't' :: 'r' :: 'u' :: 'e' :: rest => .ok (.bool true, rest)
    | 'f' :: 'a' :: 'l' :: 's' :: 'e' :: rest => .ok (.bool false, rest)
    | 'N' :: 'a' :: 'N' :: rest => .ok (.float (0.0 / 0.0), rest)
    | 'I' :: 'n' :: 'f' :: 'i' :: 'n' :: 'i' :: 't' :: 'y' :: rest =>
      .ok (.float (Decimal.infinity false), rest)
    | '-' :: 'I' :: 'n' :: 'f' :: 'i' :: 'n' :: 'i' :: 't' :: 'y' :: rest =>
      .ok (.float (Decimal.infinity true), rest)
    | cs => readNumber cs

/-- Reads the rest of an array from an item on. -/
def readItems : Nat → List Datum → List Char → Except Fault (Datum × List Char)
  | 0, _, cs => fault .expectingValue cs
  | fuel + 1, acc, cs => do
    let (v, rest) ← readValue fuel cs
    match skipSpace rest with
    | ']' :: rest => return (.list (v :: acc).reverse, rest)
    | ',' :: rest => readItems fuel (v :: acc) (skipSpace rest)
    | rest => fault .expectingComma rest

/-- Reads the rest of an object from a member on. -/
def readMembers : Nat → List (Datum × Datum) → List Char → Except Fault (Datum × List Char)
  | 0, _, cs => fault .expectingName cs
  | fuel + 1, acc, cs =>
    match cs with
    | '"' :: rest => do
      let (name, rest) ← readString cs [] rest
      match skipSpace rest with
      | ':' :: rest =>
        let (v, rest) ← readValue fuel (skipSpace rest)
        let acc := (.str (String.ofList name), v) :: acc
        match skipSpace rest with
        | '}' :: rest => return (Datum.ofEntries acc.reverse, rest)
        | ',' :: rest => readMembers fuel acc (skipSpace rest)
        | rest => fault .expectingComma rest
      | rest => fault .expectingColon rest
    | cs => fault .expectingName cs

end

/-- Reads characters as one value with white space around it. -/
def parseChars (cs : List Char) : Except Fault Datum :=
  match cs with
  | '\uFEFF' :: _ => fault .byteOrderMark cs
  | cs => do
    let (v, rest) ← readValue (2 * cs.length + 2) (skipSpace cs)
    match skipSpace rest with
    | [] => return v
    | rest => fault .extraData rest

/-! ## Messages -/

/-- A fault with its place in the text: the line, the column, and the number of characters before
it. -/
structure Located where
  cause : Cause
  line : Nat
  column : Nat
  position : Nat
deriving DecidableEq, Repr

/-- Finds the place of a fault. -/
def Fault.locate (f : Fault) (text : List Char) : Located :=
  let before := text.take (text.length - f.left)
  ⟨f.cause, before.count '\n' + 1, (before.reverse.takeWhile (· != '\n')).length + 1,
    before.length⟩

/-- The message of a fault. -/
def Located.message (f : Located) : String :=
  match f.cause with
  | .longInteger n => (Cause.longInteger n).text
  | cause => s!"{cause.text}: line {f.line} column {f.column} (char {f.position})"

/-- Reads a text as one JSON value. -/
def parse (text : String) : Except Located Datum :=
  let cs := text.toList
  match parseChars cs with
  | .ok v => .ok v
  | .error f => .error (f.locate cs)

end ScriptAgent.Json
