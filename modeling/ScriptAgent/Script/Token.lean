import ScriptAgent.Script.Number

/-!
# Tokens of scripts

`Token.scan` splits a script into tokens. A token keeps the line that the scan has reached at
its end and its text as messages show it. The scan stops at the first fault; a fault is the
last token of the list, so it is reported only when the parser gets to it and an earlier
fault of the parser wins.
-/

namespace ScriptAgent.Script

/-- What a token is. -/
inductive TokenKind where
  | name (s : Bytes)
  | string (s : Bytes)
  | number (n : Num)
  /-- A keyword, an operator or any other character. -/
  | symbol (s : Bytes)
  | eof
  /-- No token can be read: the message, without its position. -/
  | fault (message : Bytes)
deriving DecidableEq, Inhabited

/-- A token, the line at its end, and its text in messages. -/
structure Token where
  kind : TokenKind
  line : Nat
  text : Bytes
deriving DecidableEq, Inhabited

namespace Token

/-! ## Words and operators -/

/-- The reserved words. -/
def keywords : List Bytes :=
  ["and", "break", "do", "else", "elseif", "end", "false", "for", "function", "goto", "if",
    "in", "local", "nil", "not", "or", "repeat", "return", "then", "true", "until",
    "while"].map Bytes.ofAscii

/-- The operators of more than one character, longest first. -/
def operators : List Bytes :=
  ["...", "..", "==", ">=", "<=", "~=", "<<", ">>", "//", "::"].map Bytes.ofAscii

/-- A letter or an underscore. -/
def isNameStart (b : UInt8) : Bool :=
  b == 95 || (97 ≤ b.toNat && b.toNat ≤ 122) || (65 ≤ b.toNat && b.toNat ≤ 90)

/-- A character inside a name. -/
def isNameChar (b : UInt8) : Bool := isNameStart b || Num.isDigit b

/-- A character that messages show as itself. -/
def isPrintable (b : UInt8) : Bool := 32 ≤ b.toNat && b.toNat ≤ 126

/-- Quotes a token's text for a message; the text ends at its first NUL. -/
def quote (s : Bytes) : Bytes := 39 :: s.beforeNul ++ [39]

/-- The text of a symbol in a message. -/
def symbolText (s : Bytes) : Bytes :=
  match s with
  | [b] =>
    if isPrintable b then quote s
    else Bytes.ofAscii "'<\\" ++ Bytes.ofAscii (toString b.toNat) ++ Bytes.ofAscii ">'"
  | _ => quote s

/-- The text of the end of a script in messages. -/
def eofText : Bytes := Bytes.ofAscii "<eof>"

/-- The message of a fault near a text. -/
def faultMessage (message : String) (near : Bytes) : TokenKind :=
  .fault (Bytes.ofAscii message ++ Bytes.ofAscii " near " ++ near)

/-! ## Lines -/

/-- A line break character. -/
def isNewline (b : UInt8) : Bool := b == 10 || b == 13

/-- The rest after a line break; two different break characters in a row are one break. -/
def afterNewline : Bytes → Bytes
  | a :: b :: rest => if isNewline b && a != b then rest else b :: rest
  | [_] => []
  | [] => []

/-! ## Long brackets -/

/-- The level of a long bracket that opens after its first `[`, and the rest after its second
one. -/
def longOpen? (bs : Bytes) : Option (Nat × Bytes) :=
  match bs.dropWhile (· == 61) with
  | 91 :: rest => some ((bs.takeWhile (· == 61)).length, rest)
  | _ => none

/-- Whether a long bracket of a level closes here (after its first `]`), and the rest. -/
def longClose? (level : Nat) (bs : Bytes) : Option Bytes :=
  if (bs.takeWhile (· == 61)).length = level then
    match bs.dropWhile (· == 61) with
    | 93 :: rest => some rest
    | _ => none
  else none

/-- Reads the inside of a long bracket: its contents, the line and the rest at its end. The
contents are collected in reverse. -/
def longBody (level : Nat) (line : Nat) (acc : Bytes) : Nat → Bytes →
    Option (Bytes × Nat × Bytes)
  | 0, _ => none
  | _, [] => none
  | fuel + 1, b :: rest =>
    if b == 93 then
      match longClose? level rest with
      | some after => some (acc.reverse, line, after)
      | none => longBody level line (b :: acc) fuel rest
    else if isNewline b then
      longBody level (line + 1) (10 :: acc) fuel (afterNewline (b :: rest))
    else longBody level line (b :: acc) fuel rest

/-- The contents of a long bracket; a line break right after its opening is no part of them. -/
def longString (level line : Nat) (bs : Bytes) : Option (Bytes × Nat × Bytes) :=
  match bs with
  | b :: _ =>
    if isNewline b then longBody level (line + 1) [] (bs.length + 1) (afterNewline bs)
    else longBody level line [] (bs.length + 1) bs
  | [] => none

/-! ## Quoted strings -/

/-- The bytes of a code point up to 31 bits, in the extended form of UTF-8. -/
def utf8Extended (n : Nat) : Bytes :=
  let tail (k : Nat) : UInt8 := Utf8.byte (0x80 + (n >>> (6 * k)) % 64)
  if n < 0x80 then [Utf8.byte n]
  else if n < 0x800 then [Utf8.byte (0xC0 + n / 64), tail 0]
  else if n < 0x10000 then [Utf8.byte (0xE0 + (n >>> 12)), tail 1, tail 0]
  else if n < 0x200000 then [Utf8.byte (0xF0 + (n >>> 18)), tail 2, tail 1, tail 0]
  else if n < 0x4000000 then
    [Utf8.byte (0xF8 + (n >>> 24)), tail 3, tail 2, tail 1, tail 0]
  else [Utf8.byte (0xFC + (n >>> 30)), tail 4, tail 3, tail 2, tail 1, tail 0]

/-- The result of reading an escape: what it stands for and the rest, or a message and how much
of the text after the backslash it concerns. -/
inductive Escape where
  | done (value : Bytes) (rest : Bytes)
  | wrong (message : String) (seen : Nat)

/-- The escapes of one letter. -/
def simpleEscape? (b : UInt8) : Option UInt8 :=
  match b.toNat with
  | 97 => some 7
  | 98 => some 8
  | 102 => some 12
  | 110 => some 10
  | 114 => some 13
  | 116 => some 9
  | 118 => some 11
  | 92 => some 92
  | 34 => some 34
  | 39 => some 39
  | _ => none

/-- Two hexadecimal digits. -/
def hexEscape (bs : Bytes) : Escape :=
  match bs with
  | a :: b :: rest =>
    match Num.hexValue? a, Num.hexValue? b with
    | some x, some y => .done [Utf8.byte (x * 16 + y)] rest
    | none, _ => .wrong "hexadecimal digit expected" 2
    | _, none => .wrong "hexadecimal digit expected" 3
  | [_] => .wrong "hexadecimal digit expected" 2
  | [] => .wrong "hexadecimal digit expected" 1

/-- The digits of a code point in braces: `value` so far, `seen` characters of the escape. -/
def codePointDigits (value seen : Nat) : Bytes → Escape
  | [] => .wrong "missing '\x7d'" seen
  | b :: rest =>
    match Num.hexValue? b with
    | some d =>
      if value > 0x7FFFFFF then .wrong "UTF-8 value too large" (seen + 1)
      else codePointDigits (value * 16 + d) (seen + 1) rest
    | none =>
      if b == 125 then .done (utf8Extended value) rest
      else .wrong "missing '\x7d'" (seen + 1)

/-- A code point in braces. -/
def codePointEscape (bs : Bytes) : Escape :=
  match bs with
  | 123 :: d :: rest =>
    match Num.hexValue? d with
    | some v => codePointDigits v 3 rest
    | none => .wrong "hexadecimal digit expected" 3
  | [123] => .wrong "hexadecimal digit expected" 2
  | _ :: _ => .wrong "missing '\x7b'" 2
  | [] => .wrong "missing '\x7b'" 1

/-- Up to three decimal digits. -/
def decimalEscape (bs : Bytes) : Escape :=
  let ds := (bs.take 3).takeWhile Num.isDigit
  let n := Num.ofDigits 10 ds
  let rest := bs.drop ds.length
  if n > 255 then .wrong "decimal escape too large" (ds.length + 1)
  else .done [Utf8.byte n] rest

/-- The white space after `\z`: the line and the rest at its end. -/
def skipSpace (line : Nat) : Nat → Bytes → Nat × Bytes
  | 0, bs => (line, bs)
  | _, [] => (line, [])
  | fuel + 1, b :: rest =>
    if isNewline b then skipSpace (line + 1) fuel (afterNewline (b :: rest))
    else if Num.isSpace b then skipSpace line fuel rest
    else (line, b :: rest)

/-- Reads the inside of a quoted string: the token, and the line and rest after it. The
contents are collected in reverse. -/
def quotedBody (delimiter : UInt8) (line : Nat) (acc : Bytes) : Nat → Bytes →
    Token × Nat × Bytes
  | 0, _ => (⟨.fault [], line, []⟩, line, [])
  | _, [] => (⟨faultMessage "unfinished string" eofText, line, []⟩, line, [])
  | fuel + 1, b :: rest =>
    let shown := delimiter :: acc.reverse
    if b == delimiter then
      (⟨.string acc.reverse, line, quote (shown ++ [delimiter])⟩, line, rest)
    else if isNewline b then
      (⟨faultMessage "unfinished string" (quote shown), line, []⟩, line, [])
    else if b == 92 then
      match rest with
      | [] => (⟨faultMessage "unfinished string" eofText, line, []⟩, line, [])
      | c :: after =>
        if isNewline c then
          quotedBody delimiter (line + 1) (10 :: acc) fuel (afterNewline rest)
        else if c == 122 then
          let (line, after) := skipSpace line (after.length + 1) after
          quotedBody delimiter line acc fuel after
        else
          let escape :=
            match simpleEscape? c with
            | some v => Escape.done [v] after
            | none =>
              if c == 120 then hexEscape after
              else if c == 117 then codePointEscape after
              else if Num.isDigit c then decimalEscape rest
              else .wrong "invalid escape sequence" 1
          match escape with
          | .done v after => quotedBody delimiter line (v.reverse ++ acc) fuel after
          | .wrong message seen =>
            let near := quote (shown ++ 92 :: rest.take seen)
            (⟨faultMessage message near, line, []⟩, line, [])
    else quotedBody delimiter line (b :: acc) fuel rest

/-! ## Numerals -/

/-- The characters of a numeral: digits, points, and exponent marks with a sign. -/
def numeralChars (lower upper : UInt8) : Bytes → Bytes × Bytes
  | [] => ([], [])
  | b :: rest =>
    if b == lower || b == upper then
      match rest with
      | s :: more =>
        if s == 43 || s == 45 then
          let (cs, rest) := numeralChars lower upper more
          (b :: s :: cs, rest)
        else
          let (cs, rest) := numeralChars lower upper (s :: more)
          (b :: cs, rest)
      | [] => ([b], [])
    else if Num.isHexDigit b || b == 46 then
      let (cs, rest) := numeralChars lower upper rest
      (b :: cs, rest)
    else ([], b :: rest)
termination_by bs => bs.length

/-- Reads a numeral; a letter that touches it makes it malformed. -/
def numeral (line : Nat) (bs : Bytes) : Token × Nat × Bytes :=
  let (cs, rest) :=
    match bs with
    | 48 :: x :: more =>
      if x == 120 || x == 88 then
        let (cs, rest) := numeralChars 112 80 more
        (48 :: x :: cs, rest)
      else
        let (cs, rest) := numeralChars 101 69 (x :: more)
        (48 :: cs, rest)
    | b :: more =>
      let (cs, rest) := numeralChars 101 69 more
      (b :: cs, rest)
    | [] => ([], [])
  let (cs, rest) :=
    match rest with
    | b :: more => if isNameStart b then (cs ++ [b], more) else (cs, b :: more)
    | [] => (cs, [])
  match Num.ofBytes? cs with
  | some n => (⟨.number n, line, quote cs⟩, line, rest)
  | none => (⟨faultMessage "malformed number" (quote cs), line, []⟩, line, [])

/-! ## The scan -/

/-- The operator at the front of a text. -/
def operator? (bs : Bytes) : Option (Bytes × Bytes) :=
  match operators.find? (·.isPrefixOf bs) with
  | some op => some (op, bs.drop op.length)
  | none => none

/-- A word is a keyword or a name. -/
def word (line : Nat) (w : Bytes) : Token :=
  if keywords.contains w then ⟨.symbol w, line, quote w⟩ else ⟨.name w, line, quote w⟩

/-- A token that is one bracket, operator or other character. -/
def symbol (line : Nat) (s : Bytes) : Token := ⟨.symbol s, line, symbolText s⟩

/-- The message of a long bracket that does not close. -/
def unfinishedLong (what : String) (start : Nat) : TokenKind :=
  faultMessage s!"unfinished long {what} (starting at line {start})" eofText

/-- Splits a script into tokens, the last of which is `eof` or a fault. -/
def scanFrom (line : Nat) : Nat → Bytes → List Token
  | 0, _ => [⟨.fault [], line, []⟩]
  | _, [] => [⟨.eof, line, eofText⟩]
  | fuel + 1, b :: rest =>
    if isNewline b then scanFrom (line + 1) fuel (afterNewline (b :: rest))
    else if Num.isSpace b then scanFrom line fuel rest
    else if b == 45 && rest.head? == some 45 then
      let body := rest.drop 1
      let short := scanFrom line fuel (body.dropWhile fun c => !isNewline c)
      match body with
      | 91 :: more =>
        match longOpen? more with
        | some (level, inside) =>
          match longString level line inside with
          | some (_, line, rest) => scanFrom line fuel rest
          | none =>
            let last := line + (inside.filter (· == 10)).length
            [⟨unfinishedLong "comment" line, last, []⟩]
        | none => short
      | _ => short
    else if b == 91 then
      match longOpen? rest with
      | some (level, inside) =>
        match longString level line inside with
        | some (s, line, after) =>
          let bracket := List.replicate level 61
          let shown := 91 :: bracket ++ 91 :: s ++ 93 :: bracket ++ [93]
          ⟨.string s, line, quote shown⟩ :: scanFrom line fuel after
        | none =>
          let last := line + (inside.filter (· == 10)).length
          [⟨unfinishedLong "string" line, last, []⟩]
      | none =>
        let marks := rest.takeWhile (· == 61)
        if marks.isEmpty then symbol line [b] :: scanFrom line fuel rest
        else [⟨faultMessage "invalid long string delimiter" (quote (b :: marks)), line, []⟩]
    else if b == 34 || b == 39 then
      let (t, line, rest) := quotedBody b line [] (rest.length + 1) rest
      t :: scanFrom line fuel rest
    else if Num.isDigit b || (b == 46 && (rest.head?.map Num.isDigit).getD false) then
      let (t, line, rest) := numeral line (b :: rest)
      t :: scanFrom line fuel rest
    else if isNameStart b then
      let w := b :: rest.takeWhile isNameChar
      word line w :: scanFrom line fuel (rest.dropWhile isNameChar)
    else
      match operator? (b :: rest) with
      | some (op, rest) => symbol line op :: scanFrom line fuel rest
      | none => symbol line [b] :: scanFrom line fuel rest

/-- Splits a script into tokens. -/
def scan (script : Bytes) : List Token := scanFrom 1 (script.length + 1) script

end Token

end ScriptAgent.Script
