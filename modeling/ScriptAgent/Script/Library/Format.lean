import ScriptAgent.Script.Library.Argument

/-!
# Formatted text

`string.format`: a format is a text with conversions. A conversion has flags, a width, a precision
and a letter; `Conversion.read?` accepts only the flags that its letter takes. What a conversion
gives is a sign or mark followed by digits or characters, filled up to the width by `fill`.
-/

namespace ScriptAgent.Script.Library

/-- The flags, width and precision of a conversion. -/
structure Conversion where
  left : Bool
  plus : Bool
  blank : Bool
  alternate : Bool
  zero : Bool
  width : Nat
  precision : Option Nat
deriving Inhabited

namespace Conversion

/-- A conversion without modifiers. -/
def plain : Conversion := ⟨false, false, false, false, false, 0, none⟩

/-- The modifiers with one more flag. -/
def withFlag (c : Conversion) (flag : UInt8) : Conversion :=
  match Char.ofNat flag.toNat with
  | '-' => { c with left := true }
  | '+' => { c with plus := true }
  | ' ' => { c with blank := true }
  | '#' => { c with alternate := true }
  | '0' => { c with zero := true }
  | _ => c

/-- Splits at most two digits off. -/
def twoDigits : Bytes → Bytes × Bytes
  | a :: b :: rest =>
    if Num.isDigit a then if Num.isDigit b then ([a, b], rest) else ([a], b :: rest)
    else ([], a :: b :: rest)
  | [a] => if Num.isDigit a then ([a], []) else ([], [a])
  | [] => ([], [])

/-- Reads the modifiers before a letter: flags out of `flags`, a width, and a precision if
`precise`. -/
def read? (flags : String) (precise : Bool) (form : Bytes) : Option Conversion :=
  let isFlag (b : UInt8) : Bool := (Bytes.ofAscii flags).contains b
  let c := (form.takeWhile isFlag).foldl withFlag plain
  let rest := form.dropWhile isFlag
  if rest.head? = some 48 then none
  else
    let (width, rest) := twoDigits rest
    let c := { c with width := Num.ofDigits 10 width }
    match rest with
    | [] => some c
    | 46 :: more =>
      let (digits, rest) := twoDigits more
      if precise && rest.isEmpty then some { c with precision := some (Num.ofDigits 10 digits) }
      else none
    | _ => none

/-- Fills a text up to the width; the mark stays in front of filling zeros. -/
def fill (c : Conversion) (zeros : Bool) (mark body : Bytes) : Bytes :=
  let missing := c.width - (mark.length + body.length)
  if c.left then mark ++ body ++ List.replicate missing 32
  else if zeros then mark ++ List.replicate missing 48 ++ body
  else List.replicate missing 32 ++ mark ++ body

/-- The sign of a number. -/
def sign (c : Conversion) (negative : Bool) : Bytes :=
  if negative then [45] else if c.plus then [43] else if c.blank then [32] else []

end Conversion

/-- Characters as bytes. -/
def charsBytes (cs : List Char) : Bytes := cs.map fun c => Utf8.byte c.toNat

/-- Digits with at least as many places as a precision asks for; no digits at all for a zero
without places. -/
def precise (c : Conversion) (n : Nat) (ds : List Char) : Bytes :=
  match c.precision with
  | none => charsBytes ds
  | some p => if n = 0 && p = 0 then [] else charsBytes (Decimal.padZeros p ds)

/-- A signed integer in decimal. -/
def formatSigned (c : Conversion) (i : Int64) : Bytes :=
  let n := i.toInt.natAbs
  c.fill (c.zero && c.precision.isNone) (c.sign (i < 0)) (precise c n (Nat.toDigits 10 n))

/-- An integer, read without sign, in a base. -/
def formatUnsigned (c : Conversion) (base : Nat) (upper : Bool) (i : Int64) : Bytes :=
  let n := i.toUInt64.toNat
  let ds := precise c n (Nat.toDigits base n)
  let ds := if base = 8 && c.alternate && ds.head? != some 48 then 48 :: ds else ds
  let mark : Bytes := if base = 16 && c.alternate && n != 0 then [48, 120] else []
  let text := c.fill (c.zero && c.precision.isNone) mark ds
  if upper then text.map fun b => if 97 ≤ b.toNat && b.toNat ≤ 122 then b - 32 else b else text

/-- A float by the letter of its conversion. -/
def formatFloat (c : Conversion) (letter : Char) (x : Float) : Bytes :=
  let upper := letter.isUpper
  let text :=
    match Decimal.classify x with
    | .notANumber => c.fill false [45] (Bytes.ofAscii "nan")
    | .infinite negative => c.fill false (c.sign negative) (Bytes.ofAscii "inf")
    | .finite negative v =>
      let p := c.precision.getD 6
      let body :=
        match letter.toLower with
        | 'f' => Decimal.fixed v p c.alternate
        | 'e' => Decimal.scientific v p c.alternate false
        | 'g' => Decimal.general v p c.alternate
        | _ => (Decimal.hexadecimal v c.precision c.alternate).drop 2
      let mark := c.sign negative ++ (if letter.toLower = 'a' then [48, 120] else [])
      c.fill c.zero mark (charsBytes body)
  if upper then text.map fun b => if 97 ≤ b.toNat && b.toNat ≤ 122 then b - 32 else b else text

/-- A string as a literal, its quotes, line ends and control characters escaped. -/
def quotedBody : Bytes → Bytes
  | [] => []
  | b :: rest =>
    let escaped :=
      if b == 34 || b == 92 || b == 10 then [92, b]
      else if b.toNat < 32 || b == 127 then
        let ds := Nat.toDigits 10 b.toNat
        let places := if rest.head?.any Num.isDigit then 3 else 0
        92 :: charsBytes (Decimal.padZeros places ds)
      else [b]
    escaped ++ quotedBody rest

/-- A value as a literal of the script language, if it has one. -/
def literalBytes? : Value → Option Bytes
  | .str s => some (34 :: quotedBody s ++ [34])
  | .num (.int i) =>
    if i.toInt = -0x8000000000000000 then some (Bytes.ofAscii "0x8000000000000000")
    else some (Num.intBytes i)
  | .num (.float x) =>
    match Decimal.classify x with
    | .notANumber => some (Bytes.ofAscii "(0/0)")
    | .infinite negative => some (Bytes.ofAscii (if negative then "-1e9999" else "1e9999"))
    | .finite .. =>
      some (charsBytes (Decimal.signed x fun v => Decimal.hexadecimal v none false))
  | .nil => some (Bytes.ofAscii "nil")
  | .bool b => some (Bytes.ofAscii (if b then "true" else "false"))
  | _ => none

/-- The bytes that belong to a conversion before its letter. -/
def isModifier (b : UInt8) : Bool := (Bytes.ofAscii "-+#0 123456789.").contains b

/-- The modifiers of a conversion, or the error of a conversion with wrong ones. -/
def readConversion (inv : Invocation) (flags : String) (precise : Bool) (form : Bytes)
    (letter : UInt8) : Program Conversion :=
  match Conversion.read? flags precise form with
  | some c => .done c
  | none =>
    inv.fail (Bytes.ofAscii "invalid conversion specification: '%" ++ form ++ [letter] ++
      Bytes.ofAscii "'")

/-- The text of argument `i` by a conversion. -/
def convert (inv : Invocation) (i : Nat) (form : Bytes) (letter : UInt8) : Program Bytes := do
  match Char.ofNat letter.toNat with
  | 'c' =>
    let c ← readConversion inv "-" false form letter
    let n ← inv.integer i
    return c.fill false [] [Utf8.byte (n.toUInt64.toNat % 256)]
  | 'd' | 'i' =>
    let n ← inv.integer i
    return formatSigned (← readConversion inv "-+0 " true form letter) n
  | 'u' =>
    let n ← inv.integer i
    return formatUnsigned (← readConversion inv "-0" true form letter) 10 false n
  | 'o' =>
    let n ← inv.integer i
    return formatUnsigned (← readConversion inv "-#0" true form letter) 8 false n
  | 'x' =>
    let n ← inv.integer i
    return formatUnsigned (← readConversion inv "-#0" true form letter) 16 false n
  | 'X' =>
    let n ← inv.integer i
    return formatUnsigned (← readConversion inv "-#0" true form letter) 16 true n
  | 'a' =>
    let c ← readConversion inv "-+#0 " true form letter
    return formatFloat c 'a' (← inv.number i).toFloat
  | 'A' =>
    let c ← readConversion inv "-+#0 " true form letter
    return formatFloat c 'A' (← inv.number i).toFloat
  | 'f' | 'e' | 'E' | 'g' | 'G' =>
    let n ← inv.number i
    let c ← readConversion inv "-+#0 " true form letter
    return formatFloat c (Char.ofNat letter.toNat) n.toFloat
  | 'p' =>
    let c ← readConversion inv "-" false form letter
    match inv.arg i with
    | .nil | .bool _ | .num _ => return c.fill false [] (Bytes.ofAscii "(null)")
    | .table a | .function a => return c.fill false [] (Operation.addressText a)
    | _ => return c.fill false [] (Operation.addressText 0)
  | 'q' =>
    if !form.isEmpty then inv.failText "specifier '%q' cannot have modifiers"
    match literalBytes? (inv.arg i) with
    | some s => return s
    | none => inv.wrongText i "value has no literal form"
  | 's' =>
    let s := ((← Operation.toText inv.site .library (inv.arg i)).toBytes?).getD []
    if form.isEmpty then return s
    if s.contains 0 then inv.wrongText i "string contains zeros"
    let c ← readConversion inv "-" true form letter
    match c.precision with
    | none => return if s.length ≥ 100 then s else c.fill false [] s
    | some p => return c.fill false [] (s.take p)
  | _ =>
    inv.fail (Bytes.ofAscii "invalid conversion '%" ++ (form ++ [letter]).beforeNul ++
      Bytes.ofAscii "' to 'format'")

/-- The longest list of modifiers. -/
def maxModifiers : Nat := 21

/-- The text of a format from its next byte on; `i` is the last argument that was used. -/
def formatFrom (inv : Invocation) (i : Nat) : Nat → Bytes → Program Bytes
  | 0, _ => .done []
  | _, [] => .done []
  | fuel + 1, b :: rest => do
    if b != 37 then return b :: (← formatFrom inv i fuel rest)
    match rest with
    | 37 :: rest => return 37 :: (← formatFrom inv i fuel rest)
    | _ =>
      if !inv.has (i + 1) then inv.wrongText (i + 1) "no value"
      let form := rest.takeWhile isModifier
      let more := rest.dropWhile isModifier
      if form.length ≥ maxModifiers then inv.failText "invalid format string to 'format'"
      let text ← convert inv (i + 1) form (more.headD 0)
      return text ++ (← formatFrom inv (i + 1) fuel (more.drop 1))

/-- `string.format`. -/
def stringFormat (inv : Invocation) : Program (List Value) := do
  let format ← inv.bytes 1
  return [.str (← formatFrom inv 1 (format.length + 1) format)]

end ScriptAgent.Script.Library
