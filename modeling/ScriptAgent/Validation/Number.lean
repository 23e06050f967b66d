import ScriptAgent.Decimal.Binary
import ScriptAgent.Text.Blank

/-!
# Numbers in fields

The texts that count as numbers where untyped fields are checked.

An integer may have white space around it, a sign, zeros at the beginning, single underscores
between digits, and a fraction of zeros; a negative one has no zeros at the beginning. A float is
written as usual, with an optional exponent, or is the word for infinity or for no number.
-/

namespace ScriptAgent.Validation

/-- White space around numbers: that of the character database, without the separators of
records. -/
def isSpace (c : Char) : Bool := Text.isBlank c && !(28 ≤ c.toNat && c.toNat ≤ 31)

/-- Removes white space at both ends. -/
def trim (cs : List Char) : List Char :=
  ((cs.dropWhile isSpace).reverse.dropWhile isSpace).reverse

/-- A decimal digit. -/
def isDigit (c : Char) : Bool := 48 ≤ c.toNat && c.toNat ≤ 57

/-- The number that digits denote. -/
def ofDigits (ds : List Char) : Nat := ds.foldl (fun n c => n * 10 + (c.toNat - 48)) 0

/-! ## Integers -/

/-- An integer without any freedom: a minus sign or none, and digits of which the first one is
zero only if it is the only one. -/
def plainInteger? (cs : List Char) : Option Int :=
  let (negative, ds) :=
    match cs with
    | '-' :: ds => (true, ds)
    | ds => (false, ds)
  if ds.isEmpty || !ds.all isDigit then none
  else
    match ds with
    | '0' :: _ :: _ => none
    | ds =>
      let n : Int := ofDigits ds
      some (if negative then -n else n)

/-- Drops the rest of the zeros at the beginning, of which `zero` is the last one seen; the last
one is kept before a point and at the end. -/
def dropZeros (zero : Char) : List Char → Option (List Char)
  | [] => some [zero]
  | c :: rest =>
    if c = '0' || c = '_' then dropZeros c rest
    else if isDigit c then some (c :: rest)
    else if c = '.' then some (zero :: c :: rest)
    else none

/-- Drops zeros at the beginning. -/
def dropLeadingZeros : List Char → Option (List Char)
  | '0' :: rest => dropZeros '0' rest
  | '-' :: rest => some ('-' :: rest)
  | c :: rest => if isDigit c then some (c :: rest) else none
  | [] => none

/-- Drops a fraction of zeros. -/
def dropZeroFraction (cs : List Char) : List Char :=
  let (whole, rest) := (cs.takeWhile (· != '.'), cs.dropWhile (· != '.'))
  match rest with
  | '.' :: frac => if frac.all (· == '0') then whole else cs
  | _ => cs

/-- Whether two underscores are neighbours. -/
def doubledUnderscore : List Char → Bool
  | '_' :: '_' :: _ => true
  | _ :: rest => doubledUnderscore rest
  | [] => false

/-- Removes underscores that stand between characters, one at a time. -/
def dropUnderscores? (cs : List Char) : Option (List Char) :=
  if cs.head? = some '_' || cs.getLast? = some '_' || doubledUnderscore cs then none
  else some (cs.filter (· != '_'))

/-- The plain form of a freely written integer. -/
def normalInteger? (cs : List Char) : Option (List Char) := do
  let cs := trim cs
  let cs ←
    match cs with
    | '+' :: '-' :: _ => none
    | '+' :: rest => some rest
    | cs => some cs
  dropUnderscores? (dropZeroFraction (← dropLeadingZeros cs))

/-- The integer that a text denotes. -/
def integer? (s : String) : Option Int :=
  match plainInteger? s.toList with
  | some i => some i
  | none => (normalInteger? s.toList).bind plainInteger?

/-- The largest number of digits of an integer. -/
def maxDigits : Nat := 4300

/-- Whether a text is an integer of too many digits. -/
def isOversized (s : String) : Bool := s.length > maxDigits

/-! ## Floats -/

/-- Whether a word is meant, in any case. -/
def isWord (word : String) (cs : List Char) : Bool := cs.map Char.toLower == word.toList

/-- The digits and the exponent after them. -/
def exponent? : List Char → Option Int
  | [] => some 0
  | e :: rest =>
    if e == 'e' || e == 'E' then
      let (negative, ds) :=
        match rest with
        | '-' :: ds => (true, ds)
        | '+' :: ds => (false, ds)
        | ds => (false, ds)
      if ds.isEmpty || !ds.all isDigit then none
      else
        let n : Int := ofDigits ds
        some (if negative then -n else n)
    else none

/-- A float without a sign. -/
def unsigned? (negative : Bool) (cs : List Char) : Option Float :=
  if isWord "inf" cs || isWord "infinity" cs then some (Decimal.infinity negative)
  else if isWord "nan" cs then some (0.0 / 0.0)
  else
    let whole := cs.takeWhile isDigit
    let rest := cs.dropWhile isDigit
    let (frac, rest) :=
      match rest with
      | '.' :: rest => (rest.takeWhile isDigit, rest.dropWhile isDigit)
      | rest => ([], rest)
    if whole.isEmpty && frac.isEmpty then none
    else do
      let e ← exponent? rest
      return Decimal.ofScientific negative (ofDigits (whole ++ frac)) (e - frac.length)

/-- A float with an optional sign. -/
def float? : List Char → Option Float
  | '-' :: cs => unsigned? true cs
  | '+' :: cs => unsigned? false cs
  | cs => unsigned? false cs

/-- The float that a text denotes. -/
def number? (s : String) : Option Float :=
  match float? (trim s.toList) with
  | some x => some x
  | none =>
    if s.toList.contains '_' then (dropUnderscores? s.toList).bind float? else none

end ScriptAgent.Validation
