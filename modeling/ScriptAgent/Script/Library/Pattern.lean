import ScriptAgent.Script.Library.Argument

/-!
# Patterns

The matcher of string patterns: character classes, sets, repetitions, captures, balanced pairs and
frontiers. `Pattern.matchAt` tries a pattern at one place, `Pattern.find?` at all places from one
on. Matching backtracks; its recursion descends on a bound given by the sizes of the string
and the pattern, since each step moves forward in one of them.
-/

namespace ScriptAgent.Script

/-- What a capture holds: its extent is open, a part of the string, or just a place. -/
inductive Capture where
  | opened (start : Nat)
  | part (start length : Nat)
  | place (start : Nat)
deriving Inhabited, DecidableEq

namespace Pattern

/-- The captures of a match, in the order of their opening. -/
abbrev Captures := List Capture

/-- The outcome of an attempt: the end of the match and its captures, if there is one, or what
is wrong with the pattern. -/
abbrev Attempt := Except String (Option (Nat × Captures))

/-- A string and a pattern. -/
structure Matcher where
  source : Array UInt8
  pattern : Array UInt8

namespace Matcher

/-- The byte of the pattern at a place; zero beyond its end. -/
def pat (m : Matcher) (p : Nat) : UInt8 := m.pattern.getD p 0

/-- The byte of the string at a place; zero beyond its end. -/
def src (m : Matcher) (s : Nat) : UInt8 := m.source.getD s 0

end Matcher

/-! ## Single characters -/

/-- A letter. -/
def isAlpha (b : UInt8) : Bool :=
  (97 ≤ b.toNat && b.toNat ≤ 122) || (65 ≤ b.toNat && b.toNat ≤ 90)

/-- A lower-case letter. -/
def isLower (b : UInt8) : Bool := 97 ≤ b.toNat && b.toNat ≤ 122

/-- An upper-case letter. -/
def isUpper (b : UInt8) : Bool := 65 ≤ b.toNat && b.toNat ≤ 90

/-- A control character. -/
def isControl (b : UInt8) : Bool := b.toNat < 32 || b.toNat == 127

/-- A letter or a digit. -/
def isAlnum (b : UInt8) : Bool := isAlpha b || Num.isDigit b

/-- A visible character. -/
def isGraph (b : UInt8) : Bool := 33 ≤ b.toNat && b.toNat ≤ 126

/-- A visible character that is no letter or digit. -/
def isPunct (b : UInt8) : Bool := isGraph b && !isAlnum b

/-- The lower-case form of a letter. -/
def toLower (b : UInt8) : UInt8 := if isUpper b then b + 32 else b

/-- The upper-case form of a letter. -/
def toUpper (b : UInt8) : UInt8 := if isLower b then b - 32 else b

/-- Whether a byte is in the class of a letter; an upper-case letter names the complement. -/
def inClass (b cl : UInt8) : Bool :=
  let positive : Option Bool :=
    match (toLower cl).toNat with
    | 97 => some (isAlpha b)
    | 99 => some (isControl b)
    | 100 => some (Num.isDigit b)
    | 103 => some (isGraph b)
    | 108 => some (isLower b)
    | 112 => some (isPunct b)
    | 115 => some (Num.isSpace b)
    | 117 => some (isUpper b)
    | 119 => some (isAlnum b)
    | 120 => some (Num.isHexDigit b)
    | _ => none
  match positive with
  | some r => if isUpper cl then !r else r
  | none => cl == b

/-- The place after the closing bracket of a set whose contents begin at `p`. -/
def setEnd (m : Matcher) (p : Nat) (first : Bool) : Nat → Except String Nat
  | 0 => .error "malformed pattern (missing ']')"
  | fuel + 1 =>
    if p ≥ m.pattern.size then .error "malformed pattern (missing ']')"
    else if m.pat p == 37 then setEnd m (p + 2) false fuel
    else if m.pat p == 93 && !first then .ok (p + 1)
    else setEnd m (p + 1) false fuel

/-- The place after the single character class at `p`. -/
def classEnd (m : Matcher) (p : Nat) : Except String Nat :=
  if m.pat p == 37 then
    if p + 1 ≥ m.pattern.size then .error "malformed pattern (ends with '%')" else .ok (p + 2)
  else if m.pat p == 91 then
    let q := if m.pat (p + 1) == 94 then p + 2 else p + 1
    setEnd m q true (m.pattern.size + 1)
  else .ok (p + 1)

/-- Whether a byte is in the set with contents from `p` up to its closing bracket at `last`. -/
def inSet (m : Matcher) (b : UInt8) (p last : Nat) : Nat → Bool
  | 0 => false
  | fuel + 1 =>
    if p ≥ last then false
    else if m.pat p == 37 then inClass b (m.pat (p + 1)) || inSet m b (p + 2) last fuel
    else if m.pat (p + 1) == 45 && p + 2 < last then
      (m.pat p ≤ b && b ≤ m.pat (p + 2)) || inSet m b (p + 3) last fuel
    else m.pat p == b || inSet m b (p + 1) last fuel

/-- Whether a byte is in the set from its opening bracket at `p` up to its closing one. -/
def inBracket (m : Matcher) (b : UInt8) (p last : Nat) : Bool :=
  if m.pat (p + 1) == 94 then !inSet m b (p + 2) last (m.pattern.size + 1)
  else inSet m b (p + 1) last (m.pattern.size + 1)

/-- Whether the character at `s` is in the class from `p` to `e`. -/
def single (m : Matcher) (s p e : Nat) : Bool :=
  if s ≥ m.source.size then false
  else
    let b := m.src s
    if m.pat p == 46 then true
    else if m.pat p == 37 then inClass b (m.pat (p + 1))
    else if m.pat p == 91 then inBracket m b p (e - 1)
    else m.pat p == b

/-! ## Parts -/

/-- The place after a balanced pair that begins at `s`. -/
def balanced? (m : Matcher) (opener closer : UInt8) (s depth : Nat) : Nat → Option Nat
  | 0 => none
  | fuel + 1 =>
    if s ≥ m.source.size then none
    else if m.src s == closer then
      if depth = 1 then some (s + 1) else balanced? m opener closer (s + 1) (depth - 1) fuel
    else if m.src s == opener then balanced? m opener closer (s + 1) (depth + 1) fuel
    else balanced? m opener closer (s + 1) depth fuel

/-- The number of characters from `s` on that are in a class. -/
def countSingles (m : Matcher) (s p e : Nat) : Nat → Nat
  | 0 => 0
  | fuel + 1 => if single m s p e then 1 + countSingles m (s + 1) p e fuel else 0

/-- Tries to go on after `n` characters, then after fewer. -/
def tryFewer (go : Nat → Attempt) (s : Nat) : Nat → Attempt
  | 0 => go s
  | n + 1 => do
    match ← go (s + n + 1) with
    | some r => return some r
    | none => tryFewer go s n

/-- Tries to go on at once, then after one more character of a class. -/
def tryMore (m : Matcher) (go : Nat → Attempt) (s p e : Nat) : Nat → Attempt
  | 0 => .ok none
  | fuel + 1 => do
    match ← go s with
    | some r => return some r
    | none => if single m s p e then tryMore m go (s + 1) p e fuel else return none

/-- Closes the last capture that is open. -/
def closeLast (s : Nat) (cs : Captures) : Except String Captures :=
  let rec go : List Capture → Option (List Capture)
    | [] => none
    | .opened start :: rest => some (.part start (s - start) :: rest)
    | c :: rest => (go rest).map (c :: ·)
  match go cs.reverse with
  | some r => .ok r.reverse
  | none => .error "invalid pattern capture"

/-- The text of a capture that a pattern refers back to. -/
def backReference (cs : Captures) (digit : UInt8) : Except String (Nat × Nat) :=
  let i := digit.toNat - 48
  match (if i = 0 then none else cs[i - 1]?) with
  | some (.part start length) => .ok (start, length)
  | some (.place start) => .ok (start, 0)
  | _ => .error s!"invalid capture index %{i}"

/-- Whether the string has the same bytes at two places. -/
def sameBytes (m : Matcher) (s t : Nat) : Nat → Bool
  | 0 => true
  | n + 1 => m.src s == m.src t && sameBytes m (s + 1) (t + 1) n

/-! ## Matching -/

/-- Matches the pattern from `p` on at `s`. -/
def run (m : Matcher) (s p : Nat) (cs : Captures) : Nat → Attempt
  | 0 => .error "pattern too complex"
  | fuel + 1 =>
    if p ≥ m.pattern.size then .ok (some (s, cs))
    else
      let c := m.pat p
      let next := m.pat (p + 1)
      let plain (_ : Unit) : Attempt := do
        let e ← classEnd m p
        let suffix := if e < m.pattern.size then m.pat e else 0
        if suffix == 63 then
          if single m s p e then
            match ← run m (s + 1) (e + 1) cs fuel with
            | some r => return some r
            | none => run m s (e + 1) cs fuel
          else run m s (e + 1) cs fuel
        else if suffix == 43 then
          let n := countSingles m s p e (m.source.size + 1 - s)
          if n = 0 then return none
          tryFewer (fun s => run m s (e + 1) cs fuel) (s + 1) (n - 1)
        else if suffix == 42 then
          let n := countSingles m s p e (m.source.size + 1 - s)
          tryFewer (fun s => run m s (e + 1) cs fuel) s n
        else if suffix == 45 then
          tryMore m (fun s => run m s (e + 1) cs fuel) s p e (m.source.size + 2 - s)
        else if single m s p e then run m (s + 1) e cs fuel
        else return none
      if c == 40 then
        if cs.length ≥ 32 then .error "too many captures"
        else if next == 41 then run m s (p + 2) (cs ++ [.place s]) fuel
        else run m s (p + 1) (cs ++ [.opened s]) fuel
      else if c == 41 then do run m s (p + 1) (← closeLast s cs) fuel
      else if c == 36 && p + 1 = m.pattern.size then
        .ok (if s = m.source.size then some (s, cs) else none)
      else if c == 37 && next == 98 then
        if p + 3 ≥ m.pattern.size then
          .error "malformed pattern (missing arguments to '%b')"
        else if s < m.source.size && m.src s == m.pat (p + 2) then
          match balanced? m (m.pat (p + 2)) (m.pat (p + 3)) (s + 1) 1 (m.source.size + 1) with
          | some s => run m s (p + 4) cs fuel
          | none => .ok none
        else .ok none
      else if c == 37 && next == 102 then
        if m.pat (p + 2) != 91 then .error "missing '[' after '%f' in pattern"
        else do
          let e ← classEnd m (p + 2)
          let before := if s = 0 then 0 else m.src (s - 1)
          if !inBracket m before (p + 2) (e - 1) && inBracket m (m.src s) (p + 2) (e - 1) then
            run m s e cs fuel
          else return none
      else if c == 37 && Num.isDigit next then do
        let (start, length) ← backReference cs next
        if s + length ≤ m.source.size && sameBytes m start s length then
          run m (s + length) (p + 2) cs fuel
        else return none
      else plain ()

/-- Matches a pattern at a place, from the given place of the pattern on. -/
def matchAt (m : Matcher) (s p : Nat) : Attempt :=
  run m s p [] (m.source.size + 2 * m.pattern.size + 4)

/-- The first match at a place from `s` on: its beginning, its end and its captures. -/
def find? (m : Matcher) (p : Nat) (anchored : Bool) (s : Nat) :
    Nat → Except String (Option (Nat × Nat × Captures))
  | 0 => .ok none
  | fuel + 1 => do
    match ← matchAt m s p with
    | some (e, cs) => return some (s, e, cs)
    | none =>
      if anchored || s ≥ m.source.size then return none
      else find? m p anchored (s + 1) fuel

/-- The part of a string between two places. -/
def slice (m : Matcher) (start length : Nat) : Bytes :=
  (m.source.extract start (start + length)).toList

/-- The value of a capture. -/
def captureValue (m : Matcher) : Capture → Except String Value
  | .part start length => .ok (.str (slice m start length))
  | .place start => .ok (.int (start + 1 : Nat))
  | .opened _ => .error "unfinished capture"

/-- The values of the captures of a match from `s` to `e`; without captures, the whole match. -/
def captureValues (m : Matcher) (s e : Nat) (cs : Captures) : Except String (List Value) :=
  if cs.isEmpty then .ok [.str (slice m s (e - s))] else cs.mapM (captureValue m)

end Pattern

end ScriptAgent.Script
