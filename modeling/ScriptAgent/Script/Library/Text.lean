import ScriptAgent.Script.Library.Pattern

/-!
# Functions on strings

Parts and changes of strings, searches with patterns, and the arithmetic that strings take part in
when they are numerals. Places are counted in bytes.
-/

namespace ScriptAgent.Script.Library

open Invocation

/-- The outcome of a matcher as a part of a program. -/
def matched {α : Type} (inv : Invocation) : Except String α → Program α
  | .ok a => .done a
  | .error e => inv.failText e

/-! ## Parts and changes -/

/-- The part of a string from a place to a place. -/
def part (s : Bytes) (start last : Nat) : Bytes :=
  if start > last then [] else (s.drop (start - 1)).take (last + 1 - start)

/-- `string.len`. -/
def stringLen (inv : Invocation) : Program (List Value) := do
  return [.int (← inv.bytes 1).length]

/-- `string.sub`. -/
def stringSub (inv : Invocation) : Program (List Value) := do
  let s ← inv.bytes 1
  let start := placeFromStart (← inv.integer 2) s.length
  let last := placeToEnd (← inv.integerOr 3 (-1)) s.length
  return [.str (part s start last)]

/-- `string.lower`. -/
def stringLower (inv : Invocation) : Program (List Value) := do
  return [.str ((← inv.bytes 1).map Pattern.toLower)]

/-- `string.upper`. -/
def stringUpper (inv : Invocation) : Program (List Value) := do
  return [.str ((← inv.bytes 1).map Pattern.toUpper)]

/-- `string.reverse`. -/
def stringReverse (inv : Invocation) : Program (List Value) := do
  return [.str (← inv.bytes 1).reverse]

/-- The largest string that is made by repetition. -/
def maxRepetition : Nat := 1 <<< 27

/-- `string.rep`. -/
def stringRep (inv : Invocation) : Program (List Value) := do
  let s ← inv.bytes 1
  let n ← inv.integer 2
  let sep ← inv.bytesOr 3 []
  if n ≤ 0 then return [.str []]
  let count := n.toInt.toNat
  let size := (s.length + sep.length) * count
  if size ≥ 1 <<< 63 then inv.failText "resulting string too large"
  else if size > maxRepetition then .raise (.text "not enough memory")
  else
    let piece := s ++ sep
    return [.str ((List.replicate (count - 1) piece).flatten ++ s)]

/-- `string.byte`. -/
def stringByte (inv : Invocation) : Program (List Value) := do
  let s ← inv.bytes 1
  let i ← inv.integerOr 2 1
  let start := placeFromStart i s.length
  let last ← do
    if inv.lacks 3 then pure (if i.toInt.natAbs > s.length && i < 0 then 0 else start)
    else pure (placeToEnd (← inv.integer 3) s.length)
  let last := min last s.length
  return (part s start last).map fun b => .int b.toNat

/-- The bytes of `string.char`. -/
def charBytes (inv : Invocation) (i : Nat) : Nat → Program Bytes
  | 0 => .done []
  | n + 1 => do
    let c ← inv.integer i
    if c < 0 || c > 255 then inv.wrongText i "value out of range"
    return Utf8.byte c.toInt.toNat :: (← charBytes inv (i + 1) n)

/-- `string.char`. -/
def stringChar (inv : Invocation) : Program (List Value) := do
  return [.str (← charBytes inv 1 inv.args.length)]

/-! ## Searches -/

/-- Whether a pattern has characters with a special meaning. -/
def hasSpecials (p : Bytes) : Bool :=
  p.any fun b => (Bytes.ofAscii "^$*+?.([%-").contains b

/-- The first place from `s` on at which a text occurs. -/
def findPlain? (text pattern : Bytes) (s : Nat) : Option Nat :=
  match text with
  | [] => if pattern.isEmpty then some s else none
  | b :: rest =>
    if pattern.isPrefixOf (b :: rest) then some s else findPlain? rest pattern (s + 1)

/-- A matcher and the place where its pattern begins after an anchor. -/
def matcherOf (s p : Bytes) : Pattern.Matcher × Nat × Bool :=
  let m : Pattern.Matcher := ⟨s.toArray, p.toArray⟩
  if m.pat 0 == 94 && !p.isEmpty then (m, 1, true) else (m, 0, false)

/-- `string.find`: the place of a match and its captures. -/
def stringFind (inv : Invocation) : Program (List Value) := do
  let s ← inv.bytes 1
  let p ← inv.bytes 2
  let init := placeFromStart (← inv.integerOr 3 1) s.length - 1
  if init > s.length then return [.nil]
  if (inv.arg 4).truthy || !hasSpecials p then
    match findPlain? (s.drop init) p init with
    | some i => return [.int (i + 1 : Nat), .int (i + p.length : Nat)]
    | none => return [.nil]
  else
    let (m, start, anchored) := matcherOf s p
    match ← matched inv (Pattern.find? m start anchored init (s.length + 2)) with
    | some (b, e, cs) =>
      let values ← matched inv (cs.mapM (Pattern.captureValue m))
      return .int (b + 1 : Nat) :: .int e :: values
    | none => return [.nil]

/-- `string.match`: the captures of a match. -/
def stringMatch (inv : Invocation) : Program (List Value) := do
  let s ← inv.bytes 1
  let p ← inv.bytes 2
  let init := placeFromStart (← inv.integerOr 3 1) s.length - 1
  if init > s.length then return [.nil]
  let (m, start, anchored) := matcherOf s p
  match ← matched inv (Pattern.find? m start anchored init (s.length + 2)) with
  | some (b, e, cs) => matched inv (Pattern.captureValues m b e cs)
  | none => return [.nil]

/-- `string.gmatch`: the function that gives one match after the other. -/
def stringGmatch (inv : Invocation) : Program (List Value) := do
  let s ← inv.bytes 1
  let p ← inv.bytes 2
  let init := placeFromStart (← inv.integerOr 3 1) s.length - 1
  let init := if init > s.length then s.length + 1 else init
  .query (.newMatcher ⟨s, p, init, none⟩)

/-- The next match from a place on that does not end where the last one did. -/
def nextMatch (m : Pattern.Matcher) (lastEnd : Option Nat) (s : Nat) :
    Nat → Except String (Option (Nat × Nat × Pattern.Captures))
  | 0 => .ok none
  | fuel + 1 => do
    if s > m.source.size then return none
    match ← Pattern.matchAt m s 0 with
    | some (e, cs) =>
      if some e = lastEnd then nextMatch m lastEnd (s + 1) fuel else return some (s, e, cs)
    | none => nextMatch m lastEnd (s + 1) fuel

/-- One call of the function that `string.gmatch` gives. -/
def stepMatcher (a : Address) (site : Site) : Program (List Value) := do
  match ← Program.query (.matcher a) with
  | [.str source, .str pattern, .num (.int position), last] =>
    let m : Pattern.Matcher := ⟨source.toArray, pattern.toArray⟩
    let lastEnd :=
      match last with
      | .num (.int e) => some e.toInt.toNat
      | _ => none
    match nextMatch m lastEnd position.toInt.toNat (source.length + 2) with
    | .error e => Program.failText site e
    | .ok none => return [.nil]
    | .ok (some (b, e, cs)) =>
      discard (Program.query (.setMatcher a ⟨source, pattern, e, some e⟩))
      match Pattern.captureValues m b e cs with
      | .ok vs => return vs
      | .error e => Program.failText site e
  | _ => return [.nil]

/-! ## Replacement -/

/-- The text that a replacement string stands for at a match. -/
def expand (m : Pattern.Matcher) (s e : Nat) (cs : Pattern.Captures) :
    Bytes → Except String Bytes
  | [] => .ok []
  | b :: rest =>
    if b != 37 then do return b :: (← expand m s e cs rest)
    else
      match rest with
      | [] => .error "invalid use of '%' in replacement string"
      | c :: rest => do
        if c == 37 then return 37 :: (← expand m s e cs rest)
        else if Num.isDigit c then
          let i := c.toNat - 48
          let whole := Pattern.slice m s (e - s)
          let v ←
            if i = 0 then pure (Value.str whole)
            else
              match cs[i - 1]? with
              | some cap => Pattern.captureValue m cap
              | none =>
                if i = 1 then pure (Value.str whole)
                else Except.error s!"invalid capture index %{i} in replacement string"
          return (v.toBytes?.getD []) ++ (← expand m s e cs rest)
        else .error "invalid use of '%' in replacement string"

/-- The text that stands in place of a match. -/
def replacement (inv : Invocation) (m : Pattern.Matcher) (s e : Nat)
    (cs : Pattern.Captures) : Program Bytes := do
  let whole := Pattern.slice m s (e - s)
  let kept (v : Value) : Program Bytes :=
    if !v.truthy then .done whole
    else
      match v.toBytes? with
      | some t => .done t
      | none => inv.failText s!"invalid replacement value (a {v.typeName})"
  match inv.arg 3 with
  | .table _ =>
    let vs ← matched inv (Pattern.captureValues m s e cs)
    kept (← Operation.index .library none (inv.arg 3) (vs.headD .nil))
  | .str r => matched inv (expand m s e cs r)
  | .num n => matched inv (expand m s e cs n.toBytes)
  | f =>
    let vs ← matched inv (Pattern.captureValues m s e cs)
    kept ((← call f vs).headD .nil)

/-- Replaces matches from a place on: the text in reverse and the number of replacements. -/
def replaceFrom (inv : Invocation) (m : Pattern.Matcher) (start : Nat) (anchored : Bool)
    (limit : Nat) (lastEnd : Option Nat) (s count : Nat) (acc : Bytes) :
    Nat → Program (Bytes × Nat)
  | 0 => .done (acc, count)
  | fuel + 1 => do
    let rest (s : Nat) : Bytes := (m.source.extract s m.source.size).toList
    if count ≥ limit then return ((rest s).reverse ++ acc, count)
    let attempt ← matched inv (Pattern.matchAt m s start)
    let found :=
      match attempt with
      | some (e, cs) => if some e = lastEnd then none else some (e, cs)
      | none => none
    match found with
    | some (e, cs) =>
      let t ← replacement inv m s e cs
      let acc := t.reverse ++ acc
      if anchored then return ((rest e).reverse ++ acc, count + 1)
      replaceFrom inv m start anchored limit (some e) e (count + 1) acc fuel
    | none =>
      if s < m.source.size then
        let acc := m.src s :: acc
        if anchored then return ((rest (s + 1)).reverse ++ acc, count)
        replaceFrom inv m start anchored limit lastEnd (s + 1) count acc fuel
      else return (acc, count)

/-- `string.gsub`. -/
def stringGsub (inv : Invocation) : Program (List Value) := do
  let s ← inv.bytes 1
  let p ← inv.bytes 2
  match inv.arg 3 with
  | .table _ | .str _ | .num _ => pure ()
  | f =>
    if !Operation.isFunction f then inv.wrongType 3 "string/function/table"
  let limit ← do
    if inv.lacks 4 then pure (s.length + 1)
    else pure (← inv.integer 4).toInt.toNat
  let (m, start, anchored) := matcherOf s p
  let (text, count) ← replaceFrom inv m start anchored limit none 0 0 [] (2 * s.length + 4)
  return [.str text.reverse, .int count]

/-! ## Arithmetic -/

/-- Arithmetic on strings that are numerals; other operands may have a metamethod. -/
def textArithmetic (op : BinaryOp) (inv : Invocation) : Program (List Value) := do
  match (inv.arg 1).toNum?, (inv.arg 2).toNum? with
  | some m, some n =>
    match Operation.arith op m n with
    | .ok r => return [.num r]
    | .error e => .raise (.text e.message)
  | _, _ =>
    let second := inv.arg 2
    let h ←
      match second with
      | .str _ => pure Value.nil
      | _ => Operation.handler second (Operation.event op)
    match h with
    | .nil =>
      inv.failText (s!"attempt to {Operation.event op} a '{(inv.arg 1).typeName}' with a " ++
        s!"'{second.typeName}'")
    | h => call h [inv.arg 1, second]

/-- The unary minus of a string that is a numeral. -/
def textUnm (inv : Invocation) : Program (List Value) := do
  match (inv.arg 1).toNum? with
  | some (.int i) => return [.num (.int (-i))]
  | some (.float x) => return [.num (.float (-x))]
  | none =>
    let t := (inv.arg 1).typeName
    inv.failText s!"attempt to unm a '{t}' with a '{t}'"

end ScriptAgent.Script.Library
