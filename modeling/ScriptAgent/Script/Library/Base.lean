import ScriptAgent.Script.Library.Argument

/-!
# Basic functions

Types and conversions, access to tables without metamethods, iteration, errors and the reading of
scripts.
-/

namespace ScriptAgent.Script.Library

open Invocation

/-- The text of nil as an answer of a function that fails quietly. -/
def quietFailure : List Value := [.nil]

/-! ## Errors -/

/-- Raises a value; a string gets the position of the code at a level in front. -/
def raiseAt {α : Type} (inv : Invocation) (v : Value) (level : Int64) : Program α :=
  match v with
  | .str s =>
    if level == 1 then .raise (.str (positionText inv.site.position ++ s))
    else if level > 0 then do
      match ← Program.queryOne (.position level.toInt.toNat) with
      | .str p => .raise (.str (p ++ s))
      | _ => .raise v
    else .raise v
  | _ => .raise v

/-- `error`: raises its first argument. -/
def error (inv : Invocation) : Program (List Value) := do
  let level ← inv.integerOr 2 1
  raiseAt inv (inv.arg 1) level

/-- `assert`: gives its arguments back if the first one is true. -/
def assert (inv : Invocation) : Program (List Value) := do
  if (inv.arg 1).truthy then return inv.args
  discard (inv.value 1)
  raiseAt inv (if inv.has 2 then inv.arg 2 else .text "assertion failed!") 1

/-- `pcall`: calls a function and answers its errors. -/
def pcall (inv : Invocation) : Program (List Value) := do
  let f ← inv.value 1
  .query (.protect f (inv.args.drop 1) none)

/-- `xpcall`: calls a function and answers its errors through a handler. -/
def xpcall (inv : Invocation) : Program (List Value) := do
  let h ← inv.callable 2
  .query (.protect (inv.arg 1) (inv.args.drop 2) (some h))

/-! ## Types and conversions -/

/-- `type`: the name of a type. -/
def type (inv : Invocation) : Program (List Value) := do
  let v ← inv.value 1
  return [.text v.typeName]

/-- `tostring`: the text of a value. -/
def tostring (inv : Invocation) : Program (List Value) := do
  let v ← inv.value 1
  return [← Operation.toText inv.site .library v]

/-- Reads a numeral in a base. -/
def readBase (base : Nat) (s : Bytes) : Option Int64 :=
  let (negative, ds) := Num.splitSign (Num.trimSpace s)
  let isDigit (b : UInt8) : Bool := (Num.digitValue? b).any (· < base)
  if ds.isEmpty || !ds.all isDigit then none
  else
    let n : Int := Num.ofDigits base ds
    some (Int64.ofInt (if negative then -n else n))

/-- `tonumber`: the number that a text denotes. -/
def tonumber (inv : Invocation) : Program (List Value) := do
  if inv.lacks 2 then
    match inv.arg 1 with
    | .num n => return [.num n]
    | .str s => return [((Num.ofBytes? s).map Value.num).getD .nil]
    | _ =>
      discard (inv.value 1)
      return quietFailure
  else
    let base ← inv.integer 2
    match inv.arg 1 with
    | .str s =>
      if base < 2 || base > 36 then inv.wrongText 2 "base out of range"
      return [((readBase base.toInt.toNat s).map fun i => Value.num (.int i)).getD .nil]
    | _ => inv.wrongType 1 "string"

/-- `select`: the arguments from a place on, or their number. -/
def select (inv : Invocation) : Program (List Value) := do
  let count := inv.args.length
  if let .str (35 :: _) := inv.arg 1 then return [.int (count - 1 : Nat)]
  let i ← inv.integer 1
  let place : Int := if i < 0 then count + i.toInt else i.toInt
  if place < 1 then inv.wrongText 1 "index out of range"
  return inv.args.drop place.toNat

/-! ## Tables without metamethods -/

/-- `rawequal`. -/
def rawequal (inv : Invocation) : Program (List Value) := do
  let v ← inv.value 1
  let w ← inv.value 2
  return [.bool (v.rawEq w)]

/-- `rawget`. -/
def rawget (inv : Invocation) : Program (List Value) := do
  let a ← inv.table 1
  let k ← inv.value 2
  return [← Program.queryOne (.rawGet a k)]

/-- `rawlen`. -/
def rawlen (inv : Invocation) : Program (List Value) := do
  match inv.arg 1 with
  | .table a => return [← Program.queryOne (.border a)]
  | .str s => return [.int s.length]
  | _ => inv.wrongText 1 "table or string expected"

/-- `rawset`. -/
def rawset (inv : Invocation) : Program (List Value) := do
  let a ← inv.table 1
  let k ← inv.value 2
  let v ← inv.value 3
  Operation.store .library a k v
  return [.table a]

/-- `getmetatable`: a metatable may hide itself. -/
def getmetatable (inv : Invocation) : Program (List Value) := do
  let v ← inv.value 1
  match ← Program.queryOne (.metafield v (Bytes.ofAscii "__metatable")) with
  | .nil => return [← Program.queryOne (.metatable v)]
  | shown => return [shown]

/-- `setmetatable`: a metatable may forbid its change. -/
def setmetatable (inv : Invocation) : Program (List Value) := do
  let a ← inv.table 1
  let m ←
    match inv.arg 2 with
    | .table m => pure (some m)
    | .nil => if inv.has 2 then pure none else inv.wrongType 2 "nil or table"
    | _ => inv.wrongType 2 "nil or table"
  match ← Program.queryOne (.metafield (.table a) (Bytes.ofAscii "__metatable")) with
  | .nil =>
    discard (Program.query (.setMetatable a m))
    return [.table a]
  | _ => inv.failText "cannot change a protected metatable"

/-! ## Iteration -/

/-- `next`: the entry after a key. -/
def next (inv : Invocation) : Program (List Value) := do
  let a ← inv.table 1
  match ← Program.query (.next a (inv.arg 2).key?) with
  | [] => return [.nil]
  | kv => return kv

/-- `pairs`: what a loop over all entries needs; a metamethod may give it. -/
def pairs (inv : Invocation) : Program (List Value) := do
  let v ← inv.value 1
  match ← Operation.handler v "pairs" with
  | .nil => return [.native .next, v, .nil]
  | h =>
    let vs ← call h [v]
    return [vs.getD 0 .nil, vs.getD 1 .nil, vs.getD 2 .nil]

/-- `ipairs`: what a loop over a sequence needs. -/
def ipairs (inv : Invocation) : Program (List Value) := do
  let v ← inv.value 1
  return [.native .ipairsStep, v, .int 0]

/-- One round of a loop over a sequence. -/
def ipairsStep (inv : Invocation) : Program (List Value) := do
  let i ← inv.integer 2
  let k := Value.num (.int (i + 1))
  match ← Operation.index .library none (inv.arg 1) k with
  | .nil => return [.nil]
  | v => return [k, v]

/-! ## Scripts -/

/-- Collects the pieces of a script from a function, until it gives nothing; an error of the
function, or an answer that is no string, is the result. -/
def readPieces (inv : Invocation) (f : Value) (acc : Bytes) :
    Nat → Program (Except Value Bytes)
  | 0 => .done (.ok acc)
  | fuel + 1 => do
    match ← Program.query (.protect f [] none) with
    | .bool true :: vs =>
      match vs.headD .nil with
      | .nil => return .ok acc
      | v =>
        match v.toBytes? with
        | some [] => return .ok acc
        | some s => readPieces inv f (acc ++ s) fuel
        | none =>
          return .error (.str (positionText inv.site.position ++
            Bytes.ofAscii "reader function must return a string"))
    | vs => return .error (vs.getD 1 .nil)

/-- `load`: reads a script into a function. -/
def load (inv : Invocation) : Program (List Value) := do
  let mode ← inv.bytesOr 3 (Bytes.ofAscii "bt")
  if mode.contains 66 then inv.wrongText 3 "invalid mode"
  let env := if inv.has 4 then some (inv.arg 4) else none
  let given := (inv.arg 1).toBytes?
  let name ← inv.bytesOr 2 (given.getD (Bytes.ofAscii "=(load)"))
  let text ←
    match given with
    | some s => pure (Except.ok s)
    | none => readPieces inv (← inv.callable 1) [] 100000
  match text with
  | .error e => return [.nil, e]
  | .ok s =>
    if mode.contains 116 then .query (.load name s env)
    else
      let message := Bytes.ofAscii "attempt to load a text chunk (mode is '" ++ mode ++
        Bytes.ofAscii "')"
      return [.nil, .str message]

/-! ## The environment -/

/-- `collectgarbage`: the heap is not collected; the answers are those of an idle collector. -/
def collectgarbage (inv : Invocation) : Program (List Value) := do
  let option ← inv.bytesOr 1 (Bytes.ofAscii "collect")
  match Bytes.latin1 option with
  | "collect" | "stop" | "restart" | "param" => return [.int 0]
  | "count" => return [.num (.float 24.5)]
  | "step" | "isrunning" => return [.bool true]
  | "incremental" | "generational" => return [.text "incremental"]
  | _ =>
    inv.wrong 1 (Bytes.ofAscii "invalid option '" ++ option ++ Bytes.ofAscii "'")

/-- `warn`: warnings are not shown. -/
def warn (inv : Invocation) : Program (List Value) := do
  discard (inv.bytes 1)
  for i in List.range inv.args.length do discard (inv.bytes (i + 1))
  return []

end ScriptAgent.Script.Library
