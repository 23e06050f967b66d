import ScriptAgent.Script.Machine.Call

/-!
# Steps of statements

A block runs its first statement under a frame that holds the rest. Declarations change the
context of the rest; loops push a frame that they come back to; everything that leaves a block
early is an `Unwind`.
-/

namespace ScriptAgent.Script

namespace State

/-! ## Declarations and closing -/

/-- Whether a value may be held by a variable that is closed, and whether it needs closing. -/
def closable (h : Heap) (v : Value) : Option Bool :=
  match v with
  | .nil | .bool false => some false
  | v => if h.metafield v (Bytes.ofAscii "__close") == .nil then none else some true

/-- Goes on with the rest of a block in which a value is to be closed at the end. -/
def guardRest (s : State) (v : Value) (name : Bytes) (line : Nat) (rest : List Stmt)
    (c : Context) (m : Mode) : State :=
  match closable s.heap v with
  | some false => s.become m
  | some true => s.push (.closing v rest c) m
  | none =>
    s.fault (c.place line)
      (Bytes.ofAscii "variable '" ++ name ++ Bytes.ofAscii "' got a non-closable value")

/-- Declares variables with the values found, and goes on with the rest of the block. -/
def declare (s : State) (count : Nat) (close : Option (Nat × Bytes)) (line : Nat)
    (rest : List Stmt) (c : Context) (vs : List Value) : State :=
  let vs := adjust count vs
  let (c, s) := s.bind c vs
  match close with
  | none => s.become (.exec rest c)
  | some (i, name) => s.guardRest (vs.getD i .nil) name line rest c (.exec rest c)

/-! ## Assignments -/

/-- Runs the parts of the targets of an assignment, then its values. -/
def assignTargets (s : State) (done : List Slot) (targets : List Target) (values : List Expr)
    (line : Nat) (c : Context) : State :=
  match targets with
  | [] => (s.push (.assign done line c) s.mode).evalList values c
  | .var d _ :: rest => s.assignTargets (.cell (c.var d) :: done) rest values line c
  | .index object key :: rest =>
    s.push (.targetObject done object key rest values line c) (.eval object c)

/-- Pairs the slots of an assignment, the last one first, with the values that they get. -/
def pairSlots (slots : List Slot) (vs : List Value) : List (Slot × Value) :=
  slots.zip (adjust slots.length vs).reverse

/-- Writes to the slots of an assignment, the last one first. -/
def storeSlots (s : State) (line : Nat) (c : Context) : List (Slot × Value) → State
  | [] => s.give []
  | (.cell a, v) :: rest => (s.mapHeap (·.setCell a v)).storeSlots line c rest
  | (.field object key name, v) :: rest =>
    (s.push (.store rest line c) s.mode).runUnit
      (Operation.setIndex (c.place line) name object key v)

/-! ## Loops -/

/-- The message of a control value of a loop that is no number. -/
def loopFault (s : State) (p : Place) (what : String) (v : Value) : State :=
  s.runUnit do
    let t ← Operation.typeName v
    Operation.fault p
      (Bytes.ofAscii s!"bad 'for' {what} (number expected, got " ++ t ++ Bytes.ofAscii ")")

/-- The integer that bounds a loop over integers: the limit rounded towards the start, or the end
of the integers that lies beyond it; `none` if the loop does not run. -/
def integerLimit (limit : Num) (step : Int64) : Option Int64 :=
  match limit with
  | .int i => some i
  | .float x =>
    let rounded := if step < 0 then x.ceil else x.floor
    match Num.floatToInt? rounded with
    | some i => some i
    | none =>
      if x > 0 then if step < 0 then none else some (Int64.ofInt 0x7FFFFFFFFFFFFFFF)
      else if step > 0 then none else some (Int64.ofInt (-0x8000000000000000))

/-- The number of rounds after the first one of a loop over integers; `none` if there is no first
one. -/
def roundsAfterFirst (start limit step : Int64) : Option Nat :=
  if step > 0 then
    if start > limit then none
    else some ((limit.toInt - start.toInt) / step.toInt).toNat
  else if start < limit then none
  else some ((start.toInt - limit.toInt) / -step.toInt).toNat

/-- One round of a loop over integers. -/
def roundInt (s : State) (i : Int64) (left : Nat) (step : Int64) (body : List Stmt)
    (c : Context) : State :=
  let s := s.push (.forCount i left step body c) s.mode
  let (c, s) := s.bind c [.num (.int i)]
  s.enter body c

/-- One round of a loop over floats. -/
def roundFloat (s : State) (x limit step : Float) (body : List Stmt) (c : Context) : State :=
  let s := s.push (.forFloat x limit step body c) s.mode
  let (c, s) := s.bind c [.num (.float x)]
  s.enter body c

/-- Whether a loop over floats has a round. -/
def hasRound (x limit step : Float) : Bool := if 0 < step then x ≤ limit else limit ≤ x

/-- Begins a loop over numbers. -/
def forNumeric (s : State) (start limit step : Value) (body : List Stmt) (line : Nat)
    (c : Context) : State :=
  let p := c.place line
  match start, step with
  | .num (.int i), .num (.int d) =>
    if d == 0 then s.fault p (Bytes.ofAscii "'for' step is zero")
    else
      match limit.toNum? with
      | none => s.loopFault p "limit" limit
      | some n =>
        match (integerLimit n d).bind fun l => roundsAfterFirst i l d with
        | none => s.give []
        | some left => s.roundInt i left d body c
  | _, _ =>
    match limit.toNum?, step.toNum?, start.toNum? with
    | none, _, _ => s.loopFault p "limit" limit
    | _, none, _ => s.loopFault p "step" step
    | _, _, none => s.loopFault p "initial value" start
    | some l, some d, some x =>
      if d.toFloat == 0 then s.fault p (Bytes.ofAscii "'for' step is zero")
      else if hasRound x.toFloat l.toFloat d.toFloat then
        s.roundFloat x.toFloat l.toFloat d.toFloat body c
      else s.give []

/-- Asks the iterator of a loop for its next values. -/
def nextRound (s : State) (count : Nat) (f state control : Value) (body : List Stmt)
    (line : Nat) (c : Context) : State :=
  let site : Site := ⟨some (c.chunk, line), some (.iterator, Bytes.ofAscii "for iterator")⟩
  s.push (.forInResults count f state body line c) (.call f [state, control] site)

/-- One round of a loop over the values of an iterator. -/
def roundIn (s : State) (count : Nat) (f state : Value) (vs : List Value) (body : List Stmt)
    (line : Nat) (c : Context) : State :=
  match vs.headD .nil with
  | .nil => s.give []
  | control =>
    let s := s.push (.forInLoop count f state control body line c) s.mode
    let (c, s) := s.bind c (adjust count vs)
    s.enter body c

/-! ## Statements -/

/-- Begins the next statement of a block. -/
def exec (s : State) (body : List Stmt) (c : Context) : State :=
  match body with
  | [] => s.give []
  | .declare n [] close line :: rest => s.declare n close line rest c []
  | .declare n values close line :: rest =>
    (s.push (.declare n close line rest c) s.mode).evalList values c
  | .declareFunction f :: rest =>
    let (c, s) := s.bind c [.nil]
    let (a, s) := s.makeClosure f c
    (s.mapHeap (·.setCell (c.var 0) (.function a))).become (.exec rest c)
  | .label .. :: rest => s.become (.exec rest c)
  | .return [.call f args line] true :: _ => s.push (.callee f args line true c) (.eval f c)
  | .return [.method object name args nameLine line] true :: _ =>
    s.push (.receiver (.method object name args nameLine line) true c) (.eval object c)
  | .return values _ :: _ => (s.push .returnValues s.mode).evalList values c
  | .break :: _ => s.become (.unwind .leave)
  | .goto label :: _ => s.become (.unwind (.goto label c.vars))
  | .fault message line :: _ => s.fault (c.place line) message
  | .until condition :: _ => s.push .untilTest (.eval condition c)
  | stmt :: rest =>
    let s := s.push (.seq rest c) s.mode
    match stmt with
    | .assign targets values line => s.assignTargets [] targets values line c
    | .call e => s.become (.evalMany e c)
    | .block body => s.enter body c
    | .while condition body => s.push (.whileTest condition body c) (.eval condition c)
    | .repeat body => (s.push (.repeatLoop body c) s.mode).enter body c
    | .if condition yes no => s.push (.branch yes no c) (.eval condition c)
    | .forNumeric start limit step body line =>
      (s.push (.forPrepare body line c) s.mode).evalList [start, limit, .single step] c
    | .forIn count values body line =>
      (s.push (.forInPrepare count body line c) s.mode).evalList values c
    | _ => s.give []

end State

end ScriptAgent.Script
