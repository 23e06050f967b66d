import ScriptAgent.Script.Machine.Basic

/-!
# Steps of expressions

An expression is run by pushing a frame for what is left of it and running its first part.
Operands run from the left to the right; a variable of the running function that is the left
operand is read after the right one has run.
-/

namespace ScriptAgent.Script

namespace Expr

/-- Whether an expression is a variable of the running function. -/
def isLocal : Expr → Bool
  | .var _ _ upvalue => !upvalue
  | _ => false

/-- Whether an expression may give any number of values. -/
def givesMany : Expr → Bool
  | .call .. | .method .. | .vararg => true
  | _ => false

end Expr

namespace State

/-- Finds the values of a list of expressions; the last one gives all its values. -/
def evalList (s : State) (es : List Expr) (c : Context) : State :=
  match es with
  | [] => s.give []
  | [e] => s.become (.evalMany e c)
  | e :: rest => s.push (.collect [] rest c) (.eval e c)

/-- Applies an operator with two operands. -/
def applyBinary (s : State) (op : BinaryOp) (v w : Value) (left right : Expr) (line : Nat)
    (c : Context) : State :=
  s.runOne (Operation.binary (c.place line) ⟨left.describe, right.describe⟩ op v w)

/-- The variables that the code of a function is in scope of. -/
def makeClosure (s : State) (body : Function) (c : Context) : Address × State :=
  s.allocate (·.newClosure ⟨body, c.vars⟩)

/-! ## Table constructors -/

/-- The number of values that wait until they are stored together. -/
def maxWaiting : Nat := 50

/-- Stores values at successive integers. -/
def storeItems (t : Table) (i : Nat) : List Value → Table
  | [] => t
  | v :: rest => storeItems (t.set (.int (Int64.ofNat (i + 1))) v) (i + 1) rest

/-- Stores the values that wait. -/
def storeWaiting (s : State) (f : Filling) : Filling × State :=
  (⟨f.table, f.stored + f.waiting.length, []⟩,
    s.mapHeap (·.modifyTable f.table fun t => storeItems t f.stored f.waiting.reverse))

/-- Stores the values that wait if there are many. -/
def storeIfMany (s : State) (f : Filling) : Filling × State :=
  if f.waiting.length ≥ maxWaiting then s.storeWaiting f else (f, s)

/-- Finishes a table under construction. -/
def finishTable (s : State) (f : Filling) : State :=
  (s.storeWaiting f).2.giveOne (.table f.table)

/-- Runs the fields of a table constructor. -/
def fillFields (s : State) (f : Filling) (fields : List Field) (c : Context) : State :=
  match fields with
  | [] => s.finishTable f
  | .positional e :: rest =>
    let (f, s) := s.storeIfMany f
    if rest.isEmpty && e.givesMany then s.push (.fieldItems f) (.evalMany e c)
    else s.push (.fieldItem f rest c) (.eval e c)
  | .keyed key value line :: rest =>
    let (f, s) := s.storeIfMany f
    s.push (.fieldKey f value line rest c) (.eval key c)

/-- Stores a field of a table constructor. -/
def storeField (s : State) (f : Filling) (key v : Value) (line : Nat) (rest : List Field)
    (c : Context) : State :=
  match key.key? with
  | some k => (s.mapHeap (·.modifyTable f.table (·.set k v))).fillFields f rest c
  | none =>
    s.fault (c.place line)
      (Bytes.ofAscii (if key == .nil then "table index is nil" else "table index is NaN"))

/-! ## Expressions -/

/-- Begins an expression of which one value is wanted. -/
def eval (s : State) (e : Expr) (c : Context) : State :=
  match e with
  | .literal .nil => s.giveOne .nil
  | .literal (.bool b) => s.giveOne (.bool b)
  | .literal (.num n) => s.giveOne (.num n)
  | .literal (.str t) => s.giveOne (.str t)
  | .vararg => s.giveOne (c.extra.headD .nil)
  | .var d _ _ => s.giveOne (s.heap.cell (c.var d))
  | .index object key line =>
    if object.isLocal then s.push (.indexLocal object line c) (.eval key c)
    else s.push (.indexKey object key line c) (.eval object c)
  | .call .. | .method .. => s.push .keepFirst (.evalMany e c)
  | .function body =>
    let (a, s) := s.makeClosure body c
    s.giveOne (.function a)
  | .binary op left right line =>
    if left.isLocal && op != .concat then
      s.push (.binaryLocal op left right line c) (.eval right c)
    else s.push (.binaryRight op left right line c) (.eval left c)
  | .and left right => s.push (.andRight right c) (.eval left c)
  | .or left right => s.push (.orRight right c) (.eval left c)
  | .unary op operand line => s.push (.unaryApply op operand line c) (.eval operand c)
  | .single e => s.become (.eval e c)
  | .table fields _ =>
    let (a, s) := s.allocate (·.newTable Table.empty)
    s.fillFields ⟨a, 0, []⟩ fields c

/-- Begins an expression of which all values are wanted. -/
def evalMany (s : State) (e : Expr) (c : Context) : State :=
  match e with
  | .call f args line => s.push (.callee f args line false c) (.eval f c)
  | .method object _ _ _ _ => s.push (.receiver e false c) (.eval object c)
  | .vararg => s.give c.extra
  | e => s.become (.eval e c)

/-- Calls a function with arguments that are still to be run. -/
def callWith (s : State) (f : Value) (self : List Value) (args : List Expr) (site : Site)
    (tail : Bool) (c : Context) : State :=
  (s.push (.apply f self site tail) s.mode).evalList args c

end State

end ScriptAgent.Script
