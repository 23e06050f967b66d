import ScriptAgent.Script.Library.Argument
import ScriptAgent.Script.Random
import ScriptAgent.Script.Table

/-!
# States of the machine

A state of the machine is a heap, a stack of frames and a mode. The stack holds everything that
is left to do: what is left of expressions and statements, the functions that are running, the
calls that catch errors and the coroutines that wait for one another. A coroutine that does
not run keeps its part of the stack in the heap, so a coroutine is data like the rest of the
state.

The heap only grows. Its operations have one law each: what is read after a write.
-/

namespace ScriptAgent.Script

/-! ## Frames -/

/-- What the code of a function runs in: its variables, innermost first, its extra arguments, and
the display name of its script. -/
structure Context where
  vars : List Address
  extra : List Value
  chunk : Bytes
deriving Inhabited

/-- The place of an operation at a line. -/
def Context.place (c : Context) (line : Nat) : Place := ⟨some (c.chunk, line)⟩

/-- What an assignment writes to, once its parts are values. -/
inductive Slot where
  | cell (a : Address)
  | field (object key : Value) (name : Described)
deriving Inhabited

/-- A transfer of control that leaves frames behind. -/
inductive Unwind where
  | leave
  /-- The next round of a loop that tests at its end. -/
  | again
  | goto (label : Bytes) (vars : List Address)
  | finish (vs : List Value)
  | error (e : Value)
  /-- The end of a coroutine that is closed, and what it has failed with so far. -/
  | close (failure : Option Value)
deriving Inhabited

/-- A table under construction: the index of the last value that is stored, and the values that
wait to be stored after it, the last one first. -/
structure Filling where
  table : Address
  stored : Nat
  waiting : List Value
deriving Inhabited

/-- What remains to be done with a result. -/
inductive Frame where
  -- expressions
  | keepFirst
  | binaryRight (op : BinaryOp) (left right : Expr) (line : Nat) (c : Context)
  /-- The right operand is running; the left one is a variable, which is read after it. -/
  | binaryLocal (op : BinaryOp) (left right : Expr) (line : Nat) (c : Context)
  | binaryApply (op : BinaryOp) (v : Value) (left right : Expr) (line : Nat) (c : Context)
  | andRight (right : Expr) (c : Context)
  | orRight (right : Expr) (c : Context)
  | unaryApply (op : UnaryOp) (operand : Expr) (line : Nat) (c : Context)
  | indexKey (object key : Expr) (line : Nat) (c : Context)
  | indexLocal (object : Expr) (line : Nat) (c : Context)
  | indexApply (v : Value) (object : Expr) (line : Nat) (c : Context)
  | callee (function : Expr) (args : List Expr) (line : Nat) (tail : Bool) (c : Context)
  | receiver (method : Expr) (tail : Bool) (c : Context)
  | method (object : Value) (method : Expr) (tail : Bool) (c : Context)
  | collect (done : List Value) (rest : List Expr) (c : Context)
  | apply (f : Value) (self : List Value) (site : Site) (tail : Bool)
  | fieldKey (f : Filling) (value : Expr) (line : Nat) (rest : List Field) (c : Context)
  | fieldValue (f : Filling) (key : Value) (line : Nat) (rest : List Field) (c : Context)
  | fieldItem (f : Filling) (rest : List Field) (c : Context)
  | fieldItems (f : Filling)
  -- statements
  | seq (rest : List Stmt) (c : Context)
  /-- A block whose labels can be jumped to. -/
  | labels (body : List Stmt) (c : Context)
  | declare (count : Nat) (close : Option (Nat × Bytes)) (line : Nat) (rest : List Stmt)
      (c : Context)
  | targetObject (done : List Slot) (object key : Expr) (rest : List Target)
      (values : List Expr) (line : Nat) (c : Context)
  | targetKey (done : List Slot) (v : Value) (object : Expr) (rest : List Target)
      (values : List Expr) (line : Nat) (c : Context)
  | assign (slots : List Slot) (line : Nat) (c : Context)
  | store (rest : List (Slot × Value)) (line : Nat) (c : Context)
  | branch (yes no : List Stmt) (c : Context)
  | whileTest (condition : Expr) (body : List Stmt) (c : Context)
  | whileLoop (condition : Expr) (body : List Stmt) (c : Context)
  | repeatLoop (body : List Stmt) (c : Context)
  | untilTest
  | forPrepare (body : List Stmt) (line : Nat) (c : Context)
  /-- A loop over integers with the number of rounds that are left. -/
  | forCount (i : Int64) (left : Nat) (step : Int64) (body : List Stmt) (c : Context)
  | forFloat (x limit step : Float) (body : List Stmt) (c : Context)
  | forInPrepare (count : Nat) (body : List Stmt) (line : Nat) (c : Context)
  | forInResults (count : Nat) (f s : Value) (body : List Stmt) (line : Nat) (c : Context)
  | forInLoop (count : Nat) (f s control : Value) (body : List Stmt) (line : Nat)
      (c : Context)
  | returnValues
  -- functions
  | activation (site : Site)
  /-- A program of the library that waits for an answer; `site` is the call of the function
  that it is, if it is one. -/
  | native (k : List Value → Program (List Value)) (site : Option Site)
  /-- A call that prints, of which the line is being made. -/
  | printing (inv : Invocation)
  /-- A call whose errors are caught; `site` is the call of the function that catches them. -/
  | guarded (handler : Option Value) (site : Option Site)
  /-- An error handler is running. -/
  | handling
  | boundary (thread outer : Address)
  /-- A variable to be closed at the end of the rest of its block. -/
  | closing (v : Value) (rest : List Stmt) (c : Context)
  | resumeUnwind (u : Unwind)
  /-- A value that is delivered after a variable has been closed. -/
  | deliver (vs : List Value)

instance : Inhabited Frame := ⟨.keepFirst⟩

namespace Frame

/-- Whether a frame is a call of the host language's stack in which a coroutine cannot stop:
a function of the library that calls back, other than those that wait for it. -/
def blocksYield : Frame → Bool
  | .native _ (some _) | .printing _ => true
  | _ => false

/-- Whether a frame begins a function of the library that calls back. -/
def isNativeCall : Frame → Bool
  | .native .. | .guarded .. | .boundary .. | .handling => true
  | _ => false

/-- Whether a frame begins a function of the script. -/
def isActivation : Frame → Bool
  | .activation _ => true
  | _ => false

/-- The call that a frame is at, if it begins a function. -/
def site? : Frame → Option Site
  | .activation s => some s
  | .native _ s | .guarded _ s => s
  | _ => none

end Frame

/-! ## The heap -/

/-- A function of a script with the variables that are in scope at its definition. -/
structure Closure where
  function : Function
  vars : List Address
deriving Inhabited

/-- Whether a coroutine runs. -/
inductive ThreadStatus where
  | suspended | running | normal | dead
deriving DecidableEq, Inhabited

/-- The word for a coroutine's status. -/
def ThreadStatus.text : ThreadStatus → String
  | .suspended => "suspended"
  | .running => "running"
  | .normal => "normal"
  | .dead => "dead"

/-- A coroutine. Before it first runs, its stack is empty and `entry` is its function. -/
structure Thread where
  status : ThreadStatus
  entry : Option Value
  stack : List Frame
  /-- The error that the coroutine ended with. -/
  failure : Option Value
deriving Inhabited

/-- The objects of a script's run. -/
structure Heap where
  tables : Array Table
  closures : Array Closure
  cells : Array Value
  threads : Array Thread
  searches : Array Search
  /-- The metatable of strings. -/
  stringMeta : Option Address
  /-- The state of the random sequence. -/
  seed : Random
deriving Inhabited

namespace Heap

/-- A heap without objects other than the main coroutine. -/
def empty : Heap := ⟨#[], #[], #[], #[⟨.running, none, [], none⟩], #[], none, .ofSeed 0 0⟩

/-- The table at an address. -/
def table (h : Heap) (a : Address) : Table := h.tables.getD a Table.empty

/-- Puts a table at an address. -/
def setTable (h : Heap) (a : Address) (t : Table) : Heap :=
  match h with
  | ⟨tables, closures, cells, threads, searches, sm, seed⟩ =>
    ⟨tables.setIfInBounds a t, closures, cells, threads, searches, sm, seed⟩

/-- Changes the table at an address. -/
def modifyTable (h : Heap) (a : Address) (f : Table → Table) : Heap :=
  match h with
  | ⟨tables, closures, cells, threads, searches, sm, seed⟩ =>
    ⟨tables.modify a f, closures, cells, threads, searches, sm, seed⟩

/-- A table at a new address. -/
def newTable (h : Heap) (t : Table) : Address × Heap :=
  match h with
  | ⟨tables, closures, cells, threads, searches, sm, seed⟩ =>
    (tables.size, ⟨tables.push t, closures, cells, threads, searches, sm, seed⟩)

/-- The value of a variable. -/
def cell (h : Heap) (a : Address) : Value := h.cells.getD a .nil

/-- Gives a variable a value. -/
def setCell (h : Heap) (a : Address) (v : Value) : Heap :=
  match h with
  | ⟨tables, closures, cells, threads, searches, sm, seed⟩ =>
    ⟨tables, closures, cells.setIfInBounds a v, threads, searches, sm, seed⟩

/-- A new variable. -/
def newCell (h : Heap) (v : Value) : Address × Heap :=
  match h with
  | ⟨tables, closures, cells, threads, searches, sm, seed⟩ =>
    (cells.size, ⟨tables, closures, cells.push v, threads, searches, sm, seed⟩)

/-- A new function. -/
def newClosure (h : Heap) (c : Closure) : Address × Heap :=
  match h with
  | ⟨tables, closures, cells, threads, searches, sm, seed⟩ =>
    (closures.size, ⟨tables, closures.push c, cells, threads, searches, sm, seed⟩)

/-- The coroutine at an address. -/
def thread (h : Heap) (a : Address) : Thread := h.threads.getD a ⟨.dead, none, [], none⟩

/-- Puts a coroutine at an address. -/
def setThread (h : Heap) (a : Address) (t : Thread) : Heap :=
  match h with
  | ⟨tables, closures, cells, threads, searches, sm, seed⟩ =>
    ⟨tables, closures, cells, threads.setIfInBounds a t, searches, sm, seed⟩

/-- A new coroutine. -/
def newThread (h : Heap) (t : Thread) : Address × Heap :=
  match h with
  | ⟨tables, closures, cells, threads, searches, sm, seed⟩ =>
    (threads.size, ⟨tables, closures, cells, threads.push t, searches, sm, seed⟩)

/-- The search at an address. -/
def search (h : Heap) (a : Address) : Search := h.searches.getD a ⟨[], [], 0, none⟩

/-- Puts a search at an address. -/
def setSearch (h : Heap) (a : Address) (s : Search) : Heap :=
  match h with
  | ⟨tables, closures, cells, threads, searches, sm, seed⟩ =>
    ⟨tables, closures, cells, threads, searches.setIfInBounds a s, sm, seed⟩

/-- A new search. -/
def newSearch (h : Heap) (s : Search) : Address × Heap :=
  match h with
  | ⟨tables, closures, cells, threads, searches, sm, seed⟩ =>
    (searches.size, ⟨tables, closures, cells, threads, searches.push s, sm, seed⟩)

/-- The next word of the random sequence. -/
def random (h : Heap) : UInt64 × Heap :=
  let (x, seed) := h.seed.next
  (x, { h with seed })

/-- The metatable of a value. -/
def metatable (h : Heap) (v : Value) : Option Address :=
  match v with
  | .table a => (h.table a).metatable
  | .str _ => h.stringMeta
  | _ => none

/-- A field of the metatable of a value, or nil. -/
def metafield (h : Heap) (v : Value) (name : Bytes) : Value :=
  match h.metatable v with
  | some m => (h.table m).getStr name
  | none => .nil

end Heap

/-! ## Modes -/

/-- What the machine does next. -/
inductive Mode where
  /-- Finds the one value of an expression. -/
  | eval (e : Expr) (c : Context)
  /-- Finds all values of an expression. -/
  | evalMany (e : Expr) (c : Context)
  | exec (body : List Stmt) (c : Context)
  | call (f : Value) (args : List Value) (site : Site)
  | native (p : Program (List Value)) (site : Option Site)
  /-- Gives values to the frame on top of the stack. -/
  | ret (vs : List Value)
  | raise (e : Value)
  | unwind (u : Unwind)
deriving Inhabited

/-- A state of the machine. -/
structure State where
  heap : Heap
  stack : List Frame
  mode : Mode
  /-- The number of functions of scripts that are running. -/
  activations : Nat
  /-- The number of functions of the library that wait for a call. -/
  nesting : Nat
  /-- The running coroutine; `0` is the main one. -/
  thread : Address
deriving Inhabited

/-- The outcome of a step. -/
inductive Step where
  | next (s : State)
  /-- The script has ended. -/
  | done (vs : List Value) (h : Heap)
  /-- The script has ended with an error. -/
  | failed (e : Value) (h : Heap)
  /-- The script waits for the answer of a tool. -/
  | tool (wrapper : Nat) (args : List Value) (s : State)

end ScriptAgent.Script
