import ScriptAgent.Script.State
import ScriptAgent.Script.Parser

/-!
# Parts of a step

What the steps of expressions, statements and calls have in common: going on in another mode,
giving values back, running a program of the library, and binding variables.
-/

namespace ScriptAgent.Script

namespace State

/-- Goes on in another mode. -/
def become (s : State) (m : Mode) : State := { s with mode := m }

/-- Leaves a frame and goes on in another mode. -/
def push (s : State) (f : Frame) (m : Mode) : State :=
  match s with
  | ⟨heap, stack, _, activations, nesting, thread⟩ =>
    ⟨heap, f :: stack, m, activations, nesting, thread⟩

/-- Gives values to the frame on top of the stack. -/
def give (s : State) (vs : List Value) : State := s.become (.ret vs)

/-- Gives one value to the frame on top of the stack. -/
def giveOne (s : State) (v : Value) : State := s.become (.ret [v])

/-- Raises a message with a position. -/
def fault (s : State) (p : Place) (message : Bytes) : State :=
  s.become (.raise (.str (positionText p.position ++ message)))

/-- Changes the heap. -/
@[inline] def mapHeap (s : State) (f : Heap → Heap) : State :=
  match s with
  | ⟨heap, stack, mode, activations, nesting, thread⟩ =>
    ⟨f heap, stack, mode, activations, nesting, thread⟩

/-- Adds an object to the heap. -/
@[inline] def allocate (s : State) (f : Heap → Address × Heap) : Address × State :=
  match s with
  | ⟨heap, stack, mode, activations, nesting, thread⟩ =>
    let (a, heap) := f heap
    (a, ⟨heap, stack, mode, activations, nesting, thread⟩)

/-- Runs a program that is no function of the library by itself. -/
def run (s : State) (p : Program (List Value)) : State :=
  match p with
  | .done vs => s.give vs
  | .raise e => s.become (.raise e)
  | p => s.become (.native p none)

/-- Runs a program that gives one value. -/
def runOne (s : State) (p : Program Value) : State :=
  match p with
  | .done v => s.giveOne v
  | .raise e => s.become (.raise e)
  | p => s.become (.native (p.bind fun v => .done [v]) none)

/-- Runs a program that gives nothing. -/
def runUnit (s : State) (p : Program Unit) : State :=
  match p with
  | .done _ => s.give []
  | .raise e => s.become (.raise e)
  | p => s.become (.native (p.bind fun _ => .done []) none)

end State

namespace Context

/-- The variable at a distance. -/
def var (c : Context) (distance : Nat) : Address := c.vars.getD distance 0

/-- The context with more variables, innermost first. -/
def withVars (c : Context) (vars : List Address) : Context := ⟨vars ++ c.vars, c.extra, c.chunk⟩

end Context

/-- Cuts a list of values to a length, or fills it up with nil. -/
def adjust (n : Nat) (vs : List Value) : List Value :=
  match n, vs with
  | 0, _ => []
  | n + 1, [] => .nil :: adjust n []
  | n + 1, v :: rest => v :: adjust n rest

/-- New variables with values; the last one is the innermost. -/
def Heap.newCells (h : Heap) (acc : List Address) : List Value → List Address × Heap
  | [] => (acc, h)
  | v :: rest =>
    let (a, h) := h.newCell v
    h.newCells (a :: acc) rest

/-- Declares variables with values. -/
def State.bind (s : State) (c : Context) (vs : List Value) : Context × State :=
  match s with
  | ⟨heap, stack, mode, activations, nesting, thread⟩ =>
    let (vars, heap) := heap.newCells [] vs
    (c.withVars vars, ⟨heap, stack, mode, activations, nesting, thread⟩)

/-- Whether a statement is a label. -/
def Stmt.isLabel : Stmt → Bool
  | .label .. => true
  | _ => false

/-- What follows a label in a block, and the number of variables that are in scope there. -/
def findLabel (name : Bytes) : List Stmt → Option (List Stmt × Nat)
  | [] => none
  | .label l depth :: rest => if l = name then some (rest, depth) else findLabel name rest
  | _ :: rest => findLabel name rest

/-- Runs a block; if it has labels, it can be jumped into. -/
def State.enter (s : State) (body : List Stmt) (c : Context) : State :=
  if body.any Stmt.isLabel then s.push (.labels body c) (.exec body c)
  else s.become (.exec body c)

end ScriptAgent.Script
