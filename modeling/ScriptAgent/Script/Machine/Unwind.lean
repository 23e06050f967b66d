import ScriptAgent.Script.Machine.Statement

/-!
# Leaving frames

An error first looks for what catches it, with the stack still whole: a call that catches errors
(whose handler runs before anything is left), the boundary of a coroutine, which ends it, or the
closing of a coroutine. Then frames are left one by one; a variable that is to be closed is
closed on the way, and the unwinding goes on after that.
-/

namespace ScriptAgent.Script

namespace State

/-- What an error reaches first. -/
inductive Catcher where
  /-- A call that catches errors, with its handler. -/
  | guarded (handler : Option Value)
  /-- The handler of a call that catches errors, which is running. -/
  | handling (handler : Option Value)
  | boundary
  | closing
  | none

/-- Finds what catches an error. -/
def findCatcher (inHandler : Bool) : List Frame → Catcher
  | [] => .none
  | .guarded h _ :: _ => if inHandler then .handling h else .guarded h
  | .handling :: rest => findCatcher true rest
  | .boundary .. :: _ => .boundary
  | .resumeUnwind (.close _) :: _ => .closing
  | _ :: rest => findCatcher inHandler rest

/-- What an error without a value is caught as. -/
def errorValue : Value → Value
  | .nil => .text "<no error object>"
  | e => e

/-- The error of a handler that fails again and again. -/
def handlerFailure : Value := .text "error in error handling"

/-- Runs an error handler. -/
def runHandler (s : State) (h e : Value) : State :=
  match s with
  | ⟨heap, stack, _, activations, nesting, thread⟩ =>
    if nesting ≥ maxNesting + 20 then
      ⟨heap, stack, .unwind (.error handlerFailure), activations, nesting, thread⟩
    else
      ⟨heap, .handling :: stack, .call h [e] .outside, activations, nesting + 1, thread⟩

/-- Raises an error. -/
def raise (s : State) (e : Value) : State :=
  match findCatcher false s.stack with
  | .guarded (some h) | .handling (some h) => s.runHandler h e
  | .boundary =>
    let e := errorValue e
    s.leaveThread (fun fs => ⟨.dead, none, fs.filter isClosing, some e⟩) [.bool false, e]
  | .none => s.become (.unwind (.error e))
  | _ => s.become (.unwind (.error (errorValue e)))

/-- Leaves a frame of which nothing remains to be done. -/
def drop (s : State) : State :=
  match s with
  | ⟨heap, [], mode, activations, nesting, thread⟩ =>
    ⟨heap, [], mode, activations, nesting, thread⟩
  | ⟨heap, f :: stack, mode, activations, nesting, thread⟩ =>
    ⟨heap, stack, mode, activations - (if f.isActivation then 1 else 0),
      nesting - (if f.isNativeCall then 1 else 0), thread⟩

/-- Closes a variable, with the error that its block ends with if there is one; `f` is what follows. -/
def callClose (s : State) (v : Value) (error : List Value) (f : Frame) (c : Context) : State :=
  let name : Described := some (.metamethod, Bytes.ofAscii "close")
  let handler := s.heap.metafield v (Bytes.ofAscii "__close")
  s.push f (.call handler (v :: error) ⟨(c.place 0).position, name⟩)

/-- Closes a variable on the way out of its block. -/
def closeOnTheWay (s : State) (v : Value) (u : Unwind) (c : Context) : State :=
  let error :=
    match u with
    | .error e | .close (some e) => [e]
    | _ => []
  s.drop.callClose v error (.resumeUnwind u) c

/-- The last variables of a list. -/
def innerVars (vars : List Address) (depth : Nat) : List Address :=
  vars.drop (vars.length - depth)

/-- Leaves the frame on top of the stack. -/
def unwind (s : State) (u : Unwind) : Step :=
  match s.stack with
  | [] =>
    match u with
    | .error e => .failed e s.heap
    | .finish vs => .done vs s.heap
    | _ => .done [] s.heap
  | f :: _ =>
    match f, u with
    | .activation _, .finish vs => .next (s.drop.give vs)
    | .whileLoop .., .leave | .forCount .., .leave | .forFloat .., .leave
    | .forInLoop .., .leave | .repeatLoop .., .leave => .next (s.drop.give [])
    | .repeatLoop body c, .again => .next (s.enter body c)
    | .labels body c, .goto label vars =>
      match findLabel label body with
      | some (stmts, depth) =>
        .next (s.become (.exec stmts ⟨innerVars vars depth, c.extra, c.chunk⟩))
      | none => .next s.drop
    | .closing v stmts c, .goto label vars =>
      match findLabel label stmts with
      | some (stmts, depth) =>
        .next (s.become (.exec stmts ⟨innerVars vars depth, c.extra, c.chunk⟩))
      | none => .next (s.closeOnTheWay v u c)
    | .closing v _ c, _ => .next (s.closeOnTheWay v u c)
    | .guarded .., .error e => .next (s.drop.give [.bool false, e])
    | .boundary .., .close failure =>
      .next (s.leaveThread (fun _ => ⟨.dead, none, [], none⟩) (closeAnswer failure))
    | .boundary .., .error e =>
      .next (s.leaveThread (fun _ => ⟨.dead, none, [], some e⟩) [.bool false, e])
    | .resumeUnwind (.close _), .error e => .next (s.drop.become (.unwind (.close (some e))))
    | _, _ => .next s.drop

end State

end ScriptAgent.Script
