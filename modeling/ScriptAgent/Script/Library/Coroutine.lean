import ScriptAgent.Script.Library.Argument

/-!
# Functions on coroutines

A coroutine is run by a question to the machine that is answered when the coroutine stops. A
function made by `coroutine.wrap` passes errors on; a message gets the position of the caller
in front.
-/

namespace ScriptAgent.Script.Library

open Invocation

/-- The coroutine that runs when no other one does. -/
def mainThread : Address := 0

/-- A coroutine among the arguments. -/
def coroutineArg (inv : Invocation) : Program Address :=
  match inv.arg 1 with
  | .thread a => .done a
  | _ => inv.wrongType 1 "coroutine"

/-- `coroutine.create`. -/
def coroutineCreate (inv : Invocation) : Program (List Value) := do
  let f ← inv.callable 1
  .query (.newThread f)

/-- `coroutine.resume`. -/
def coroutineResume (inv : Invocation) : Program (List Value) := do
  let a ← coroutineArg inv
  .query (.resume a (inv.args.drop 1))

/-- `coroutine.yield`. -/
def coroutineYield (inv : Invocation) : Program (List Value) :=
  .query (.yield inv.args)

/-- `coroutine.status`. -/
def coroutineStatus (inv : Invocation) : Program (List Value) := do
  let a ← coroutineArg inv
  .query (.threadStatus a)

/-- `coroutine.running`. -/
def coroutineRunning (_ : Invocation) : Program (List Value) := do
  match ← Program.queryOne .running with
  | .nil => return [.thread mainThread, .bool true]
  | t => return [t, .bool false]

/-- `coroutine.isyieldable`. -/
def coroutineIsyieldable (inv : Invocation) : Program (List Value) := do
  match inv.arg 1 with
  | .thread a => return [.bool (a != mainThread)]
  | _ => return [.bool ((← Program.queryOne .running) != .nil)]

/-- `coroutine.close`. -/
def coroutineClose (inv : Invocation) : Program (List Value) := do
  let a ←
    match inv.arg 1 with
    | .nil => do
      match ← Program.queryOne .running with
      | .thread a => pure a
      | _ => pure mainThread
    | _ => coroutineArg inv
  match ← Program.queryOne (.threadStatus a) with
  | .str s =>
    if s == Bytes.ofAscii "normal" then inv.failText "cannot close a normal coroutine"
    if s == Bytes.ofAscii "running" && a = mainThread then
      inv.failText "cannot close main thread"
    .query (.closeThread a)
  | _ => return [.nil]

/-- `coroutine.wrap`. -/
def coroutineWrap (inv : Invocation) : Program (List Value) := do
  let f ← inv.callable 1
  match ← Program.queryOne (.newThread f) with
  | .thread a => return [.wrapped a]
  | v => return [v]

/-- A call of a function made by `coroutine.wrap`. -/
def resumeWrapped (a : Address) (site : Site) (args : List Value) : Program (List Value) := do
  let before ← Program.queryOne (.threadStatus a)
  match ← Program.query (.resume a args) with
  | .bool true :: vs => return vs
  | answer =>
    let failure := answer.getD 1 .nil
    let failure ← do
      if before == .text "suspended" then
        match ← Program.query (.closeThread a) with
        | [.bool false, e] => pure e
        | _ => pure failure
      else pure failure
    match failure with
    | .str s => .raise (.str (positionText site.position ++ s))
    | e => .raise e

end ScriptAgent.Script.Library
