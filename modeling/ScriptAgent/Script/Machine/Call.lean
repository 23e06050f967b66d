import ScriptAgent.Script.Machine.Expression
import ScriptAgent.Script.Library

/-!
# Steps of calls

A call of a script's function binds its parameters and runs its body under an activation. A call
of a library function runs its program, which may ask the machine for a call in turn. A tool
ends the step: its answer comes from outside.
-/

namespace ScriptAgent.Script

namespace State

/-- The largest number of functions of scripts that run at a time. -/
def maxActivations : Nat := 199990

/-- The largest number of functions of the library that wait for a call at a time. -/
def maxNesting : Nat := 195

/-- The table of the extra arguments of a function that has a name for them. -/
def packExtra (extra : List Value) : Table :=
  (storeItems Table.empty 0 extra).set (.str (Bytes.ofAscii "n")) (.int extra.length)

/-- Binds the parameters of a function. -/
def bindParameters (s : State) (closure : Closure) (args : List Value) : Context × State :=
  let f := closure.function
  let extra := if f.vararg then args.drop f.params else []
  let c : Context := ⟨closure.vars, extra, f.chunk⟩
  let (c, s) := s.bind c (adjust f.params args)
  if f.varargTable then
    let (a, s) := s.allocate (·.newTable (packExtra extra))
    s.bind c [.table a]
  else (c, s)

/-- Calls a function of a script. -/
def callClosure (s : State) (a : Address) (args : List Value) (site : Site) : State :=
  if s.activations ≥ maxActivations then
    s.fault ⟨site.position⟩ (Bytes.ofAscii "stack overflow")
  else
    match s.heap.closures[a]? with
    | none => s.give []
    | some closure =>
      let (c, s) := s.bindParameters closure args
      match s with
      | ⟨heap, stack, mode, activations, nesting, thread⟩ =>
        (⟨heap, .activation site :: stack, mode, activations + 1, nesting, thread⟩ : State).enter
          closure.function.body c

/-- The longest chain of values that are called in turn. -/
def maxCallChain : Nat := 15

/-- The function that a call of a value calls, with its arguments: the value itself, or the one
that its metatable gives. -/
def resolveCall (h : Heap) (v : Value) (args : List Value) :
    Nat → Except (Option Value) (Value × List Value)
  | 0 => .error none
  | fuel + 1 =>
    match v with
    | .function _ | .native _ | .wrapped _ | .matcher _ | .tool _ | .foreign _ | .failure _ =>
      .ok (v, args)
    | _ =>
      match h.metafield v (Bytes.ofAscii "__call") with
      | .nil => .error (some v)
      | f => resolveCall h f (v :: args) fuel

/-- Calls a function of the library. -/
def callNative (s : State) (inv : Invocation) : State :=
  let m : Mode := .native (inv.function.run inv.args inv.site) (some inv.site)
  if inv.function.prints then s.push (.printing inv) m else s.become m

/-- Calls a value. -/
def call (s : State) (f : Value) (args : List Value) (site : Site) : Step :=
  match resolveCall s.heap f args maxCallChain with
  | .error none => .next (s.fault ⟨site.position⟩ (Bytes.ofAscii "'__call' chain too long"))
  | .error (some v) =>
    .next (s.runUnit (Operation.wrongType ⟨site.position⟩ "call" v site.name))
  | .ok (.function a, args) => .next (s.callClosure a args site)
  | .ok (.native n, args) => .next (s.callNative ⟨n, args, site⟩)
  | .ok (.wrapped a, args) =>
    .next (s.become (.native (Library.resumeWrapped a site args) (some site)))
  | .ok (.matcher a, _) => .next (s.become (.native (Library.stepMatcher a site) (some site)))
  | .ok (.tool w, args) => .tool w args (s.give [])
  | .ok (.foreign _, _) =>
    .next (s.become (.raise (.failure "'str' object is not callable")))
  | .ok (_, _) => .next (s.become (.raise (.failure "object is not callable")))

/-- Drops the frames of the running function. -/
def dropActivation : List Frame → List Frame × Site
  | [] => ([], .outside)
  | .activation site :: rest => (rest, site)
  | _ :: rest => dropActivation rest

/-- Calls a value in place of the running function. -/
def tailCall (s : State) (f : Value) (args : List Value) (site : Site) : Step :=
  match resolveCall s.heap f args maxCallChain with
  | .ok (.function a, args) =>
    match s with
    | ⟨heap, stack, mode, activations, nesting, thread⟩ =>
      let (stack, outer) := dropActivation stack
      .next (callClosure ⟨heap, stack, mode, activations - 1, nesting, thread⟩ a args outer)
  | _ => (s.push .returnValues s.mode).call f args site

/-! ## Coroutines -/

/-- Splits a stack at the boundary of the running coroutine. -/
def splitBoundary (acc : List Frame) : List Frame → List Frame × Option (Address × Address) × List Frame
  | [] => (acc.reverse, none, [])
  | .boundary t outer :: rest => (acc.reverse, some (t, outer), rest)
  | f :: rest => splitBoundary (f :: acc) rest

/-- The numbers of activations and of waiting library functions in a part of the stack. -/
def weight (fs : List Frame) : Nat × Nat :=
  (fs.countP Frame.isActivation, fs.countP Frame.isNativeCall)

/-- Changes the status of a coroutine. -/
def setStatus (h : Heap) (t : Address) (status : ThreadStatus) : Heap :=
  h.setThread t { h.thread t with status := status }

/-- Runs a coroutine that is not running; `fs` is its stack and `m` what it begins with. -/
def enterThread (s : State) (t : Address) (fs : List Frame) (m : Mode) : State :=
  match s with
  | ⟨heap, stack, _, activations, nesting, outer⟩ =>
    let heap := setStatus (setStatus heap outer .normal) t .running
    let (a, n) := weight fs
    ⟨heap, fs ++ .boundary t outer :: stack, m, activations + a, nesting + n + 1, t⟩

/-- Stops the running coroutine with a new status; `k` gives what its resumer is answered. -/
def leaveThread (s : State) (keep : List Frame → Thread) (answer : List Value) : State :=
  match s with
  | ⟨heap, stack, _, activations, nesting, _⟩ =>
    match splitBoundary [] stack with
    | (fs, some (t, outer), rest) =>
      let heap := setStatus (heap.setThread t (keep fs)) outer .running
      let (a, n) := weight fs
      ⟨heap, rest, .ret answer, activations - a, nesting - n - 1, outer⟩
    | (_, none, _) => ⟨heap, [], .ret answer, 0, 0, 0⟩

/-- Resumes a coroutine. -/
def resume (s : State) (t : Address) (args : List Value) : State :=
  let thread := s.heap.thread t
  match thread.status with
  | .dead => s.give [.bool false, .text "cannot resume dead coroutine"]
  | .suspended =>
    if s.nesting ≥ maxNesting then s.give [.bool false, .text "C stack overflow"]
    else
      match thread.entry with
      | some f =>
        let s := s.mapHeap (·.setThread t { thread with entry := none })
        s.enterThread t [] (.call f args .outside)
      | none =>
        let fs := thread.stack
        let s := s.mapHeap (·.setThread t { thread with stack := [] })
        s.enterThread t fs (.ret args)
  | _ => s.give [.bool false, .text "cannot resume non-suspended coroutine"]

/-- Whether a function of the library that waits for a call keeps a coroutine from stopping. -/
def yieldBlocked : List Frame → Bool
  | [] => false
  | .boundary .. :: _ => false
  | f :: rest => f.blocksYield || yieldBlocked rest

/-- Stops the running coroutine until it is resumed. -/
def yield (s : State) (vs : List Value) : State :=
  if s.thread = 0 then s.become (.raise (.text "attempt to yield from outside a coroutine"))
  else if yieldBlocked s.stack then
    s.become (.raise (.text "attempt to yield across a C-call boundary"))
  else s.leaveThread (fun fs => ⟨.suspended, none, fs, none⟩) (.bool true :: vs)

/-- Whether a frame holds a variable that has to be closed. -/
def isClosing : Frame → Bool
  | .closing .. | .resumeUnwind _ => true
  | _ => false

/-- The answer of the end of a coroutine that is closed. -/
def closeAnswer : Option Value → List Value
  | none => [.bool true]
  | some e => [.bool false, e]

/-- Closes a coroutine: the variables of its stack that are still to be closed are closed. -/
def closeThread (s : State) (t : Address) : State :=
  if t = s.thread then s.become (.unwind (.close none))
  else
    let thread := s.heap.thread t
    let s := s.mapHeap (·.setThread t ⟨.dead, none, [], none⟩)
    if thread.stack.any isClosing then
      s.enterThread t thread.stack (.unwind (.close thread.failure))
    else s.give (closeAnswer thread.failure)

/-! ## Questions -/

/-- The position of the code at a level above the running library function: the place at which
the function of the level below is called. -/
def positionAt (level : Nat) : List Frame → Option (Bytes × Nat)
  | [] => none
  | .boundary .. :: _ => none
  | f :: rest =>
    match f.site?, level with
    | some site, 0 => site.position
    | some _, level + 1 => positionAt level rest
    | none, level => positionAt level rest

/-- Reads a script into a function: the function, or nil and a message. -/
def load (s : State) (chunk text : Bytes) (env : Option Value) : State :=
  match parse chunk text with
  | .error message => s.give [.nil, .str message]
  | .ok f =>
    match s with
    | ⟨heap, stack, _, activations, nesting, thread⟩ =>
      let (cell, heap) := heap.newCell (env.getD (.table globalsAddress))
      let (a, heap) := heap.newClosure ⟨f, [cell]⟩
      ⟨heap, stack, .ret [.function a], activations, nesting, thread⟩

/-- The text of the print buffer, if it holds a string. -/
def bufferedText (h : Heap) : Option Bytes :=
  match (h.table globalsAddress).getStr bufferName with
  | .str text => some text
  | _ => none

/-- Appends a line to the text of the print buffer. -/
def printLine (h : Heap) (text line : Bytes) : Heap :=
  h.modifyTable globalsAddress (·.set (.str bufferName) (.str (text ++ line ++ [10])))

/-- Completes a call that prints: its line is appended to the print buffer and given back. -/
def completeLine (s : State) (inv : Invocation) (v : Value) : State :=
  let line := Library.textBytes v
  match bufferedText s.heap with
  | some text => (s.mapHeap fun h => printLine h text line).giveOne v
  | none =>
    s.become (.native ((Library.appendToOther line).bind fun _ => .done [v]) (some inv.site))

end State

end ScriptAgent.Script
