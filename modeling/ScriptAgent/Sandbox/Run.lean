import ScriptAgent.Exchange.Decode
import ScriptAgent.Exchange.Encode
import ScriptAgent.Script.Machine
import ScriptAgent.Tool

/-!
# Runs with tools

A run iterates the machine's step until the script ends. A call of a tool takes the arguments to
the host, calls the tool, and takes its value back.

A tool that fails gives the script nothing, and the failure is only logged. The one value that
cannot be taken back is an integer beyond 64 bits: on its own, or as what a member of an enumeration
stands for, it is a failure that the script can catch; inside a list or a dictionary it makes the
call give nothing.

The host runs programs of its own on the heap (`runProgram`). Only what such a program calls is a run
of the machine.
-/

namespace ScriptAgent.Sandbox

open Script

/-- The logger of the calls of tools. -/
def bridgeLogger : String := "luagent.sandbox.bridge"

/-- What a script gets from the call of a tool. -/
inductive Answer where
  | value (v : Value)
  | failure (message : String)

/-- Takes the value of a tool to a script. -/
def answerOf (t : Tool) (d : Datum) (h : Heap) (w : World) : Answer × Heap × World :=
  match d.underlying with
  | .int i =>
    if Script.Num.fits i then (.value (.num (.int (Int64.ofInt i))), h, w)
    else (.failure Exchange.TooLarge.message, h, w)
  | d =>
    match Exchange.encode h d with
    | .ok (v, h) => (.value v, h, w)
    | .error _ =>
      (.value .nil, h, w.log bridgeLogger .error
        s!"Tool bridge for '{t.name}' crashed, returning nil to script")

/-- Calls a tool for a script. -/
def callTool (t : Tool) (args : List Value) (h : Heap) (w : World) : Answer × Heap × World :=
  let (r, w) := t.execute (args.map (Exchange.decode h)) w
  if r.ok then answerOf t r.value h w
  else
    let error := r.error.getD "None"
    (.value .nil, h, w.log bridgeLogger .warning
      s!"Tool '{t.name}' failed, returning nil to script: {error}")

/-- How a run ends. -/
inductive Ending (α : Type) where
  | returned (a : α)
  | raised (e : Value)
  /-- The run has not ended within the steps that it was given. -/
  | unfinished

/-- Gives a script the answer of a tool. -/
def resumeWith (s : State) (a : Answer) (h : Heap) : State :=
  let s := s.mapHeap fun _ => h
  match a with
  | .value v => s.giveOne v
  | .failure message => s.become (.raise (.failure message))

/-- Runs the machine for at most `fuel` steps; `tools` are the tools behind wrappers. -/
def run (tools : Array Tool) : Nat → State → World → Ending (List Value) × Heap × World
  | 0, s, w => (.unfinished, s.heap, w)
  | fuel + 1, s, w =>
    match s.step with
    | .next s => run tools fuel s w
    | .done vs h => (.returned vs, h, w)
    | .failed e h => (.raised e, h, w)
    | .tool wrapper args s =>
      let (a, h, w) := callTool (tools.getD wrapper default) args s.heap w
      run tools fuel (resumeWith s a h) w

/-- The state in which nothing but one thing is left to do. -/
def start (h : Heap) (m : Mode) : State := ⟨h, [], m, 0, 0, 0⟩

/-- Runs a script. -/
def runScript (tools : Array Tool) (fuel : Nat) (h : Heap) (script : Function) (w : World) :
    Ending (List Value) × Heap × World :=
  let (cell, h) := h.newCell (.table globalsAddress)
  let (a, h) := h.newClosure ⟨script, [cell]⟩
  run tools fuel (start h (.call (.function a) [] .outside)) w

/-- Asks a question that needs code to run, as the only thing that is left to do. -/
def ask (tools : Array Tool) (fuel : Nat) (q : Query) (h : Heap) (w : World) :
    Ending (List Value) × Heap × World :=
  run tools fuel (start h (.native (.query q) none)) w

/-- Runs a program of the host on a heap; what it calls is run for at most `fuel` steps. -/
def runProgram {α : Type} (tools : Array Tool) (fuel : Nat) :
    Program α → Heap → World → Ending α × Heap × World
  | .done a, h, w => (.returned a, h, w)
  | .raise e, h, w => (.raised e, h, w)
  | .ask q k, h, w =>
    if q.isAboutHeap then
      let (vs, h) := h.reply q
      runProgram tools fuel (k vs) h w
    else
      match ask tools fuel q h w with
      | (.returned vs, h, w) => runProgram tools fuel (k vs) h w
      | (.raised e, h, w) => (.raised e, h, w)
      | (.unfinished, h, w) => (.unfinished, h, w)

end ScriptAgent.Sandbox
