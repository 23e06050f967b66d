import ScriptAgent.Sandbox.Names
import ScriptAgent.Sandbox.Run
import ScriptAgent.Script.Globals

/-!
# The sandbox

A sandbox is a script's heap together with the tools that are bound in it. Globals persist from
one execution to the next; what an execution begins with does not: every time the tools are
bound, the control functions are put back, the print buffer is emptied and the answer is
removed.

All access of the host to globals is a program on the heap, so it follows the rules of the
language, metatables included.
-/

namespace ScriptAgent

open Script

/-- A tool that is bound, and the number of the wrapper that scripts see. -/
structure Binding where
  name : String
  tool : Tool
  wrapper : Nat
deriving Inhabited

/-- A sandbox. -/
structure Sandbox where
  heap : Heap
  /-- The tools behind wrappers, by their numbers. -/
  wrapped : Array Tool
  bound : List Binding
  /-- The largest number of steps that a script is run for. -/
  limit : Nat
deriving Inhabited

namespace Sandbox

/-- The tools that are to be bound, by name. -/
abbrev ToolMap := List (String × Tool)

/-- The limit of a fresh sandbox. -/
def stepLimit : Nat := 2000000000

/-- A fresh sandbox. -/
def empty : Sandbox := ⟨Heap.initial, #[], [], stepLimit⟩

/-! ## Failures of the host's access -/

/-- Why an operation of the host fails. -/
inductive Failure where
  | name (fault : NameFault)
  | tooLarge
  /-- A metamethod of a table fails. -/
  | script (message : String)
deriving Inhabited

/-- The message of a failure. -/
def Failure.message : Failure → String
  | .name fault => fault.message
  | .tooLarge => Exchange.TooLarge.message
  | .script message => message

/-- The text of an error that ends a script: a string up to its first NUL, each byte read as a
character, or the text of a number. -/
def errorText (e : Value) : String :=
  match e with
  | .str s => Bytes.latin1 s.beforeNul
  | .num n => Bytes.latin1 n.toBytes
  | .failure message => message
  | _ => ""

/-! ## Binding tools -/

/-- Whether an access to a path creates the tables on the way. -/
inductive Missing where
  | create | stop
deriving DecidableEq

/-- Writes a value at a path below a table. -/
def assignBelow (missing : Missing) (v : Value) (target : Value) : List Bytes → Program Unit
  | [] => .done ()
  | [leaf] => Operation.setIndex .library none target (.str leaf) v
  | scope :: rest => do
    match ← Operation.index .library none target (.str scope) with
    | .table a => assignBelow missing v (.table a) rest
    | _ =>
      match missing with
      | .stop => return
      | .create =>
        let t ← Program.queryOne .newTable
        Operation.setIndex .library none target (.str scope) t
        assignBelow missing v t rest

/-- The path of a name as keys of tables. -/
def keysOf (name : String) : List Bytes := (pathOf name).map Utf8.encodeChars

/-- Writes a value at the path of a name below the globals. -/
def assign (missing : Missing) (name : String) (v : Value) : Program Unit :=
  assignBelow missing v (.table globalsAddress) (keysOf name)

/-- Performs a program of the host in a sandbox. -/
def perform {α : Type} (s : Sandbox) (p : Program α) (w : World) :
    Except Failure α × Sandbox × World :=
  match runProgram s.wrapped s.limit p s.heap w with
  | (.returned a, h, w) => (.ok a, { s with heap := h }, w)
  | (.raised e, h, w) => (.error (.script (errorText e)), { s with heap := h }, w)
  | (.unfinished, h, w) => (.error (.script ""), { s with heap := h }, w)

/-- Puts a binding in place of the one of the same name, or last. -/
def putBinding (b : Binding) : List Binding → List Binding
  | [] => [b]
  | c :: rest => if c.name = b.name then b :: rest else c :: putBinding b rest

/-- The binding of a name. -/
def binding? (s : Sandbox) (name : String) : Option Binding := s.bound.find? (·.name = name)

/-- Puts a new wrapper of a tool behind a name. -/
def wrapAnew (s : Sandbox) (name : String) (tool : Tool) : Sandbox :=
  { s with
    bound := putBinding ⟨name, tool, s.wrapped.size⟩ s.bound
    wrapped := s.wrapped.push tool }

/-- Puts a tool behind a name, and gives the number of its wrapper; a tool that is bound under the
same name keeps its wrapper. -/
def wrap (s : Sandbox) (name : String) (tool : Tool) : Nat × Sandbox :=
  match s.binding? name with
  | some b => if b.tool.id = tool.id then (b.wrapper, s) else (s.wrapped.size, s.wrapAnew name tool)
  | none => (s.wrapped.size, s.wrapAnew name tool)

/-- Removes the binding of a name. -/
def dropBinding (s : Sandbox) (name : String) : Sandbox :=
  { s with bound := s.bound.filter fun b => b.name ≠ name }

/-- Unbinds names one after the other. -/
def unbindAll : List String → Sandbox → World → Except Failure Unit × Sandbox × World
  | [], s, w => (.ok (), s, w)
  | name :: rest, s, w =>
    match s.perform (assign .stop name .nil) w with
    | (.ok (), s, w) => unbindAll rest (s.dropBinding name) w
    | (.error e, s, w) => (.error e, s, w)

/-- Binds tools one after the other. -/
def bindAll : ToolMap → Sandbox → World → Except Failure Unit × Sandbox × World
  | [], s, w => (.ok (), s, w)
  | (name, tool) :: rest, s, w =>
    let (wrapper, s) := s.wrap name tool
    match s.perform (assign .create name (.tool wrapper)) w with
    | (.ok (), s, w) => bindAll rest s w
    | (.error e, s, w) => (.error e, s, w)

/-- The names that are bound and not among `names`. -/
def boundBeyond (s : Sandbox) (names : List String) : List String :=
  (s.bound.map Binding.name).filter fun name => !names.contains name

/-- Binds tools, each under its name, and removes those that were bound before and are not among
them. -/
def bind (s : Sandbox) (tools : ToolMap) (w : World) : Except Failure Unit × Sandbox × World :=
  let names := tools.map Prod.fst
  match checkNames names with
  | .error fault => (.error (.name fault), s, w)
  | .ok () =>
    match unbindAll (s.boundBeyond names) s w with
    | (.error e, s, w) => (.error e, s, w)
    | (.ok (), s, w) => bindAll tools s w

/-! ## Globals -/

/-- The value of a global. -/
def readGlobal (name : Bytes) : Program Value :=
  Operation.index .library none (.table globalsAddress) (.str name)

/-- Gives a global a value. -/
def writeGlobal (name : Bytes) (v : Value) : Program Unit :=
  Operation.setIndex .library none (.table globalsAddress) (.str name) v

/-- The value of a global, as plain data. -/
def getGlobal (s : Sandbox) (name : String) (w : World) :
    Except Failure Datum × Sandbox × World :=
  match s.perform (readGlobal (Utf8.encode name)) w with
  | (.ok v, s, w) => (.ok (Exchange.decode s.heap v), s, w)
  | (.error e, s, w) => (.error e, s, w)

/-- Gives a global a value of the host. -/
def setGlobal (s : Sandbox) (name : String) (d : Datum) (w : World) :
    Except Failure Unit × Sandbox × World :=
  if reservedNames.contains name then (.error (.name (.reservedGlobal name)), s, w)
  else
    match Exchange.encode s.heap d with
    | .error _ => (.error .tooLarge, s, w)
    | .ok (v, h) => perform { s with heap := h } (writeGlobal (Utf8.encode name) v) w

/-- The text that the last script has printed. -/
def printBuffer (s : Sandbox) (w : World) : Except Failure String × Sandbox × World :=
  match s.perform (readGlobal bufferName) w with
  | (.ok v, s, w) =>
    match Exchange.decode s.heap v with
    | .str text => (.ok text, s, w)
    | _ => (.ok "", s, w)
  | (.error e, s, w) => (.error e, s, w)

/-! ## Executions -/

/-- Whether a script fails before or while it runs. -/
inductive ErrorKind where
  | compilation | runtime
deriving DecidableEq, Inhabited

/-- The word for a kind of failure. -/
def ErrorKind.text : ErrorKind → String
  | .compilation => "CompilationError"
  | .runtime => "RuntimeError"

/-- The outcome of an execution. -/
inductive Outcome where
  /-- The script has ended without an answer. -/
  | continued
  | answered (d : Datum)
  | failed (kind : ErrorKind) (message : String)
deriving Inhabited

/-- The outcome of an execution, and what the script has printed. -/
structure Execution where
  outcome : Outcome
  output : String
deriving Inhabited

/-- The control functions, by name. -/
def controls : List (String × Value) :=
  [("print", .native .print), ("thought", .native .thought),
    ("observation", .native .observation), ("final_answer", .native .finalAnswer)]

/-- Gives globals values, in order. -/
def writeGlobals : List (Bytes × Value) → Program Unit
  | [] => .done ()
  | (name, v) :: rest => do
    writeGlobal name v
    writeGlobals rest

/-- What every execution begins with: the control functions, no answer, an empty buffer. -/
def prepare : Program Unit :=
  writeGlobals ((controls.map fun (name, v) => (Bytes.ofAscii name, v)) ++
    [(answerName, .nil), (bufferName, .str [])])

/-- The logger of executions. -/
def logger : String := "luagent.sandbox.lua_engine"

/-- The outcome of a script that has failed, with what it has printed. -/
def failedRun (s : Sandbox) (message : String) (w : World) :
    Except Failure Execution × Sandbox × World :=
  match s.printBuffer w with
  | (.ok output, s, w) => (.ok ⟨.failed .runtime message, output⟩, s, w)
  | (.error e, s, w) => (.error e, s, w)

/-- The outcome of a script that has ended. -/
def endedRun (s : Sandbox) (w : World) : Except Failure Execution × Sandbox × World :=
  match s.printBuffer w with
  | (.error e, s, w) => (.error e, s, w)
  | (.ok output, s, w) =>
    match s.perform (readGlobal answerName) w with
    | (.error e, s, w) => (.error e, s, w)
    | (.ok v, s, w) =>
      match v with
      | .nil => (.ok ⟨.continued, output⟩, s, w)
      | v => (.ok ⟨.answered (Exchange.decode s.heap v), output⟩, s, w)

/-- Runs a script that has been read. -/
def runParsed (s : Sandbox) (script : Function) (w : World) :
    Except Failure Execution × Sandbox × World :=
  match runScript s.wrapped s.limit s.heap script w with
  | (.returned _, h, w) => endedRun { s with heap := h } w
  | (.raised e, h, w) =>
    let s := { s with heap := h }
    match e with
    | .failure message =>
      s.failedRun message (w.log logger .error "Unexpected host error while running script")
    | e =>
      s.failedRun (errorText e)
        (w.log logger .info s!"Script raised a runtime error: {errorText e}")
  | (.unfinished, h, w) => failedRun { s with heap := h } "" w

/-- Executes a script with tools. -/
def execute (s : Sandbox) (code : String) (tools : ToolMap) (w : World) :
    Except Failure Execution × Sandbox × World :=
  match s.bind tools w with
  | (.error e, s, w) => (.error e, s, w)
  | (.ok (), s, w) =>
    match s.perform prepare w with
    | (.error e, s, w) => (.error e, s, w)
    | (.ok (), s, w) =>
      match Script.parse scriptChunk (Utf8.encode code) with
      | .ok script => s.runParsed script w
      | .error message =>
        let text := Text.quotedBytes message
        (.ok ⟨.failed .compilation text, ""⟩, s,
          w.log logger .info s!"Script failed to compile: {text}")

end Sandbox

end ScriptAgent
