import ScriptAgent.Agent.Prompt
import ScriptAgent.Answer
import ScriptAgent.Model.Generated
import ScriptAgent.Sandbox
import ScriptAgent.World

/-!
# The loop of a run

A run alternates between asking a model for a script and executing it, until a script gives a
final answer, the run is cancelled, something fails, or the budget is used up. What generates
scripts, what executes them and what is logged are functions on a state, a `Backend`, so the loop
is the same for every model and every sandbox.

The conversation keeps what each iteration has added: the script, and after it what the script has
printed or why it has failed. An iteration that ends the run adds nothing after its script.
-/

namespace ScriptAgent.Agent

/-- What a run uses, as functions on a state. -/
structure Backend (σ : Type) where
  generate : String → σ → Model.Generated × σ
  execute : String → σ → Except Sandbox.Failure Sandbox.Execution × σ
  log : Level → String → σ → σ

/-- How a run ends. -/
inductive Ending where
  | answered (text : String)
  /-- The budget is used up. -/
  | exhausted (budget : Nat)
  | cancelled (iteration : Nat)
  /-- The model has failed. -/
  | refused (message : String)
  /-- The answer cannot be written as a text. -/
  | unwritable (refusal : Json.Refusal)
  /-- The sandbox has failed. -/
  | broken (failure : Sandbox.Failure)
deriving Inhabited

/-- The message of an ending without an answer. -/
def Ending.message : Ending → String
  | .answered text => text
  | .exhausted budget => s!"Maximum iterations reached ({budget})"
  | .cancelled iteration => s!"Cancelled before iteration {iteration}"
  | .refused message => message
  | .unwritable refusal => refusal.message
  | .broken failure => failure.message

/-- What a run is given: its name in log records, the way to the prompt, the number of iterations,
and those before which it is cancelled. -/
structure Plan where
  name : String
  prompt : Conversation → String
  budget : Nat
  isCancelled : Nat → Bool

/-- What a script that has not ended the run adds to the conversation. -/
def record (c : Conversation) (e : Sandbox.Execution) : Conversation :=
  match e.outcome with
  | .failed kind message => c.add .system s!"Error: {kind.text}: {message}"
  | .continued | .answered _ => if e.output.isEmpty then c else c.add .system e.output

variable {σ : Type}

/-- Writes a log record of a run. -/
def Backend.note (b : Backend σ) (p : Plan) (level : Level) (message : String) (s : σ) : σ :=
  b.log level s!"[{p.name}] {message}" s

/-- Notes a failure of a script. -/
def Backend.noteFailure (b : Backend σ) (p : Plan) (e : Sandbox.Execution) (s : σ) : σ :=
  match e.outcome with
  | .failed kind message => b.note p .info s!"Script failed: {kind.text}: {message}" s
  | .continued | .answered _ => s

/-- The end of a run with the answer of a script. -/
def Backend.conclude (b : Backend σ) (p : Plan) (iteration : Nat) (answer : Datum) (s : σ) :
    Ending × σ :=
  match answer.answer with
  | .error refusal => (.unwritable refusal, s)
  | .ok text =>
    (.answered text, b.note p .info s!"Final answer after {iteration} iteration(s): {text}" s)

/-- Goes on with a run that has `left` iterations left. -/
def Backend.iterate (b : Backend σ) (p : Plan) : Nat → Conversation → σ → Ending × Conversation × σ
  | 0, c, s =>
    (.exhausted p.budget, c, b.note p .warning s!"Gave up after {p.budget} iteration(s)" s)
  | left + 1, c, s =>
    let iteration := p.budget - left
    if p.isCancelled iteration then
      (.cancelled iteration, c, b.note p .info s!"Cancelled before iteration {iteration}" s)
    else
      match b.generate (p.prompt c) s with
      | (.refused message, s) => (.refused message, c, s)
      | (.crashed crash, s) =>
        (.refused crash.message, c, b.note p .error s!"LLM call crashed: {crash.message}" s)
      | (.code code, s) =>
        let c := c.add .assistant code
        match b.execute code s with
        | (.error failure, s) => (.broken failure, c, s)
        | (.ok e, s) =>
          match e.outcome with
          | .answered answer =>
            let (ending, s) := b.conclude p iteration answer s
            (ending, c, s)
          | .continued | .failed .. => iterate b p left (record c e) (b.noteFailure p e s)

/-- Runs a task after a conversation. -/
def Backend.run (b : Backend σ) (p : Plan) (task : String) (c : Conversation) (s : σ) :
    Ending × Conversation × σ :=
  b.iterate p p.budget (c.add .user task) (b.note p .info s!"Starting task: {task}" s)

end ScriptAgent.Agent
