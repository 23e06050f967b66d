import ScriptAgent.Agent.Loop
import ScriptAgent.Model.Provider
import ScriptAgent.Schema
import ScriptAgent.Tool.Bundled

/-!
# Agents

An agent is a model with tools, a budget, a conversation and a sandbox. The conversation and the
sandbox carry over from one run to the next, so a task can build on what an earlier one has left.
-/

namespace ScriptAgent

/-- An agent. -/
structure Agent where
  name : String
  budget : Nat
  tools : Sandbox.ToolMap
  provider : Model.Provider
  conversation : Conversation
  sandbox : Sandbox
deriving Inhabited

namespace Agent

/-- The logger of runs. -/
def logger : String := "luagent.agent.agent_loop"

/-- Why an agent cannot be made. -/
inductive Unusable where
  | name (fault : Sandbox.NameFault)
  | options (issues : List Issue)
deriving Inhabited

/-- Makes an agent without a past. Without a budget or a name the settings give one. -/
def make (settings : Settings) (provider : Model.Provider) (tools : Sandbox.ToolMap)
    (budget name : Datum) : Except Unusable Agent :=
  match Sandbox.checkNames (tools.map Prod.fst) with
  | .error fault => .error (.name fault)
  | .ok () =>
    match Check.agentOptions (budget.orMissing (.int settings.maxIterations))
        (name.orDefault (.str settings.agentName)) with
    | .error issues => .error (.options issues)
    | .ok (budget, name) => .ok ⟨name, budget, tools, provider, .empty, .empty⟩

/-- The default tools under their names. -/
def defaultTools : Sandbox.ToolMap := Tool.basicTools.map fun t => (t.name, t)

/-- What the run of an agent works on. -/
structure State where
  provider : Model.Provider
  sandbox : Sandbox
  world : World

/-- The model and the sandbox of an agent as what a run uses. -/
def backend (tools : Sandbox.ToolMap) : Backend State where
  generate prompt s :=
    let (g, provider, world) := s.provider.generate prompt s.world
    (g, { s with provider := provider, world := world })
  execute code s :=
    let (result, sandbox, world) := s.sandbox.execute code tools s.world
    (result, { s with sandbox := sandbox, world := world })
  log level message s := { s with world := s.world.log logger level message }

/-- The plan for a run of an agent. -/
def plan (a : Agent) (isCancelled : Nat → Bool) : Plan :=
  ⟨a.name, prompt a.tools, a.budget, isCancelled⟩

/-- Runs a task; `isCancelled` tells the iterations before which the run is cancelled. -/
def run (a : Agent) (task : String) (isCancelled : Nat → Bool) (w : World) :
    Ending × Agent × World :=
  let (ending, conversation, s) := (backend a.tools).run (a.plan isCancelled) task a.conversation
    ⟨a.provider, a.sandbox, w⟩
  (ending, { a with
    provider := s.provider, conversation := conversation, sandbox := s.sandbox }, s.world)

/-- A run that is not cancelled. -/
def never (_ : Nat) : Bool := false

end Agent

end ScriptAgent
