import ScriptAgent.Agent
import ScriptAgent.CommandLine.Options
import ScriptAgent.Service
import ScriptAgent.Shell

/-!
# The command line

The program runs one task, serves the service, or serves it beside a shell. `CommandLine.run` is
what it does with its arguments, its settings and its surroundings. Running a task ends with the
status 0 if there is an answer and with 1 if the run fails; a command line that cannot be read ends
with 2.
-/

namespace ScriptAgent.CommandLine

/-- The logger of the program. -/
def logger : String := "luagent.main"

/-- The name of the program. -/
def programName : String := "luagent"

/-- What the program does. -/
inductive Mode where
  | api | cli | run
deriving DecidableEq, Inhabited

/-- The words for the modes. -/
def Mode.all : List (String × Mode) := [("api", .api), ("cli", .cli), ("run", .run)]

/-- The word for a mode. -/
def Mode.text : Mode → String
  | .api => "api"
  | .cli => "cli"
  | .run => "run"

/-- The options of the program. -/
def specs : List OptionSpec := [
  ⟨"--mode", .word (Mode.all.map Prod.fst)⟩,
  ⟨"--task", .text⟩,
  ⟨"--provider", .word ["ollama", "anthropic", "openai", "mock"]⟩,
  ⟨"--max-iterations", .integer⟩,
  ⟨"--log-level", .word ["debug", "info", "warning", "error", "critical"]⟩]

/-- The arguments of the program. -/
structure Arguments where
  mode : Mode
  task : String
  provider : Option String
  budget : Option Int
  logLevel : Option String
deriving Inhabited

/-- The arguments that the values of options give. -/
def Arguments.ofValues (values : List (String × OptionValue)) : Arguments :=
  let text? (name : String) : Option String :=
    match values.lookup name with
    | some (.text s) => some s
    | _ => none
  let budget := match values.lookup "--max-iterations" with
    | some (.integer n) => some n
    | _ => none
  ⟨((text? "--mode").bind fun word => List.lookup word Mode.all).getD .run, (text? "--task").getD "",
    text? "--provider", budget, text? "--log-level"⟩

/-! ## Endings -/

/-- A failure that ends the program without a status. -/
inductive Failure where
  | provider (fault : Model.Provider.LoadFault)
  | unusable (reason : Agent.Unusable)
  | run (ending : Agent.Ending)
  | client (crash : Client.Crash)

/-- How the program ends. -/
inductive Finish where
  | returned
  | exited (status : Nat)
  /-- The command line cannot be used. -/
  | misused (fault : UsageFault)
  | failed (failure : Failure)

/-- What is written to the error output at the end of the program. -/
def Finish.errorText : Finish → String
  | .misused fault => s!"{programName}: error: {fault.message}"
  | .returned | .exited _ | .failed _ => ""

/-- The status at the end of the program. -/
def Finish.status? : Finish → Option Nat
  | .exited status => some status
  | .misused _ => some 2
  | .returned | .failed _ => none

/-- Where the model of a task comes from. -/
abbrev Loader := Settings → Except Model.Provider.LoadFault Model.Provider

/-- The model that the settings name. -/
def standardLoader : Loader := fun settings => Model.Provider.load settings "" []

/-! ## Running a task -/

/-- Shows how a run has ended. -/
def report (ending : Agent.Ending) (w : World) : Finish × World :=
  match ending with
  | .answered text => (.exited 0, w.showAnswer text)
  | .exhausted _ | .cancelled _ | .refused _ => (.exited 1, w.showError ending.message)
  | .unwritable _ | .broken _ => (.failed (.run ending), w)

/-- Runs a task. -/
def runTask (load : Loader) (settings : Settings) (task : String) (budget : Option Int)
    (w : World) : Finish × World :=
  match load settings with
  | .error fault => (.failed (.provider fault), w)
  | .ok provider =>
    let budget := match budget with
      | some n => .int n
      | none => .none
    match Agent.make settings provider Agent.defaultTools budget .none with
    | .error reason => (.failed (.unusable reason), w)
    | .ok agent =>
      let (ending, _, w) := agent.run task Agent.never w
      report ending w

/-! ## Serving -/

/-- The options of a server. -/
def serverOptions (host : String) (port : Int) (reload : Bool) (logLevel : String) :
    List (String × Datum) :=
  [("host", .str host), ("port", .int port), ("reload", .bool reload),
    ("log_level", .str logLevel)]

/-- Serves the service. -/
def serve (settings : Settings) (w : World) : World :=
  let host := "0.0.0.0"
  let port := settings.apiPort
  let reload := if settings.debug then "True" else "False"
  let level := settings.logLevel
  let llm := settings.provider
  let w := w.log Service.logger .info
    s!"Starting luagent API at {host}:{port} (reload={reload}, log_level={level}, llm={llm})"
  let w := w.paint .green s!"🌙 luagent API is running at http://localhost:{port}." "\n"
  let w := w.paint .blue s!"Visit http://localhost:{port}/docs for API documentation." "\n"
  w.serve ⟨"luagent.api.app:app", serverOptions host port settings.debug level, false⟩

/-- Serves the service beside a shell. -/
def serveShell (settings : Settings) (w : World) : Finish × World :=
  let w := w.serve ⟨"run_api", serverOptions "127.0.0.1" settings.apiPort false "warning", true⟩
  match Shell.run settings w with
  | (.ok (), w) => (.returned, w)
  | (.error crash, w) => (.failed (.client crash), w)

/-! ## The program -/

/-- The settings that arguments change before anything is logged. -/
def applyArguments (a : Arguments) (settings : Settings) : Settings :=
  { settings with
    logLevel := a.logLevel.getD settings.logLevel.toLower
    provider := a.provider.getD settings.provider }

/-- Does what the arguments ask for. -/
def perform (load : Loader) (a : Arguments) (settings : Settings) (w : World) :
    Finish × Settings × World :=
  let settings := applyArguments a settings
  let w := w.log logger .info s!"Starting luagent [{a.mode.text} mode]"
  let budgeted := { settings with maxIterations := a.budget.getD settings.maxIterations }
  match a.mode with
  | .run =>
    if a.task.isEmpty then (.misused .missingTask, settings, w)
    else
      let (finish, w) := runTask load settings a.task a.budget w
      (finish, settings, w)
  | .api => (.returned, budgeted, serve budgeted w)
  | .cli =>
    let (finish, w) := serveShell budgeted w
    (finish, budgeted, w)

/-- Runs the program: how it ends, and the settings and the surroundings after it. -/
def run (load : Loader) (words : List String) (settings : Settings) (w : World) :
    Finish × Settings × World :=
  match parse specs words with
  | .error fault => (.misused fault, settings, w)
  | .ok .help => (.exited 0, settings, w)
  | .ok (.values values) => perform load (Arguments.ofValues values) settings w

/-- The least severity of log records that are shown; an unknown level stands for `info`. -/
def severity (settings : Settings) : Nat :=
  ((Level.ofWord? settings.logLevel).getD .info).severity

end ScriptAgent.CommandLine
