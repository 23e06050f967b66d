import ScriptAgent.Validation

/-!
# Settings

The settings of the program, each with its default, and how they are read from variables of the
environment. Variables are found by name in any case; of several spellings the last one counts.
All settings are checked, so every fault is reported.
-/

namespace ScriptAgent

/-- The settings of the program. -/
structure Settings where
  apiPort : Int
  debug : Bool
  logLevel : String
  provider : String
  ollamaHost : String
  ollamaModel : String
  anthropicKey : Option String
  anthropicModel : String
  openaiKey : Option String
  openaiModel : String
  temperature : Float
  maxTokens : Int
  /-- How long a call of a model may take, in seconds. -/
  timeout : Float
  maxIterations : Int
  agentName : String

namespace Settings

/-- The default settings. -/
def standard : Settings where
  apiPort := 8000
  debug := false
  logLevel := "info"
  provider := "ollama"
  ollamaHost := "http://localhost:11434"
  ollamaModel := "llama3.1"
  anthropicKey := none
  anthropicModel := "claude-3-5-haiku-latest"
  openaiKey := none
  openaiModel := "gpt-4o-mini"
  temperature := 0.7
  maxTokens := 4096
  timeout := 120.0
  maxIterations := 10
  agentName := "Luagent"

instance : Inhabited Settings := ⟨standard⟩

/-- The settings by name, in the order in which they are declared. -/
def toFields (s : Settings) : List (String × Datum) := [
  ("API_PORT", .int s.apiPort), ("DEBUG", .bool s.debug), ("LOG_LEVEL", .str s.logLevel),
  ("LLM_PROVIDER", .str s.provider), ("OLLAMA_HOST", .str s.ollamaHost),
  ("OLLAMA_MODEL", .str s.ollamaModel), ("ANTHROPIC_API_KEY", Datum.ofText? s.anthropicKey),
  ("ANTHROPIC_MODEL", .str s.anthropicModel), ("OPENAI_API_KEY", Datum.ofText? s.openaiKey),
  ("OPENAI_MODEL", .str s.openaiModel), ("LLM_TEMPERATURE", .float s.temperature),
  ("LLM_MAX_TOKENS", .int s.maxTokens), ("LLM_TIMEOUT", .float s.timeout),
  ("MAX_ITERATIONS", .int s.maxIterations), ("AGENT_NAME", .str s.agentName)]

/-- The settings that fields give; a field that is left out keeps its value. -/
def update (s : Settings) (fields : Datum) : Checked Settings := do
  let number : Check Float := fun
    | .str text => Check.numberOfText text
    | .float x => .ok x
    | .int i => .ok (Decimal.ofInt i)
    | _ => Checked.fault .number
  let text (name : String) (old : String) := Check.defaulted name old Check.text fields
  let integer (name : String) (old : Int) := Check.defaulted name old Check.integer fields
  let key (name : String) (old : Option String) :=
    Check.defaulted name old (Check.optional Check.text) fields
  let ((apiPort, debug, logLevel, provider), (ollamaHost, ollamaModel, anthropicKey,
      anthropicModel), (openaiKey, openaiModel, temperature, maxTokens), timeout,
      maxIterations, agentName) ←
    Checked.both
      (Checked.both (integer "API_PORT" s.apiPort)
        (Checked.both (Check.defaulted "DEBUG" s.debug Check.flag fields)
          (Checked.both (text "LOG_LEVEL" s.logLevel) (text "LLM_PROVIDER" s.provider))))
      (Checked.both
        (Checked.both (text "OLLAMA_HOST" s.ollamaHost)
          (Checked.both (text "OLLAMA_MODEL" s.ollamaModel)
            (Checked.both (key "ANTHROPIC_API_KEY" s.anthropicKey)
              (text "ANTHROPIC_MODEL" s.anthropicModel))))
        (Checked.both
          (Checked.both (key "OPENAI_API_KEY" s.openaiKey)
            (Checked.both (text "OPENAI_MODEL" s.openaiModel)
              (Checked.both (Check.defaulted "LLM_TEMPERATURE" s.temperature number fields)
                (integer "LLM_MAX_TOKENS" s.maxTokens))))
          (Checked.both (Check.defaulted "LLM_TIMEOUT" s.timeout number fields)
            (Checked.both (integer "MAX_ITERATIONS" s.maxIterations)
              (text "AGENT_NAME" s.agentName)))))
  return ⟨apiPort, debug, logLevel, provider, ollamaHost, ollamaModel, anthropicKey,
    anthropicModel, openaiKey, openaiModel, temperature, maxTokens, timeout, maxIterations,
    agentName⟩

/-- The value of a variable whose name is this one in any case. -/
def valueOf? (environment : List (String × String)) (name : String) : Option String :=
  let wanted := name.toLower
  (environment.reverse.find? fun (n, _) => n.toLower == wanted).map Prod.snd

/-- The settings that variables of the environment give. -/
def ofEnvironment (environment : List (String × String)) : Checked Settings :=
  standard.update (Datum.ofFields (standard.toFields.filterMap fun (name, _) =>
    (valueOf? environment name).map fun value => (name, .str value)))

end Settings

end ScriptAgent
