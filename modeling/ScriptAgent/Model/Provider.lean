import ScriptAgent.Model.Hosted

/-!
# Providers

A provider is a model that can be called: a scripted one, one on a local server, or a hosted one.
`Provider.load` makes a provider from its name and its options. What an option leaves open comes
from the settings.
-/

namespace ScriptAgent.Model

/-- A model that can be called. -/
inductive Provider where
  | scripted (s : Scripted)
  | ollama (o : Ollama)
  | hosted (h : Hosted)
deriving Inhabited

namespace Provider

/-- Calls the model. -/
def generate (p : Provider) (prompt : String) (w : World) : Generated × Provider × World :=
  match p with
  | .scripted s =>
    let (g, s) := s.generate prompt
    (g, .scripted s, w)
  | .ollama o =>
    let (g, w) := o.generate prompt w
    (g, .ollama o, w)
  | .hosted h =>
    let (g, w) := h.generate prompt w
    (g, .hosted h, w)

/-- The prompts that a scripted model was given. -/
def prompts : Provider → List String
  | .scripted s => s.prompts
  | .ollama _ | .hosted _ => []

/-! ## Loading -/

/-- The kinds of providers. -/
inductive Kind where
  | anthropic | mock | ollama | openai
deriving DecidableEq, Inhabited

/-- All kinds of providers, by name. -/
def Kind.all : List (String × Kind) :=
  [("anthropic", .anthropic), ("mock", .mock), ("ollama", .ollama), ("openai", .openai)]

/-- The name of what makes a provider of a kind. -/
def Kind.maker : Kind → String
  | .anthropic => "AnthropicLLM"
  | .mock => "MockLLM"
  | .ollama => "OllamaLLM"
  | .openai => "OpenAILLM"

/-- The names of the options of a provider. -/
def Kind.options : Kind → List String
  | .mock => ["responses"]
  | .ollama => ["model", "host", "temperature", "max_tokens", "options", "timeout"]
  | .anthropic | .openai => ["model", "api_key", "temperature", "max_tokens", "timeout"]

/-- Why a provider cannot be loaded. -/
inductive LoadFault where
  | unknown (name : String)
  | unexpected (kind : Kind) (option : String)
  /-- The replies of a scripted model are no list. -/
  | noReplies (type : String)
  /-- The address of a server is no text. -/
  | noAddress (type : String)
deriving DecidableEq, Inhabited

/-- The message of a fault. -/
def LoadFault.message : LoadFault → String
  | .unknown name =>
    let supported := String.intercalate ", " (Kind.all.map Prod.fst)
    s!"LLM provider '{name}' is not registered. Supported providers: {supported}"
  | .unexpected kind option =>
    s!"{kind.maker}.__init__() got an unexpected keyword argument '{option}'"
  | .noReplies type => s!"'{type}' object is not iterable"
  | .noAddress type => s!"'{type}' object has no attribute 'rstrip'"

/-- The scripted replies that an option gives. -/
def repliesOf : Datum → Except LoadFault (List ScriptedReply)
  | .list items | .tuple items => .ok (items.map .reply)
  | .str s => .ok (s.toList.map fun c => .reply (.str (String.singleton c)))
  | d => .error (.noReplies d.typeName)

/-- The temperature that an option gives. -/
def temperatureOf (settings : Settings) (d : Datum) : Datum :=
  d.orMissing (.float settings.temperature)

/-- A model on a local server from its options. -/
def makeOllama (settings : Settings) (option : String → Datum) : Except LoadFault Ollama :=
  match (option "host").orDefault (.str settings.ollamaHost) with
  | .str host =>
    .ok ⟨(option "model").orDefault (.str settings.ollamaModel), Ollama.withoutSlashes host,
      temperatureOf settings (option "temperature"), option "max_tokens",
      (option "options").orDefault (.dict []),
      (option "timeout").orDefault (.float settings.timeout)⟩
  | d => .error (.noAddress d.typeName)

/-- A hosted model from its options. -/
def makeHosted (settings : Settings) (service : Service) (option : String → Datum) : Hosted :=
  let (model, key) :=
    match service with
    | .anthropic => (settings.anthropicModel, settings.anthropicKey)
    | .openai => (settings.openaiModel, settings.openaiKey)
  ⟨service, (option "model").orDefault (.str model),
    (option "api_key").orDefault (Datum.ofText? key),
    temperatureOf settings (option "temperature"),
    (option "max_tokens").orDefault (.int settings.maxTokens),
    (option "timeout").orDefault (.float settings.timeout)⟩

/-- A provider of a kind from its options. -/
def make (settings : Settings) (kind : Kind) (options : List (String × Datum)) :
    Except LoadFault Provider :=
  let option (name : String) : Datum := (options.lookup name).getD .none
  match options.find? fun (name, _) => !kind.options.contains name with
  | some (name, _) => .error (.unexpected kind name)
  | none =>
    match kind with
    | .mock =>
      match options.lookup "responses" with
      | none => .ok (.scripted (.ofReplies []))
      | some d => (repliesOf d).map fun replies => .scripted (.ofReplies replies)
    | .ollama => (makeOllama settings option).map .ollama
    | .anthropic => .ok (.hosted (makeHosted settings .anthropic option))
    | .openai => .ok (.hosted (makeHosted settings .openai option))

/-- Loads the provider of a name, in any case; an empty name stands for the one of the
settings. -/
def load (settings : Settings) (name : String) (options : List (String × Datum)) :
    Except LoadFault Provider :=
  let name := if name.isEmpty then settings.provider else name
  match Kind.all.lookup name.toLower with
  | some kind => make settings kind options
  | none => .error (.unknown name)

end Provider

end ScriptAgent.Model
