import ScriptAgent.Model.Ollama

/-!
# Hosted models

Models that services run, each called through a library of its own. A call names the credentials
first and then the prompt with its options; the answer is a list of blocks or a single content.
-/

namespace ScriptAgent.Model

/-- A service that hosts models. -/
inductive Service where
  | anthropic | openai
deriving DecidableEq, Inhabited

namespace Service

/-- The name of a service in messages. -/
def title : Service → String
  | .anthropic => "Anthropic"
  | .openai => "OpenAI"

/-- The name of the library for a service. -/
def package : Service → String
  | .anthropic => "anthropic"
  | .openai => "openai"

/-- What is said where the library for a service is missing. -/
def missing (s : Service) : String := s!"{s.title} SDK not installed"

end Service

/-- A model that a service hosts. -/
structure Hosted where
  service : Service
  model : Datum
  key : Datum
  temperature : Datum
  maxTokens : Datum
  timeout : Datum
deriving Inhabited

namespace Hosted

/-- The message with the prompt. -/
def messages (prompt : String) : Datum :=
  .list [Datum.ofFields [("role", .str "user"), ("content", .str prompt)]]

/-- The options of the connection. -/
def connection (h : Hosted) : List (String × Datum) := [("api_key", h.key), ("timeout", h.timeout)]

/-- The options of a call. -/
def options (h : Hosted) (prompt : String) : List (String × Datum) := [
  ("model", h.model), ("max_tokens", h.maxTokens), ("messages", messages prompt),
  ("temperature", h.temperature)]

/-- Whether a block says that it is a text. -/
def isText (b : Block) : Bool :=
  match b.kind with
  | some (.str kind) => kind == "text"
  | _ => false

/-- The contents of blocks that are texts. -/
def contents : List Block → Except Crash (List Datum)
  | [] => .ok []
  | b :: rest =>
    if isText b then
      match b.text with
      | none => .error (.emptyBlock b.typeName)
      | some d => (contents rest).map (d :: ·)
    else contents rest

/-- Joins texts; `index` is the number of texts before them. -/
def join (index : Nat) : List Datum → Except Crash String
  | [] => .ok ""
  | .str text :: rest => (join (index + 1) rest).map (text ++ ·)
  | d :: _ => .error (.foreignBlock index d.typeName)

/-- The code in blocks. -/
def codeOfBlocks (blocks : List Block) : Generated :=
  match contents blocks with
  | .error crash => .crashed crash
  | .ok texts =>
    match join 0 texts with
    | .error crash => .crashed crash
    | .ok text =>
      if text.isEmpty then .refused "Unexpected response format from Anthropic API"
      else .code (Reply.script text)

/-- The code in a content. -/
def codeOfContent (content : Option String) : Generated :=
  match content with
  | none | some "" => .refused "OpenAI error: empty response"
  | some text => .code (Reply.script text)

/-- Calls the model. -/
def generate (h : Hosted) (prompt : String) (w : World) : Generated × World :=
  let title := h.service.title
  if !w.hasServices then
    (.refused s!"{h.service.missing}. Run 'pip install {h.service.package}'",
      w.log logger .error h.service.missing)
  else
    match ((w.call h.connection).call (h.options prompt)).complete with
    | (.failure message, w) =>
      (.refused (providerMessage title (.str message)),
        w.log logger .error s!"{title} request error: {message}")
    | (.blocks blocks, w) => (codeOfBlocks blocks, w)
    | (.content content, w) => (codeOfContent content, w)

end Hosted

end ScriptAgent.Model
