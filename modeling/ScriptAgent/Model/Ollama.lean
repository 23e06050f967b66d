import ScriptAgent.Http.Client
import ScriptAgent.Http.Content
import ScriptAgent.Model.Scripted
import ScriptAgent.Settings

/-!
# Local models

Models that a local server runs. A prompt is posted together with the options, and the reply is a
field of the answer. Every failure of the exchange, and every answer of another form, is a
refusal.
-/

namespace ScriptAgent.Model

/-- The logger of models. -/
def logger : String := "luagent.agent.llm_interface"

/-- The message of a provider about a failure: a text as it is, any other value quoted. -/
def providerMessage (provider : String) (failure : Datum) : String :=
  provider ++ " error: " ++
    match failure with
    | .str text => text
    | d => d.quoted

/-- A model on a local server. -/
structure Ollama where
  model : Datum
  /-- The address of the server without a slash at the end. -/
  host : String
  temperature : Datum
  maxTokens : Datum
  /-- Further options. -/
  options : Datum
  timeout : Datum
deriving Inhabited

namespace Ollama

/-- An address without slashes at its end. -/
def withoutSlashes (s : String) : String :=
  String.ofList (s.toList.reverse.dropWhile (· == '/')).reverse

/-- The options of a request; further options take the place of those of the same name. -/
def requestOptions (o : Ollama) : Datum :=
  let further := match o.options with
    | .dict entries => entries
    | _ => []
  let limit := if o.maxTokens.truthy then [(.str "num_predict", o.maxTokens)] else []
  Datum.ofEntries ((.str "temperature", o.temperature) :: limit ++ further)

/-- The body of a request. -/
def payload (o : Ollama) (prompt : String) : Datum :=
  Datum.ofFields [("model", o.model), ("prompt", .str prompt), ("stream", .bool false),
    ("options", o.requestOptions)]

/-- A refusal after a failure, which is logged. -/
def report (what message : String) (w : World) : Generated × World :=
  (.refused (providerMessage "Ollama" (.str message)), w.log logger .error s!"Ollama {what}: {message}")

/-- The code in an answer of the server. -/
def codeOfAnswer (d : Datum) : Generated :=
  match d.get? "response" with
  | none | some .none => .refused "Unexpected response format from Ollama API"
  | some content => codeOf content

/-- Calls the model. -/
def generate (o : Ollama) (prompt : String) (w : World) : Generated × World :=
  match Http.send false "POST" (o.host ++ "/api/generate") [] (.json (o.payload prompt)) w with
  | (.ok (url, r), w) =>
    match r.problem? url with
    | some message => report "request error" message w
    | none =>
      match r.json with
      | .error fault => report "returned invalid JSON" fault.message w
      | .ok d => (codeOfAnswer d, w)
  | (.error failure, w) =>
    match failure with
    | .exchange _ message => report "request error" message w
    | .body refusal =>
      if refusal.isType then (.crashed (.options refusal.message), w)
      else report "returned invalid JSON" refusal.message w
    | .header .. => report "returned invalid JSON" failure.message w
    | .url fault => (.crashed (.address fault.message), w)

end Ollama

end ScriptAgent.Model
