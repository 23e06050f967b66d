import ScriptAgent.Http.Client
import ScriptAgent.Http.Content
import ScriptAgent.Tool.Bundled

/-!
# Tools that send requests

A tool for each method. A response is given as a list of its status, its headers and its text; an
exchange that fails is given as a text about the failure, so that a script can report it.
-/

namespace ScriptAgent.Tool

/-- The logger of requests. -/
def webLogger : String := "luagent.tools.http_tool"

/-- Entries as texts; of names with the same text the last value counts. -/
def entryTexts (entries : List (Datum × Datum)) : List (String × String) :=
  (entries.foldl (fun acc (name, value) => Datum.putEntry (.str name.display) value acc) []).map
    fun (name, value) => (name.display, value.display)

/-- The headers that an argument stands for; nothing and what is empty stand for none. -/
def headersOf (d : Datum) : Except Outcome Http.Headers :=
  if !d.truthy then .ok []
  else
    match d with
    | .dict entries => .ok (entryTexts entries)
    | _ => .error (.refused "headers must be a table of name = value pairs")

/-- The body that an argument stands for: a list or a dictionary is sent as JSON. -/
def bodyOf : Datum → Http.Body
  | .none => .none
  | .list items => .json (.list items)
  | .dict entries => .json (.dict entries)
  | d => .text d.display

/-- Whether a content type names JSON. -/
def namesJson (contentType : String) : Bool := Text.occurs "json".toList contentType.toList

/-- The text of a response; JSON is written anew. -/
def bodyText (r : Http.Response) : String :=
  if namesJson r.contentType then
    match r.json with
    | .ok d => (Json.write .spaced d).toOption.getD r.text
    | .error _ => r.text
  else r.text

/-- A response as a list of its parts. -/
def responseDatum (r : Http.Response) : Datum :=
  .list [.int r.status, Datum.ofFields (r.headers.merged.map fun (name, value) => (name, .str value)), .str (bodyText r)]

/-- What a failure to get a response ends the call with. -/
def failed (method url : String) (f : Http.Failure) (w : World) : Outcome × World :=
  match f with
  | .exchange _ message =>
    (.value (.str s!"HTTP request failed: {message}"),
      w.log webLogger .warning s!"HTTP {method} {url} failed: {message}")
  | .body refusal =>
    (if refusal.isType then .mismatch refusal.message else .crashed refusal.message, w)
  | f => (.crashed f.message, w)

/-- The message about an address that is no text. -/
def addressMessage (d : Datum) : String :=
  let shown := d.quoted
  s!"Invalid type for url.  Expected str or httpx.URL, got <class '{d.typeName}'>: {shown}"

/-- Sends a request. -/
def request (method : String) (url headers body : Datum) (w : World) : Outcome × World :=
  match headersOf headers with
  | .error outcome => (outcome, w)
  | .ok headers =>
    match url with
    | .str url =>
      match Http.send true method url headers (bodyOf body) w with
      | (.ok (_, r), w) => (.value (responseDatum r), w)
      | (.error f, w) => failed method url f w
    | d => (.mismatch (addressMessage d), w)

/-- The parameter for the address. -/
def urlParameter : Parameter := requires "url" [.string] "The URL to request"

/-- The parameter for the body. -/
def bodyParameter : Parameter :=
  requires "body" [.string, .table] "The request body; tables are sent as JSON"

/-- The parameter for the headers. -/
def headersParameter : Parameter := admits "headers" [.table] "Optional table of headers"

/-- A tool that sends requests without a body. -/
def plainRequest (id : Nat) (name method : String) : Tool :=
  bundled id s!"http.{name}" name s!"Make a {method} request to the specified URL."
    [urlParameter, headersParameter]
    fun args => request method (argument args 0) (argument args 1) .none

/-- A tool that sends requests with a body. -/
def bodyRequest (id : Nat) (name method : String) : Tool :=
  bundled id s!"http.{name}" name s!"Make a {method} request to the specified URL."
    [urlParameter, bodyParameter, headersParameter]
    fun args => request method (argument args 0) (argument args 2) (argument args 1)

/-- The tools that send requests. -/
def webTools : List Tool := [
  plainRequest 8 "get" "GET", bodyRequest 9 "post" "POST", bodyRequest 10 "put" "PUT",
  plainRequest 11 "delete" "DELETE"]

/-- The tools that come with the library, in their order. -/
def bundledTools : List Tool := basicTools ++ jsonTools ++ webTools ++ logTools

end ScriptAgent.Tool
