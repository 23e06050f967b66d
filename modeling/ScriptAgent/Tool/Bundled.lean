import ScriptAgent.Json.Encoded
import ScriptAgent.Json.Writer
import ScriptAgent.Tool.Arithmetic

/-!
# Bundled tools

The tools that come with the library, apart from those that send requests: sums, products and
texts, reading and writing JSON, and log records.
-/

namespace ScriptAgent.Tool

/-- The argument at a place, counted from zero; nothing if it is left out. -/
def argument (args : List Datum) (i : Nat) : Datum := args.getD i .none

/-- A required parameter. -/
def requires (name : String) (tags : List TypeTag) (description : String) : Parameter :=
  ⟨name, if let [t] := tags then .one t else .many tags, description, true⟩

/-- A parameter that may be left out. -/
def admits (name : String) (tags : List TypeTag) (description : String) : Parameter :=
  { requires name tags description with required := false }

/-- The signature of a function with these parameters. -/
def signatureOf (name : String) (parameters : List Parameter) : Signature :=
  ⟨name, (parameters.filter (·.required)).map (·.name),
    (parameters.filter fun p => !p.required).length, false⟩

/-- A bundled tool: a function under its own name, which checks the number of its arguments. -/
def bundled (id : Nat) (name function description : String) (parameters : List Parameter)
    (f : List Datum → World → Outcome × World) : Tool :=
  ⟨id, name, description, parameters, checked (signatureOf function parameters) f⟩

/-! ## Numbers and texts -/

/-- Joins the texts of the items of a list. -/
def concat (args : List Datum) : Outcome :=
  match argument args 0 with
  | .list items => .value (.str (String.join (items.map Datum.display)))
  | _ => .refused "concat expects a list of strings"

/-- An answer to a search, which is always the same. -/
def search (args : List Datum) : Outcome :=
  .value (.str s!"Mock search results for: {(argument args 0).display}")

/-- The default tools of an agent. -/
def basicTools : List Tool := [
  bundled 1 "add" "add" "Add two numbers."
    [requires "a" [.number] "First number", requires "b" [.number] "Second number"]
    (still fun args => sum (argument args 0) (argument args 1)),
  bundled 2 "multiply" "multiply" "Multiply two numbers."
    [requires "a" [.number] "First number", requires "b" [.number] "Second number"]
    (still fun args => product (argument args 0) (argument args 1)),
  bundled 3 "concat" "concat" "Concatenate strings."
    [requires "strings" [.table] "List of strings to concatenate"]
    (still concat),
  bundled 4 "search" "search" "Search for information (mock implementation)."
    [requires "query" [.string] "Search query"]
    (still search)]

/-! ## JSON -/

/-- Reads a text, or the text of bytes, as JSON. -/
def parseJson (args : List Datum) : Outcome :=
  match argument args 0 with
  | .str s =>
    match Json.parse s with
    | .ok d => .value d
    | .error f => .refused s!"Invalid JSON: {f.message}"
  | .bytes bs =>
    match Json.parseBytes bs with
    | .ok d => .value d
    | .error f => .refused s!"Invalid JSON: {f.message}"
  | d =>
    .refused
      s!"Invalid JSON: the JSON object must be str, bytes or bytearray, not {d.typeName}"

/-- Writes a value as JSON. -/
def writeJson (l : Json.Layout) (args : List Datum) : Outcome :=
  match Json.write l (argument args 0) with
  | .ok s => .value (.str s)
  | .error e => .refused s!"Cannot encode as JSON: {e.message}"

/-- The tools for JSON. -/
def jsonTools : List Tool := [
  bundled 5 "json.parse" "parse"
    "Parse a JSON string into a Lua value (objects and arrays become tables)."
    [requires "json_string" [.string] "The JSON string to parse"]
    (still parseJson),
  bundled 6 "json.encode" "encode" "Encode a Lua table or value into a compact JSON string."
    [requires "data" [.string] "The Lua table or value to encode"]
    (still (writeJson .compact)),
  bundled 7 "json.pretty" "pretty" "Encode a Lua table or value into an indented JSON string."
    [requires "data" [.string] "The Lua table or value to encode"]
    (still (writeJson .pretty))]

/-! ## Log records -/

/-- The logger of scripts. -/
def scriptLogger : String := "luagent.script"

/-- Writes a log record; further fields are shown after the message. -/
def writeRecord (level : Level) (message fields : Datum) (w : World) : Outcome × World :=
  let text := if fields.truthy then s!"{message.display} {fields.display}" else message.display
  (.value .none, w.log scriptLogger level text)

/-- The level of a word; other words stand for the level of information. -/
def levelOf (word : String) : Level :=
  match word.toLower with
  | "debug" => .debug
  | "warn" | "warning" => .warning
  | "error" => .error
  | _ => .info

/-- The parameters of a log tool. -/
def messageParameters : List Parameter :=
  [requires "message" [.string] "The message to log",
    admits "metadata" [.table] "Optional table of extra fields"]

/-- A tool that writes log records of a level. -/
def logTool (id : Nat) (name : String) (level : Level) (article : String) : Tool :=
  bundled id s!"log.{name}" name s!"Log {article} {name} message." messageParameters
    fun args => writeRecord level (argument args 0) (argument args 1)

/-- The tools for log records. -/
def logTools : List Tool := [
  logTool 12 "debug" .debug "a",
  logTool 13 "info" .info "an",
  logTool 14 "warning" .warning "a",
  logTool 15 "error" .error "an",
  bundled 16 "log.log" "log" "Log a message at the given level; unknown levels log at info."
    (requires "level" [.string] "One of debug, info, warning, error" :: messageParameters)
    fun args =>
      writeRecord (levelOf (argument args 0).display) (argument args 1) (argument args 2)]

end ScriptAgent.Tool
