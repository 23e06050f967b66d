import ScriptAgent.Http.Client
import ScriptAgent.Http.Content
import ScriptAgent.Settings

/-!
# The client of the service

`Client.post` sends data to the service of this program and gives the data that it answers. While
no connection can be made it tries again, each time after a pause of twice the length. What goes
wrong is given as data with a message under the name `error`. The attempts are made over a `Line`:
what posts once, what pauses and what is logged are functions on a state.

Some answers are beyond that: a success whose body is no JSON, and an error whose body is JSON but
no dictionary.
-/

namespace ScriptAgent.Client

/-- The logger of the client. -/
def logger : String := "luagent.client.cli"

/-- An answer that the client cannot take, or a request that it cannot send. -/
inductive Crash where
  /-- A value of this type has no fields. -/
  | noFields (type : String)
  /-- A value of this type has no members. -/
  | noMembers (type : String)
  | listIndex
  | textIndex
  | noJson (fault : Json.BytesFault)
  | request (failure : Http.Failure)

/-- The message of a failure. -/
def Crash.message : Crash → String
  | .noFields type => s!"'{type}' object has no attribute 'get'"
  | .noMembers type => s!"argument of type '{type}' is not iterable"
  | .listIndex => "list indices must be integers or slices, not str"
  | .textIndex => "string indices must be integers, not 'str'"
  | .noJson fault => fault.message
  | .request failure => failure.message

/-! ## Answers -/

/-- Data about a failure. -/
def problem (message : String) : Datum := Datum.ofFields [("error", .str message)]

/-- The detail of an error of the service. -/
def detail (r : Http.Response) : Except Crash String :=
  match r.json with
  | .error _ => .ok r.text
  | .ok (.dict entries) =>
    .ok (((Datum.dict entries).get? "detail").getD (.str r.text)).display
  | .ok d => .error (.noFields d.typeName)

/-- The data of a response. -/
def answer (r : Http.Response) : Except Crash Datum :=
  if r.isError then (detail r).map fun text => problem s!"API error ({r.status}): {text}"
  else
    match r.json with
    | .ok d => .ok d
    | .error fault => .error (.noJson fault)

/-! ## Attempts -/

/-- What a client uses, as functions on a state. -/
structure Line (σ : Type) where
  /-- Posts data to an address, once. -/
  send : String → Datum → σ → Except Http.Failure Http.Response × σ
  /-- Pauses for a number of milliseconds. -/
  pause : Nat → σ → σ
  log : Level → String → σ → σ

/-- The pause after an attempt, counted from zero, in milliseconds. -/
def delay (attempt : Nat) : Nat := 500 <<< attempt

/-- Milliseconds as seconds with one digit after the point. -/
def secondsText (milliseconds : Nat) : String :=
  s!"{milliseconds / 1000}.{milliseconds % 1000 / 100}"

variable {σ : Type}

/-- Pauses before the attempt after `attempt`. -/
def Line.wait (l : Line σ) (attempts : Int) (attempt : Nat) (s : σ) : σ :=
  let seconds := secondsText (delay attempt)
  l.pause (delay attempt) (l.log .info
    s!"API not ready yet, retrying in {seconds} seconds (attempt {attempt + 1}/{attempts})..." s)

/-- Gives up after a failure. -/
def Line.giveUp (l : Line σ) (what message : String) (s : σ) : Except Crash Datum × σ :=
  (.ok (problem s!"Error connecting to API: {message}"),
    l.log .error s!"API {what} error: {message}" s)

/-- Makes the attempts from `attempt` on, at most `left` of them. -/
def Line.tryPost (l : Line σ) (url : String) (data : Datum) (attempts : Int) (attempt : Nat) :
    Nat → σ → Except Crash Datum × σ
  | 0, s => (.ok (problem s!"Failed to connect to API after {attempts} attempts"), s)
  | left + 1, s =>
    match l.send url data s with
    | (.ok r, s) => (answer r, s)
    | (.error (.exchange .connection message), s) =>
      if attempt < attempts - 1 then
        tryPost l url data attempts (attempt + 1) left (l.wait attempts attempt s)
      else l.giveUp "connection" message s
    | (.error (.exchange .exchange message), s) => l.giveUp "request" message s
    | (.error failure, s) => (.error (.request failure), s)

/-- Posts data to an address, with a number of attempts. -/
def Line.post (l : Line σ) (url : String) (data : Datum) (attempts : Int) (s : σ) :
    Except Crash Datum × σ :=
  l.tryPost url data attempts 0 attempts.toNat s

/-! ## The service -/

/-- The address of an endpoint. -/
def address (settings : Settings) (endpoint : String) : String :=
  s!"http://localhost:{settings.apiPort}{endpoint}"

/-- The line to the service. -/
def line : Line World where
  send url data w :=
    match Http.send false "POST" url [] (.json data) w with
    | (.ok (_, r), w) => (.ok r, w)
    | (.error failure, w) => (.error failure, w)
  pause milliseconds w := w.pause milliseconds
  log level message w := w.log logger level message

/-- Sends data to an endpoint, with a number of attempts. -/
def post (settings : Settings) (attempts : Int) (endpoint : String) (data : Datum) (w : World) :
    Except Crash Datum × World :=
  line.post (address settings endpoint) data attempts w

/-- The number of attempts that are made unless another one is asked for. -/
def standardAttempts : Int := 5

end ScriptAgent.Client
