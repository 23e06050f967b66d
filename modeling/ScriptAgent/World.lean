import ScriptAgent.Datum
import ScriptAgent.Http.Message
import ScriptAgent.Terminal

/-!
# The surroundings

Everything that a run does to the outside, and everything that the outside does to a run: log
records and printed texts, requests and their outcomes, pauses, and lines that are typed in. A
`World` is a value that is handed on, so what a run does is a function of what it is given.
-/

namespace ScriptAgent

/-- The levels of log records. -/
inductive Level where
  | debug | info | warning | error | critical
deriving DecidableEq, Inhabited

namespace Level

/-- The name of a level. -/
def name : Level → String
  | .debug => "DEBUG"
  | .info => "INFO"
  | .warning => "WARNING"
  | .error => "ERROR"
  | .critical => "CRITICAL"

/-- The level of a word, in any case. -/
def ofWord? (word : String) : Option Level :=
  match word.toUpper with
  | "DEBUG" => some .debug
  | "INFO" => some .info
  | "WARN" | "WARNING" => some .warning
  | "ERROR" => some .error
  | "CRITICAL" | "FATAL" => some .critical
  | _ => none

/-- The severity of a level. -/
def severity : Level → Nat
  | .debug => 10
  | .info => 20
  | .warning => 30
  | .error => 40
  | .critical => 50

end Level

/-- A log record. -/
structure Record where
  logger : String
  level : Level
  message : String
deriving Inhabited, DecidableEq

/-- A server that is started. -/
structure Server where
  /-- What is served. -/
  target : String
  options : List (String × Datum)
  /-- Whether it is served beside the run, which then goes on. -/
  beside : Bool
deriving Inhabited

/-- Something that a run shows. -/
inductive Event where
  | logged (r : Record)
  | printed (text : String)
  | served (s : Server)
deriving Inhabited

/-- A block of a completion. -/
structure Block where
  /-- The name of the type of the block's record. -/
  typeName : String
  kind : Option Datum
  text : Option Datum
deriving Inhabited

/-- What a service that hosts models answers to a call. -/
inductive Completion where
  | failure (message : String)
  | blocks (blocks : List Block)
  | content (text : Option String)
deriving Inhabited

/-- The surroundings of a run. -/
structure World where
  /-- The outcomes of the requests that are still to be sent. -/
  outcomes : List Http.Outcome
  /-- The answers of services that host models to the calls that are still to be made. -/
  completions : List Completion
  /-- Whether the libraries that call such services are there. -/
  hasServices : Bool
  /-- The lines that are still to be typed in. -/
  lines : List String
  /-- The requests that have been sent. -/
  requests : List Http.Request
  /-- The options of the calls that have been made. -/
  calls : List (List (String × Datum))
  /-- What has been shown, in order. -/
  events : List Event
  /-- The pauses that have been made, in milliseconds. -/
  pauses : List Nat
  /-- Where printed texts go. -/
  terminal : Terminal
deriving Inhabited

namespace World

/-- Surroundings in which requests have these outcomes. -/
def ofOutcomes (outcomes : List Http.Outcome) : World :=
  ⟨outcomes, [], true, [], [], [], [], [], .file⟩

/-- Surroundings in which nothing has happened. -/
def empty : World := ofOutcomes []

/-- Shows something. -/
def emit (w : World) (e : Event) : World := { w with events := w.events ++ [e] }

/-- Writes a log record. -/
def log (w : World) (logger : String) (level : Level) (message : String) : World :=
  w.emit (.logged ⟨logger, level, message⟩)

/-- Prints a text. -/
def print (w : World) (text : String) : World := w.emit (.printed text)

/-- The log records, in order. -/
def records (w : World) : List Record :=
  w.events.filterMap fun
    | .logged r => some r
    | .printed _ | .served _ => none

/-- Prints a text in a color. -/
def paint (w : World) (color : Color) (text ending : String) : World :=
  w.print (w.terminal.paint color text ++ ending)

/-- Prints an answer. -/
def showAnswer (w : World) (text : String) : World := w.paint .yellow text "\n"

/-- Prints a message about an error. -/
def showError (w : World) (message : String) : World := w.paint .red (errorLine message) "\n"

/-- Serves something. -/
def serve (w : World) (s : Server) : World := w.emit (.served s)

/-- The servers that have been started, in order. -/
def servers (w : World) : List Server :=
  w.events.filterMap fun
    | .served s => some s
    | .logged _ | .printed _ => none

/-- What is shown on the standard output where log records of at least a severity are written to it
as well; `time` is the time of each record. -/
def transcript (w : World) (time : String) (severity : Nat) : String :=
  String.join (w.events.map fun
    | .logged r =>
      if r.level.severity < severity then ""
      else s!"{time} | {r.logger} | {r.level.name} | {r.message}\n"
    | .printed text => text
    | .served _ => "")

/-- The printed texts, in order. -/
def printed (w : World) : String :=
  String.join (w.events.filterMap fun
    | .printed text => some text
    | .logged _ | .served _ => none)

/-- The outcome of a request that nothing answers. -/
def unanswered : Http.Outcome := .failure .connection "No answer"

/-- Sends a request. -/
def send (w : World) (request : Http.Request) : Http.Outcome × World :=
  match w.outcomes with
  | outcome :: rest => (outcome, { w with outcomes := rest, requests := w.requests ++ [request] })
  | [] => (unanswered, { w with requests := w.requests ++ [request] })

theorem send_fst (w : World) (request : Http.Request) :
    (w.send request).1 = w.outcomes.headD unanswered := by
  unfold send
  cases w.outcomes <;> rfl

theorem send_snd (w : World) (request : Http.Request) :
    (w.send request).2 =
      { w with outcomes := w.outcomes.tail, requests := w.requests ++ [request] } := by
  obtain ⟨outcomes, _⟩ := w
  cases outcomes <;> rfl

/-- Records the options of a call. -/
def call (w : World) (options : List (String × Datum)) : World :=
  { w with calls := w.calls ++ [options] }

/-- The next answer of a service that hosts models. -/
def complete (w : World) : Completion × World :=
  match w.completions with
  | c :: rest => (c, { w with completions := rest })
  | [] => (.failure "No answer", w)

/-- Pauses. -/
def pause (w : World) (milliseconds : Nat) : World :=
  { w with pauses := w.pauses ++ [milliseconds] }

/-- Reads a line that is typed in; none if there is no further one. -/
def readLine (w : World) : Option String × World :=
  match w.lines with
  | line :: rest => (some line, { w with lines := rest })
  | [] => (none, w)

end World

end ScriptAgent
