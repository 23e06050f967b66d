import ScriptAgent.Client
import ScriptAgent.Text.Search

/-!
# The shell

A shell reads tasks line by line and has one session of the service run them. It first asks for the
session; without one it ends. White space around a line does not count, an empty line is passed
over, and the words `exit` and `quit` end the shell, as does the end of the input.

The shell is written over a `Console`: what posts data and what shows texts are functions on a
state. An answer about a failure is shown and nothing else.
-/

namespace ScriptAgent.Shell

/-- What a shell uses, as functions on a state. -/
structure Console (σ : Type) where
  post : String → Datum → σ → Except Client.Crash Datum × σ
  /-- Shows a text in a color, and an ending after it. -/
  paint : Color → String → String → σ → σ

/-! ## Input -/

/-- The lines of an input; what stands after the last line end counts if it is not empty. -/
def linesOf (input : String) : List String :=
  let pieces := Text.splitAt '\n' input.toList
  let pieces := if pieces.getLast? = some [] then pieces.dropLast else pieces
  pieces.map String.ofList

/-- Reads a message; the flag says whether there was one. -/
def readMessage (w : World) : (String × Bool) × World :=
  match w.readLine with
  | (some line, w) => ((Text.strip line, true), w)
  | (none, w) => (("", false), w)

/-- Whether a message ends the shell, in letters of either case. The lower-case form of a text with
letters beyond ASCII is neither of the two words. -/
def isFarewell (message : String) : Bool := ["exit", "quit"].contains message.toLower

/-! ## Answers -/

/-- The session in an answer, or why there is none. -/
def sessionOf (d : Datum) : Except Client.Crash (Except String Datum) :=
  match d with
  | .dict entries =>
    let session := ((Datum.dict entries).get? "session_id").getD .none
    if session.truthy then .ok (.ok session)
    else .ok (.error (((Datum.dict entries).get? "error").getD (.str "unknown error")).display)
  | d => .error (.noFields d.typeName)

/-- What is to be shown of an answer: the message about an error, or the answer itself. -/
def shownOf (d : Datum) : Except Client.Crash (Color × String) :=
  match d with
  | .dict entries =>
    match (Datum.dict entries).get? "error" with
    | some message => .ok (.red, errorLine message.display)
    | none =>
      .ok (.yellow,
        (((Datum.dict entries).get? "answer").getD (.str "No response from API")).display)
  | .list items =>
    if items.any (Datum.sameKey (.str "error")) then .error .listIndex
    else .error (.noFields "list")
  | .str s =>
    if Text.occurs "error".toList s.toList then .error .textIndex else .error (.noFields "str")
  | d => .error (.noMembers d.typeName)

/-! ## The loop -/

/-- The data of a task. -/
def taskData (task : String) (session : Datum) : Datum :=
  Datum.ofFields [("task", .str task), ("session_id", session)]

variable {σ : Type}

/-- Asks for a task. -/
def Console.ask (c : Console σ) (s : σ) : σ := c.paint .blue "\n🧑 Task: " "" s

/-- Has a task run and shows what comes of it. -/
def Console.perform (c : Console σ) (session : Datum) (task : String) (s : σ) :
    Except Client.Crash Unit × σ :=
  match c.post "/agent" (taskData task session) s with
  | (.error crash, s) => (.error crash, s)
  | (.ok d, s) =>
    match shownOf d with
    | .error crash => (.error crash, s)
    | .ok (color, text) => (.ok (), c.paint color text "\n" s)

/-- Goes through the lines that are typed in. -/
def Console.converse (c : Console σ) (session : Datum) :
    List String → σ → Except Client.Crash Unit × σ
  | [], s => (.ok (), c.ask s)
  | line :: rest, s =>
    let s := c.ask s
    let task := Text.strip line
    if isFarewell task then (.ok (), s)
    else if task.isEmpty then converse c session rest s
    else
      match c.perform session task s with
      | (.ok (), s) => converse c session rest s
      | (.error crash, s) => (.error crash, s)

/-- Runs a shell. -/
def Console.run (c : Console σ) (lines : List String) (s : σ) : Except Client.Crash Unit × σ :=
  match c.post "/sessions" (.dict []) s with
  | (.error crash, s) => (.error crash, s)
  | (.ok d, s) =>
    match sessionOf d with
    | .error crash => (.error crash, s)
    | .ok (.error message) =>
      (.ok (), c.paint .red (errorLine s!"Failed to create a session: {message}") "\n" s)
    | .ok (.ok session) =>
      c.converse session lines
        (c.paint .green "\n🌙 luagent shell - type 'exit' or 'quit' to exit" "\n" s)

/-- The console that posts to the service. -/
def console (settings : Settings) : Console World where
  post := Client.post settings Client.standardAttempts
  paint color text ending w := w.paint color text ending

/-- Runs a shell on the lines that are typed in. -/
def run (settings : Settings) (w : World) : Except Client.Crash Unit × World :=
  (console settings).run w.lines w

end ScriptAgent.Shell
