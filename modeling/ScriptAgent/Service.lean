import ScriptAgent.Service.Body
import ScriptAgent.Service.Route
import ScriptAgent.Service.Store

/-!
# The service

The service gives agents to clients: each session has an agent of its own, with its conversation and
its sandbox. `Service.handle` answers one request. Names of sessions and the models for their
agents come from a `Supply`, one for each session that is created.

A task for a session that is not live gets a new session, which stays even if the run fails.
-/

namespace ScriptAgent.Service

/-- The logger of the service. -/
def logger : String := "luagent.api.app"

/-- Where the names of sessions and the models for their agents come from. -/
structure Supply where
  id : Nat → String
  provider : Nat → Except Model.Provider.LoadFault Model.Provider

/-- A request to the service. -/
structure Request where
  method : String
  address : String
  contentType : String
  body : Bytes
deriving Inhabited

/-- An answer of the service. -/
structure Answer where
  status : Nat
  body : Datum
deriving Inhabited

/-- A failure that no answer tells of. -/
inductive Crash where
  | address (fault : Http.Url.Fault)
  | provider (fault : Model.Provider.LoadFault)
  | unusable (reason : Agent.Unusable)
  | run (ending : Agent.Ending)

/-! ## Answers -/

/-- An answer that something was done. -/
def done (fields : List (String × Datum)) : Answer := ⟨200, Datum.ofFields fields⟩

/-- An answer about an error. -/
def refuse (status : Nat) (detail : String) : Answer :=
  ⟨status, Datum.ofFields [("detail", .str detail)]⟩

/-- A part of the way to a place as data. -/
def pathDatum : PathItem → Datum
  | .name s => .str s
  | .index i => .int i

/-- A fault as data. -/
def issueDatum (i : Issue) : Datum :=
  Datum.ofFields [("type", .str i.fault.kind), ("loc", .list (i.path.map pathDatum)),
    ("msg", .str i.fault.message)]

/-- An answer about faults of a body. -/
def invalid (issues : List Issue) : Answer :=
  ⟨422, Datum.ofFields [("detail", .list (issues.map issueDatum))]⟩

/-- The answer about a session that is not live. -/
def unknown (id : String) : Answer := refuse 404 s!"Unknown session '{id}'"

/-- The answer with the messages of a session. -/
def history (id : String) (c : Conversation) : Answer :=
  done [("session_id", .str id), ("messages", .list (c.messages.map Message.toDatum))]

/-! ## Sessions -/

/-- Creates a session. -/
def createSession (supply : Supply) (settings : Settings) (budget : Option Int) (s : Store)
    (w : World) : Except Crash String × Store × World :=
  match supply.provider s.created with
  | .error fault => (.error (.provider fault), s, w)
  | .ok provider =>
    let budget := match budget with
      | some n => .int n
      | none => .none
    match Agent.make settings provider Agent.defaultTools budget .none with
    | .error reason => (.error (.unusable reason), s, w)
    | .ok agent =>
      let id := supply.id s.created
      (.ok id, s.add id agent, w.log logger .info s!"Created session {id}")

/-- The session that a task asks for, or a new one. -/
def sessionFor (supply : Supply) (settings : Settings) (t : Task) (s : Store) (w : World) :
    Except Crash String × Store × World :=
  let id := t.session.getD ""
  if !id.isEmpty && s.ids.contains id then (.ok id, s, w)
  else createSession supply settings t.budget s w

/-! ## Runs -/

/-- The answer about the end of a run. -/
def answerRun (id : String) (ending : Agent.Ending) (w : World) : Except Crash Answer × World :=
  match ending with
  | .answered text => (.ok (done [("answer", .str text), ("session_id", .str id)]), w)
  | .exhausted budget =>
    let message := (Agent.Ending.exhausted budget).message
    (.ok (refuse 422 message), w.log logger .warning s!"Session {id}: {message}")
  | .refused message =>
    (.ok (refuse 502 message), w.log logger .error s!"Session {id}: LLM failure: {message}")
  | ending => (.error (.run ending), w)

/-- Runs a task in a live session. -/
def runIn (id : String) (task : String) (s : Store) (w : World) :
    Except Crash Answer × Store × World :=
  match s.find? id with
  | none => (.ok (unknown id), s, w)
  | some agent =>
    let (ending, agent, w) := agent.run task Agent.never w
    let (answer, w) := answerRun id ending w
    (answer, s.update id agent, w)

/-- Runs the task in the data of a body. -/
def runTask (supply : Supply) (settings : Settings) (d : Datum) (s : Store) (w : World) :
    Except Crash Answer × Store × World :=
  match Task.ofBody d with
  | .error issues => (.ok (invalid issues), s, w)
  | .ok t =>
    match sessionFor supply settings t s w with
    | (.error crash, s, w) => (.error crash, s, w)
    | (.ok id, s, w) => runIn id t.text s w

/-! ## Requests -/

/-- Does what a request asks for. -/
def perform (supply : Supply) (settings : Settings) (r : Request) (a : Action) (s : Store)
    (w : World) : Except Crash Answer × Store × World :=
  match a with
  | .checkHealth => (.ok (done [("status", .str "ok")]), s, w)
  | .welcome =>
    (.ok (done [("message",
      .str "Welcome to the luagent API! Use /docs for API documentation.")]), s, w)
  | .listSessions => (.ok ⟨200, Datum.texts s.ids⟩, s, w)
  | .createSession =>
    match createSession supply settings none s w with
    | (.error crash, s, w) => (.error crash, s, w)
    | (.ok id, s, w) => (.ok (done [("session_id", .str id)]), s, w)
  | .readMessages id =>
    match s.find? id with
    | none => (.ok (unknown id), s, w)
    | some agent => (.ok (history id agent.conversation), s, w)
  | .deleteSession id =>
    match s.find? id with
    | none => (.ok (unknown id), s, w)
    | some _ => (.ok (done [("status", .str "deleted")]), s.remove id, w)
  | .runTask =>
    match readBody r.contentType r.body with
    | .error (.noJson position) =>
      (.ok (invalid [⟨[.name "body", .index position], .json⟩]), s, w)
    | .error .unreadable => (.ok (refuse 400 "There was an error parsing the body"), s, w)
    | .ok d => runTask supply settings d s w

/-- Answers a request. -/
def handle (supply : Supply) (settings : Settings) (r : Request) (s : Store) (w : World) :
    Except Crash Answer × Store × World :=
  match pathOf r.address with
  | .error fault => (.error (.address fault), s, w)
  | .ok path =>
    match Route.find? path with
    | none => (.ok (refuse 404 "Not Found"), s, w)
    | some route =>
      match route.action? r.method with
      | none => (.ok (refuse 405 "Method Not Allowed"), s, w)
      | some a => perform supply settings r a s w

end ScriptAgent.Service
