import ScriptAgent.Http.Url

/-!
# Routes

The paths that the service answers, and what each method asks for there. A path with a slash too
many at its end leads to the one without it.
-/

namespace ScriptAgent.Service

/-- A path that the service answers. -/
inductive Route where
  | health | root | sessions
  | messages (session : String)
  | session (session : String)
  | agent
deriving DecidableEq, Inhabited

/-- What a request asks for. -/
inductive Action where
  | checkHealth | welcome | listSessions | createSession
  | readMessages (session : String)
  | deleteSession (session : String)
  | runTask
deriving DecidableEq, Inhabited

namespace Route

/-- The route of a path. -/
def ofPath? (path : List Char) : Option Route :=
  match (Text.splitAt '/' path).map String.ofList with
  | ["", ""] => some .root
  | ["", "health"] => some .health
  | ["", "sessions"] => some .sessions
  | ["", "agent"] => some .agent
  | ["", "sessions", id] => if id.isEmpty then none else some (.session id)
  | ["", "sessions", id, "messages"] => if id.isEmpty then none else some (.messages id)
  | _ => none

/-- The route of a path, or of the path without slashes at its end. -/
def find? (path : List Char) : Option Route :=
  match ofPath? path with
  | some r => some r
  | none =>
    if path.getLast? = some '/' then ofPath? (path.reverse.dropWhile (· == '/')).reverse else none

/-- What a method asks for at a route. -/
def action? (r : Route) (method : String) : Option Action :=
  match r, method with
  | .health, "GET" => some .checkHealth
  | .root, "GET" => some .welcome
  | .sessions, "GET" => some .listSessions
  | .sessions, "POST" => some .createSession
  | .messages id, "GET" => some (.readMessages id)
  | .session id, "DELETE" => some (.deleteSession id)
  | .agent, "POST" => some .runTask
  | _, _ => none

end Route

/-- The path of an address, without percent forms. -/
def pathOf (address : String) : Except Http.Url.Fault (List Char) := do
  let u ← Http.Url.parse address
  let u ← if u.isAbsolute then .ok u else u.rooted
  let path := if u.path.isEmpty then "/" else u.path
  return (Http.Url.unquote (Http.Url.unquote path.toList).toList).toList

end ScriptAgent.Service
