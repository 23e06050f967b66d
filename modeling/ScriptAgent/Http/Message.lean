import ScriptAgent.Text.Bytes

/-!
# Requests and responses

The messages of the web protocol, as they are sent and received. What answers a request is not
part of the library: an `Outcome` is a response or the failure of the connection, and outcomes
are handed in one for each request that is sent.
-/

namespace ScriptAgent.Http

/-- The headers of a message, in order, with their names as they are sent. -/
abbrev Headers := List (String × String)

/-- A request as it is sent. -/
structure Request where
  method : String
  url : String
  headers : Headers
  body : Bytes
deriving Inhabited, BEq

/-- A response as it is received. -/
structure Response where
  status : Nat
  headers : Headers
  body : Bytes
deriving Inhabited, BEq

/-- How a request fails. -/
inductive FailureKind where
  /-- No connection can be made. -/
  | connection
  /-- The exchange fails in any other way. -/
  | exchange
deriving DecidableEq, Inhabited

/-- What becomes of a request. -/
inductive Outcome where
  | failure (kind : FailureKind) (message : String)
  | response (r : Response)
deriving Inhabited, BEq

namespace Headers

/-- The value of a header; the values of a header that occurs more than once are joined. -/
def get? (h : Headers) (name : String) : Option String :=
  match h.filter fun (n, _) => n == name with
  | [] => none
  | found => some (String.intercalate ", " (found.map Prod.snd))

/-- Whether there is a header of a name. -/
def has (h : Headers) (name : String) : Bool := h.any fun (n, _) => n == name

/-- Adds a header unless there is one of its name. -/
def withDefault (h : Headers) (name value : String) : Headers :=
  if h.has name then h else h ++ [(name, value)]

/-- Removes the headers of a name. -/
def without (h : Headers) (name : String) : Headers := h.filter fun (n, _) => n != name

/-- The names of headers, each at its first place, with their values. -/
def merged (h : Headers) : Headers :=
  h.foldl (fun acc (name, _) =>
    if acc.has name then acc else acc ++ [(name, (h.get? name).getD "")]) []

end Headers

end ScriptAgent.Http
