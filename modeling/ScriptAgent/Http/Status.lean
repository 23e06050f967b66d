import ScriptAgent.Http.Message
import ScriptAgent.Http.Url

/-!
# Status codes

What the status code of a response means, and the message about a response that is no success.
-/

namespace ScriptAgent.Http

/-- The phrases for status codes. -/
def phrases : List (Nat × String) := [
  (100, "Continue"), (101, "Switching Protocols"), (102, "Processing"), (103, "Early Hints"),
  (200, "OK"), (201, "Created"), (202, "Accepted"), (203, "Non-Authoritative Information"),
  (204, "No Content"), (205, "Reset Content"), (206, "Partial Content"), (207, "Multi-Status"),
  (208, "Already Reported"), (226, "IM Used"), (300, "Multiple Choices"),
  (301, "Moved Permanently"), (302, "Found"), (303, "See Other"), (304, "Not Modified"),
  (305, "Use Proxy"), (307, "Temporary Redirect"), (308, "Permanent Redirect"),
  (400, "Bad Request"), (401, "Unauthorized"), (402, "Payment Required"), (403, "Forbidden"),
  (404, "Not Found"), (405, "Method Not Allowed"), (406, "Not Acceptable"),
  (407, "Proxy Authentication Required"), (408, "Request Timeout"), (409, "Conflict"),
  (410, "Gone"), (411, "Length Required"), (412, "Precondition Failed"),
  (413, "Request Entity Too Large"), (414, "Request-URI Too Long"),
  (415, "Unsupported Media Type"), (416, "Requested Range Not Satisfiable"),
  (417, "Expectation Failed"), (418, "I'm a teapot"), (421, "Misdirected Request"),
  (422, "Unprocessable Entity"), (423, "Locked"), (424, "Failed Dependency"), (425, "Too Early"),
  (426, "Upgrade Required"), (428, "Precondition Required"), (429, "Too Many Requests"),
  (431, "Request Header Fields Too Large"), (451, "Unavailable For Legal Reasons"),
  (500, "Internal Server Error"), (501, "Not Implemented"), (502, "Bad Gateway"),
  (503, "Service Unavailable"), (504, "Gateway Timeout"), (505, "HTTP Version Not Supported"),
  (506, "Variant Also Negotiates"), (507, "Insufficient Storage"), (508, "Loop Detected"),
  (510, "Not Extended"), (511, "Network Authentication Required")]

/-- The phrase for a status code; an unknown code has an empty one. -/
def phrase (status : Nat) : String := (phrases.lookup status).getD ""

/-- The class of a status code in words. -/
def statusClass (status : Nat) : String :=
  match status / 100 with
  | 1 => "Informational response"
  | 3 => "Redirect response"
  | 4 => "Client error"
  | 5 => "Server error"
  | _ => "Invalid status code"

namespace Response

/-- Whether a response is a success. -/
def isSuccess (r : Response) : Bool := 200 ≤ r.status && r.status ≤ 299

/-- Whether a response is an error of the client or the server. -/
def isError (r : Response) : Bool := 400 ≤ r.status && r.status ≤ 599

/-- The address that a response leads on to. -/
def location? (r : Response) : Option String :=
  if [301, 302, 303, 307, 308].contains r.status then r.headers.get? "location" else none

end Response

/-- Where a status code is explained. -/
def explanation (status : Nat) : Url :=
  ⟨"https", "", "developer.mozilla.org", none, s!"/en-US/docs/Web/HTTP/Status/{status}", none, none⟩

/-- What is wrong with a response that is no success. -/
def Response.problem? (r : Response) (u : Url) : Option String :=
  if r.isSuccess then none
  else
    let url := u.render
    let reason := phrase r.status
    let redirect :=
      match r.location? with
      | some location => s!"Redirect location: '{location}'\n"
      | none => ""
    some (statusClass r.status ++ s!" '{r.status} {reason}' for url '{url}'\n" ++ redirect ++
      "For more information check: " ++ (explanation r.status).render)

end ScriptAgent.Http
