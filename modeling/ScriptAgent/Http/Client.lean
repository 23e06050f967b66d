import ScriptAgent.Http.Status
import ScriptAgent.Json.Writer
import ScriptAgent.Text.Base64
import ScriptAgent.World

/-!
# Sending requests

`Http.send` makes a request of an address, headers and a body, sends it and, if it is asked to,
follows the addresses that responses lead on to. The headers that describe a body are added
unless they are given, and a header is sent under its name in lower case.

A request that is led on becomes a `GET` without a body after the codes 302 and 303, and a `POST`
also after 301. Credentials do not leave the service that they were given for.
-/

namespace ScriptAgent.Http

/-- The body of a request. -/
inductive Body where
  | none
  | text (s : String)
  | json (d : Datum)
deriving Inhabited

/-- Why a request gets no response. -/
inductive Failure where
  | url (fault : Url.Fault)
  /-- A header whose characters are not ASCII, with the places of the first of them. -/
  | header (text : String) (first last : Nat)
  | body (refusal : Json.Refusal)
  /-- The exchange fails. -/
  | exchange (kind : FailureKind) (message : String)
deriving Inhabited

/-- The message about characters that are not ASCII. -/
def headerMessage (text : String) (first last : Nat) : String :=
  if first = last then
    let shown := String.ofList (Text.codeEscape ((text.toList.getD first ' ').toNat))
    s!"'ascii' codec can't encode character '{shown}' in position {first}: ordinal not in range(128)"
  else
    s!"'ascii' codec can't encode characters in position {first}-{last}: ordinal not in range(128)"

/-- The message of a failure. -/
def Failure.message : Failure → String
  | .url fault => fault.message
  | .header text first last => headerMessage text first last
  | .body refusal => refusal.message
  | .exchange _ message => message

/-! ## Headers -/

/-- Whether a character is one of ASCII. -/
def isAscii (c : Char) : Bool := c.toNat < 0x80

/-- A text of ASCII. -/
def asciiText (s : String) : Except Failure String :=
  let cs := s.toList
  match cs.findIdx? fun c => !isAscii c with
  | .none => .ok s
  | some first => .error (.header s first (first + ((cs.drop first).takeWhile (!isAscii ·)).length - 1))

/-- The headers of a request, with their names in lower case. -/
def asciiHeaders (headers : Headers) : Except Failure Headers :=
  headers.mapM fun (name, value) => do
    return ((← asciiText name).toLower, ← asciiText value)

/-- Adds the headers that describe a body, and makes its bytes. -/
def describeBody (headers : Headers) : Body → Except Failure (Headers × Bytes)
  | .none => .ok (headers, [])
  | .text s =>
    let bytes := Utf8.encode s
    if bytes.isEmpty then .ok (headers, bytes)
    else .ok (headers.withDefault "content-length" (toString bytes.length), bytes)
  | .json d =>
    match Json.write .body d with
    | .error refusal => .error (.body refusal)
    | .ok s =>
      let bytes := Utf8.encode s
      .ok ((headers.withDefault "content-length" (toString bytes.length)).withDefault "content-type"
        "application/json", bytes)

/-- The methods whose requests state a length even without a body. -/
def statesLength (method : String) : Bool := ["POST", "PUT", "PATCH"].contains method

/-- States that there is no body where nothing states its length. -/
def frame (method : String) (headers : Headers) : Headers :=
  if statesLength method && !headers.has "content-length" && !headers.has "transfer-encoding" then
    ("content-length", "0") :: headers
  else headers

/-- The header for the credentials in an address. -/
def authorize (u : Url) (headers : Headers) : Headers :=
  let (name, password) := Url.cutAfter ':' u.userinfo.toList
  let name := Url.unquote name
  let password := Url.unquote (password.getD [])
  if name.isEmpty && password.isEmpty then headers
  else
    let credentials := String.ofList (Text.base64 (Utf8.encode (name ++ ":" ++ password)))
    headers.without "authorization" ++ [("authorization", "Basic " ++ credentials)]

/-! ## Requests -/

/-- A request that is ready to be sent. -/
structure Prepared where
  method : String
  url : Url
  headers : Headers
  body : Bytes
deriving Inhabited

/-- The request as it is sent. -/
def Prepared.request (p : Prepared) : Request := ⟨p.method, p.url.render, p.headers, p.body⟩

/-- Reads the address that a request goes to. -/
def targetUrl (url : String) : Except Failure Url :=
  match Url.parse url with
  | .error fault => .error (.url fault)
  | .ok u =>
    if u.isAbsolute then .ok u
    else
      match u.rooted with
      | .error fault => .error (.url fault)
      | .ok u => .ok u

/-- Makes a request. -/
def prepare (method url : String) (headers : Headers) (body : Body) :
    Except Failure Prepared := do
  let u ← targetUrl url
  let headers ← asciiHeaders headers
  let (headers, bytes) ← describeBody headers body
  return ⟨method, u, authorize u (frame method headers), bytes⟩

/-! ## Redirects -/

/-- The method of the request that follows a response. -/
def nextMethod (method : String) (status : Nat) : String :=
  if (status = 303 || status = 302) && method != "HEAD" then "GET"
  else if status = 301 && method = "POST" then "GET"
  else method

/-- The address that a location leads to. -/
def nextUrl (u : Url) (location : String) : Except Failure Url :=
  let lift (r : Except Url.Fault Url) : Except Failure Url :=
    match r with
    | .ok v => .ok v
    | .error fault => .error (.url fault)
  match Url.parse location with
  | .error fault =>
    .error (.exchange .exchange s!"Invalid URL in location header: {fault.message}.")
  | .ok v => do
    let v ← if !v.scheme.isEmpty && v.host.isEmpty then lift (v.withHost u.host) else .ok v
    let v ← if v.isAbsolute then .ok v else lift (Url.join u v)
    match Url.present (u.fragment.map String.toList), Url.present (v.fragment.map String.toList) with
    | some _, .none => return { v with fragment := u.fragment }
    | _, _ => return v

/-- The headers of the request that follows a response. -/
def nextHeaders (p : Prepared) (u : Url) (method : String) : Headers :=
  let headers := p.headers.without "cookie"
  let headers :=
    if Url.sameOrigin u p.url || Url.isUpgrade p.url u then headers
    else headers.without "authorization"
  if method != p.method && method = "GET" then
    (headers.without "content-length").without "transfer-encoding"
  else headers

/-- The request that follows a response. -/
def Prepared.next (p : Prepared) (status : Nat) (location : String) : Except Failure Prepared := do
  let method := nextMethod p.method status
  let u ← nextUrl p.url location
  let headers := nextHeaders p u method
  if method != p.method && method = "GET" then return ⟨method, u, headers, []⟩
  return ⟨method, u, headers, p.body⟩

/-! ## Sending -/

/-- The headers of a response as they are read: names in lower case, and the length of a body
that states none. -/
def received (r : Response) : Response :=
  let headers : Headers := r.headers.map fun (name, value) => (name.toLower, value)
  { r with headers :=
      if r.body.isEmpty then headers
      else headers.withDefault "content-length" (toString r.body.length) }

/-- The largest number of responses that are followed. -/
def maxRedirects : Nat := 20

/-- Sends a request and follows at most `n` responses. -/
def deliver (follow : Bool) : Nat → Prepared → World → Except Failure (Url × Response) × World
  | n, p, w =>
    match w.send p.request with
    | (.failure kind message, w) => (.error (.exchange kind message), w)
    | (.response r, w) =>
      let r := received r
      match r.location? with
      | .none => (.ok (p.url, r), w)
      | some location =>
        match p.next r.status location with
        | .error failure => (.error failure, w)
        | .ok q =>
          if !follow then (.ok (p.url, r), w)
          else
            match n with
            | 0 => (.error (.exchange .exchange "Exceeded maximum allowed redirects."), w)
            | n + 1 => deliver follow n q w

/-- Sends a request; the response comes with the address that it is from. -/
def send (follow : Bool) (method url : String) (headers : Headers) (body : Body) (w : World) :
    Except Failure (Url × Response) × World :=
  match prepare method url headers body with
  | .error failure => (.error failure, w)
  | .ok p => deliver follow maxRedirects p w

end ScriptAgent.Http
