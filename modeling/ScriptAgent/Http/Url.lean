import ScriptAgent.Text.Numeral
import ScriptAgent.Text.Quoted
import ScriptAgent.Text.Search

/-!
# Addresses

`Url.parse` reads an address and brings it into its normal form: the scheme and the host in lower
case, no port that is the scheme's own, no dot segments in the path of an absolute address, and
every character that must not stand in its component as its bytes in percent form. `Url.render`
writes it again, and `Url.join` resolves an address against another one.

A percent sign stands for itself in every component, so what is already in percent form stays as
it is.
-/

namespace ScriptAgent.Http

/-- An address in its normal form. -/
structure Url where
  scheme : String
  userinfo : String
  host : String
  port : Option Int
  path : String
  query : Option String
  fragment : Option String
deriving DecidableEq, Inhabited

namespace Url

/-- Why a text is no address. -/
inductive Fault where
  | tooLong
  | control (c : Char) (index : Nat)
  | port (text : String)
  | fourPartHost (host : String)
  | bracketedHost (host : String)
  | foreignHost (host : String)
  | pathAfterHost
  | doubleSlash
  | colon
deriving DecidableEq, Inhabited

/-- The message of a fault. -/
def Fault.message : Fault → String
  | .tooLong => "URL too long"
  | .control c index =>
    let shown := Text.quoted (String.singleton c)
    s!"Invalid non-printable ASCII character in URL, {shown} at position {index}."
  | .port text => "Invalid port: " ++ Text.quoted text
  | .fourPartHost host => "Invalid IPv4 address: " ++ Text.quoted host
  | .bracketedHost host => "Invalid IPv6 address: " ++ Text.quoted host
  | .foreignHost host => "Invalid IDNA hostname: " ++ Text.quoted host
  | .pathAfterHost => "For absolute URLs, path must be empty or begin with '/'"
  | .doubleSlash => "Relative URLs cannot have a path starting with '//'"
  | .colon => "Relative URLs cannot have a path starting with ':'"

/-! ## Characters -/

/-- Visible ASCII characters. -/
def isVisible (c : Char) : Bool := 0x20 < c.toNat && c.toNat < 0x7F

/-- Visible ASCII characters apart from some. -/
def visibleBut (excluded : String) (c : Char) : Bool :=
  isVisible c && !excluded.toList.contains c

/-- The characters that stand for themselves in a fragment. -/
def inFragment : Char → Bool := visibleBut "\"<>`"

/-- The characters that stand for themselves in a query. -/
def inQuery : Char → Bool := visibleBut "\"#<>"

/-- The characters that stand for themselves in a path. -/
def inPath : Char → Bool := visibleBut "\"#<>?`\x7b\x7d"

/-- The characters that stand for themselves in the information about a user. -/
def inUserinfo : Char → Bool := visibleBut "\"#<>?`\x7b\x7d/;=@[]\\^|"

/-- The characters that stand for themselves in the name of a host. -/
def inHost : Char → Bool := visibleBut "#/:<>?@[]^"

/-- A byte in percent form. -/
def percentForm (b : UInt8) : List Char :=
  '%' :: (Text.hexDigits 2 b.toNat).map Char.toUpper

/-- Puts the characters that may not stand for themselves into percent form. -/
def quote (safe : Char → Bool) (cs : List Char) : List Char :=
  cs.flatMap fun c => if safe c then [c] else (Utf8.encodeChar c).flatMap percentForm

/-- Replaces percent forms by the bytes that they stand for. -/
def unquoteBytes : List Char → Bytes
  | '%' :: a :: b :: rest =>
    match Text.hexValue? a, Text.hexValue? b with
    | some m, some n => Utf8.byte (m * 16 + n) :: unquoteBytes rest
    | _, _ => Utf8.encodeChar '%' ++ unquoteBytes (a :: b :: rest)
  | c :: rest => Utf8.encodeChar c ++ unquoteBytes rest
  | [] => []

/-- The text behind percent forms. -/
def unquote (cs : List Char) : String := Utf8.decode (unquoteBytes cs)

/-- A control character of ASCII. -/
def isControl (c : Char) : Bool := c.toNat < 0x20 || c.toNat = 0x7F

/-! ## Hosts -/

mutual

/-- Whether a text has the form of numbers with `n` more separators, before the first digit of
one. -/
def numbersFrom (n : Nat) : List Char → Bool
  | [] => false
  | c :: rest => c.isDigit && numbersWithin n rest

/-- The same after a digit. -/
def numbersWithin (n : Nat) : List Char → Bool
  | [] => n = 0
  | c :: rest =>
    (c.isDigit && numbersWithin n rest) ||
      match n with
      | 0 => false
      | n + 1 => numbersFrom n rest

end

/-- Whether a text is a number of one byte without superfluous zeros. -/
def isOctet (cs : List Char) : Bool :=
  !cs.isEmpty && cs.length ≤ 3 && cs.all Char.isDigit &&
    (cs.length = 1 || cs.head? != some '0') && (Text.natural? cs).all (· ≤ 255)

/-- Whether a text is four numbers of one byte with points between them. -/
def isFourPart (cs : List Char) : Bool :=
  let parts := Text.splitAt '.' cs
  parts.length = 4 && parts.all isOctet

/-- Whether a text is a group of at most four digits of base sixteen. -/
def isGroup (cs : List Char) : Bool :=
  !cs.isEmpty && cs.length ≤ 4 && cs.all fun c => (Text.hexValue? c).isSome

/-- The number of groups that parts between colons stand for, if all are groups; the last part may
be four numbers, which stand for two groups. -/
def countGroups : List (List Char) → Option Nat
  | [] => some 0
  | [part] => if isFourPart part then some 2 else if isGroup part then some 1 else none
  | part :: rest => if isGroup part then (countGroups rest).map (· + 1) else none

/-- The parts between colons; none if there is nothing. -/
def groupsOf (cs : List Char) : List (List Char) :=
  if cs.isEmpty then [] else Text.splitAt ':' cs

/-- Whether a text is an address of eight groups, of which one run of zeros may be left out. -/
def isEightPart (cs : List Char) : Bool :=
  let cs := cs.takeWhile (· != '%')
  match Text.cutAt? [':', ':'] cs with
  | none => countGroups (groupsOf cs) == some 8
  | some (before, after) =>
    let plain := !(before.contains '.')
    match countGroups (groupsOf before), countGroups (groupsOf after) with
    | some m, some n => plain && m + n ≤ 7
    | _, _ => false

/-- The normal form of a host. -/
def normalHost (cs : List Char) : Except Fault String :=
  if cs.isEmpty then .ok ""
  else if numbersFrom 3 cs then
    if isFourPart cs then .ok (String.ofList cs) else .error (.fourPartHost (String.ofList cs))
  else if cs.head? = some '[' && cs.getLast? = some ']' then
    let inner := cs.tail.dropLast
    if isEightPart inner then .ok (String.ofList inner)
    else .error (.bracketedHost (String.ofList cs))
  else if cs.all (·.toNat < 0x80) then .ok (String.ofList (quote inHost (cs.map Char.toLower)))
  else .error (.foreignHost (String.ofList cs))

/-! ## Ports -/

/-- The ports that belong to schemes. -/
def schemePorts : List (String × Int) :=
  [("ftp", 21), ("http", 80), ("https", 443), ("ws", 80), ("wss", 443)]

/-- The normal form of a port: none where it is the scheme's own. -/
def normalPort (scheme : String) (cs : List Char) : Except Fault (Option Int) :=
  if cs.isEmpty then .ok none
  else
    match Text.integer? (String.ofList cs) with
    | none => .error (.port (String.ofList cs))
    | some n => .ok (if schemePorts.lookup scheme = some n then none else some n)

/-! ## Paths -/

/-- Removes the dot segments of a path; `before` holds the segments that are kept, in reverse. -/
def removeDots (before : List (List Char)) : List (List Char) → List (List Char)
  | [] => before.reverse
  | segment :: rest =>
    if segment = ['.'] then removeDots before rest
    else if segment = ['.', '.'] then
      removeDots (if before = [[]] then before else before.tail) rest
    else removeDots (segment :: before) rest

/-- The path without dot segments. -/
def normalPath (cs : List Char) : List Char :=
  Text.joinWith ['/'] (removeDots [] (Text.splitAt '/' cs))

/-! ## Reading -/

/-- The components of an address as they are written. -/
structure Parts where
  scheme : List Char
  authority : List Char
  path : List Char
  query : Option (List Char)
  fragment : Option (List Char)
deriving Inhabited

/-- Whether a character may stand in a scheme after the first one. -/
def inScheme (c : Char) : Bool := c.isAlphanum || c == '+' || c == '.' || c == '-'

/-- Cuts off the scheme and its colon. -/
def cutScheme (cs : List Char) : List Char × List Char :=
  match cs with
  | ':' :: rest => ([], rest)
  | c :: _ =>
    if c.isAlpha then
      match cs.dropWhile inScheme with
      | ':' :: rest => (cs.takeWhile inScheme, rest)
      | _ => ([], cs)
    else ([], cs)
  | [] => ([], [])

/-- Cuts off the authority. -/
def cutAuthority (cs : List Char) : List Char × List Char :=
  let ends (c : Char) : Bool := c != '/' && c != '?' && c != '#'
  match cs with
  | '/' :: '/' :: rest => (rest.takeWhile ends, rest.dropWhile ends)
  | cs => ([], cs)

/-- Cuts a text at the first occurrence of a character; what follows is absent if there is
none. -/
def cutAfter (c : Char) (cs : List Char) : List Char × Option (List Char) :=
  match cs.dropWhile (· != c) with
  | _ :: rest => (cs.takeWhile (· != c), some rest)
  | [] => (cs, none)

/-- Cuts an address into its components. -/
def cut (cs : List Char) : Parts :=
  let (cs, fragment) := cutAfter '#' cs
  let (cs, query) := cutAfter '?' cs
  let (scheme, rest) := cutScheme cs
  let (authority, path) := cutAuthority rest
  ⟨scheme, authority, path, query, fragment⟩

/-- Cuts the information about a user off an authority: what stands before the last at sign. -/
def cutUserinfo (authority : List Char) : List Char × List Char :=
  match authority.reverse.dropWhile (· != '@') with
  | _ :: before => (before.reverse, (authority.reverse.takeWhile (· != '@')).reverse)
  | [] => ([], authority)

/-- The host and the port of the rest of an authority. -/
def cutPort (cs : List Char) : List Char × List Char :=
  let dropColon (cs : List Char) : List Char := if cs.head? = some ':' then cs.tail else cs
  match cs with
  | '[' :: _ =>
    match cs.reverse.dropWhile (· != ']') with
    | [] => (cs.takeWhile (· != ':'), dropColon (cs.dropWhile (· != ':')))
    | inner => (inner.reverse, dropColon (cs.drop inner.length))
  | cs => (cs.takeWhile (· != ':'), dropColon (cs.dropWhile (· != ':')))

/-- What is wrong with a path, if anything is. -/
def pathFault? (hasScheme hasAuthority : Bool) (path : List Char) : Option Fault :=
  if hasAuthority && !path.isEmpty && path.head? != some '/' then some .pathAfterHost
  else if hasScheme || hasAuthority then none
  else
    match path with
    | '/' :: '/' :: _ => some .doubleSlash
    | ':' :: _ => some .colon
    | _ => none

/-- Brings components into their normal form. -/
def ofParts (p : Parts) : Except Fault Url := do
  let (userinfo, rest) := cutUserinfo p.authority
  let (host, port) := cutPort rest
  let userinfo := String.ofList (quote inUserinfo userinfo)
  let host ← normalHost host
  let port ← normalPort (String.ofList p.scheme) port
  let hasScheme := !p.scheme.isEmpty
  let hasAuthority := !userinfo.isEmpty || !host.isEmpty || port.isSome
  match pathFault? hasScheme hasAuthority p.path with
  | some fault => .error fault
  | none =>
    let path := if hasScheme || hasAuthority then normalPath p.path else p.path
    return ⟨String.ofList (p.scheme.map Char.toLower), userinfo, host, port,
      String.ofList (quote inPath path), p.query.map fun q => String.ofList (quote inQuery q),
      p.fragment.map fun f => String.ofList (quote inFragment f)⟩

/-- The largest number of characters of an address. -/
def maxLength : Nat := 65536

/-- Reads an address. -/
def parse (s : String) : Except Fault Url :=
  let cs := s.toList
  if cs.length > maxLength then .error .tooLong
  else
    match cs.findIdx? isControl with
    | some i => .error (.control (cs.getD i ' ') i)
    | none => ofParts (cut cs)

/-! ## Writing -/

/-- The host as it stands in an address. -/
def shownHost (u : Url) : String :=
  if u.host.toList.contains ':' then "[" ++ u.host ++ "]" else u.host

/-- The authority of an address. -/
def authority (u : Url) : String :=
  (if u.userinfo.isEmpty then "" else u.userinfo ++ "@") ++ u.shownHost ++
    match u.port with
    | some n => ":" ++ toString n
    | none => ""

/-- The text of an address. -/
def render (u : Url) : String :=
  (if u.scheme.isEmpty then "" else u.scheme ++ ":") ++
    (if u.authority.isEmpty then "" else "//" ++ u.authority) ++ u.path ++
    (match u.query with | some q => "?" ++ q | none => "") ++
    (match u.fragment with | some f => "#" ++ f | none => "")

/-- Whether an address has both a scheme and a host. -/
def isAbsolute (u : Url) : Bool := !u.scheme.isEmpty && !u.host.isEmpty

/-! ## Resolving -/

/-- The components of an address as texts. -/
def parts (u : Url) : Parts :=
  ⟨u.scheme.toList, u.authority.toList, u.path.toList, u.query.map String.toList,
    u.fragment.map String.toList⟩

/-- An address with another host. -/
def withHost (u : Url) (host : String) : Except Fault Url :=
  ofParts { u.parts with authority := ({ u with host := host } : Url).authority.toList }

/-- A path of an address without scheme and host, as an address to which requests are sent. -/
def rooted (u : Url) : Except Fault Url :=
  ofParts ⟨[], [], '/' :: u.path.toList.dropWhile (· == '/'), u.query.map String.toList, none⟩

/-- A component that is present and not empty. -/
def present (part : Option (List Char)) : Option (List Char) :=
  match part with
  | some [] => none
  | part => part

/-- Removes the dot segments of a merged path; `before` holds the segments that are kept, in
reverse. -/
def mergeDots (before : List (List Char)) : List (List Char) → List (List Char)
  | [] => before.reverse
  | segment :: rest =>
    if segment = ['.', '.'] then mergeDots before.tail rest
    else if segment = ['.'] then mergeDots before rest
    else mergeDots (segment :: before) rest

/-- The segments of a path that is resolved against another one. -/
def mergedSegments (base path : List Char) : List (List Char) :=
  if path.head? = some '/' then Text.splitAt '/' path
  else
    let directory := Text.splitAt '/' base
    let directory := if directory.getLast? = some [] then directory else directory.dropLast
    match directory ++ Text.splitAt '/' path with
    | first :: rest => first :: rest.dropLast.filter (!·.isEmpty) ++ rest.getLast?.toList
    | [] => []

/-- The path that results from resolving a path against another one. -/
def mergedPath (base path : List Char) : List Char :=
  let segments := mergedSegments base path
  let kept := mergeDots [] segments
  let last := segments.getLast?.getD []
  let kept := if last = ['.'] || last = ['.', '.'] then kept ++ [[]] else kept
  let merged := Text.joinWith ['/'] kept
  if merged.isEmpty then ['/'] else merged

/-- Resolves an address without scheme or host against another one. -/
def join (base u : Url) : Except Fault Url :=
  let b := base.parts
  let p := u.parts
  if !p.scheme.isEmpty && p.scheme != b.scheme then .ok u
  else if !p.authority.isEmpty then ofParts { p with
    scheme := b.scheme, query := present p.query, fragment := present p.fragment }
  else if p.path.isEmpty then
    ofParts ⟨b.scheme, b.authority, b.path,
      if (present p.query).isSome then p.query else present b.query, present p.fragment⟩
  else
    ofParts ⟨b.scheme, b.authority, mergedPath b.path p.path, present p.query,
      present p.fragment⟩

/-- The port that requests to an address go to. -/
def effectivePort (u : Url) : Option Int :=
  match u.port with
  | some n => some n
  | none => if u.scheme = "http" || u.scheme = "https" then schemePorts.lookup u.scheme else none

/-- Whether two addresses belong to the same service. -/
def sameOrigin (u v : Url) : Bool :=
  u.scheme == v.scheme && u.host == v.host && u.effectivePort == v.effectivePort

/-- Whether one address leads to the secure form of the service of the other one. -/
def isUpgrade (u v : Url) : Bool :=
  u.host == v.host && u.scheme == "http" && u.effectivePort == some 80 &&
    v.scheme == "https" && v.effectivePort == some 443

end Url

end ScriptAgent.Http
