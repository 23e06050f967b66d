import ScriptAgent.Http.Message
import ScriptAgent.Json.Encoded

/-!
# What a response holds

The body of a response as text, in the character set that its content type names, and as JSON.
-/

namespace ScriptAgent.Http

open Text (Charset)

/-- Cuts the parameters of a content type at semicolons that stand in no quotes. -/
def parameters (inQuotes : Bool) : List Char → List (List Char)
  | [] => [[]]
  | c :: rest =>
    if c = ';' && !inQuotes then [] :: parameters false rest
    else
      match parameters (if c = '"' then !inQuotes else inQuotes) rest with
      | part :: more => (c :: part) :: more
      | [] => [[c]]

/-- A text without the quotes around it. -/
def unquoted (cs : List Char) : List Char :=
  if 2 ≤ cs.length && cs.head? = some '"' && cs.getLast? = some '"' then cs.tail.dropLast
  else cs

/-- The value of a parameter of this name. -/
def parameterValue? (name : String) (part : List Char) : Option (List Char) :=
  let key := Text.stripChars (part.takeWhile (· != '='))
  if String.ofList (key.map Char.toLower) = name then
    some (unquoted (Text.stripChars ((part.dropWhile (· != '=')).drop 1)))
  else none

/-- The name of the character set in a content type. -/
def charsetName? (contentType : String) : Option String :=
  ((parameters false contentType.toList).findSome? (parameterValue? "charset")).map fun cs =>
    String.ofList (cs.map Char.toLower)

namespace Response

/-- The content type of a response. -/
def contentType (r : Response) : String := (r.headers.get? "content-type").getD ""

/-- The character set of a response; without a known one it is UTF-8. -/
def charset (r : Response) : Charset :=
  ((charsetName? r.contentType).bind Charset.ofName?).getD .utf8

/-- The body as text. -/
def text (r : Response) : String := r.charset.decode r.body

/-- The body as JSON. -/
def json (r : Response) : Except Json.BytesFault Datum := Json.parseBytes r.body

end Response

end ScriptAgent.Http
