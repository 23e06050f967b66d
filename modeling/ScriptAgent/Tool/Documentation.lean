import ScriptAgent.Text.Blank
import ScriptAgent.Text.Classes

/-!
# Documentation of functions

The documentation text of a function begins with a summary, which ends at the first empty line or
at the heading of the section on parameters. Each line of that section that has the form of an
entry describes a parameter: its name after up to two stars, optionally something in
parentheses, a colon, and the description. The section ends at the next line that is not
indented.
-/

namespace ScriptAgent.Tool

/-- What a documentation text says. -/
structure Documentation where
  summary : String
  /-- The descriptions of parameters by name, in order. -/
  entries : List (String × String)
deriving DecidableEq, Inhabited

namespace Documentation

/-- The headings of the section on parameters, in lower case. -/
def headings : List String := ["args:", "arguments:", "parameters:"]

/-- Whether a line is a heading of the section on parameters. -/
def isHeading (stripped : List Char) : Bool :=
  headings.contains (String.ofList (stripped.map Char.toLower))

/-- Drops at most `n` stars. -/
def dropStars : Nat → List Char → List Char
  | n + 1, '*' :: rest => dropStars n rest
  | _, cs => cs

/-- Drops a remark in parentheses if there is one. -/
def dropRemark (cs : List Char) : List Char :=
  match cs with
  | '(' :: rest =>
    match rest.dropWhile (· != ')') with
    | ')' :: rest => Text.stripLeft rest
    | _ => cs
  | cs => cs

/-- The name and the description in a line that has the form of an entry. -/
def entry? (line : List Char) : Option (String × String) :=
  let cs := dropStars 2 (Text.stripLeft line)
  let name := cs.takeWhile Text.isWordChar
  if name.isEmpty then none
  else
    match dropRemark (Text.stripLeft (cs.dropWhile Text.isWordChar)) with
    | ':' :: text => some (String.ofList name, String.ofList (Text.stripChars text))
    | _ => none

/-- Puts a description at a name; a new name comes last. -/
def putEntry (name text : String) : List (String × String) → List (String × String)
  | [] => [(name, text)]
  | (n, t) :: rest => if n = name then (n, text) :: rest else (n, t) :: putEntry name text rest

/-- The part of a text that is being read. -/
inductive Part where
  /-- The summary, with the lines of it that have been read in reverse. -/
  | summary
  | parameters
  | other
deriving DecidableEq

/-- The state of reading: the part, the lines of the summary in reverse, and the entries. -/
structure Reading where
  part : Part
  lines : List (List Char)
  entries : List (String × String)

/-- Reads a line of the summary. -/
def Reading.summaryLine (r : Reading) (stripped : List Char) : Reading :=
  if !stripped.isEmpty then { r with lines := stripped :: r.lines }
  else if r.lines.isEmpty then r
  else { r with part := .other }

/-- Reads a line. -/
def Reading.line (r : Reading) (line : List Char) : Reading :=
  let stripped := Text.stripChars line
  if isHeading stripped then { r with part := .parameters }
  else
    match r.part with
    | .summary => r.summaryLine stripped
    | .other => r
    | .parameters =>
      if !stripped.isEmpty && !Text.isBlank (line.headD ' ') then { r with part := .other }
      else
        match entry? line with
        | some (name, text) => { r with entries := putEntry name text r.entries }
        | none => r

/-- Reads a documentation text. -/
def read (text : List Char) : Documentation :=
  let r := (Text.splitLines text).foldl Reading.line ⟨.summary, [], []⟩
  ⟨String.ofList (Text.joinWith [' '] r.lines.reverse), r.entries⟩

/-- The description of a parameter, or nothing. -/
def describe (d : Documentation) (name : String) : String := (d.entries.lookup name).getD ""

end Documentation

end ScriptAgent.Tool
