import ScriptAgent.Script.Library.Control

/-!
# Names of tools

A tool is bound under a path of identifiers separated by dots. The names of the control functions
and of the globals that they work on are reserved.
-/

namespace ScriptAgent.Sandbox

/-- The names of the control functions. -/
def controlNames : List String := ["print", "thought", "observation", "final_answer"]

/-- The names that no tool and no value of the host is bound to. -/
def reservedNames : List String := controlNames ++ ["_print_buffer", "_final_answer"]

/-- Whether a character begins an identifier. -/
def isNameStart (c : Char) : Bool := c.isAlpha || c == '_'

/-- Whether characters are an identifier. -/
def isIdentifier : List Char → Bool
  | [] => false
  | c :: rest => isNameStart c && rest.all fun c => isNameStart c || c.isDigit

/-- Cuts characters at the dots. -/
def splitDots : List Char → List (List Char)
  | [] => [[]]
  | '.' :: rest => [] :: splitDots rest
  | c :: rest =>
    match splitDots rest with
    | [] => [[c]]
    | part :: more => (c :: part) :: more

/-- The parts of a name; a line break at the end is passed over. -/
def pathOf (name : String) : List (List Char) := splitDots name.toList

/-- Whether characters are a path of identifiers; a line break at the end is passed over. -/
def isPath (cs : List Char) : Bool :=
  let cs := if cs.getLast? = some '\n' then cs.dropLast else cs
  (splitDots cs).all isIdentifier

/-- Why a name is rejected. -/
inductive NameFault where
  | notIdentifier (name : String)
  | reserved (name : String)
  /-- A reserved name for a value of the host. -/
  | reservedGlobal (name : String)
deriving DecidableEq, Inhabited

/-- The message of a rejection. -/
def NameFault.message : NameFault → String
  | .notIdentifier name => s!"Tool name '{name}' is not a valid Lua identifier."
  | .reserved name => s!"Tool name '{name}' collides with a reserved Lua symbol."
  | .reservedGlobal name => s!"'{name}' is a reserved Lua symbol."

/-- Why a name is no name for a tool, if it is none. -/
def nameFault? (name : String) : Option NameFault :=
  if !isPath name.toList then some (.notIdentifier name)
  else if reservedNames.contains (String.ofList ((pathOf name).headD [])) then
    some (.reserved name)
  else none

/-- The first rejection among some names. -/
def checkNames (names : List String) : Except NameFault Unit :=
  match names.findSome? nameFault? with
  | some fault => .error fault
  | none => .ok ()

end ScriptAgent.Sandbox
