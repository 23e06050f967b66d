import ScriptAgent.Script.Library.Argument

/-!
# Control functions

The functions by which a script talks to its host: `print`, `thought` and `observation` append a
line to the print buffer and give it back, `final_answer` stores the answer. Buffer and answer
are globals, so a script can read and change them; what it has changed is then treated like
any other operand, with the metamethods of the value and of the table of globals.

The program of a call that prints only makes the line. The machine appends it when the call
completes, in one step, so no other code runs between the reading and the writing of the buffer.
-/

namespace ScriptAgent.Script

/-- The address of the table of globals. -/
def globalsAddress : Address := 0

/-- The global that holds the printed text. -/
def bufferName : Bytes := Bytes.ofAscii "_print_buffer"

/-- The global that holds the answer. -/
def answerName : Bytes := Bytes.ofAscii "_final_answer"

/-- The display name of scripts. -/
def scriptChunk : Bytes := Bytes.ofAscii "[string \"<python>\"]"

namespace Library

/-- A position in the listing of the control functions, as their errors show it. -/
def controlPlace (line : Nat) : Place := ⟨some (scriptChunk, line)⟩

/-- A call by the control functions at a line of their listing. -/
def controlSite (line : Nat) : Site := ⟨some (scriptChunk, line), none⟩

/-- The bytes of a string or number that a text function has given. -/
def textBytes (v : Value) : Bytes := v.toBytes?.getD []

/-- The texts of some values. -/
def texts (line : Nat) : List Value → Program (List Bytes)
  | [] => .done []
  | v :: rest => do
    let t ← Operation.toText (controlSite line) .library v
    return textBytes t :: (← texts line rest)

/-- Appends a line to a buffer that a script has put something else in place of. -/
def appendToOther (line : Bytes) : Program Unit := do
  let place := controlPlace 25
  let globals := Value.table globalsAddress
  let buffer ← Operation.index place none globals (.str bufferName)
  let buffer := if buffer.truthy then buffer else .str []
  let text ← Operation.concat place .none buffer (.str (line ++ [10]))
  Operation.setIndex place none globals (.str bufferName) text

/-- Texts joined by single spaces. -/
def joinSpaces (ts : List Bytes) : Bytes := List.intercalate [32] ts

/-- The line of some values: the texts of all of them, nil included. -/
def lineOf (args : List Value) : Program (List Value) := do
  return [.str (joinSpaces (← texts 22 args))]

/-- The line of the text of a value after a mark. The marked text is a value like any other one, of
which the text is taken. -/
def markedLine (mark : String) (line : Nat) (v : Value) : Program (List Value) := do
  let t ← Operation.toText (controlSite line) .library v
  lineOf [.str (Bytes.ofAscii mark ++ textBytes t)]

/-- `print`: the line of its arguments. -/
def print (inv : Invocation) : Program (List Value) := lineOf inv.args

/-- `thought`. -/
def thought (inv : Invocation) : Program (List Value) := markedLine "[THOUGHT] " 32 (inv.arg 1)

/-- `observation`. -/
def observation (inv : Invocation) : Program (List Value) :=
  markedLine "[OBSERVATION] " 36 (inv.arg 1)

/-- `final_answer`: stores its first argument and gives it back. -/
def finalAnswer (inv : Invocation) : Program (List Value) := do
  Operation.setIndex (controlPlace 40) none (.table globalsAddress) (.str answerName) (inv.arg 1)
  return [inv.arg 1]

end Library

end ScriptAgent.Script
