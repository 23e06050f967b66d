import ScriptAgent.Text.Pattern

/-!
# Replies of models

A model replies with prose around a fenced block of code. `Reply.script` takes the code out: the
first block that is marked as a script, or else the first fenced block, or else the whole reply.
-/

namespace ScriptAgent.Reply

open Text

/-- The fence of a block of code. -/
def fence : List Char := ['`', '`', '`']

/-- The fence that begins a script. -/
def scriptFence : List Char := fence ++ ['l', 'u', 'a']

/-- The pattern of a block of code, whose code is captured without the white space around it. -/
def block (opening : List Char) : List Piece :=
  [.text opening, .blanks, .captured, .blanks, .text fence]

/-- The characters of the code in a reply. -/
def scriptChars (cs : List Char) : List Char :=
  match (search? (block scriptFence) cs).or (search? (block fence) cs) with
  | some code => stripChars code
  | none => cs

/-- The code in a reply. -/
def script (reply : String) : String := String.ofList (scriptChars reply.toList)

end ScriptAgent.Reply
