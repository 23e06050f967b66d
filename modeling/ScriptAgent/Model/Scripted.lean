import ScriptAgent.Model.Generated
import ScriptAgent.Reply

/-!
# Scripted models

A model that gives fixed replies one after the other and keeps every prompt that it was given. When
the replies have run out it refuses.
-/

namespace ScriptAgent.Model

/-- A reply of a scripted model. -/
inductive ScriptedReply where
  | reply (d : Datum)
  | refusal (message : String)
  | failure (message : String)
deriving Inhabited

/-- A scripted model. -/
structure Scripted where
  replies : List ScriptedReply
  prompts : List String
deriving Inhabited

/-- The code in a reply that is a text. -/
def codeOf : Datum → Generated
  | .str text => .code (Reply.script text)
  | d => .crashed (.noText d.typeName)

namespace Scripted

/-- A scripted model that was not called yet. -/
def ofReplies (replies : List ScriptedReply) : Scripted := ⟨replies, []⟩

/-- Gives the next reply. -/
def generate (s : Scripted) (prompt : String) : Generated × Scripted :=
  let prompts := s.prompts ++ [prompt]
  match s.replies with
  | [] => (.refused "Mock error: no more responses", { s with prompts := prompts })
  | .reply d :: rest => (codeOf d, ⟨rest, prompts⟩)
  | .refusal message :: rest => (.refused message, ⟨rest, prompts⟩)
  | .failure message :: rest => (.crashed (.connection message), ⟨rest, prompts⟩)

end Scripted

end ScriptAgent.Model
