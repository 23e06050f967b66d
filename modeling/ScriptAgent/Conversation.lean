import ScriptAgent.Datum

/-!
# Conversations

The log of an agent's conversation: messages with the role of their author, in the order in which
they were added. A log only grows at its end.
-/

namespace ScriptAgent

/-- The author of a message. -/
inductive Role where
  | user | assistant | system
deriving DecidableEq, Inhabited

namespace Role

/-- The word for a role. -/
def text : Role → String
  | .user => "user"
  | .assistant => "assistant"
  | .system => "system"

/-- The heading of the messages of a role in a prompt. -/
def heading : Role → String
  | .user => "USER"
  | .assistant => "ASSISTANT"
  | .system => "SYSTEM"

/-- All roles. -/
def all : List Role := [.user, .assistant, .system]

/-- The role that a value names. -/
def ofDatum? (d : Datum) : Option Role :=
  match d with
  | .str s => all.find? (·.text == s)
  | _ => none

/-- The message about a value that names no role. -/
def unknown (d : Datum) : String := d.quoted ++ " is not a valid Role"

end Role

/-- A message. -/
structure Message where
  role : Role
  content : String
deriving DecidableEq, Inhabited

/-- A message as it is shown in a prompt. -/
def Message.render (m : Message) : String := m.role.heading ++ ": " ++ m.content

/-- A log of messages. -/
structure Conversation where
  messages : List Message
deriving DecidableEq, Inhabited

namespace Conversation

/-- The log without messages. -/
def empty : Conversation := ⟨[]⟩

/-- Adds a message at the end. -/
def add (c : Conversation) (role : Role) (content : String) : Conversation :=
  ⟨c.messages ++ [⟨role, content⟩]⟩

/-- The number of messages. -/
def length (c : Conversation) : Nat := c.messages.length

/-- The last messages, at most `n` of them. -/
def last (c : Conversation) (n : Int) : List Message :=
  c.messages.drop (c.messages.length - n.toNat)

/-- The messages as they are shown in a prompt, each on lines of its own. -/
def render (c : Conversation) : String :=
  String.intercalate "\n" (c.messages.map Message.render)

@[simp] theorem messages_add (c : Conversation) (role : Role) (content : String) :
    (c.add role content).messages = c.messages ++ [⟨role, content⟩] := rfl

end Conversation

end ScriptAgent
