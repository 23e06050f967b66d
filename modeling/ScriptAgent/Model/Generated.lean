import ScriptAgent.Datum

/-!
# What a model gives

The ways in which the call of a model ends: with the code that is to be run next, with a refusal,
which is the provider's own report of a failure, or with any other failure.
-/

namespace ScriptAgent.Model

/-- A failure that a provider does not report by itself. -/
inductive Crash where
  /-- The reply is no text. -/
  | noText (type : String)
  /-- A block of a reply says that it is a text and holds none. -/
  | emptyBlock (type : String)
  /-- A block of a reply holds something else than a text. -/
  | foreignBlock (index : Nat) (type : String)
  /-- The address of the service is none. -/
  | address (message : String)
  /-- The options cannot be sent. -/
  | options (message : String)
  /-- The connection fails. -/
  | connection (message : String)
deriving DecidableEq, Inhabited

/-- The message of a failure. -/
def Crash.message : Crash → String
  | .noText type => s!"expected string or bytes-like object, got '{type}'"
  | .emptyBlock type => s!"'{type}' object has no attribute 'text'"
  | .foreignBlock index type => s!"sequence item {index}: expected str instance, {type} found"
  | .address message | .options message | .connection message => message

/-- How the call of a model ends. -/
inductive Generated where
  | code (text : String)
  | refused (message : String)
  | crashed (crash : Crash)
deriving DecidableEq, Inhabited

end ScriptAgent.Model
