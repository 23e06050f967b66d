import ScriptAgent.Script.Value

/-!
# Programs over the heap

The functions of the library, and the operations that consult metatables, do not touch the heap
themselves. Each is a `Program`: a tree whose nodes are questions (`Query`) to the machine, with
a branch for every list of values that the machine may answer. A function that calls back
into the script is then an ordinary term: the rest of its work is the continuation of the
question.

`Program` is the free monad over `Query` with errors; `Program.bind_assoc` and its companions are
its laws.
-/

namespace ScriptAgent.Script

/-- Where a function is called from: the position in the script (`none` if the caller is no
script code), and how the script names the function. -/
structure Site where
  position : Option (Bytes × Nat)
  name : Described
deriving Inhabited

/-- A call that no script code makes. -/
def Site.outside : Site := ⟨none, none⟩

/-- A position as the beginning of a message. -/
def positionText : Option (Bytes × Nat) → Bytes
  | none => []
  | some (chunk, line) => chunk ++ Bytes.ofAscii s!":{line}: "

/-- A search through a string for the successive matches of a pattern. -/
structure Search where
  source : Bytes
  pattern : Bytes
  /-- Where the next match is looked for. -/
  position : Nat
  /-- Where the last match ended; the next one may not end there too. -/
  lastEnd : Option Nat
deriving Inhabited

/-- A question of a program to the machine. -/
inductive Query where
  /-- The value at a key, without metamethods. -/
  | rawGet (t : Address) (k : Value)
  /-- A write, without metamethods. -/
  | rawSet (t : Address) (k : Key) (v : Value)
  /-- The entry after a key, or the first one: a key and a value, or nothing. -/
  | next (t : Address) (k : Option Key)
  /-- The number of values of a sequence. -/
  | border (t : Address)
  /-- A table without entries. -/
  | newTable
  /-- A field of the metatable of a value. -/
  | metafield (v : Value) (name : Bytes)
  | metatable (v : Value)
  | setMetatable (t : Address) (m : Option Address)
  | newMatcher (s : Search)
  | matcher (a : Address)
  | setMatcher (a : Address) (s : Search)
  /-- The next word of the random sequence. -/
  | random
  /-- Begins the random sequence of a seed. -/
  | seed (high low : UInt64)
  | call (f : Value) (args : List Value) (site : Site)
  /-- A call whose errors are answers: true with the results, or false with the error. -/
  | protect (f : Value) (args : List Value) (handler : Option Value)
  | newThread (f : Value)
  /-- Runs a coroutine up to its next stop: true with values, or false with an error. -/
  | resume (t : Address) (args : List Value)
  | yield (vs : List Value)
  | closeThread (t : Address)
  | threadStatus (t : Address)
  /-- The running coroutine, if it is not the main one. -/
  | running
  /-- Reads a script into a function: the function, or nil with a message. -/
  | load (chunk text : Bytes) (env : Option Value)
  /-- The position of the code at a level: `1` is the caller of the asking function. -/
  | position (level : Nat)

/-- A computation that asks the machine. -/
inductive Program (α : Type) where
  | done (a : α)
  | raise (error : Value)
  | ask (q : Query) (k : List Value → Program α)

instance {α : Type} : Inhabited (Program α) := ⟨.raise .nil⟩

namespace Program

variable {α β γ : Type}

/-- Runs a program and goes on with its result. -/
def bind : Program α → (α → Program β) → Program β
  | .done a, f => f a
  | .raise e, _ => .raise e
  | .ask q k, f => .ask q fun vs => (k vs).bind f

instance : Monad Program where
  pure := .done
  bind := bind

theorem bind_done (p : Program α) : p.bind .done = p := by
  induction p with
  | done | raise => rfl
  | ask q k ih => simp only [bind, ih]

theorem bind_assoc (p : Program α) (f : α → Program β) (g : β → Program γ) :
    (p.bind f).bind g = p.bind fun a => (f a).bind g := by
  induction p with
  | done | raise => rfl
  | ask q k ih => simp only [bind, ih]

instance : LawfulMonad Program :=
  LawfulMonad.mk' Program (fun p => bind_done p) (fun _ _ => rfl) bind_assoc

/-- Asks and takes all answers. -/
def query (q : Query) : Program (List Value) := .ask q .done

/-- Asks and takes the first answer. -/
def queryOne (q : Query) : Program Value := .ask q fun vs => .done (vs.headD .nil)

/-- An error with a message that begins with the position of the caller. -/
def fail (site : Site) (message : Bytes) : Program α :=
  .raise (.str (positionText site.position ++ message))

/-- An error with a fixed message. -/
def failText (site : Site) (message : String) : Program α := fail site (Utf8.encode message)

end Program

end ScriptAgent.Script
