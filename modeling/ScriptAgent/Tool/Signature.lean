import ScriptAgent.Tool

/-!
# Signatures of calls

How many arguments a function of a tool takes. `Signature.check` says what is wrong with a number
of arguments; too many are reported before too few.
-/

namespace ScriptAgent.Tool

/-- The parameters of a function that are passed by place. -/
structure Signature where
  /-- The function's own name. -/
  name : String
  required : List String
  /-- The number of parameters with a default. -/
  optional : Nat
  /-- Whether further arguments are collected. -/
  variadic : Bool
deriving Inhabited

namespace Signature

/-- Names in a list of words. -/
def enumerate : List String → String
  | [] => ""
  | [a] => s!"'{a}'"
  | [a, b] => s!"'{a}' and '{b}'"
  | names =>
    let last := names.getLastD ""
    String.intercalate ", " (names.dropLast.map fun n => s!"'{n}'") ++ s!", and '{last}'"

/-- What is wrong with too many arguments. -/
def excess (s : Signature) (given : Nat) : String :=
  let least := s.required.length
  let most := least + s.optional
  let count := if s.optional = 0 then s!"{most}" else s!"from {least} to {most}"
  let plural := if s.optional = 0 && most = 1 then "" else "s"
  let verb := if given = 1 then "was" else "were"
  s!"{s.name}() takes {count} positional argument{plural} but {given} {verb} given"

/-- What is wrong with too few arguments. -/
def lack (s : Signature) (given : Nat) : String :=
  let missing := s.required.drop given
  let plural := if missing.length = 1 then "" else "s"
  s!"{s.name}() missing {missing.length} required positional argument{plural}: " ++
    enumerate missing

/-- What is wrong with a number of arguments, if anything is. -/
def check (s : Signature) (given : Nat) : Option String :=
  if !s.variadic && given > s.required.length + s.optional then some (s.excess given)
  else if given < s.required.length then some (s.lack given)
  else none

end Signature

/-- A function that is called only if the number of its arguments fits. -/
def checked (s : Signature) (f : List Datum → World → Outcome × World) (args : List Datum)
    (w : World) : Outcome × World :=
  match s.check args.length with
  | some message => (.mismatch message, w)
  | none => f args w

/-- A function that leaves the surroundings alone. -/
def still (f : List Datum → Outcome) (args : List Datum) (w : World) : Outcome × World :=
  (f args, w)

end ScriptAgent.Tool
