import ScriptAgent.Script.Operation

/-!
# Arguments of library functions

A call of a library function is an `Invocation`: the function, its arguments and the site that it
is called from. The checks here turn an argument into what the function works on, or end the
call with the message that names the function as the caller did.
-/

namespace ScriptAgent.Script

/-- A call of a library function. -/
structure Invocation where
  function : Native
  args : List Value
  site : Site

namespace Invocation

variable {α : Type}

/-- The argument at a place, counted from one; nil if there is none. -/
def arg (inv : Invocation) (i : Nat) : Value := inv.args.getD (i - 1) .nil

/-- Whether there is an argument at a place. -/
def has (inv : Invocation) (i : Nat) : Bool := i ≤ inv.args.length

/-- Whether an argument is missing or nil. -/
def lacks (inv : Invocation) (i : Nat) : Bool := inv.arg i == .nil

/-- An error at the position of the caller. -/
def fail (inv : Invocation) (message : Bytes) : Program α := Program.fail inv.site message

/-- An error with a fixed text at the position of the caller. -/
def failText (inv : Invocation) (message : String) : Program α :=
  Program.failText inv.site message

/-- The error of an argument. The receiver of a method is not counted. -/
def wrong (inv : Invocation) (i : Nat) (message : Bytes) : Program α :=
  let reason := Bytes.ofAscii " (" ++ message ++ Bytes.ofAscii ")"
  let bad (i : Nat) (name : Bytes) :=
    Bytes.ofAscii s!"bad argument #{i} to '" ++ name ++ Bytes.ofAscii "'" ++ reason
  match inv.site.name with
  | some (.method, name) =>
    if i = 1 then
      inv.fail (Bytes.ofAscii "calling '" ++ name ++ Bytes.ofAscii "' on bad self" ++ reason)
    else inv.fail (bad (i - 1) name)
  | some (_, name) => inv.fail (bad i name)
  | none => inv.fail (bad i (Bytes.ofAscii (inv.function.path?.getD "?")))

/-- The error of an argument with a fixed text. -/
def wrongText (inv : Invocation) (i : Nat) (message : String) : Program α :=
  inv.wrong i (Bytes.ofAscii message)

/-- The error of an argument that has not the expected type. -/
def wrongType (inv : Invocation) (i : Nat) (expected : String) : Program α := do
  let got ← if inv.has i then Operation.typeName (inv.arg i) else pure (Bytes.ofAscii "no value")
  inv.wrong i (Bytes.ofAscii (expected ++ " expected, got ") ++ got)

/-- Some argument, nil included. -/
def value (inv : Invocation) (i : Nat) : Program Value :=
  if inv.has i then .done (inv.arg i) else inv.wrongText i "value expected"

/-- A number, or a string that is a numeral. -/
def number (inv : Invocation) (i : Nat) : Program Num :=
  match (inv.arg i).toNum? with
  | some n => .done n
  | none => inv.wrongType i "number"

/-- An integer, or what converts to one. -/
def integer (inv : Invocation) (i : Nat) : Program Int64 :=
  match (inv.arg i).toNum? with
  | some n =>
    match n.toInt? with
    | some k => .done k
    | none => inv.wrongText i "number has no integer representation"
  | none => inv.wrongType i "number"

/-- An integer that may be left out. -/
def integerOr (inv : Invocation) (i : Nat) (default : Int64) : Program Int64 :=
  if inv.lacks i then .done default else inv.integer i

/-- A string, or the text of a number. -/
def bytes (inv : Invocation) (i : Nat) : Program Bytes :=
  match (inv.arg i).toBytes? with
  | some s => .done s
  | none => inv.wrongType i "string"

/-- A string that may be left out. -/
def bytesOr (inv : Invocation) (i : Nat) (default : Bytes) : Program Bytes :=
  if inv.lacks i then .done default else inv.bytes i

/-- A table. -/
def table (inv : Invocation) (i : Nat) : Program Address :=
  match inv.arg i with
  | .table a => .done a
  | _ => inv.wrongType i "table"

/-- A function. -/
def callable (inv : Invocation) (i : Nat) : Program Value :=
  if Operation.isFunction (inv.arg i) then .done (inv.arg i) else inv.wrongType i "function"

/-- The call of a function by the library. -/
def call (f : Value) (args : List Value) : Program (List Value) :=
  .query (.call f args .outside)

end Invocation

/-- Places in a string, counted from one or back from its end. -/
def placeFromStart (i : Int64) (length : Nat) : Nat :=
  if i > 0 then i.toInt.toNat
  else if i == 0 then 1
  else if i.toInt < -(length : Int) then 1
  else ((length : Int) + i.toInt + 1).toNat

/-- The last place of a part of a string. -/
def placeToEnd (i : Int64) (length : Nat) : Nat :=
  if i.toInt > length then length
  else if i ≥ 0 then i.toInt.toNat
  else if i.toInt < -(length : Int) then 0
  else ((length : Int) + i.toInt + 1).toNat

end ScriptAgent.Script
