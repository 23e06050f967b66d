import ScriptAgent.Datum
import ScriptAgent.Text.Blank
import ScriptAgent.Text.Classes
import ScriptAgent.Tool

/-!
# Types of parameters of host functions

The types that the parameters of a host function are declared with, and the tags that they are
shown with. A union shows the tags of its members, each once and in their order; a member that
stands for the absence of a value is passed over.

A type may be written as an expression. `DeclaredType.resolve?` reads such expressions, in which
only the names of basic types are known.
-/

namespace ScriptAgent.Tool

/-- A basic type. -/
inductive BaseType where
  | text | integer | float | flag | list | tuple | dictionary | bytes | set | object
  | nothing | anything | mapping | sequence | orderedDictionary | iterable | callable
  | frozenSet | complex | metatype | range | byteArray | memoryView
  /-- Any other class, and whether it counts as a mapping or a sequence. -/
  | other (isContainer : Bool)
deriving DecidableEq, Inhabited

namespace BaseType

/-- The tag of a basic type; a type without one is shown as a string. -/
def tag : BaseType → TypeTag
  | .integer | .float => .number
  | .flag => .boolean
  | .list | .tuple | .dictionary | .bytes | .mapping | .sequence | .orderedDictionary | .range
  | .byteArray | .memoryView => .table
  | .text | .set | .object | .nothing | .anything | .iterable | .callable | .frozenSet | .complex
  | .metatype => .string
  | .other isContainer => if isContainer then .table else .string

/-- The names of further things that an expression may name, none of which has a tag of its own. -/
def untaggedNames : List String :=
  ["any", "all", "callable", "enumerate", "filter", "iter", "len", "map", "max", "min", "print",
    "property", "reversed", "slice", "sorted", "sum", "zip", "Exception", "BaseException",
    "KeyError", "IndexError", "OSError", "RuntimeError", "TypeError", "ValueError"]

/-- The names that expressions know. -/
def known : List (String × BaseType) :=
  [("str", .text), ("int", .integer), ("float", .float), ("bool", .flag), ("list", .list),
    ("tuple", .tuple), ("dict", .dictionary), ("bytes", .bytes), ("set", .set),
    ("object", .object), ("None", .nothing), ("frozenset", .frozenSet), ("complex", .complex),
    ("type", .metatype), ("range", .range), ("bytearray", .byteArray),
    ("memoryview", .memoryView)] ++ untaggedNames.map fun name => (name, .anything)

/-- The basic types that take types as arguments. -/
def isGeneric : BaseType → Bool
  | .list | .tuple | .dictionary | .set | .frozenSet | .metatype => true
  | _ => false

end BaseType

/-- The type of a parameter. -/
inductive DeclaredType where
  | base (type : BaseType)
  /-- A basic type with arguments. -/
  | applied (type : BaseType) (args : List DeclaredType)
  | union (members : List DeclaredType)
  /-- One of some values. -/
  | literal
  /-- An expression. -/
  | written (expression : String)
deriving Inhabited

namespace DeclaredType

/-! ## Tags -/

mutual

/-- The members of a union, those of unions inside it included. -/
def members : DeclaredType → List DeclaredType
  | .union ms => membersOfAll ms
  | a => [a]

/-- The members of some types. -/
def membersOfAll : List DeclaredType → List DeclaredType
  | [] => []
  | a :: rest => members a ++ membersOfAll rest

end

/-- Whether a type stands for the absence of a value. -/
def isNothing : DeclaredType → Bool
  | .base .nothing => true
  | _ => false

/-- The tag of a type that is no union. -/
def tag : DeclaredType → TypeTag
  | .base t | .applied t _ => t.tag
  | .union _ | .literal | .written _ => .string

/-- The items of a list, each at its first place. -/
def firsts : List TypeTag → List TypeTag
  | [] => []
  | t :: rest => t :: (firsts rest).filter (· != t)

/-- The tags of a type. -/
def tags (a : DeclaredType) : List TypeTag :=
  match a.members.filter fun m => !m.isNothing with
  | [] => [.string]
  | ms => firsts (ms.map tag)

/-- The type as it is shown for a parameter. -/
def parameterType (a : DeclaredType) : ParameterType :=
  match a.tags with
  | [t] => .one t
  | ts => .many ts

/-! ## Expressions -/

/-- A part of an expression. -/
inductive Token where
  | name (s : String)
  | bar | comma | opening | closing | openParen | closeParen
deriving DecidableEq

/-- Cuts an expression into parts. -/
def tokens? : List Char → Option (List Token)
  | [] => some []
  | c :: rest =>
    if Text.isBlank c then tokens? rest
    else if Text.isWordChar c then
      let word := c :: rest.takeWhile Text.isWordChar
      (tokens? (rest.dropWhile Text.isWordChar)).map (.name (String.ofList word) :: ·)
    else
      match c with
      | '|' => (tokens? rest).map (.bar :: ·)
      | ',' => (tokens? rest).map (.comma :: ·)
      | '[' => (tokens? rest).map (.opening :: ·)
      | ']' => (tokens? rest).map (.closing :: ·)
      | '(' => (tokens? rest).map (.openParen :: ·)
      | ')' => (tokens? rest).map (.closeParen :: ·)
      | _ => none
termination_by cs => cs.length
decreasing_by
  all_goals simp only [List.length_cons]
  all_goals have := (List.dropWhile_sublist (l := rest) Text.isWordChar).length_le
  all_goals omega

/-- Whether two types can be united by a bar: not if both stand for the absence of a value. -/
def canUnite (a b : DeclaredType) : Bool := !(a.isNothing && b.isNothing)

mutual

/-- Reads types united by bars. -/
def readUnion : Nat → List Token → Option (DeclaredType × List Token)
  | 0, _ => none
  | fuel + 1, ts => do
    let (a, rest) ← readOne fuel ts
    readBars fuel a rest

/-- Reads the members of a union after the first one. -/
def readBars : Nat → DeclaredType → List Token → Option (DeclaredType × List Token)
  | 0, _, _ => none
  | fuel + 1, a, ts =>
    match ts with
    | .bar :: rest => do
      let (b, rest) ← readOne fuel rest
      if canUnite a b then readBars fuel (.union [a, b]) rest else none
    | ts => some (a, ts)

/-- Reads a name with its arguments, or a type in parentheses. -/
def readOne : Nat → List Token → Option (DeclaredType × List Token)
  | 0, _ => none
  | fuel + 1, ts =>
    match ts with
    | .openParen :: rest => do
      let (a, rest) ← readUnion fuel rest
      match rest with
      | .closeParen :: rest => some (a, rest)
      | _ => none
    | .name s :: .opening :: rest => do
      let t ← BaseType.known.lookup s
      if t.isGeneric then
        let (args, rest) ← readArguments fuel [] rest
        some (.applied t args, rest)
      else none
    | .name s :: rest => (BaseType.known.lookup s).map fun t => (.base t, rest)
    | _ => none

/-- Reads the arguments of a type. -/
def readArguments : Nat → List DeclaredType → List Token → Option (List DeclaredType × List Token)
  | 0, _, _ => none
  | fuel + 1, acc, ts => do
    let (a, rest) ← readUnion fuel ts
    match rest with
    | .comma :: .closing :: rest | .closing :: rest => some ((a :: acc).reverse, rest)
    | .comma :: rest => readArguments fuel (a :: acc) rest
    | _ => none

end

/-- Reads an expression. -/
def read? (expression : String) : Option DeclaredType := do
  let ts ← tokens? expression.toList
  match ← readUnion (4 * ts.length + 4) ts with
  | (a, []) => some a
  | _ => none

mutual

/-- Replaces the expressions in a type by the types that they denote. -/
def resolve? : DeclaredType → Option DeclaredType
  | .written e => read? e
  | .applied t args => (resolveAll? args).map (.applied t ·)
  | .union ms => (resolveAll? ms).map .union
  | a => some a

/-- Replaces the expressions in some types. -/
def resolveAll? : List DeclaredType → Option (List DeclaredType)
  | [] => some []
  | a :: rest => do
    let a ← resolve? a
    let rest ← resolveAll? rest
    return a :: rest

end

end DeclaredType

end ScriptAgent.Tool
