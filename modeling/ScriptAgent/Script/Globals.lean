import ScriptAgent.Script.Library
import ScriptAgent.Script.State

/-!
# The initial heap

The heap of a fresh sandbox: the table of globals at `globalsAddress`, the tables of the library
below it, and the metatable of strings, which makes the functions on strings available as
methods and gives numerals in strings their arithmetic.

Scripts have no access to files, processes or the environment: there is no such function.
-/

namespace ScriptAgent.Script

/-- The tables of the library, in the order of their addresses from one on. -/
def libraryNames : List String :=
  ["string", "table", "math", "utf8", "coroutine", "os", "debug"]

/-- Splits a path at its dot; nothing follows the name of a global. -/
def splitPath (path : String) : List Char × List Char := path.toList.span (· ≠ '.')

/-- The library functions of a table: those whose path begins with its name, with the rest of
their paths. -/
def functionsUnder (name : String) : List (String × Value) :=
  Native.all.filterMap fun f =>
    match f.path?.map splitPath with
    | some (scope, '.' :: field) =>
      if String.ofList scope = name then some (String.ofList field, .native f) else none
    | _ => none

/-- The library functions that are globals themselves. -/
def globalFunctions : List (String × Value) :=
  Native.all.filterMap fun f =>
    match f.path?.map splitPath with
    | some (name, []) => some (String.ofList name, .native f)
    | _ => none

/-- The other values of a table of the library. -/
def constantsUnder (name : String) : List (String × Value) :=
  match name with
  | "math" =>
    [("pi", Library.floatValue Library.pi), ("huge", Library.floatValue (Decimal.infinity false)),
      ("maxinteger", .int 0x7FFFFFFFFFFFFFFF), ("mininteger", .int (-0x8000000000000000))]
  | "utf8" => [("charpattern", .str Library.charPattern)]
  | _ => []

/-- A table with these fields. -/
def Table.ofFields (fields : List (String × Value)) : Table :=
  fields.foldl (fun t (name, v) => t.set (.str (Bytes.ofAscii name)) v) Table.empty

/-- The address of a table of the library. -/
def libraryAddress (name : String) : Address := libraryNames.idxOf name + 1

/-- The table of globals. -/
def globalsTable : Table :=
  Table.ofFields (globalFunctions ++
    libraryNames.map (fun name => (name, Value.table (libraryAddress name))) ++
    [("_G", .table globalsAddress), ("_VERSION", .text "Lua 5.5")])

/-- The metatable of strings. -/
def stringMetatable : Table :=
  Table.ofFields [("__index", .table (libraryAddress "string")),
    ("__add", .native .textAdd), ("__sub", .native .textSub), ("__mul", .native .textMul),
    ("__mod", .native .textMod), ("__pow", .native .textPow), ("__div", .native .textDiv),
    ("__idiv", .native .textIdiv), ("__unm", .native .textUnm)]

/-- The heap of a fresh sandbox. -/
def Heap.initial : Heap :=
  let libraries := libraryNames.map fun name =>
    Table.ofFields (functionsUnder name ++ constantsUnder name)
  { Heap.empty with
    tables := (globalsTable :: libraries ++ [stringMetatable]).toArray
    stringMeta := some (libraryNames.length + 1) }

end ScriptAgent.Script
