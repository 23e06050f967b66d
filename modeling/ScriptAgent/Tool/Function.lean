import ScriptAgent.Tool.DeclaredType
import ScriptAgent.Tool.Documentation

/-!
# Tools from functions

The description of a tool is derived from the function behind it: the parameters that are passed
by place, with the tags of their types and what the documentation says about them.

If an expression in any of the types of a function cannot be read, the types of all its
parameters count as unknown.
-/

namespace ScriptAgent.Tool

/-- How arguments reach a parameter. -/
inductive Passing where
  | byPlaceOnly | byPlaceOrName | collectsPlaces | byNameOnly | collectsNames
deriving DecidableEq, Inhabited

/-- A parameter of a function. -/
structure FunctionParameter where
  name : String
  passing : Passing
  type : Option DeclaredType
  hasDefault : Bool
deriving Inhabited

/-- What is known about a function. -/
structure Function where
  name : String
  parameters : List FunctionParameter
  documentation : Option String
deriving Inhabited

namespace FunctionParameter

/-- Whether a call of the tool can reach a parameter. -/
def isPassedByPlace (p : FunctionParameter) : Bool :=
  match p.passing with
  | .byPlaceOnly | .byPlaceOrName | .collectsPlaces => true
  | .byNameOnly | .collectsNames => false

/-- Whether a call has to give an argument for a parameter. -/
def isRequired (p : FunctionParameter) : Bool :=
  !p.hasDefault && p.passing != .collectsPlaces

/-- A parameter as it is shown; without a known type it is a string. -/
def toParameter (p : FunctionParameter) (type : Option DeclaredType) (d : Documentation) :
    Parameter :=
  ⟨p.name, (type.getD (.base .text)).parameterType, d.describe p.name, p.isRequired⟩

end FunctionParameter

namespace Function

/-- The types of the parameters, with expressions replaced; `none` if one cannot be read. -/
def resolvedTypes? (f : Function) : Option (List (Option DeclaredType)) :=
  f.parameters.mapM fun p =>
    match p.type with
    | none => some none
    | some a => a.resolve?.map some

/-- The types of the parameters as far as they are known. -/
def types (f : Function) : List (Option DeclaredType) :=
  f.resolvedTypes?.getD (f.parameters.map fun _ => none)

/-- What the documentation of a function says. -/
def readDocumentation (f : Function) : Documentation :=
  Documentation.read (Text.dedent (f.documentation.getD "").toList)

/-- The parameters of the tool that is made of a function. -/
def toolParameters (f : Function) : List Parameter :=
  let d := f.readDocumentation
  (f.parameters.zip f.types).filterMap fun (p, type) =>
    if p.isPassedByPlace then some (p.toParameter type d) else none

/-- The name of the tool: the given one unless it is missing or empty. -/
def toolName (f : Function) (name : Option String) : String :=
  match name with
  | some "" | none => f.name
  | some name => name

/-- The tool that is made of a function. -/
def toTool (f : Function) (name description : Option String) (id : Nat)
    (run : List Datum → World → Outcome × World) : Tool :=
  ⟨id, f.toolName name, description.getD f.readDocumentation.summary, f.toolParameters, run⟩

end Function

end ScriptAgent.Tool
