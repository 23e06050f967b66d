import ScriptAgent.Tool

/-!
# The registry of tools

Tools by name, in the order in which they were registered. A tool is asked for by its name, and all
tools of a scope by the name of the scope with a star.
-/

namespace ScriptAgent.Tool

/-- Tools by name, in order. -/
structure Registry where
  tools : List (String × Tool)
deriving Inhabited

/-- Why a request for tools, or a registration, is rejected. -/
inductive RegistryFault where
  | unknownTool (name : String)
  | emptyScope (scope : String)
  | alreadyRegistered (name : String)
deriving DecidableEq, Inhabited

/-- The message of a rejection. -/
def RegistryFault.message : RegistryFault → String
  | .unknownTool name => s!"Tool '{name}' is not registered."
  | .emptyScope scope => s!"No tools registered under scope '{scope}'."
  | .alreadyRegistered name => s!"Tool '{name}' is already registered."

namespace Registry

/-- A registry of tools under their own names. -/
def ofTools (tools : List Tool) : Registry := ⟨tools.map fun t => (t.name, t)⟩

/-- The registered names, in order. -/
def names (r : Registry) : List String := r.tools.map Prod.fst

/-- Adds a tool under a name that is not taken. -/
def register (r : Registry) (name : String) (t : Tool) : Except RegistryFault Registry :=
  if r.names.contains name then .error (.alreadyRegistered name)
  else .ok ⟨r.tools ++ [(name, t)]⟩

/-- The scope that a request asks for: what stands before the dot and the star at its end. -/
def scopeOf? (wanted : String) : Option (List Char) :=
  match wanted.toList.reverse with
  | '*' :: '.' :: rest => some rest.reverse
  | _ => none

/-- The tools that one request selects. -/
def select (r : Registry) (wanted : String) : Except RegistryFault (List (String × Tool)) :=
  match scopeOf? wanted with
  | some scope =>
    match r.tools.filter fun (name, _) => (scope ++ ['.']).isPrefixOf name.toList with
    | [] => .error (.emptyScope (String.ofList scope))
    | found => .ok found
  | none =>
    match r.tools.lookup wanted with
    | some t => .ok [(wanted, t)]
    | none => .error (.unknownTool wanted)

/-- Adds the tools that are not yet selected. -/
def merge (selected found : List (String × Tool)) : List (String × Tool) :=
  selected ++ found.filter fun (name, _) => !(selected.map Prod.fst).contains name

/-- The tools that some requests select, each once. -/
def selectAll (r : Registry) (selected : List (String × Tool)) :
    List String → Except RegistryFault (List (String × Tool))
  | [] => .ok selected
  | wanted :: rest => do
    let found ← r.select wanted
    r.selectAll (merge selected found) rest

/-- The tools that are asked for; all of them if nothing is asked for. -/
def getTools (r : Registry) (wanted : List String) :
    Except RegistryFault (List (String × Tool)) :=
  if wanted.isEmpty then .ok r.tools else r.selectAll [] wanted

end Registry

end ScriptAgent.Tool
