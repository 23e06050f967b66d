import ScriptAgent.Agent

/-!
# The store of sessions

The live sessions in the order in which they were created, each with its agent and with the lock
under which its runs are done. An agent and its lock come and go together.
-/

namespace ScriptAgent.Service

/-- The live sessions. -/
structure Store where
  agents : List (String × Agent)
  /-- The sessions that have a lock. -/
  locks : List String
  /-- The number of sessions that have been created. -/
  created : Nat
deriving Inhabited

namespace Store

/-- The store without sessions. -/
def empty : Store := ⟨[], [], 0⟩

/-- The live sessions, in the order of their creation. -/
def ids (s : Store) : List String := s.agents.map Prod.fst

/-- The agent of a live session; both the agent and the lock have to be there. -/
def find? (s : Store) (id : String) : Option Agent :=
  match s.agents.lookup id with
  | some a => if s.locks.contains id then some a else none
  | none => none

/-- Adds a session. -/
def add (s : Store) (id : String) (a : Agent) : Store :=
  ⟨s.agents ++ [(id, a)], s.locks ++ [id], s.created + 1⟩

/-- Removes a session. -/
def remove (s : Store) (id : String) : Store :=
  { s with agents := s.agents.filter (·.1 != id), locks := s.locks.filter (· != id) }

/-- Keeps what a run has made of the agent of a session. -/
def update (s : Store) (id : String) (a : Agent) : Store :=
  { s with agents := s.agents.map fun (i, b) => if i = id then (i, a) else (i, b) }

@[simp] theorem ids_update (s : Store) (id : String) (a : Agent) :
    (s.update id a).ids = s.ids := by
  simp only [ids, update, List.map_map]
  congr 1
  funext ⟨i, b⟩
  by_cases h : i = id <;> simp [h]

@[simp] theorem ids_add (s : Store) (id : String) (a : Agent) :
    (s.add id a).ids = s.ids ++ [id] := by simp [ids, add]

end Store

end ScriptAgent.Service
