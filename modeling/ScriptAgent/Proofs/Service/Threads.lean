import Mathlib.Logic.Function.Basic
import ScriptAgent.Proofs.Agent.Steps
import ScriptAgent.Proofs.Service.Requests

/-!
# Requests that are handled at the same time

Each request about sessions is handled by a thread of its own, and the steps of the threads may
come in any order (`Config.run`). Threads share the registry of sessions with its lock, the agents
and the locks for their runs. The registry is two tables, of agents and of locks, and a thread that
holds its lock changes or reads one after the other, so that others can come in between; the check
whether a session is live is made without the lock. A run adds its messages one by one.

`Move` says what a step can do.
-/

namespace ScriptAgent.Service

/-! ## Threads -/

/-- What a request about sessions demands. -/
inductive Demand where
  | create
  | run (t : Task)
  | read (id : String)
  | delete (id : String)
deriving Inhabited

/-- What a session is looked up for. -/
inductive Use where
  | run (task : String)
  | read
  | delete
deriving DecidableEq

/-- A run of a task in a session, with the agent and the lock that were found for it. -/
structure Job where
  id : String
  task : String
  agent : Nat
  lock : Nat
deriving DecidableEq

/-- What has become of a request. -/
inductive Outcome where
  | created (id : String)
  | failed (crash : Crash)
  | unknown (id : String)
  | ran (job : Job) (written : List Message) (ending : Agent.Ending)
  | read (id : String) (agent : Nat) (conversation : Conversation)
  | deleted (id : String)

/-- The answer about an outcome. -/
def Outcome.answer : Outcome → Except Crash Answer
  | created id => .ok (done [("session_id", .str id)])
  | failed crash => .error crash
  | unknown id => .ok (Service.unknown id)
  | ran job _ ending => (answerRun job.id ending .empty).1
  | read id _ conversation => .ok (history id conversation)
  | deleted _ => .ok (done [("status", .str "deleted")])

/-- How far a thread has come. -/
inductive Phase where
  /-- It is to be checked whether the session of a task is live. -/
  | checking (t : Task)
  /-- An agent is to be made, for a task if there is one. -/
  | making (budget : Option Int) (task : Option String)
  /-- The agent is to be entered in the registry. -/
  | entering (agent : Nat) (task : Option String)
  /-- The agent has been entered, and its lock is to be. -/
  | entered (agent : Nat) (task : Option String)
  /-- The agent of a session is to be looked up. -/
  | seeking (id : String) (use : Use)
  /-- The agent has been looked up, and the lock is to be. -/
  | sought (id : String) (use : Use) (agent : Option Nat)
  /-- The lock of a run is to be taken. -/
  | waiting (job : Job)
  /-- A run has come so far and has added these messages. -/
  | running (job : Job) (progress : Agent.Progress) (written : List Message)
  /-- The agent of a session is to be removed from the registry. -/
  | removing (id : String)
  /-- The agent has been removed, and the lock is to be. -/
  | removed (id : String)
  /-- The messages of an agent are to be read. -/
  | reading (id : String) (agent : Nat)
  | answered (outcome : Outcome)

/-- How the handling of a request begins. -/
def Demand.phase : Demand → Phase
  | create => .making none none
  | run t => .checking t
  | read id => .seeking id .read
  | delete id => .seeking id .delete

/-- What follows when the agent and the lock of a session have been found. -/
def Use.next (id : String) (agent lock : Nat) : Use → Phase
  | run task => .waiting ⟨id, task, agent, lock⟩
  | read => .reading id agent
  | delete => .removing id

/-- What follows when the session of a new agent has been entered. -/
def created (id : String) (task : Option String) : Phase :=
  match task with
  | none => .answered (.created id)
  | some task => .seeking id (.run task)

/-! ## Steps -/

/-- What threads share. -/
structure Shared where
  /-- The agents that have been made, in order. -/
  agents : List Agent
  /-- The locks for runs that have been made, each with the thread that holds it. -/
  locks : List (Option Nat)
  /-- The agents of the live sessions. -/
  sessions : List (String × Nat)
  /-- The locks of the live sessions. -/
  runLocks : List (String × Nat)
  /-- The thread that holds the lock of the registry. -/
  registry : Option Nat
  world : World

namespace Shared

/-- The sessions with an agent. -/
def ids (s : Shared) : List String := s.sessions.map Prod.fst

/-- The sessions with a lock. -/
def lockedIds (s : Shared) : List String := s.runLocks.map Prod.fst

/-- What is shared at first. -/
def empty (w : World) : Shared := ⟨[], [], [], [], none, w⟩

/-- The next step of a run. -/
def advance (s : Shared) (job : Job) (progress : Agent.Progress) (written : List Message) :
    Phase × Shared :=
  match s.agents[job.agent]? with
  | none => (.running job progress written, s)
  | some a =>
    let (progress, a', w) := a.advance progress s.world
    (.running job progress
        (written ++ a'.conversation.messages.drop a.conversation.messages.length),
      { s with agents := s.agents.set job.agent a', world := w })

end Shared

/-- The next step of the thread `i`. A thread that has to wait for a lock stays where it is. -/
def act (supply : Supply) (settings : Settings) (i : Nat) (ph : Phase) (s : Shared) :
    Phase × Shared :=
  match ph with
  | .checking t =>
    if !t.sessionId.isEmpty && s.ids.contains t.sessionId then
      (.seeking t.sessionId (.run t.text), s)
    else (.making t.budget (some t.text), s)
  | .making budget task =>
    match newAgent supply settings s.agents.length budget with
    | .error crash => (.answered (.failed crash), s)
    | .ok a => (.entering s.agents.length task, { s with agents := s.agents ++ [a] })
  | .entering k task =>
    if s.registry.isSome then (ph, s)
    else
      (.entered k task, { s with
        registry := some i, sessions := s.sessions ++ [(supply.id k, k)] })
  | .entered k task =>
    (created (supply.id k) task, { s with
      registry := none
      locks := s.locks ++ [none]
      runLocks := s.runLocks ++ [(supply.id k, s.locks.length)]
      world := s.world.log logger .info s!"Created session {supply.id k}" })
  | .seeking id use =>
    if s.registry.isSome then (ph, s)
    else (.sought id use (s.sessions.lookup id), { s with registry := some i })
  | .sought id use agent =>
    match agent, s.runLocks.lookup id with
    | some k, some l => (use.next id k l, { s with registry := none })
    | _, _ => (.answered (.unknown id), { s with registry := none })
  | .waiting job =>
    match s.locks[job.lock]? with
    | some none =>
      (.running job (.ready job.task) [], { s with locks := s.locks.set job.lock (some i) })
    | _ => (ph, s)
  | .running job (.ended ending) written =>
    (.answered (.ran job written ending), { s with
      locks := s.locks.set job.lock none
      world := (answerRun job.id ending s.world).2 })
  | .running job progress written => s.advance job progress written
  | .removing id =>
    if s.registry.isSome then (ph, s)
    else
      (.removed id, { s with
        registry := some i, sessions := s.sessions.filter (·.1 != id) })
  | .removed id =>
    (.answered (.deleted id), { s with
      registry := none, runLocks := s.runLocks.filter (·.1 != id) })
  | .reading id k =>
    match s.agents[k]? with
    | none => (ph, s)
    | some a => (.answered (.read id k a.conversation), s)
  | .answered _ => (ph, s)

/-- The threads, each with how far it has come, and what they share. -/
structure Config where
  shared : Shared
  threads : Nat → Phase

namespace Config

/-- The beginning of the handling of requests. -/
def start (demands : Nat → Demand) (w : World) : Config :=
  ⟨.empty w, fun i => (demands i).phase⟩

/-- A step of the thread `i`. -/
def step (supply : Supply) (settings : Settings) (c : Config) (i : Nat) : Config :=
  let (ph, s) := act supply settings i (c.threads i) c.shared
  ⟨s, Function.update c.threads i ph⟩

/-- Steps of threads, one after the other. -/
def run (supply : Supply) (settings : Settings) (c : Config) (schedule : List Nat) : Config :=
  schedule.foldl (step supply settings) c

end Config

/-! ## What a step can do -/

/-- What a step of the thread `i` can do to its phase and to what is shared. -/
inductive Move (supply : Supply) (settings : Settings) (i : Nat) :
    Phase → Shared → Phase → Shared → Prop where
  | stay (ph : Phase) (s : Shared) : Move supply settings i ph s ph s
  | found {t : Task} {s : Shared} (live : t.sessionId ∈ s.ids) :
    Move supply settings i (.checking t) s (.seeking t.sessionId (.run t.text)) s
  | absent {t : Task} {s : Shared} (missing : t.sessionId = "" ∨ t.sessionId ∉ s.ids) :
    Move supply settings i (.checking t) s (.making t.budget (some t.text)) s
  | failed {budget : Option Int} {task : Option String} {s : Shared} (crash : Crash) :
    Move supply settings i (.making budget task) s (.answered (.failed crash)) s
  | made {budget : Option Int} {task : Option String} {s : Shared} {a : Agent}
      (made : newAgent supply settings s.agents.length budget = .ok a) :
    Move supply settings i (.making budget task) s (.entering s.agents.length task)
      { s with agents := s.agents ++ [a] }
  | enter {k : Nat} {task : Option String} {s : Shared} (free : s.registry = none) :
    Move supply settings i (.entering k task) s (.entered k task)
      { s with registry := some i, sessions := s.sessions ++ [(supply.id k, k)] }
  | create {k : Nat} {task : Option String} {s : Shared} (w : World) :
    Move supply settings i (.entered k task) s (created (supply.id k) task)
      { s with
        registry := none
        locks := s.locks ++ [none]
        runLocks := s.runLocks ++ [(supply.id k, s.locks.length)]
        world := w }
  | seek {id : String} {use : Use} {s : Shared} (free : s.registry = none) :
    Move supply settings i (.seeking id use) s (.sought id use (s.sessions.lookup id))
      { s with registry := some i }
  | find {id : String} {use : Use} {k l : Nat} {s : Shared}
      (lock : s.runLocks.lookup id = some l) :
    Move supply settings i (.sought id use (some k)) s (use.next id k l)
      { s with registry := none }
  | miss {id : String} {use : Use} {agent : Option Nat} {s : Shared}
      (missing : agent = none ∨ s.runLocks.lookup id = none) :
    Move supply settings i (.sought id use agent) s (.answered (.unknown id))
      { s with registry := none }
  | lock {job : Job} {s : Shared} (free : s.locks[job.lock]? = some none) :
    Move supply settings i (.waiting job) s (.running job (.ready job.task) [])
      { s with locks := s.locks.set job.lock (some i) }
  | advance {job : Job} {q q' : Agent.Progress} {ms more : List Message} {s : Shared} {a a' : Agent}
      {w : World} (agent : s.agents[job.agent]? = some a)
      (step : a.advance q s.world = (q', a', w))
      (messages : a'.conversation.messages = a.conversation.messages ++ more)
      (adds : q.Adds more) :
    Move supply settings i (.running job q ms) s (.running job q' (ms ++ more))
      { s with agents := s.agents.set job.agent a', world := w }
  | finish {job : Job} {ending : Agent.Ending} {ms : List Message} {s : Shared} (w : World) :
    Move supply settings i (.running job (.ended ending) ms) s (.answered (.ran job ms ending))
      { s with locks := s.locks.set job.lock none, world := w }
  | remove {id : String} {s : Shared} (free : s.registry = none) :
    Move supply settings i (.removing id) s (.removed id)
      { s with registry := some i, sessions := s.sessions.filter (·.1 != id) }
  | delete {id : String} {s : Shared} :
    Move supply settings i (.removed id) s (.answered (.deleted id))
      { s with registry := none, runLocks := s.runLocks.filter (·.1 != id) }
  | read {id : String} {k : Nat} {s : Shared} {a : Agent} (agent : s.agents[k]? = some a) :
    Move supply settings i (.reading id k) s (.answered (.read id k a.conversation)) s

/-- The next step of a run is a move. -/
theorem move_advance (supply : Supply) (settings : Settings) (i : Nat) (job : Job)
    (q : Agent.Progress) (ms : List Message) (s : Shared) :
    Move supply settings i (.running job q ms) s (s.advance job q ms).1
      (s.advance job q ms).2 := by
  unfold Shared.advance
  split
  · exact .stay _ _
  · next a ha =>
    obtain ⟨more, hmore, hadds⟩ := a.advance_adds q s.world
    rcases hstep : a.advance q s.world with ⟨q', a', w⟩
    rw [hstep] at hmore
    dsimp only at hmore ⊢
    rw [hmore, List.drop_left]
    exact .advance ha hstep hmore hadds

/-- A step of a thread is one of the moves. -/
theorem move_act (supply : Supply) (settings : Settings) (i : Nat) (ph : Phase) (s : Shared) :
    Move supply settings i ph s (act supply settings i ph s).1 (act supply settings i ph s).2 := by
  cases ph with
  | checking t =>
    rw [act]
    split
    · next hlive =>
      exact .found (List.contains_iff_mem.1 (Bool.and_eq_true_iff.1 hlive).2)
    · next hlive =>
      refine .absent ?_
      rw [Bool.and_eq_true_iff, List.contains_iff_mem, Bool.not_eq_true', not_and_or,
        Bool.not_eq_false, String.isEmpty_iff] at hlive
      exact hlive
  | making budget task =>
    rw [act]
    split
    · exact .failed _
    · next hmade => exact .made hmade
  | entering k task =>
    rw [act]
    split
    · exact .stay _ _
    · next hfree => exact .enter (by simpa using hfree)
  | entered k task => exact .create _
  | seeking id use =>
    rw [act]
    split
    · exact .stay _ _
    · next hfree => exact .seek (by simpa using hfree)
  | sought id use agent =>
    cases agent with
    | none => exact .miss (.inl rfl)
    | some k =>
      cases hlock : s.runLocks.lookup id with
      | none =>
        simp only [act, hlock]
        exact .miss (.inr hlock)
      | some l =>
        simp only [act, hlock]
        exact .find hlock
  | waiting job =>
    rw [act]
    split
    · next hfree => exact .lock hfree
    · exact .stay _ _
  | running job q ms =>
    cases q with
    | ended ending => exact .finish _
    | ready task | iterating left | executing left code => exact move_advance _ _ _ _ _ _ _
  | removing id =>
    rw [act]
    split
    · exact .stay _ _
    · next hfree => exact .remove (by simpa using hfree)
  | removed id => exact .delete
  | reading id k =>
    rw [act]
    split
    · exact .stay _ _
    · next ha => exact .read ha
  | answered outcome => exact .stay _ _

namespace Config

variable {supply : Supply} {settings : Settings} {c : Config}

/-- A thread has come to another phase, and something else is shared. -/
def set (c : Config) (i : Nat) (ph : Phase) (s : Shared) : Config :=
  ⟨s, Function.update c.threads i ph⟩

@[simp] theorem shared_set (c : Config) (i : Nat) (ph : Phase) (s : Shared) :
    (c.set i ph s).shared = s := rfl

@[simp] theorem threads_set_self (c : Config) (i : Nat) (ph : Phase) (s : Shared) :
    (c.set i ph s).threads i = ph := by
  simp only [set, Function.update_self]

theorem threads_set_ne (c : Config) {i j : Nat} (hj : j ≠ i) (ph : Phase) (s : Shared) :
    (c.set i ph s).threads j = c.threads j := by
  simp only [set, Function.update_of_ne hj]

theorem step_eq (supply : Supply) (settings : Settings) (c : Config) (i : Nat) :
    c.step supply settings i = c.set i (act supply settings i (c.threads i) c.shared).1
      (act supply settings i (c.threads i) c.shared).2 := rfl

/-- What holds of all threads when a thread has come to another phase: it holds of that phase, and
held of the other threads. -/
theorem forall_threads_set {p : Nat → Phase → Prop} {i : Nat} {ph : Phase} {s : Shared}
    (self : p i ph) (others : ∀ j, j ≠ i → p j (c.threads j)) (j : Nat) :
    p j ((c.set i ph s).threads j) := by
  by_cases hj : j = i
  · subst hj
    rw [threads_set_self]
    exact self
  · rw [threads_set_ne c hj]
    exact others j hj

/-- What a move leaves of the phase of a thread, it leaves for all threads. -/
theorem apply_threads_set {α : Type} (p : Phase → α) {i : Nat} {ph : Phase}
    (hp : p ph = p (c.threads i)) (s : Shared) (j : Nat) :
    p ((c.set i ph s).threads j) = p (c.threads j) :=
  forall_threads_set (p := fun j ph => p ph = p (c.threads j)) hp (fun _ _ => rfl) j

@[simp] theorem set_set (c : Config) (i : Nat) (ph ph' : Phase) (s s' : Shared) :
    (c.set i ph s).set i ph' s' = c.set i ph' s' := by
  simp only [set, Function.update_idem]

@[simp] theorem set_same (c : Config) (i : Nat) : c.set i (c.threads i) c.shared = c := by
  simp only [set, Function.update_eq_self]

theorem run_cons (supply : Supply) (settings : Settings) (c : Config) (i : Nat)
    (rest : List Nat) :
    c.run supply settings (i :: rest) = (c.step supply settings i).run supply settings rest := rfl

/-- The steps of a schedule after those of another. -/
theorem run_append (supply : Supply) (settings : Settings) (c : Config) (first rest : List Nat) :
    c.run supply settings (first ++ rest) =
      (c.run supply settings first).run supply settings rest :=
  List.foldl_append

theorem run_concat (supply : Supply) (settings : Settings) (c : Config) (first : List Nat)
    (i : Nat) :
    c.run supply settings (first ++ [i]) = (c.run supply settings first).step supply settings i :=
  run_append supply settings c first [i]

/-- What every move keeps holds after all steps. -/
theorem run_induction {P : Config → Prop}
    (keep : ∀ c i ph s, P c → Move supply settings i (c.threads i) c.shared ph s →
      P (c.set i ph s))
    (holds : P c) (schedule : List Nat) : P (c.run supply settings schedule) := by
  induction schedule generalizing c with
  | nil => exact holds
  | cons i rest ih => exact ih (keep c i _ _ holds (move_act supply settings i _ _))

end Config

/-! ## One thread alone -/

/-- Steps of the thread `i` alone lead from one phase to another, and change what is shared. -/
inductive Goes (supply : Supply) (settings : Settings) (i : Nat) :
    Phase → Shared → Phase → Shared → Prop where
  | refl (ph : Phase) (s : Shared) : Goes supply settings i ph s ph s
  | step {ph ph' : Phase} {s s' : Shared}
      (rest : Goes supply settings i (act supply settings i ph s).1 (act supply settings i ph s).2
        ph' s') :
    Goes supply settings i ph s ph' s'

namespace Goes

variable {supply : Supply} {settings : Settings} {i : Nat} {ph ph' ph'' : Phase}
  {s s' s'' : Shared}

/-- A step that is known, and then further ones. -/
theorem next (hact : act supply settings i ph s = (ph', s'))
    (rest : Goes supply settings i ph' s' ph'' s'') : Goes supply settings i ph s ph'' s'' := by
  refine .step ?_
  rw [hact]
  exact rest

theorem trans (first : Goes supply settings i ph s ph' s')
    (rest : Goes supply settings i ph' s' ph'' s'') : Goes supply settings i ph s ph'' s'' := by
  induction first with
  | refl => exact rest
  | step _ ih => exact .step (ih rest)

/-- Steps of one thread alone are steps of a schedule. -/
theorem exists_run (goes : Goes supply settings i ph s ph' s') (c : Config)
    (hph : c.threads i = ph) (hs : c.shared = s) :
    ∃ n, c.run supply settings (List.replicate n i) = c.set i ph' s' := by
  induction goes generalizing c with
  | refl =>
    refine ⟨0, ?_⟩
    rw [← hph, ← hs, Config.set_same]
    rfl
  | step _ ih =>
    subst hph hs
    obtain ⟨n, hn⟩ := ih (c.step supply settings i) (Config.threads_set_self _ _ _ _) rfl
    refine ⟨n + 1, ?_⟩
    rw [List.replicate_succ, Config.run_cons, hn, Config.step_eq, Config.set_set]

end Goes

end ScriptAgent.Service
