import ScriptAgent.Proofs.Agent.Steps
import ScriptAgent.Proofs.Service.Requests
import ScriptAgent.Proofs.Service.Store

/-!
# The store of sessions as a map of live sessions

What requests do to sessions is a list of deeds: a session is created, or deleted. The live sessions
are those that have been created and not deleted since, in the order of their creation (`live`). A
request changes the store as its deed says (`Holds.effect`), so the store of the service is that map
whatever requests come, and each request is answered as the map says (`serve_refines`).

Names of sessions have to be fresh (`Supply.Fresh`): two sessions never have the same name, and none
has the empty one.
-/

namespace ScriptAgent.Service

/-! ## Deeds -/

/-- What a request does to the sessions. -/
inductive Deed where
  | created (id : String)
  | deleted (id : String)
deriving DecidableEq

/-- The sessions that have been created, in order. -/
def createdIds (ds : List Deed) : List String :=
  ds.filterMap fun d => match d with
    | .created id => some id
    | .deleted _ => none

/-- The sessions that have been created and not deleted. -/
def live (ds : List Deed) : List String := (createdIds ds).filter fun id => .deleted id ∉ ds

/-- What a request does after some deeds, if it does anything. -/
def deed? (supply : Supply) (settings : Settings) (ds : List Deed) (r : Request) : Option Deed :=
  let k := (createdIds ds).length
  let create (budget : Option Int) : Option Deed :=
    match newAgent supply settings k budget with
    | .error _ => none
    | .ok _ => some (.created (supply.id k))
  match asked r with
  | some .createSession => create none
  | some (.deleteSession id) => if id ∈ live ds then some (.deleted id) else none
  | some .runTask =>
    match taskOf r with
    | none => none
    | some t => if t.sessionId ∈ live ds then none else create t.budget
  | _ => none

/-- What requests do, one after the other. -/
def deeds (supply : Supply) (settings : Settings) (requests : List Request) : List Deed :=
  requests.foldl (fun ds r => ds ++ (deed? supply settings ds r).toList) []

section
variable {supply : Supply} {settings : Settings} {ds : List Deed} {id : String}

theorem mem_live_iff : id ∈ live ds ↔ id ∈ createdIds ds ∧ .deleted id ∉ ds := by
  rw [live, List.mem_filter, decide_eq_true_eq]

theorem createdIds_created (ds : List Deed) (id : String) :
    createdIds (ds ++ [.created id]) = createdIds ds ++ [id] := by
  simp [createdIds]

theorem createdIds_deleted (ds : List Deed) (id : String) :
    createdIds (ds ++ [.deleted id]) = createdIds ds := by
  simp [createdIds]

/-- A session that is created comes last. -/
theorem live_created (new : .deleted id ∉ ds) : live (ds ++ [.created id]) = live ds ++ [id] := by
  simp [live, createdIds_created, new]

/-- A session that is deleted is missing. -/
theorem live_deleted (ds : List Deed) (id : String) :
    live (ds ++ [.deleted id]) = (live ds).filter (· != id) := by
  rw [live, createdIds_deleted, live, List.filter_filter]
  refine List.filter_congr fun i _ => ?_
  by_cases hi : i = id <;> simp [hi]

end

/-! ## The store -/

/-- A store holds the sessions that some deeds have left live, each with a lock, and the deeds
belong to sessions from a supply. -/
structure Holds (supply : Supply) (ds : List Deed) (s : Store) : Prop where
  ids : s.ids = live ds
  locks : s.locks = live ds
  created : s.created = (createdIds ds).length
  named : createdIds ds = (List.range s.created).map supply.id
  deleted : ∀ id, .deleted id ∈ ds → id ∈ createdIds ds

section
variable {supply : Supply} {settings : Settings} {ds : List Deed} {s : Store} {id : String}
  {a : Agent}

theorem holds_empty (supply : Supply) : Holds supply [] .empty :=
  ⟨rfl, rfl, rfl, rfl, nofun⟩

theorem Holds.locked (holds : Holds supply ds s) : s.locks = s.ids :=
  holds.locks.trans holds.ids.symm

/-- The next name is that of no session so far. -/
theorem Holds.new_name (holds : Holds supply ds s) (fresh : supply.Fresh) :
    supply.id s.created ∉ createdIds ds := by
  rw [holds.named, List.mem_map]
  rintro ⟨k, hk, he⟩
  obtain rfl := fresh.injective he
  exact Nat.lt_irrefl _ (List.mem_range.1 hk)

/-- The next name is that of no live session. -/
theorem Holds.new_id (holds : Holds supply ds s) (fresh : supply.Fresh) :
    supply.id s.created ∉ s.ids := by
  rw [holds.ids, mem_live_iff]
  exact fun h => holds.new_name fresh h.1

/-- No live session has the empty name. -/
theorem Holds.ne_empty (holds : Holds supply ds s) (fresh : supply.Fresh) (hid : id ∈ s.ids) :
    id ≠ "" := by
  rw [holds.ids, mem_live_iff, holds.named, List.mem_map] at hid
  obtain ⟨⟨k, -, rfl⟩, -⟩ := hid
  exact fresh.named k

/-- A session is created. -/
theorem Holds.add (holds : Holds supply ds s) (fresh : supply.Fresh) (a : Agent) :
    Holds supply (ds ++ [.created (supply.id s.created)]) (s.add (supply.id s.created) a) := by
  have hname := holds.new_name fresh
  have hnew : .deleted (supply.id s.created) ∉ ds := fun h => hname (holds.deleted _ h)
  exact {
    ids := by rw [Store.ids_add, holds.ids, live_created hnew]
    locks := by rw [Store.add, holds.locks, live_created hnew]
    created := by
      rw [createdIds_created, List.length_append, Store.add, holds.created]
      rfl
    named := by
      rw [createdIds_created, holds.named, Store.add, List.range_succ, List.map_append]
      rfl
    deleted id hid := by
      rw [createdIds_created]
      have hid : .deleted id ∈ ds := by simpa using hid
      exact List.mem_append_left _ (holds.deleted id hid) }

/-- A live session is deleted. -/
theorem Holds.remove (holds : Holds supply ds s) (hid : id ∈ s.ids) :
    Holds supply (ds ++ [.deleted id]) (s.remove id) where
  ids := by rw [Store.ids_remove, holds.ids, live_deleted]
  locks := by
    rw [live_deleted, ← holds.locks]
    rfl
  created := by
    rw [createdIds_deleted, ← holds.created]
    rfl
  named := by
    rw [createdIds_deleted]
    exact holds.named
  deleted i hi := by
    rw [createdIds_deleted]
    rw [List.mem_append, List.mem_singleton, Deed.deleted.injEq] at hi
    rcases hi with hi | rfl
    · exact holds.deleted i hi
    · exact (mem_live_iff.1 (holds.ids ▸ hid)).1

/-- The agent of a session changes. -/
theorem Holds.update (holds : Holds supply ds s) (id : String) (a : Agent) :
    Holds supply ds (s.update id a) :=
  ⟨(Store.ids_update s id a).trans holds.ids, holds.locks, holds.created, holds.named,
    holds.deleted⟩

end

/-! ## Answers -/

/-- What a run of a task in a session comes to: how it ends, what it leaves of the agent, and the
answer. The store is as before, but for the agent of the session, in which the messages of the run
are kept however it ends. -/
structure Ran (id task : String) (agent : Agent) (s s' : Store) (w : World) (ending : Agent.Ending)
    (agent' : Agent) (result : Except Crash Answer) : Prop where
  run : ∃ w', agent.run task Agent.never w = (ending, agent', w')
  store : s' = s.update id agent'
  kept : s'.find? id = some agent'
  messages : ∃ ms, agent'.conversation.messages = agent.conversation.messages ++ ms ∧
    Agent.Segment task ms
  others : ∀ i, i ≠ id → s'.find? i = s.find? i
  answered : ∀ text, ending = .answered text →
    result = .ok (done [("answer", .str text), ("session_id", .str id)])
  exhausted : ∀ budget, ending = .exhausted budget →
    ∃ answer, result = .ok answer ∧ answer.status = 422
  refused : ∀ message, ending = .refused message →
    ∃ answer, result = .ok answer ∧ answer.status = 502
  found : ∀ answer, result = .ok answer → answer.status ≠ 404

/-- How a request is answered, and what it does to the store and its live sessions. -/
structure Contract (supply : Supply) (settings : Settings) (s : Store) (w : World) (r : Request)
    (result : Except Crash Answer) (s' : Store) : Prop where
  /-- The list of sessions is that of the live ones. -/
  listed : asked r = some .listSessions → result = .ok ⟨200, Datum.texts s.ids⟩ ∧ s' = s
  read : ∀ id, asked r = some (.readMessages id) → s' = s ∧
    ∃ answer, result = .ok answer ∧ (answer.status = 404 ↔ id ∉ s.ids) ∧
      ∀ agent, s.find? id = some agent → answer = history id agent.conversation
  deleted : ∀ id, asked r = some (.deleteSession id) →
    (∃ answer, result = .ok answer ∧ (answer.status = 404 ↔ id ∉ s.ids)) ∧
    s' = if id ∈ s.ids then s.remove id else s
  /-- A session is created, unless its agent cannot be made. -/
  created : asked r = some .createSession →
    match newAgent supply settings s.created none with
    | .error crash => result = .error crash ∧ s' = s
    | .ok agent => result = .ok (done [("session_id", .str (supply.id s.created))]) ∧
      s' = s.add (supply.id s.created) agent
  /-- A task for a live session is run in it. -/
  ran : ∀ t, asked r = some .runTask → taskOf r = some t → t.sessionId ∈ s.ids →
    ∃ agent ending agent', s.find? t.sessionId = some agent ∧
      Ran t.sessionId t.text agent s s' w ending agent' result
  /-- A task for any other session is run in a new one, unless its agent cannot be made. -/
  ranAnew : ∀ t, asked r = some .runTask → taskOf r = some t → t.sessionId ∉ s.ids →
    match newAgent supply settings s.created t.budget with
    | .error crash => result = .error crash ∧ s' = s
    | .ok agent => supply.id s.created ∉ s.ids ∧ ∃ w' ending agent',
      Ran (supply.id s.created) t.text agent (s.add (supply.id s.created) agent) s' w' ending agent'
        result
  /-- A body that is not valid is refused. -/
  invalid : asked r = some .runTask → taskOf r = none → s' = s ∧
    ∃ answer, result = .ok answer ∧ (answer.status = 422 ∨ answer.status = 400)
  /-- All other requests leave the store. -/
  other : (∀ a, asked r = some a → a = .checkHealth ∨ a = .welcome) → s' = s

section
variable {supply : Supply} {settings : Settings} {ds : List Deed} {s : Store} {w : World}
  {id : String} {agent : Agent} {r : Request}

/-- A task is run in a live session. -/
theorem ran_runIn (found : s.find? id = some agent) (task : String) (w : World) :
    ∃ ending agent', Ran id task agent s (runIn id task s w).2.1 w ending agent'
      (runIn id task s w).1 := by
  have hadds := agent.run_adds task Agent.never w
  rcases hrun : agent.run task Agent.never w with ⟨ending, agent', w'⟩
  rw [hrun] at hadds
  rw [runIn_eq found hrun]
  refine ⟨ending, agent', ⟨w', hrun⟩, rfl, Store.find?_update_self found, hadds,
    fun i hi => Store.find?_update_ne hi, ?_, ?_, ?_, ?_⟩
  · rintro text rfl
    rfl
  · rintro budget rfl
    exact ⟨_, rfl, rfl⟩
  · rintro message rfl
    exact ⟨_, rfl, rfl⟩
  · intro answer hanswer
    unfold answerRun at hanswer
    split at hanswer
    · cases hanswer
      exact (show 200 ≠ 404 by decide)
    · cases hanswer
      exact nofun
    · cases hanswer
      exact nofun
    · cases hanswer

/-- Each request is answered as the map of live sessions says. -/
theorem Holds.contract (holds : Holds supply ds s) (fresh : supply.Fresh) (settings : Settings)
    (r : Request) (w : World) :
    Contract supply settings s w r (handle supply settings r s w).1
      (handle supply settings r s w).2.1 where
  listed ha := by
    rw [handle_of_asked ha]
    exact ⟨rfl, rfl⟩
  read id ha := by
    rw [handle_of_asked ha, perform]
    cases found : s.find? id with
    | none =>
      have hid := (Store.find?_eq_none_iff holds.locked).1 found
      refine ⟨rfl, unknown id, rfl, iff_of_true rfl hid, fun agent he => ?_⟩
      cases he
    | some agent =>
      have hid := (Store.exists_find?_iff holds.locked).1 ⟨agent, found⟩
      refine ⟨rfl, history id agent.conversation, rfl,
        iff_of_false (by decide : (200 : Nat) ≠ 404) (not_not_intro hid), fun agent' he => ?_⟩
      rw [Option.some.inj he]
  deleted id ha := by
    rw [handle_of_asked ha, perform]
    cases found : s.find? id with
    | none =>
      have hid := (Store.find?_eq_none_iff holds.locked).1 found
      exact ⟨⟨unknown id, rfl, iff_of_true rfl hid⟩, (if_neg hid).symm⟩
    | some agent =>
      have hid := (Store.exists_find?_iff holds.locked).1 ⟨agent, found⟩
      exact ⟨⟨_, rfl, iff_of_false (by decide) (not_not_intro hid)⟩, (if_pos hid).symm⟩
  created ha := by
    rw [handle_of_asked ha, perform, createSession_eq]
    cases newAgent supply settings s.created none <;> exact ⟨rfl, rfl⟩
  ran t ha ht hid := by
    obtain ⟨agent, found⟩ := (Store.exists_find?_iff holds.locked).2 hid
    obtain ⟨d, hd, hrun⟩ := handle_of_task ha ht
    rw [hrun, runTask_eq (fun id => holds.ne_empty fresh) hd, if_pos hid]
    obtain ⟨ending, agent', ran⟩ := ran_runIn found t.text w
    exact ⟨agent, ending, agent', found, ran⟩
  ranAnew t ha ht hid := by
    obtain ⟨d, hd, hrun⟩ := handle_of_task ha ht
    have hnew := holds.new_id fresh
    rw [hrun, runTask_eq (fun id => holds.ne_empty fresh) hd, if_neg hid]
    cases newAgent supply settings s.created t.budget with
    | error crash => exact ⟨rfl, rfl⟩
    | ok agent => exact ⟨hnew, _, ran_runIn (Store.find?_add_self hnew) t.text _⟩
  invalid ha ht := by
    obtain ⟨answer, hstatus, hanswer⟩ := handle_of_invalid ha ht
    rw [hanswer]
    exact ⟨rfl, answer, rfl, hstatus⟩
  other ha := by
    cases hasked : asked r with
    | none =>
      obtain ⟨result, hresult⟩ := handle_of_not_asked hasked
      rw [hresult]
    | some a =>
      rw [handle_of_asked hasked]
      rcases ha a hasked with rfl | rfl <;> rfl

/-! ## Changes of the store -/

/-- How a request changes the store, and its deed: a session is deleted or made, and a task that is
run changes the agent of its session. -/
inductive Effect (supply : Supply) (settings : Settings) (s : Store) (r : Request) :
    Option Deed → Store → Prop where
  | none : Effect supply settings s r .none s
  | deleted {id : String} (asks : asked r = some (.deleteSession id)) (hid : id ∈ s.ids) :
      Effect supply settings s r (some (.deleted id)) (s.remove id)
  | created {agent : Agent} (asks : asked r = some .createSession)
      (made : newAgent supply settings s.created .none = .ok agent) :
      Effect supply settings s r (some (.created (supply.id s.created)))
        (s.add (supply.id s.created) agent)
  | ran {t : Task} (asks : asked r = some .runTask) (task : taskOf r = some t)
      (hid : t.sessionId ∈ s.ids) (agent' : Agent) :
      Effect supply settings s r .none (s.update t.sessionId agent')
  | ranAnew {t : Task} {agent : Agent} (asks : asked r = some .runTask) (task : taskOf r = some t)
      (hid : t.sessionId ∉ s.ids) (made : newAgent supply settings s.created t.budget = .ok agent)
      (agent' : Agent) :
      Effect supply settings s r (some (.created (supply.id s.created)))
        ((s.add (supply.id s.created) agent).update (supply.id s.created) agent')

/-- What a request does to the store goes with its deed. -/
theorem Holds.effect (holds : Holds supply ds s) (fresh : supply.Fresh) (settings : Settings)
    (r : Request) (w : World) :
    Effect supply settings s r (deed? supply settings ds r)
      (handle supply settings r s w).2.1 := by
  have contract := holds.contract fresh settings r w
  have hlive : ∀ id, id ∈ live ds ↔ id ∈ s.ids := fun id => by rw [holds.ids]
  cases ha : asked r with
  | none =>
    rw [contract.other (by simp [ha])]
    simpa only [deed?, ha] using Effect.none
  | some a =>
    cases a with
    | checkHealth | welcome =>
      rw [contract.other (by simp [ha])]
      simpa only [deed?, ha] using Effect.none
    | listSessions =>
      rw [(contract.listed ha).2]
      simpa only [deed?, ha] using Effect.none
    | readMessages id =>
      rw [(contract.read id ha).1]
      simpa only [deed?, ha] using Effect.none
    | deleteSession id =>
      rw [(contract.deleted id ha).2]
      simp only [deed?, ha, hlive]
      by_cases hid : id ∈ s.ids
      · rw [if_pos hid, if_pos hid]
        exact .deleted ha hid
      · rw [if_neg hid, if_neg hid]
        exact .none
    | createSession =>
      have created := contract.created ha
      simp only [deed?, ha, ← holds.created]
      cases hmade : newAgent supply settings s.created none with
      | error crash =>
        rw [hmade] at created
        rw [created.2]
        exact .none
      | ok agent =>
        rw [hmade] at created
        rw [created.2]
        exact .created ha hmade
    | runTask =>
      cases ht : taskOf r with
      | none =>
        rw [(contract.invalid ha ht).1]
        simpa only [deed?, ha, ht] using Effect.none
      | some t =>
        simp only [deed?, ha, ht, hlive, ← holds.created]
        by_cases hid : t.sessionId ∈ s.ids
        · obtain ⟨agent, ending, agent', -, ran⟩ := contract.ran t ha ht hid
          rw [ran.store, if_pos hid]
          exact .ran ha ht hid agent'
        · have ranAnew := contract.ranAnew t ha ht hid
          rw [if_neg hid]
          cases hmade : newAgent supply settings s.created t.budget with
          | error crash =>
            rw [hmade] at ranAnew
            rw [ranAnew.2]
            exact .none
          | ok agent =>
            rw [hmade] at ranAnew
            obtain ⟨-, w', ending, agent', ran⟩ := ranAnew
            rw [ran.store]
            exact .ranAnew ha ht hid hmade agent'

/-- A request does its deed. -/
theorem Holds.handle (holds : Holds supply ds s) (fresh : supply.Fresh) (settings : Settings)
    (r : Request) (w : World) :
    Holds supply (ds ++ (deed? supply settings ds r).toList)
      (handle supply settings r s w).2.1 := by
  have effect := holds.effect fresh settings r w
  generalize deed? supply settings ds r = d, (Service.handle supply settings r s w).2.1 = s'
    at effect ⊢
  cases effect with
  | none => exact (List.append_nil ds).symm ▸ holds
  | deleted asks hid => exact holds.remove hid
  | created asks made => exact holds.add fresh _
  | ran asks task hid agent' => exact (List.append_nil ds).symm ▸ holds.update _ agent'
  | ranAnew asks task hid made agent' => exact (holds.add fresh _).update _ agent'

/-- Requests do their deeds, one after the other. -/
theorem Holds.serve (holds : Holds supply ds s) (fresh : supply.Fresh) (settings : Settings)
    (requests : List Request) (w : World) :
    Holds supply
      (requests.foldl (fun ds r => ds ++ (deed? supply settings ds r).toList) ds)
      (serve supply settings requests s w).2.1 := by
  induction requests generalizing ds s w with
  | nil => exact holds
  | cons r rest ih => exact ih (holds.handle fresh settings r w) _

end

end ScriptAgent.Service
