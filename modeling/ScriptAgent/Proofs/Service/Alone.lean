import ScriptAgent.Proofs.Service.Progress

/-!
# Requests one at a time

A thread that makes all its steps while no other makes any answers its request as the service does
that handles one request at a time (`Quiet.handle`), and leaves what is shared as that leaves its
store of sessions. So the service answers any requests about sessions as threads do that make their
steps one after the other (`Consistent.exists_run_serve`).
-/

namespace ScriptAgent.Service

variable {supply : Supply} {settings : Settings} {c : Config} {i k l : Nat} {s : Shared}
  {id task : String} {a a' : Agent} {w : World}

/-! ## What is shared as a store -/

namespace Shared

/-- The live sessions with their agents and locks. -/
def store (s : Shared) : Store where
  agents := s.sessions.map fun e => (e.1, s.agents.getD e.2 default)
  locks := s.lockedIds
  created := s.agents.length

/-- A session with a new agent has been entered. -/
def enter (s : Shared) (supply : Supply) (a : Agent) (w : World) : Shared where
  agents := s.agents ++ [a]
  locks := s.locks ++ [none]
  sessions := s.sessions ++ [(supply.id s.agents.length, s.agents.length)]
  runLocks := s.runLocks ++ [(supply.id s.agents.length, s.locks.length)]
  registry := none
  world := w

/-- A session has been deleted. -/
def delete (s : Shared) (id : String) : Shared :=
  { s with
    sessions := s.sessions.filter (·.1 != id), runLocks := s.runLocks.filter (·.1 != id) }

/-- An agent has made a run. -/
def update (s : Shared) (k : Nat) (a : Agent) (w : World) : Shared :=
  { s with agents := s.agents.set k a, world := w }

end Shared

/-- What is shared while no request is being handled. -/
structure Quiet (supply : Supply) (s : Shared) : Prop where
  registry : s.registry = none
  level : s.ids = s.lockedIds
  sessions : ∀ e ∈ s.sessions, e.1 = supply.id e.2 ∧ e.2 < s.agents.length
  locks : ∀ e ∈ s.runLocks, s.locks[e.2]? = some none

/-- When no thread holds a lock, what is shared is quiet. -/
theorem Consistent.quiet (consistent : Consistent supply c)
    (outside : ∀ i, ¬ (c.threads i).Inside) (idle : ∀ i, (c.threads i).lock? = none) :
    Quiet supply c.shared := by
  obtain ⟨lockOf, tied⟩ := consistent.tied
  have free : c.shared.registry = none := Option.eq_none_iff_forall_ne_some.2 fun i hi =>
    outside i ((consistent.guarded i).2 hi)
  refine ⟨free, consistent.level.free free, fun e he => ?_, fun e he => ?_⟩
  · exact ⟨(tied.sessions e he).1, (tied.sessions e he).2.made⟩
  · obtain ⟨k, -, hlock⟩ := tied.locks e he
    have hlt := tied.bound k _ hlock
    cases hl : c.shared.locks[e.2] with
    | none => exact List.getElem?_eq_some_iff.2 ⟨hlt, hl⟩
    | some j =>
      have hj := (consistent.held j e.2).2 (List.getElem?_eq_some_iff.2 ⟨hlt, hl⟩)
      cases (idle j).symm.trans hj

theorem ids_store (s : Shared) : s.store.ids = s.ids := by
  rw [Store.ids, Shared.store, List.map_map]
  rfl

/-- What is found under a name after all values have been changed. -/
theorem lookup_map {β γ : Type} (f : β → γ) (id : String) (l : List (String × β)) :
    (l.map fun e => (e.1, f e.2)).lookup id = (l.lookup id).map f := by
  induction l with
  | nil => rfl
  | cons e rest ih =>
    obtain ⟨j, v⟩ := e
    rw [List.map_cons, lookup_cons_eq, lookup_cons_eq, ih]
    split <;> rfl

/-- A session that is found has its agent in the store. -/
theorem find?_store_eq_some (hk : s.sessions.lookup id = some k)
    (hl : s.runLocks.lookup id = some l) (ha : s.agents[k]? = some a) :
    s.store.find? id = some a := by
  refine Store.find?_eq_some_iff.2 ⟨?_, mem_names_iff.2 ⟨l, hl⟩⟩
  rw [Shared.store, lookup_map fun k => s.agents.getD k default, hk, Option.map_some,
    List.getD_eq_getElem?_getD, ha, Option.getD_some]

theorem find?_store_eq_none (hk : s.sessions.lookup id = none) : s.store.find? id = none := by
  rw [Store.find?, Shared.store, lookup_map fun k => s.agents.getD k default, hk]
  rfl

namespace Quiet

variable (quiet : Quiet supply s)
include quiet

/-- A live session has an agent and a lock that is free. -/
theorem exists_lookup (live : id ∈ s.ids) :
    ∃ k l a, s.sessions.lookup id = some k ∧ s.runLocks.lookup id = some l ∧
      s.agents[k]? = some a ∧ s.locks[l]? = some none ∧ id = supply.id k := by
  obtain ⟨k, hk⟩ := mem_names_iff.1 live
  obtain ⟨l, hl⟩ := mem_names_iff.1 (quiet.level ▸ live)
  obtain ⟨hid, hlt⟩ := quiet.sessions (id, k) (mem_of_lookup hk)
  exact ⟨k, l, _, hk, hl, List.getElem?_eq_getElem hlt, quiet.locks (id, l) (mem_of_lookup hl),
    hid⟩

theorem ne_empty (fresh : supply.Fresh) (live : id ∈ s.ids) : id ≠ "" := by
  obtain ⟨k, -, -, -, -, -, -, rfl⟩ := quiet.exists_lookup live
  exact fresh.named k

/-! ## Changes -/

theorem enter (a : Agent) (w : World) : Quiet supply (s.enter supply a w) := by
  refine ⟨rfl, ?_, fun e he => ?_, fun e he => ?_⟩
  · rw [Shared.ids, Shared.lockedIds, Shared.enter, List.map_append, List.map_append]
    exact congrArg (· ++ _) quiet.level
  · rw [Shared.enter, List.length_append]
    rcases List.mem_append.1 he with he | he
    · exact ⟨(quiet.sessions e he).1, Nat.lt_succ_of_lt (quiet.sessions e he).2⟩
    · obtain rfl := List.mem_singleton.1 he
      exact ⟨rfl, Nat.lt_succ_self _⟩
  · rcases List.mem_append.1 he with he | he
    · have hlock := quiet.locks e he
      exact (List.getElem?_append_left (List.getElem?_eq_some_iff.1 hlock).1).trans hlock
    · obtain rfl := List.mem_singleton.1 he
      exact List.getElem?_concat_length

theorem store_enter (a : Agent) (w : World) :
    (s.enter supply a w).store = s.store.add (supply.id s.agents.length) a := by
  have hold : s.sessions.map (fun e => (e.1, (s.agents ++ [a]).getD e.2 default)) =
      s.sessions.map fun e => (e.1, s.agents.getD e.2 default) := by
    refine List.map_congr_left fun e he => ?_
    rw [List.getD_eq_getElem?_getD, List.getElem?_append_left (quiet.sessions e he).2,
      List.getD_eq_getElem?_getD]
  have hnew : (s.agents ++ [a]).getD s.agents.length default = a := by
    rw [List.getD_eq_getElem?_getD, List.getElem?_concat_length, Option.getD_some]
  simp only [Shared.store, Shared.enter, Shared.lockedIds, Store.add, List.map_append, hold,
    List.map_cons, List.map_nil, hnew, List.length_append, List.length_cons, List.length_nil]

theorem delete (id : String) : Quiet supply (s.delete id) := by
  refine ⟨quiet.registry, ?_, fun e he => ?_, fun e he => ?_⟩
  · rw [Shared.ids, Shared.lockedIds, Shared.delete, names_filter, names_filter]
    exact congrArg _ quiet.level
  · exact quiet.sessions e (List.mem_of_mem_filter he)
  · exact quiet.locks e (List.mem_of_mem_filter he)

omit quiet in
theorem store_delete (s : Shared) (id : String) : (s.delete id).store = s.store.remove id := by
  have hsessions : (s.sessions.filter (·.1 != id)).map
      (fun e => (e.1, s.agents.getD e.2 default)) =
      (s.sessions.map fun e => (e.1, s.agents.getD e.2 default)).filter (·.1 != id) := by
    rw [List.filter_map]
    rfl
  simp only [Shared.store, Shared.delete, Shared.lockedIds, Store.remove, hsessions, names_filter]

theorem update (k : Nat) (a : Agent) (w : World) : Quiet supply (s.update k a w) := by
  refine ⟨quiet.registry, quiet.level, fun e he => ?_, quiet.locks⟩
  rw [Shared.update, List.length_set]
  exact quiet.sessions e he

theorem store_update (fresh : supply.Fresh) (hk : k < s.agents.length) (a : Agent) (w : World) :
    (s.update k a w).store = s.store.update (supply.id k) a := by
  have hagents : s.sessions.map (fun e => (e.1, (s.agents.set k a).getD e.2 default)) =
      (s.sessions.map fun e => (e.1, s.agents.getD e.2 default)).map
        fun e => if e.1 = supply.id k then (e.1, a) else (e.1, e.2) := by
    rw [List.map_map]
    refine List.map_congr_left fun e he => ?_
    have hid : e.1 = supply.id k ↔ k = e.2 := by
      rw [(quiet.sessions e he).1]
      exact ⟨fun h => (fresh.injective h).symm, fun h => congrArg supply.id h.symm⟩
    rw [Function.comp_apply, List.getD_eq_getElem?_getD, List.getElem?_set]
    by_cases hek : k = e.2
    · rw [if_pos hek, if_pos (hid.2 hek), if_pos hk]
      rfl
    · rw [if_neg hek, if_neg (mt hid.1 hek), List.getD_eq_getElem?_getD]
  simp only [Shared.store, Shared.update, Shared.lockedIds, Store.update, hagents,
    List.length_set]

end Quiet

/-! ## The steps of a request -/

section
variable (free : s.registry = none)
include free

theorem act_entering (k : Nat) (text : Option String) :
    act supply settings i (.entering k text) s = (.entered k text, { s with
      registry := some i, sessions := s.sessions ++ [(supply.id k, k)] }) := by
  rw [act, free]
  rfl

theorem act_seeking (id : String) (use : Use) :
    act supply settings i (.seeking id use) s =
      (.sought id use (s.sessions.lookup id), { s with registry := some i }) := by
  rw [act, free]
  rfl

theorem act_removing (id : String) :
    act supply settings i (.removing id) s = (.removed id, { s with
      registry := some i, sessions := s.sessions.filter (·.1 != id) }) := by
  rw [act, free]
  rfl

/-- A session is made. -/
theorem goes_making {budget : Option Int}
    (hmade : newAgent supply settings s.agents.length budget = .ok a) (text : Option String) :
    Goes supply settings i (.making budget text) s (created (supply.id s.agents.length) text)
      (s.enter supply a (s.world.log logger .info
        s!"Created session {supply.id s.agents.length}")) := by
  have hact : act supply settings i (.making budget text) s =
      (.entering s.agents.length text, { s with agents := s.agents ++ [a] }) := by
    rw [act, hmade]
  exact .next hact (.next (act_entering (s := { s with agents := s.agents ++ [a] }) free _ _)
    (.next rfl (.refl _ _)))

/-- A session is looked up, and found. -/
theorem goes_seeking (hk : s.sessions.lookup id = some k) (hl : s.runLocks.lookup id = some l)
    (use : Use) : Goes supply settings i (.seeking id use) s (use.next id k l) s := by
  have hact : act supply settings i (.sought id use (some k)) { s with registry := some i } =
      (use.next id k l, s) := by
    simp only [act, hl, ← free]
  refine .next (act_seeking free id use) ?_
  rw [hk]
  exact .next hact (.refl _ _)

/-- A session is looked up, and not found. -/
theorem goes_seeking_none (hk : s.sessions.lookup id = none) (use : Use) :
    Goes supply settings i (.seeking id use) s (.answered (.unknown id)) s := by
  have hact : act supply settings i (.sought id use none) { s with registry := some i } =
      (.answered (.unknown id), s) := by
    simp only [act, ← free]
  refine .next (act_seeking free id use) ?_
  rw [hk]
  exact .next hact (.refl _ _)

/-- A session is deleted. -/
theorem goes_removing (id : String) :
    Goes supply settings i (.removing id) s (.answered (.deleted id)) (s.delete id) := by
  refine .next (act_removing free id) (.next ?_ (.refl _ _))
  rw [act, Shared.delete, free]

/-- A task is run in a live session. -/
theorem goes_running (hk : s.sessions.lookup id = some k) (hl : s.runLocks.lookup id = some l)
    (ha : s.agents[k]? = some a) (hlock : s.locks[l]? = some none) {ending : Agent.Ending}
    (hrun : a.run task Agent.never s.world = (ending, a', w)) :
    ∃ ms, Goes supply settings i (.seeking id (.run task)) s
      (.answered (.ran ⟨id, task, k, l⟩ ms ending))
      (s.update k a' (answerRun id ending w).2) := by
  have hact : act supply settings i (.waiting ⟨id, task, k, l⟩) s =
      (.running ⟨id, task, k, l⟩ (.ready task) [],
        { s with locks := s.locks.set l (some i) }) := by
    simp only [act, hlock]
  obtain ⟨m, more, ending', b, w', hsteps, goes⟩ := exists_ended supply settings i
    (s := { s with locks := s.locks.set l (some i) }) ⟨id, task, k, l⟩ (q := .ready task) [] ha
  obtain ⟨n, hn⟩ := a.steps_run task s.world
  rw [hrun] at hn
  obtain ⟨rfl, hend⟩ := Agent.eq_of_steps_ended hsteps hn
  cases hend
  refine ⟨[] ++ more, (goes_seeking free hk hl (.run task)).trans (.next hact ?_)⟩
  have hlocks : (s.locks.set l (some i)).set l none = s.locks := by
    obtain ⟨hlt, hget⟩ := List.getElem?_eq_some_iff.1 hlock
    rw [List.set_set, ← hget, List.set_getElem_self]
  simp only [hlocks] at goes
  exact goes

end

/-! ## Requests -/

/-- What a request demands, if it is about sessions and valid. -/
def demand? (r : Request) : Option Demand :=
  match asked r with
  | some .createSession => some .create
  | some (.readMessages id) => some (.read id)
  | some (.deleteSession id) => some (.delete id)
  | some .runTask => (taskOf r).map .run
  | _ => none

/-- A thread answers a request as `handle` does, and leaves what that leaves. -/
def Answers (supply : Supply) (settings : Settings) (i : Nat) (ph : Phase) (s : Shared)
    (handled : Except Crash Answer × Store × World) : Prop :=
  ∃ outcome s', Goes supply settings i ph s (.answered outcome) s' ∧ Quiet supply s' ∧
    handled = (outcome.answer, s'.store, s'.world)

namespace Quiet

variable (quiet : Quiet supply s)
include quiet

/-- A task is run in a live session as by the service. -/
theorem answers_runIn (fresh : supply.Fresh) (settings : Settings) (i : Nat) (live : id ∈ s.ids)
    (task : String) :
    Answers supply settings i (.seeking id (.run task)) s (runIn id task s.store s.world) := by
  obtain ⟨k, l, a, hk, hl, ha, hlock, rfl⟩ := quiet.exists_lookup live
  rcases hrun : a.run task Agent.never s.world with ⟨ending, a', w⟩
  obtain ⟨ms, goes⟩ := goes_running quiet.registry hk hl ha hlock hrun
  refine ⟨_, _, goes, quiet.update k a' _, ?_⟩
  rw [runIn_eq (find?_store_eq_some hk hl ha) hrun,
    quiet.store_update fresh (List.getElem?_eq_some_iff.1 ha).1]
  exact congrArg (·, _, _) (answerRun_fst _ _ _ _)

theorem answers_create (settings : Settings) (i : Nat) (r : Request) :
    Answers supply settings i (.making none none) s
      (perform supply settings r .createSession s.store s.world) := by
  have hcreated : s.store.created = s.agents.length := rfl
  rw [perform, createSession_eq, hcreated]
  cases hmade : newAgent supply settings s.agents.length none with
  | error crash =>
    refine ⟨.failed crash, s, .next ?_ (.refl _ _), quiet, rfl⟩
    rw [act, hmade]
  | ok a =>
    refine ⟨_, _, goes_making quiet.registry hmade none, quiet.enter a _, ?_⟩
    rw [quiet.store_enter]
    rfl

theorem answers_read (settings : Settings) (i : Nat) (r : Request) (id : String) :
    Answers supply settings i (.seeking id .read) s
      (perform supply settings r (.readMessages id) s.store s.world) := by
  rw [perform]
  by_cases live : id ∈ s.ids
  · obtain ⟨k, l, a, hk, hl, hget, -, -⟩ := quiet.exists_lookup live
    rw [find?_store_eq_some hk hl hget]
    refine ⟨.read id k a.conversation, s, ?_, quiet, rfl⟩
    refine (goes_seeking quiet.registry hk hl .read).trans (.next ?_ (.refl _ _))
    rw [Use.next, act, hget]
  · have hk : s.sessions.lookup id = none := lookup_eq_none live
    rw [find?_store_eq_none hk]
    exact ⟨_, s, goes_seeking_none quiet.registry hk .read, quiet, rfl⟩

theorem answers_delete (settings : Settings) (i : Nat) (r : Request) (id : String) :
    Answers supply settings i (.seeking id .delete) s
      (perform supply settings r (.deleteSession id) s.store s.world) := by
  rw [perform]
  by_cases live : id ∈ s.ids
  · obtain ⟨k, l, a, hk, hl, hget, -, -⟩ := quiet.exists_lookup live
    rw [find?_store_eq_some hk hl hget]
    refine ⟨.deleted id, s.delete id, ?_, quiet.delete id, ?_⟩
    · exact (goes_seeking quiet.registry hk hl .delete).trans (goes_removing quiet.registry id)
    · rw [store_delete]
      rfl
  · have hk : s.sessions.lookup id = none := lookup_eq_none live
    rw [find?_store_eq_none hk]
    exact ⟨_, s, goes_seeking_none quiet.registry hk .delete, quiet, rfl⟩

theorem answers_runTask (fresh : supply.Fresh) (settings : Settings) (i : Nat) {d : Datum}
    {t : Task} (hd : Task.ofBody d = .ok t) :
    Answers supply settings i (.checking t) s (runTask supply settings d s.store s.world) := by
  have hcreated : s.store.created = s.agents.length := rfl
  have named : ∀ id ∈ s.store.ids, id ≠ "" := fun id hid =>
    quiet.ne_empty fresh (ids_store s ▸ hid)
  rw [runTask_eq named hd, ids_store, hcreated]
  by_cases live : t.sessionId ∈ s.ids
  · have hact : act supply settings i (.checking t) s =
        (.seeking t.sessionId (.run t.text), s) := by
      rw [act, if_pos]
      rw [Bool.and_eq_true_iff, List.contains_iff_mem, Bool.not_eq_true', ← Bool.not_eq_true,
        String.isEmpty_iff]
      exact ⟨quiet.ne_empty fresh live, live⟩
    rw [if_pos live]
    obtain ⟨outcome, s', goes, quiet', hhandled⟩ :=
      quiet.answers_runIn fresh settings i live t.text
    exact ⟨outcome, s', .next hact goes, quiet', hhandled⟩
  · have hact : act supply settings i (.checking t) s = (.making t.budget (some t.text), s) := by
      rw [act, if_neg]
      exact fun h => live (List.contains_iff_mem.1 (Bool.and_eq_true_iff.1 h).2)
    rw [if_neg live]
    cases hmade : newAgent supply settings s.agents.length t.budget with
    | error crash =>
      refine ⟨.failed crash, s, .next hact (.next ?_ (.refl _ _)), quiet, rfl⟩
      rw [act, hmade]
    | ok a =>
      have goes := goes_making (i := i) quiet.registry hmade (some t.text)
      have live' : supply.id s.agents.length ∈ (s.enter supply a (s.world.log logger .info
          s!"Created session {supply.id s.agents.length}")).ids := by
        rw [Shared.ids, Shared.enter, List.map_append]
        exact List.mem_append_right _ (List.mem_singleton_self _)
      obtain ⟨outcome, s', goes', quiet', hhandled⟩ :=
        (quiet.enter a _).answers_runIn fresh settings i live' t.text
      refine ⟨outcome, s', .next hact (goes.trans goes'), quiet', ?_⟩
      rw [← hhandled, quiet.store_enter]
      rfl

/-- A request about sessions is answered by the steps of a thread alone as by the service, which
leaves the same sessions. -/
theorem handle (fresh : supply.Fresh) (settings : Settings) (i : Nat) {r : Request} {d : Demand}
    (hr : demand? r = some d) :
    Answers supply settings i d.phase s (handle supply settings r s.store s.world) := by
  unfold demand? at hr
  cases ha : asked r with
  | none =>
    rw [ha] at hr
    cases hr
  | some action =>
    rw [ha] at hr
    cases action with
    | checkHealth | welcome | listSessions => cases hr
    | createSession =>
      cases hr
      rw [handle_of_asked ha]
      exact quiet.answers_create settings i r
    | readMessages id =>
      cases hr
      rw [handle_of_asked ha]
      exact quiet.answers_read settings i r id
    | deleteSession id =>
      cases hr
      rw [handle_of_asked ha]
      exact quiet.answers_delete settings i r id
    | runTask =>
      cases ht : taskOf r with
      | none =>
        rw [ht] at hr
        cases hr
      | some t =>
        rw [ht] at hr
        cases hr
        obtain ⟨b, hb, hrun⟩ := handle_of_task ha ht
        rw [hrun]
        exact quiet.answers_runTask fresh settings i hb

end Quiet

/-- The next requests are answered, one after the other, as by the service. -/
theorem Quiet.exists_run_serve (quiet : Quiet supply c.shared) (fresh : supply.Fresh)
    (settings : Settings) (requests : List Request) (first : Nat)
    (hc : ∀ n r, requests[n]? = some r →
      ∃ d, demand? r = some d ∧ c.threads (first + n) = d.phase) :
    ∃ (schedule : List Nat) (outcomes : List Outcome),
      serve supply settings requests c.shared.store c.shared.world =
        (outcomes.map Outcome.answer, (c.run supply settings schedule).shared.store,
          (c.run supply settings schedule).shared.world) ∧
      (∀ n outcome, outcomes[n]? = some outcome →
        (c.run supply settings schedule).threads (first + n) = .answered outcome) ∧
      ∀ j < first, (c.run supply settings schedule).threads j = c.threads j := by
  induction requests generalizing first c with
  | nil => exact ⟨[], [], rfl, nofun, fun _ _ => rfl⟩
  | cons r rest ih =>
    obtain ⟨d, hd, hphase⟩ := hc 0 r rfl
    obtain ⟨outcome, s', goes, quiet', hhandled⟩ := quiet.handle fresh settings first hd
    obtain ⟨n, hn⟩ := goes.exists_run c hphase rfl
    obtain ⟨schedule, outcomes, hserve, hanswered, hothers⟩ :=
      ih (c := c.set first (.answered outcome) s') quiet' (first + 1) fun m r hr => by
        obtain ⟨d, hd, hphase⟩ := hc (m + 1) r hr
        refine ⟨d, hd, ?_⟩
        rw [Config.threads_set_ne c (by omega), ← hphase, Nat.add_assoc, Nat.add_comm 1]
    -- the first thread comes to its answer alone, and the steps of the others leave it there
    refine ⟨List.replicate n first ++ schedule, outcome :: outcomes, ?_, ?_, ?_⟩
    · rw [Config.run_append, hn, serve, hhandled]
      dsimp only
      rw [Config.shared_set] at hserve
      rw [hserve, List.map_cons]
    · intro m o ho
      rw [Config.run_append, hn]
      cases m with
      | zero =>
        obtain rfl := Option.some.inj ho
        exact (hothers first (Nat.lt_succ_self _)).trans (Config.threads_set_self c _ _ _)
      | succ m =>
        have hm := hanswered m o ho
        rwa [Nat.add_assoc, Nat.add_comm 1] at hm
    · intro j hj
      rw [Config.run_append, hn, hothers j (Nat.lt_succ_of_lt hj),
        Config.threads_set_ne c (Nat.ne_of_lt hj)]

/-- After any interleaving that leaves no request half handled, threads that make their steps one
after the other answer requests about sessions as the service does that handles one at a time, and
leave the same sessions. -/
theorem Consistent.exists_run_serve (consistent : Consistent supply c) (fresh : supply.Fresh)
    (settings : Settings) (requests : List Request) (first : Nat)
    (resting : ∀ i, (∃ d : Demand, c.threads i = d.phase) ∨
      ∃ outcome, c.threads i = .answered outcome)
    (hc : ∀ n r, requests[n]? = some r →
      ∃ d, demand? r = some d ∧ c.threads (first + n) = d.phase) :
    ∃ (schedule : List Nat) (outcomes : List Outcome),
      serve supply settings requests c.shared.store c.shared.world =
        (outcomes.map Outcome.answer, (c.run supply settings schedule).shared.store,
          (c.run supply settings schedule).shared.world) ∧
      ∀ n outcome, outcomes[n]? = some outcome →
        (c.run supply settings schedule).threads (first + n) = .answered outcome := by
  have outside : ∀ i, ¬ (c.threads i).Inside := fun i => by
    obtain ⟨d, h⟩ | ⟨outcome, h⟩ := resting i
    · exact h ▸ not_inside_phase d
    · exact h ▸ not_false
  have idle : ∀ i, (c.threads i).lock? = none := fun i => by
    obtain ⟨d, h⟩ | ⟨outcome, h⟩ := resting i
    · exact h ▸ lock?_phase d
    · exact h ▸ rfl
  obtain ⟨schedule, outcomes, hserve, hanswered, -⟩ :=
    (consistent.quiet outside idle).exists_run_serve fresh settings requests first hc
  exact ⟨schedule, outcomes, hserve, hanswered⟩

end ScriptAgent.Service
