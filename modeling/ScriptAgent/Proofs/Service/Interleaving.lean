import ScriptAgent.Proofs.Service.Progress

/-!
# Requests in any interleaving

Whatever the order of the steps in which requests are handled, the runs on an agent are done one
after the other, the tables of the registry agree when nobody is inside, and what has been answered
about messages stays true (`run_orderly`). A task for a session that is deleted after the check is
lost (`Phase.Lost`); one for a session that stays live is run with the agent of that
(`Phase.Serves`).
-/

namespace ScriptAgent.Service

variable {supply : Supply} {settings : Settings} {c : Config} {i j k : Nat} {ph ph' : Phase}
  {s s' : Shared} {id task : String} {t : Task}

/-! ## A task for a session that has been deleted -/

/-- A thread has a task for a session whose agent it does not find. -/
def Phase.Lost (id task : String) (ph : Phase) : Prop :=
  ph = .seeking id (.run task) ∨ ph = .sought id (.run task) none ∨ ph = .answered (.unknown id)

/-- A lost task is answered by saying that there is no such session. -/
theorem Phase.Lost.eq_of_answered {outcome : Outcome}
    (lost : (Phase.answered outcome).Lost id task) :
    Phase.answered outcome = .answered (.unknown id) := by
  rcases lost with h | h | h
  · cases h
  · cases h
  · exact h

/-- A task for a session that is not live stays lost, and changes no agent. -/
theorem Phase.Lost.move (lost : ph.Lost id task) (missing : id ∉ s.ids)
    (move : Move supply settings i ph s ph' s') : ph'.Lost id task ∧ s'.agents = s.agents := by
  have hlookup : s.sessions.lookup id = none := lookup_eq_none missing
  rcases lost with rfl | rfl | rfl
  · cases move with
    | stay => exact ⟨.inl rfl, rfl⟩
    | seek => exact ⟨.inr (.inl (by rw [hlookup])), rfl⟩
  · cases move with
    | stay => exact ⟨.inr (.inl rfl), rfl⟩
    | miss => exact ⟨.inr (.inr rfl), rfl⟩
  · cases move with
    | stay => exact ⟨.inr (.inr rfl), rfl⟩

/-- A task for a session that has been deleted stays lost. -/
theorem Gone.lost_run (gone : Gone supply id c) (fresh : supply.Fresh) (settings : Settings)
    (lost : (c.threads i).Lost id task) (schedule : List Nat) :
    Gone supply id (c.run supply settings schedule) ∧
      ((c.run supply settings schedule).threads i).Lost id task := by
  refine Config.run_induction (P := fun c => Gone supply id c ∧ (c.threads i).Lost id task) ?_
    ⟨gone, lost⟩ schedule
  rintro c j ph s ⟨gone, lost⟩ move
  refine ⟨gone.move fresh move, ?_⟩
  by_cases hi : i = j
  · subst hi
    rw [Config.threads_set_self]
    exact (lost.move gone.missing move).1
  · rw [Config.threads_set_ne c hi]
    exact lost

/-! ## Any interleaving -/

/-- How requests about sessions are handled from a configuration on, whatever steps come next. -/
structure Orderly (supply : Supply) (settings : Settings) (c : Config) : Prop where
  /-- No agent has two runs in progress. -/
  one : ∀ k i j, (c.threads i).RunsOn k → (c.threads j).RunsOn k → i = j
  /-- The messages of an agent are those of the runs on it that have ended, one run after the
  other, and after them those of the run in progress, if there is one. -/
  log : ∀ (k : Nat) a, c.shared.agents[k]? = some a → ∃ past now : List Nat,
    a.conversation.messages = (past ++ now).flatMap (fun i => (c.threads i).written) ∧
    (past ++ now).Nodup ∧ now.length ≤ 1 ∧ (∀ i, i ∈ past ↔ (c.threads i).RanOn k) ∧
    ∀ i, i ∈ now ↔ (c.threads i).RunsOn k
  /-- A run has added its task and messages after it that are not the user's. -/
  whole : ∀ i job ms ending, c.threads i = .answered (.ran job ms ending) →
    Agent.Segment job.task ms
  begun : ∀ i job q ms, c.threads i = .running job q ms → ms = [] ∨ Agent.Segment job.task ms
  /-- Messages that have been read are always the beginning of those of the agent. -/
  history : ∀ i id k conversation, c.threads i = .answered (.read id k conversation) →
    id = supply.id k ∧ ∀ later, ∃ a, (c.run supply settings later).shared.agents[k]? = some a ∧
      conversation.messages <+: a.conversation.messages
  /-- When no thread is inside the registry, the same sessions have an agent and a lock. -/
  registry : c.shared.registry = none → c.shared.ids = c.shared.lockedIds
  /-- A task for a session that is deleted before its agent is looked up changes no agent. It is
  answered, and only by saying that there is no such session. -/
  deleted : ∀ i id task, c.threads i = .seeking id (.run task) → id ∉ c.shared.ids → ∀ later,
    ((c.run supply settings later).threads i).Lost id task ∧
    (c.run supply settings (later ++ [i])).shared.agents =
      (c.run supply settings later).shared.agents ∧
    ∃ more answer, (c.run supply settings (later ++ more)).threads i = .answered (.unknown id) ∧
      (Outcome.unknown id).answer = .ok answer ∧ answer.status = 404
  /-- A task for a session that stays live is run with the agent of that. -/
  live : ∀ i t, c.threads i = .checking t → t.sessionId ∈ c.shared.ids →
    ∃ k, c.shared.sessions.lookup t.sessionId = some k ∧
      ∀ later, (∀ earlier, earlier <+: later →
          t.sessionId ∈ (c.run supply settings earlier).shared.ids) →
        ((c.run supply settings later).threads i).Serves t k ∧
        ∃ more, ((c.run supply settings (later ++ more)).threads i).RanOn k

theorem Consistent.orderly (consistent : Consistent supply c) (fresh : supply.Fresh)
    (settings : Settings) : Orderly supply settings c := by
  obtain ⟨lockOf, tied⟩ := consistent.tied
  obtain ⟨writers, logged⟩ := consistent.logged
  have one : ∀ k i j, (c.threads i).RunsOn k → (c.threads j).RunsOn k → i = j :=
    fun k i j hi hj => tied.eq_of_busy consistent.held (busy?_eq_some_iff.2 hi)
      (busy?_eq_some_iff.2 hj)
  exact {
    one := one
    log k a ha := logged.split (one k) ha
    whole i job ms ending hi := by
      have sound := logged.sound i
      rw [hi] at sound
      exact sound
    begun i job q ms hi := by
      have sound := logged.sound i
      rw [hi] at sound
      cases q with
      | ready task => exact .inl sound.2
      | iterating left | executing left code | ended ending => exact .inr sound
    history i id k conversation hi := by
      have phase := tied.phase i
      rw [hi] at phase
      obtain ⟨a, ha, hprefix⟩ := consistent.recalled i id k conversation hi
      refine ⟨phase.1, fun later => ?_⟩
      obtain ⟨a', ha', hgrown⟩ := grown_run supply settings c later k a ha
      exact ⟨a', ha', hprefix.trans hgrown⟩
    registry := consistent.level.free
    deleted i id task hi missing later := by
      -- the agent has been entered before, so the session cannot become live again
      obtain ⟨k, hid, settled⟩ := tied.seeking i id task hi
      have gone : Gone supply id c := ⟨missing, k, hid, settled⟩
      obtain ⟨gone', lost⟩ := gone.lost_run fresh settings (.inl hi) later
      refine ⟨lost, ?_, ?_⟩
      · rw [Config.run_append]
        exact (lost.move gone'.missing (move_act supply settings i _ _)).2
      · obtain ⟨more, outcome, hmore, -⟩ :=
          (consistent.run fresh settings later).exists_answered fresh settings i
        have lost' := (gone'.lost_run fresh settings lost more).2
        rw [hmore] at lost'
        refine ⟨more, Service.unknown id, ?_, rfl, rfl⟩
        rw [Config.run_append, hmore]
        exact lost'.eq_of_answered
    live i t hi live := by
      obtain ⟨k, hk⟩ := mem_names_iff.1 live
      have hid := (tied.sessions _ (mem_of_lookup hk)).1
      refine ⟨k, hk, fun later hlive => ?_⟩
      have serves := consistent.serves_run fresh hid (by rw [hi]; rfl) later hlive
      obtain ⟨more, outcome, hmore, hserves⟩ :=
        (consistent.run fresh settings later).exists_answered fresh settings i
      refine ⟨serves, more, ?_⟩
      rw [Config.run_append, hmore]
      exact (hserves t k hid (hlive later List.prefix_rfl) serves).ranOn }

/-- Whatever the order of their steps, requests about sessions are handled in an orderly way. -/
theorem run_orderly (supply : Supply) (settings : Settings) (fresh : supply.Fresh)
    (demands : Nat → Demand) (w : World) (schedule : List Nat) :
    Orderly supply settings ((Config.start demands w).run supply settings schedule) :=
  ((consistent_start supply demands w).run fresh settings schedule).orderly fresh settings

/-- A session is created, and deleted after a task for it has been checked and before it is looked
up. The task is lost. -/
theorem run_orderly_plain :
    plainSupply.Fresh ∧
    ∃ more answer, ((((Config.start fun i =>
        [Demand.create, .run ⟨"a", some "s", none⟩, .delete "s"].getD i default) default).run
          plainSupply default [0, 0, 0, 1, 2, 2, 2, 2]).run plainSupply default more).threads 1 =
        .answered (.unknown "s") ∧
      (Outcome.unknown "s").answer = .ok answer ∧ answer.status = 404 := by
  have orderly := run_orderly plainSupply default fresh_plainSupply
    (fun i => [Demand.create, .run ⟨"a", some "s", none⟩, .delete "s"].getD i default) default
    [0, 0, 0, 1, 2, 2, 2, 2]
  obtain ⟨-, -, deleted⟩ := orderly.deleted 1 "s" "a" rfl (by decide +kernel) []
  exact ⟨fresh_plainSupply, deleted⟩

end ScriptAgent.Service
