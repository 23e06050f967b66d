import ScriptAgent.Proofs.Service.Ties

/-!
# The messages of agents

The messages of an agent are those of the runs on it, one run after the other (`Logged`). A run
begins with its task, and no run has the message of another between its own. What has been read of
the messages is the beginning of what there is later (`Recalled`).
-/

namespace ScriptAgent.Service

variable {supply : Supply} {settings : Settings} {c : Config} {i j k : Nat} {ph ph' : Phase}
  {s s' : Shared} {lockOf : Nat → Option Nat} {writers : Nat → List Nat}

/-! ## The messages of runs -/

/-- The messages that a thread has added. -/
def Phase.written : Phase → List Message
  | running _ _ ms | answered (.ran _ ms _) => ms
  | _ => []

/-- The agent that a thread runs a task on, or has run it on. -/
def Phase.agent? : Phase → Option Nat
  | running job _ _ | answered (.ran job _ _) => some job.agent
  | _ => none

/-- A thread has run a task on an agent. -/
def Phase.RanOn (k : Nat) (ph : Phase) : Prop :=
  ∃ job ms ending, ph = .answered (.ran job ms ending) ∧ job.agent = k

theorem agent?_eq_some_iff : ph.agent? = some k ↔ ph.RanOn k ∨ ph.RunsOn k := by
  unfold Phase.RanOn Phase.RunsOn
  cases ph with
  | running job q ms => simp [Phase.agent?]
  | answered outcome => cases outcome <;> simp [Phase.agent?]
  | _ => simp [Phase.agent?]

/-- A run that has ended is not in progress. -/
theorem Phase.RanOn.not_runsOn (ran : ph.RanOn j) : ¬ ph.RunsOn k := by
  obtain ⟨job, ms, ending, rfl, -⟩ := ran
  rintro ⟨job', q, ms', h, -⟩
  cases h

/-- What a thread has added belongs to its run. -/
def Phase.Sound : Phase → Prop
  | running job (.ready task) ms => task = job.task ∧ ms = []
  | running job _ ms | answered (.ran job ms _) => Agent.Segment job.task ms
  | _ => True

/-- The messages of agents are those of the runs on them: `writers` gives the threads that have run
a task on an agent, in order. -/
structure Logged (writers : Nat → List Nat) (c : Config) : Prop where
  log : ∀ k a, c.shared.agents[k]? = some a →
    a.conversation.messages = (writers k).flatMap fun j => (c.threads j).written
  nodup : ∀ k, (writers k).Nodup
  mem : ∀ k j, j ∈ writers k ↔ (c.threads j).agent? = some k
  /-- A run that is in progress is the last one. -/
  last : ∀ k j, (c.threads j).busy? = some k → (writers k).getLast? = some j
  sound : ∀ j, (c.threads j).Sound

theorem agent?_of_busy? (hk : ph.busy? = some k) : ph.agent? = some k := by
  cases ph with
  | running job q ms => exact hk
  | _ => cases hk

/-- A thread at this point has not begun with a run. -/
structure Phase.Idle (ph : Phase) : Prop where
  written : ph.written = []
  agent : ph.agent? = none
  sound : ph.Sound

theorem idle_phase (d : Demand) : d.phase.Idle := by
  cases d <;> exact ⟨rfl, rfl, trivial⟩

theorem idle_created (id : String) (task : Option String) : (created id task).Idle := by
  cases task <;> exact ⟨rfl, rfl, trivial⟩

theorem idle_next (use : Use) (id : String) (k l : Nat) : (use.next id k l).Idle := by
  cases use <;> exact ⟨rfl, rfl, trivial⟩

theorem Phase.Tied.lt_of_agent? {n : Nat} (tied : ph.Tied supply lockOf n)
    (hk : ph.agent? = some k) : k < n := by
  cases ph with
  | running job q ms => exact Option.some.inj hk ▸ tied.2.1
  | answered outcome =>
    cases outcome with
    | ran job ms ending => exact Option.some.inj hk ▸ tied.2
    | _ => cases hk
  | _ => cases hk

theorem conversation_newAgent {n : Nat} {budget : Option Int} {a : Agent}
    (hmade : newAgent supply settings n budget = .ok a) : a.conversation = .empty := by
  unfold newAgent at hmade
  split at hmade
  · cases hmade
  · dsimp only at hmade
    split at hmade
    · cases hmade
    · next hmake =>
      cases hmade
      unfold Agent.make at hmake
      split at hmake
      · cases hmake
      · split at hmake
        · cases hmake
        · cases hmake
          rfl

/-- What other threads have added stays. -/
theorem flatMap_written_set {js : List Nat} (hi : i ∉ js) (c : Config) (ph : Phase) (s : Shared) :
    (js.flatMap fun j => ((c.set i ph s).threads j).written) =
      js.flatMap fun j => (c.threads j).written := by
  refine List.flatMap_congr fun j hj => ?_
  have hji : j ≠ i := fun h => hi (h ▸ hj)
  rw [Config.threads_set_ne c hji]

theorem logged_start (demands : Nat → Demand) (w : World) :
    Logged (fun _ => []) (.start demands w) := by
  refine ⟨fun k a ha => ?_, fun _ => List.nodup_nil, fun k j => ?_, fun k j hj => ?_, fun j =>
    (idle_phase (demands j)).sound⟩
  · cases ha
  · rw [Config.start, (idle_phase (demands j)).agent]
    exact iff_of_false List.not_mem_nil (Option.some_ne_none k).symm
  · have hj := agent?_of_busy? hj
    rw [Config.start, (idle_phase (demands j)).agent] at hj
    cases hj

namespace Logged

section
variable (logged : Logged writers c)
include logged

/-- A move that has nothing to do with messages. -/
theorem quiet (hwritten : ph.written = (c.threads i).written)
    (hagent : ph.agent? = (c.threads i).agent?)
    (hbusy : ∀ k, ph.busy? = some k → (c.threads i).busy? = some k) (sound : ph.Sound)
    (agents : ∀ (k : Nat) a, s.agents[k]? = some a → c.shared.agents[k]? = some a ∨
      a.conversation.messages = [] ∧ writers k = []) : Logged writers (c.set i ph s) where
  log k a ha := by
    simp only [Config.apply_threads_set Phase.written hwritten]
    rcases agents k a ha with ha | ⟨hmessages, hwriters⟩
    · exact logged.log k a ha
    · rw [hmessages, hwriters, List.flatMap_nil]
  nodup := logged.nodup
  mem k j := by
    rw [Config.apply_threads_set Phase.agent? hagent]
    exact logged.mem k j
  last k := Config.forall_threads_set
    (p := fun j ph => ph.busy? = some k → (writers k).getLast? = some j)
    (fun hi => logged.last k i (hbusy k hi)) fun j _ => logged.last k j
  sound := Config.forall_threads_set (p := fun _ => Phase.Sound) sound fun j _ => logged.sound j

/-- A run begins when its lock has been taken. -/
theorem lock {job : Job} (tied : Tied supply lockOf c) (held : Held c)
    (hph : c.threads i = .waiting job) (free : c.shared.locks[job.lock]? = some none)
    (hs : s.agents = c.shared.agents) :
    Logged (Function.update writers job.agent (writers job.agent ++ [i]))
      (c.set i (.running job (.ready job.task) []) s) := by
  have hi : i ∉ writers job.agent := fun h => by
    rw [logged.mem, hph] at h
    cases h
  have hwritten : ∀ j, ((c.set i (.running job (.ready job.task) []) s).threads j).written =
      (c.threads j).written :=
    Config.apply_threads_set Phase.written (by rw [hph]; rfl) s
  refine
    { log := fun k a ha => ?_
      nodup := fun k => ?_
      mem := fun k => Config.forall_threads_set
        (p := fun j ph => j ∈ Function.update writers job.agent (writers job.agent ++ [i]) k ↔
          ph.agent? = some k) ?_ fun j hji => ?_
      last := fun k => Config.forall_threads_set
        (p := fun j ph => ph.busy? = some k →
          (Function.update writers job.agent (writers job.agent ++ [i]) k).getLast? = some j)
        (fun hk => ?_) fun j _ hj => ?_
      sound := Config.forall_threads_set (p := fun _ => Phase.Sound) ⟨rfl, rfl⟩
        fun j _ => logged.sound j }
  · simp only [hwritten]
    have hlog := logged.log k a (hs ▸ ha)
    by_cases hk : k = job.agent
    · rw [hk, Function.update_self, List.flatMap_append, List.flatMap_singleton, hph, ← hk]
      exact hlog.trans (List.append_nil _).symm
    · rw [Function.update_of_ne hk]
      exact hlog
  · by_cases hk : k = job.agent
    · rw [hk, Function.update_self, ← List.concat_eq_append]
      exact (logged.nodup job.agent).concat hi
    · rw [Function.update_of_ne hk]
      exact logged.nodup k
  · by_cases hk : k = job.agent
    · rw [hk, Function.update_self]
      exact iff_of_true (List.mem_append_right _ (List.mem_singleton_self i)) rfl
    · rw [Function.update_of_ne hk, logged.mem, hph]
      exact iff_of_false nofun fun h => hk (Option.some.inj h).symm
  · rw [← logged.mem]
    by_cases hk : k = job.agent
    · rw [hk, Function.update_self, List.mem_append, List.mem_singleton, or_iff_left hji]
    · rw [Function.update_of_ne hk]
  · rw [← Option.some.inj hk, Function.update_self]
    exact List.getLast?_concat
  · -- no other thread runs on the agent, for it would hold the lock
    have hk : k ≠ job.agent := fun hk => by
      obtain ⟨l, hl, hlocked⟩ := tied.locked_of_busy held hj
      have phase := tied.phase i
      rw [hph] at phase
      obtain rfl := Option.some.inj (phase.2.2.symm.trans (hk ▸ hl))
      cases free.symm.trans hlocked
    rw [Function.update_of_ne hk]
    exact logged.last k j hj

/-- A run adds messages to those of its agent. -/
theorem advance {job : Job} {q q' : Agent.Progress} {ms more : List Message} {a a' : Agent}
    (hph : c.threads i = .running job q ms) (agent : c.shared.agents[job.agent]? = some a)
    (messages : a'.conversation.messages = a.conversation.messages ++ more)
    (adds : q.Adds more) (next : ∀ task, q' ≠ .ready task)
    (hs : s.agents = c.shared.agents.set job.agent a') :
    Logged writers (c.set i (.running job q' (ms ++ more)) s) := by
  have hagent : (c.threads i).agent? = some job.agent := by rw [hph]; rfl
  have hbusy : (c.threads i).busy? = some job.agent := by rw [hph]; rfl
  refine
    { log := fun k b hb => ?_
      nodup := logged.nodup
      mem := fun k j => ?_
      last := fun k j hj => ?_
      sound := Config.forall_threads_set (p := fun _ => Phase.Sound) ?_
        fun j _ => logged.sound j }
  · rw [Config.shared_set, hs, List.getElem?_set] at hb
    by_cases hk : job.agent = k
    · subst hk
      obtain ⟨hlt, -⟩ := List.getElem?_eq_some_iff.1 agent
      rw [if_pos rfl, if_pos hlt] at hb
      obtain rfl := Option.some.inj hb
      -- the thread comes last among those that have run on the agent
      obtain ⟨before, hbefore⟩ := List.getLast?_eq_some_iff.1 (logged.last _ i hbusy)
      have hi : i ∉ before := fun h => by
        have hnodup := logged.nodup job.agent
        rw [hbefore] at hnodup
        exact (List.nodup_append.1 hnodup).2.2 i h i (List.mem_singleton_self i) rfl
      have hlog := logged.log _ a agent
      rw [hbefore, List.flatMap_append, List.flatMap_singleton, hph] at hlog
      rw [messages, hlog, hbefore, List.flatMap_append, List.flatMap_singleton,
        Config.threads_set_self, flatMap_written_set hi]
      exact List.append_assoc _ _ _
    · rw [if_neg hk] at hb
      have hi : i ∉ writers k := fun h => by
        rw [logged.mem, hagent] at h
        exact hk (Option.some.inj h)
      rw [flatMap_written_set hi]
      exact logged.log k b hb
  · rw [Config.apply_threads_set Phase.agent? (by rw [hph]; rfl)]
    exact logged.mem k j
  · rw [Config.apply_threads_set Phase.busy? (by rw [hph]; rfl)] at hj
    exact logged.last k j hj
  · have sound := logged.sound i
    rw [hph] at sound
    have hsegment : Agent.Segment job.task (ms ++ more) := by
      cases q with
      | ready task =>
        obtain ⟨rfl, rfl⟩ := sound
        exact ⟨[], adds, Agent.replies_nil⟩
      | iterating left | executing left code | ended ending =>
        exact sound.append (adds.replies nofun)
    cases q' with
    | ready task => exact absurd rfl (next task)
    | iterating left | executing left code | ended ending => exact hsegment

/-- A thread that has not begun with a run makes a move and still has not. -/
theorem idle (i : Nat) (ph : Phase) (s : Shared) (before : (c.threads i).Idle) (after : ph.Idle)
    (agents : ∀ (k : Nat) a, s.agents[k]? = some a → c.shared.agents[k]? = some a ∨
      a.conversation.messages = [] ∧ writers k = []) : Logged writers (c.set i ph s) := by
  refine logged.quiet (after.written.trans before.written.symm)
    (after.agent.trans before.agent.symm) (fun k hk => ?_) after.sound agents
  cases after.agent.symm.trans (agent?_of_busy? hk)

end

/-- After every move, the messages of agents are those of the runs on them. -/
theorem move (logged : Logged writers c) (tied : Tied supply lockOf c) (held : Held c)
    (move : Move supply settings i (c.threads i) c.shared ph s) :
    ∃ writers', Logged writers' (c.set i ph s) := by
  have idle := logged.idle i ph s
  have sound := logged.sound i
  generalize hph : c.threads i = before at move idle sound
  generalize hs : c.shared = shared at move idle
  cases move with
  | stay =>
    subst hph hs
    rw [Config.set_same]
    exact ⟨writers, logged⟩
  | found | absent | failed | enter | seek | miss | remove | delete | read =>
    exact ⟨writers, idle ⟨rfl, rfl, trivial⟩ ⟨rfl, rfl, trivial⟩ fun _ _ => .inl⟩
  | create =>
    exact ⟨writers, idle ⟨rfl, rfl, trivial⟩ (idle_created _ _) fun _ _ => .inl⟩
  | find => exact ⟨writers, idle ⟨rfl, rfl, trivial⟩ (idle_next _ _ _ _) fun _ _ => .inl⟩
  | made hmade =>
    refine ⟨writers, idle ⟨rfl, rfl, trivial⟩ ⟨rfl, rfl, trivial⟩ fun k b hb => ?_⟩
    rw [List.getElem?_append] at hb
    split at hb
    · exact .inl hb
    · next hk =>
      have hb := List.mem_singleton.1 (List.mem_of_getElem? hb)
      refine .inr ⟨by rw [hb, conversation_newAgent hmade]; rfl, ?_⟩
      refine List.eq_nil_iff_forall_not_mem.2 fun j hj => hk ?_
      rw [← hs]
      exact (tied.phase j).lt_of_agent? ((logged.mem k j).1 hj)
  | lock free =>
    subst hs
    exact ⟨_, logged.lock tied held hph free rfl⟩
  | @advance job q q' ms more _ a a' w agent step messages adds =>
    subst hs
    refine ⟨writers, logged.advance hph agent messages adds (fun task hq => ?_) rfl⟩
    exact a.advance_ne_ready q c.shared.world task (by rw [step, hq])
  | finish =>
    subst hs
    exact ⟨writers, logged.quiet (by rw [hph]; rfl) (by rw [hph]; rfl) nofun sound
      fun _ _ => .inl⟩

/-- The messages of an agent are those of the runs on it that have ended, and those of the run in
progress. -/
theorem split (logged : Logged writers c)
    (one : ∀ i j, (c.threads i).RunsOn k → (c.threads j).RunsOn k → i = j) {a : Agent}
    (ha : c.shared.agents[k]? = some a) :
    ∃ past now : List Nat,
      a.conversation.messages = (past ++ now).flatMap (fun i => (c.threads i).written) ∧
      (past ++ now).Nodup ∧ now.length ≤ 1 ∧ (∀ i, i ∈ past ↔ (c.threads i).RanOn k) ∧
      ∀ i, i ∈ now ↔ (c.threads i).RunsOn k := by
  have hmem : ∀ i, i ∈ writers k ↔ (c.threads i).RanOn k ∨ (c.threads i).RunsOn k :=
    fun i => (logged.mem k i).trans agent?_eq_some_iff
  by_cases hnow : ∃ i, (c.threads i).RunsOn k
  · obtain ⟨i, hi⟩ := hnow
    have hlast := logged.last k i (busy?_eq_some_iff.2 hi)
    obtain ⟨past, hpast⟩ := List.getLast?_eq_some_iff.1 hlast
    have hnodup := logged.nodup k
    rw [hpast] at hnodup
    refine ⟨past, [i], hpast ▸ logged.log k a ha, hnodup, Nat.le_refl 1, fun j => ⟨fun hj => ?_,
      fun hj => ?_⟩, fun j => ⟨fun hj => List.mem_singleton.1 hj ▸ hi, fun hj => ?_⟩⟩
    · refine ((hmem j).1 (hpast ▸ List.mem_append_left _ hj)).resolve_right fun hruns => ?_
      exact (List.nodup_append.1 hnodup).2.2 j hj i (List.mem_singleton_self i) (one j i hruns hi)
    · have hwriter := (hmem j).2 (.inl hj)
      rw [hpast, List.mem_append, List.mem_singleton] at hwriter
      exact hwriter.resolve_right fun h => hj.not_runsOn (h ▸ hi)
    · exact List.mem_singleton.2 (one j i hj hi)
  · refine ⟨writers k, [], ?_, ?_, Nat.zero_le 1, fun j => ?_, fun j => ?_⟩
    · rw [List.append_nil]
      exact logged.log k a ha
    · rw [List.append_nil]
      exact logged.nodup k
    · exact (hmem j).trans (or_iff_left fun h => hnow ⟨j, h⟩)
    · exact iff_of_false List.not_mem_nil fun h => hnow ⟨j, h⟩

end Logged

/-! ## What has been read -/

/-- All agents are still there, and their messages have not been changed, only added to. -/
def Grown (s s' : Shared) : Prop :=
  ∀ (k : Nat) a, s.agents[k]? = some a →
    ∃ a', s'.agents[k]? = some a' ∧ a.conversation.messages <+: a'.conversation.messages

theorem Grown.refl (s : Shared) : Grown s s := fun _ a ha => ⟨a, ha, List.prefix_rfl⟩

theorem Grown.trans {s'' : Shared} (first : Grown s s') (rest : Grown s' s'') : Grown s s'' := by
  intro k a ha
  obtain ⟨a', ha', hfirst⟩ := first k a ha
  obtain ⟨a'', ha'', hrest⟩ := rest k a' ha'
  exact ⟨a'', ha'', hfirst.trans hrest⟩

/-- A move adds to messages at most. -/
theorem Move.grown (move : Move supply settings i ph s ph' s') : Grown s s' := by
  intro k a ha
  cases move with
  | made =>
    refine ⟨a, ?_, List.prefix_rfl⟩
    rw [List.getElem?_append_left (List.getElem?_eq_some_iff.1 ha).1]
    exact ha
  | @advance job q q' ms more _ b b' w agent step messages adds =>
    by_cases hk : job.agent = k
    · subst hk
      obtain rfl := Option.some.inj (ha.symm.trans agent)
      refine ⟨b', ?_, more, messages.symm⟩
      rw [List.getElem?_set_self (List.getElem?_eq_some_iff.1 ha).1]
    · exact ⟨a, (List.getElem?_set_ne hk).trans ha, List.prefix_rfl⟩
  | stay | found | absent | failed | enter | create | seek | find | miss | lock | finish | remove
  | delete | read => exact ⟨a, ha, List.prefix_rfl⟩

/-- Steps of threads add to messages at most. -/
theorem grown_run (supply : Supply) (settings : Settings) (c : Config) (schedule : List Nat) :
    Grown c.shared (c.run supply settings schedule).shared :=
  c.run_induction (P := fun c' => Grown c.shared c'.shared)
    (fun _ _ _ _ grown move => grown.trans move.grown) (.refl _) schedule

/-- What has been read of the messages of agents is the beginning of what there is. -/
def Recalled (c : Config) : Prop :=
  ∀ i id k conversation, c.threads i = .answered (.read id k conversation) →
    ∃ a, c.shared.agents[k]? = some a ∧ conversation.messages <+: a.conversation.messages

theorem recalled_start (demands : Nat → Demand) (w : World) : Recalled (.start demands w) := by
  intro i id k conversation hi
  rw [Config.start] at hi
  cases h : demands i <;> simp [h, Demand.phase] at hi

/-- What a move reads are the messages that there are. -/
theorem Move.of_read {id : String} {conversation : Conversation}
    (move : Move supply settings i ph s ph' s')
    (hread : ph' = .answered (.read id k conversation)) :
    ph = ph' ∨ ∃ a, s.agents[k]? = some a ∧ conversation = a.conversation := by
  cases move with
  | stay => exact .inl rfl
  | read agent =>
    cases hread
    exact .inr ⟨_, agent, rfl⟩
  | @create m task => cases task <;> cases hread
  | @find id use => cases use <;> cases hread
  | found | absent | failed | made | enter | seek | miss | lock | advance | finish | remove
  | delete => cases hread

theorem Recalled.move (recalled : Recalled c)
    (move : Move supply settings i (c.threads i) c.shared ph s) : Recalled (c.set i ph s) := by
  have grow : ∀ {k : Nat} {conversation : Conversation},
      (∃ a, c.shared.agents[k]? = some a ∧
        conversation.messages <+: a.conversation.messages) →
      ∃ a, s.agents[k]? = some a ∧ conversation.messages <+: a.conversation.messages := by
    rintro k conversation ⟨a, ha, hprefix⟩
    obtain ⟨a', ha', hgrown⟩ := move.grown k a ha
    exact ⟨a', ha', hprefix.trans hgrown⟩
  refine Config.forall_threads_set
    (p := fun _ ph' => ∀ id k conversation, ph' = .answered (.read id k conversation) →
      ∃ a, s.agents[k]? = some a ∧ conversation.messages <+: a.conversation.messages)
    (fun id k conversation hi => grow ?_)
    fun j _ id k conversation hj => grow (recalled j id k conversation hj)
  obtain hph | ⟨a, ha, rfl⟩ := move.of_read hi
  · exact recalled i id k conversation (hph.trans hi)
  · exact ⟨a, ha, List.prefix_rfl⟩

end ScriptAgent.Service
