import ScriptAgent.Proofs.Service.Locks

/-!
# Sessions, their agents and their locks

A session has one agent and one lock for its whole life, and after it for the threads that have
found it before it was deleted (`Tied`). As names of sessions are fresh, neither is ever that of
another session. So an agent never has two runs at the same time (`Tied.eq_of_busy`), and a session
that has been deleted never comes back (`Gone`).
-/

namespace ScriptAgent.Service

variable {supply : Supply} {settings : Settings} {c : Config} {i j k n : Nat} {ph ph' : Phase}
  {s s' : Shared} {id : String} {lockOf : Nat → Option Nat}

/-! ## Sessions that have been entered -/

/-- The agent that a thread is about to enter in the registry. -/
def Phase.pending? : Phase → Option Nat
  | entering k _ => some k
  | _ => none

/-- An agent has been entered in the registry, now or in the past. -/
structure Settled (c : Config) (k : Nat) : Prop where
  made : k < c.shared.agents.length
  entered : ∀ j, (c.threads j).pending? ≠ some k

/-- No agent is lost. -/
theorem Move.length_agents_le (move : Move supply settings i ph s ph' s') :
    s.agents.length ≤ s'.agents.length := by
  cases move with
  | made => simp
  | advance => simp
  | stay | found | absent | failed | enter | create | seek | find | miss | lock | finish | remove
  | delete | read => exact Nat.le_refl _

/-- No lock for runs is lost. -/
theorem Move.length_locks_le (move : Move supply settings i ph s ph' s') :
    s.locks.length ≤ s'.locks.length := by
  cases move with
  | create => simp
  | lock | finish => simp
  | stay | found | absent | failed | made | enter | seek | find | miss | advance | remove
  | delete | read => exact Nat.le_refl _

theorem pending?_created (id : String) (task : Option String) :
    (created id task).pending? = none := by
  cases task <;> rfl

theorem pending?_next (use : Use) (id : String) (k l : Nat) :
    (use.next id k l).pending? = none := by
  cases use <;> rfl

/-- An agent that is about to be entered has just been made. -/
theorem Move.pending (move : Move supply settings i ph s ph' s') (hk : ph'.pending? = some k) :
    ph.pending? = some k ∨ s.agents.length ≤ k := by
  cases move with
  | stay => exact .inl hk
  | made => exact .inr (Nat.le_of_eq (Option.some.inj hk))
  | create => rw [pending?_created] at hk; cases hk
  | find => rw [pending?_next] at hk; cases hk
  | found | absent | failed | enter | seek | miss | lock | advance | finish | remove | delete
  | read => cases hk

/-- An agent that has been entered is not entered again. -/
theorem Settled.move (settled : Settled c k)
    (move : Move supply settings i (c.threads i) c.shared ph s) : Settled (c.set i ph s) k := by
  refine ⟨Nat.lt_of_lt_of_le settled.made move.length_agents_le, ?_⟩
  exact Config.forall_threads_set (p := fun _ ph => ph.pending? ≠ some k)
    (fun hk => (move.pending hk).elim (settled.entered i) (Nat.not_le_of_lt settled.made))
    fun j _ => settled.entered j

/-! ## What belongs together -/

/-- The agent of the session that a thread is making. -/
def Phase.new? : Phase → Option Nat
  | entering k _ | entered k _ => some k
  | _ => none

/-- What a thread has found belongs together: `lockOf` gives the locks of agents, and there are `n`
agents. -/
def Phase.Tied (supply : Supply) (lockOf : Nat → Option Nat) (n : Nat) : Phase → Prop
  | entering k _ | entered k _ => k < n ∧ lockOf k = none
  | sought id _ (some k) | reading id k | answered (.read id k _) => id = supply.id k ∧ k < n
  | waiting job | running job _ _ =>
    job.id = supply.id job.agent ∧ job.agent < n ∧ lockOf job.agent = some job.lock
  | answered (.ran job _ _) => job.id = supply.id job.agent ∧ job.agent < n
  | _ => True

/-- Agents and locks belong together, in the registry and for each thread. -/
structure Tied (supply : Supply) (lockOf : Nat → Option Nat) (c : Config) : Prop where
  phase : ∀ i, (c.threads i).Tied supply lockOf c.shared.agents.length
  /-- No two threads make the same session. -/
  new : ∀ i j k, (c.threads i).new? = some k → (c.threads j).new? = some k → i = j
  unmade : ∀ k, c.shared.agents.length ≤ k → lockOf k = none
  bound : ∀ k l, lockOf k = some l → l < c.shared.locks.length
  sessions : ∀ e ∈ c.shared.sessions, e.1 = supply.id e.2 ∧ Settled c e.2
  locks : ∀ e ∈ c.shared.runLocks, ∃ k, e.1 = supply.id k ∧ lockOf k = some e.2
  /-- A session that a task is to be run in has been entered. -/
  seeking : ∀ i id task, c.threads i = .seeking id (.run task) →
    ∃ k, id = supply.id k ∧ Settled c k

/-- What belongs together does so when there are more agents and locks. -/
theorem Phase.Tied.mono {lockOf' : Nat → Option Nat} {n' : Nat} (tied : ph.Tied supply lockOf n)
    (hn : n ≤ n') (kept : ∀ k l, lockOf k = some l → lockOf' k = some l)
    (new : ∀ k, ph.new? = some k → lockOf' k = none) : ph.Tied supply lockOf' n' := by
  cases ph with
  | entering k task | entered k task => exact ⟨Nat.lt_of_lt_of_le tied.1 hn, new k rfl⟩
  | waiting job | running job q ms =>
    exact ⟨tied.1, Nat.lt_of_lt_of_le tied.2.1 hn, kept _ _ tied.2.2⟩
  | reading id k => exact ⟨tied.1, Nat.lt_of_lt_of_le tied.2 hn⟩
  | sought id use agent =>
    cases agent with
    | none => trivial
    | some k => exact ⟨tied.1, Nat.lt_of_lt_of_le tied.2 hn⟩
  | answered outcome =>
    cases outcome with
    | ran job ms ending => exact ⟨tied.1, Nat.lt_of_lt_of_le tied.2 hn⟩
    | read id k conversation => exact ⟨tied.1, Nat.lt_of_lt_of_le tied.2 hn⟩
    | created | failed | unknown | deleted => trivial
  | checking | making | seeking | removing | removed => trivial

theorem Phase.Tied.lt_of_new (tied : ph.Tied supply lockOf n) (hk : ph.new? = some k) : k < n := by
  cases ph with
  | entering m task | entered m task => exact Option.some.inj hk ▸ tied.1
  | _ => cases hk

theorem Phase.Tied.lockOf_eq_none (tied : ph.Tied supply lockOf n) (hk : ph.new? = some k) :
    lockOf k = none := by
  cases ph with
  | entering m task | entered m task => exact Option.some.inj hk ▸ tied.2
  | _ => cases hk

theorem new?_eq_of_pending? (hk : ph.pending? = some k) : ph.new? = some k := by
  cases ph with
  | entering m task => exact hk
  | _ => cases hk

theorem new?_phase (d : Demand) : d.phase.new? = none := by
  cases d <;> rfl

theorem new?_created (id : String) (task : Option String) : (created id task).new? = none := by
  cases task <;> rfl

theorem new?_next (use : Use) (id : String) (k l : Nat) : (use.next id k l).new? = none := by
  cases use <;> rfl

theorem phase_ne_seeking (d : Demand) (id task : String) :
    d.phase ≠ .seeking id (.run task) := by
  cases d <;> exact nofun

theorem tied_phase (supply : Supply) (lockOf : Nat → Option Nat) (n : Nat) (d : Demand) :
    d.phase.Tied supply lockOf n := by
  cases d <;> trivial

theorem tied_start (supply : Supply) (demands : Nat → Demand) (w : World) :
    Tied supply (fun _ => none) (.start demands w) := by
  refine ⟨fun i => tied_phase supply _ 0 (demands i), fun i j k hi => ?_, fun _ _ => rfl, nofun,
    nofun, nofun, fun i id task hi => absurd hi (phase_ne_seeking (demands i) id task)⟩
  rw [Config.start, new?_phase] at hi
  cases hi

namespace Tied

section
variable (tied : Tied supply lockOf c)
include tied

/-- A live session has the agent with which it was made. -/
theorem of_mem_ids (hid : id ∈ c.shared.ids) :
    ∃ k, (id, k) ∈ c.shared.sessions ∧ id = supply.id k ∧ Settled c k := by
  obtain ⟨⟨_, k⟩, he, rfl⟩ := List.mem_map.1 hid
  exact ⟨k, he, tied.sessions _ he⟩

/-- What belongs together does so after a move if what is new does. -/
theorem set (lockOf' : Nat → Option Nat)
    (move : Move supply settings i (c.threads i) c.shared ph s)
    (kept : ∀ k l, lockOf k = some l → lockOf' k = some l)
    (others : ∀ j k, j ≠ i → (c.threads j).new? = some k → lockOf' k = none ∧ ph.new? ≠ some k)
    (unmade : ∀ k, s.agents.length ≤ k → lockOf' k = none)
    (bound : ∀ k l, lockOf' k = some l → l < s.locks.length)
    (phase : ph.Tied supply lockOf' s.agents.length)
    (sessions : ∀ e ∈ s.sessions, e ∈ c.shared.sessions ∨
      e.1 = supply.id e.2 ∧ Settled (c.set i ph s) e.2)
    (locks : ∀ e ∈ s.runLocks, e ∈ c.shared.runLocks ∨
      ∃ k, e.1 = supply.id k ∧ lockOf' k = some e.2)
    (seeking : ∀ id task, ph = .seeking id (.run task) →
      ∃ k, id = supply.id k ∧ Settled (c.set i ph s) k) :
    Tied supply lockOf' (c.set i ph s) where
  phase := Config.forall_threads_set (p := fun _ ph => ph.Tied supply lockOf' s.agents.length)
    phase fun j hj =>
      (tied.phase j).mono move.length_agents_le kept fun k hk => (others j k hj hk).1
  new j m k hj hm := by
    by_cases hji : j = i <;> by_cases hmi : m = i
    · exact hji.trans hmi.symm
    · rw [hji, Config.threads_set_self] at hj
      rw [Config.threads_set_ne c hmi] at hm
      exact absurd hj (others m k hmi hm).2
    · rw [Config.threads_set_ne c hji] at hj
      rw [hmi, Config.threads_set_self] at hm
      exact absurd hm (others j k hji hj).2
    · rw [Config.threads_set_ne c hji] at hj
      rw [Config.threads_set_ne c hmi] at hm
      exact tied.new j m k hj hm
  unmade := unmade
  bound := bound
  sessions e he := by
    rcases sessions e he with he | he
    · exact ⟨(tied.sessions e he).1, (tied.sessions e he).2.move move⟩
    · exact he
  locks e he := by
    rcases locks e he with he | he
    · obtain ⟨k, hid, hlock⟩ := tied.locks e he
      exact ⟨k, hid, kept k _ hlock⟩
    · exact he
  seeking := Config.forall_threads_set
    (p := fun _ ph' => ∀ id task, ph' = .seeking id (.run task) →
      ∃ k, id = supply.id k ∧ Settled (c.set i ph s) k) seeking fun j _ id task hj => by
        obtain ⟨k, hid, settled⟩ := tied.seeking j id task hj
        exact ⟨k, hid, settled.move move⟩

/-- A move that adds no agent, no session and no lock leaves together what belongs together. -/
theorem keep (move : Move supply settings i (c.threads i) c.shared ph s)
    (agents : s.agents.length = c.shared.agents.length)
    (sessions : s.sessions ⊆ c.shared.sessions) (locks : s.runLocks ⊆ c.shared.runLocks)
    (new : ph.new? = none) (phase : ph.Tied supply lockOf c.shared.agents.length)
    (seeking : ∀ id task, ph = .seeking id (.run task) → ∃ k, id = supply.id k ∧ Settled c k) :
    Tied supply lockOf (c.set i ph s) := by
  refine tied.set lockOf move (fun _ _ => id) (fun j k _ hk => ?_) (agents ▸ tied.unmade)
    (fun k l hl => Nat.lt_of_lt_of_le (tied.bound k l hl) move.length_locks_le)
    (agents.symm ▸ phase) (fun e he => .inl (sessions he)) (fun e he => .inl (locks he)) ?_
  · exact ⟨(tied.phase j).lockOf_eq_none hk, new ▸ nofun⟩
  · intro id task hph
    obtain ⟨k, hid, settled⟩ := seeking id task hph
    exact ⟨k, hid, settled.move move⟩

end

/-- A session that no thread but one is making has been entered once that thread has done so. -/
theorem settled_set (tied : Tied supply lockOf c) (i : Nat) (ph : Phase) (s : Shared) (k : Nat)
    (hn : s.agents.length = c.shared.agents.length)
    (hk : (c.threads i).new? = some k) (hph : ph.pending? = none) : Settled (c.set i ph s) k := by
  refine ⟨hn ▸ (tied.phase i).lt_of_new hk, ?_⟩
  exact Config.forall_threads_set (p := fun _ ph => ph.pending? ≠ some k) (hph ▸ nofun)
    fun j hji hj => hji (tied.new j i k (new?_eq_of_pending? hj) hk)

/-- No other thread makes the same session. -/
theorem new_ne (tied : Tied supply lockOf c) (hi : (c.threads i).new? = some k) {m : Nat}
    (hj : j ≠ i) (hm : (c.threads j).new? = some m) : m ≠ k :=
  fun h => hj (tied.new j i m hm (h ▸ hi))

/-- An agent is made, which has no lock yet. -/
theorem make (tied : Tied supply lockOf c) {a : Agent} {task : Option String}
    (move : Move supply settings i (c.threads i) c.shared (.entering c.shared.agents.length task)
      { c.shared with agents := c.shared.agents ++ [a] }) :
    Tied supply lockOf (c.set i (.entering c.shared.agents.length task)
      { c.shared with agents := c.shared.agents ++ [a] }) := by
  refine tied.set lockOf move (fun _ _ => id) (fun j k _ hk => ?_) (fun k hk => ?_) tied.bound ?_
    (fun _ => .inl) (fun _ => .inl) nofun
  · refine ⟨(tied.phase j).lockOf_eq_none hk, fun h => ?_⟩
    have hlt := (tied.phase j).lt_of_new hk
    rw [← Option.some.inj h] at hlt
    exact Nat.lt_irrefl _ hlt
  · rw [List.length_append] at hk
    exact tied.unmade k (Nat.le_of_succ_le hk)
  · rw [List.length_append]
    exact ⟨Nat.lt_succ_self _, tied.unmade _ (Nat.le_refl _)⟩

/-- An agent is entered in the registry. -/
theorem enter (tied : Tied supply lockOf c) {task : Option String}
    (hph : c.threads i = .entering k task)
    (move : Move supply settings i (c.threads i) c.shared (.entered k task) { c.shared with
      registry := some i, sessions := c.shared.sessions ++ [(supply.id k, k)] }) :
    Tied supply lockOf (c.set i (.entered k task) { c.shared with
      registry := some i, sessions := c.shared.sessions ++ [(supply.id k, k)] }) := by
  have hi : (c.threads i).new? = some k := by rw [hph]; rfl
  refine tied.set lockOf move (fun _ _ => id) (fun j m hj hm => ?_) tied.unmade tied.bound ?_
    (fun e he => ?_) (fun _ => .inl) nofun
  · exact ⟨(tied.phase j).lockOf_eq_none hm,
      fun h => tied.new_ne hi hj hm (Option.some.inj h).symm⟩
  · have phase := tied.phase i
    rw [hph] at phase
    exact phase
  · rcases List.mem_append.1 he with he | he
    · exact .inl he
    · obtain rfl := List.mem_singleton.1 he
      exact .inr ⟨rfl, tied.settled_set i _ _ k rfl hi rfl⟩

/-- A new lock becomes that of an agent that has been entered. -/
theorem create (tied : Tied supply lockOf c) {task : Option String} {w : World}
    (hph : c.threads i = .entered k task)
    (move : Move supply settings i (c.threads i) c.shared (created (supply.id k) task)
      { c.shared with
        registry := none
        locks := c.shared.locks ++ [none]
        runLocks := c.shared.runLocks ++ [(supply.id k, c.shared.locks.length)]
        world := w }) :
    Tied supply (Function.update lockOf k (some c.shared.locks.length))
      (c.set i (created (supply.id k) task) { c.shared with
        registry := none
        locks := c.shared.locks ++ [none]
        runLocks := c.shared.runLocks ++ [(supply.id k, c.shared.locks.length)]
        world := w }) := by
  have hi : (c.threads i).new? = some k := by rw [hph]; rfl
  refine tied.set _ move (fun m l hm => ?_) (fun j m hj hm => ⟨?_, ?_⟩) (fun m hm => ?_)
    (fun m l hm => ?_) ?_ (fun _ => .inl) (fun e he => ?_) (fun id text hseek => ?_)
  · -- the agent had no lock, so the lock of no other is changed
    have hmk : m ≠ k := fun h => by
      rw [h, (tied.phase i).lockOf_eq_none hi] at hm
      cases hm
    rw [Function.update_of_ne hmk, hm]
  · rw [Function.update_of_ne (tied.new_ne hi hj hm)]
    exact (tied.phase j).lockOf_eq_none hm
  · rw [new?_created]
    exact nofun
  · have hmk : m ≠ k := fun h => Nat.not_le_of_lt ((tied.phase i).lt_of_new hi) (h ▸ hm)
    rw [Function.update_of_ne hmk]
    exact tied.unmade m hm
  · rw [List.length_append]
    by_cases hmk : m = k
    · rw [hmk, Function.update_self] at hm
      rw [← Option.some.inj hm]
      exact Nat.lt_succ_self _
    · rw [Function.update_of_ne hmk] at hm
      exact Nat.lt_succ_of_lt (tied.bound m l hm)
  · cases task <;> trivial
  · rcases List.mem_append.1 he with he | he
    · exact .inl he
    · obtain rfl := List.mem_singleton.1 he
      exact .inr ⟨k, rfl, Function.update_self k _ lockOf⟩
  · cases task with
    | none => cases hseek
    | some text =>
      cases hseek
      exact ⟨k, rfl, tied.settled_set i _ _ k rfl hi rfl⟩

/-- Every move leaves together what belongs together. -/
theorem move (tied : Tied supply lockOf c) (fresh : supply.Fresh)
    (move : Move supply settings i (c.threads i) c.shared ph s) :
    ∃ lockOf', Tied supply lockOf' (c.set i ph s) := by
  have phase := tied.phase i
  have keep := tied.keep move
  have move' := move
  generalize hph : c.threads i = before at move phase
  generalize hs : c.shared = shared at move phase keep
  cases move with
  | stay =>
    subst hph hs
    rw [Config.set_same]
    exact ⟨lockOf, tied⟩
  | found live =>
    refine ⟨lockOf, keep rfl (List.Subset.refl _) (List.Subset.refl _) rfl trivial ?_⟩
    rintro id task ⟨⟩
    obtain ⟨k, -, hid, settled⟩ := tied.of_mem_ids (hs ▸ live)
    exact ⟨k, hid, settled⟩
  | absent | failed | miss =>
    exact ⟨lockOf, keep rfl (List.Subset.refl _) (List.Subset.refl _) rfl trivial nofun⟩
  | made =>
    subst hs
    exact ⟨lockOf, tied.make move'⟩
  | enter =>
    subst hs
    exact ⟨lockOf, tied.enter hph move'⟩
  | create =>
    subst hs
    exact ⟨_, tied.create hph move'⟩
  | @seek id use _ free =>
    refine ⟨lockOf, keep rfl (List.Subset.refl _) (List.Subset.refl _) rfl ?_ nofun⟩
    cases hlookup : shared.sessions.lookup id with
    | none => trivial
    | some k =>
      obtain ⟨hid, hk⟩ := tied.sessions (id, k) (hs ▸ mem_of_lookup hlookup)
      exact ⟨hid, hs ▸ hk.made⟩
  | @find id use k l _ lock =>
    refine ⟨lockOf, keep rfl (List.Subset.refl _) (List.Subset.refl _) (new?_next _ _ _ _) ?_ ?_⟩
    · obtain ⟨m, hm, hlock⟩ := tied.locks (id, l) (hs ▸ mem_of_lookup lock)
      obtain rfl := fresh.injective (hm.symm.trans phase.1)
      cases use with
      | run task => exact ⟨phase.1, phase.2, hlock⟩
      | read => exact phase
      | delete => trivial
    · intro id text h
      cases use <;> cases h
  | lock => exact ⟨lockOf, keep rfl (List.Subset.refl _) (List.Subset.refl _) rfl phase nofun⟩
  | advance =>
    exact ⟨lockOf, keep (List.length_set ..) (List.Subset.refl _) (List.Subset.refl _) rfl phase
      nofun⟩
  | finish =>
    exact ⟨lockOf, keep rfl (List.Subset.refl _) (List.Subset.refl _) rfl ⟨phase.1, phase.2.1⟩
      nofun⟩
  | remove =>
    exact ⟨lockOf, keep rfl (List.filter_subset_self _) (List.Subset.refl _) rfl trivial nofun⟩
  | delete =>
    exact ⟨lockOf, keep rfl (List.Subset.refl _) (List.filter_subset_self _) rfl trivial nofun⟩
  | read => exact ⟨lockOf, keep rfl (List.Subset.refl _) (List.Subset.refl _) rfl phase nofun⟩

end Tied

/-! ## One run at a time -/

/-- The agent that a thread runs a task on. -/
def Phase.busy? : Phase → Option Nat
  | running job _ _ => some job.agent
  | _ => none

/-- A thread runs a task on an agent. -/
def Phase.RunsOn (k : Nat) (ph : Phase) : Prop :=
  ∃ job q ms, ph = .running job q ms ∧ job.agent = k

theorem busy?_eq_some_iff : ph.busy? = some k ↔ ph.RunsOn k := by
  unfold Phase.RunsOn
  cases ph with
  | running job q ms => simp [Phase.busy?]
  | _ => simp [Phase.busy?]

/-- A thread that runs a task on an agent holds the lock of that. -/
theorem Tied.locked_of_busy (tied : Tied supply lockOf c) (held : Held c)
    (hi : (c.threads i).busy? = some k) :
    ∃ l, lockOf k = some l ∧ c.shared.locks[l]? = some (some i) := by
  obtain ⟨job, q, ms, hph, rfl⟩ := busy?_eq_some_iff.1 hi
  have phase := tied.phase i
  rw [hph] at phase
  exact ⟨job.lock, phase.2.2, (held i job.lock).1 (by rw [hph]; rfl)⟩

/-- No agent has two runs at the same time. -/
theorem Tied.eq_of_busy (tied : Tied supply lockOf c) (held : Held c)
    (hi : (c.threads i).busy? = some k) (hj : (c.threads j).busy? = some k) : i = j := by
  obtain ⟨l, hl, hi⟩ := tied.locked_of_busy held hi
  obtain ⟨m, hm, hj⟩ := tied.locked_of_busy held hj
  obtain rfl := Option.some.inj (hl.symm.trans hm)
  exact Option.some.inj (Option.some.inj (hi.symm.trans hj))

/-! ## Sessions that have been deleted -/

/-- A session has been entered, and is not live any more. -/
structure Gone (supply : Supply) (id : String) (c : Config) : Prop where
  missing : id ∉ c.shared.ids
  settled : ∃ k, id = supply.id k ∧ Settled c k

/-- A session becomes live only if a thread enters its agent. -/
theorem Move.mem_ids (move : Move supply settings i ph s ph' s') (hid : id ∈ s'.ids) :
    id ∈ s.ids ∨ ∃ k, ph.pending? = some k ∧ id = supply.id k := by
  cases move with
  | enter =>
    rw [Shared.ids, List.map_append, List.mem_append] at hid
    exact hid.imp_right fun h => ⟨_, rfl, List.mem_singleton.1 h⟩
  | remove =>
    rw [Shared.ids, names_filter] at hid
    exact .inl (List.mem_of_mem_filter hid)
  | stay | found | absent | failed | made | create | seek | find | miss | lock | advance | finish
  | delete | read => exact .inl hid

/-- A session that has been deleted does not come back. -/
theorem Gone.move (gone : Gone supply id c) (fresh : supply.Fresh)
    (move : Move supply settings i (c.threads i) c.shared ph s) :
    Gone supply id (c.set i ph s) := by
  obtain ⟨missing, k, hid, settled⟩ := gone
  refine ⟨fun h => ?_, k, hid, settled.move move⟩
  obtain h | ⟨m, hm, he⟩ := move.mem_ids h
  · exact missing h
  · obtain rfl := fresh.injective (hid.symm.trans he)
    exact settled.entered i hm

end ScriptAgent.Service
