import ScriptAgent.Proofs.Service.Logs

/-!
# Every request can be answered

Whatever steps have been made, each request can be brought to its answer by further steps
(`Consistent.exists_answered`): a thread that has to wait for a lock waits for one that can give it
back. A task for a session that is live is then run with the agent of that.
-/

namespace ScriptAgent.Service

variable {supply : Supply} {settings : Settings} {c : Config} {i j k : Nat} {ph ph' : Phase}
  {s s' : Shared} {id : String} {t : Task}

/-! ## What every move keeps -/

/-- What is true of the threads and of what they share after any steps. -/
structure Consistent (supply : Supply) (c : Config) : Prop where
  guarded : Guarded c
  held : Held c
  level : Level supply c
  tied : ∃ lockOf, Tied supply lockOf c
  logged : ∃ writers, Logged writers c
  recalled : Recalled c

theorem consistent_start (supply : Supply) (demands : Nat → Demand) (w : World) :
    Consistent supply (.start demands w) :=
  ⟨guarded_start demands w, held_start demands w, level_start supply demands w,
    ⟨_, tied_start supply demands w⟩, ⟨_, logged_start demands w⟩, recalled_start demands w⟩

theorem Consistent.move (consistent : Consistent supply c) (fresh : supply.Fresh)
    (move : Move supply settings i (c.threads i) c.shared ph s) :
    Consistent supply (c.set i ph s) := by
  obtain ⟨guarded, held, level, ⟨lockOf, tied⟩, ⟨writers, logged⟩, recalled⟩ := consistent
  exact ⟨guarded.move move, held.move move, level.move guarded move, tied.move fresh move,
    logged.move tied held move, recalled.move move⟩

theorem Consistent.run (consistent : Consistent supply c) (fresh : supply.Fresh)
    (settings : Settings) (schedule : List Nat) :
    Consistent supply (c.run supply settings schedule) :=
  Config.run_induction (fun _ _ _ _ consistent move => consistent.move fresh move) consistent
    schedule

/-! ## A task for a session that stays live -/

/-- A thread has a task for a session, and nothing to do with an agent other than that of it. -/
def Phase.Serves (t : Task) (k : Nat) : Phase → Prop
  | checking t' => t' = t
  | seeking id use => id = t.sessionId ∧ use = .run t.text
  | sought id use agent => id = t.sessionId ∧ use = .run t.text ∧ agent = some k
  | waiting job | running job _ _ | answered (.ran job _ _) =>
    job.id = t.sessionId ∧ job.task = t.text ∧ job.agent = k
  | _ => False

/-- A task for a live session has been run with the agent of that when it is answered. -/
theorem Phase.Serves.ranOn {outcome : Outcome} (serves : (Phase.answered outcome).Serves t k) :
    (Phase.answered outcome).RanOn k := by
  cases outcome with
  | ran job ms ending => exact ⟨job, ms, ending, rfl, serves.2.2⟩
  | created | failed | unknown | read | deleted => exact absurd serves not_false

/-- A move of a thread with a task for a live session brings it to the agent of that. -/
theorem Consistent.serves_move (consistent : Consistent supply c) (fresh : supply.Fresh)
    (hid : t.sessionId = supply.id k) (live : t.sessionId ∈ c.shared.ids)
    (serves : (c.threads i).Serves t k)
    (move : Move supply settings i (c.threads i) c.shared ph s) : ph.Serves t k := by
  have level := consistent.level.inside i
  obtain ⟨lockOf, tied⟩ := consistent.tied
  generalize c.threads i = before at move serves level
  generalize hs : c.shared = shared at move live level
  cases move with
  | stay => exact serves
  | found => exact ⟨congrArg _ serves, congrArg _ (congrArg _ serves)⟩
  | absent missing =>
    obtain rfl := serves
    rcases missing with hempty | hmissing
    · exact absurd (hid.symm.trans hempty) (fresh.named k)
    · exact absurd live hmissing
  | seek =>
    obtain ⟨rfl, huse⟩ := serves
    refine ⟨rfl, huse, ?_⟩
    obtain ⟨m, hm⟩ := mem_names_iff.1 live
    have hidm := (tied.sessions (t.sessionId, m) (hs ▸ mem_of_lookup hm)).1
    exact hm.trans (congrArg some (fresh.injective (hidm.symm.trans hid)))
  | find =>
    obtain ⟨rfl, rfl, hk⟩ := serves
    exact ⟨rfl, rfl, Option.some.inj hk⟩
  | miss missing =>
    obtain ⟨rfl, -, rfl⟩ := serves
    rw [level trivial] at live
    obtain ⟨l, hl⟩ := mem_names_iff.1 live
    rcases missing with hnone | hnone
    · cases hnone
    · cases hl.symm.trans hnone
  | lock | advance | finish => exact serves
  | failed | made | enter | create | remove | delete | read => exact absurd serves not_false

/-- A task for a session that stays live is run with the agent of that, if with any. -/
theorem Consistent.serves_run (consistent : Consistent supply c) (fresh : supply.Fresh)
    (hid : t.sessionId = supply.id k) (serves : (c.threads i).Serves t k) (schedule : List Nat)
    (live : ∀ earlier, earlier <+: schedule →
      t.sessionId ∈ (c.run supply settings earlier).shared.ids) :
    ((c.run supply settings schedule).threads i).Serves t k := by
  induction schedule generalizing c with
  | nil => exact serves
  | cons j rest ih =>
    have move := move_act supply settings j (c.threads j) c.shared
    refine ih (consistent.move fresh move) ?_ fun earlier hearlier =>
      live (j :: earlier) (List.cons_prefix_cons.2 ⟨rfl, hearlier⟩)
    rw [Config.step_eq]
    by_cases hi : i = j
    · subst hi
      rw [Config.threads_set_self]
      exact consistent.serves_move fresh hid (live [] List.nil_prefix) serves move
    · rw [Config.threads_set_ne c hi]
      exact serves

/-! ## To the end of a run -/

/-- Any step of a run but the last is one of its agent. -/
theorem act_of_running {job : Job} {q q' : Agent.Progress} {ms more : List Message}
    {a a' : Agent} {w : World} (hq : ∀ ending, q ≠ .ended ending)
    (ha : s.agents[job.agent]? = some a) (hstep : a.advance q s.world = (q', a', w))
    (hmore : a'.conversation.messages = a.conversation.messages ++ more) :
    act supply settings i (.running job q ms) s = (.running job q' (ms ++ more), { s with
      agents := s.agents.set job.agent a', world := w }) := by
  have hact : act supply settings i (.running job q ms) s = s.advance job q ms := by
    cases q with
    | ended ending => exact absurd rfl (hq ending)
    | ready task | iterating left | executing left code => rfl
  rw [hact]
  simp only [Shared.advance, ha, hstep, hmore, List.drop_left]

/-- A run comes to its end by steps of its thread alone, and gives its lock back. -/
theorem exists_ended (supply : Supply) (settings : Settings) (i : Nat) (job : Job)
    {q : Agent.Progress} (ms : List Message) {a : Agent}
    (ha : s.agents[job.agent]? = some a) :
    ∃ m more ending a' w', Agent.steps m q a s.world = (.ended ending, a', w') ∧
      Goes supply settings i (.running job q ms) s (.answered (.ran job (ms ++ more) ending))
        { s with
          agents := s.agents.set job.agent a'
          locks := s.locks.set job.lock none
          world := (answerRun job.id ending w').2 } := by
  -- each step but the last lessens what remains of the run
  induction hr : q.remaining a.budget using Nat.strongRecOn generalizing s q ms a with
  | _ r ih =>
    obtain ⟨hlt, hget⟩ := List.getElem?_eq_some_iff.1 ha
    by_cases hq : ∃ ending, q = .ended ending
    · obtain ⟨ending, rfl⟩ := hq
      refine ⟨0, [], ending, a, s.world, rfl, .next rfl ?_⟩
      rw [List.append_nil, ← hget, List.set_getElem_self]
      exact .refl _ _
    · have hq : ∀ ending, q ≠ .ended ending := fun ending h => hq ⟨ending, h⟩
      obtain ⟨more, hmore, -⟩ := a.advance_adds q s.world
      have hless := a.advance_remaining hq s.world
      have hbudget : (a.advance q s.world).2.1.budget = a.budget := rfl
      rcases hstep : a.advance q s.world with ⟨q₁, a₁, w₁⟩
      rw [hstep] at hmore hless hbudget
      obtain ⟨m, rest, ending, a', w', hsteps, goes⟩ :=
        ih (q₁.remaining a₁.budget) (by rw [← hr, hbudget]; exact hless)
          (s := { s with agents := s.agents.set job.agent a₁, world := w₁ }) (ms ++ more)
          (List.getElem?_set_self hlt) rfl
      refine ⟨m + 1, more ++ rest, ending, a', w', ?_, ?_⟩
      · rw [Agent.steps, hstep]
        exact hsteps
      · refine .next (act_of_running hq ha hstep hmore) ?_
        rw [List.append_assoc] at goes
        simpa only [List.set_set] using goes

/-! ## To the answer of a request -/

/-- How many stages a thread has still to go through. -/
def Phase.stage : Phase → Nat
  | checking _ => 8
  | making .. => 7
  | entering .. => 6
  | entered .. => 5
  | seeking .. => 4
  | sought .. => 3
  | waiting _ | removing _ | reading .. => 2
  | running .. | removed _ => 1
  | answered _ => 0

theorem stage_created_le (id : String) (task : Option String) : (created id task).stage ≤ 4 := by
  cases task <;> simp [created, Phase.stage]

theorem stage_next (use : Use) (id : String) (k l : Nat) : (use.next id k l).stage = 2 := by
  cases use <;> rfl

/-- A thread inside the registry leaves it with its next step, and the sessions as they are. -/
theorem act_of_inside (supply : Supply) (settings : Settings) (i : Nat) (s : Shared)
    (inside : ph.Inside) :
    (act supply settings i ph s).2.registry = none ∧
      (act supply settings i ph s).2.sessions = s.sessions := by
  cases ph with
  | entered k task | removed id => exact ⟨rfl, rfl⟩
  | sought id use agent =>
    unfold act
    dsimp only
    split <;> exact ⟨rfl, rfl⟩
  | checking | making | entering | seeking | waiting | running | removing | reading | answered =>
    exact absurd inside not_false

/-- A thread that has to wait for the lock of the registry can be made to have it free. -/
theorem Guarded.exists_free (guarded : Guarded c) (supply : Supply) (settings : Settings)
    (hi : ¬ (c.threads i).Inside) :
    ∃ wait, (c.run supply settings wait).threads i = c.threads i ∧
      (c.run supply settings wait).shared.ids = c.shared.ids ∧
      (c.run supply settings wait).shared.registry = none := by
  cases hr : c.shared.registry with
  | none => exact ⟨[], rfl, rfl, hr⟩
  | some j =>
    have inside := (guarded j).2 hr
    have hij : i ≠ j := fun h => hi (h ▸ inside)
    obtain ⟨hfree, hsessions⟩ := act_of_inside supply settings j c.shared inside
    exact ⟨[j], c.threads_set_ne hij _ _, congrArg (List.map Prod.fst) hsessions, hfree⟩

/-- A thread that has to wait for the lock of a run can be made to have it free. -/
theorem Consistent.exists_free (consistent : Consistent supply c) (settings : Settings) {job : Job}
    (hi : c.threads i = .waiting job) :
    ∃ wait, (c.run supply settings wait).threads i = c.threads i ∧
      (c.run supply settings wait).shared.ids = c.shared.ids ∧
      (c.run supply settings wait).shared.locks[job.lock]? = some none := by
  obtain ⟨lockOf, tied⟩ := consistent.tied
  have phase := tied.phase i
  rw [hi] at phase
  have hlt := tied.bound _ _ phase.2.2
  cases hl : c.shared.locks[job.lock] with
  | none => exact ⟨[], rfl, rfl, List.getElem?_eq_some_iff.2 ⟨hlt, hl⟩⟩
  | some j =>
    have hj := (consistent.held j job.lock).2 (List.getElem?_eq_some_iff.2 ⟨hlt, hl⟩)
    cases hph : c.threads j with
    | running job' q ms =>
      rw [hph] at hj
      have phase' := tied.phase j
      rw [hph] at phase'
      have hij : i ≠ j := fun h => by
        rw [h, hph] at hi
        cases hi
      obtain ⟨m, more, ending, a', w', -, goes⟩ := exists_ended supply settings j _ ms
        (List.getElem?_eq_getElem phase'.2.1)
      obtain ⟨n, hrun⟩ := goes.exists_run c hph rfl
      refine ⟨List.replicate n j, ?_⟩
      rw [hrun, Config.threads_set_ne c hij, Option.some.inj hj]
      exact ⟨rfl, rfl, List.getElem?_set_self hlt⟩
    | _ =>
      rw [hph] at hj
      cases hj

/-- A thread that does not run a task can be brought to make a step. -/
theorem Consistent.exists_wait (consistent : Consistent supply c) (settings : Settings)
    (hbusy : (c.threads i).busy? = none) (hi : (c.threads i).stage ≠ 0) :
    ∃ wait, (c.run supply settings wait).threads i = c.threads i ∧
      (c.run supply settings wait).shared.ids = c.shared.ids ∧
      (act supply settings i (c.threads i) (c.run supply settings wait).shared).1.stage <
        (c.threads i).stage := by
  obtain ⟨lockOf, tied⟩ := consistent.tied
  have phase := tied.phase i
  have free := consistent.guarded.exists_free (i := i) supply settings
  generalize hph : c.threads i = ph at hbusy hi phase free ⊢
  cases ph with
  | checking t =>
    refine ⟨[], hph, rfl, ?_⟩
    rw [act]
    split <;> simp [Phase.stage]
  | making budget task =>
    refine ⟨[], hph, rfl, ?_⟩
    rw [act]
    split <;> simp [Phase.stage]
  | entering k task | seeking id use | removing id =>
    obtain ⟨wait, hwait, hids, hfree⟩ := free not_false
    refine ⟨wait, hwait, hids, ?_⟩
    rw [act, hfree]
    simp [Phase.stage]
  | entered k task =>
    exact ⟨[], hph, rfl, Nat.lt_succ_of_le (stage_created_le _ _)⟩
  | sought id use agent =>
    refine ⟨[], hph, rfl, ?_⟩
    unfold act
    dsimp only
    split
    · rw [stage_next]
      exact Nat.lt_succ_self 2
    · exact Nat.succ_pos 2
  | waiting job =>
    obtain ⟨wait, hwait, hids, hfree⟩ := consistent.exists_free settings hph
    refine ⟨wait, hwait.trans hph, hids, ?_⟩
    rw [act, hfree]
    simp [Phase.stage]
  | removed id => exact ⟨[], hph, rfl, Nat.one_pos⟩
  | reading id k =>
    refine ⟨[], hph, rfl, ?_⟩
    obtain ⟨a, ha⟩ : ∃ a, (c.run supply settings []).shared.agents[k]? = some a :=
      ⟨_, List.getElem?_eq_getElem phase.2⟩
    rw [act, ha]
    simp [Phase.stage]
  | running job q ms => cases hbusy
  | answered outcome => exact absurd rfl hi

/-- A session stays live unless a thread is about to remove it. -/
theorem Move.mem_ids_of_mem (move : Move supply settings i ph s ph' s')
    (hph : ∀ id', ph ≠ .removing id') (hid : id ∈ s.ids) : id ∈ s'.ids := by
  cases move with
  | enter =>
    rw [Shared.ids, List.map_append]
    exact List.mem_append_left _ hid
  | remove => exact absurd rfl (hph _)
  | stay | found | absent | failed | made | create | seek | find | miss | lock | advance | finish
  | delete | read => exact hid

/-- A thread can be brought nearer to its answer, and if it has a task for a live session, so that
the session stays live. -/
theorem Consistent.exists_later (consistent : Consistent supply c) (fresh : supply.Fresh)
    (settings : Settings) (hi : (c.threads i).stage ≠ 0) :
    ∃ more, ((c.run supply settings more).threads i).stage < (c.threads i).stage ∧
      ∀ t k, t.sessionId = supply.id k → t.sessionId ∈ c.shared.ids → (c.threads i).Serves t k →
        t.sessionId ∈ (c.run supply settings more).shared.ids ∧
          ((c.run supply settings more).threads i).Serves t k := by
  cases hbusy : (c.threads i).busy? with
  | some k =>
    obtain ⟨job, q, ms, hph, rfl⟩ := busy?_eq_some_iff.1 hbusy
    obtain ⟨lockOf, tied⟩ := consistent.tied
    have phase := tied.phase i
    rw [hph] at phase
    obtain ⟨m, more, ending, a', w', -, goes⟩ := exists_ended supply settings i _ ms
      (List.getElem?_eq_getElem phase.2.1)
    obtain ⟨n, hrun⟩ := goes.exists_run c hph rfl
    refine ⟨List.replicate n i, ?_⟩
    rw [hrun, hph, Config.threads_set_self]
    exact ⟨Nat.one_pos, fun t k _ live serves => ⟨live, serves⟩⟩
  | none =>
    obtain ⟨wait, hwait, hids, hstage⟩ := consistent.exists_wait settings hbusy hi
    have consistent' := consistent.run fresh settings wait
    have move := move_act supply settings i ((c.run supply settings wait).threads i)
      (c.run supply settings wait).shared
    refine ⟨wait ++ [i], ?_⟩
    rw [Config.run_concat, Config.step_eq, Config.threads_set_self, Config.shared_set, hwait]
    rw [hwait] at move
    refine ⟨hstage, fun t k hid live serves => ?_⟩
    rw [← hids] at live
    refine ⟨move.mem_ids_of_mem (fun id' hph => ?_) live, ?_⟩
    · rw [hph] at serves
      exact serves
    · rw [← hwait] at serves move
      rw [← hwait]
      exact consistent'.serves_move fresh hid live serves move

/-- Every request can be brought to its answer, and if it has a task for a live session, so that
the session stays live. -/
theorem Consistent.exists_answered (consistent : Consistent supply c) (fresh : supply.Fresh)
    (settings : Settings) (i : Nat) :
    ∃ schedule outcome, (c.run supply settings schedule).threads i = .answered outcome ∧
      ∀ t k, t.sessionId = supply.id k → t.sessionId ∈ c.shared.ids → (c.threads i).Serves t k →
        (Phase.answered outcome).Serves t k := by
  -- the steps of others that a thread waits for leave its own stage
  induction hn : (c.threads i).stage using Nat.strongRecOn generalizing c with
  | _ n ih =>
    by_cases hi : (c.threads i).stage = 0
    · cases hph : c.threads i with
      | answered outcome => exact ⟨[], outcome, hph, fun _ _ _ _ => id⟩
      | _ =>
        rw [hph] at hi
        cases hi
    · obtain ⟨more, hless, hmore⟩ := consistent.exists_later fresh settings hi
      obtain ⟨schedule, outcome, hanswered, hserves⟩ := ih _ (hn ▸ hless)
        (consistent.run fresh settings more) rfl
      refine ⟨more ++ schedule, outcome, ?_, fun t k hid live serves => ?_⟩
      · rw [Config.run_append]
        exact hanswered
      · obtain ⟨live', serves'⟩ := hmore t k hid live serves
        exact hserves t k hid live' serves'

end ScriptAgent.Service
