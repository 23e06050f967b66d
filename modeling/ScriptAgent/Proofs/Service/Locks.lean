import ScriptAgent.Proofs.Service.Store
import ScriptAgent.Proofs.Service.Threads

/-!
# The locks of the registry and of runs

Whatever the order of the steps, a thread is inside the registry exactly if it holds the lock of
that (`Guarded`), and runs a task exactly if it holds the lock for that (`Held`). When nobody is
inside, the sessions with an agent are those with a lock (`Level`). All threads that have found a
session go by the same agent and the same lock, even when the session has been deleted in the
meantime (`Tied`). So an agent never has two runs at the same time (`Tied.eq_of_busy`).
-/

namespace ScriptAgent.Service

variable {supply : Supply} {settings : Settings} {c : Config} {i j k l : Nat} {ph ph' : Phase}
  {s s' : Shared}

/-! ## Inside the registry -/

/-- A thread at this point holds the lock of the registry. -/
def Phase.Inside : Phase → Prop
  | entered .. | sought .. | removed _ => True
  | _ => False

theorem not_inside_phase (d : Demand) : ¬ d.phase.Inside := by
  cases d <;> exact not_false

theorem not_inside_created (id : String) (task : Option String) : ¬ (created id task).Inside := by
  cases task <;> exact not_false

theorem not_inside_next (use : Use) (id : String) (k l : Nat) : ¬ (use.next id k l).Inside := by
  cases use <;> exact not_false

/-- The threads inside the registry are those that hold its lock. -/
def Guarded (c : Config) : Prop := ∀ i, (c.threads i).Inside ↔ c.shared.registry = some i

/-- A move leaves the registry, or enters it when it is free, or has nothing to do with its lock. -/
theorem Move.registry (move : Move supply settings i ph s ph' s') :
    (ph.Inside ∧ ¬ ph'.Inside ∧ s'.registry = none) ∨
    (¬ ph.Inside ∧ ph'.Inside ∧ s.registry = none ∧ s'.registry = some i) ∨
    ((ph'.Inside ↔ ph.Inside) ∧ s'.registry = s.registry) := by
  cases move with
  | create => exact .inl ⟨trivial, not_inside_created _ _, rfl⟩
  | find => exact .inl ⟨trivial, not_inside_next _ _ _ _, rfl⟩
  | miss | delete => exact .inl ⟨trivial, id, rfl⟩
  | enter free | seek free | remove free => exact .inr (.inl ⟨id, trivial, free, rfl⟩)
  | stay | found | absent | failed | made | lock | advance | finish | read =>
    exact .inr (.inr ⟨.rfl, rfl⟩)

theorem guarded_start (demands : Nat → Demand) (w : World) : Guarded (.start demands w) :=
  fun i => iff_of_false (not_inside_phase (demands i)) nofun

theorem Guarded.move (guarded : Guarded c)
    (move : Move supply settings i (c.threads i) c.shared ph s) : Guarded (c.set i ph s) := by
  refine Config.forall_threads_set (p := fun j ph => ph.Inside ↔ s.registry = some j) ?_
    fun j hj => ?_
  · rcases move.registry with ⟨-, hout, hr⟩ | ⟨-, hin, -, hr⟩ | ⟨hin, hr⟩
    · exact iff_of_false hout (by simp [hr])
    · exact iff_of_true hin hr
    · rw [hin, hr]
      exact guarded i
  · rw [guarded j]
    rcases move.registry with ⟨hin, -, hr⟩ | ⟨-, -, hfree, hr⟩ | ⟨-, hr⟩
    · rw [(guarded i).1 hin, hr]
      exact iff_of_false (fun h => hj (Option.some.inj h).symm) nofun
    · rw [hfree, hr]
      exact iff_of_false nofun (fun h => hj (Option.some.inj h).symm)
    · rw [hr]

/-! ## The locks of runs -/

/-- The lock that a thread holds for a run. -/
def Phase.lock? : Phase → Option Nat
  | running job _ _ => some job.lock
  | _ => none

theorem lock?_phase (d : Demand) : d.phase.lock? = none := by
  cases d <;> rfl

theorem lock?_created (id : String) (task : Option String) : (created id task).lock? = none := by
  cases task <;> rfl

theorem lock?_next (use : Use) (id : String) (k l : Nat) : (use.next id k l).lock? = none := by
  cases use <;> rfl

/-- The threads that run a task are those that hold a lock for it. -/
def Held (c : Config) : Prop :=
  ∀ i l, (c.threads i).lock? = some l ↔ c.shared.locks[l]? = some (some i)

/-- A move takes a lock that is free, or gives its lock back, or leaves the holders of locks. -/
theorem Move.locks (move : Move supply settings i ph s ph' s') :
    (∃ l, ph.lock? = none ∧ ph'.lock? = some l ∧ s.locks[l]? = some none ∧
      s'.locks = s.locks.set l (some i)) ∨
    (∃ l, ph.lock? = some l ∧ ph'.lock? = none ∧ s'.locks = s.locks.set l none) ∨
    (ph'.lock? = ph.lock? ∧ ∀ (l j : Nat),
      s'.locks[l]? = some (some j) ↔ s.locks[l]? = some (some j)) := by
  cases move with
  | lock free => exact .inl ⟨_, rfl, rfl, free, rfl⟩
  | finish => exact .inr (.inl ⟨_, rfl, rfl, rfl⟩)
  | create =>
    refine .inr (.inr ⟨lock?_created _ _, fun l j => ?_⟩)
    rw [List.getElem?_append]
    split
    · rfl
    · next hl =>
      rw [List.getElem?_eq_none (Nat.le_of_not_lt hl), List.getElem?_singleton]
      split <;> simp
  | find => exact .inr (.inr ⟨lock?_next _ _ _ _, fun _ _ => .rfl⟩)
  | stay | found | absent | failed | made | enter | seek | miss | advance | remove | delete
  | read => exact .inr (.inr ⟨rfl, fun _ _ => .rfl⟩)

theorem held_start (demands : Nat → Demand) (w : World) : Held (.start demands w) := by
  intro i l
  rw [Config.start, lock?_phase]
  exact iff_of_false nofun nofun

theorem Held.move (held : Held c)
    (move : Move supply settings i (c.threads i) c.shared ph s) : Held (c.set i ph s) := by
  refine Config.forall_threads_set
    (p := fun j ph => ∀ m, ph.lock? = some m ↔ s.locks[m]? = some (some j)) (fun m => ?_)
    fun j hj m => ?_
  · rcases move.locks with ⟨l, hout, hin, hfree, hs⟩ | ⟨l, hin, hout, hs⟩ | ⟨hph, hs⟩
    · rw [hin, hs, List.getElem?_set]
      by_cases hm : l = m
      · subst hm
        have hlt := (List.getElem?_eq_some_iff.1 hfree).1
        simp [hlt]
      · have hnone := held i m
        rw [hout] at hnone
        rw [if_neg hm, ← hnone]
        exact iff_of_false (fun h => hm (Option.some.inj h)) nofun
    · rw [hout, hs, List.getElem?_set]
      refine iff_of_false nofun fun h => ?_
      split at h
      · split at h <;> cases h
      · next hm => exact hm (Option.some.inj (hin.symm.trans ((held i m).2 h)))
    · rw [hph, hs]
      exact held i m
  · rw [held j m]
    rcases move.locks with ⟨l, -, -, hfree, hs⟩ | ⟨l, hin, -, hs⟩ | ⟨-, hs⟩
    · rw [hs, List.getElem?_set]
      by_cases hm : l = m
      · subst hm
        rw [hfree, if_pos rfl]
        refine iff_of_false nofun fun h => ?_
        split at h
        · exact hj (Option.some.inj (Option.some.inj h)).symm
        · cases h
      · rw [if_neg hm]
    · rw [hs, List.getElem?_set]
      by_cases hm : l = m
      · subst hm
        rw [(held i l).1 hin, if_pos rfl]
        refine iff_of_false (fun h => hj (Option.some.inj (Option.some.inj h)).symm) fun h => ?_
        split at h <;> cases h
      · rw [if_neg hm]
    · rw [hs]

/-! ## Sessions with an agent and sessions with a lock -/

/-- The sessions with an agent, in terms of those with a lock, while a thread is at this point. -/
def Phase.gap (supply : Supply) (ids : List String) : Phase → List String
  | entered k _ => ids ++ [supply.id k]
  | removed id => ids.filter (· != id)
  | _ => ids

/-- The same sessions have an agent and a lock, unless a thread is in the middle of a change. -/
structure Level (supply : Supply) (c : Config) : Prop where
  free : c.shared.registry = none → c.shared.ids = c.shared.lockedIds
  inside : ∀ i, (c.threads i).Inside →
    c.shared.ids = (c.threads i).gap supply c.shared.lockedIds

/-- What a move does to the sessions with an agent and those with a lock. -/
theorem Move.ids (move : Move supply settings i ph s ph' s') :
    (ph.Inside ∧ s'.registry = none ∧
      (s.ids = ph.gap supply s.lockedIds → s'.ids = s'.lockedIds)) ∨
    (s.registry = none ∧ s'.registry = some i ∧
      (s.ids = s.lockedIds → s'.ids = ph'.gap supply s'.lockedIds)) ∨
    (s'.registry = s.registry ∧ s'.ids = s.ids ∧ s'.lockedIds = s.lockedIds ∧
      (ph' = ph ∨ ¬ ph'.Inside)) := by
  cases move with
  | create =>
    refine .inl ⟨trivial, rfl, fun h => ?_⟩
    rw [Shared.lockedIds, List.map_append]
    exact h
  | find => exact .inl ⟨trivial, rfl, id⟩
  | miss => exact .inl ⟨trivial, rfl, id⟩
  | delete =>
    refine .inl ⟨trivial, rfl, fun h => ?_⟩
    exact h.trans (names_filter _ _).symm
  | enter free =>
    refine .inr (.inl ⟨free, rfl, fun h => ?_⟩)
    rw [Shared.ids, List.map_append]
    exact congrArg (· ++ _) h
  | seek free => exact .inr (.inl ⟨free, rfl, id⟩)
  | remove free =>
    refine .inr (.inl ⟨free, rfl, fun h => ?_⟩)
    exact (names_filter _ _).trans (congrArg _ h)
  | stay => exact .inr (.inr ⟨rfl, rfl, rfl, .inl rfl⟩)
  | found | absent | failed | made | lock | advance | finish | read =>
    exact .inr (.inr ⟨rfl, rfl, rfl, .inr not_false⟩)

theorem level_start (supply : Supply) (demands : Nat → Demand) (w : World) :
    Level supply (.start demands w) :=
  ⟨fun _ => rfl, fun i hi => absurd hi (not_inside_phase (demands i))⟩

theorem Level.move (level : Level supply c) (guarded : Guarded c)
    (move : Move supply settings i (c.threads i) c.shared ph s) :
    Level supply (c.set i ph s) := by
  have guarded' := guarded.move move
  rcases move.ids with ⟨hin, hr, hids⟩ | ⟨hfree, hr, hids⟩ | ⟨hr, hids, hlocked, hph⟩
  · refine ⟨fun _ => hids (level.inside i hin), fun j hj => ?_⟩
    rw [guarded' j, Config.shared_set, hr] at hj
    cases hj
  · refine ⟨fun h => ?_, fun j hj => ?_⟩
    · rw [Config.shared_set, hr] at h
      cases h
    · rw [guarded' j, Config.shared_set, hr] at hj
      obtain rfl := Option.some.inj hj
      rw [Config.threads_set_self]
      exact hids (level.free hfree)
  · refine ⟨fun h => ?_, fun j hj => ?_⟩
    · rw [Config.shared_set, hids, hlocked]
      exact level.free (hr.symm.trans h)
    · rw [Config.shared_set, hids, hlocked]
      by_cases hi : j = i
      · subst hi
        rw [Config.threads_set_self] at hj ⊢
        obtain rfl := hph.resolve_right (not_not_intro hj)
        exact level.inside j hj
      · rw [Config.threads_set_ne c hi] at hj ⊢
        exact level.inside j hj

end ScriptAgent.Service
