import ScriptAgent.Proofs.Agent.Surroundings
import ScriptAgent.Proofs.Service.Refinement

/-!
# Sessions and their neighbours

Requests can be restricted to those that concern one session (`concerning`): a request that is
addressed to another session, or that makes another, is left out. The session does not notice. The
requests that are left are answered as before, and the session has the same agent in the end, its
conversation and its sandbox included, whatever the scripts of other sessions have done
(`serve_concerning`).

The models of the agents have to be objects of their own (`Supply.Own`).
-/

namespace ScriptAgent.Service

/-! ## Requests that concern one session -/

/-- The session that a request is about, after some deeds: the one that it is addressed to, or the
one that it makes. -/
def subject? (supply : Supply) (ds : List Deed) (r : Request) : Option String :=
  let new := supply.id (createdIds ds).length
  match asked r with
  | some (.readMessages id) | some (.deleteSession id) => some id
  | some .createSession => some new
  | some .runTask =>
    (taskOf r).map fun t => if t.sessionId ∈ live ds then t.sessionId else new
  | _ => none

/-- For each of some requests, whether it is about no session but one. -/
def concerning (supply : Supply) (settings : Settings) (id : String) :
    List Deed → List Request → List Bool
  | _, [] => []
  | ds, r :: rest =>
    (subject? supply ds r).all (· == id) ::
      concerning supply settings id (ds ++ (deed? supply settings ds r).toList) rest

/-- The entries of a list that are marked. -/
def marked {α : Type} : List Bool → List α → List α
  | true :: marks, x :: xs => x :: marked marks xs
  | false :: marks, _ :: xs => marked marks xs
  | _, _ => []

/-- What is left of a supply after `k` sessions. -/
def Supply.drop (supply : Supply) (k : Nat) : Supply where
  id n := supply.id (k + n)
  provider n := supply.provider (k + n)

/-- Every model from a supply is an object of its own. -/
def Supply.Own (supply : Supply) : Prop := ∀ k p, supply.provider k = .ok p → p.Own

section
variable {supply : Supply} {settings : Settings} {k : Nat} {ds : List Deed} {s : Store} {w : World}
  {id : String} {agent : Agent} {r : Request}

theorem Supply.Fresh.drop (fresh : supply.Fresh) (k : Nat) : (supply.drop k).Fresh where
  injective _ _ h := Nat.add_left_cancel (fresh.injective h)
  named _ := fresh.named _

theorem own_plainSupply : plainSupply.Own := by
  intro k p hp
  cases hp
  exact Model.Provider.own_scripted _

/-- A new agent is steady if its model is an object of its own. -/
theorem steady_newAgent (own : supply.Own) {budget : Option Int}
    (hmade : newAgent supply settings k budget = .ok agent) : agent.Steady := by
  unfold newAgent at hmade
  split at hmade
  · cases hmade
  · next p hp =>
    dsimp only at hmade
    split at hmade
    · cases hmade
    · next made hmake =>
      cases hmade
      exact Agent.steady_of_make (own k p hp) Agent.steady_defaultTools hmake

/-- A request leaves the sessions that it is not about, and makes none but the one that it is
about. -/
theorem Holds.frame (holds : Holds supply ds s) (fresh : supply.Fresh) (settings : Settings)
    (w : World) (hr : subject? supply ds r ≠ some id) :
    (Service.handle supply settings r s w).2.1.find? id = s.find? id ∧
      ((Service.handle supply settings r s w).2.1.created = s.created ∨
        (Service.handle supply settings r s w).2.1.created = s.created + 1 ∧
          supply.id s.created ≠ id) := by
  have effect := holds.effect fresh settings r w
  unfold subject? at hr
  rw [← holds.created, ← holds.ids] at hr
  generalize deed? supply settings ds r = d, (Service.handle supply settings r s w).2.1 = s'
    at effect ⊢
  cases effect with
  | none => exact ⟨rfl, .inl rfl⟩
  | deleted asks hid =>
    rw [asks] at hr
    exact ⟨Store.find?_remove_ne fun hi => hr (congrArg some hi.symm), .inl rfl⟩
  | created asks made =>
    rw [asks] at hr
    have hi : supply.id s.created ≠ id := fun hi => hr (congrArg some hi)
    exact ⟨Store.find?_add_ne (holds.new_id fresh) hi.symm, .inr ⟨rfl, hi⟩⟩
  | ran asks task hid agent' =>
    simp only [asks, task, Option.map_some, if_pos hid] at hr
    exact ⟨Store.find?_update_ne fun hi => hr (congrArg some hi.symm), .inl rfl⟩
  | ranAnew asks task hid made agent' =>
    simp only [asks, task, Option.map_some, if_neg hid] at hr
    have hi : supply.id s.created ≠ id := fun hi => hr (congrArg some hi)
    refine ⟨(Store.find?_update_ne hi.symm).trans ?_, .inr ⟨rfl, hi⟩⟩
    exact Store.find?_add_ne (holds.new_id fresh) hi.symm

end

/-! ## Stores that agree on one session -/

/-- A store that has had only the session after `k` others is as another store, as far as that
session can tell. -/
structure Agree (supply : Supply) (k : Nat) (s s' : Store) : Prop where
  found : s'.find? (supply.id k) = s.find? (supply.id k)
  created : s'.created = if k < s.created then 1 else 0
  only : ∀ id ∈ s'.ids, id = supply.id k
  steady : ∀ agent, s.find? (supply.id k) = some agent → agent.Steady

theorem agree_empty (supply : Supply) (k : Nat) : Agree supply k .empty .empty :=
  ⟨rfl, rfl, nofun, nofun⟩

namespace Agree

variable {supply : Supply} {settings : Settings} {k : Nat} {ds ds' : List Deed} {s s' : Store}
  {agent : Agent} {r : Request}

/-- Changes that other sessions bring about make no difference. -/
theorem changed {t : Store} (agree : Agree supply k s s')
    (found : t.find? (supply.id k) = s.find? (supply.id k))
    (created : t.created = s.created ∨
      t.created = s.created + 1 ∧ supply.id s.created ≠ supply.id k) : Agree supply k t s' := by
  refine ⟨agree.found.trans found.symm, ?_, agree.only, found ▸ agree.steady⟩
  rw [agree.created]
  rcases created with hc | ⟨hc, hne⟩
  · rw [hc]
  · have hk : s.created ≠ k := fun hk => hne (congrArg supply.id hk)
    have hiff : k < s.created ↔ k < t.created := by omega
    exact if_congr hiff rfl rfl

/-- The session is made in both stores. -/
theorem add (agree : Agree supply k s s') (new : supply.id k ∉ s.ids)
    (new' : supply.id k ∉ s'.ids) (hk : s.created = k) (steady : agent.Steady) :
    Agree supply k (s.add (supply.id k) agent) (s'.add (supply.id k) agent) := by
  have hcreated := agree.created
  rw [if_neg (by omega)] at hcreated
  refine ⟨?_, ?_, fun id hid => ?_, fun made hmade => ?_⟩
  · rw [Store.find?_add_self new, Store.find?_add_self new']
  · rw [Store.add, Store.add, hcreated, hk, if_pos (Nat.lt_succ_self k)]
  · rw [Store.ids_add, List.mem_append, List.mem_singleton] at hid
    exact hid.elim (agree.only id) fun h => h
  · rw [Store.find?_add_self new] at hmade
    exact Option.some.inj hmade ▸ steady

/-- The session is deleted from both stores. -/
theorem remove (agree : Agree supply k s s') :
    Agree supply k (s.remove (supply.id k)) (s'.remove (supply.id k)) := by
  refine ⟨?_, agree.created, fun id hid => ?_, fun left hleft => ?_⟩
  · rw [Store.find?_remove_self, Store.find?_remove_self]
  · rw [Store.ids_remove, List.mem_filter] at hid
    exact agree.only id hid.1
  · rw [Store.find?_remove_self] at hleft
    cases hleft

/-- A task that is run in the session of both stores is answered in the same way. -/
theorem runIn (agree : Agree supply k s s') (found : s.find? (supply.id k) = some agent)
    (task : String) (w w' : World) :
    (Service.runIn (supply.id k) task s w).1 = (Service.runIn (supply.id k) task s' w').1 ∧
      Agree supply k (Service.runIn (supply.id k) task s w).2.1
        (Service.runIn (supply.id k) task s' w').2.1 := by
  have found' := agree.found.trans found
  obtain ⟨ending, after, w₁, w₁', hrun, hrun', steady⟩ :=
    (agree.steady agent found).run task Agent.never w w'
  rw [runIn_eq found hrun, runIn_eq found' hrun']
  refine ⟨answerRun_fst _ _ _ _, ?_, agree.created, fun id hid => ?_, fun left hleft => ?_⟩
  · rw [Store.find?_update_self found, Store.find?_update_self found']
  · rw [Store.ids_update] at hid
    exact agree.only id hid
  · rw [Store.find?_update_self found] at hleft
    exact Option.some.inj hleft ▸ steady

section
variable (agree : Agree supply k s s') (holds : Holds supply ds s)
  (holds' : Holds (supply.drop k) ds' s') (fresh : supply.Fresh) (own : supply.Own)
include agree holds holds' fresh own

/-- The next session is made in both stores, or in none. -/
theorem newAgent (hk : s.created = k) (settings : Settings) (budget : Option Int) :
    Service.newAgent (supply.drop k) settings s'.created budget =
        Service.newAgent supply settings s.created budget ∧
      (supply.drop k).id s'.created = supply.id k ∧ supply.id k ∉ s.ids ∧
      ∀ made, Service.newAgent supply settings s.created budget = .ok made →
        Agree supply k (s.add (supply.id k) made) (s'.add (supply.id k) made) := by
  have hcreated := agree.created
  rw [if_neg (by omega)] at hcreated
  have new := holds.new_id fresh
  have new' := holds'.new_id (fresh.drop k)
  rw [hk] at new
  rw [hcreated] at new'
  rw [hcreated, hk]
  exact ⟨rfl, rfl, new, fun made hmade => agree.add new new' hk (steady_newAgent own hmade)⟩

/-- A task that is about no other session is run in the same way. -/
theorem runTask {d : Datum} {t : Task} (hd : Task.ofBody d = .ok t) (settings : Settings)
    (w w' : World)
    (hr : (if t.sessionId ∈ s.ids then t.sessionId else supply.id s.created) = supply.id k) :
    (Service.runTask supply settings d s w).1 =
        (Service.runTask (supply.drop k) settings d s' w').1 ∧
      Agree supply k (Service.runTask supply settings d s w).2.1
        (Service.runTask (supply.drop k) settings d s' w').2.1 := by
  have hlive : supply.id k ∈ s'.ids ↔ supply.id k ∈ s.ids := by
    rw [← Store.exists_find?_iff holds'.locked, ← Store.exists_find?_iff holds.locked, agree.found]
  rw [runTask_eq (fun _ => holds.ne_empty fresh) hd,
    runTask_eq (fun _ => holds'.ne_empty (fresh.drop k)) hd]
  by_cases hid : t.sessionId ∈ s.ids
  · rw [if_pos hid] at hr ⊢
    rw [hr] at hid ⊢
    rw [if_pos (hlive.2 hid)]
    obtain ⟨agent, found⟩ := (Store.exists_find?_iff holds.locked).2 hid
    exact agree.runIn found t.text w w'
  · rw [if_neg hid] at hr ⊢
    have hid' : t.sessionId ∉ s'.ids := fun hid' => by
      rw [agree.only _ hid'] at hid hid'
      exact hid (hlive.1 hid')
    have hk : s.created = k := fresh.injective hr
    obtain ⟨hmade, hname, hnew, hadd⟩ :=
      agree.newAgent holds holds' fresh own hk settings t.budget
    rw [if_neg hid', hmade, hname, hk]
    rw [hk] at hadd
    cases made : Service.newAgent supply settings k t.budget with
    | error crash => exact ⟨rfl, agree⟩
    | ok agent => exact (hadd agent made).runIn (Store.find?_add_self hnew) t.text _ _

/-- A request that is about no other session is answered in the same way, unless it asks for the
list of sessions. -/
theorem handle (settings : Settings) (w w' : World)
    (hr : ∀ id, subject? supply ds r = some id → id = supply.id k) :
    (asked r ≠ some .listSessions → (Service.handle supply settings r s w).1 =
      (Service.handle (supply.drop k) settings r s' w').1) ∧
    Agree supply k (Service.handle supply settings r s w).2.1
      (Service.handle (supply.drop k) settings r s' w').2.1 := by
  unfold subject? at hr
  rw [← holds.created, ← holds.ids] at hr
  cases ha : asked r with
  | none =>
    obtain ⟨result, hresult⟩ := handle_of_not_asked ha
    rw [hresult, hresult]
    exact ⟨fun _ => rfl, agree⟩
  | some a =>
    rw [ha] at hr
    cases a with
    | checkHealth | welcome | listSessions =>
      rw [handle_of_asked ha, handle_of_asked ha]
      exact ⟨fun hne => by first | rfl | exact absurd rfl hne, agree⟩
    | readMessages i =>
      obtain rfl := hr i rfl
      rw [handle_of_asked ha, handle_of_asked ha, perform, perform, agree.found]
      cases s.find? (supply.id k) <;> exact ⟨fun _ => rfl, agree⟩
    | deleteSession i =>
      obtain rfl := hr i rfl
      rw [handle_of_asked ha, handle_of_asked ha, perform, perform, agree.found]
      cases s.find? (supply.id k) with
      | none => exact ⟨fun _ => rfl, agree⟩
      | some left => exact ⟨fun _ => rfl, agree.remove⟩
    | createSession =>
      have hk : s.created = k := fresh.injective (hr _ rfl)
      obtain ⟨hmade, hname, -, hadd⟩ := agree.newAgent holds holds' fresh own hk settings none
      rw [handle_of_asked ha, handle_of_asked ha, perform, perform, createSession_eq,
        createSession_eq, hmade, hname, hk]
      rw [hk] at hadd
      cases made : Service.newAgent supply settings k none with
      | error crash => exact ⟨fun _ => rfl, agree⟩
      | ok agent => exact ⟨fun _ => rfl, hadd agent made⟩
    | runTask =>
      cases ht : taskOf r with
      | none =>
        obtain ⟨answer, -, hanswer⟩ := handle_of_invalid ha ht
        rw [hanswer, hanswer]
        exact ⟨fun _ => rfl, agree⟩
      | some t =>
        obtain ⟨d, hd, hrun⟩ := handle_of_task ha ht
        obtain ⟨hsame, agree'⟩ := agree.runTask holds holds' fresh own hd settings w w'
          (hr _ (congrArg (Option.map _) ht))
        rw [hrun, hrun]
        exact ⟨fun _ => hsame, agree'⟩

end

end Agree

/-! ## Requests one after the other -/

section
variable {supply : Supply} {k : Nat} {ds ds' : List Deed} {s s' : Store}

theorem length_serve (supply : Supply) (settings : Settings) (requests : List Request) (s : Store)
    (w : World) : (serve supply settings requests s w).1.length = requests.length := by
  induction requests generalizing s w with
  | nil => rfl
  | cons r rest ih => exact congrArg (· + 1) (ih _ _)

/-- Stores that agree on one session do so after any requests, if those that are about others are
left out for one of them. -/
theorem Agree.serve (agree : Agree supply k s s') (holds : Holds supply ds s)
    (holds' : Holds (supply.drop k) ds' s') (fresh : supply.Fresh) (own : supply.Own)
    (settings : Settings) (requests : List Request) (w w' : World) :
    let marks := concerning supply settings (supply.id k) ds requests
    let all := Service.serve supply settings requests s w
    let restricted := Service.serve (supply.drop k) settings (marked marks requests) s' w'
    (∀ (n : Nat) r, (marked marks requests)[n]? = some r → asked r ≠ some .listSessions →
      restricted.1[n]? = (marked marks all.1)[n]?) ∧
    restricted.2.1.find? (supply.id k) = all.2.1.find? (supply.id k) := by
  induction requests generalizing ds ds' s s' w w' with
  | nil => exact ⟨nofun, agree.found⟩
  | cons r rest ih =>
    dsimp only
    rw [concerning, Service.serve]
    have hnext := holds.handle fresh settings r w
    cases hr : (subject? supply ds r).all (· == supply.id k) with
    | true =>
      simp only [Option.all_eq_true, beq_iff_eq] at hr
      obtain ⟨hanswer, hagree⟩ := agree.handle holds holds' fresh own settings w w' hr
      obtain ⟨hrest, hfound⟩ := ih hagree hnext
        (holds'.handle (fresh.drop k) settings r w') (Service.handle supply settings r s w).2.2
        (Service.handle (supply.drop k) settings r s' w').2.2
      refine ⟨fun n q hq hlist => ?_, hfound⟩
      cases n with
      | zero =>
        obtain rfl : r = q := Option.some.inj hq
        exact congrArg some (hanswer hlist).symm
      | succ n => exact hrest n q hq hlist
    | false =>
      have hne : subject? supply ds r ≠ some (supply.id k) := fun hs => by simp [hs] at hr
      obtain ⟨hfound, hcreated⟩ := holds.frame fresh settings w hne
      exact ih (agree.changed hfound hcreated) hnext holds'
        (Service.handle supply settings r s w).2.2 w'

end

end ScriptAgent.Service
