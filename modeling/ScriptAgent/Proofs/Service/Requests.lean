import ScriptAgent.Service

/-!
# Requests of the service

What a request asks for (`asked`), and what the service does then: a session is created with a new
agent if that can be made, and a task is run in its session if that is live, and in a new one
otherwise (`runTask_eq`).
-/

namespace ScriptAgent.Service

/-- What a request asks for, if it asks for anything. -/
def asked (r : Request) : Option Action :=
  match pathOf r.address with
  | .error _ => none
  | .ok path => (Route.find? path).bind (·.action? r.method)

/-- The task in the body of a request, if the body is valid. -/
def taskOf (r : Request) : Option Task :=
  match readBody r.contentType r.body with
  | .error _ => none
  | .ok d => (Task.ofBody d).toOption

/-- The session that a task asks for. -/
def Task.sessionId (t : Task) : String := t.session.getD ""

/-- The agent of the session that is created after `k` others. -/
def newAgent (supply : Supply) (settings : Settings) (k : Nat) (budget : Option Int) :
    Except Crash Agent :=
  match supply.provider k with
  | .error fault => .error (.provider fault)
  | .ok provider =>
    let budget := match budget with
      | some n => .int n
      | none => .none
    match Agent.make settings provider Agent.defaultTools budget .none with
    | .error reason => .error (.unusable reason)
    | .ok agent => .ok agent

/-- Answers requests one after the other. -/
def serve (supply : Supply) (settings : Settings) :
    List Request → Store → World → List (Except Crash Answer) × Store × World
  | [], s, w => ([], s, w)
  | r :: rest, s, w =>
    let (answer, s, w) := handle supply settings r s w
    let (answers, s, w) := serve supply settings rest s w
    (answer :: answers, s, w)

/-- Names of sessions are fresh. -/
structure Supply.Fresh (supply : Supply) : Prop where
  injective : Function.Injective supply.id
  named : ∀ k, supply.id k ≠ ""

/-- A supply of names that are as long as the number of sessions before them, and of models without
replies. -/
def plainSupply : Supply where
  id k := String.ofList (List.replicate (k + 1) 's')
  provider _ := .ok (.scripted (.ofReplies []))

theorem fresh_plainSupply : plainSupply.Fresh where
  injective j k h := by
    have hchars := String.ofList_inj.1 h
    simpa using congrArg List.length hchars
  named k h := by
    have hchars := congrArg String.toList h
    simp [plainSupply, List.replicate_succ] at hchars

section
variable {supply : Supply} {settings : Settings} {s : Store} {w : World} {r : Request}

/-- A request is done as it asks. -/
theorem handle_of_asked {a : Action} (ha : asked r = some a) :
    handle supply settings r s w = perform supply settings r a s w := by
  unfold asked at ha
  unfold handle
  cases hpath : pathOf r.address with
  | error fault =>
    rw [hpath] at ha
    cases ha
  | ok path =>
    rw [hpath] at ha
    obtain ⟨route, hroute, haction⟩ := Option.bind_eq_some_iff.1 ha
    simp only [hroute, haction]

/-- A request that asks for nothing is answered in the same way everywhere, and leaves the store. -/
theorem handle_of_not_asked (ha : asked r = none) :
    ∃ result, ∀ supply settings s w, handle supply settings r s w = (result, s, w) := by
  unfold asked at ha
  cases hpath : pathOf r.address with
  | error fault => exact ⟨_, fun _ _ _ _ => by simp only [handle, hpath]; rfl⟩
  | ok path =>
    rw [hpath] at ha
    cases hroute : Route.find? path with
    | none => exact ⟨_, fun _ _ _ _ => by simp only [handle, hpath, hroute]; rfl⟩
    | some route =>
      have haction : route.action? r.method = none := by
        simpa only [hroute, Option.bind_some] using ha
      exact ⟨_, fun _ _ _ _ => by simp only [handle, hpath, hroute, haction]; rfl⟩

/-- A session is created with a new agent, if that can be made. -/
theorem createSession_eq (supply : Supply) (settings : Settings) (budget : Option Int) (s : Store)
    (w : World) :
    createSession supply settings budget s w =
      match newAgent supply settings s.created budget with
      | .error crash => (.error crash, s, w)
      | .ok agent => (.ok (supply.id s.created), s.add (supply.id s.created) agent,
          w.log logger .info s!"Created session {supply.id s.created}") := by
  unfold createSession newAgent
  cases supply.provider s.created with
  | error fault => rfl
  | ok provider =>
    dsimp only
    generalize Agent.make settings provider Agent.defaultTools _ .none = made
    cases made <;> rfl

/-- A task is run in its session if that is live, and in a new one otherwise. -/
theorem sessionFor_eq (named : ∀ id ∈ s.ids, id ≠ "") (t : Task) :
    sessionFor supply settings t s w =
      if t.sessionId ∈ s.ids then (.ok t.sessionId, s, w)
      else createSession supply settings t.budget s w := by
  unfold sessionFor
  dsimp only
  by_cases hid : t.sessionId ∈ s.ids
  · have hempty : t.sessionId.isEmpty = false := by
      rw [← Bool.not_eq_true, String.isEmpty_iff]
      exact named _ hid
    have hcond : (!t.sessionId.isEmpty && s.ids.contains t.sessionId) = true := by
      rw [hempty, List.contains_iff_mem.2 hid]
      rfl
    rw [if_pos hid]
    exact if_pos hcond
  · have hcond : ¬ (!t.sessionId.isEmpty && s.ids.contains t.sessionId) = true := fun h =>
      hid (List.contains_iff_mem.1 (Bool.and_eq_true_iff.1 h).2)
    rw [if_neg hid]
    exact if_neg hcond

/-- A task with a valid body is run in its session if that is live, and in a new one otherwise. -/
theorem runTask_eq (named : ∀ id ∈ s.ids, id ≠ "") {d : Datum} {t : Task}
    (hd : Task.ofBody d = .ok t) :
    runTask supply settings d s w =
      if t.sessionId ∈ s.ids then runIn t.sessionId t.text s w
      else match newAgent supply settings s.created t.budget with
        | .error crash => (.error crash, s, w)
        | .ok agent => runIn (supply.id s.created) t.text (s.add (supply.id s.created) agent)
            (w.log logger .info s!"Created session {supply.id s.created}") := by
  unfold runTask
  simp only [hd, sessionFor_eq named]
  by_cases hid : t.sessionId ∈ s.ids
  · simp only [if_pos hid]
  · simp only [if_neg hid, createSession_eq]
    cases newAgent supply settings s.created t.budget <;> rfl

/-- A request with a valid task runs it. -/
theorem handle_of_task {t : Task} (ha : asked r = some .runTask) (ht : taskOf r = some t) :
    ∃ d, Task.ofBody d = .ok t ∧ ∀ supply settings s w,
      handle supply settings r s w = runTask supply settings d s w := by
  unfold taskOf at ht
  cases hbody : readBody r.contentType r.body with
  | error fault =>
    rw [hbody] at ht
    cases ht
  | ok d =>
    rw [hbody] at ht
    refine ⟨d, ?_, fun _ _ _ _ => by simp only [handle_of_asked ha, perform, hbody]⟩
    cases hd : Task.ofBody d with
    | error issues => simp [hd, Except.toOption] at ht
    | ok u => simpa [hd, Except.toOption] using ht

/-- A request whose body holds no valid task is refused, in the same way everywhere. -/
theorem handle_of_invalid (ha : asked r = some .runTask) (ht : taskOf r = none) :
    ∃ answer, (answer.status = 422 ∨ answer.status = 400) ∧
      ∀ supply settings s w, handle supply settings r s w = (.ok answer, s, w) := by
  unfold taskOf at ht
  cases hbody : readBody r.contentType r.body with
  | error fault =>
    cases fault with
    | noJson position =>
      exact ⟨_, .inl rfl, fun _ _ _ _ => by simp only [handle_of_asked ha, perform, hbody]; rfl⟩
    | unreadable =>
      exact ⟨_, .inr rfl, fun _ _ _ _ => by simp only [handle_of_asked ha, perform, hbody]; rfl⟩
  | ok d =>
    rw [hbody] at ht
    cases hd : Task.ofBody d with
    | error issues =>
      exact ⟨invalid issues, .inl rfl, fun _ _ _ _ => by
        simp only [handle_of_asked ha, perform, hbody, runTask, hd]⟩
    | ok u => simp [hd, Except.toOption] at ht

/-- A task is run in its session with the agent of that. -/
theorem runIn_eq {id task : String} {agent agent' : Agent} {ending : Agent.Ending} {w w' : World}
    (found : s.find? id = some agent)
    (hrun : agent.run task Agent.never w = (ending, agent', w')) :
    runIn id task s w =
      ((answerRun id ending w').1, s.update id agent', (answerRun id ending w').2) := by
  unfold runIn
  simp only [found, hrun]

/-- The answer about a run does not depend on the surroundings. -/
theorem answerRun_fst (id : String) (ending : Agent.Ending) (w w' : World) :
    (answerRun id ending w).1 = (answerRun id ending w').1 := by
  unfold answerRun
  split <;> rfl

end

end ScriptAgent.Service
