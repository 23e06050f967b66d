import ScriptAgent.Proofs.Service.Refinement

/-!
# Sessions that failed requests leave

A request that runs a task leaves the live sessions as they are, failed or not, unless it founds a
session: then that stays, even if the run fails and so no answer names it. After any requests, each
live session has been named to a client, or was left by a request that has failed; and the list of
sessions names them all (`serve_leftovers`).
-/

namespace ScriptAgent.Service

/-! ## Failures and names -/

/-- Whether a request fails: it is answered with an error, or not at all. -/
def isFailure : Except Crash Answer → Bool
  | .error _ => true
  | .ok answer => 400 ≤ answer.status

/-- An answer that is no error names a session to a client, on its own or in a list. -/
def Answer.Names (a : Answer) (id : String) : Prop :=
  a.status < 400 ∧
    (a.body.get? "session_id" = some (.str id) ∨ ∃ ids, a.body = Datum.texts ids ∧ id ∈ ids)

/-- A request founds a session: its task is valid and for no live session, and an agent can be made
for it. -/
def Founds (supply : Supply) (settings : Settings) (s : Store) (r : Request) : Prop :=
  ∃ t agent, taskOf r = some t ∧ t.sessionId ∉ s.ids ∧
    newAgent supply settings s.created t.budget = .ok agent

/-- The sessions that a request leaves, if it runs a task and fails. -/
def leftBy (r : Request) (s : Store) (outcome : Except Crash Answer × Store × World) :
    List String :=
  if asked r = some .runTask ∧ isFailure outcome.1 = true then
    outcome.2.1.ids.filter (· ∉ s.ids)
  else []

/-- The sessions that failed runs of tasks leave, when requests are answered one after the other. -/
def leftBehind (supply : Supply) (settings : Settings) :
    List Request → Store → World → List String
  | [], _, _ => []
  | r :: rest, s, w =>
    let outcome := handle supply settings r s w
    leftBy r s outcome ++ leftBehind supply settings rest outcome.2.1 outcome.2.2

theorem mem_leftBy_iff {r : Request} {s : Store} {outcome : Except Crash Answer × Store × World}
    {id : String} :
    id ∈ leftBy r s outcome ↔
      (asked r = some .runTask ∧ isFailure outcome.1 = true) ∧
        id ∈ outcome.2.1.ids ∧ id ∉ s.ids := by
  unfold leftBy
  split <;> simp_all

section
variable {supply : Supply} {settings : Settings} {ds : List Deed} {s : Store} {w : World}
  {id : String} {r : Request} {answer : Answer}

/-- The answer to a task that is run names its session, unless it is an error. -/
theorem names_runIn {task : String} (h : (runIn id task s w).1 = .ok answer)
    (success : answer.status < 400) : answer.Names id := by
  unfold runIn at h
  split at h
  · cases h
    exact absurd success (by decide : ¬ 404 < 400)
  · rcases hrun : Agent.run _ task Agent.never w with ⟨ending, agent', w'⟩
    rw [hrun] at h
    cases ending with
    | answered text =>
      cases h
      exact ⟨success, .inl rfl⟩
    | exhausted budget =>
      cases h
      exact absurd success (by decide : ¬ 422 < 400)
    | refused message =>
      cases h
      exact absurd success (by decide : ¬ 502 < 400)
    | cancelled iteration | unwritable refusal | broken failure => cases h

/-- A task that is run leaves the live sessions. -/
theorem ids_runIn (id task : String) (s : Store) (w : World) :
    (runIn id task s w).2.1.ids = s.ids := by
  unfold runIn
  split
  · rfl
  · exact Store.ids_update _ _ _

/-! ## One request -/

/-- A request that founds a session runs its task in that. -/
theorem Holds.exists_handle_of_founds (holds : Holds supply ds s) (fresh : supply.Fresh)
    (ha : asked r = some .runTask) (founds : Founds supply settings s r) (w : World) :
    ∃ task agent w', Service.handle supply settings r s w =
      runIn (supply.id s.created) task (s.add (supply.id s.created) agent) w' := by
  obtain ⟨t, agent, ht, hid, hmade⟩ := founds
  obtain ⟨d, hd, hrun⟩ := handle_of_task ha ht
  refine ⟨t.text, agent, w.log logger .info s!"Created session {supply.id s.created}", ?_⟩
  rw [hrun, runTask_eq (fun _ => holds.ne_empty fresh) hd, if_neg hid, hmade]

/-- A request that founds a session adds it to the live ones, and one that runs a task without
founding a session leaves them. -/
theorem Holds.ids_of_runTask (holds : Holds supply ds s) (fresh : supply.Fresh)
    (settings : Settings) (ha : asked r = some .runTask) (w : World) :
    (Founds supply settings s r →
      (Service.handle supply settings r s w).2.1.ids = s.ids ++ [supply.id s.created]) ∧
    (¬ Founds supply settings s r → (Service.handle supply settings r s w).2.1.ids = s.ids) := by
  refine ⟨fun founds => ?_, fun hfounds => ?_⟩
  · obtain ⟨task, agent, w', hrun⟩ := holds.exists_handle_of_founds fresh ha founds w
    rw [hrun, ids_runIn, Store.ids_add]
  · have effect := holds.effect fresh settings r w
    generalize deed? supply settings ds r = d, (Service.handle supply settings r s w).2.1 = s'
      at effect ⊢
    cases effect with
    | none => rfl
    | deleted asks | created asks => cases ha.symm.trans asks
    | ran asks task hid agent' => exact Store.ids_update _ _ _
    | ranAnew asks task hid made agent' => exact absurd ⟨_, _, task, hid, made⟩ hfounds

/-- A session that is live after a request was so before, or is named in the answer, unless the
request runs a task and fails. -/
theorem Holds.names_of_handle (holds : Holds supply ds s) (fresh : supply.Fresh)
    (settings : Settings) (w : World)
    (hid : id ∈ (Service.handle supply settings r s w).2.1.ids) :
    id ∈ s.ids ∨
    (∃ answer, (Service.handle supply settings r s w).1 = .ok answer ∧ answer.Names id) ∨
    (asked r = some .runTask ∧ isFailure (Service.handle supply settings r s w).1 = true) := by
  have contract := holds.contract fresh settings r w
  have effect := holds.effect fresh settings r w
  generalize deed? supply settings ds r = d, (Service.handle supply settings r s w).2.1 = s'
    at effect hid
  cases effect with
  | none => exact .inl hid
  | deleted asks hdeleted =>
    rw [Store.ids_remove] at hid
    exact .inl (List.mem_of_mem_filter hid)
  | created asks made =>
    have created := contract.created asks
    rw [made] at created
    rw [Store.ids_add, List.mem_append, List.mem_singleton] at hid
    obtain hid | rfl := hid
    · exact .inl hid
    · exact .inr (.inl ⟨_, created.1, (by decide : (200 : Nat) < 400), .inl rfl⟩)
  | ran asks task hlive agent' =>
    rw [Store.ids_update] at hid
    exact .inl hid
  | ranAnew asks task hnew made agent' =>
    rw [Store.ids_update, Store.ids_add, List.mem_append, List.mem_singleton] at hid
    obtain hid | rfl := hid
    · exact .inl hid
    obtain ⟨text, agent, w', hrun⟩ :=
      holds.exists_handle_of_founds fresh asks ⟨_, _, task, hnew, made⟩ w
    rw [hrun]
    cases hresult : (runIn (supply.id s.created) text _ w').1 with
    | error crash => exact .inr (.inr ⟨asks, rfl⟩)
    | ok answer =>
      rcases Nat.lt_or_ge answer.status 400 with success | failure
      · exact .inr (.inl ⟨answer, rfl, names_runIn hresult success⟩)
      · exact .inr (.inr ⟨asks, decide_eq_true failure⟩)

/-! ## Requests one after the other -/

/-- A session that is live after requests was so before, or has been named in an answer, or was left
by a request that has failed. -/
theorem Holds.names_of_serve (holds : Holds supply ds s) (fresh : supply.Fresh)
    (settings : Settings) (requests : List Request) (w : World)
    (hid : id ∈ (Service.serve supply settings requests s w).2.1.ids) :
    id ∈ s.ids ∨
    (∃ answer, .ok answer ∈ (Service.serve supply settings requests s w).1 ∧ answer.Names id) ∨
    id ∈ leftBehind supply settings requests s w := by
  induction requests generalizing ds s w with
  | nil => exact .inl hid
  | cons r rest ih =>
    have hnext := holds.handle fresh settings r w
    by_cases hlive : id ∈ s.ids
    · exact .inl hlive
    rcases ih hnext _ hid with hid | ⟨answer, hmem, names⟩ | hleft
    · rcases holds.names_of_handle fresh settings w hid with
        hid' | ⟨answer, hanswer, names⟩ | hfailed
      · exact absurd hid' hlive
      · exact .inr (.inl ⟨answer, hanswer ▸ List.mem_cons_self, names⟩)
      · have hleft := mem_leftBy_iff.2 ⟨hfailed, hid, hlive⟩
        exact .inr (.inr (List.mem_append_left _ hleft))
    · exact .inr (.inl ⟨answer, List.mem_cons_of_mem _ hmem, names⟩)
    · exact .inr (.inr (List.mem_append_right _ hleft))

end

/-- After any requests, a request that runs a task, failed or not, leaves the live sessions as they
are, unless it founds a session; and then it leaves that one more. Each live session has been named
in an answer that is no error, or was left by a request that has failed; and the list of sessions
names all of them. -/
theorem serve_leftovers (supply : Supply) (settings : Settings) (fresh : supply.Fresh)
    (requests : List Request) (w : World) :
    ∃ answers s w', serve supply settings requests .empty w = (answers, s, w') ∧
      (∀ r, asked r = some .runTask →
        (¬ Founds supply settings s r → (handle supply settings r s w').2.1.ids = s.ids) ∧
        (Founds supply settings s r → supply.id s.created ∉ s.ids ∧
          (handle supply settings r s w').2.1.ids = s.ids ++ [supply.id s.created])) ∧
      (∀ id ∈ s.ids, (∃ answer, .ok answer ∈ answers ∧ answer.Names id) ∨
        id ∈ leftBehind supply settings requests .empty w) ∧
      ∀ r, asked r = some .listSessions → ∃ answer,
        (handle supply settings r s w').1 = .ok answer ∧ ∀ id ∈ s.ids, answer.Names id := by
  have holds := (holds_empty supply).serve fresh settings requests w
  refine ⟨_, _, _, rfl, fun r ha => ?_, fun id hid => ?_, fun r ha => ?_⟩
  · obtain ⟨hfounds, hnot⟩ := holds.ids_of_runTask fresh settings ha _
    exact ⟨hnot, fun founds => ⟨holds.new_id fresh, hfounds founds⟩⟩
  · exact ((holds_empty supply).names_of_serve fresh settings requests w hid).resolve_left nofun
  · have contract := holds.contract fresh settings r
      (serve supply settings requests .empty w).2.2
    have listed := (contract.listed ha).1
    exact ⟨_, listed, fun id hid => ⟨(by decide : (200 : Nat) < 400), .inr ⟨_, rfl, hid⟩⟩⟩

/-- A request that runs a task, for no session. -/
def loneTask : Request :=
  ⟨"POST", "/agent", "", Utf8.encode "\x7b\"task\": \"a\"\x7d"⟩

/-- After a task has failed, the list of sessions names the session that was founded for it. -/
theorem serve_leftovers_plain :
    plainSupply.Fresh ∧
    ∃ answers s w', serve plainSupply default [loneTask] .empty default = (answers, s, w') ∧
      "s" ∈ leftBehind plainSupply default [loneTask] .empty default ∧
      ∀ r, asked r = some .listSessions → ∃ answer,
        (handle plainSupply default r s w').1 = .ok answer ∧ answer.Names "s" := by
  obtain ⟨answers, s, w', hserve, -, -, listed⟩ := serve_leftovers plainSupply default
    fresh_plainSupply [loneTask] default
  refine ⟨fresh_plainSupply, answers, s, w', hserve, by decide +kernel, fun r ha => ?_⟩
  obtain ⟨answer, hanswer, names⟩ := listed r ha
  have ids : (serve plainSupply default [loneTask] .empty default).2.1.ids = ["s"] := by
    decide +kernel
  rw [hserve] at ids
  exact ⟨answer, hanswer, names "s" (ids ▸ List.mem_singleton_self "s")⟩

/-- A request that fails can leave a session that no answer has named. -/
theorem failed_run_leaves_session :
    (¬ ∀ requests r, asked r = some .runTask →
      let (_, s, w) := serve plainSupply default requests .empty default
      isFailure (handle plainSupply default r s w).1 = true →
        (handle plainSupply default r s w).2.1.ids = s.ids) ∧
    ¬ ∀ requests,
      let (answers, s, _) := serve plainSupply default requests .empty default
      ∀ id ∈ s.ids, ∃ answer, .ok answer ∈ answers ∧ answer.Names id := by
  have asked : asked loneTask = some .runTask := by decide +kernel
  have failed : isFailure (handle plainSupply default loneTask .empty default).1 = true := by
    decide +kernel
  have ids : (handle plainSupply default loneTask .empty default).2.1.ids = ["s"] := by
    decide +kernel
  refine ⟨fun leaves => ?_, fun named => ?_⟩
  · have unchanged : (handle plainSupply default loneTask .empty default).2.1.ids = [] :=
      leaves [] loneTask asked failed
    exact absurd (ids.symm.trans unchanged) (List.cons_ne_nil _ _)
  · have live : "s" ∈ (handle plainSupply default loneTask .empty default).2.1.ids := by
      rw [ids]
      exact List.mem_singleton_self _
    obtain ⟨answer, hmem, success, -⟩ := named [loneTask] "s" live
    have hanswer : .ok answer = (handle plainSupply default loneTask .empty default).1 :=
      List.mem_singleton.1 hmem
    rw [← hanswer] at failed
    exact Nat.not_lt.2 (of_decide_eq_true failed) success

end ScriptAgent.Service
