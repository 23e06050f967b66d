import ScriptAgent.Proofs.Agent.History
import ScriptAgent.Proofs.Exchange.Holdable

/-!
# Rejected configurations

Names are checked before anything is done with them. So a sandbox reports a name exactly if the
check rejects one, and is then the sandbox of before, with nothing run (`Sandbox.bind_eq_name_iff`,
`Sandbox.execute_eq_name_iff`): no program on the heap reports a name, whatever scripts and tools
do.

An agent has its names checked when it is made. Its runs use the tools that it was made with, so
none of them ends with a rejection (`Agent.rejected_unchanged`, for all models).
-/

namespace ScriptAgent

open Script

namespace Sandbox

variable {s s' : Sandbox} {tools : ToolMap} {names : List String} {code : String} {w w' : World}
  {f : Failure} {fault : NameFault}

/-- Names of which one is rejected do not pass the check, which reports one that is rejected. -/
theorem checkNames_of_rejected {n : String} (hn : n ∈ names) (rejected : nameFault? n ≠ none) :
    ∃ fault, checkNames names = .error fault ∧ ∃ m ∈ names, nameFault? m = some fault := by
  rcases hfind : names.findSome? nameFault? with _ | fault
  · exact absurd (List.findSome?_eq_none_iff.1 hfind n hn) rejected
  · obtain ⟨m, hm, hfault⟩ := List.exists_of_findSome?_eq_some hfind
    exact ⟨fault, by rw [checkNames, hfind], m, hm, hfault⟩

/-! ## Operations on the heap -/

/-- A program of the host does not report a name. -/
theorem perform_ne_name {α : Type} {p : Program α} :
    s.perform p w ≠ (.error (.name fault), s', w') := by
  intro h
  unfold perform at h
  split at h <;> cases h

/-- Unbinding does not report a name. -/
theorem unbindAll_ne_name (names : List String) (s : Sandbox) (w : World) :
    unbindAll names s w ≠ (.error (.name fault), s', w') := by
  induction names generalizing s w with
  | nil => exact nofun
  | cons name rest ih =>
    intro h
    rw [unbindAll] at h
    split at h
    · exact ih _ _ h
    · next e s₁ w₁ failed =>
      cases h
      exact perform_ne_name failed

/-- Binding does not report a name. -/
theorem bindAll_ne_name (tools : ToolMap) (s : Sandbox) (w : World) :
    bindAll tools s w ≠ (.error (.name fault), s', w') := by
  induction tools generalizing s w with
  | nil => exact nofun
  | cons entry rest ih =>
    intro h
    rw [bindAll] at h
    dsimp only at h
    split at h
    · exact ih _ _ h
    · next e s₁ w₁ failed =>
      cases h
      exact perform_ne_name failed

/-- Binding tools reports a name exactly if the check rejects it, and has then done nothing. -/
theorem bind_eq_name_iff : s.bind tools w = (.error (.name fault), s', w') ↔
    checkNames (tools.map Prod.fst) = .error fault ∧ s' = s ∧ w' = w := by
  rw [bind]
  rcases checkNames (tools.map Prod.fst) with fault' | _
  · simp only [Prod.mk.injEq, Except.error.injEq, Failure.name.injEq]
    exact and_congr Iff.rfl (and_congr eq_comm eq_comm)
  · refine iff_of_false (fun h => ?_) nofun
    dsimp only at h
    split at h
    · next e s₁ w₁ failed =>
      cases h
      exact unbindAll_ne_name _ _ _ failed
    · exact bindAll_ne_name _ _ _ h

/-! ## Executions -/

/-- Reading the print buffer does not report a name. -/
theorem printBuffer_ne_name : s.printBuffer w ≠ (.error (.name fault), s', w') := by
  intro h
  unfold printBuffer at h
  split at h
  · split at h <;> cases h
  · next e s₁ w₁ failed =>
    cases h
    exact perform_ne_name failed

/-- The end of a script that has failed does not report a name. -/
theorem failedRun_ne_name {message : String} :
    s.failedRun message w ≠ (.error (.name fault), s', w') := by
  intro h
  unfold failedRun at h
  split at h
  · cases h
  · next e s₁ w₁ failed =>
    cases h
    exact printBuffer_ne_name failed

/-- The end of a script does not report a name. -/
theorem endedRun_ne_name : s.endedRun w ≠ (.error (.name fault), s', w') := by
  intro h
  unfold endedRun at h
  split at h
  · next e s₁ w₁ failed =>
    cases h
    exact printBuffer_ne_name failed
  · split at h
    · next e s₁ w₁ failed =>
      cases h
      exact perform_ne_name failed
    · split at h <;> cases h

/-- A script does not report a name. -/
theorem runParsed_ne_name {script : Function} :
    s.runParsed script w ≠ (.error (.name fault), s', w') := by
  intro h
  unfold runParsed at h
  split at h
  · exact endedRun_ne_name h
  · dsimp only at h
    split at h <;> exact failedRun_ne_name h
  · exact failedRun_ne_name h

/-- An execution reports a name exactly if the check rejects it, and has then done nothing. -/
theorem execute_eq_name_iff : s.execute code tools w = (.error (.name fault), s', w') ↔
    checkNames (tools.map Prod.fst) = .error fault ∧ s' = s ∧ w' = w := by
  rw [← bind_eq_name_iff, execute]
  split
  · next e s₁ w₁ failed => rw [failed]; simp only [Prod.mk.injEq, Except.error.injEq]
  · next s₁ w₁ bound =>
    rw [bound]
    refine iff_of_false (fun h => ?_) nofun
    split at h
    · next e s₁ w₁ failed =>
      cases h
      exact perform_ne_name failed
    · split at h
      · exact runParsed_ne_name h
      · cases h

/-! ## Globals -/

/-- A reserved name is given no value. -/
theorem setGlobal_reserved {name : String} (reserved : name ∈ reservedNames) (d : Datum) :
    s.setGlobal name d w = (.error (.name (.reservedGlobal name)), s, w) := by
  rw [setGlobal, if_pos (List.contains_iff_mem.2 reserved)]

/-- A value that scripts cannot hold is given to no global. -/
theorem setGlobal_of_unholdable {name : String} {d : Datum} (unholdable : d.isHoldable = false) :
    ∃ f, s.setGlobal name d w = (.error f, s, w) := by
  rw [setGlobal]
  split
  · exact ⟨_, rfl⟩
  · have hencode := Exchange.isOk_encode s.heap d
    split
    · exact ⟨_, rfl⟩
    · next encoded =>
      rw [unholdable, encoded] at hencode
      cases hencode

end Sandbox

namespace Agent

variable {σ : Type}

/-- A run has ended because a name was rejected. -/
def Ending.IsRejection (ending : Ending) : Prop := ∃ fault, ending = .broken (.name fault)

/-- A run ends with a rejection only if an execution does. -/
theorem Backend.not_isRejection_iterate (b : Backend σ)
    (accepts : ∀ code s fault, (b.execute code s).1 ≠ .error (.name fault)) (p : Plan) (left : Nat)
    (c : Conversation) (s : σ) : ¬ (b.iterate p left c s).1.IsRejection := by
  rintro ⟨fault, h⟩
  induction left generalizing c s with
  | zero => cases h
  | succ left ih =>
    rw [Backend.iterate] at h
    dsimp only at h
    split at h
    · cases h
    split at h
    · cases h
    · cases h
    · next code s₁ _ =>
      have hexecute := accepts code s₁ fault
      split at h
      · next failure s₂ failed =>
        rw [failed] at hexecute
        cases h
        exact hexecute rfl
      · split at h
        · next answer _ =>
          simp only [Backend.conclude] at h
          split at h <;> cases h
        · exact ih _ _ h
        · exact ih _ _ h

/-- What runs of an agent, one after the other, end with. -/
def endings : List Errand → Agent → World → List Ending
  | [], _, _ => []
  | r :: rest, a, w =>
    let (ending, a', w') := a.run r.task r.isCancelled w
    ending :: endings rest a' w'

/-- The model and the sandbox of an agent, with another model. -/
def backendWith (tools : Sandbox.ToolMap)
    (generate : String → State → Model.Generated × State) : Backend State :=
  { backend tools with generate := generate }

/-- An agent is made with names that pass the check. -/
theorem checkNames_of_make {settings : Settings} {provider : Model.Provider}
    {tools : Sandbox.ToolMap} {budget name : Datum} {a : Agent}
    (made : Agent.make settings provider tools budget name = .ok a) :
    Sandbox.checkNames (a.tools.map Prod.fst) = .ok () := by
  unfold Agent.make at made
  split at made
  · cases made
  · next accepted =>
    split at made
    · cases made
    · cases made
      exact accepted

section
variable {tools : Sandbox.ToolMap} (accepted : Sandbox.checkNames (tools.map Prod.fst) = .ok ())
include accepted

/-- With names that pass the check, no run is rejected, whatever the model and the sandbox do. -/
theorem not_isRejection_run (generate : String → State → Model.Generated × State) (p : Plan)
    (task : String) (c : Conversation) (s : State) :
    ¬ ((backendWith tools generate).run p task c s).1.IsRejection := by
  refine Backend.not_isRejection_iterate _ (fun code s fault h => ?_) p _ _ _
  have hexecute : s.sandbox.execute code tools s.world = (.error (.name fault), _, _) :=
    Prod.ext h rfl
  rw [Sandbox.execute_eq_name_iff, accepted] at hexecute
  cases hexecute.1

/-- With names that pass the check, none of a sequence of runs is rejected. -/
theorem not_isRejection_endings (errands : List Errand) (a : Agent) (w : World)
    (own : a.tools = tools) : ∀ ending ∈ endings errands a w, ¬ ending.IsRejection := by
  induction errands generalizing a w with
  | nil => exact nofun
  | cons r rest ih =>
    subst own
    intro ending hending
    obtain rfl | hending := List.mem_cons.1 hending
    · exact not_isRejection_run accepted (backend a.tools).generate (a.plan r.isCancelled) r.task
        a.conversation ⟨a.provider, a.sandbox, w⟩
    · exact ih (a.run r.task r.isCancelled w).2.1 _ rfl ending hending

end

/-- A rejected configuration changes nothing. If a name among tools is rejected, wherever it stands,
binding the tools and executing a script with them report a name that is rejected, and the sandbox
and the world are those of before. A reserved name is given no value, nor is a value that scripts
cannot hold given to any name, and the sandbox is that of before. No run of an agent that could be
made ends with a rejection: neither of a sequence of its own runs, nor of any run with its tools,
whatever the model does and whatever state the run begins in. -/
theorem rejected_unchanged :
    (∀ (s : Sandbox) (tools : Sandbox.ToolMap) (code : String) (w : World),
      (∃ n ∈ tools.map Prod.fst, Sandbox.nameFault? n ≠ none) →
      ∃ fault, (∃ n ∈ tools.map Prod.fst, Sandbox.nameFault? n = some fault) ∧
        s.bind tools w = (.error (.name fault), s, w) ∧
        s.execute code tools w = (.error (.name fault), s, w)) ∧
    (∀ (s : Sandbox) (name : String) (d : Datum) (w : World),
      (name ∈ Sandbox.reservedNames →
        s.setGlobal name d w = (.error (.name (.reservedGlobal name)), s, w)) ∧
      (d.isHoldable = false → ∃ f, s.setGlobal name d w = (.error f, s, w))) ∧
    ∀ (settings : Settings) (provider : Model.Provider) (tools : Sandbox.ToolMap)
      (budget name : Datum) (a : Agent), Agent.make settings provider tools budget name = .ok a →
      (∀ errands w, ∀ ending ∈ endings errands a w, ¬ ending.IsRejection) ∧
      ∀ generate p task c s,
        ¬ ((backendWith a.tools generate).run p task c s).1.IsRejection := by
  refine ⟨fun s tools code w ⟨n, hn, rejected⟩ => ?_, fun s name d w => ?_, ?_⟩
  · obtain ⟨fault, hcheck, hfault⟩ := Sandbox.checkNames_of_rejected hn rejected
    exact ⟨fault, hfault, Sandbox.bind_eq_name_iff.2 ⟨hcheck, rfl, rfl⟩,
      Sandbox.execute_eq_name_iff.2 ⟨hcheck, rfl, rfl⟩⟩
  · exact ⟨fun reserved => Sandbox.setGlobal_reserved reserved d, Sandbox.setGlobal_of_unholdable⟩
  · intro settings provider tools budget name a made
    have accepted := checkNames_of_make made
    exact ⟨fun errands w => not_isRejection_endings accepted errands a w rfl,
      not_isRejection_run accepted⟩

/-- A name is rejected between two that are accepted, a reserved name and a list with an integer
that is too large are refused, and an agent with a tool is made and runs a task twice. -/
theorem rejected_unchanged_between :
    (∃ n ∈ ["add", "add?", "sub"], Sandbox.nameFault? n ≠ none) ∧
    (∃ fault, (∃ n ∈ ["add", "add?", "sub"], Sandbox.nameFault? n = some fault) ∧
      Sandbox.empty.bind [("add", default), ("add?", default), ("sub", default)] default =
        (.error (.name fault), .empty, default) ∧
      Sandbox.empty.execute "x = 1" [("add", default), ("add?", default), ("sub", default)]
        default = (.error (.name fault), .empty, default)) ∧
    "print" ∈ Sandbox.reservedNames ∧
    Sandbox.empty.setGlobal "print" .none default =
      (.error (.name (.reservedGlobal "print")), .empty, default) ∧
    (Datum.list [.int 1, .int 9223372036854775808]).isHoldable = false ∧
    (∃ f, Sandbox.empty.setGlobal "x" (.list [.int 1, .int 9223372036854775808]) default =
      (.error f, .empty, default)) ∧
    ∃ a, Agent.make default default [("add", default)] (.int 3) (.str "adder") = .ok a ∧
      ∀ ending ∈ endings [⟨"t", never⟩, ⟨"t", never⟩] a default, ¬ ending.IsRejection := by
  obtain ⟨hnames, hglobals, hagents⟩ := rejected_unchanged
  have rejected : ∃ n ∈ ["add", "add?", "sub"], Sandbox.nameFault? n ≠ none :=
    ⟨"add?", by simp, by decide⟩
  have reserved : "print" ∈ Sandbox.reservedNames := by decide
  have unholdable : (Datum.list [.int 1, .int 9223372036854775808]).isHoldable = false := by decide
  have made : Agent.make default default [("add", default)] (.int 3) (.str "adder") =
      .ok ⟨"adder", 3, [("add", default)], default, .empty, .empty⟩ := rfl
  exact ⟨rejected,
    hnames _ [("add", default), ("add?", default), ("sub", default)] _ _ rejected, reserved,
    (hglobals _ _ _ _).1 reserved, unholdable, (hglobals _ _ _ _).2 unholdable, _, made,
    (hagents _ _ _ _ _ _ made).1 _ _⟩

end Agent

end ScriptAgent
