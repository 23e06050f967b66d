import ScriptAgent.Proofs.Agent.Trace
import ScriptAgent.Proofs.Sandbox.Surroundings

/-!
# Runs and their surroundings

A model is an object of its own if its replies depend on the object and its prompts only. An agent
with such a model and with steady tools is steady: how its runs end, and what they leave in it, does
not depend on the surroundings (`Steady.run`).
-/

namespace ScriptAgent

/-- The replies of a model depend on the model and its prompts only, now and later. -/
def Model.Provider.Own (p : Provider) : Prop :=
  ∃ own : Provider → Prop, own p ∧ ∀ q, own q → ∀ prompt,
    ScriptAgent.Steady (q.generate prompt) ∧ ∀ w, own (q.generate prompt w).2.1

namespace Model.Provider

variable {p : Provider}

/-- A model of its own replies in the same way in any surroundings. -/
theorem Own.steady (own : p.Own) (prompt : String) : ScriptAgent.Steady (p.generate prompt) := by
  obtain ⟨_, hp, hown⟩ := own
  exact (hown p hp prompt).1

/-- A model of its own stays one. -/
theorem Own.generate (own : p.Own) (prompt : String) (w : World) :
    (p.generate prompt w).2.1.Own := by
  obtain ⟨P, hp, hown⟩ := own
  exact ⟨P, (hown p hp prompt).2 w, hown⟩

/-- A scripted model is an object of its own. -/
theorem own_scripted (s : Scripted) : (scripted s).Own := by
  refine ⟨fun q => ∃ s, q = scripted s, ⟨s, rfl⟩, ?_⟩
  rintro q ⟨s, rfl⟩ prompt
  exact ⟨fun _ _ => ⟨rfl, rfl⟩, fun _ => ⟨_, rfl⟩⟩

end Model.Provider

namespace Agent

/-- What the runs of an agent do does not depend on the surroundings. -/
structure Steady (a : Agent) : Prop where
  provider : a.provider.Own
  tools : ∀ e ∈ a.tools, e.2.Steady
  sandbox : Sandbox.IsSteady a.sandbox

/-- Two states of a run are the same apart from the surroundings, which do not matter to them. -/
structure Alike (s s' : State) : Prop where
  provider : s'.provider = s.provider
  sandbox : s'.sandbox = s.sandbox
  own : s.provider.Own
  steady : Sandbox.IsSteady s.sandbox

section
variable {tools : Sandbox.ToolMap} {s s' : State}

/-- A log record makes no difference. -/
theorem Alike.note (alike : Alike s s') (tools : Sandbox.ToolMap) (p : Plan)
    (level level' : Level) (message message' : String) :
    Alike ((backend tools).note p level message s) ((backend tools).note p level' message' s') :=
  ⟨alike.provider, alike.sandbox, alike.own, alike.steady⟩

/-- The record of a failure makes no difference. -/
theorem Alike.noteFailure (alike : Alike s s') (tools : Sandbox.ToolMap) (p : Plan)
    (e : Sandbox.Execution) :
    Alike ((backend tools).noteFailure p e s) ((backend tools).noteFailure p e s') := by
  unfold Backend.noteFailure
  split
  · exact alike.note tools p _ _ _ _
  · exact alike
  · exact alike

/-- The answer of a script makes the same end. -/
theorem Alike.conclude (alike : Alike s s') (tools : Sandbox.ToolMap) (p : Plan)
    (iteration : Nat) (answer : Datum) :
    ((backend tools).conclude p iteration answer s).1 =
      ((backend tools).conclude p iteration answer s').1 ∧
    Alike ((backend tools).conclude p iteration answer s).2
      ((backend tools).conclude p iteration answer s').2 := by
  unfold Backend.conclude
  split
  · exact ⟨rfl, alike⟩
  · exact ⟨rfl, alike.note tools p _ _ _ _⟩

/-- A model replies to alike states in the same way. -/
theorem Alike.generate (alike : Alike s s') (tools : Sandbox.ToolMap) (prompt : String) :
    ∃ g s₁ s₁', (backend tools).generate prompt s = (g, s₁) ∧
      (backend tools).generate prompt s' = (g, s₁') ∧ Alike s₁ s₁' := by
  obtain ⟨g, q, w, w', hg, hg'⟩ := (alike.own.steady prompt).exists_eq s.world s'.world
  have own := alike.own.generate prompt s.world
  rw [hg] at own
  refine ⟨g, { s with provider := q, world := w }, { s' with provider := q, world := w' }, ?_, ?_,
    rfl, alike.sandbox, own, alike.steady⟩
  · simp only [backend, hg]
  · simp only [backend, alike.provider, hg']

/-- A script does the same in alike states. -/
theorem Alike.execute (alike : Alike s s') (steady : ∀ e ∈ tools, e.2.Steady) (code : String) :
    ∃ r s₁ s₁', (backend tools).execute code s = (r, s₁) ∧
      (backend tools).execute code s' = (r, s₁') ∧ Alike s₁ s₁' := by
  obtain ⟨r, sandbox, w, w', he, he'⟩ :=
    (Sandbox.steady_execute alike.steady steady code).exists_eq s.world s'.world
  have steady' := Sandbox.invariant_steady.preserved.execute alike.steady code _ (fun _ => steady) s.world
  rw [he] at steady'
  refine ⟨r, { s with sandbox := sandbox, world := w }, { s' with sandbox := sandbox, world := w' },
    ?_, ?_, alike.provider, rfl, alike.own, steady'⟩
  · simp only [backend, he]
  · simp only [backend, alike.sandbox, he']

/-- The loop of a run does the same in alike states. -/
theorem Alike.iterate (alike : Alike s s') (steady : ∀ e ∈ tools, e.2.Steady) (p : Plan)
    (left : Nat) (c : Conversation) :
    ∃ ending c' s₁ s₁', (backend tools).iterate p left c s = (ending, c', s₁) ∧
      (backend tools).iterate p left c s' = (ending, c', s₁') ∧ Alike s₁ s₁' := by
  induction left generalizing s s' c with
  | zero => exact ⟨_, _, _, _, rfl, rfl, alike.note tools p _ _ _ _⟩
  | succ left ih =>
    cases hc : p.isCancelled (p.budget - left) with
    | true =>
      exact ⟨_, _, _, _, Backend.iterate_cancelled hc, Backend.iterate_cancelled hc,
        alike.note tools p _ _ _ _⟩
    | false =>
      obtain ⟨g, s₁, s₁', hg, hg', alike₁⟩ := alike.generate tools (p.prompt c)
      cases g with
      | refused message =>
        exact ⟨_, _, _, _, Backend.iterate_refused hc hg, Backend.iterate_refused hc hg', alike₁⟩
      | crashed crash =>
        exact ⟨_, _, _, _, Backend.iterate_crashed hc hg, Backend.iterate_crashed hc hg',
          alike₁.note tools p _ _ _ _⟩
      | code code =>
        obtain ⟨r, s₂, s₂', he, he', alike₂⟩ := alike₁.execute steady code
        cases r with
        | error failure =>
          exact ⟨_, _, _, _, Backend.iterate_broken hc hg he, Backend.iterate_broken hc hg' he',
            alike₂⟩
        | ok e =>
          by_cases ho : ∃ answer, e.outcome = .answered answer
          · obtain ⟨answer, ho⟩ := ho
            obtain ⟨hending, alike₃⟩ := alike₂.conclude tools p (p.budget - left) answer
            refine ⟨((backend tools).conclude p (p.budget - left) answer s₂).1,
              c.add .assistant code, _, _, ?_, ?_, alike₃⟩
            · rw [Backend.iterate]
              simp only [hc, hg, he, ho, Bool.false_eq_true, if_false]
            · rw [Backend.iterate, hending]
              simp only [hc, hg', he', ho, Bool.false_eq_true, if_false]
          · have ho : ∀ answer, e.outcome ≠ .answered answer := fun answer h => ho ⟨answer, h⟩
            rw [Backend.iterate_completed hc hg he ho, Backend.iterate_completed hc hg' he' ho]
            exact ih (alike₂.noteFailure tools p e) _

end

variable {a : Agent}

/-- A run of a steady agent ends in the same way in any surroundings, and leaves the same agent,
which is steady. -/
theorem Steady.run (steady : a.Steady) (task : String) (isCancelled : Nat → Bool) (w w' : World) :
    ∃ ending a' w₁ w₁', a.run task isCancelled w = (ending, a', w₁) ∧
      a.run task isCancelled w' = (ending, a', w₁') ∧ a'.Steady := by
  have alike : Alike ⟨a.provider, a.sandbox, w⟩ ⟨a.provider, a.sandbox, w'⟩ :=
    ⟨rfl, rfl, steady.provider, steady.sandbox⟩
  obtain ⟨ending, c, s, s', hi, hi', alike'⟩ := (alike.note a.tools (a.plan isCancelled) .info .info
    s!"Starting task: {task}" s!"Starting task: {task}").iterate steady.tools (a.plan isCancelled)
    a.budget (a.conversation.add .user task)
  have hrun : (backend a.tools).run (a.plan isCancelled) task a.conversation
      ⟨a.provider, a.sandbox, w⟩ = (ending, c, s) := hi
  have hrun' : (backend a.tools).run (a.plan isCancelled) task a.conversation
      ⟨a.provider, a.sandbox, w'⟩ = (ending, c, s') := hi'
  refine ⟨ending, { a with provider := s.provider, conversation := c, sandbox := s.sandbox },
    s.world, s'.world, ?_, ?_, alike'.own, steady.tools, alike'.steady⟩
  · rw [Agent.run, hrun]
  · rw [Agent.run, hrun']
    dsimp only
    rw [alike'.provider, alike'.sandbox]

/-- The default tools are steady. -/
theorem steady_defaultTools : ∀ e ∈ defaultTools, e.2.Steady := by
  intro e he
  obtain ⟨t, ht, rfl⟩ := List.mem_map.1 he
  exact Tool.steady_of_mem_basicTools ht

/-- An agent with a model of its own and steady tools is made steady. -/
theorem steady_of_make {settings : Settings} {provider : Model.Provider} {tools : Sandbox.ToolMap}
    {budget name : Datum} (own : provider.Own) (steady : ∀ e ∈ tools, e.2.Steady)
    (hmake : make settings provider tools budget name = .ok a) : a.Steady := by
  unfold make at hmake
  split at hmake
  · cases hmake
  · split at hmake
    · cases hmake
    · cases hmake
      exact ⟨own, steady, Sandbox.steady_empty⟩

end Agent

end ScriptAgent
