import ScriptAgent.Proofs.Agent.Steps
import ScriptAgent.Proofs.Agent.Trace
import ScriptAgent.Proofs.Http.Exchange
import ScriptAgent.Proofs.Sandbox.Surroundings

/-!
# How runs end, and that they print nothing

An agent with the default tools is made exactly of a budget that is not negative
(`Agent.make_defaultTools`).

A run breaks exactly if one of its executions fails (`Agent.Backend.iterate_returns_iff`). As long
as they all return, the run is that of a trace, so without a way to cancel it there are three ends:
an answer, a failure of the model, and a budget that is used up (`Agent.run_ending`).

What scripts print goes into the print buffer, and what a run has to say goes into log records. So
nothing is printed between the beginning and the end of a run (`Agent.run_silent`): calls of models
send requests and log records (`Model.Provider.generate_silent`), executions do what their tools do
and log records (`Sandbox.respects_execute`), and the steps of a run do nothing else
(`Agent.Backend.Keeps.run`).
-/

namespace ScriptAgent

namespace Agent

/-! ## Agents that can be made -/

/-- A budget is admitted unless it is negative. -/
theorem agentOptions_int (n : Int) (name : String) :
    Check.agentOptions (.int n) (.str name) =
      if n < 0 then .error [⟨[.name "max_iterations"], .tooSmall 0⟩] else .ok (n.toNat, name) := by
  have hbudget : Check.budget (.int n) =
      (if n < 0 then Checked.fault (.tooSmall 0) else .ok n).map Int.toNat := rfl
  rw [Check.agentOptions, hbudget]
  split <;> rfl

/-- With the default tools an agent is made of every budget that is not negative, and the settings
give the budget that is left open. -/
theorem make_defaultTools (settings : Settings) (provider : Model.Provider) (budget : Option Int) :
    make settings provider defaultTools
        (match budget with
          | some n => .int n
          | none => .none) .none =
      if budget.getD settings.maxIterations < 0 then
        .error (.options [⟨[.name "max_iterations"], .tooSmall 0⟩])
      else
        .ok ⟨settings.agentName, (budget.getD settings.maxIterations).toNat, defaultTools, provider,
          .empty, .empty⟩ := by
  have hnames : Sandbox.checkNames (defaultTools.map Prod.fst) = .ok () := rfl
  have hname : Datum.none.orDefault (.str settings.agentName) = .str settings.agentName := rfl
  have hbudget : (match budget with
      | some n => .int n
      | none => .none : Datum).orMissing (.int settings.maxIterations) =
        .int (budget.getD settings.maxIterations) := by
    cases budget <;> rfl
  unfold make
  rw [hnames, hname, hbudget, agentOptions_int]
  dsimp only
  by_cases h : budget.getD settings.maxIterations < 0
  · rw [if_pos h, if_pos h]
  · rw [if_neg h, if_neg h]

/-! ## Runs that break -/

namespace Backend

variable {σ : Type} {b : Backend σ} {p : Plan} {c : Conversation} {s : σ} {log : List Call}

/-- The calls of a loop all return exactly if it does not end with a failure of the sandbox. -/
theorem iterate_returns_iff (hb : b.AnswersPlain) {left : Nat}
    (hlog : ∀ call ∈ log, call.returns = true) :
    (∀ call ∈ (b.recorded.iterate p left c (s, log)).2.2.2, call.returns = true) ↔
      ∀ failure, (b.iterate p left c s).1 ≠ .broken failure := by
  -- One more call that returns leaves a record of such calls.
  have hadd : ∀ {log : List Call} (next : Call), (∀ call ∈ log, call.returns = true) →
      next.returns = true → ∀ call ∈ log ++ [next], call.returns = true := fun _ hlog hnext =>
    List.forall_mem_append.2 ⟨hlog, List.forall_mem_singleton.2 hnext⟩
  induction left generalizing c s log with
  | zero => exact iff_of_true hlog nofun
  | succ left ih =>
    cases hc : p.isCancelled (p.budget - left) with
    | true =>
      rw [iterate_cancelled hc, iterate_cancelled hc]
      exact iff_of_true hlog nofun
    | false =>
      rcases hg : b.generate (p.prompt c) s with ⟨g, s₁⟩
      have hg' := recorded_generate log hg
      have hlog₁ := hadd (.generated (p.prompt c) g) hlog rfl
      cases g with
      | refused message =>
        rw [iterate_refused hc hg, iterate_refused hc hg']
        exact iff_of_true hlog₁ nofun
      | crashed crash =>
        rw [iterate_crashed hc hg, iterate_crashed hc hg']
        exact iff_of_true hlog₁ nofun
      | code code =>
        rcases he : b.execute code s₁ with ⟨r, s₂⟩
        have he' := recorded_execute (log ++ [.generated (p.prompt c) (.code code)]) he
        cases r with
        | error failure =>
          rw [iterate_broken hc hg he, iterate_broken hc hg' he']
          refine iff_of_false (fun h => ?_) fun h => h failure rfl
          exact absurd (h (.executed code (.error failure)) (by simp)) nofun
        | ok e =>
          have hlog₂ := hadd (.executed code (.ok e)) hlog₁ rfl
          by_cases ho : ∃ answer, e.outcome = .answered answer
          · obtain ⟨answer, ho⟩ := ho
            obtain ⟨text, ht⟩ := Datum.answer_plain (hb code s₁ e s₂ answer he ho)
            rw [iterate_answered hc hg he ho ht, iterate_answered hc hg' he' ho ht]
            exact iff_of_true hlog₂ nofun
          · have ho : ∀ answer, e.outcome ≠ .answered answer := fun answer h => ho ⟨answer, h⟩
            rw [iterate_completed hc hg he ho, iterate_completed hc hg' he' ho,
              recorded_noteFailure]
            exact ih hlog₂

end Backend

/-- Each execution of a run returns. -/
def EachReturns (a : Agent) (task : String) (isCancelled : Nat → Bool) (w : World) : Prop :=
  ∀ call ∈ ((backend a.tools).recorded.run (a.plan isCancelled) task a.conversation
    (⟨a.provider, a.sandbox, w⟩, [])).2.2.2, call.returns = true

section
variable {a : Agent} {task : String} {isCancelled : Nat → Bool} {w : World}

/-- A run with an execution that does not return breaks, and no other run does. -/
theorem eachReturns_iff : a.EachReturns task isCancelled w ↔
    ∀ failure, (a.run task isCancelled w).1 ≠ .broken failure :=
  Backend.iterate_returns_iff (backend_answersPlain a.tools) nofun

/-- A run that is not cancelled and whose executions return ends with an answer, a used-up budget or
a failure of the model. -/
theorem run_ending (returns : a.EachReturns task never w) :
    (∃ text, (a.run task never w).1 = .answered text) ∨
      (a.run task never w).1 = .exhausted a.budget ∨
      ∃ message, (a.run task never w).1 = .refused message := by
  obtain ⟨t, provider, sandbox, w', from', hrun⟩ := trace_of_run a task never w returns
  have hending := congrArg Prod.fst hrun
  have hstop := from'.stopped
  cases ht : t.stop with
  | answered last answer text => exact .inl ⟨text, by rw [hending, ht]; rfl⟩
  | exhausted => exact .inr (.inl (by rw [hending, ht]; rfl))
  | refused prompt message => exact .inr (.inr ⟨message, by rw [hending, ht]; rfl⟩)
  | crashed prompt crash => exact .inr (.inr ⟨crash.message, by rw [hending, ht]; rfl⟩)
  | cancelled =>
    rw [ht] at hstop
    cases hstop.2

end

end Agent

/-! ## Silence -/

/-- Between two surroundings nothing has been printed, and the terminal has stayed the same. -/
structure World.Silent (w w' : World) : Prop where
  printed : w'.printed = w.printed
  terminal : w'.terminal = w.terminal

namespace World

variable {w w' w'' : World}

theorem Silent.refl (w : World) : w.Silent w := ⟨rfl, rfl⟩

theorem Silent.trans (h : w.Silent w') (h' : w'.Silent w'') : w.Silent w'' :=
  ⟨h'.printed.trans h.printed, h'.terminal.trans h.terminal⟩

/-- What is printed is what was printed before, and then a text if one is shown. -/
theorem printed_emit (w : World) (e : Event) :
    (w.emit e).printed = w.printed ++
      match e with
      | .printed text => text
      | .logged _ | .served _ => "" := by
  simp only [printed, emit, List.filterMap_append, String.join_append]
  cases e <;> simp [String.join]

/-- A text in a color is printed after what was printed before. -/
theorem printed_paint (w : World) (color : Color) (text ending : String) :
    (w.paint color text ending).printed = w.printed ++ (w.terminal.paint color text ++ ending) :=
  printed_emit w _

/-- Log records are not printed. -/
theorem silent_log (w : World) (logger : String) (level : Level) (message : String) :
    w.Silent (w.log logger level message) :=
  ⟨(printed_emit w _).trans String.append_empty, rfl⟩

/-- Requests print nothing. -/
theorem silent_send (w : World) (request : Http.Request) : w.Silent (w.send request).2 := by
  rw [send_snd]
  exact ⟨rfl, rfl⟩

/-- Calls of services print nothing. -/
theorem silent_complete (w : World) : w.Silent w.complete.2 := by
  unfold complete
  split <;> exact ⟨rfl, rfl⟩

/-- Surroundings stay those since which nothing has been printed when something is logged. -/
theorem logsAlike_silent (w : World) : LogsAlike fun _ w' => w.Silent w' :=
  fun _ w' _ _ _ h => h.trans (silent_log w' _ _ _)

end World

/-! ## Models -/

namespace Model

variable {w : World}

/-- A request that is not led on prints nothing. -/
theorem silent_send (method url : String) (headers : Http.Headers) (body : Http.Body) (w : World) :
    w.Silent (Http.send false method url headers body w).2 := by
  unfold Http.send
  cases Http.prepare method url headers body with
  | error failure => exact .refl w
  | ok p =>
    dsimp only
    rw [Http.deliver_single]
    exact World.silent_send w p.request

/-- Calls of local models print nothing. -/
theorem Ollama.generate_silent (o : Ollama) (prompt : String) (w : World) :
    w.Silent (o.generate prompt w).2 := by
  have hsend := silent_send "POST" (o.host ++ "/api/generate") [] (.json (o.payload prompt)) w
  have hreport : ∀ what message w₁, w.Silent w₁ → w.Silent (report what message w₁).2 :=
    fun _ _ w₁ h => h.trans (World.silent_log w₁ _ _ _)
  unfold generate
  rcases hs : Http.send false "POST" (o.host ++ "/api/generate") [] (.json (o.payload prompt)) w
    with ⟨result, w₁⟩
  rw [hs] at hsend
  cases result with
  | ok exchange =>
    dsimp only
    split
    · exact hreport _ _ _ hsend
    · split
      · exact hreport _ _ _ hsend
      · exact hsend
  | error failure =>
    cases failure with
    | url fault => exact hsend
    | header text first last => exact hreport _ _ _ hsend
    | exchange kind message => exact hreport _ _ _ hsend
    | body refusal =>
      dsimp only
      split
      · exact hsend
      · exact hreport _ _ _ hsend

/-- Calls of hosted models print nothing. -/
theorem Hosted.generate_silent (h : Hosted) (prompt : String) (w : World) :
    w.Silent (h.generate prompt w).2 := by
  unfold generate
  dsimp only
  split
  · exact World.silent_log w _ _ _
  · have hcalls : w.Silent ((w.call h.connection).call (h.options prompt)) := ⟨rfl, rfl⟩
    have hcall := hcalls.trans (World.silent_complete _)
    rcases hc : ((w.call h.connection).call (h.options prompt)).complete with ⟨completion, w₁⟩
    rw [hc] at hcall
    cases completion with
    | failure message => exact hcall.trans (World.silent_log w₁ _ _ _)
    | blocks | content => exact hcall

/-- Calls of models print nothing. -/
theorem Provider.generate_silent (p : Provider) (prompt : String) (w : World) :
    w.Silent (p.generate prompt w).2.2 := by
  cases p with
  | scripted s => exact .refl w
  | ollama o => exact o.generate_silent prompt w
  | hosted h => exact h.generate_silent prompt w

end Model

/-! ## Tools -/

/-- A function that leaves the surroundings alone makes a tool that respects every relation between
them. -/
theorem Tool.respects_bundled (alike : World → World → Prop) (id : Nat)
    (name function description : String) (parameters : List Parameter)
    (f : List Datum → Outcome) :
    (bundled id name function description parameters (still f)).Respects alike := by
  intro args w w' hw
  simp only [bundled, checked]
  split <;> exact ⟨rfl, hw⟩

/-- The default tools respect every relation between surroundings. -/
theorem Agent.respects_defaultTools (alike : World → World → Prop) :
    ∀ e ∈ defaultTools, e.2.Respects alike := by
  intro e he
  obtain ⟨t, ht, rfl⟩ := List.mem_map.1 he
  simp only [Tool.basicTools, List.mem_cons, List.not_mem_nil, or_false] at ht
  rcases ht with rfl | rfl | rfl | rfl <;> exact Tool.respects_bundled alike _ _ _ _ _ _

/-! ## The loop -/

namespace Agent

variable {σ : Type}

/-- A property of states that a model and a sandbox keep, whatever they do. -/
structure Backend.Keeps (b : Backend σ) (P : σ → Prop) : Prop where
  generate : ∀ prompt s, P s → P (b.generate prompt s).2
  execute : ∀ code s, P s → P (b.execute code s).2
  log : ∀ level message s, P s → P (b.log level message s)

namespace Backend.Keeps

variable {b : Backend σ} {P : σ → Prop} {s : σ}

/-- What is noted about a failure keeps the property. -/
theorem noteFailure (keeps : b.Keeps P) (p : Plan) (e : Sandbox.Execution) (hs : P s) :
    P (b.noteFailure p e s) := by
  unfold Backend.noteFailure
  split
  · exact keeps.log _ _ _ hs
  · exact hs
  · exact hs

/-- The end of a run with an answer keeps the property. -/
theorem conclude (keeps : b.Keeps P) (p : Plan) (iteration : Nat) (answer : Datum) (hs : P s) :
    P (b.conclude p iteration answer s).2 := by
  unfold Backend.conclude
  split
  · exact hs
  · exact keeps.log _ _ _ hs

theorem of_generate (keeps : b.Keeps P) {prompt : String} {g : Model.Generated} {s' : σ}
    (asks : b.generate prompt s = (g, s')) (hs : P s) : P s' := by
  have hgenerate := keeps.generate prompt s hs
  rwa [asks] at hgenerate

theorem of_execute (keeps : b.Keeps P) {code : String} {r : Except Sandbox.Failure Sandbox.Execution}
    {s' : σ} (executes : b.execute code s = (r, s')) (hs : P s) : P s' := by
  have hexecute := keeps.execute code s hs
  rwa [executes] at hexecute

/-- A step of a run keeps the property. -/
theorem advances {p : Plan} {q q' : Progress} {c c' : Conversation} {s' : σ} (keeps : b.Keeps P)
    (step : b.Advances p c s q q' c' s') (hs : P s) : P s' := by
  cases step with
  | rest => exact hs
  | task | exhausted | cancelled => exact keeps.log _ _ _ hs
  | refused asks | script asks => exact keeps.of_generate asks hs
  | crashed asks => exact keeps.log _ _ _ (keeps.of_generate asks hs)
  | broken executes => exact keeps.of_execute executes hs
  | concluded executes => exact keeps.conclude p _ _ (keeps.of_execute executes hs)
  | recorded executes => exact keeps.noteFailure p _ (keeps.of_execute executes hs)

/-- The steps of a run keep the property. -/
theorem steps (keeps : b.Keeps P) (p : Plan) (n : Nat) (q : Progress) (c : Conversation)
    (hs : P s) : P (b.steps p n q c s).2.2 := by
  induction n generalizing q c s with
  | zero => exact hs
  | succ n ih => exact ih _ _ (keeps.advances (b.advances p q c s) hs)

/-- A run keeps the property. -/
theorem run (keeps : b.Keeps P) (p : Plan) (task : String) (c : Conversation) (hs : P s) :
    P (b.run p task c s).2.2 := by
  obtain ⟨n, hn⟩ := b.steps_run p task c s
  have hsteps := keeps.steps p n (.ready task) c hs
  rwa [hn] at hsteps

end Backend.Keeps

/-! ## Runs -/

/-- With tools that print nothing, the model and the sandbox of an agent print nothing. -/
theorem keeps_silent {tools : Sandbox.ToolMap} {w : World}
    (silent : ∀ e ∈ tools, e.2.Respects fun _ w' => w.Silent w') :
    (backend tools).Keeps fun s =>
      w.Silent s.world ∧ Sandbox.IsRespecting (fun _ w' => w.Silent w') s.sandbox where
  generate prompt s hs :=
    ⟨hs.1.trans (s.provider.generate_silent prompt s.world), hs.2⟩
  execute code s hs :=
    ⟨(Sandbox.respects_execute w.logsAlike_silent hs.2 silent code s.world s.world hs.1).2.2,
      Sandbox.invariant_respecting.preserved.execute hs.2 code _ (fun _ => silent) s.world⟩
  log level message s hs := ⟨hs.1.trans (s.world.silent_log logger level message), hs.2⟩

/-- A run of a new agent prints nothing if its tools print nothing. -/
theorem run_silent {a : Agent} (fresh : a.sandbox = .empty) (w : World)
    (silent : ∀ e ∈ a.tools, e.2.Respects fun _ w' => w.Silent w') (task : String)
    (isCancelled : Nat → Bool) : w.Silent (a.run task isCancelled w).2.2 := by
  have hstart : w.Silent w ∧ Sandbox.IsRespecting (fun _ w' => w.Silent w') a.sandbox :=
    ⟨.refl w, fresh ▸ Sandbox.respecting_empty _⟩
  exact ((keeps_silent silent).run (a.plan isCancelled) task a.conversation
    (s := ⟨a.provider, a.sandbox, w⟩) hstart).1

end Agent

end ScriptAgent
