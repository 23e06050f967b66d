import ScriptAgent.Proofs.Sandbox.Registered
import ScriptAgent.Tool.Bundled

/-!
# Scripts and their surroundings

A tool respects a relation between surroundings if in surroundings that are related it gives the
same, and leaves related ones. If all tools do, then what an execution gives, and what it leaves in
the sandbox, is the same in related surroundings, and these stay related
(`Sandbox.respects_execute`). This is if the same record may be logged in related surroundings,
since the surroundings also take in what is logged.

A tool is steady if what it gives does not depend on the surroundings. If all tools are, then what
an execution gives, and what it leaves in the sandbox, does not depend on them either
(`Sandbox.steady_execute`).
-/

namespace ScriptAgent

open Script

/-- What a tool gives does not depend on the surroundings. -/
def Tool.Steady (t : Tool) : Prop := ∀ args w w', (t.run args w).1 = (t.run args w').1

/-- What a computation gives, and the state that it leaves, does not depend on the surroundings. -/
def Steady {α β : Type} (f : World → α × β × World) : Prop :=
  ∀ w w', (f w).1 = (f w').1 ∧ (f w).2.1 = (f w').2.1

/-- A tool gives the same in surroundings that are alike, and leaves them alike. -/
def Tool.Respects (alike : World → World → Prop) (t : Tool) : Prop :=
  ∀ args w w', alike w w' →
    (t.run args w).1 = (t.run args w').1 ∧ alike (t.run args w).2 (t.run args w').2

/-- A computation gives the same, and leaves the same state, in surroundings that are alike, and
leaves them alike. -/
def Respects {α β : Type} (alike : World → World → Prop) (f : World → α × β × World) : Prop :=
  ∀ w w', alike w w' →
    (f w).1 = (f w').1 ∧ (f w).2.1 = (f w').2.1 ∧ alike (f w).2.2 (f w').2.2

/-- Surroundings that are alike stay so when the same record is logged in both. -/
def LogsAlike (alike : World → World → Prop) : Prop :=
  ∀ w w' logger level message, alike w w' →
    alike (w.log logger level message) (w'.log logger level message)

/-- Steady computations give the same in any surroundings. -/
theorem Steady.exists_eq {α β : Type} {f : World → α × β × World} (hf : Steady f) (w w' : World) :
    ∃ a b w₁ w₁', f w = (a, b, w₁) ∧ f w' = (a, b, w₁') := by
  obtain ⟨ha, hb⟩ := hf w w'
  exact ⟨(f w).1, (f w).2.1, (f w).2.2, (f w').2.2, rfl, by rw [ha, hb]⟩

/-- A computation gives the same in surroundings that are alike. -/
theorem Respects.exists_eq {α β : Type} {alike : World → World → Prop} {f : World → α × β × World}
    (hf : Respects alike f) {w w' : World} (hw : alike w w') :
    ∃ a b w₁ w₁', f w = (a, b, w₁) ∧ f w' = (a, b, w₁') ∧ alike w₁ w₁' := by
  obtain ⟨ha, hb, hw₁⟩ := hf w w' hw
  exact ⟨(f w).1, (f w).2.1, (f w).2.2, (f w').2.2, rfl, by rw [ha, hb], hw₁⟩

/-- What respects that surroundings are anything does not depend on them. -/
theorem Respects.steady {α β : Type} {f : World → α × β × World}
    (hf : Respects (fun _ _ => True) f) : Steady f := fun w w' =>
  have ⟨ha, hb, _⟩ := hf w w' trivial
  ⟨ha, hb⟩

namespace Tool

theorem steady_default : (default : Tool).Steady := fun _ _ _ => rfl

theorem respects_default (alike : World → World → Prop) : (default : Tool).Respects alike :=
  fun _ _ _ hw => ⟨rfl, hw⟩

/-- A steady tool respects that surroundings are anything. -/
theorem respects_true_iff {t : Tool} : t.Respects (fun _ _ => True) ↔ t.Steady := by
  simp only [Respects, Steady, and_true, forall_const]

/-- A function that leaves the surroundings alone makes a steady tool. -/
theorem steady_bundled (id : Nat) (name function description : String)
    (parameters : List Parameter) (f : List Datum → Outcome) :
    (bundled id name function description parameters (still f)).Steady := by
  intro args w w'
  simp only [bundled, checked]
  split <;> rfl

/-- The default tools are steady. -/
theorem steady_of_mem_basicTools {t : Tool} (ht : t ∈ basicTools) : t.Steady := by
  simp only [basicTools, List.mem_cons, List.not_mem_nil, or_false] at ht
  rcases ht with rfl | rfl | rfl | rfl <;> exact steady_bundled _ _ _ _ _ _

variable {t : Tool} {alike : World → World → Prop} {w w' : World}

/-- The result of a call is the same in surroundings that are alike. -/
theorem Respects.execute (logs : LogsAlike alike) (respects : t.Respects alike)
    (args : List Datum) (hw : alike w w') :
    (t.execute args w).1 = (t.execute args w').1 ∧
      alike (t.execute args w).2 (t.execute args w').2 := by
  obtain ⟨hsame, halike⟩ := respects args w w' hw
  unfold Tool.execute
  rcases hrun : t.run args w with ⟨outcome, w₁⟩
  rcases hrun' : t.run args w' with ⟨outcome', w₁'⟩
  rw [hrun, hrun'] at hsame halike
  obtain rfl : outcome = outcome' := hsame
  cases outcome with
  | value | result => exact ⟨rfl, halike⟩
  | refused | mismatch | crashed => exact ⟨rfl, logs _ _ _ _ _ halike⟩

end Tool

namespace Sandbox

/-! ## Runs -/

/-- All tools behind wrappers are steady. -/
def SteadyTools (tools : Array Tool) : Prop := ∀ m, (tools.getD m default).Steady

/-- All tools behind wrappers respect a relation between surroundings. -/
def RespectingTools (alike : World → World → Prop) (tools : Array Tool) : Prop :=
  ∀ m, (tools.getD m default).Respects alike

section
variable {tools : Array Tool} {alike : World → World → Prop}

/-- What a script gets from the value of a tool does not depend on the surroundings. -/
theorem respects_answerOf (logs : LogsAlike alike) (t : Tool) (d : Datum) (h : Heap) :
    Respects alike (answerOf t d h) := by
  intro w w' hw
  unfold answerOf
  split
  · split <;> exact ⟨rfl, rfl, hw⟩
  · split
    · exact ⟨rfl, rfl, hw⟩
    · exact ⟨rfl, rfl, logs _ _ _ _ _ hw⟩

/-- A call of a tool gives a script the same in surroundings that are alike. -/
theorem respects_callTool (logs : LogsAlike alike) {t : Tool} (respects : t.Respects alike)
    (args : List Value) (h : Heap) : Respects alike (callTool t args h) := by
  intro w w' hw
  obtain ⟨hsame, halike⟩ := respects.execute logs (args.map (Exchange.decode h)) hw
  unfold callTool
  rcases hcall : t.execute (args.map (Exchange.decode h)) w with ⟨r, w₁⟩
  rcases hcall' : t.execute (args.map (Exchange.decode h)) w' with ⟨r', w₁'⟩
  rw [hcall, hcall'] at hsame halike
  obtain rfl : r = r' := hsame
  dsimp only
  split
  · exact respects_answerOf logs t r.value h w₁ w₁' halike
  · exact ⟨rfl, rfl, logs _ _ _ _ _ halike⟩

/-- A run ends in the same way in surroundings that are alike. -/
theorem respects_run (logs : LogsAlike alike) (respects : RespectingTools alike tools) (fuel : Nat)
    (s : State) : Respects alike (run tools fuel s) := by
  induction fuel generalizing s with
  | zero => exact fun _ _ hw => ⟨rfl, rfl, hw⟩
  | succ fuel ih =>
    intro w w' hw
    rw [run, run]
    cases s.step with
    | next s => exact ih s w w' hw
    | done vs h => exact ⟨rfl, rfl, hw⟩
    | failed e h => exact ⟨rfl, rfl, hw⟩
    | tool wrapper args s =>
      obtain ⟨a, h, w₁, w₁', hcall, hcall', hw₁⟩ :=
        (respects_callTool logs (respects wrapper) args s.heap).exists_eq hw
      simp only [hcall, hcall']
      exact ih _ w₁ w₁' hw₁

/-- A script ends in the same way in surroundings that are alike. -/
theorem respects_runScript (logs : LogsAlike alike) (respects : RespectingTools alike tools)
    (fuel : Nat) (h : Heap) (script : Function) :
    Respects alike (runScript tools fuel h script) := respects_run logs respects fuel _

/-- A program of the host ends in the same way in surroundings that are alike. -/
theorem respects_runProgram {α : Type} (logs : LogsAlike alike)
    (respects : RespectingTools alike tools) (fuel : Nat) (p : Program α) (h : Heap) :
    Respects alike (runProgram tools fuel p h) := by
  induction p generalizing h with
  | done a => exact fun _ _ hw => ⟨rfl, rfl, hw⟩
  | raise e => exact fun _ _ hw => ⟨rfl, rfl, hw⟩
  | ask q k ih =>
    intro w w' hw
    rw [runProgram, runProgram]
    split
    · exact ih _ _ w w' hw
    · obtain ⟨ending, h₁, w₁, w₁', hask, hask', hw₁⟩ :=
        (respects_run logs respects fuel (start h (.native (.query q) none))).exists_eq hw
      have hask : ask tools fuel q h w = (ending, h₁, w₁) := hask
      have hask' : ask tools fuel q h w' = (ending, h₁, w₁') := hask'
      rw [hask, hask']
      cases ending with
      | returned vs => exact ih vs h₁ w₁ w₁' hw₁
      | raised e => exact ⟨rfl, rfl, hw₁⟩
      | unfinished => exact ⟨rfl, rfl, hw₁⟩

end

/-! ## Sandboxes -/

variable {s : Sandbox} {map : ToolMap} {alike : World → World → Prop}

/-- What the scripts of a sandbox get does not depend on the surroundings. -/
def IsSteady (s : Sandbox) : Prop := SteadyTools s.wrapped

/-- What the scripts of a sandbox get is the same in surroundings that are alike. -/
def IsRespecting (alike : World → World → Prop) (s : Sandbox) : Prop :=
  RespectingTools alike s.wrapped

theorem isRespecting_true_iff : IsRespecting (fun _ _ => True) s ↔ IsSteady s :=
  forall_congr' fun _ => Tool.respects_true_iff

/-- A sandbox stays respecting if it is given respecting tools. -/
theorem invariant_respecting :
    Invariant (IsRespecting alike) fun _ tool => tool.Respects alike where
  heap respects same := by
    obtain ⟨h, rfl⟩ := same
    exact respects
  drop respects _ := respects
  wrap {s} respects {n tool} ht := by
    have hpush : RespectingTools alike (s.wrapped.push tool) := by
      intro m
      rw [Array.getD_eq_getD_getElem?, Array.getElem?_push]
      split
      · exact ht
      · rw [← Array.getD_eq_getD_getElem?]
        exact respects m
    unfold Sandbox.wrap
    split
    · split
      · exact respects
      · exact hpush
    · exact hpush

/-- A sandbox stays steady if it is given steady tools. -/
theorem invariant_steady : Invariant IsSteady fun _ tool => tool.Steady := by
  have hsandbox : IsRespecting (fun _ _ => True) = IsSteady := funext fun _ =>
    propext isRespecting_true_iff
  have htool : Tool.Respects (fun _ _ => True) = Tool.Steady := funext fun _ =>
    propext Tool.respects_true_iff
  exact hsandbox ▸ htool ▸ invariant_respecting

theorem steady_empty : IsSteady .empty := fun _ => Tool.steady_default

theorem respecting_empty (alike : World → World → Prop) : IsRespecting alike .empty :=
  fun _ => Tool.respects_default alike

section
variable (logs : LogsAlike alike)
include logs

/-- A program of the host gives the same in surroundings that are alike. -/
theorem respects_perform {α : Type} (respects : IsRespecting alike s) (p : Program α) :
    Respects alike (s.perform p) := by
  intro w w' hw
  obtain ⟨ending, h, w₁, w₁', hrun, hrun', hw₁⟩ :=
    (respects_runProgram logs respects s.limit p s.heap).exists_eq hw
  unfold perform
  rw [hrun, hrun']
  cases ending <;> exact ⟨rfl, rfl, hw₁⟩

/-- Removing names does the same in surroundings that are alike. -/
theorem respects_unbindAll (respects : IsRespecting alike s) (names : List String) :
    Respects alike (unbindAll names s) := by
  induction names generalizing s with
  | nil => exact fun _ _ hw => ⟨rfl, rfl, hw⟩
  | cons n rest ih =>
    intro w w' hw
    obtain ⟨result, s₁, w₁, w₁', hp, hp', hw₁⟩ :=
      (respects_perform logs respects (assign .stop n .nil)).exists_eq hw
    have respects₁ := invariant_respecting.preserved.perform respects
      (assign .stop n .nil) w
    rw [hp] at respects₁
    rw [unbindAll, unbindAll, hp, hp']
    cases result with
    | error e => exact ⟨rfl, rfl, hw₁⟩
    | ok u => exact ih (invariant_respecting.drop respects₁ n) w₁ w₁' hw₁

/-- Binding tools does the same in surroundings that are alike. -/
theorem respects_bindAll (respects : IsRespecting alike s)
    (tools : ∀ e ∈ map, e.2.Respects alike) : Respects alike (bindAll map s) := by
  induction map generalizing s with
  | nil => exact fun _ _ hw => ⟨rfl, rfl, hw⟩
  | cons e rest ih =>
    obtain ⟨n, tool⟩ := e
    intro w w' hw
    have respects₀ := invariant_respecting.wrap respects (tools (n, tool) List.mem_cons_self)
      (n := n)
    obtain ⟨result, s₁, w₁, w₁', hp, hp', hw₁⟩ :=
      (respects_perform logs respects₀ (assign .create n (.tool (s.wrap n tool).1))).exists_eq hw
    have respects₁ := invariant_respecting.preserved.perform respects₀
      (assign .create n (.tool (s.wrap n tool).1)) w
    rw [hp] at respects₁
    rw [bindAll, bindAll]
    dsimp only
    rw [hp, hp']
    cases result with
    | error e => exact ⟨rfl, rfl, hw₁⟩
    | ok u => exact ih respects₁ (fun e he => tools e (List.mem_cons_of_mem _ he)) w₁ w₁' hw₁

/-- Binding a map of tools does the same in surroundings that are alike. -/
theorem respects_bind (respects : IsRespecting alike s) (tools : ∀ e ∈ map, e.2.Respects alike) :
    Respects alike (s.bind map) := by
  intro w w' hw
  unfold Sandbox.bind
  dsimp only
  cases checkNames (map.map Prod.fst) with
  | error fault => exact ⟨rfl, rfl, hw⟩
  | ok u =>
    have respects₁ := invariant_respecting.preserved.unbindAll respects
      (s.boundBeyond (map.map Prod.fst)) w
    obtain ⟨result, s₁, w₁, w₁', hu, hu', hw₁⟩ :=
      (respects_unbindAll logs respects (s.boundBeyond (map.map Prod.fst))).exists_eq hw
    rw [hu] at respects₁
    dsimp only
    rw [hu, hu']
    cases result with
    | error e => exact ⟨rfl, rfl, hw₁⟩
    | ok u => exact respects_bindAll logs respects₁ tools w₁ w₁' hw₁

/-- The print buffer reads the same in surroundings that are alike. -/
theorem respects_printBuffer (respects : IsRespecting alike s) :
    Respects alike s.printBuffer := by
  intro w w' hw
  obtain ⟨result, s₁, w₁, w₁', hp, hp', hw₁⟩ :=
    (respects_perform logs respects (readGlobal bufferName)).exists_eq hw
  rw [printBuffer_eq, printBuffer_eq, hp, hp']
  cases result <;> exact ⟨rfl, rfl, hw₁⟩

/-- The end of a script is reported in the same way in surroundings that are alike. -/
theorem respects_endedRun (respects : IsRespecting alike s) : Respects alike s.endedRun := by
  intro w w' hw
  obtain ⟨result, s₁, w₁, w₁', hb, hb', hw₁⟩ := (respects_printBuffer logs respects).exists_eq hw
  have respects₁ := invariant_respecting.preserved.printBuffer respects w
  rw [hb] at respects₁
  rw [endedRun_eq, endedRun_eq, hb, hb']
  cases result with
  | error e => exact ⟨rfl, rfl, hw₁⟩
  | ok text =>
    obtain ⟨slot, s₂, w₂, w₂', hp, hp', hw₂⟩ :=
      (respects_perform logs respects₁ (readGlobal answerName)).exists_eq hw₁
    dsimp only
    rw [hp, hp']
    cases slot <;> exact ⟨rfl, rfl, hw₂⟩

/-- The failure of a script is reported in the same way in surroundings that are alike. -/
theorem respects_failedRun (respects : IsRespecting alike s) (message : String) :
    Respects alike (s.failedRun message) := by
  intro w w' hw
  obtain ⟨result, s₁, w₁, w₁', hb, hb', hw₁⟩ := (respects_printBuffer logs respects).exists_eq hw
  rw [failedRun, failedRun, hb, hb']
  cases result <;> exact ⟨rfl, rfl, hw₁⟩

/-- What a run has come to is the same in surroundings that are alike. -/
theorem alike_verdict (ending : Ending (List Value)) {w w' : World} (hw : alike w w') :
    (verdict ending w).1 = (verdict ending w').1 ∧
      alike (verdict ending w).2 (verdict ending w').2 := by
  unfold verdict
  split
  · exact ⟨rfl, hw⟩
  · exact ⟨rfl, logs _ _ _ _ _ hw⟩
  · exact ⟨rfl, logs _ _ _ _ _ hw⟩
  · exact ⟨rfl, hw⟩

/-- A script that has been read does the same in surroundings that are alike. -/
theorem respects_runParsed (respects : IsRespecting alike s) (script : Function) :
    Respects alike (s.runParsed script) := by
  intro w w' hw
  obtain ⟨ending, h, w₁, w₁', hrun, hrun', hw₁⟩ :=
    (respects_runScript logs respects s.limit s.heap script).exists_eq hw
  have respects₁ : IsRespecting alike { s with heap := h } := respects
  obtain ⟨hverdict, hw₂⟩ := alike_verdict logs ending hw₁
  rw [runParsed_eq, runParsed_eq, hrun, hrun']
  dsimp only
  rcases hv : verdict ending w₁ with ⟨message, w₂⟩
  rcases hv' : verdict ending w₁' with ⟨message', w₂'⟩
  rw [hv, hv'] at hverdict hw₂
  obtain rfl : message = message' := hverdict
  cases message with
  | none => exact respects_endedRun logs respects₁ w₂ w₂' hw₂
  | some text => exact respects_failedRun logs respects₁ text w₂ w₂' hw₂

/-- An execution does the same in surroundings that are alike. -/
theorem respects_execute (respects : IsRespecting alike s)
    (tools : ∀ e ∈ map, e.2.Respects alike) (code : String) :
    Respects alike (s.execute code map) := by
  intro w w' hw
  obtain ⟨result, s₁, w₁, w₁', hb, hb', hw₁⟩ := (respects_bind logs respects tools).exists_eq hw
  have respects₁ := invariant_respecting.preserved.bind respects map (fun _ => tools) w
  rw [hb] at respects₁
  unfold execute
  rw [hb, hb']
  cases result with
  | error e => exact ⟨rfl, rfl, hw₁⟩
  | ok u =>
    obtain ⟨prepared, s₂, w₂, w₂', hp, hp', hw₂⟩ :=
      (respects_perform logs respects₁ prepare).exists_eq hw₁
    have respects₂ := invariant_respecting.preserved.perform respects₁ prepare w₁
    rw [hp] at respects₂
    dsimp only
    rw [hp, hp']
    cases prepared with
    | error e => exact ⟨rfl, rfl, hw₂⟩
    | ok u =>
      dsimp only
      cases Script.parse scriptChunk (Utf8.encode code) with
      | ok script => exact respects_runParsed logs respects₂ script w₂ w₂' hw₂
      | error message => exact ⟨rfl, rfl, logs _ _ _ _ _ hw₂⟩

end

/-- An execution with steady tools does the same in any surroundings. -/
theorem steady_execute (steady : IsSteady s) (tools : ∀ e ∈ map, e.2.Steady) (code : String) :
    Steady (s.execute code map) :=
  (respects_execute (fun _ _ _ _ _ _ => trivial) (isRespecting_true_iff.2 steady)
    (fun e he => Tool.respects_true_iff.2 (tools e he)) code).steady

end Sandbox

end ScriptAgent
