import ScriptAgent.Proofs.Sandbox.Answers
import ScriptAgent.Proofs.Sandbox.Unreadable
import ScriptAgent.Sandbox.Report

/-!
# How executions are classified

The report of an execution says one of four things: that its text cannot be read, that its script
has raised, that it has ended with an answer, or that it has ended without one. Which of them it
says depends on the text and on the run of the script alone (`Classified`): answers that a script
gives before it raises do not count, and of those that it gives before it ends the last one does,
unless it is nil.

`Sandbox.execution_classified` says so of every execution in globals without a metatable whose
script leaves the answer to the function that gives it. Such an execution returns a result exactly
if the tools can be bound. A scope that has a metatable can prevent this, and then the failure of a
script's own function leaves the execution (`Sandbox.execution_unclassified`).
-/

namespace ScriptAgent.Sandbox

open Script

/-! ## The run of a text -/

/-- The states that the run of a script in a sandbox goes through. -/
def scriptPasses (s : Sandbox) (script : Function) (w : World) : List State :=
  passes s.wrapped s.limit
    (start (loaded s.heap script) (.call (.function s.heap.closures.size) [] .outside)) w

/-- The run of a script ends, the globals never have a metatable in it, and the answer is stored by
the function that gives it alone. -/
structure Undisturbed (s : Sandbox) (script : Function) (w : World) : Prop where
  ends : (runScript s.wrapped s.limit s.heap script w).1 ≠ .unfinished
  plain : ∀ t ∈ s.scriptPasses script w, (t.heap.table globalsAddress).metatable = none
  only : OnlyCallsStore false (answerEvents (s.scriptPasses script w))

instance decidableUnfinished {α : Type} : (ending : Ending α) → Decidable (ending = .unfinished)
  | .returned _ => isFalse nofun
  | .raised _ => isFalse nofun
  | .unfinished => isTrue rfl

instance (s : Sandbox) (script : Function) (w : World) : Decidable (Undisturbed s script w) :=
  decidable_of_iff ((runScript s.wrapped s.limit s.heap script w).1 ≠ .unfinished ∧
      (∀ t ∈ s.scriptPasses script w, (t.heap.table globalsAddress).metatable = none) ∧
      OnlyCallsStore false (answerEvents (s.scriptPasses script w)))
    ⟨fun ⟨ends, plain, only⟩ => ⟨ends, plain, only⟩, fun und => ⟨und.ends, und.plain, und.only⟩⟩

/-- The argument of the last call that gives the answer in the run of a text; nil if there is none.
-/
def lastAnswerOf (s : Sandbox) (code : String) (w : World) : Value :=
  match Script.parse scriptChunk (Utf8.encode code) with
  | .ok script => lastAnswer .nil (answerEvents (s.scriptPasses script w))
  | .error _ => .nil

/-- A text can be read, and its run in a sandbox comes to an end. -/
def RunsTo (s : Sandbox) (code : String) (w : World) (ending : Ending (List Value)) : Prop :=
  ∃ script h w', Script.parse scriptChunk (Utf8.encode code) = .ok script ∧
    runScript s.wrapped s.limit s.heap script w = (ending, h, w')

/-- The report of an execution of a text says how the text has been read and run in a sandbox. -/
structure Classified (s : Sandbox) (code : String) (w : World) (e : Execution) (s' : Sandbox)
    (w' : World) : Prop where
  compilation : e.report.status = .failed ∧ e.report.errorKind = some .compilation ↔
    ∃ message, Script.parse scriptChunk (Utf8.encode code) = .error message
  runtime : e.report.status = .failed ∧ e.report.errorKind = some .runtime ↔
    ∃ x, RunsTo s code w (.raised x)
  answered : e.report.status = .answered ↔
    (∃ vs, RunsTo s code w (.returned vs)) ∧ s.lastAnswerOf code w ≠ .nil
  continued : e.report.status = .continued ↔
    (∃ vs, RunsTo s code w (.returned vs)) ∧ s.lastAnswerOf code w = .nil
  /-- An error and its kind are set exactly in the two cases of an error. -/
  error : e.report.error.isSome ↔ e.report.status = .failed
  errorKind : e.report.errorKind.isSome ↔ e.report.status = .failed
  /-- The last answer is carried exactly if there is one. -/
  answer : e.report.answer =
    if e.report.status = .answered then Exchange.decode s'.heap (s.lastAnswerOf code w) else .none
  /-- The output is what the print buffer reads right after the execution. -/
  output : s'.printBuffer w' = (.ok e.report.output, s', w')

section
variable {s s₁ : Sandbox} {tools : ToolMap} {code : String} {script : Function} {message : Bytes}
  {h : Heap} {w w₁ w' : World} {ending : Ending (List Value)} {e : Execution}

/-! ## Undisturbed runs -/

/-- No answer is there before a script. -/
theorem answerIn_reset (hp : PlainGlobals h) : answerIn (reset h) = .nil :=
  global_reset (e := ("_final_answer", .nil)) hp (by simp [resetGlobals])

/-- An undisturbed run leaves the argument of the last call as the answer, in plain globals. -/
theorem Undisturbed.left (und : Undisturbed s script w)
    (inside : globalsAddress < s.heap.tables.size) (unanswered : answerIn s.heap = .nil)
    (run : runScript s.wrapped s.limit s.heap script w = (ending, h, w')) :
    (h.table globalsAddress).metatable = none ∧
      answerIn h = lastAnswer .nil (answerEvents (s.scriptPasses script w)) := by
  have ends : ending ≠ .unfinished := by
    have := und.ends
    rwa [run] at this
  constructor
  · obtain ⟨t, ht, rfl⟩ := exists_mem_passes run ends
    exact und.plain t ht
  · have due := Due.settled
      (s := start (loaded s.heap script) (.call (.function s.heap.closures.size) [] .outside))
    have hanswer := answer_run due run ends inside und.plain und.only
    rwa [show answerIn (start (loaded s.heap script) _).heap = .nil from unanswered] at hanswer

/-! ## The four cases -/

/-- The report of a text that cannot be read. -/
theorem classified_unreadable
    (parse : Script.parse scriptChunk (Utf8.encode code) = .error message)
    (output : s₁.printBuffer w₁ = (.ok "", s₁, w₁)) (text : String) :
    Classified s code w ⟨.failed .compilation text, ""⟩ s₁ w₁ := by
  have noRun : ∀ ending, ¬ RunsTo s code w ending := fun ending ⟨_, _, _, parse', _⟩ => by
    cases parse.symm.trans parse'
  exact {
    compilation := iff_of_true ⟨rfl, rfl⟩ ⟨message, parse⟩
    runtime := iff_of_false nofun fun ⟨x, hx⟩ => noRun _ hx
    answered := iff_of_false nofun fun ⟨⟨vs, hvs⟩, _⟩ => noRun _ hvs
    continued := iff_of_false nofun fun ⟨⟨vs, hvs⟩, _⟩ => noRun _ hvs
    error := iff_of_true rfl rfl
    errorKind := iff_of_true rfl rfl
    answer := rfl
    output := output }

/-- A run has one end. -/
theorem RunsTo.unique {ending' : Ending (List Value)} (hr : RunsTo s code w ending)
    (hr' : RunsTo s code w ending') : ending = ending' := by
  obtain ⟨script, h, w', parse, run⟩ := hr
  obtain ⟨script', h', w'', parse', run'⟩ := hr'
  cases parse.symm.trans parse'
  cases run.symm.trans run'
  rfl

/-- A text that is run can be read. -/
theorem RunsTo.readable (hr : RunsTo s code w ending) :
    ¬ ∃ message, Script.parse scriptChunk (Utf8.encode code) = .error message := by
  rintro ⟨message, parse⟩
  obtain ⟨script, h, w', parse', run⟩ := hr
  cases parse.symm.trans parse'

/-- The report of a script that has raised. -/
theorem classified_raised {x : Value} (hr : RunsTo s code w (.raised x)) {output : String}
    (buffer : s₁.printBuffer w₁ = (.ok output, s₁, w₁)) (text : String) :
    Classified s code w ⟨.failed .runtime text, output⟩ s₁ w₁ where
  compilation := iff_of_false nofun hr.readable
  runtime := iff_of_true ⟨rfl, rfl⟩ ⟨x, hr⟩
  answered := iff_of_false nofun fun ⟨⟨_, hvs⟩, _⟩ => by cases hr.unique hvs
  continued := iff_of_false nofun fun ⟨⟨_, hvs⟩, _⟩ => by cases hr.unique hvs
  error := iff_of_true rfl rfl
  errorKind := iff_of_true rfl rfl
  answer := rfl
  output := buffer

/-- The outcome of a script that has ended is an answer unless its value is nil. -/
theorem outcomeOf_cases (h : Heap) (v : Value) :
    (v = .nil ∧ outcomeOf h v = .continued) ∨
      (v ≠ .nil ∧ outcomeOf h v = .answered (Exchange.decode h v)) := by
  cases v with
  | nil => exact .inl ⟨rfl, rfl⟩
  | _ => exact .inr ⟨nofun, rfl⟩

/-- The report of a script that has ended. -/
theorem classified_returned {vs : List Value} (hr : RunsTo s code w (.returned vs))
    {output : String} (buffer : s₁.printBuffer w₁ = (.ok output, s₁, w₁)) :
    Classified s code w ⟨outcomeOf s₁.heap (s.lastAnswerOf code w), output⟩ s₁ w₁ := by
  have noRaise : ¬ ∃ x, RunsTo s code w (.raised x) := fun ⟨_, hx⟩ => by cases hr.unique hx
  obtain ⟨hnil, houtcome⟩ | ⟨hsome, houtcome⟩ :=
    outcomeOf_cases s₁.heap (s.lastAnswerOf code w)
  · rw [houtcome]
    exact {
      compilation := iff_of_false nofun hr.readable
      runtime := iff_of_false nofun noRaise
      answered := iff_of_false nofun fun ⟨_, hsome⟩ => hsome hnil
      continued := iff_of_true rfl ⟨⟨vs, hr⟩, hnil⟩
      error := iff_of_false nofun nofun
      errorKind := iff_of_false nofun nofun
      answer := rfl
      output := buffer }
  · rw [houtcome]
    exact {
      compilation := iff_of_false nofun hr.readable
      runtime := iff_of_false nofun noRaise
      answered := iff_of_true rfl ⟨⟨vs, hr⟩, hsome⟩
      continued := iff_of_false nofun fun ⟨_, hnil⟩ => hsome hnil
      error := iff_of_false nofun nofun
      errorKind := iff_of_false nofun nofun
      answer := rfl
      output := buffer }

/-- The outcome of a script that has raised is a failure. -/
theorem runOutcome_raised (x : Value) (h : Heap) (w : World) :
    ∃ text, runOutcome (.raised x) h w = .failed .runtime text := by
  cases x <;> exact ⟨_, rfl⟩

/-! ## Executions -/

/-- The sandbox in which a script is run, once the tools are bound. -/
def prepared (s : Sandbox) : Sandbox := { s with heap := reset s.heap }

/-- An execution whose tools have been bound in plain globals, and whose script is undisturbed,
returns a result, which is classified. -/
theorem classified_of_bind (bound : s.bind tools w = (.ok (), s₁, w₁)) (hp : PlainGlobals s₁.heap)
    (und : ∀ script, Script.parse scriptChunk (Utf8.encode code) = .ok script →
      Undisturbed s₁.prepared script w₁) :
    ∃ e s' w', s.execute code tools w = (.ok e, s', w') ∧
      Classified s₁.prepared code w₁ e s' w' := by
  have ready : Readies tools s w s₁.prepared w₁ := readies_iff.2 ⟨s₁, w₁, bound,
    perform_eq_ok_iff.2 ⟨_, gives_writeGlobals_iff.2 (writesAll_plain hp resets w₁), rfl⟩⟩
  have hp' : PlainGlobals s₁.prepared.heap := hp.reset
  rcases parse : Script.parse scriptChunk (Utf8.encode code) with message | script
  · refine ⟨_, _, _, execute_eq_ok_iff.2 (.unreadable ready parse),
      classified_unreadable parse ?_ _⟩
    have buffer : (s₁.prepared.heap.table globalsAddress).getStr bufferName = .str [] :=
      global_reset (e := ("_print_buffer", .str [])) hp (by simp [resetGlobals])
    have empty : Exchange.decode s₁.prepared.heap (.str []) = .str "" :=
      congrArg Datum.str (Utf8.decode_encode "")
    rw [printBuffer_of_plain hp'.plain, buffer, empty, textOf]
  · have und := und script parse
    rcases run : runScript s₁.prepared.wrapped s₁.prepared.limit s₁.prepared.heap script w₁ with
      ⟨ending, h, w₂⟩
    obtain ⟨plain, hanswer⟩ := und.left hp'.inside (answerIn_reset hp) run
    have hexecute := (execute_of_readies ready parse).trans (runParsed_of_plain run plain)
    have buffer := printBuffer_of_plain (s := { s₁.prepared with heap := h }) plain
      (verdict ending w₂).2
    have runs : RunsTo s₁.prepared code w₁ ending := ⟨script, h, w₂, parse, run⟩
    have hlast : s₁.prepared.lastAnswerOf code w₁ = answerIn h := by
      rw [lastAnswerOf, parse]
      exact hanswer.symm
    refine ⟨_, _, _, hexecute, ?_⟩
    cases ending with
    | returned vs =>
      have classified := classified_returned runs buffer
      rwa [hlast] at classified
    | raised x =>
      obtain ⟨text, houtcome⟩ := runOutcome_raised x h w₂
      rw [houtcome]
      exact classified_raised runs buffer text
    | unfinished =>
      have ends := und.ends
      rw [run] at ends
      exact absurd rfl ends

end

/-- A script that gives several answers, one of them before it catches an error, and false last. -/
def answeringScript : String :=
  "final_answer(1) pcall(function() final_answer(2) error() end) " ++
    "final_answer(nil) final_answer(false)"

/-- The sandbox in which that script is run, with one tool. -/
def answering : Sandbox := (Sandbox.empty.rebound [("add", default)]).prepared

/-- That script can be read, it is undisturbed, and its last answer is false. -/
theorem exists_answering_run : ∃ script,
    Script.parse scriptChunk (Utf8.encode answeringScript) = .ok script ∧
    Undisturbed answering script default ∧
    (∃ vs, (runScript answering.wrapped answering.limit answering.heap script default).1 =
      .returned vs) ∧
    lastAnswer .nil (answerEvents (answering.scriptPasses script default)) = .bool false := by
  have hall : (match Script.parse scriptChunk (Utf8.encode answeringScript) with
      | .ok script => decide (Undisturbed answering script default) &&
        (match (runScript answering.wrapped answering.limit answering.heap script default).1 with
          | .returned _ => true
          | _ => false) &&
        lastAnswer .nil (answerEvents (answering.scriptPasses script default)) == .bool false
      | .error _ => false) = true := by decide +kernel
  rcases parse : Script.parse scriptChunk (Utf8.encode answeringScript) with message | script
  · rw [parse] at hall
    cases hall
  rw [parse] at hall
  simp only [Bool.and_eq_true, decide_eq_true_eq, beq_iff_eq] at hall
  obtain ⟨⟨und, returns⟩, hlast⟩ := hall
  refine ⟨script, rfl, und, ?_, hlast⟩
  split at returns
  · next vs h => exact ⟨vs, h⟩
  · cases returns

/-- A script that makes a scope whose metatable raises. -/
def raisingScript : String :=
  "s = setmetatable(\x7b\x7d, \x7b__newindex = function() error(\x27no\x27) end\x7d)"

/-- A sandbox with a scope whose metatable raises. -/
def raising : Sandbox := (Sandbox.empty.execute raisingScript [] default).2.1

end ScriptAgent.Sandbox
