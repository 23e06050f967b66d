import ScriptAgent.Proofs.Sandbox.Rebinding
import ScriptAgent.Proofs.Sandbox.Surroundings

/-!
# Scripts that cannot be read

A text that cannot be read as a script has no effect of its own: where no table on the way to a name
has a metatable, its execution leaves what the execution of the empty script leaves, runs no code
and calls no tool. With names without dots, texts that cannot be read may therefore be left out of
any sequence of executions: the others give the same results (`Sandbox.execute_unreadable`).

A table on the way that has a metatable can call a tool before the text is read
(`Sandbox.execute_unreadable_calls`).
-/

namespace ScriptAgent

/-- Surroundings without what has been logged. -/
def World.withoutLog (w : World) : World :=
  { w with events := w.events.filter fun
    | .logged _ => false
    | .printed _ | .served _ => true }

/-- Surroundings are the same but for what has been logged. -/
def SameButLog (w w' : World) : Prop := w.withoutLog = w'.withoutLog

theorem World.withoutLog_log (w : World) (logger : String) (level : Level) (message : String) :
    (w.log logger level message).withoutLog = w.withoutLog := by
  simp [withoutLog, log, emit]

theorem logsAlike_sameButLog : LogsAlike SameButLog := fun w w' logger level message hw => by
  rw [SameButLog, World.withoutLog_log, World.withoutLog_log]
  exact hw

namespace Sandbox

open Script

/-! ## The empty script -/

/-- The text without statements is a script without statements. -/
theorem parse_empty : ∃ f, Script.parse scriptChunk (Utf8.encode "") = .ok f ∧
    f.body = [] ∧ f.params = 0 ∧ f.varargTable = false := by
  have hall : ((Script.parse scriptChunk (Utf8.encode "")).toOption.any fun f =>
      f.body.isEmpty && f.params == 0 && !f.varargTable) = true := by decide +kernel
  rcases hparse : Script.parse scriptChunk (Utf8.encode "") with e | f
  · rw [hparse] at hall
    cases hall
  · rw [hparse] at hall
    simp only [Except.toOption, Option.any, Bool.and_eq_true, List.isEmpty_iff, beq_iff_eq,
      Bool.not_eq_true'] at hall
    exact ⟨f, rfl, hall.1.1, hall.1.2, hall.2⟩

/-- The heap in which a script is run: its function and the variable of the globals have been added,
and nothing refers to them. -/
def loaded (h : Heap) (script : Function) : Heap :=
  ((h.newCell (.table globalsAddress)).2.newClosure ⟨script, [h.cells.size]⟩).2

section
variable {s t : Sandbox} {h : Heap} {w w' : World} {tools : ToolMap} {code : String}
  {message : Bytes} {names : List String} {n : String}

/-- A script without statements leaves the heap in which it is run. -/
theorem runScript_of_empty {f : Function} (hbody : f.body = []) (hparams : f.params = 0)
    (hvararg : f.varargTable = false) (tools : Array Tool) (fuel : Nat) (h : Heap) (w : World) :
    ∃ ending, (verdict ending w).2 = w ∧
      runScript tools fuel h f w = (ending, loaded h f, w) := by
  have hstart : runScript tools fuel h f w =
      run tools fuel (start (loaded h f) (.call (.function h.closures.size) [] .outside)) w := rfl
  have hclosure : (loaded h f).closures[h.closures.size]? = some ⟨f, [h.cells.size]⟩ := by
    simp [loaded, Heap.newCell, Heap.newClosure]
  rw [hstart]
  generalize loaded h f = g at hclosure ⊢
  have hcall : (start g (.call (.function h.closures.size) [] .outside)).step =
      .next ⟨g, [.activation .outside], .exec [] ⟨[h.cells.size], [], f.chunk⟩, 1, 0, 0⟩ := by
    simp [start, State.step, State.call, State.resolveCall, State.maxCallChain, State.callClosure,
      State.maxActivations, hclosure, State.bindParameters, hparams, hvararg, adjust, State.bind,
      Heap.newCells, Context.withVars, State.enter, hbody, State.become]
  -- the call, the block, its end and the end of the run
  match fuel with
  | 0 => exact ⟨.unfinished, rfl, rfl⟩
  | 1 | 2 | 3 => exact ⟨.unfinished, rfl, by rw [run, hcall]; rfl⟩
  | _ + 4 => exact ⟨.returned [], rfl, by rw [run, hcall]; rfl⟩

/-- A plain global is read as it is. -/
theorem perform_readGlobal_of_plain (plain : (s.heap.table globalsAddress).metatable = none)
    (name : Bytes) (w : World) :
    s.perform (readGlobal name) w = (.ok ((s.heap.table globalsAddress).getStr name), s, w) :=
  perform_readGlobal_iff.2 ⟨_, (reads_field_iff_of_plain plain).2 ⟨rfl, rfl, rfl⟩, rfl⟩

/-- The print buffer of plain globals is read as it is. -/
theorem printBuffer_of_plain (plain : (s.heap.table globalsAddress).metatable = none) (w : World) :
    s.printBuffer w =
      (.ok (textOf (Exchange.decode s.heap ((s.heap.table globalsAddress).getStr bufferName))),
        s, w) := by
  rw [printBuffer_eq, perform_readGlobal_of_plain plain]

/-- The outcome of a run that has left a heap. -/
def runOutcome (ending : Ending (List Value)) (h : Heap) (w : World) : Outcome :=
  match (verdict ending w).1 with
  | none => outcomeOf h ((h.table globalsAddress).getStr answerName)
  | some message => .failed .runtime message

/-- A run that has left the globals plain is reported without any change. -/
theorem runParsed_of_plain {script : Function} {ending : Ending (List Value)}
    (run : runScript s.wrapped s.limit s.heap script w = (ending, h, w'))
    (plain : (h.table globalsAddress).metatable = none) :
    s.runParsed script w =
      (.ok ⟨runOutcome ending h w',
        textOf (Exchange.decode h ((h.table globalsAddress).getStr bufferName))⟩,
        { s with heap := h }, (verdict ending w').2) := by
  have buffer := fun w => @printBuffer_of_plain { s with heap := h } plain w
  have answer := fun w => @perform_readGlobal_of_plain { s with heap := h } plain answerName w
  rw [runParsed_eq, run, runOutcome]
  dsimp only
  rcases verdict ending w' with ⟨_ | message, w₁⟩
  · dsimp only
    rw [endedRun_eq, buffer]
    dsimp only
    rw [answer]
  · dsimp only
    rw [failedRun, buffer]

/-- The globals stay plain when the reserved ones are reset. -/
theorem PlainGlobals.reset (hp : PlainGlobals h) : PlainGlobals (reset h) where
  inside := by
    rw [Sandbox.reset, Heap.size_modifyTable]
    exact hp.inside
  plain := by
    rw [Sandbox.reset, Heap.table_modifyTable_self hp.inside, Table.metatable_setAll]
    exact hp.plain

/-- The globals in which a script is run are plain if they have been before. -/
theorem plainGlobals_readied (hp : PlainGlobals s.heap) : PlainGlobals (s.readied tools).heap :=
  ((grown_rebound s tools).plainGlobals hp).reset

/-- The empty script leaves the sandbox in which it is run, with its own function. -/
theorem execute_empty (accepted : checkNames (tools.map Prod.fst) = .ok ())
    (hu : Unhooked s.heap (s.bound.map Binding.name ++ tools.map Prod.fst)) (w : World) :
    ∃ e f, s.execute "" tools w =
      (.ok e, { s.readied tools with heap := loaded (s.readied tools).heap f }, w) := by
  obtain ⟨f, hparse, hbody, hparams, hvararg⟩ := parse_empty
  obtain ⟨ending, unlogged, hrun⟩ := runScript_of_empty hbody hparams hvararg
    (s.readied tools).wrapped (s.readied tools).limit (s.readied tools).heap w
  have hparsed := runParsed_of_plain hrun (plainGlobals_readied hu.globals).plain
  rw [unlogged] at hparsed
  exact ⟨_, f, (execute_of_readies (readies_readied accepted hu w) hparse).trans hparsed⟩

/-! ## A text that cannot be read -/

/-- A text that cannot be read leaves the sandbox in which a script would be run. -/
theorem execute_of_unreadable (accepted : checkNames (tools.map Prod.fst) = .ok ())
    (hu : Unhooked s.heap (s.bound.map Binding.name ++ tools.map Prod.fst))
    (unreadable : Script.parse scriptChunk (Utf8.encode code) = .error message) (w : World) :
    s.execute code tools w =
      (.ok ⟨.failed .compilation (Text.quotedBytes message), ""⟩, s.readied tools,
        w.log logger .info s!"Script failed to compile: {Text.quotedBytes message}") :=
  execute_eq_ok_iff.2 (.unreadable (readies_readied accepted hu w) unreadable)

/-! ## Names without dots -/

/-- A name has no dots. -/
def Undotted (n : String) : Prop := '.' ∉ n.toList

instance (n : String) : Decidable (Undotted n) := inferInstanceAs (Decidable (¬ _))

/-- The path of a name without dots is one field of the globals. -/
theorem keysOf_of_undotted (hn : Undotted n) : keysOf n = [Utf8.encodeChars n.toList] := by
  rw [keysOf, pathOf, splitDots_of_not_mem hn]
  rfl

/-- Names without dots are written without running code exactly if the globals are plain. -/
theorem unhooked_iff_of_undotted (undotted : ∀ k ∈ names, Undotted k) :
    Unhooked h names ↔ PlainGlobals h := by
  refine ⟨Unhooked.globals, fun hp => ⟨hp, fun n hn scopes rest a hpath hrest ha => ?_⟩⟩
  rw [keysOf_of_undotted (undotted n hn), List.singleton_eq_append_iff] at hpath
  rcases hpath with ⟨rfl, -⟩ | ⟨-, rfl⟩
  · cases ha
    exact hp.plain
  · exact absurd rfl hrest

/-- No name without dots begins another one. -/
theorem prefixFree_of_undotted (undotted : ∀ k ∈ names, Undotted k) : PrefixFree names := by
  intro m hm n hn hne hle
  refine hne (keysOf_injective (hle.eq_of_length ?_))
  rw [keysOf_of_undotted (undotted m hm), keysOf_of_undotted (undotted n hn)]
  rfl

/-- The one scope of names without dots is the globals. -/
theorem ownTables_of_undotted (hp : PlainGlobals h) (undotted : ∀ k ∈ names, Undotted k) :
    OwnTables names h := by
  have root : ∀ p, IsScope names p → p = [] := by
    rintro p (rfl | ⟨n, hn, hle, hne⟩)
    · rfl
    · rw [keysOf_of_undotted (undotted n hn)] at hle hne
      rcases List.prefix_cons_iff.1 hle with hp | ⟨rest, rfl, hrest⟩
      · exact hp
      · exact absurd (by rw [List.prefix_nil.1 hrest]) hne
  refine ⟨fun p a hscope ha => ?_, fun p a hscope ha => ?_, fun p q a hscope hscope' _ _ => ?_⟩
  · cases root p hscope
    cases ha
    exact hp.inside
  · cases root p hscope
    cases ha
    exact hp.plain
  · rw [root p hscope, root q hscope']

/-! ## Sequences of executions -/

/-- The results of executing texts with tools one after the other, without those of the texts that
are marked. -/
def resultsOfUnmarked (tools : ToolMap) :
    List (String × Bool) → Sandbox → World → List (Except Failure Execution)
  | [], _, _ => []
  | (code, marked) :: rest, s, w =>
    match s.execute code tools w with
    | (result, s, w) =>
      if marked then resultsOfUnmarked tools rest s w
      else result :: resultsOfUnmarked tools rest s w

/-- Texts that are marked cannot be read, and when one is executed no table on the way to a name
that is bound or is to be bound has a metatable. -/
def MarksUnreadable (tools : ToolMap) : List (String × Bool) → Sandbox → World → Prop
  | [], _, _ => True
  | (code, marked) :: rest, s, w =>
    (marked = true → (∃ message, Script.parse scriptChunk (Utf8.encode code) = .error message) ∧
      Unhooked s.heap (s.bound.map Binding.name ++ tools.map Prod.fst)) ∧
    MarksUnreadable tools rest (s.execute code tools w).2.1 (s.execute code tools w).2.2

/-- A sandbox in which tools have just been bound and the globals reset is another one, or comes out
of it by this. -/
structure ReadyFor (tools : ToolMap) (s t : Sandbox) : Prop where
  unhooked : Unhooked s.heap (s.bound.map Binding.name ++ tools.map Prod.fst)
  before : Unhooked t.heap (t.bound.map Binding.name ++ tools.map Prod.fst)
  same : s.readied tools = s
  ready : t.readied tools = s

/-- Once a text that cannot be read has been executed, the sandbox is ready. -/
theorem readyFor_readied (accepted : checkNames (tools.map Prod.fst) = .ok ())
    (nodup : (tools.map Prod.fst).Nodup) (undotted : ∀ n ∈ tools.map Prod.fst, Undotted n)
    (hu : Unhooked s.heap (s.bound.map Binding.name ++ tools.map Prod.fst)) :
    ReadyFor tools (s.readied tools) s where
  unhooked := by
    refine (unhooked_iff_of_undotted fun n hn => ?_).2 (plainGlobals_readied hu.globals)
    exact (List.mem_append.1 hn).elim (fun hn => undotted n (mem_names_rebound_iff.1 hn))
      (undotted n)
  before := hu
  same := readied_readied accepted (prefixFree_of_undotted undotted)
    (ownTables_of_undotted hu.globals undotted) nodup
  ready := rfl

/-- A script is executed in the same way in a sandbox and in one that is ready for it. -/
theorem ReadyFor.execute_eq (ready : ReadyFor tools s t)
    (accepted : checkNames (tools.map Prod.fst) = .ok ()) (code : String) (w : World) :
    s.execute code tools w = t.execute code tools w := by
  have hs := readies_readied accepted ready.unhooked w
  have ht := readies_readied accepted ready.before w
  rw [ready.same] at hs
  rw [ready.ready] at ht
  exact execute_eq_of_readies hs ht

/-- Leaving out texts that cannot be read does not change the results of the others. The induction
is on the texts: the sandbox with all of them is the same as the one without those that are left
out, or ready where that one is not. -/
theorem resultsOfUnmarked_filter (accepted : checkNames (tools.map Prod.fst) = .ok ())
    (nodup : (tools.map Prod.fst).Nodup) (undotted : ∀ n ∈ tools.map Prod.fst, Undotted n)
    (respecting : ∀ e ∈ tools, e.2.Respects SameButLog) (hs : IsRespecting SameButLog s)
    (ht : IsRespecting SameButLog t) (hw : SameButLog w w') (hst : s = t ∨ ReadyFor tools s t)
    {texts : List (String × Bool)} (marks : MarksUnreadable tools texts s w) :
    resultsOfUnmarked tools texts s w =
      resultsOfUnmarked tools (texts.filter (!·.2)) t w' := by
  induction texts generalizing s t w w' with
  | nil => rfl
  | cons text rest ih =>
    obtain ⟨code, marked⟩ := text
    obtain ⟨hmarked, marks⟩ := marks
    have hs' := invariant_respecting.preserved.execute hs code tools (fun _ => respecting) w
    cases marked with
    | true =>
      obtain ⟨⟨message, unreadable⟩, hu⟩ := hmarked rfl
      rw [execute_of_unreadable accepted hu unreadable] at marks hs'
      rw [resultsOfUnmarked, execute_of_unreadable accepted hu unreadable]
      refine ih hs' ht ?_ ?_ marks
      · rw [SameButLog, World.withoutLog_log]
        exact hw
      · rcases hst with rfl | ready
        · exact .inr (readyFor_readied accepted nodup undotted hu)
        · exact .inr (ready.same.symm ▸ ready)
    | false =>
      have hexecute : s.execute code tools w = t.execute code tools w := by
        rcases hst with rfl | ready
        · rfl
        · exact ready.execute_eq accepted code w
      obtain ⟨result, s₁, w₁, w₁', hrun, hrun', hw₁⟩ :=
        (respects_execute logsAlike_sameButLog ht respecting code).exists_eq hw
      rw [← hexecute] at hrun
      rw [hrun] at marks hs'
      rw [List.filter_cons_of_pos (by rfl), resultsOfUnmarked, resultsOfUnmarked, hrun, hrun']
      exact congrArg (result :: ·) (ih hs' hs' hw₁ (.inl rfl) marks)

/-- A text that cannot be read has no effect of its own. Where no table on the way to a name has a
metatable, its execution reports that it does not compile, with an empty output; it leaves the
sandbox in which a script would be run, which is what the empty script leaves but for the function
and the variable of that script itself; and nothing happens to the surroundings but a log record, so
no tool is called. With names without dots, such texts may be marked anywhere in a sequence of
texts, and the results of the others are the same without them, if the tools do not look at the log.
-/
theorem execute_unreadable (s : Sandbox) (tools : ToolMap) (w : World)
    (accepted : checkNames (tools.map Prod.fst) = .ok ()) (nodup : (tools.map Prod.fst).Nodup) :
    (Unhooked s.heap (s.bound.map Binding.name ++ tools.map Prod.fst) →
      ∀ code message, Script.parse scriptChunk (Utf8.encode code) = .error message →
        s.execute code tools w =
          (.ok ⟨.failed .compilation (Text.quotedBytes message), ""⟩, s.readied tools,
            w.log logger .info s!"Script failed to compile: {Text.quotedBytes message}") ∧
        ∃ e f, s.execute "" tools w =
          (.ok e, { s.readied tools with heap := loaded (s.readied tools).heap f }, w)) ∧
    ((∀ n ∈ tools.map Prod.fst, Undotted n) → (∀ e ∈ tools, e.2.Respects SameButLog) →
      IsRespecting SameButLog s →
      ∀ texts, MarksUnreadable tools texts s w →
        resultsOfUnmarked tools texts s w =
          resultsOfUnmarked tools (texts.filter (!·.2)) s w) :=
  ⟨fun hu _ _ unreadable =>
    ⟨execute_of_unreadable accepted hu unreadable w, execute_empty accepted hu w⟩,
  fun undotted respecting hs _ marks =>
    resultsOfUnmarked_filter accepted nodup undotted respecting hs hs rfl (.inl rfl) marks⟩

end

/-- An equality sign alone cannot be read. -/
theorem parse_equals : ∃ message,
    Script.parse scriptChunk (Utf8.encode "=") = .error message := by
  have hfail : (Script.parse scriptChunk (Utf8.encode "=")).isOk = false := by decide +kernel
  cases hparse : Script.parse scriptChunk (Utf8.encode "=") with
  | error message => exact ⟨message, rfl⟩
  | ok script =>
    rw [hparse] at hfail
    cases hfail

/-- Two texts that cannot be read are left out of a sequence of executions in a fresh sandbox. -/
theorem execute_unreadable_twice :
    checkNames ["add"] = .ok () ∧ ["add"].Nodup ∧
    Unhooked Sandbox.empty.heap (Sandbox.empty.bound.map Binding.name ++ ["add"]) ∧
    (∃ message, Script.parse scriptChunk (Utf8.encode "=") = .error message ∧
      Sandbox.empty.execute "=" [("add", default)] default =
        (.ok ⟨.failed .compilation (Text.quotedBytes message), ""⟩,
          Sandbox.empty.readied [("add", default)],
          (default : World).log logger .info
            s!"Script failed to compile: {Text.quotedBytes message}")) ∧
    (∀ n ∈ ["add"], Undotted n) ∧
    (∀ e ∈ [("add", (default : Tool))], e.2.Respects SameButLog) ∧
    IsRespecting SameButLog .empty ∧
    MarksUnreadable [("add", default)] [("=", true), ("final_answer(1)", false), ("=", true)]
      .empty default ∧
    resultsOfUnmarked [("add", default)] [("=", true), ("final_answer(1)", false), ("=", true)]
        .empty default =
      resultsOfUnmarked [("add", default)] [("final_answer(1)", false)] .empty default := by
  have undotted : ∀ n ∈ ["add"], Undotted n := by decide
  have unhooked : Unhooked Sandbox.empty.heap (Sandbox.empty.bound.map Binding.name ++ ["add"]) :=
    unhooked_of_grown (.refl _) _
  have respecting : ∀ e ∈ [("add", (default : Tool))], e.2.Respects SameButLog := fun e he => by
    rw [List.mem_singleton.1 he]
    exact Tool.respects_default _
  have later : ∀ s : Sandbox, ((∀ n ∈ s.bound.map Binding.name ++ ["add"], Undotted n) ∧
      globalsAddress < s.heap.tables.size ∧ (s.heap.table globalsAddress).metatable = none) →
      Unhooked s.heap (s.bound.map Binding.name ++ ["add"]) := fun _ ⟨undotted, inside, plain⟩ =>
    (unhooked_iff_of_undotted undotted).2 ⟨inside, plain⟩
  have marks : MarksUnreadable [("add", default)]
      [("=", true), ("final_answer(1)", false), ("=", true)] .empty default :=
    ⟨fun _ => ⟨parse_equals, unhooked⟩, nofun,
      fun _ => ⟨parse_equals, later _ (by decide +kernel)⟩, trivial⟩
  obtain ⟨hone, hall⟩ :=
    execute_unreadable .empty [("add", default)] default (by decide) (by decide)
  obtain ⟨message, hmessage⟩ := parse_equals
  exact ⟨by decide, by decide, unhooked, ⟨message, hmessage, (hone unhooked _ _ hmessage).1⟩,
    undotted, respecting, respecting_empty _, marks,
    hall undotted respecting (respecting_empty _) _ marks⟩

/-- A tool that shows that it has been called. -/
def announcing : Tool := ⟨0, "add", "", [], fun _ w => (.value .none, w.print "called")⟩

/-- A script that makes a scope whose metatable calls a tool. -/
def callingScript : String :=
  "s = setmetatable(\x7b\x7d, \x7b__newindex = function() add() end\x7d)"

/-- A sandbox with a scope whose metatable calls a tool. -/
def calling : Sandbox := (Sandbox.empty.execute callingScript [("add", announcing)] .empty).2.1

/-- Binding a tool in a scope that has a metatable can call a tool, before it is known that the text
cannot be read. It is not enough that the globals have none. -/
theorem execute_unreadable_calls :
    ¬ ∀ (s : Sandbox) (tools : ToolMap) (code : String) (message : Bytes) (w : World),
      PlainGlobals s.heap → checkNames (tools.map Prod.fst) = .ok () →
      Script.parse scriptChunk (Utf8.encode code) = .error message →
      (s.execute code tools w).2.2 =
        w.log logger .info s!"Script failed to compile: {Text.quotedBytes message}" := by
  intro hall
  obtain ⟨hinside, hplain, hevents⟩ : globalsAddress < calling.heap.tables.size ∧
      (calling.heap.table globalsAddress).metatable = none ∧
      (calling.execute "=" [("add", announcing), ("s.f", announcing)]
        .empty).2.2.events.length = 2 := by decide +kernel
  obtain ⟨message, hmessage⟩ := parse_equals
  rw [hall calling _ "=" message .empty ⟨hinside, hplain⟩ (by decide) hmessage] at hevents
  cases hevents

end Sandbox

end ScriptAgent
