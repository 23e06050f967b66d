import ScriptAgent.Proofs.Sandbox.Access
import ScriptAgent.Proofs.Script.Heap

/-!
# When executions return

An execution takes every failure of its script into its result. What can fail besides is the host's
own access to globals: it binds and unbinds tools, resets the control globals before the script, and
reads the print buffer and the answer after it. Globals are indexed by the rules of the language, so
a metatable that a script has given them can make any of these accesses fail.

`Executes` derives the result of an execution from the accesses that it makes. An execution returns
exactly if it can be derived, and so does every one of a sequence (`execute_eq_ok_iff`,
`executions_return_iff`). Without metatables all accesses succeed, so an execution returns if no
table had one before, and the globals have none after (`execute_returns_of_bare`).
-/

namespace ScriptAgent.Sandbox

open Script

variable {s s' : Sandbox} {h h' : Heap} {w w' : World}

/-! ## Before the script -/

/-- The names to be removed are those that are bound and not named. -/
theorem mem_boundBeyond_iff {names : List String} {n : String} :
    n ∈ s.boundBeyond names ↔ n ∈ s.bound.map Binding.name ∧ n ∉ names := by
  simp [boundBeyond]

/-- Nothing is to be removed exactly if every name that is bound is named. -/
theorem boundBeyond_eq_nil_iff {names : List String} :
    s.boundBeyond names = [] ↔ ∀ n ∈ s.bound.map Binding.name, n ∈ names := by
  simp [boundBeyond]

/-- Removing names of tools succeeds. -/
inductive Unbinds : List String → Sandbox → World → Sandbox → World → Prop where
  | nil {s : Sandbox} {w : World} : Unbinds [] s w s w
  | cons {name : String} {rest : List String} {s s' : Sandbox} {h : Heap} {w w₁ w' : World}
      (assign : Assigns s.wrapped s.limit .stop .nil s.heap w (.table globalsAddress)
        (keysOf name) h w₁)
      (next : Unbinds rest ({ s with heap := h }.dropBinding name) w₁ s' w') :
      Unbinds (name :: rest) s w s' w'

/-- Binding tools succeeds. -/
inductive Binds : ToolMap → Sandbox → World → Sandbox → World → Prop where
  | nil {s : Sandbox} {w : World} : Binds [] s w s w
  | cons {name : String} {tool : Tool} {rest : ToolMap} {s s' : Sandbox} {h : Heap}
      {w w₁ w' : World}
      (assign : Assigns (s.wrap name tool).2.wrapped (s.wrap name tool).2.limit .create
        (.tool (s.wrap name tool).1) (s.wrap name tool).2.heap w (.table globalsAddress)
        (keysOf name) h w₁)
      (next : Binds rest { (s.wrap name tool).2 with heap := h } w₁ s' w') :
      Binds ((name, tool) :: rest) s w s' w'

/-- Writing globals succeeds, one after the other. -/
inductive WritesAll (tools : Array Tool) (fuel : Nat) :
    List (Bytes × Value) → Heap → World → Heap → World → Prop where
  | nil {h : Heap} {w : World} : WritesAll tools fuel [] h w h w
  | cons {name : Bytes} {v : Value} {rest : List (Bytes × Value)} {h h₁ h' : Heap}
      {w w₁ w' : World}
      (write : Writes tools fuel (.str name) v Operation.maxChain h w (.table globalsAddress) h₁ w₁)
      (next : WritesAll tools fuel rest h₁ w₁ h' w') :
      WritesAll tools fuel ((name, v) :: rest) h w h' w'

/-- What is written before every script: the control functions, no answer, an empty buffer. -/
def resets : List (Bytes × Value) :=
  (controls.map fun (name, v) => (Bytes.ofAscii name, v)) ++
    [(answerName, .nil), (bufferName, .str [])]

/-- Everything before the script succeeds: the names are accepted, tools that are not among them are
removed, the tools are bound, and the control globals are reset. -/
inductive Readies (tools : ToolMap) : Sandbox → World → Sandbox → World → Prop where
  | intro {s s₁ s₂ : Sandbox} {h : Heap} {w w₁ w₂ w₃ : World}
      (names : checkNames (tools.map Prod.fst) = .ok ())
      (unbinds : Unbinds (s.boundBeyond (tools.map Prod.fst)) s w s₁ w₁)
      (binds : Binds tools s₁ w₁ s₂ w₂)
      (writes : WritesAll s₂.wrapped s₂.limit resets s₂.heap w₂ h w₃) :
      Readies tools s w { s₂ with heap := h } w₃

/-- A program of the host succeeds in a sandbox exactly if it gives a value on its heap. -/
theorem perform_eq_ok_iff {α : Type} {p : Program α} {a : α} :
    s.perform p w = (.ok a, s', w') ↔
      ∃ h', Gives s.wrapped s.limit p s.heap w a h' w' ∧ s' = { s with heap := h' } := by
  unfold perform Gives
  rcases runProgram s.wrapped s.limit p s.heap w with ⟨_ | _ | _, h₁, w₁⟩
  · constructor
    · intro h
      cases h
      exact ⟨_, rfl, rfl⟩
    · rintro ⟨h', h, rfl⟩
      cases h
      rfl
  · exact iff_of_false nofun nofun
  · exact iff_of_false nofun nofun

/-- Writing at the path of a name returns exactly if it succeeds. -/
theorem perform_assign_iff {missing : Missing} {name : String} {v : Value} :
    s.perform (assign missing name v) w = (.ok (), s', w') ↔
      ∃ h', Assigns s.wrapped s.limit missing v s.heap w (.table globalsAddress) (keysOf name)
        h' w' ∧ s' = { s with heap := h' } := by
  simp only [perform_eq_ok_iff, assign, gives_assignBelow_iff]

/-- Removing names returns exactly if it succeeds. -/
theorem unbindAll_eq_ok_iff {names : List String} :
    unbindAll names s w = (.ok (), s', w') ↔ Unbinds names s w s' w' := by
  induction names generalizing s w with
  | nil =>
    rw [unbindAll]
    constructor
    · intro h
      cases h
      exact .nil
    · intro h
      cases h
      rfl
  | cons name rest ih =>
    rw [unbindAll]
    constructor
    · intro h
      split at h
      · next s₁ w₁ hp =>
        obtain ⟨h₁, assign, rfl⟩ := perform_assign_iff.1 hp
        exact .cons assign (ih.1 h)
      · cases h
    · intro h
      cases h with
      | cons assign next =>
        rw [perform_assign_iff.2 ⟨_, assign, rfl⟩]
        exact ih.2 next

/-- Binding tools returns exactly if it succeeds. -/
theorem bindAll_eq_ok_iff {tools : ToolMap} :
    bindAll tools s w = (.ok (), s', w') ↔ Binds tools s w s' w' := by
  induction tools generalizing s w with
  | nil =>
    rw [bindAll]
    constructor
    · intro h
      cases h
      exact .nil
    · intro h
      cases h
      rfl
  | cons binding rest ih =>
    obtain ⟨name, tool⟩ := binding
    rw [bindAll]
    dsimp only
    constructor
    · intro h
      split at h
      · next s₁ w₁ hp =>
        obtain ⟨h₁, assign, rfl⟩ := perform_assign_iff.1 hp
        exact .cons assign (ih.1 h)
      · cases h
    · intro h
      cases h with
      | cons assign next =>
        rw [perform_assign_iff.2 ⟨_, assign, rfl⟩]
        exact ih.2 next

/-- Writing globals gives something exactly if it succeeds. -/
theorem gives_writeGlobals_iff {tools : Array Tool} {fuel : Nat} {writes : List (Bytes × Value)}
    {u : Unit} :
    Gives tools fuel (writeGlobals writes) h w u h' w' ↔ WritesAll tools fuel writes h w h' w' := by
  induction writes generalizing h w with
  | nil =>
    rw [writeGlobals]
    refine gives_done_iff.trans ⟨?_, fun hw => ?_⟩
    · rintro ⟨-, rfl, rfl⟩
      exact .nil
    · cases hw
      exact ⟨rfl, rfl, rfl⟩
  | cons write rest ih =>
    obtain ⟨name, v⟩ := write
    rw [writeGlobals, gives_bind_iff]
    constructor
    · rintro ⟨_, h₁, w₁, hwrite, hnext⟩
      exact .cons (gives_setIndex_iff.1 hwrite) (ih.1 hnext)
    · intro hw
      cases hw with
      | cons write next => exact ⟨(), _, _, gives_setIndex_iff.2 write, ih.2 next⟩

/-- Everything before a script succeeds exactly if binding the tools and resetting the globals
return. -/
theorem readies_iff {tools : ToolMap} :
    Readies tools s w s' w' ↔
      ∃ s₁ w₁, s.bind tools w = (.ok (), s₁, w₁) ∧ s₁.perform prepare w₁ = (.ok (), s', w') := by
  constructor
  · rintro ⟨names, unbinds, binds, writes⟩
    refine ⟨_, _, ?_, perform_eq_ok_iff.2 ⟨_, gives_writeGlobals_iff.2 writes, rfl⟩⟩
    unfold bind
    simp only [names, unbindAll_eq_ok_iff.2 unbinds, bindAll_eq_ok_iff.2 binds]
  · rintro ⟨s₁, w₁, hb, hp⟩
    obtain ⟨h₁, hg, rfl⟩ := perform_eq_ok_iff.1 hp
    unfold bind at hb
    dsimp only at hb
    split at hb
    · cases hb
    · next names =>
      split at hb
      · cases hb
      · next unbinds =>
        exact .intro names (unbindAll_eq_ok_iff.1 unbinds) (bindAll_eq_ok_iff.1 hb)
          (gives_writeGlobals_iff.1 hg)

/-! ## The script and after it -/

/-- What the run of a script has come to: the message of its failure, if it has failed, and the
surroundings with the record of it. -/
def verdict (ending : Ending (List Value)) (w : World) : Option String × World :=
  match ending with
  | .returned _ => (none, w)
  | .raised (.failure message) =>
    (some message, w.log logger .error "Unexpected host error while running script")
  | .raised e =>
    (some (errorText e), w.log logger .info s!"Script raised a runtime error: {errorText e}")
  | .unfinished => (some "", w)

/-- The text of a value that is one. -/
def textOf (d : Datum) : String :=
  match d with
  | .str text => text
  | _ => ""

/-- The outcome of a script that has ended and left a value as its answer. -/
def outcomeOf (h : Heap) (v : Value) : Outcome :=
  match v with
  | .nil => .continued
  | v => .answered (Exchange.decode h v)

/-- The execution of a script with tools returns a result. Every rule asks for the accesses of the
host to globals that it makes, and for nothing else that can fail. -/
inductive Executes (tools : ToolMap) (code : String) :
    Sandbox → World → Execution → Sandbox → World → Prop where
  /-- The script cannot be read. -/
  | unreadable {s s₁ : Sandbox} {w w₁ : World} {message : Bytes}
      (ready : Readies tools s w s₁ w₁)
      (parse : Script.parse scriptChunk (Utf8.encode code) = .error message) :
      Executes tools code s w ⟨.failed .compilation (Text.quotedBytes message), ""⟩ s₁
        (w₁.log logger .info s!"Script failed to compile: {Text.quotedBytes message}")
  /-- The script fails. -/
  | failed {s s₁ : Sandbox} {w w₁ w₂ w₃ w' : World} {script : Function} {h h' : Heap}
      {ending : Ending (List Value)} {message : String} {text : Value}
      (ready : Readies tools s w s₁ w₁)
      (parse : Script.parse scriptChunk (Utf8.encode code) = .ok script)
      (run : runScript s₁.wrapped s₁.limit s₁.heap script w₁ = (ending, h, w₂))
      (failure : verdict ending w₂ = (some message, w₃))
      (buffer : Reads s₁.wrapped s₁.limit (.str bufferName) Operation.maxChain h w₃
        (.table globalsAddress) text h' w') :
      Executes tools code s w ⟨.failed .runtime message, textOf (Exchange.decode h' text)⟩
        { s₁ with heap := h' } w'
  /-- The script ends. -/
  | ended {s s₁ : Sandbox} {w w₁ w₂ w₃ w' : World} {script : Function} {h h₁ h' : Heap}
      {vs : List Value} {text answer : Value}
      (ready : Readies tools s w s₁ w₁)
      (parse : Script.parse scriptChunk (Utf8.encode code) = .ok script)
      (run : runScript s₁.wrapped s₁.limit s₁.heap script w₁ = (.returned vs, h, w₂))
      (buffer : Reads s₁.wrapped s₁.limit (.str bufferName) Operation.maxChain h w₂
        (.table globalsAddress) text h₁ w₃)
      (slot : Reads s₁.wrapped s₁.limit (.str answerName) Operation.maxChain h₁ w₃
        (.table globalsAddress) answer h' w') :
      Executes tools code s w ⟨outcomeOf h' answer, textOf (Exchange.decode h₁ text)⟩
        { s₁ with heap := h' } w'

/-- Reading a global returns exactly if it succeeds. -/
theorem perform_readGlobal_iff {name : Bytes} {v : Value} :
    s.perform (readGlobal name) w = (.ok v, s', w') ↔
      ∃ h', Reads s.wrapped s.limit (.str name) Operation.maxChain s.heap w (.table globalsAddress)
        v h' w' ∧ s' = { s with heap := h' } := by
  simp only [perform_eq_ok_iff, readGlobal, gives_index_iff]

/-- The print buffer is read as a text, or as the empty one. -/
theorem printBuffer_eq (s : Sandbox) (w : World) :
    s.printBuffer w =
      match s.perform (readGlobal bufferName) w with
      | (.ok v, s, w) => (.ok (textOf (Exchange.decode s.heap v)), s, w)
      | (.error e, s, w) => (.error e, s, w) := by
  unfold printBuffer textOf
  rcases s.perform (readGlobal bufferName) w with ⟨e | v, s₁, w₁⟩
  · rfl
  · dsimp only
    generalize Exchange.decode s₁.heap v = d
    cases d <;> rfl

/-- Reading the print buffer returns exactly if it succeeds. -/
theorem printBuffer_eq_ok_iff {text : String} :
    s.printBuffer w = (.ok text, s', w') ↔
      ∃ v h', Reads s.wrapped s.limit (.str bufferName) Operation.maxChain s.heap w
        (.table globalsAddress) v h' w' ∧ s' = { s with heap := h' } ∧
        text = textOf (Exchange.decode h' v) := by
  rw [printBuffer_eq]
  constructor
  · intro h
    split at h
    · next v s₁ w₁ hp =>
      obtain ⟨h₁, hr, rfl⟩ := perform_readGlobal_iff.1 hp
      cases h
      exact ⟨v, h₁, hr, rfl, rfl⟩
    · cases h
  · rintro ⟨v, h', hr, rfl, rfl⟩
    rw [perform_readGlobal_iff.2 ⟨h', hr, rfl⟩]

/-- A failure of a script is reported exactly if the print buffer can be read. -/
theorem failedRun_eq_ok_iff {message : String} {e : Execution} :
    s.failedRun message w = (.ok e, s', w') ↔
      ∃ text, s.printBuffer w = (.ok text, s', w') ∧ e = ⟨.failed .runtime message, text⟩ := by
  unfold failedRun
  rcases s.printBuffer w with ⟨f | text, s₁, w₁⟩
  · exact iff_of_false nofun nofun
  · constructor
    · intro h
      cases h
      exact ⟨text, rfl, rfl⟩
    · rintro ⟨_, h, rfl⟩
      cases h
      rfl

/-- What a script that has ended leaves is read from the print buffer and the answer. -/
theorem endedRun_eq (s : Sandbox) (w : World) :
    s.endedRun w =
      match s.printBuffer w with
      | (.error e, s, w) => (.error e, s, w)
      | (.ok output, s, w) =>
        match s.perform (readGlobal answerName) w with
        | (.error e, s, w) => (.error e, s, w)
        | (.ok v, s, w) => (.ok ⟨outcomeOf s.heap v, output⟩, s, w) := by
  unfold endedRun outcomeOf
  rcases s.printBuffer w with ⟨f | text, s₁, w₁⟩
  · rfl
  dsimp only
  rcases s₁.perform (readGlobal answerName) w₁ with ⟨f | v, s₂, w₂⟩
  · rfl
  · cases v <;> rfl

/-- The end of a script is reported exactly if the print buffer and the answer can be read. -/
theorem endedRun_eq_ok_iff {e : Execution} :
    s.endedRun w = (.ok e, s', w') ↔
      ∃ text s₁ w₁ v, s.printBuffer w = (.ok text, s₁, w₁) ∧
        s₁.perform (readGlobal answerName) w₁ = (.ok v, s', w') ∧
        e = ⟨outcomeOf s'.heap v, text⟩ := by
  rw [endedRun_eq]
  constructor
  · intro h
    split at h
    · cases h
    · next text s₁ w₁ hb =>
      split at h
      · cases h
      · next v s₂ w₂ hv =>
        cases h
        exact ⟨text, s₁, w₁, v, hb, hv, rfl⟩
  · rintro ⟨text, s₁, w₁, v, hb, hv, rfl⟩
    simp only [hb, hv]

/-- A script that has been read is run, and reported by what its run has come to. -/
theorem runParsed_eq (s : Sandbox) (script : Function) (w : World) :
    s.runParsed script w =
      match runScript s.wrapped s.limit s.heap script w with
      | (ending, h, w) =>
        match verdict ending w with
        | (none, w) => endedRun { s with heap := h } w
        | (some message, w) => failedRun { s with heap := h } message w := by
  unfold runParsed verdict
  rcases runScript s.wrapped s.limit s.heap script w with ⟨vs | e | _, h, w₁⟩
  · rfl
  · cases e <;> rfl
  · rfl

/-- Only a script that has ended has not failed. -/
theorem verdict_eq_none {ending : Ending (List Value)} (hv : verdict ending w = (none, w')) :
    (∃ vs, ending = .returned vs) ∧ w' = w := by
  unfold verdict at hv
  split at hv
  · cases hv
    exact ⟨⟨_, rfl⟩, rfl⟩
  all_goals cases hv

/-- An execution returns a result exactly if the rules derive it. -/
theorem execute_eq_ok_iff {tools : ToolMap} {code : String} {e : Execution} :
    s.execute code tools w = (.ok e, s', w') ↔ Executes tools code s w e s' w' := by
  constructor
  · intro he
    unfold execute at he
    split at he
    · cases he
    next s₁ w₁ hb =>
    split at he
    · cases he
    next s₂ w₂ hp =>
    have ready : Readies tools s w s₂ w₂ := readies_iff.2 ⟨s₁, w₁, hb, hp⟩
    split at he
    · next script parse =>
      rw [runParsed_eq] at he
      rcases run : runScript s₂.wrapped s₂.limit s₂.heap script w₂ with ⟨ending, h, w₃⟩
      rw [run] at he
      dsimp only at he
      rcases hv : verdict ending w₃ with ⟨_ | message, w₄⟩
      · rw [hv] at he
        obtain ⟨⟨vs, rfl⟩, rfl⟩ := verdict_eq_none hv
        obtain ⟨text, s₃, w₅, v, hbuf, hslot, rfl⟩ := endedRun_eq_ok_iff.1 he
        obtain ⟨x, h₁, buffer, rfl, rfl⟩ := printBuffer_eq_ok_iff.1 hbuf
        obtain ⟨h₂, slot, rfl⟩ := perform_readGlobal_iff.1 hslot
        exact (Executes.ended ready parse run buffer slot :)
      · rw [hv] at he
        obtain ⟨text, hbuf, rfl⟩ := failedRun_eq_ok_iff.1 he
        obtain ⟨x, h₁, buffer, rfl, rfl⟩ := printBuffer_eq_ok_iff.1 hbuf
        exact (Executes.failed ready parse run hv buffer :)
    · next message parse =>
      cases he
      exact .unreadable ready parse
  · intro he
    unfold execute
    cases he with
    | unreadable ready parse =>
      obtain ⟨s₁, w₁, hb, hp⟩ := readies_iff.1 ready
      simp only [hb, hp, parse]
    | failed ready parse run failure buffer =>
      obtain ⟨s₁, w₁, hb, hp⟩ := readies_iff.1 ready
      simp only [hb, hp, parse, runParsed_eq, run, failure]
      exact failedRun_eq_ok_iff.2 ⟨_, printBuffer_eq_ok_iff.2 ⟨_, _, buffer, rfl, rfl⟩, rfl⟩
    | ended ready parse run buffer slot =>
      obtain ⟨s₁, w₁, hb, hp⟩ := readies_iff.1 ready
      simp only [hb, hp, parse, runParsed_eq, run, verdict]
      exact endedRun_eq_ok_iff.2 ⟨_, _, _, _, printBuffer_eq_ok_iff.2 ⟨_, _, buffer, rfl, rfl⟩,
        perform_readGlobal_iff.2 ⟨_, slot, rfl⟩, rfl⟩

/-! ## Sequences of executions -/

/-- Every one of a sequence of executions in one sandbox returns a result. -/
def AllReturn : List (ToolMap × String) → Sandbox → World → Prop
  | [], _, _ => True
  | (tools, code) :: rest, s, w =>
    ∃ e s' w', s.execute code tools w = (.ok e, s', w') ∧ AllReturn rest s' w'

/-- The rules derive a result for every one of a sequence of executions, each in the sandbox that
the one before it leaves. -/
inductive ExecutesAll : List (ToolMap × String) → Sandbox → World → Prop where
  | nil {s : Sandbox} {w : World} : ExecutesAll [] s w
  | cons {tools : ToolMap} {code : String} {rest : List (ToolMap × String)} {s s' : Sandbox}
      {w w' : World} {e : Execution} (first : Executes tools code s w e s' w')
      (next : ExecutesAll rest s' w') : ExecutesAll ((tools, code) :: rest) s w

/-- All executions of a sequence return exactly if the rules derive a result for each of them: the
names of the tools are accepted, and every access of the host to globals succeeds by the rules of
indexing. Nothing that the scripts do makes them raise otherwise. -/
theorem executions_return_iff (calls : List (ToolMap × String)) (s : Sandbox) (w : World) :
    AllReturn calls s w ↔ ExecutesAll calls s w := by
  induction calls generalizing s w with
  | nil => exact iff_of_true trivial .nil
  | cons call rest ih =>
    obtain ⟨tools, code⟩ := call
    constructor
    · rintro ⟨e, s', w', he, hrest⟩
      exact .cons (execute_eq_ok_iff.1 he) ((ih s' w').1 hrest)
    · intro hx
      cases hx with
      | cons first next => exact ⟨_, _, _, execute_eq_ok_iff.2 first, (ih _ _).2 next⟩

/-- The usual idiom that makes undeclared globals an error. -/
def strictScript : String :=
  "setmetatable(_G, \x7b__index = function(t, k) " ++
    "error(\x27undeclared variable \x27 .. k, 2) end\x7d)"

/-- The idiom for strict globals makes its own execution raise, though no name of a tool is refused
and the script ends: it has given no answer, so the answer is undeclared when the host reads it. -/
theorem execution_raises :
    (∃ f, (Sandbox.empty.execute strictScript [] default).1 = .error f ∧
      f.message = "undeclared variable _final_answer") ∧
    ¬ ∀ calls : List (ToolMap × String), (∀ c ∈ calls, checkNames (c.1.map Prod.fst) = .ok ()) →
      AllReturn calls .empty default := by
  have hm : (match (Sandbox.empty.execute strictScript [] default).1 with
      | .error f => some f.message
      | .ok _ => none) = some "undeclared variable _final_answer" := by decide +kernel
  rcases hx : Sandbox.empty.execute strictScript [] default with ⟨f | e, s', w'⟩
  · rw [hx] at hm
    refine ⟨⟨f, rfl, Option.some.inj hm⟩, fun hall => ?_⟩
    obtain ⟨e, s₁, w₁, he, -⟩ := hall [([], strictScript)]
      fun c hc => by rw [List.mem_singleton.1 hc]; rfl
    cases hx.symm.trans he
  · rw [hx] at hm
    cases hm

/-! ## Without metatables -/

/-- No table has a metatable. -/
def Bare (h : Heap) : Prop := ∀ a, (h.table a).metatable = none

section
variable {tools : Array Tool} {fuel : Nat} {a : Address}

/-- A table without a metatable has no metamethods. -/
theorem metamethod_of_plain (plain : (h.table a).metatable = none) (event : String) :
    metamethod h (.table a) event = .nil := by
  simp only [metamethod, Heap.metafield, Heap.metatable, plain]

/-- Reading a table without a metatable succeeds and changes nothing. -/
theorem reads_of_plain (plain : (h.table a).metatable = none) (k : Value) (w : World) :
    ∃ x, Reads tools fuel k Operation.maxChain h w (.table a) x h w := by
  by_cases found : (h.table a).getValue k = .nil
  · exact ⟨.nil, .absent found (metamethod_of_plain plain _)⟩
  · exact ⟨_, .present found⟩

/-- Writing a table without a metatable under a name stores the value. -/
theorem writes_of_plain (plain : (h.table a).metatable = none) (name : Bytes) (x : Value)
    (w : World) :
    Writes tools fuel (.str name) x Operation.maxChain h w (.table a)
      (h.modifyTable a (·.set (.str name) x)) w :=
  .stored (.inr (metamethod_of_plain plain _)) rfl

/-- A value stored in a table gives none a metatable. -/
theorem Bare.modifyTable (bare : Bare h) (a : Address) (key : Key) (x : Value) :
    Bare (h.modifyTable a (·.set key x)) := fun b =>
  (Heap.metatable_modifyTable_set h a key x b).trans (bare b)

/-- A new table has no metatable. -/
theorem Bare.newTable (bare : Bare h) : Bare (h.newTable Table.empty).2 := fun b => by
  rw [Heap.table_newTable_empty]
  exact bare b

/-- Writing at a path succeeds without metatables, and makes none. -/
theorem assigns_of_bare (bare : Bare h) (missing : Missing) (x : Value) (a : Address)
    (path : List Bytes) (w : World) :
    ∃ h', Assigns tools fuel missing x h w (.table a) path h' w ∧ Bare h' := by
  induction path generalizing h a with
  | nil => exact ⟨h, .here, bare⟩
  | cons scope path ih =>
    cases path with
    | nil => exact ⟨_, .leaf (writes_of_plain (bare a) scope x w), bare.modifyTable _ _ _⟩
    | cons name rest =>
      obtain ⟨v, read⟩ := @reads_of_plain h tools fuel a (bare a) (.str scope) w
      by_cases hv : ∃ b, v = .table b
      · obtain ⟨b, rfl⟩ := hv
        obtain ⟨h', next, bare'⟩ := ih bare b
        exact ⟨h', .inside read next, bare'⟩
      · have noTable : ∀ b, v ≠ .table b := fun b hb => hv ⟨b, hb⟩
        cases missing with
        | stop => exact ⟨h, .stopped rfl read noTable, bare⟩
        | create =>
          obtain ⟨h', next, bare'⟩ := ih (bare.newTable.modifyTable a _ _) h.tables.size
          exact ⟨h', .created rfl read noTable
            (writes_of_plain (bare.newTable a) scope (.table h.tables.size) w) next, bare'⟩

/-- Writing globals succeeds without metatables, and makes none. -/
theorem writesAll_of_bare (bare : Bare h) (writes : List (Bytes × Value)) (w : World) :
    ∃ h', WritesAll tools fuel writes h w h' w ∧ Bare h' := by
  induction writes generalizing h with
  | nil => exact ⟨h, .nil, bare⟩
  | cons write rest ih =>
    obtain ⟨name, x⟩ := write
    obtain ⟨h', next, bare'⟩ := ih (bare.modifyTable globalsAddress (.str name) x)
    exact ⟨h', .cons (writes_of_plain (bare globalsAddress) name x w) next, bare'⟩

end

/-- Removing names succeeds without metatables, and makes none. -/
theorem unbinds_of_bare (bare : Bare s.heap) (names : List String) (w : World) :
    ∃ s', Unbinds names s w s' w ∧ Bare s'.heap := by
  induction names generalizing s with
  | nil => exact ⟨s, .nil, bare⟩
  | cons name rest ih =>
    obtain ⟨h, assign, bare'⟩ := assigns_of_bare bare .stop .nil globalsAddress (keysOf name) w
    obtain ⟨s', next, bare''⟩ := ih (s := { s with heap := h }.dropBinding name) bare'
    exact ⟨s', .cons assign next, bare''⟩

/-- A wrapper leaves the heap as it is. -/
theorem heap_wrap (s : Sandbox) (name : String) (tool : Tool) :
    (s.wrap name tool).2.heap = s.heap := by
  unfold wrap
  split
  · split <;> rfl
  · rfl

/-- Binding tools succeeds without metatables, and makes none. -/
theorem binds_of_bare (bare : Bare s.heap) (tools : ToolMap) (w : World) :
    ∃ s', Binds tools s w s' w ∧ Bare s'.heap := by
  induction tools generalizing s with
  | nil => exact ⟨s, .nil, bare⟩
  | cons binding rest ih =>
    obtain ⟨name, tool⟩ := binding
    obtain ⟨h, assign, bare'⟩ := assigns_of_bare ((heap_wrap s name tool).symm ▸ bare) .create
      (.tool (s.wrap name tool).1) globalsAddress (keysOf name) w
    obtain ⟨s', next, bare''⟩ := ih (s := { (s.wrap name tool).2 with heap := h }) bare'
    exact ⟨s', .cons assign next, bare''⟩

/-- Everything before a script succeeds without metatables, for names that are accepted. -/
theorem readies_of_bare {tools : ToolMap} (names : checkNames (tools.map Prod.fst) = .ok ())
    (bare : Bare s.heap) (w : World) : ∃ s', Readies tools s w s' w := by
  obtain ⟨s₁, unbinds, bare₁⟩ := unbinds_of_bare bare (s.boundBeyond (tools.map Prod.fst)) w
  obtain ⟨s₂, binds, bare₂⟩ := binds_of_bare bare₁ tools w
  obtain ⟨h, writes, -⟩ := writesAll_of_bare bare₂ resets w
  exact ⟨_, .intro names unbinds binds writes⟩

/-- An execution that comes to its script returns if the script leaves the globals without a
metatable. -/
theorem execute_returns_of_readies {tools : ToolMap} {code : String} {s₁ : Sandbox} {w₁ : World}
    (ready : Readies tools s w s₁ w₁)
    (plain : ∀ script, Script.parse scriptChunk (Utf8.encode code) = .ok script →
      ((runScript s₁.wrapped s₁.limit s₁.heap script w₁).2.1.table globalsAddress).metatable =
        none) :
    ∃ e s' w', s.execute code tools w = (.ok e, s', w') := by
  rcases parse : Script.parse scriptChunk (Utf8.encode code) with message | script
  · exact ⟨_, _, _, execute_eq_ok_iff.2 (.unreadable ready parse)⟩
  · have plain := plain script parse
    rcases run : runScript s₁.wrapped s₁.limit s₁.heap script w₁ with ⟨ending, h, w₂⟩
    rw [run] at plain
    rcases hv : verdict ending w₂ with ⟨_ | message, w₃⟩
    · obtain ⟨⟨vs, rfl⟩, -⟩ := verdict_eq_none hv
      obtain ⟨text, buffer⟩ := reads_of_plain plain (.str bufferName) w₂
      obtain ⟨answer, slot⟩ := reads_of_plain plain (.str answerName) w₂
      exact ⟨_, _, _, execute_eq_ok_iff.2 (.ended ready parse run buffer slot)⟩
    · obtain ⟨text, buffer⟩ := reads_of_plain plain (.str bufferName) w₃
      exact ⟨_, _, _, execute_eq_ok_iff.2 (.failed ready parse run hv buffer)⟩

/-- An execution returns if no table had a metatable before it, and the script has left the globals
without one. -/
theorem execute_returns_of_bare {tools : ToolMap} {code : String}
    (names : checkNames (tools.map Prod.fst) = .ok ()) (bare : Bare s.heap)
    (plain : ∀ s₁ script, Readies tools s w s₁ w →
      Script.parse scriptChunk (Utf8.encode code) = .ok script →
      ((runScript s₁.wrapped s₁.limit s₁.heap script w).2.1.table globalsAddress).metatable =
        none) :
    ∃ e s' w', s.execute code tools w = (.ok e, s', w') := by
  obtain ⟨s₁, ready⟩ := readies_of_bare names bare w
  exact execute_returns_of_readies ready fun script => plain s₁ script ready

end ScriptAgent.Sandbox
