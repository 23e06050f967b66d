import ScriptAgent.Proofs.Sandbox.HeapInvariant
import ScriptAgent.Proofs.Script.Printing

/-!
# The print buffer in a run

A call that prints completes when the frame of the call is given the line that its program has made.
The step in which it does so appends the line and a line break to the print buffer, and gives the
line to the caller. If nothing else stores the print buffer, then in every state of a run it holds
the lines of the calls that have completed so far, in the order of their completion
(`logs_passes`), also where a call has been begun by the metamethod of an argument of
another one.

What completes has been called: `completed_of_passes` gives the states from the call to its
completion. And what has been called and returns has completed (`called_of_passes`).
-/

namespace ScriptAgent

namespace Script

/-! ## Completions -/

/-- The call that prints and completes in the next step, with its line, if one does. -/
def State.printed? (s : State) : Option (Invocation × Bytes) :=
  match s.mode, s.stack with
  | .ret vs, .printing inv :: _ => some (inv, Library.textBytes (vs.headD .nil))
  | _, _ => none

/-- What the calls that complete in some states print: the line of each, and a line break. -/
def printedText (passed : List State) : Bytes :=
  (passed.filterMap State.printed?).flatMap fun call => call.2 ++ [10]

/-- The print buffer is stored by the calls that print alone. -/
def OnlyCallsPrint (passed : List State) : Prop :=
  ∀ t ∈ passed, (t.stores? globalsAddress bufferName).isSome = true → t.printed?.isSome = true

instance (passed : List State) : Decidable (OnlyCallsPrint passed) :=
  inferInstanceAs (Decidable (∀ t ∈ passed, _))

section
variable {s : State} {h : Heap} {text line : Bytes} {inv : Invocation}

theorem printedText_nil : printedText [] = [] := rfl

theorem printedText_append (passed rest : List State) :
    printedText (passed ++ rest) = printedText passed ++ printedText rest := by
  simp [printedText]

/-- A call that completes is on top of the stack and is given the text of its line. -/
theorem State.printed?_eq_some (hs : s.printed? = some (inv, line)) :
    ∃ vs K, s.mode = .ret vs ∧ s.stack = .printing inv :: K ∧
      line = Library.textBytes (vs.headD .nil) := by
  unfold State.printed? at hs
  split at hs
  · next vs inv' K hmode hstack =>
    cases hs
    exact ⟨vs, K, hmode, hstack, rfl⟩
  · cases hs

theorem bufferedText_eq_some :
    State.bufferedText h = some text ↔ (h.table globalsAddress).getStr bufferName = .str text := by
  unfold State.bufferedText
  split
  · next heq => simp [heq]
  · next hne => exact iff_of_false nofun (hne text)

/-- Where the print buffer holds a text, there is the table of globals. -/
theorem inside_of_bufferedText (buffered : State.bufferedText h = some text) :
    globalsAddress < h.tables.size := by
  by_contra outside
  have htable : h.table globalsAddress = Table.empty := by
    simp [Heap.table, Array.getD_eq_getD_getElem?, outside]
  rw [bufferedText_eq_some, htable] at buffered
  cases buffered

/-- The text that a call which prints leaves in the print buffer. -/
theorem stores?_of_printed? (buffered : State.bufferedText s.heap = some text)
    (hs : s.printed? = some (inv, line)) :
    s.stores? globalsAddress bufferName = some (.str (text ++ line ++ [10])) := by
  obtain ⟨vs, K, hmode, hstack, rfl⟩ := State.printed?_eq_some hs
  unfold State.stores?
  rw [hmode, hstack]
  simp [Frame.stores?, buffered, storedAt]

/-- A step appends what it prints to the print buffer. -/
theorem bufferedText_step (buffered : State.bufferedText s.heap = some text)
    (only : (s.stores? globalsAddress bufferName).isSome = true → s.printed?.isSome = true) :
    State.bufferedText s.step.heap = some (text ++ printedText [s]) := by
  have hfield := s.stores_step.field _ (inside_of_bufferedText buffered) bufferName
  rw [bufferedText_eq_some, hfield]
  cases hs : s.printed? with
  | none =>
    rw [hs] at only
    rw [Option.not_isSome_iff_eq_none.1 fun h => nomatch only h]
    simpa [printedText, hs] using bufferedText_eq_some.1 buffered
  | some call =>
    rw [stores?_of_printed? buffered hs]
    simp [printedText, hs]

end

end Script

namespace Sandbox

open Script

section
variable {tools : Array Tool} {s : State} {text : Bytes}

/-- A tool leaves the print buffer as it is. -/
theorem bufferedText_callTool {h : Heap} (buffered : State.bufferedText h = some text)
    (wrapper : Nat) (args : List Value) (w : World) :
    State.bufferedText (callTool (tools.getD wrapper default) args h w).2.1 = some text := by
  have keeps := @keepsFields_callTool tools wrapper args h w
  rw [bufferedText_eq_some, keeps.field _ (inside_of_bufferedText buffered)]
  exact bufferedText_eq_some.1 buffered

/-- In each of some successive states the print buffer holds, after a text, what has been printed in
the states before, and at the end what has been printed in all of them. -/
structure Logs (text : Bytes) (states : List State) (h : Heap) : Prop where
  within : ∀ before t after, states = before ++ t :: after →
    State.bufferedText t.heap = some (text ++ printedText before)
  after : State.bufferedText h = some (text ++ printedText states)

theorem Logs.nil {h : Heap} (buffered : State.bufferedText h = some text) : Logs text [] h where
  within := by simp
  after := by rwa [printedText_nil, List.append_nil]

/-- What is printed in a first state stands before what is printed in the other ones. -/
theorem Logs.cons {h : Heap} {states : List State}
    (buffered : State.bufferedText s.heap = some text)
    (logs : Logs (text ++ printedText [s]) states h) : Logs text (s :: states) h where
  within before t after heq := by
    cases before with
    | nil =>
      cases heq
      rwa [printedText_nil, List.append_nil]
    | cons u before =>
      cases heq
      rw [logs.within before t after rfl, List.append_assoc, ← printedText_append]
      rfl
  after := by
    rw [logs.after, List.append_assoc, ← printedText_append]
    rfl

/-- In every state of a run the print buffer holds what the calls have printed that have completed
so far, and so it does after the run. -/
theorem logs_passes (buffered : State.bufferedText s.heap = some text) (fuel : Nat) (w : World)
    (only : OnlyCallsPrint (passes tools fuel s w)) :
    Logs text (passes tools fuel s w) (run tools fuel s w).2.1 := by
  induction fuel generalizing s w text with
  | zero => exact .nil buffered
  | succ fuel ih =>
    rw [passes] at only ⊢
    rw [run]
    obtain ⟨first, only⟩ := List.forall_mem_cons.1 only
    have hstep := bufferedText_step buffered first
    refine .cons buffered ?_
    cases hs : s.step with
    | next s' =>
      rw [hs] at hstep only
      exact ih hstep w only
    | done vs h =>
      rw [hs] at hstep
      exact .nil hstep
    | failed e h =>
      rw [hs] at hstep
      exact .nil hstep
    | tool wrapper args s' =>
      rw [hs] at hstep only
      refine ih ?_ _ only
      rw [heap_resumeWith]
      exact bufferedText_callTool hstep wrapper args w

/-! ## From a call to its completion -/

/-- A call that prints completes in a state of a run. A step before has called the function; the
states since have made the line, and none of them has left the frame of the call or raised an error
directly above it. The step of the state leaves the frame, and gives the line to what is below. -/
inductive Completed (before : List State) (t : State) (inv : Invocation) (line : Bytes) : Prop
  | intro {earlier making : List State} {c u t' : State} {K : List Frame}
      (states : before = earlier ++ c :: (making ++ [u]))
      (called : c.callee? = some (.native inv.function, inv.args))
      (prints : inv.function.prints = true)
      (makes : Prints (.printing inv :: K) inv.function inv.args making line)
      (above : ∀ v ∈ making ++ [u, t], .printing inv :: K <:+ v.stack)
      (fine : ∀ v ∈ making ++ [u, t], v.stack = .printing inv :: K → v.mode.isFailing = false)
      (next : t.step = .next t') (back : t'.stack = K) (given : t'.mode = .ret [.str line])

/-- A call that is given its line appends it to the print buffer and gives it on. -/
theorem step_completed {t : State} {inv : Invocation} {K : List Frame} {line : Bytes}
    (buffered : State.bufferedText t.heap = some text) (stack : t.stack = .printing inv :: K)
    (mode : t.mode = .ret [.str line]) :
    ∃ t', t.step = .next t' ∧ t'.stack = K ∧ t'.mode = .ret [.str line] := by
  obtain ⟨heap, _, _, activations, nesting, thread⟩ := t
  cases stack
  cases mode
  refine ⟨_, rfl, stack_completeLine _ _ _, ?_⟩
  unfold State.completeLine
  dsimp only
  rw [show State.bufferedText heap = some text from buffered]
  rfl

/-- The coroutines are calm in every state of a run. -/
theorem calm_passes (calm : s.heap.Calm) {fuel : Nat} {w : World} :
    ∀ u ∈ passes tools fuel s w, u.heap.Calm := by
  have chain := chain_passes tools fuel s w
  cases fuel with
  | zero => exact List.forall_mem_nil _
  | succ fuel =>
    rw [passes] at chain ⊢
    exact calm_of_chain chain calm

/-- What completes in a run that begins with an empty stack has been called in it, and makes the
line that is printed. -/
theorem completed_of_passes (begin : s.stack = []) (calm : s.heap.Calm)
    (buffered : State.bufferedText s.heap = some text) {fuel : Nat} {w : World}
    (only : OnlyCallsPrint (passes tools fuel s w)) {before after : List State} {t : State}
    (heq : passes tools fuel s w = before ++ t :: after) {inv : Invocation} {line : Bytes}
    (printed : t.printed? = some (inv, line)) : Completed before t inv line := by
  obtain ⟨vs, K, mode, stack, rfl⟩ := State.printed?_eq_some printed
  have hpassed : passes tools fuel s w = (before ++ [t]) ++ after := by simp [heq]
  have chain := chain_passes tools fuel s w
  rw [hpassed] at chain
  have outside : ∃ u ∈ before ++ [t], ¬ .printing inv :: K <:+ u.stack := by
    have first (u : State) (hu : u ∈ (before ++ t :: after).head?) : u = s :=
      eq_of_mem_head?_passes (by rwa [heq])
    refine ⟨s, ?_, fun h => ?_⟩
    · cases before with
      | nil => simp [first t rfl]
      | cons u before => simp [first u rfl]
    · rw [begin] at h
      exact Nat.not_succ_le_zero _ h.length_le
  obtain ⟨earlier, c, first, rest, hsplit, begins, completing⟩ :=
    Completing.exists_begins chain.left_of_append
      (fun u hu => calm_passes calm u (hpassed ▸ List.mem_append_left after hu))
      List.getLast?_concat stack mode outside
  obtain ⟨making, u, line, hmaking, -, rfl, makes⟩ :=
    completing.prints begins.prints begins.stack begins.mode
  obtain ⟨t', next, back, given⟩ :=
    step_completed ((logs_passes buffered fuel w only).within before t after heq) stack mode
  rw [hmaking] at completing hsplit
  have hsplit : before ++ [t] = (earlier ++ c :: (making ++ [u])) ++ [t] := by simpa using hsplit
  have states := List.append_cancel_right hsplit
  refine .intro states begins.callee begins.prints makes completing.above ?_ next back given
  exact fun v hv hstack => Bool.eq_false_iff.2 fun failing =>
    completing.not_failing v hv (.inl ⟨hstack, failing⟩)

/-! ## From a call to its return -/

/-- States in which a call that prints is on the stack, and a state after them in which what has
called it is given values. -/
structure CallReturns (inv : Invocation) (K : List Frame) (states : List State) (v : State)
    (vs : List Value) : Prop where
  above : ∀ u ∈ states, .printing inv :: K <:+ u.stack
  caller : K ≠ []
  back : v.stack = K
  given : v.mode = .ret vs

/-- A function that prints has been called in the state of a run before some others. The call is on
the stack in the first of them. When it returns, it has completed, and it returns its line. -/
inductive Called (f : Native) (args : List Value) (u : State) (rest : List State) : Prop
  | intro {inv : Invocation} {K : List Frame} (function : inv.function = f) (args : inv.args = args)
      (stack : u.stack = .printing inv :: K)
      (completes : ∀ inside t v after vs, u :: rest = inside ++ t :: v :: after →
        CallReturns inv K (inside ++ [t]) v vs →
        ∃ line, t.printed? = some (inv, line) ∧ vs = [.str line])

/-- In a run that begins with an empty stack, what is called and returns has completed. -/
theorem called_of_passes (begin : s.stack = []) (calm : s.heap.Calm)
    (buffered : State.bufferedText s.heap = some text) {fuel : Nat} {w : World}
    (only : OnlyCallsPrint (passes tools fuel s w)) {before rest : List State} {c u : State}
    (heq : passes tools fuel s w = before ++ c :: u :: rest) {f : Native} {args : List Value}
    (callee : c.callee? = some (.native f, args)) (prints : f.prints = true) :
    Called f args u rest := by
  have chain := chain_passes tools fuel s w
  rw [heq] at chain
  obtain ⟨site, K, begins⟩ :=
    (List.isChain_append_cons_cons.1 chain).2.1.begins callee prints
  refine .intro rfl rfl begins.stack fun inside t v after vs hrest returns => ?_
  have hpasses : passes tools fuel s w = (before ++ c :: inside) ++ t :: v :: after := by
    rw [heq, hrest, List.append_assoc, List.cons_append]
  rw [hrest, ← List.cons_append, ← List.append_assoc] at chain
  have follows : Follows t v := (List.isChain_append_cons_cons.1 chain).2.1
  have hcalm : ∀ u ∈ passes tools fuel s w, u.heap.Calm := calm_passes calm
  obtain ⟨stack, ws, mode⟩ := follows.ret_of_given (hcalm t (by rw [hpasses]; simp))
    (returns.above t (by simp)) returns.back returns.given returns.caller
  have printed : t.printed? = some (⟨f, args, site⟩, Library.textBytes (ws.headD .nil)) := by
    unfold State.printed?
    rw [mode, stack]
  refine ⟨_, printed, ?_⟩
  obtain ⟨-, -, -, -, -, -, next, -, given⟩ :=
    completed_of_passes begin calm buffered only hpasses printed
  cases follows.eq_of_next next
  cases returns.given.symm.trans given
  rfl

end

end Sandbox

end ScriptAgent
