import ScriptAgent.Proofs.Script.Stores

/-!
# What a step does to the stack

A step leaves frames at the top of the stack and puts others in their place. `Restacks` says all
that it can do: it leaves no frame, the frame that is given values or left, all frames down to the
end of a function or a coroutine, or the whole stack. A call that prints is put on the stack by the
step that begins it and by no other one, and a coroutine that does not run holds none (`Heap.Calm`),
because it cannot stop in one.

The parts of a step are gone through one by one. Most put frames on the stack and leave none
(`Grows`).
-/

namespace ScriptAgent.Script

/-- Whether a frame is a call that prints. -/
def Frame.isPrinting : Frame → Bool
  | .printing _ => true
  | _ => false

/-- Whether a frame is the end of a function or of a coroutine. -/
def Frame.isEnd : Frame → Bool
  | .activation _ | .boundary .. => true
  | _ => false

/-- No call that prints is among some frames. -/
def Silent (fs : List Frame) : Prop := ∀ f ∈ fs, f.isPrinting = false

theorem silent_nil : Silent [] := List.forall_mem_nil _

theorem Silent.cons {f : Frame} {fs : List Frame} (hf : f.isPrinting = false) (h : Silent fs) :
    Silent (f :: fs) :=
  List.forall_mem_cons.2 ⟨hf, h⟩

theorem Silent.append {fs gs : List Frame} (h : Silent fs) (h' : Silent gs) : Silent (fs ++ gs) :=
  List.forall_mem_append.2 ⟨h, h'⟩

/-- No coroutine that does not run is in a call that prints. -/
def Heap.Calm (h : Heap) : Prop := ∀ t, Silent (h.thread t).stack

namespace Heap.Calm

variable {h h' : Heap}

/-- The same coroutines are as calm. -/
theorem of_threads (calm : h.Calm) (ht : h'.threads = h.threads) : h'.Calm := fun t => by
  rw [thread, ht]
  exact calm t

/-- A coroutine that is put in place of another one is as calm as itself. -/
theorem setThread (calm : h.Calm) (t : Address) {x : Thread} (hx : Silent x.stack) :
    (h.setThread t x).Calm := fun u => by
  by_cases htu : t = u
  · subst htu
    by_cases ht : t < h.threads.size
    · simpa [thread, Heap.setThread, Array.getD_eq_getD_getElem?, ht] using hx
    · simpa [thread, Heap.setThread, Array.getD_eq_getD_getElem?, ht] using calm t
  · have := calm u
    simpa [thread, Heap.setThread, Array.getD_eq_getD_getElem?, htu] using this

/-- The status of a coroutine does not matter. -/
theorem setStatus (calm : h.Calm) (t : Address) (status : ThreadStatus) :
    (State.setStatus h t status).Calm :=
  calm.setThread t (calm t)

/-- A new coroutine has not begun anything. -/
theorem newThread (calm : h.Calm) {x : Thread} (hx : Silent x.stack) : (h.newThread x).2.Calm :=
  fun u => by
    have := calm u
    by_cases hu : u < h.threads.size
    · simpa [thread, Heap.newThread, Array.getD_eq_getD_getElem?, Array.getElem?_push, hu,
        Nat.ne_of_lt hu] using this
    · by_cases hs : u = h.threads.size
      · subst hs
        simpa [thread, Heap.newThread, Array.getD_eq_getD_getElem?] using hx
      · simpa [thread, Heap.newThread, Array.getD_eq_getD_getElem?, Array.getElem?_push, hs, hu]
          using this

end Heap.Calm

/-- A state has the frames of another one below others, none of which is a call that prints, and the
same coroutines. -/
structure Grows (s s' : State) : Prop where
  stack : ∃ pushed, s'.stack = pushed ++ s.stack ∧ Silent pushed
  threads : s'.heap.threads = s.heap.threads

namespace Grows

variable {s s' s'' : State}

theorem refl (s : State) : Grows s s := ⟨⟨[], rfl, silent_nil⟩, rfl⟩

theorem trans (h : Grows s s') (h' : Grows s' s'') : Grows s s'' := by
  obtain ⟨⟨fs, hfs, silent⟩, ht⟩ := h
  obtain ⟨⟨gs, hgs, silent'⟩, ht'⟩ := h'
  exact ⟨⟨gs ++ fs, by rw [hgs, hfs, List.append_assoc], silent'.append silent⟩, ht'.trans ht⟩

/-- A state with the same stack and the same coroutines. -/
theorem of_eq (hs : s'.stack = s.stack) (ht : s'.heap.threads = s.heap.threads) : Grows s s' :=
  ⟨⟨[], hs, silent_nil⟩, ht⟩

theorem become (s : State) (m : Mode) : Grows s (s.become m) := of_eq rfl rfl

theorem give (s : State) (vs : List Value) : Grows s (s.give vs) := of_eq rfl rfl

theorem giveOne (s : State) (v : Value) : Grows s (s.giveOne v) := of_eq rfl rfl

theorem fault (s : State) (p : Place) (message : Bytes) : Grows s (s.fault p message) :=
  of_eq rfl rfl

theorem push (s : State) {f : Frame} (hf : f.isPrinting = false) (m : Mode) :
    Grows s (s.push f m) :=
  ⟨⟨[f], rfl, silent_nil.cons hf⟩, rfl⟩

theorem run (s : State) (p : Program (List Value)) : Grows s (s.run p) := by
  cases p <;> exact of_eq rfl rfl

theorem runOne (s : State) (p : Program Value) : Grows s (s.runOne p) := by
  cases p <;> exact of_eq rfl rfl

theorem runUnit (s : State) (p : Program Unit) : Grows s (s.runUnit p) := by
  cases p <;> exact of_eq rfl rfl

theorem enter (s : State) (body : List Stmt) (c : Context) : Grows s (s.enter body c) := by
  unfold State.enter
  split
  · exact push s rfl _
  · exact become s _

end Grows

theorem Heap.threads_newCells (h : Heap) (acc : List Address) (vs : List Value) :
    (h.newCells acc vs).2.threads = h.threads := by
  induction vs generalizing h acc with
  | nil => rfl
  | cons v rest ih => exact ih _ _

namespace Grows

variable (s : State)

theorem bind (c : Context) (vs : List Value) : Grows s (s.bind c vs).2 :=
  of_eq rfl (Heap.threads_newCells s.heap [] vs)

theorem newTable (t : Table) : Grows s (s.allocate (·.newTable t)).2 := of_eq rfl rfl

/-! ## Expressions -/

theorem evalList (es : List Expr) (c : Context) : Grows s (s.evalList es c) := by
  unfold State.evalList
  split
  · exact give s _
  · exact become s _
  · exact push s rfl _

theorem applyBinary (op : BinaryOp) (v w : Value) (left right : Expr) (line : Nat) (c : Context) :
    Grows s (s.applyBinary op v w left right line c) :=
  runOne s _

theorem callWith (f : Value) (self : List Value) (args : List Expr) (site : Site) (tail : Bool)
    (c : Context) : Grows s (s.callWith f self args site tail c) :=
  (push s rfl _).trans (evalList _ args c)

theorem storeWaiting (f : Filling) : Grows s (s.storeWaiting f).2 := of_eq rfl rfl

theorem storeIfMany (f : Filling) : Grows s (s.storeIfMany f).2 := by
  unfold State.storeIfMany
  split
  · exact storeWaiting s f
  · exact refl s

theorem fillFields (f : Filling) (fields : List Field) (c : Context) :
    Grows s (s.fillFields f fields c) := by
  unfold State.fillFields
  split
  · exact (storeWaiting s f).trans (giveOne _ _)
  · dsimp only
    split
    · exact (storeIfMany s f).trans (push _ rfl _)
    · exact (storeIfMany s f).trans (push _ rfl _)
  · exact (storeIfMany s f).trans (push _ rfl _)

theorem storeField (f : Filling) (key v : Value) (line : Nat) (rest : List Field) (c : Context) :
    Grows s (s.storeField f key v line rest c) := by
  unfold State.storeField
  split
  · exact (of_eq rfl rfl : Grows s (s.mapHeap _)).trans (fillFields _ f rest c)
  · exact fault s _ _

theorem eval (e : Expr) (c : Context) : Grows s (s.eval e c) := by
  cases e with
  | table fields line =>
    exact (newTable s Table.empty).trans (fillFields _ _ fields c)
  | literal l => cases l <;> exact giveOne s _
  | function body => exact of_eq rfl rfl
  | index object key line =>
    simp only [State.eval]
    split <;> exact push s rfl _
  | binary op left right line =>
    simp only [State.eval]
    split <;> exact push s rfl _
  | vararg | var => exact giveOne s _
  | single => exact become s _
  | _ => exact push s rfl _

theorem evalMany (e : Expr) (c : Context) : Grows s (s.evalMany e c) := by
  cases e with
  | call | method => exact push s rfl _
  | vararg => exact give s _
  | _ => exact become s _

/-! ## Calls -/

theorem bindParameters (closure : Closure) (args : List Value) :
    Grows s (s.bindParameters closure args).2 := by
  unfold State.bindParameters
  dsimp only
  split
  · exact ((bind s _ _).trans (newTable _ _)).trans (bind _ _ _)
  · exact bind s _ _

theorem callClosure (a : Address) (args : List Value) (site : Site) :
    Grows s (s.callClosure a args site) := by
  unfold State.callClosure
  split
  · exact fault s _ _
  · split
    · exact give s _
    · next closure _ =>
      dsimp only
      refine (bindParameters s closure args).trans (Grows.trans ?_ (enter _ _ _))
      exact ⟨⟨[.activation site], rfl, silent_nil.cons rfl⟩, rfl⟩

theorem load (chunk text : Bytes) (env : Option Value) : Grows s (s.load chunk text env) := by
  unfold State.load
  split
  · exact give s _
  · exact of_eq rfl rfl

/-! ## Statements -/

theorem guardRest (v : Value) (name : Bytes) (line : Nat) (rest : List Stmt) (c : Context)
    (m : Mode) : Grows s (s.guardRest v name line rest c m) := by
  unfold State.guardRest
  split
  · exact become s _
  · exact push s rfl _
  · exact fault s _ _

theorem declare (count : Nat) (close : Option (Nat × Bytes)) (line : Nat) (rest : List Stmt)
    (c : Context) (vs : List Value) : Grows s (s.declare count close line rest c vs) := by
  unfold State.declare
  dsimp only
  split
  · exact (bind s _ _).trans (become _ _)
  · exact (bind s _ _).trans (guardRest _ _ _ _ _ _ _)

theorem assignTargets (done : List Slot) (targets : List Target) (values : List Expr) (line : Nat)
    (c : Context) : Grows s (s.assignTargets done targets values line c) := by
  induction targets generalizing done with
  | nil => exact (push s rfl _).trans (evalList _ values c)
  | cons target rest ih =>
    cases target with
    | var d name => exact ih _
    | index object key => exact push s rfl _

theorem storeSlots (line : Nat) (c : Context) (slots : List (Slot × Value)) :
    Grows s (s.storeSlots line c slots) := by
  induction slots generalizing s with
  | nil => exact give s _
  | cons slot rest ih =>
    obtain ⟨slot, v⟩ := slot
    cases slot with
    | cell a => exact (of_eq rfl rfl : Grows s (s.mapHeap (·.setCell a v))).trans (ih _)
    | field object key name => exact (push s rfl _).trans (runUnit _ _)

theorem loopFault (p : Place) (what : String) (v : Value) : Grows s (s.loopFault p what v) :=
  runUnit s _

/-- A block in which variables have been declared under a new frame. -/
theorem enterUnder {f : Frame} (hf : f.isPrinting = false) (m : Mode) (c : Context)
    (vs : List Value) (body : List Stmt) :
    Grows s (((s.push f m).bind c vs).2.enter body ((s.push f m).bind c vs).1) :=
  ((push s hf m).trans (bind _ c vs)).trans (enter _ body _)

theorem roundInt (i : Int64) (left : Nat) (step : Int64) (body : List Stmt) (c : Context) :
    Grows s (s.roundInt i left step body c) :=
  enterUnder s (f := .forCount i left step body c) rfl s.mode c [.num (.int i)] body

theorem roundFloat (x limit step : Float) (body : List Stmt) (c : Context) :
    Grows s (s.roundFloat x limit step body c) :=
  enterUnder s (f := .forFloat x limit step body c) rfl s.mode c [.num (.float x)] body

theorem forNumeric (start limit step : Value) (body : List Stmt) (line : Nat) (c : Context) :
    Grows s (s.forNumeric start limit step body line c) := by
  unfold State.forNumeric
  dsimp only
  repeat' split
  all_goals first
    | exact fault s _ _
    | exact loopFault s _ _ _
    | exact give s _
    | exact roundInt s _ _ _ _ _
    | exact roundFloat s _ _ _ _ _

theorem nextRound (count : Nat) (f state control : Value) (body : List Stmt) (line : Nat)
    (c : Context) : Grows s (s.nextRound count f state control body line c) :=
  push s rfl _

theorem roundIn (count : Nat) (f state : Value) (vs : List Value) (body : List Stmt) (line : Nat)
    (c : Context) : Grows s (s.roundIn count f state vs body line c) := by
  unfold State.roundIn
  split
  · exact give s _
  · exact enterUnder s rfl s.mode c _ body

theorem exec (body : List Stmt) (c : Context) : Grows s (s.exec body c) := by
  cases body with
  | nil => exact give s _
  | cons stmt rest =>
    have under : Grows s (s.push (.seq rest c) s.mode) := push s rfl _
    cases stmt with
    | declare n values close line =>
      cases values with
      | nil => exact declare s n close line rest c []
      | cons v values =>
        exact (push s (f := .declare n close line rest c) rfl s.mode).trans
          (evalList _ (v :: values) c)
    | declareFunction f => exact (bind s c [.nil]).trans (of_eq rfl rfl)
    | assign targets values line => exact under.trans (assignTargets _ [] targets values line c)
    | call e => exact under.trans (become _ (.evalMany e c))
    | block body => exact under.trans (enter _ body c)
    | «repeat» body =>
      exact under.trans ((push _ (f := .repeatLoop body c) rfl s.mode).trans (enter _ body c))
    | «while» condition body =>
      exact under.trans (push _ (f := .whileTest condition body c) rfl _)
    | «if» condition yes no => exact under.trans (push _ (f := .branch yes no c) rfl _)
    | forNumeric start limit step body line =>
      exact under.trans
        ((push _ (f := .forPrepare body line c) rfl s.mode).trans
          (evalList _ [start, limit, .single step] c))
    | forIn count values body line =>
      exact under.trans
        ((push _ (f := .forInPrepare count body line c) rfl s.mode).trans (evalList _ values c))
    | «return» values tail =>
      have plain := (push s (f := .returnValues) rfl s.mode).trans (evalList _ values c)
      -- only a single call is told apart
      rcases values with _ | ⟨e, _ | _⟩ <;> cases tail
      all_goals first
        | exact plain
        | cases e <;> first
          | exact plain
          | exact push s rfl _
    | «until» condition => exact push s (f := .untilTest) rfl _
    | fault message line => exact Grows.fault s _ message
    | «break» | goto | label => exact become s _

end Grows

end ScriptAgent.Script
