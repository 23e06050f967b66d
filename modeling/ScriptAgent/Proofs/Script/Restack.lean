import ScriptAgent.Proofs.Sandbox.Answers
import ScriptAgent.Proofs.Script.Stack

/-!
# All that a step does to the stack

`State.moves_step` is the inversion lemma of the machine's step for the stack: a step restacks
(`Restacks`), and leaves no coroutine in a call that prints. Three consequences are what is used of
it. A call that prints is below the top of the stack only if it has been before, or is begun right
now (`Restacks.suffix_or_begins`). A frame directly above such a call leaves the stack before the
call does, and only by being given values or left itself (`Restacks.suffix_or_top`). And what is
below the call is given values only by the call itself (`Restacks.top_of_given`).
-/

namespace ScriptAgent.Script

/-- Whether the frame on top of the stack is what a mode is about. -/
def Mode.isLeaving : Mode → Bool
  | .ret _ | .unwind _ => true
  | _ => false

/-- Whether a mode gives values to the frame on top of the stack. -/
def Mode.isGiving : Mode → Bool
  | .ret _ => true
  | _ => false

/-- The state that a step goes on with; the call of a tool goes on with what the tool is given. -/
def Step.state? : Step → Option State
  | .next s | .tool _ _ s => some s
  | .done .. | .failed .. => none

/-- What a step does to the stack. -/
inductive Restacks (s s' : State) : Prop
  /-- No frame is left. -/
  | kept (pushed : List Frame) (after : s'.stack = pushed ++ s.stack) (silent : Silent pushed)
  /-- The frame on top is given values or left. -/
  | top (f : Frame) (base pushed : List Frame) (leaving : s.mode.isLeaving = true)
      (before : s.stack = f :: base) (after : s'.stack = pushed ++ base) (silent : Silent pushed)
  /-- A function or a coroutine is left as a whole. Either what is below it is given values, or
  another function takes its place. -/
  | region (fs : List Frame) (f : Frame) (base pushed : List Frame) (isEnd : f.isEnd = true)
      (before : s.stack = fs ++ f :: base) (after : s'.stack = pushed ++ base)
      (silent : Silent pushed) (given : pushed = [] ∨ s'.mode.isGiving = false)
  | all (silent : Silent s'.stack) (given : s'.stack = [] ∨ s'.mode.isGiving = false)
  /-- A call that prints is begun, by a call or by a frame that has waited for the arguments. -/
  | called (inv : Invocation) (base pushed : List Frame)
      (callee : s.callee? = some (.native inv.function, inv.args))
      (prints : inv.function.prints = true)
      (before : s.stack = base ∨ s.mode.isLeaving = true ∧ ∃ f, s.stack = f :: base)
      (after : s'.stack = .printing inv :: (pushed ++ base)) (silent : Silent pushed)
      (mode : s'.mode = .native (inv.function.run inv.args inv.site) (some inv.site))

/-- A step restacks, and leaves no coroutine in a call that prints. -/
structure Moves (s s' : State) : Prop where
  restacks : Restacks s s'
  calm : s'.heap.Calm

section
variable {s s' s₀ : State}

/-- A state that grows moves. -/
theorem Grows.moves (h : Grows s s') (calm : s.heap.Calm) : Moves s s' := by
  obtain ⟨⟨pushed, hstack, silent⟩, ht⟩ := h
  exact ⟨.kept pushed hstack silent, calm.of_threads ht⟩

/-- What grows once other frames have taken the place of the one on top moves. -/
theorem Grows.moves_top (h : Grows s₀ s') (calm : s₀.heap.Calm) (fs : List Frame) {f : Frame}
    {base : List Frame} (leaving : s.mode.isLeaving = true) (before : s.stack = f :: base)
    (stack : s₀.stack = fs ++ base) (silent : Silent fs) : Moves s s' := by
  obtain ⟨⟨pushed, hstack, hpushed⟩, ht⟩ := h
  refine ⟨.top f base (pushed ++ fs) leaving before ?_ (hpushed.append silent), calm.of_threads ht⟩
  rw [hstack, stack, List.append_assoc]

/-! ## Calls -/

/-- A call of a library function that prints is begun. -/
def CallPrints (s : State) (f : Value) (args : List Value) (site : Site) (s' : State) : Prop :=
  ∃ n args', (State.resolveCall s.heap f args State.maxCallChain).toOption =
      some (.native n, args') ∧ n.prints = true ∧
    s' = s.push (.printing ⟨n, args', site⟩) (.native (n.run args' site) (some site))

theorem Grows.callNative {inv : Invocation} (h : inv.function.prints = false) :
    Grows s (s.callNative inv) := by
  rw [State.callNative, h]
  exact .become s _

/-- A call puts frames on the stack, and a call that prints itself. -/
theorem call_cases {f : Value} {args : List Value} {site : Site}
    (h : (s.call f args site).state? = some s') : Grows s s' ∨ CallPrints s f args site s' := by
  unfold State.call at h
  split at h
  case h_2 v _ =>
    cases h
    exact .inl (.runUnit s _)
  case h_3 a args' _ =>
    cases h
    exact .inl (.callClosure s a args' site)
  case h_4 n args' hresolve =>
    cases h
    cases hprints : n.prints with
    | false => exact .inl (.callNative hprints)
    | true =>
      refine .inr ⟨n, args', by rw [hresolve]; rfl, hprints, ?_⟩
      simp only [State.callNative, hprints, if_true]
  all_goals
    cases h
    exact .inl (.of_eq rfl rfl)

/-- The function that runs is left as a whole, or the whole stack. -/
theorem dropActivation_cases (fs : List Frame) :
    (∃ gs f, f.isEnd = true ∧ fs = gs ++ f :: (State.dropActivation fs).1) ∨
      (State.dropActivation fs).1 = [] := by
  induction fs with
  | nil => exact .inr rfl
  | cons g rest ih =>
    cases g with
    | activation site => exact .inl ⟨[], _, rfl, rfl⟩
    | _ =>
      obtain ⟨gs, f, isEnd, hrest⟩ | hnil := ih
      · exact .inl ⟨_ :: gs, f, isEnd, congrArg (List.cons _) hrest⟩
      · exact .inr hnil

/-- What grows once the function that runs has been left below the frame on top moves. -/
theorem Grows.moves_dropActivation (h : Grows s₀ s') (calm : s₀.heap.Calm) {f : Frame}
    {base : List Frame} (before : s.stack = f :: base)
    (stack : s₀.stack = (State.dropActivation base).1)
    (given : s'.stack = s₀.stack ∨ s'.mode.isGiving = false) : Moves s s' := by
  obtain ⟨⟨pushed, hstack, silent⟩, ht⟩ := h
  refine ⟨?_, calm.of_threads ht⟩
  have given := given.imp_left fun same => List.append_left_eq_self.1 (hstack ▸ same)
  obtain ⟨gs, g, isEnd, hbase⟩ | hnil := dropActivation_cases base
  · refine .region (f :: gs) g _ pushed isEnd ?_ hstack silent given
    rw [before, stack, List.cons_append, ← hbase]
  · rw [stack, hnil, List.append_nil] at hstack
    rw [← hstack] at silent given
    exact .all silent given

/-- A call that prints, begun once other frames have taken the place of the one on top, moves. -/
theorem CallPrints.moves_top {f : Value} {args : List Value} {site : Site}
    (h : CallPrints s₀ f args site s') (calm : s₀.heap.Calm) (fs : List Frame) {g : Frame}
    {base : List Frame} (leaving : s.mode.isLeaving = true) (before : s.stack = g :: base)
    (stack : s₀.stack = fs ++ base) (silent : Silent fs)
    (callee : s.callee? = (State.resolveCall s₀.heap f args State.maxCallChain).toOption) :
    Moves s s' := by
  obtain ⟨n, args', hresolve, prints, rfl⟩ := h
  refine ⟨.called ⟨n, args', site⟩ base fs (callee.trans hresolve) prints
    (.inr ⟨leaving, g, before⟩) ?_ silent rfl, calm⟩
  rw [← stack]
  rfl

/-- A function of a script that is called gives no values before its body has been run. -/
theorem callClosure_given (s : State) (a : Address) (args : List Value) (site : Site) :
    (s.callClosure a args site).stack = s.stack ∨
      (s.callClosure a args site).mode.isGiving = false := by
  unfold State.callClosure
  split
  · exact .inl rfl
  · split
    · exact .inl rfl
    · refine .inr ?_
      unfold State.enter
      dsimp only
      split <;> rfl

/-- A call in place of the running function leaves it and puts frames on the stack, or is a call. -/
theorem tailCall_cases {f : Value} {args : List Value} {site : Site}
    (h : (s.tailCall f args site).state? = some s') :
    (∃ s₀, Grows s₀ s' ∧ s₀.heap = s.heap ∧ s₀.stack = (State.dropActivation s.stack).1 ∧
        (s'.stack = s₀.stack ∨ s'.mode.isGiving = false)) ∨
      (s.push .returnValues s.mode |>.call f args site).state? = some s' := by
  unfold State.tailCall at h
  split at h
  · cases h
    exact .inl ⟨_, .callClosure _ _ _ _, rfl, rfl, callClosure_given _ _ _ _⟩
  · exact .inr h

/-! ## Coroutines -/

/-- The stack is split at the first boundary, and a coroutine that may stop is in no call that
prints. -/
theorem splitBoundary_cases (acc fs : List Frame) :
    (∃ gs t outer base, State.splitBoundary acc fs = (acc.reverse ++ gs, some (t, outer), base) ∧
      fs = gs ++ .boundary t outer :: base ∧ (State.yieldBlocked fs = false → Silent gs)) ∨
      ∃ gs, State.splitBoundary acc fs = (gs, none, []) := by
  induction fs generalizing acc with
  | nil => exact .inr ⟨_, rfl⟩
  | cons g rest ih =>
    by_cases hg : ∃ t outer, g = .boundary t outer
    · obtain ⟨t, outer, rfl⟩ := hg
      exact .inl ⟨[], t, outer, rest, by simp [State.splitBoundary], rfl, fun _ => silent_nil⟩
    · have hne : ∀ t outer, g = .boundary t outer → False := fun t outer h => hg ⟨t, outer, h⟩
      rw [State.splitBoundary.eq_3 _ _ _ hne, State.yieldBlocked.eq_3 _ _ hne]
      obtain ⟨gs, t, outer, base, hsplit, rfl, silent⟩ | hnone := ih (g :: acc)
      · refine .inl ⟨g :: gs, t, outer, base, by simpa using hsplit, rfl, fun free => ?_⟩
        rw [Bool.or_eq_false_iff] at free
        refine (silent free.2).cons ?_
        cases g with
        | printing => cases free.1
        | _ => rfl
      · exact .inr hnone

/-- What is left of a coroutine keeps nothing of a call that prints. -/
theorem Silent.filter_isClosing (fs : List Frame) : Silent (fs.filter State.isClosing) := by
  intro f hf
  have := List.of_mem_filter hf
  cases f with
  | printing => cases this
  | _ => rfl

/-- A coroutine is left as a whole, or the whole stack. -/
theorem leaveThread_moves {s₁ : State} {keep : List Frame → Thread} {vs : List Value}
    (before : s₁.stack = s.stack) (calm : s₁.heap.Calm)
    (silent : ∀ gs, (State.yieldBlocked s.stack = false → Silent gs) → Silent (keep gs).stack) :
    Moves s (s₁.leaveThread keep vs) := by
  obtain ⟨heap, stack, mode, activations, nesting, thread⟩ := s₁
  dsimp only at before
  rw [← before] at silent
  obtain ⟨gs, t, outer, base, hsplit, rfl, free⟩ | ⟨gs, hsplit⟩ := splitBoundary_cases [] stack
  · have hleave : State.leaveThread ⟨heap, gs ++ .boundary t outer :: base, mode, activations,
        nesting, thread⟩ keep vs =
        ⟨State.setStatus (heap.setThread t (keep gs)) outer .running, base, .ret vs,
          activations - (State.weight gs).1, nesting - (State.weight gs).2 - 1, outer⟩ := by
      unfold State.leaveThread
      simp only [hsplit]
      rfl
    rw [hleave]
    exact ⟨.region gs _ base [] rfl before.symm rfl silent_nil (.inl rfl),
      (calm.setThread t (silent gs free)).setStatus outer .running⟩
  · have hleave : State.leaveThread ⟨heap, stack, mode, activations, nesting, thread⟩ keep vs =
        ⟨heap, [], .ret vs, 0, 0, 0⟩ := by
      unfold State.leaveThread
      simp only [hsplit]
    rw [hleave]
    exact ⟨.all silent_nil (.inl rfl), calm⟩

/-- A frame that has been put on the stack right before makes no difference, unless it is the end of
a function. -/
theorem Restacks.of_cons {s₁ : State} (h : Restacks s₁ s') {f : Frame}
    (before : s₁.stack = f :: s.stack) (hf : f.isEnd = false) (silent : f.isPrinting = false)
    (working : s₁.mode.isLeaving = false) (quiet : s₁.callee? = none) : Restacks s s' := by
  cases h with
  | kept pushed after hpushed =>
    refine .kept (pushed ++ [f]) ?_ (hpushed.append (silent_nil.cons silent))
    rw [after, before, List.append_assoc]
    rfl
  | top _ _ _ leaving =>
    rw [working] at leaving
    cases leaving
  | region fs g base pushed isEnd hbefore after hpushed given =>
    rw [before] at hbefore
    cases fs with
    | nil =>
      cases hbefore
      rw [hf] at isEnd
      cases isEnd
    | cons f' fs =>
      obtain ⟨rfl, hstack⟩ := List.cons_eq_cons.1 hbefore
      exact .region fs g base pushed isEnd hstack after hpushed given
  | all h given => exact .all h given
  | called inv base pushed callee =>
    rw [quiet] at callee
    cases callee

/-- A coroutine is put on the stack, with what it has kept of its own. -/
theorem enterThread_moves {s₁ : State} {t : Address} {fs : List Frame} {m : Mode}
    (before : s₁.stack = s.stack) (calm : s₁.heap.Calm) (silent : Silent fs) :
    Moves s (s₁.enterThread t fs m) := by
  obtain ⟨heap, stack, mode, activations, nesting, thread⟩ := s₁
  cases before
  refine ⟨.kept (fs ++ [.boundary t thread]) ?_ (silent.append (silent_nil.cons rfl)),
    (calm.setStatus thread .normal).setStatus t .running⟩
  rw [List.append_assoc]
  rfl

theorem resume_moves (calm : s.heap.Calm) (t : Address) (args : List Value) :
    Moves s (s.resume t args) := by
  unfold State.resume
  dsimp only
  split
  · exact (Grows.give s _).moves calm
  · split
    · exact (Grows.give s _).moves calm
    · split
      · exact enterThread_moves rfl (calm.setThread t (calm t)) silent_nil
      · exact enterThread_moves rfl (calm.setThread t silent_nil) (calm t)
  · exact (Grows.give s _).moves calm

theorem yield_moves (calm : s.heap.Calm) (vs : List Value) : Moves s (s.yield vs) := by
  unfold State.yield
  split
  · exact (Grows.become s _).moves calm
  · split
    · exact (Grows.become s _).moves calm
    · next free => exact leaveThread_moves rfl calm fun gs silent => silent (by simpa using free)

theorem closeThread_moves (calm : s.heap.Calm) (t : Address) : Moves s (s.closeThread t) := by
  unfold State.closeThread
  have closed : (s.heap.setThread t ⟨.dead, none, [], none⟩).Calm := calm.setThread t silent_nil
  split
  · exact (Grows.become s _).moves calm
  · dsimp only
    split
    · exact enterThread_moves rfl closed (calm t)
    · exact ⟨.kept [] rfl silent_nil, closed⟩

/-! ## Questions -/

/-- A question about the heap is answered without anything happening to coroutines. -/
theorem Heap.Calm.reply {h : Heap} (calm : h.Calm) (q : Query) : (h.reply q).2.Calm := by
  cases q with
  | newThread f => exact calm.newThread silent_nil
  | next t key =>
    simp only [Heap.reply]
    split <;> exact calm
  | _ => exact calm.of_threads rfl

/-- A question about the heap is answered at once. -/
theorem answer_of_heap (s : State) {q : Query} (h : q.isAboutHeap = true)
    (k : List Value → Program (List Value)) (site : Option Site) :
    s.answer q k site =
      { s with heap := (s.heap.reply q).2, mode := .native (k (s.heap.reply q).1) site } := by
  simp only [State.answer, h, if_true]

/-- A program that waits for an answer is a frame above which the answer is found. -/
theorem Moves.of_waiting {s₁ : State} {k : List Value → Program (List Value)} {site : Option Site}
    {p : Program (List Value)} {site' : Option Site} (h : Moves s₁ s')
    (before : s₁.stack = .native k site :: s.stack) (mode : s₁.mode = .native p site') :
    Moves s s' := by
  refine ⟨h.restacks.of_cons before rfl rfl ?_ ?_, h.calm⟩
  · rw [mode]
    rfl
  · unfold State.callee?
    rw [mode]

/-- A question of a program is answered, or what answers it is begun. -/
theorem answer_moves (calm : s.heap.Calm) {q : Query} {k : List Value → Program (List Value)}
    {site : Option Site} {p : Program (List Value)} (mode : s.mode = .native p site) :
    Moves s (s.answer q k site) := by
  by_cases about : q.isAboutHeap = true
  · rw [answer_of_heap s about]
    exact ⟨.kept [] rfl silent_nil, calm.reply q⟩
  obtain ⟨heap, stack, m, activations, nesting, thread⟩ := s
  cases mode
  have calm' (site' : Option Site) : (⟨heap, .native k site' :: stack, .native p site, activations,
      nesting + 1, thread⟩ : State).heap.Calm := calm
  cases q with
  | call f args callee =>
    simp only [State.answer, Query.isAboutHeap, Bool.false_eq_true, if_false]
    split
    · exact (Grows.fault _ _ _).moves calm
    · exact ⟨.kept [.native k site] rfl (silent_nil.cons rfl), calm⟩
  | protect f args handler =>
    simp only [State.answer, Query.isAboutHeap, Bool.false_eq_true, if_false]
    split
    · exact (Grows.fault _ _ _).moves calm
    · exact ⟨.kept [.guarded handler site, .native k none] rfl
        ((silent_nil.cons rfl).cons rfl), calm⟩
  | resume t args => exact (resume_moves (calm' site) t args).of_waiting rfl rfl
  | yield vs => exact (yield_moves (calm' none) vs).of_waiting rfl rfl
  | closeThread t => exact (closeThread_moves (calm' site) t).of_waiting rfl rfl
  | load chunk text env =>
    have hload := (Grows.load ⟨heap, .native k none :: stack, .native p site, activations,
      nesting + 1, thread⟩ (chunkDisplay chunk) text env).moves calm
    exact hload.of_waiting rfl rfl
  | position level =>
    simp only [State.answer, Query.isAboutHeap, Bool.false_eq_true, if_false]
    split <;> exact ⟨.kept [] rfl silent_nil, calm⟩
  | running => exact ⟨.kept [] rfl silent_nil, calm⟩
  | _ => exact absurd rfl about

/-! ## Frames that are left -/

theorem Grows.completeLine (s : State) (inv : Invocation) (v : Value) :
    Grows s (s.completeLine inv v) := by
  unfold State.completeLine
  dsimp only
  split
  · exact .of_eq rfl rfl
  · exact become s _

/-- A frame that waits for the arguments of a call begins it. -/
theorem apply_moves {f : Value} {self : List Value} {site : Site} {tail : Bool} {vs : List Value}
    {base : List Frame} (calm : s₀.heap.Calm) (heap : s₀.heap = s.heap) (hbase : s₀.stack = base)
    (before : s.stack = .apply f self site tail :: base) (mode : s.mode = .ret vs)
    (h : (s₀.receive (.apply f self site tail) vs).state? = some s') : Moves s s' := by
  have leaving : s.mode.isLeaving = true := by
    rw [mode]
    rfl
  have callee : s.callee? =
      (State.resolveCall s₀.heap f (self ++ vs) State.maxCallChain).toOption := by
    unfold State.callee?
    rw [mode, before, heap]
  cases tail with
  | false =>
    obtain grows | prints := call_cases (s := s₀) h
    · exact grows.moves_top calm [] leaving before hbase silent_nil
    · exact prints.moves_top calm [] leaving before hbase silent_nil callee
  | true =>
    obtain ⟨s₁, grows, hheap, hstack, given⟩ | h := tailCall_cases (s := s₀) h
    · exact grows.moves_dropActivation (hheap ▸ calm) before (hbase ▸ hstack) given
    · have hpush : (s₀.push .returnValues s₀.mode).stack = [.returnValues] ++ base := by
        rw [← hbase]
        rfl
      have silent : Silent [.returnValues] := silent_nil.cons rfl
      obtain grows | prints := call_cases h
      · exact grows.moves_top calm [.returnValues] leaving before hpush silent
      · exact prints.moves_top calm [.returnValues] leaving before hpush silent callee

/-- A frame other than a call and the end of a coroutine puts frames on the stack that has been
left. -/
theorem Grows.receive {f : Frame} {vs : List Value} (hf : f.isEnd = false)
    (happly : ∀ g self site tail, f ≠ .apply g self site tail)
    (h : (s.receive f vs).state? = some s') : Grows s s' := by
  cases f with
  | apply g self site tail => exact absurd rfl (happly g self site tail)
  | activation | boundary => cases hf
  | keepFirst | labels | repeatLoop | guarded | deliver =>
    cases h
    exact .give s _
  | seq | untilTest | returnValues | native | handling | resumeUnwind =>
    cases h
    exact .become s _
  | binaryRight | indexKey | fieldKey | targetObject | whileLoop | forInLoop | closing =>
    cases h
    exact .push s rfl _
  | unaryApply | indexApply | binaryApply =>
    cases h
    exact .runOne s _
  | binaryLocal _ left | indexLocal left =>
    cases left <;> (cases h; exact .runOne s _)
  | andRight | orRight =>
    cases h
    split
    · exact .become s _
    · exact .become s _
  | callee =>
    cases h
    exact .callWith s _ _ _ _ _ _
  | receiver m tail c =>
    cases m
    case method =>
      cases h
      exact (push s (f := .method _ _ tail c) rfl s.mode).trans (.runOne _ _)
    all_goals
      cases h
      exact .give s _
  | method _ m =>
    cases m
    case method =>
      cases h
      exact .callWith s _ _ _ _ _ _
    all_goals
      cases h
      exact .give s _
  | collect done rest c =>
    rcases rest with _ | ⟨e, _ | _⟩
    · cases h
      exact .give s _
    · cases h
      exact .push s rfl _
    · cases h
      exact .push s rfl _
  | fieldValue =>
    cases h
    exact .storeField s _ _ _ _ _ _
  | fieldItem =>
    cases h
    exact .fillFields s _ _ _
  | fieldItems =>
    cases h
    exact (storeWaiting s _).trans (.giveOne _ _)
  | declare =>
    cases h
    exact .declare s _ _ _ _ _ _
  | targetKey =>
    cases h
    exact .assignTargets s _ _ _ _ _
  | assign | store =>
    cases h
    exact .storeSlots s _ _ _
  | branch =>
    cases h
    exact .enter s _ _
  | whileTest condition body c =>
    cases h
    split
    · exact (push s (f := .whileLoop condition body c) rfl s.mode).trans (.enter _ _ _)
    · exact .give s _
  | forPrepare =>
    cases h
    exact .forNumeric s _ _ _ _ _ _
  | forCount i left step body c =>
    cases left with
    | zero =>
      cases h
      exact .give s _
    | succ left =>
      cases h
      exact .roundInt s _ _ _ _ _
  | forFloat =>
    cases h
    split
    · exact .roundFloat s _ _ _ _ _
    · exact .give s _
  | forInPrepare =>
    cases h
    split
    · exact .nextRound s _ _ _ _ _ _ _
    · exact (push s (f := .closing _ [] _) rfl s.mode).trans (.nextRound _ _ _ _ _ _ _ _)
    · exact .guardRest s _ _ _ _ _ _
  | forInResults =>
    cases h
    exact .roundIn s _ _ _ _ _ _ _
  | printing inv =>
    cases h
    exact .completeLine s inv _

/-- The frame on top of the stack is given values. -/
theorem receive_moves {f : Frame} {base : List Frame} {vs : List Value} (calm : s₀.heap.Calm)
    (heap : s₀.heap = s.heap) (hbase : s₀.stack = base) (before : s.stack = f :: base)
    (mode : s.mode = .ret vs) (h : (s₀.receive f vs).state? = some s') : Moves s s' := by
  have leaving : s.mode.isLeaving = true := by
    rw [mode]
    rfl
  cases f with
  | apply => exact apply_moves calm heap hbase before mode h
  | activation site =>
    cases h
    exact ⟨.region [] _ base [] rfl before hbase silent_nil (.inl rfl), calm⟩
  | boundary t outer =>
    cases h
    exact leaveThread_moves (by rw [before, ← hbase]; rfl) calm fun _ _ => silent_nil
  | _ =>
    exact (Grows.receive rfl (fun _ _ _ _ hf => by cases hf) h).moves_top calm [] leaving before
      hbase silent_nil

/-! ## Errors -/

theorem Grows.runHandler (s : State) (h e : Value) : Grows s (s.runHandler h e) := by
  unfold State.runHandler
  dsimp only
  split
  · exact .of_eq rfl rfl
  · exact ⟨⟨[.handling], rfl, silent_nil.cons rfl⟩, rfl⟩

theorem raise_moves (calm : s.heap.Calm) (e : Value) : Moves s (s.raise e) := by
  unfold State.raise
  split
  · exact (Grows.runHandler s _ e).moves calm
  · exact (Grows.runHandler s _ e).moves calm
  · exact leaveThread_moves rfl calm fun gs _ => .filter_isClosing gs
  · exact (Grows.become s _).moves calm
  · exact (Grows.become s _).moves calm

/-- The frame on top of the stack is left, or the whole coroutine at its boundary. -/
theorem unwind_moves {u : Unwind} (calm : s.heap.Calm) (mode : s.mode = .unwind u)
    (h : (s.unwind u).state? = some s') : Moves s s' := by
  obtain ⟨heap, stack, m, activations, nesting, thread⟩ := s
  cases mode
  cases stack with
  | nil => cases u <;> cases h
  | cons f base =>
    unfold State.unwind at h
    dsimp only at h
    split at h
    all_goals try split at h
    all_goals cases h
    all_goals first
      | exact ⟨.top _ base [] rfl rfl rfl silent_nil, calm⟩
      | exact ⟨.top _ base [.resumeUnwind _] rfl rfl rfl (silent_nil.cons rfl), calm⟩
      | exact leaveThread_moves rfl calm fun _ _ => silent_nil
      | exact (Grows.enter _ _ _).moves calm
      | exact (Grows.become _ _).moves calm

/-! ## Steps -/

/-- A call puts frames on the stack, and a call that prints itself. -/
theorem call_moves {f : Value} {args : List Value} {site : Site} (calm : s.heap.Calm)
    (mode : s.mode = .call f args site) (h : (s.call f args site).state? = some s') :
    Moves s s' := by
  obtain hg | ⟨n, args', hresolve, prints, rfl⟩ := call_cases h
  · exact hg.moves calm
  · refine ⟨.called ⟨n, args', site⟩ s.stack [] ?_ prints (.inl rfl) rfl silent_nil rfl, calm⟩
    unfold State.callee?
    rw [mode]
    exact hresolve

end

/-- All that a step does to the stack. -/
theorem State.moves_step {s s' : State} (calm : s.heap.Calm) (h : s.step.state? = some s') :
    Moves s s' := by
  obtain ⟨heap, stack, mode, activations, nesting, thread⟩ := s
  cases mode with
  | eval e c =>
    cases h
    exact (Grows.eval _ e c).moves calm
  | evalMany e c =>
    cases h
    exact (Grows.evalMany _ e c).moves calm
  | exec body c =>
    cases h
    exact (Grows.exec _ body c).moves calm
  | call f args site => exact call_moves calm rfl h
  | native p site =>
    cases p with
    | done vs =>
      cases h
      exact (Grows.give _ vs).moves calm
    | raise e =>
      cases h
      exact (Grows.become _ _).moves calm
    | ask q k =>
      cases h
      exact answer_moves calm rfl
  | ret vs =>
    cases stack with
    | nil => cases h
    | cons f base =>
      exact @receive_moves _ _ ⟨heap, base, _, _, _, thread⟩ _ _ _ calm rfl rfl rfl rfl h
  | raise e =>
    cases h
    exact raise_moves calm e
  | unwind u => exact unwind_moves calm rfl h

/-! ## Calls of tools -/

/-- Until a tool has answered, a call of it has given no values. -/
theorem call_tool {s s' : State} {f : Value} {args args' : List Value} {site : Site} {wrapper : Nat}
    (h : s.call f args site = .tool wrapper args' s') : s'.mode = .ret [] := by
  unfold State.call at h
  split at h
  case h_7 =>
    cases h
    rfl
  all_goals cases h

theorem receive_tool {s s' : State} {f : Frame} {vs args : List Value} {wrapper : Nat}
    (h : s.receive f vs = .tool wrapper args s') : s'.mode = .ret [] := by
  cases f with
  | apply f self site tail =>
    cases tail with
    | false => exact call_tool (s := s) h
    | true =>
      have h : s.tailCall f (self ++ vs) site = .tool wrapper args s' := h
      unfold State.tailCall at h
      split at h
      · cases h
      · exact call_tool h
  | binaryLocal _ left | indexLocal left => cases left <;> cases h
  | receiver m | method _ m => cases m <;> cases h
  | collect _ rest => rcases rest with _ | ⟨_, _ | _⟩ <;> cases h
  | forCount _ left => cases left <;> cases h
  | _ => cases h

theorem State.step_tool {s s' : State} {args : List Value} {wrapper : Nat}
    (h : s.step = .tool wrapper args s') : s'.mode = .ret [] := by
  obtain ⟨heap, stack, mode, activations, nesting, thread⟩ := s
  cases mode with
  | call => exact call_tool h
  | native p => cases p <;> cases h
  | ret vs =>
    cases stack with
    | nil => cases h
    | cons f base => exact receive_tool h
  | unwind u =>
    have h : State.unwind _ u = .tool wrapper args s' := h
    unfold State.unwind at h
    split at h
    all_goals try split at h
    all_goals try split at h
    all_goals cases h
  | _ => cases h

/-! ## What is below the top of the stack -/

section
variable {s s' : State} {inv : Invocation} {K : List Frame}

/-- A call that prints is not among frames that are silent, so it is below them. -/
theorem Silent.suffix_of_append {fs base : List Frame} (silent : Silent fs)
    (h : .printing inv :: K <:+ fs ++ base) : .printing inv :: K <:+ base := by
  induction fs with
  | nil => exact h
  | cons f fs ih =>
    obtain ⟨hf, hfs⟩ := List.forall_mem_cons.1 silent
    rw [List.cons_append, List.suffix_cons_iff] at h
    obtain h | h := h
    · cases h
      cases hf
    · exact ih hfs h

theorem Silent.not_suffix {fs : List Frame} (silent : Silent fs) :
    ¬ .printing inv :: K <:+ fs := fun h => by
  have := silent _ (h.mem List.mem_cons_self)
  cases this

/-- The beginning of a call that prints: the step calls the function, and its program is what is
left to do above the frame of the call. -/
structure Begins (s s' : State) (inv : Invocation) (K : List Frame) : Prop where
  callee : s.callee? = some (.native inv.function, inv.args)
  prints : inv.function.prints = true
  stack : s'.stack = .printing inv :: K
  mode : s'.mode = .native (inv.function.run inv.args inv.site) (some inv.site)

/-- A call that prints has been on the stack before, or is begun by the step. -/
theorem Restacks.suffix_or_begins (h : Restacks s s') (hK : .printing inv :: K <:+ s'.stack) :
    .printing inv :: K <:+ s.stack ∨ Begins s s' inv K := by
  cases h with
  | kept pushed after silent =>
    rw [after] at hK
    exact .inl (silent.suffix_of_append hK)
  | top f base pushed _ before after silent =>
    rw [after] at hK
    rw [before]
    exact .inl ((silent.suffix_of_append hK).trans (List.suffix_cons f base))
  | region fs f base pushed _ before after silent =>
    rw [after] at hK
    rw [before]
    exact .inl ((silent.suffix_of_append hK).trans
      ((List.suffix_cons f base).trans (List.suffix_append fs _)))
  | all silent => exact absurd hK silent.not_suffix
  | called inv' base pushed callee prints before after silent mode =>
    have hbase : base <:+ s.stack := by
      obtain hs | ⟨-, f, hs⟩ := before
      · exact hs ▸ List.suffix_rfl
      · exact hs ▸ List.suffix_cons f base
    rw [after, List.suffix_cons_iff] at hK
    obtain hK | hK := hK
    · cases hK
      exact .inr ⟨callee, prints, after, mode⟩
    · exact .inl ((silent.suffix_of_append hK).trans hbase)

/-- A frame directly above a call that prints stays, unless it is on top and is given values or
left. -/
theorem Restacks.suffix_or_top (h : Restacks s s') {G : Frame} (hG : G.isEnd = false)
    (before : G :: .printing inv :: K <:+ s.stack) (after : .printing inv :: K <:+ s'.stack) :
    G :: .printing inv :: K <:+ s'.stack ∨
      s.stack = G :: .printing inv :: K ∧ s.mode.isLeaving = true := by
  have top {f : Frame} {base fs : List Frame} (hs : s.stack = f :: base)
      (hs' : s'.stack = fs ++ base) (leaving : s.mode.isLeaving = true) :
      G :: .printing inv :: K <:+ s'.stack ∨
        s.stack = G :: .printing inv :: K ∧ s.mode.isLeaving = true := by
    rw [hs, List.suffix_cons_iff] at before
    obtain hG | hbase := before
    · exact .inr ⟨by rw [hs, hG], leaving⟩
    · rw [hs']
      exact .inl (hbase.trans (List.suffix_append fs base))
  cases h with
  | kept pushed hs' =>
    rw [hs']
    exact .inl (before.trans (List.suffix_append pushed _))
  | top f base pushed leaving hs hs' => exact top hs hs' leaving
  | region fs f base pushed isEnd hs hs' silent =>
    rw [hs'] at after ⊢
    -- The end of the function is above the call that prints, and not the frame itself.
    have hlen := (silent.suffix_of_append after).length_le
    rw [hs] at before
    obtain hle | hle := List.suffix_or_suffix_of_suffix before (List.suffix_append fs (f :: base))
    · rw [List.suffix_cons_iff] at hle
      obtain hGf | hbase := hle
      · cases hGf
        rw [hG] at isEnd
        cases isEnd
      · exact .inl (hbase.trans (List.suffix_append pushed base))
    · have heq := hle.eq_of_length_le (by simpa using hlen)
      cases heq
      rw [hG] at isEnd
      cases isEnd
  | all silent => exact absurd after silent.not_suffix
  | called inv' base pushed callee prints hs hs' =>
    obtain hs | ⟨leaving, f, hs⟩ := hs
    · rw [hs', ← hs, ← List.cons_append]
      exact .inl (before.trans (List.suffix_append _ _))
    · exact top hs (by rw [hs']; exact (List.cons_append ..).symm) leaving

/-- If what is below a call that prints is given values, the call has been on top and given values
or left. -/
theorem Restacks.top_of_given (h : Restacks s s') (before : .printing inv :: K <:+ s.stack)
    (after : s'.stack = K) (given : s'.mode.isGiving = true) (caller : K ≠ []) :
    s.stack = .printing inv :: K ∧ s.mode.isLeaving = true := by
  have longer {fs base : List Frame} (hbase : .printing inv :: K <:+ base) : fs ++ base ≠ K := by
    intro heq
    have hle := hbase.length_le
    have hlen := congrArg List.length heq
    rw [List.length_append] at hlen
    rw [List.length_cons] at hle
    omega
  cases h with
  | kept pushed hs' => exact absurd (hs'.symm.trans after) (longer before)
  | top f base pushed leaving hs hs' =>
    rw [hs, List.suffix_cons_iff] at before
    obtain heq | hbase := before
    · exact ⟨hs.trans heq.symm, leaving⟩
    · exact absurd (hs'.symm.trans after) (longer hbase)
  | region fs f base pushed isEnd hs hs' silent none =>
    rw [given] at none
    obtain rfl | none := none
    · obtain rfl : base = K := hs'.symm.trans after
      rw [hs] at before
      have heq := (List.suffix_of_suffix_length_le before (List.suffix_append fs (f :: base))
        Nat.le.refl).eq_of_length rfl
      cases heq
      cases isEnd
    · cases none
  | all silent none =>
    rw [given] at none
    obtain none | none := none
    · exact absurd (after.symm.trans none) caller
    · cases none
  | called inv' base pushed callee prints hs hs' silent mode =>
    rw [mode] at given
    cases given

end

end ScriptAgent.Script
