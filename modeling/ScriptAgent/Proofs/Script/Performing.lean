import Mathlib.Data.List.Chain
import ScriptAgent.Proofs.Script.Restack

/-!
# What happens while a program is performed

A call that prints makes its line by a program, which stands above the frame of the call and asks
the machine: for what is in the heap, and for calls. Any code may run in these calls, and print, but
until the call completes nothing is done at its own place other than the program: the states in
between go through the program question by question (`Completing.performs`), each with the answer
that the machine has given. `Performs` says what states do that.

An error that the program does not survive is not caught above the frame, so a call that completes
has had none (`Completing.not_failing`). And what is below the frame is given values only when the
frame is (`Follows.ret_of_given`), so a call that returns completes.
-/

namespace ScriptAgent.Script

/-! ## States that follow each other -/

/-- A state of a run is followed by another one: the one that its step leads to, or, where a tool is
called, one with the stack and the coroutines that the call leaves. -/
inductive Follows (s s' : State) : Prop
  | next (step : s.step = .next s')
  | tool {wrapper : Nat} {args : List Value} {s₁ : State} (step : s.step = .tool wrapper args s₁)
      (stack : s'.stack = s₁.stack) (threads : s'.heap.threads = s₁.heap.threads)

section
variable {s s' u : State}

theorem Follows.eq_of_next (h : Follows s s') (step : s.step = .next u) : s' = u := by
  cases h with
  | next h =>
    rw [step] at h
    cases h
    rfl
  | tool h =>
    rw [step] at h
    cases h

/-- The state that follows has moved by a step. -/
theorem Follows.moves (h : Follows s s') (calm : s.heap.Calm) : Moves s s' := by
  cases h with
  | next step => exact State.moves_step calm (by rw [step]; rfl)
  | @tool wrapper args s₁ step stack threads =>
    have hstate : s.step.state? = some s₁ := by
      rw [step]
      rfl
    obtain ⟨restacks, calm'⟩ := State.moves_step calm hstate
    have giving : s₁.mode.isGiving ≠ false := by
      rw [State.step_tool step]
      nofun
    refine ⟨?_, calm'.of_threads threads⟩
    cases restacks with
    | kept pushed after silent => exact .kept pushed (stack.trans after) silent
    | top f base pushed leaving before after silent =>
      exact .top f base pushed leaving before (stack.trans after) silent
    | region fs f base pushed isEnd before after silent given =>
      exact .region fs f base pushed isEnd before (stack.trans after) silent
        (.inl (given.resolve_right giving))
    | all silent given =>
      rw [← stack] at silent given
      exact .all silent (.inl (given.resolve_right giving))
    | called inv base pushed callee =>
      obtain ⟨_, _, hnext⟩ := step_of_callee callee
      rw [step] at hnext
      cases hnext

/-- The coroutines of a run stay calm. -/
theorem calm_of_chain {s : State} {states : List State} (chain : (s :: states).IsChain Follows)
    (calm : s.heap.Calm) : ∀ u ∈ s :: states, u.heap.Calm := by
  induction states generalizing s with
  | nil =>
    rintro u hu
    cases List.mem_singleton.1 hu
    exact calm
  | cons t rest ih =>
    obtain ⟨follows, chain⟩ := List.isChain_cons_cons.1 chain
    rintro u hu
    obtain rfl | hu := List.mem_cons.1 hu
    · exact calm
    · exact ih chain (follows.moves calm).calm u hu

end

/-! ## Errors -/

/-- Whether a mode leaves frames because of an error, or in another way than by giving values. -/
def Mode.isFailing : Mode → Bool
  | .raise _ | .unwind _ => true
  | _ => false

/-- The frames of calls to the library, and of handlers. An error is not caught there. -/
def Frame.isPassed : Frame → Bool
  | .native .. | .printing _ | .handling => true
  | _ => false

/-- An error has been raised directly above some frames, or its handler runs. -/
def Failing (B : List Frame) (s : State) : Prop :=
  s.stack = B ∧ s.mode.isFailing = true ∨ .handling :: B <:+ s.stack

section
variable {s s' t : State} {inv : Invocation} {K : List Frame}

/-- A coroutine that is left takes the frames down to its boundary with it. -/
theorem length_leaveThread (s : State) (hs : s.stack ≠ []) (keep : List Frame → Thread)
    (vs : List Value) : (s.leaveThread keep vs).stack.length < s.stack.length := by
  obtain ⟨heap, stack, mode, activations, nesting, thread⟩ := s
  unfold State.leaveThread
  dsimp only
  obtain ⟨gs, t, outer, base, hsplit, rfl, -⟩ | ⟨gs, hsplit⟩ := splitBoundary_cases [] stack
  · rw [hsplit]
    simp only [List.length_append, List.length_cons]
    omega
  · rw [hsplit]
    exact List.length_pos_iff.2 hs

/-- An error that is raised begins a handler, leaves frames, or leaves a coroutine. -/
theorem raise_cases (s : State) (hs : s.stack ≠ []) (e : Value) :
    (s.raise e).stack = s.stack ∧ (s.raise e).mode.isFailing = true ∨
      (s.raise e).stack = .handling :: s.stack ∨ (s.raise e).stack.length < s.stack.length := by
  have handler (h : Value) : (s.runHandler h e).stack = s.stack ∧
      (s.runHandler h e).mode.isFailing = true ∨
      (s.runHandler h e).stack = .handling :: s.stack := by
    unfold State.runHandler
    dsimp only
    split
    · exact .inl ⟨rfl, rfl⟩
    · exact .inr rfl
  unfold State.raise
  split
  · exact (handler _).imp_right .inl
  · exact (handler _).imp_right .inl
  · exact .inr (.inr (length_leaveThread s hs _ _))
  · exact .inl ⟨rfl, rfl⟩
  · exact .inl ⟨rfl, rfl⟩

/-- A frame that catches nothing is left with the error, or with the other way of leaving. -/
theorem Follows.of_unwind {f : Frame} {base : List Frame} {u : Unwind} (follows : Follows s s')
    (stack : s.stack = f :: base) (mode : s.mode = .unwind u) (hf : f.isPassed = true) :
    s'.stack = base ∧ s'.mode.isFailing = true := by
  obtain ⟨heap, _, _, activations, nesting, thread⟩ := s
  cases stack
  cases mode
  cases f with
  | native | printing | handling =>
    cases u <;> (cases follows.eq_of_next rfl; exact ⟨rfl, rfl⟩)
  | _ => cases hf

/-- An error stays an error as long as the frame of the call is on the stack. -/
theorem Failing.next (failing : Failing (.printing inv :: K) s) (follows : Follows s s')
    (calm : s.heap.Calm) (stays : .printing inv :: K <:+ s'.stack) :
    Failing (.printing inv :: K) s' := by
  obtain ⟨stack, failing⟩ | handling := failing
  · obtain ⟨heap, _, mode, activations, nesting, thread⟩ := s
    cases stack
    cases mode with
    | raise e =>
      cases follows.eq_of_next rfl
      obtain h | h | h := raise_cases ⟨heap, .printing inv :: K, .raise e, activations, nesting,
        thread⟩ (List.cons_ne_nil _ _) e
      · exact .inl h
      · exact .inr (h ▸ List.suffix_rfl)
      · exact absurd stays.length_le (Nat.not_le_of_lt h)
    | unwind u =>
      rw [(follows.of_unwind rfl rfl rfl).1] at stays
      exact absurd stays.length_le (Nat.not_succ_le_self K.length)
    | _ => cases failing
  · obtain handling | ⟨stack, leaving⟩ :=
      (follows.moves calm).restacks.suffix_or_top rfl handling stays
    · exact .inr handling
    · obtain ⟨heap, _, mode, activations, nesting, thread⟩ := s
      cases stack
      cases mode with
      | ret vs =>
        cases follows.eq_of_next rfl
        exact .inl ⟨rfl, rfl⟩
      | unwind u =>
        exact .inl (follows.of_unwind rfl rfl rfl)
      | _ => cases leaving

/-- An error stays an error in all states that follow. -/
theorem Failing.of_chain {states : List State} (failing : Failing (.printing inv :: K) s)
    (calm : s.heap.Calm) (chain : (s :: states).IsChain Follows)
    (above : ∀ u ∈ states, .printing inv :: K <:+ u.stack) :
    ∀ u ∈ s :: states, Failing (.printing inv :: K) u := by
  induction states generalizing s with
  | nil =>
    intro u hu
    cases List.mem_singleton.1 hu
    exact failing
  | cons t rest ih =>
    obtain ⟨follows, chain⟩ := List.isChain_cons_cons.1 chain
    obtain ⟨ht, above⟩ := List.forall_mem_cons.1 above
    intro u hu
    obtain rfl | hu := List.mem_cons.1 hu
    · exact failing
    · exact ih (failing.next follows calm ht) (follows.moves calm).calm chain above u hu

/-- A call that is given values has no error. -/
theorem not_failing_of_ret {vs : List Value} (stack : s.stack = K) (mode : s.mode = .ret vs) :
    ¬ Failing K s := by
  rintro (⟨-, failing⟩ | handling)
  · rw [mode] at failing
    cases failing
  · rw [stack] at handling
    exact Nat.not_succ_le_self K.length handling.length_le

theorem stack_completeLine (s : State) (inv : Invocation) (v : Value) :
    (s.completeLine inv v).stack = s.stack := by
  unfold State.completeLine
  dsimp only
  split <;> rfl

/-- A call that is given values completes, and its frame is left. -/
theorem not_suffix_of_completes {vs : List Value} (follows : Follows s s')
    (stack : s.stack = .printing inv :: K) (mode : s.mode = .ret vs) :
    ¬ .printing inv :: K <:+ s'.stack := by
  obtain ⟨heap, _, _, activations, nesting, thread⟩ := s
  cases stack
  cases mode
  cases follows.eq_of_next rfl
  intro stays
  have hle := stays.length_le
  rw [stack_completeLine] at hle
  exact Nat.not_succ_le_self K.length hle

end

/-! ## The beginning and the end of a call that prints -/

/-- A state that calls a function that prints begins the call. -/
theorem Follows.begins {s s' : State} {f : Native} {args : List Value} (follows : Follows s s')
    (callee : s.callee? = some (.native f, args)) (prints : f.prints = true) :
    ∃ site K, Begins s s' ⟨f, args, site⟩ K := by
  obtain ⟨s₀, site, step⟩ := step_of_callee callee
  cases follows.eq_of_next step
  refine ⟨site, s₀.stack, callee, prints, ?_, s₀.mode_callNative _⟩
  unfold State.callNative
  simp only [prints, if_true]
  rfl

/-- If what is below a call that prints is given values, the call has been given values itself. -/
theorem Follows.ret_of_given {s s' : State} {inv : Invocation} {K : List Frame} {vs : List Value}
    (follows : Follows s s') (calm : s.heap.Calm) (before : .printing inv :: K <:+ s.stack)
    (after : s'.stack = K) (given : s'.mode = .ret vs) (caller : K ≠ []) :
    s.stack = .printing inv :: K ∧ ∃ ws, s.mode = .ret ws := by
  have giving : s'.mode.isGiving = true := by
    rw [given]
    rfl
  obtain ⟨stack, leaving⟩ :=
    (follows.moves calm).restacks.top_of_given before after giving caller
  refine ⟨stack, ?_⟩
  cases mode : s.mode with
  | ret ws => exact ⟨ws, rfl⟩
  | unwind u =>
    have failing := (follows.of_unwind stack mode rfl).2
    rw [given] at failing
    cases failing
  | _ =>
    rw [mode] at leaving
    cases leaving

/-! ## Programs -/

/-- A program asks for what is in the heap and for calls, and nothing else. -/
inductive Program.Direct {α : Type} : Program α → Prop
  | done (a : α) : Direct (.done a)
  | raise (e : Value) : Direct (.raise e)
  | heap {q : Query} {k : List Value → Program α} (about : q.isAboutHeap = true)
      (next : ∀ vs, Direct (k vs)) : Direct (.ask q k)
  | call {f : Value} {args : List Value} {site : Site} {k : List Value → Program α}
      (next : ∀ vs, Direct (k vs)) : Direct (.ask (.call f args site) k)

/-- States of a run in which a function is called by a program above some frames, and returns. The
program waits in all of them. -/
inductive Calls (B : List Frame) (f : Value) (args : List Value) :
    List State → List Value → Prop
  | intro {k : List Value → Program (List Value)} {site : Option Site} {site' : Site}
      {first last : State} {inner : List State} {vs : List Value}
      (begins : first.stack = .native k site :: B) (called : first.mode = .call f args site')
      (ends : last.stack = .native k site :: B) (returned : last.mode = .ret vs)
      (above : ∀ u ∈ first :: (inner ++ [last]), .native k site :: B <:+ u.stack) :
      Calls B f args (first :: (inner ++ [last])) vs

/-- States of a run in which a program is performed above some frames and gives a result: in each
state a question is asked, and the program goes on with the answer that the machine has given. -/
inductive Performs (B : List Frame) {α : Type} : Program α → List State → α → Prop
  | done (a : α) : Performs B (.done a) [] a
  | heap {q : Query} {k : List Value → Program α} {s : State} {states : List State} {a : α}
      (about : q.isAboutHeap = true) (stack : s.stack = B)
      (next : Performs B (k (s.heap.reply q).1) states a) : Performs B (.ask q k) (s :: states) a
  | call {f : Value} {args : List Value} {site : Site} {k : List Value → Program α} {s : State}
      {inner states : List State} {vs : List Value} {a : α} (stack : s.stack = B)
      (calls : Calls B f args inner vs) (next : Performs B (k vs) states a) :
      Performs B (.ask (.call f args site) k) (s :: (inner ++ states)) a

section
variable {α β : Type} {B : List Frame}

/-- What a program asks directly, it asks directly with any other direct program after it. -/
theorem Program.Direct.bind {p : Program α} {f : α → Program β} (hp : p.Direct)
    (hf : ∀ a, (f a).Direct) : (p.bind f).Direct := by
  induction hp with
  | done a => exact hf a
  | raise e => exact .raise e
  | heap about _ ih => exact .heap about ih
  | call _ ih => exact .call ih

/-- A program is performed before the one that goes on with its result. -/
theorem Performs.of_bind {p : Program α} {f : α → Program β} {states : List State} {b : β}
    (h : Performs B (p.bind f) states b) : ∃ first rest a, states = first ++ rest ∧
      Performs B p first a ∧ Performs B (f a) rest b := by
  induction p generalizing states with
  | done a => exact ⟨[], states, a, rfl, .done a, h⟩
  | raise e => cases h
  | ask q k ih =>
    cases h with
    | @heap _ _ s _ _ about stack next =>
      obtain ⟨first, rest, a, rfl, hp, hf⟩ := ih _ next
      exact ⟨s :: first, rest, a, rfl, .heap about stack hp, hf⟩
    | @call _ _ _ _ s inner _ _ _ stack calls next =>
      obtain ⟨first, rest, a, rfl, hp, hf⟩ := ih _ next
      exact ⟨s :: (inner ++ first), rest, a, by simp, .call stack calls hp, hf⟩

end

/-- Of states the first of which has a property and one of which has not, a last one has it right
before one that has not. -/
theorem exists_last_before {σ : Type} {P : σ → Prop} {x y : σ} {xs : List σ} (hx : P x)
    (hy : y ∈ xs) (hPy : ¬ P y) : ∃ before l u after, x :: xs = before ++ l :: u :: after ∧
      (∀ z ∈ before ++ [l], P z) ∧ ¬ P u := by
  induction xs generalizing x with
  | nil => cases hy
  | cons z rest ih =>
    by_cases hz : P z
    · obtain rfl | hy := List.mem_cons.1 hy
      · exact absurd hz hPy
      · obtain ⟨before, l, u, after, heq, hall, hu⟩ := ih hz hy
        refine ⟨x :: before, l, u, after, by rw [heq, List.cons_append], ?_, hu⟩
        rw [List.cons_append]
        exact List.forall_mem_cons.2 ⟨hx, hall⟩
    · exact ⟨[], x, z, rest, rfl, List.forall_mem_singleton.2 hx, hz⟩

/-- Of states the last of which has a property and one of which has not, a last one has it not. -/
theorem exists_last_without {σ : Type} {P : σ → Prop} {xs : List σ} {y : σ}
    (last : xs.getLast? = some y) (hy : P y) (hx : ∃ x ∈ xs, ¬ P x) :
    ∃ earlier c u rest, xs = earlier ++ c :: u :: rest ∧ ¬ P c ∧ ∀ z ∈ u :: rest, P z := by
  obtain ⟨ys, hys⟩ : ∃ ys, xs.reverse = y :: ys := by
    rwa [List.getLast?_eq_head?_reverse, List.head?_eq_some_iff] at last
  obtain ⟨x, hmem, hnot⟩ := hx
  have hx : x ∈ ys := by
    have := List.mem_reverse.2 hmem
    rw [hys, List.mem_cons] at this
    exact this.resolve_left fun h => hnot (h ▸ hy)
  obtain ⟨before, u, c, after, heq, hall, hc⟩ := exists_last_before hy hx hnot
  refine ⟨after.reverse, c, u, before.reverse, ?_, hc, fun z hz => ?_⟩
  · rw [← List.reverse_reverse xs, hys, heq]
    simp
  · exact hall z (by simpa [or_comm] using hz)

/-- A call that a program asks for is begun above it, or there are too many calls already. -/
theorem answer_call (s : State) (f : Value) (args : List Value) (callee : Site)
    (k : List Value → Program (List Value)) (site : Option Site) :
    (s.answer (.call f args callee) k site).stack = s.stack ∧
        (s.answer (.call f args callee) k site).mode.isFailing = true ∨
      (s.answer (.call f args callee) k site).stack = .native k site :: s.stack ∧
        (s.answer (.call f args callee) k site).mode = .call f args callee := by
  simp only [State.answer, Query.isAboutHeap, Bool.false_eq_true, if_false]
  split
  · exact .inl ⟨rfl, rfl⟩
  · exact .inr ⟨rfl, rfl⟩

/-- Successive states of a run, in all of which a call that prints has begun, up to the one in which
it is given values. -/
structure Completing (inv : Invocation) (K : List Frame) (states : List State) (t : State)
    (vs : List Value) : Prop where
  chain : states.IsChain Follows
  calm : ∀ u ∈ states, u.heap.Calm
  above : ∀ u ∈ states, .printing inv :: K <:+ u.stack
  last : states.getLast? = some t
  stack : t.stack = .printing inv :: K
  given : t.mode = .ret vs

namespace Completing

variable {inv : Invocation} {K : List Frame} {before after states : List State} {s t u : State}
  {vs : List Value}

/-- From any of the states on, they are the same for the rest of the call. -/
theorem suffix (h : Completing inv K (before ++ u :: after) t vs) :
    Completing inv K (u :: after) t vs where
  chain := h.chain.right_of_append
  calm v hv := h.calm v (List.mem_append_right before hv)
  above v hv := h.above v (List.mem_append_right before hv)
  last := by
    rw [← h.last, List.getLast?_append_of_ne_nil _ (List.cons_ne_nil u after)]
  stack := h.stack
  given := h.given

/-- No error is raised directly above the frame of a call that completes. -/
theorem not_failing (h : Completing inv K states t vs) :
    ∀ u ∈ states, ¬ Failing (.printing inv :: K) u := by
  intro u hu failing
  obtain ⟨before, after, rfl⟩ := List.append_of_mem hu
  have h := h.suffix
  have ht : t ∈ u :: after := List.mem_of_getLast? h.last
  exact not_failing_of_ret h.stack h.given (failing.of_chain (h.calm u List.mem_cons_self) h.chain
    (fun v hv => h.above v (List.mem_cons_of_mem u hv)) t ht)

/-- The call is not given values before it completes. -/
theorem eq_last (h : Completing inv K (s :: states) t vs) {ws : List Value}
    (stack : s.stack = .printing inv :: K) (mode : s.mode = .ret ws) :
    states = [] ∧ s = t := by
  cases states with
  | nil => exact ⟨rfl, Option.some.inj h.last⟩
  | cons u rest =>
    obtain ⟨follows, -⟩ := List.isChain_cons_cons.1 h.chain
    have hu := h.above u (List.mem_cons_of_mem s List.mem_cons_self)
    exact absurd hu (not_suffix_of_completes follows stack mode)

/-- A state in which a program is performed is not the last one. -/
theorem next (h : Completing inv K (s :: states) t vs) {p : Program (List Value)}
    {site : Option Site} (mode : s.mode = .native p site) (step : s.step = .next u) :
    ∃ rest, states = u :: rest ∧ Completing inv K (u :: rest) t vs := by
  cases states with
  | nil =>
    cases Option.some.inj h.last
    cases mode.symm.trans h.given
  | cons s₁ rest =>
    cases (List.isChain_cons_cons.1 h.chain).1.eq_of_next step
    have h' : Completing inv K ([s] ++ u :: rest) t vs := h
    exact ⟨rest, rfl, h'.suffix⟩

/-- What a program calls returns to it, because an error does not. -/
theorem calls {k : List Value → Program (List Value)} {f : Value} {args : List Value}
    {site : Option Site} {site' : Site} (h : Completing inv K (s :: states) t vs)
    (stack : s.stack = .native k site :: .printing inv :: K) (mode : s.mode = .call f args site') :
    ∃ inner u rest ws, s :: states = inner ++ u :: rest ∧
      Calls (.printing inv :: K) f args inner ws ∧ Completing inv K (u :: rest) t vs ∧
      u.stack = .printing inv :: K ∧ u.mode = .native (k ws) site := by
  have ht : t ∈ states := by
    obtain rfl | ht := List.mem_cons.1 (List.mem_of_getLast? h.last)
    · cases mode.symm.trans h.given
    · exact ht
  have hstack : ¬ .native k site :: .printing inv :: K <:+ t.stack := fun hsuffix => by
    rw [h.stack] at hsuffix
    exact Nat.not_succ_le_self _ hsuffix.length_le
  have hs : .native k site :: .printing inv :: K <:+ s.stack := stack ▸ List.suffix_rfl
  obtain ⟨before, l, u, after, heq, waits, returned⟩ :=
    exists_last_before (P := fun v => .native k site :: .printing inv :: K <:+ v.stack) hs ht hstack
  have hl : l ∈ s :: states := heq ▸ by simp
  have hu : u ∈ s :: states := heq ▸ by simp
  have rest : Completing inv K (u :: after) t vs := by
    rw [heq, ← List.singleton_append, ← List.append_assoc] at h
    exact h.suffix
  have follows : Follows l u := by
    have := h.chain
    rw [heq] at this
    exact (List.isChain_append_cons_cons.1 this).2.1
  -- The frame that waits has been on top right before.
  obtain stays | ⟨lstack, leaving⟩ := (follows.moves (h.calm l hl)).restacks.suffix_or_top rfl
    (waits l (by simp)) (h.above u hu)
  · exact absurd stays returned
  have not_failing := h.not_failing u hu
  obtain ⟨heap, _, lmode, activations, nesting, thread⟩ := l
  cases lstack
  cases lmode with
  | ret ws =>
    cases follows.eq_of_next rfl
    obtain _ | ⟨first, inner⟩ := before
    · cases heq
      cases mode
    · obtain ⟨rfl, rfl⟩ := List.cons_eq_cons.1 heq
      exact ⟨s :: (inner ++ [_]), _, after, ws, by simp, .intro stack mode rfl rfl waits, rest,
        rfl, rfl⟩
  | unwind u' =>
    exact absurd (.inl (follows.of_unwind rfl rfl rfl)) not_failing
  | _ => cases leaving

/-- The states in which a call that prints makes its line go through its program. The induction is
on the program. -/
theorem performs {p : Program (List Value)} (direct : p.Direct) {site : Option Site}
    (h : Completing inv K (s :: states) t vs) (stack : s.stack = .printing inv :: K)
    (mode : s.mode = .native p site) :
    ∃ performing u site', s :: states = performing ++ [u, t] ∧ u.stack = .printing inv :: K ∧
      u.mode = .native (.done vs) site' ∧ Performs (.printing inv :: K) p performing vs := by
  induction direct generalizing s states site with
  | done ws =>
    have step : s.step = .next (s.give ws) := by
      unfold State.step
      rw [mode]
    obtain ⟨rest, rfl, h₁⟩ := h.next mode step
    obtain ⟨rfl, rfl⟩ := h₁.eq_last stack rfl
    cases h.given
    exact ⟨[], s, site, rfl, stack, mode, .done vs⟩
  | raise e =>
    have step : s.step = .next (s.become (.raise e)) := by
      unfold State.step
      rw [mode]
    obtain ⟨rest, rfl, h₁⟩ := h.next mode step
    exact absurd (.inl ⟨stack, rfl⟩) (h₁.not_failing _ List.mem_cons_self)
  | @heap q k about _ ih =>
    have step : s.step = .next { s with
        heap := (s.heap.reply q).2, mode := .native (k (s.heap.reply q).1) site } := by
      unfold State.step
      rw [mode, ← answer_of_heap s about]
    obtain ⟨rest, rfl, h₁⟩ := h.next mode step
    obtain ⟨performing, u, site', heq, ustack, umode, hp⟩ := ih _ h₁ stack rfl
    refine ⟨s :: performing, u, site', ?_, ustack, umode, .heap about stack hp⟩
    rw [heq, List.cons_append]
  | @call f args callee k _ ih =>
    have step : s.step = .next (s.answer (.call f args callee) k site) := by
      unfold State.step
      rw [mode]
    obtain ⟨rest, rfl, h₁⟩ := h.next mode step
    obtain ⟨hstack, failing⟩ | ⟨hstack, called⟩ := answer_call s f args callee k site
    · exact absurd (.inl ⟨hstack.trans stack, failing⟩) (h₁.not_failing _ List.mem_cons_self)
    · rw [stack] at hstack
      obtain ⟨inner, u, rest', ws, heq, calls, h₂, ustack, umode⟩ := h₁.calls hstack called
      obtain ⟨performing, u', site', heq', ustack', umode', hp⟩ := ih ws h₂ ustack umode
      refine ⟨s :: (inner ++ performing), u', site', ?_, ustack', umode', .call stack calls hp⟩
      rw [heq, heq', List.cons_append, List.append_assoc]

/-- What completes in a state has been begun, if it has not been there all the time. -/
theorem exists_begins (chain : states.IsChain Follows) (calm : ∀ u ∈ states, u.heap.Calm)
    (last : states.getLast? = some t) (stack : t.stack = .printing inv :: K)
    (given : t.mode = .ret vs) (outside : ∃ u ∈ states, ¬ .printing inv :: K <:+ u.stack) :
    ∃ earlier c first rest, states = earlier ++ c :: first :: rest ∧ Begins c first inv K ∧
      Completing inv K (first :: rest) t vs := by
  have inside : .printing inv :: K <:+ t.stack := stack ▸ List.suffix_rfl
  obtain ⟨earlier, c, first, rest, rfl, hc, above⟩ := exists_last_without
    (P := fun u : State => .printing inv :: K <:+ u.stack) last inside outside
  obtain ⟨-, follows, chain⟩ := List.isChain_append_cons_cons.1 chain
  refine ⟨earlier, c, first, rest, rfl, ?_, {
    chain := chain
    calm := fun u hu => calm u (List.mem_append_right _ (List.mem_cons_of_mem c hu))
    above := above
    last := ?_
    stack := stack
    given := given }⟩
  · have restacks := (follows.moves (calm c (by simp))).restacks
    exact (restacks.suffix_or_begins (above first List.mem_cons_self)).resolve_left hc
  · rw [← last, List.getLast?_append_of_ne_nil _ (List.cons_ne_nil _ _), List.getLast?_cons_cons]

end Completing

end ScriptAgent.Script
