import ScriptAgent.Proofs.Exchange.Image
import ScriptAgent.Proofs.Sandbox.Globals
import ScriptAgent.Proofs.Sandbox.ToolCall
import ScriptAgent.Proofs.Script.Stores

/-!
# The answer that a run leaves

A script gives its answer by calling the function for it, which stores its argument in a global. It
may do so any number of times, also in calls whose errors are caught and in coroutines, and it may
withdraw an answer by giving nil.

`Sandbox.answer_run` is what such a run leaves in the global: the argument of the last call. It
holds of every run that ends, if the globals have no metatable on the way and nothing else stores
the answer. A call takes a few steps to store its argument, in which nothing else happens
(`Answers`); every other step leaves the global as it is (`State.stores_step`).
-/

namespace ScriptAgent

namespace Script

/-! ## What a step does to the answer -/

/-- What happens to the answer of a script. -/
inductive AnswerEvent where
  /-- The function that gives the answer is called. -/
  | called (v : Value)
  /-- A value is stored as the answer. -/
  | stored (v : Value)

/-- The function that the next step calls, with its arguments, if it calls one. -/
def State.callee? (s : State) : Option (Value × List Value) :=
  match s.mode, s.stack with
  | .call f args _, _ => (resolveCall s.heap f args maxCallChain).toOption
  | .ret vs, .apply f self _ _ :: _ => (resolveCall s.heap f (self ++ vs) maxCallChain).toOption
  | _, _ => none

/-- What the next step does to the answer. -/
def State.answerEvent? (s : State) : Option AnswerEvent :=
  match s.callee? with
  | some (.native .finalAnswer, args) => some (.called (args.getD 0 .nil))
  | _ => (s.stores? globalsAddress answerName).map .stored

/-- The argument of the last call among some events, or the answer of before. -/
def lastAnswer (v : Value) : List AnswerEvent → Value
  | [] => v
  | .called v :: rest => lastAnswer v rest
  | .stored _ :: rest => lastAnswer v rest

/-- Values are stored by calls only: each store comes right after a call. `called` is whether the
event before was a call. -/
def OnlyCallsStore (called : Bool) : List AnswerEvent → Prop
  | [] => True
  | .called _ :: rest => OnlyCallsStore true rest
  | .stored _ :: rest => called = true ∧ OnlyCallsStore false rest

instance decidableOnlyCallsStore : (called : Bool) → (events : List AnswerEvent) →
    Decidable (OnlyCallsStore called events)
  | _, [] => inferInstanceAs (Decidable True)
  | _, .called _ :: rest => decidableOnlyCallsStore true rest
  | called, .stored _ :: rest =>
    have := decidableOnlyCallsStore false rest
    inferInstanceAs (Decidable (called = true ∧ OnlyCallsStore false rest))

/-- The value in the global of the answer. -/
def answerIn (h : Heap) : Value := (h.table globalsAddress).getStr answerName

section
variable {s : State} {h : Heap} {v : Value} {args : List Value}

/-- A step without an event leaves the answer as it is. -/
theorem answerIn_step (inside : globalsAddress < s.heap.tables.size)
    (quiet : s.answerEvent? = none) : answerIn s.step.heap = answerIn s.heap := by
  have hstores : s.stores? globalsAddress answerName = none := by
    unfold State.answerEvent? at quiet
    split at quiet
    · cases quiet
    · exact Option.map_eq_none_iff.1 quiet
  have hfield := s.stores_step.field _ inside answerName
  rw [hstores] at hfield
  exact hfield

/-- The program of a call of the function, in globals without a metatable, once some of its
questions have been answered: it looks at the answer of before, asks for a metamethod if there is
none, and stores the value. -/
inductive Answers (v : Value) : Program (List Value) → Prop where
  | read {k : List Value → Program (List Value)} (next : ∀ x, Answers v (k [x])) :
      Answers v (.ask (.rawGet globalsAddress (.str answerName)) k)
  | absent {k : List Value → Program (List Value)} (next : Answers v (k [.nil])) (name : Bytes) :
      Answers v (.ask (.metafield (.table globalsAddress) name) k)
  | store (k : List Value → Program (List Value)) :
      Answers v (.ask (.rawSet globalsAddress (.str answerName) v) k)

/-- A call of the function stores its first argument. -/
theorem answers_finalAnswer (inv : Invocation) :
    Answers (inv.arg 1) (Library.finalAnswer inv) := by
  refine .read fun x => ?_
  cases x with
  | nil => exact .absent (.store _) _
  | _ => exact .store _

section
variable {f : Value} {args' : List Value} {n : Native}

/-- A call that resolves to a library function begins its program. -/
theorem call_of_resolve (s : State) (site : Site)
    (hr : (State.resolveCall s.heap f args State.maxCallChain).toOption = some (.native n, args')) :
    s.call f args site = .next (s.callNative ⟨n, args', site⟩) := by
  unfold State.call
  rcases hresolve : State.resolveCall s.heap f args State.maxCallChain with e | r
  · rw [hresolve] at hr
    cases hr
  · rw [hresolve] at hr
    cases hr
    rfl

/-- A call in place of the running function that resolves to a library function is a call. -/
theorem tailCall_of_resolve (s : State) (site : Site)
    (hr : (State.resolveCall s.heap f args State.maxCallChain).toOption = some (.native n, args')) :
    s.tailCall f args site = (s.push .returnValues s.mode).call f args site := by
  unfold State.tailCall
  rcases hresolve : State.resolveCall s.heap f args State.maxCallChain with e | r
  · rfl
  · rw [hresolve] at hr
    cases hr
    rfl

/-- A state that calls a library function goes on with the call. -/
theorem step_of_callee (hc : s.callee? = some (.native n, args)) :
    ∃ (s' : State) (site : Site), s.step = .next (s'.callNative ⟨n, args, site⟩) := by
  obtain ⟨heap, stack, mode, activations, nesting, thread⟩ := s
  cases mode with
  | call f args' site => exact ⟨_, _, call_of_resolve _ site hc⟩
  | ret vs =>
    cases stack with
    | nil => cases hc
    | cons frame stack =>
      cases frame with
      | apply f self site tail =>
        cases tail with
        | false => exact ⟨_, _, call_of_resolve ⟨heap, stack, _, _, _, thread⟩ site hc⟩
        | true =>
          exact ⟨_, _, (tailCall_of_resolve ⟨heap, stack, _, _, _, thread⟩ site hc).trans
            (call_of_resolve _ site hc)⟩
      | _ => cases hc
  | _ => cases hc

/-- A call of a library function goes on with its program. -/
theorem State.mode_callNative (s : State) (inv : Invocation) :
    (s.callNative inv).mode =
      .native (inv.function.run inv.args inv.site) (some inv.site) := by
  unfold callNative
  dsimp only
  split <;> rfl

end

/-- A call of the function begins its program. -/
theorem step_of_called (hcalled : s.answerEvent? = some (.called v)) :
    ∃ s' p site, s.step = .next s' ∧ s'.mode = .native p site ∧ Answers v p := by
  unfold State.answerEvent? at hcalled
  split at hcalled
  · next args hc =>
    cases hcalled
    obtain ⟨s', site, hstep⟩ := step_of_callee hc
    exact ⟨_, _, _, hstep, s'.mode_callNative _, answers_finalAnswer ⟨.finalAnswer, args, site⟩⟩
  · obtain ⟨x, -, hx⟩ := Option.map_eq_some_iff.1 hcalled
    cases hx

/-- A step of the program of a call stores the value, or comes closer to that. -/
theorem Answers.step {p : Program (List Value)} {site : Option Site} (answers : Answers v p)
    (hmode : s.mode = .native p site) (hp : Sandbox.PlainGlobals s.heap) :
    ∃ s', s.step = .next s' ∧
      (s.answerEvent? = some (.stored v) ∧ answerIn s'.heap = v ∨
        s.answerEvent? = none ∧ ∃ p', s'.mode = .native p' site ∧ Answers v p') := by
  obtain ⟨heap, stack, mode, activations, nesting, thread⟩ := s
  cases hmode
  cases answers with
  | read next => exact ⟨_, rfl, .inr ⟨rfl, _, rfl, next _⟩⟩
  | absent next name =>
    have hmeta : heap.metafield (.table globalsAddress) name = .nil := by
      simp only [Heap.metafield, Heap.metatable, hp.plain]
    refine ⟨_, rfl, .inr ⟨rfl, _, rfl, ?_⟩⟩
    rw [hmeta]
    exact next
  | store k =>
    refine ⟨_, rfl, .inl ⟨rfl, ?_⟩⟩
    show ((heap.modifyTable _ _).table globalsAddress).getStr answerName = v
    rw [Heap.table_modifyTable_self hp.inside]
    exact Table.get_set_self ..

/-- The value that is the answer now, or that a call which has begun is about to store. -/
inductive Due (s : State) : Bool → Value → Prop where
  | settled : Due s false (answerIn s.heap)
  | pending {v : Value} {p : Program (List Value)} {site : Option Site}
      (mode : s.mode = .native p site) (answers : Answers v p) : Due s true v

/-- A step without an event leaves an answer that is settled. Every other step of a run in which
only calls store goes on with the value that is due after its event. -/
theorem Due.next {called : Bool} (due : Due s called v) (hp : Sandbox.PlainGlobals s.heap)
    {rest : List AnswerEvent} (only : OnlyCallsStore called (s.answerEvent?.toList ++ rest)) :
    (s.answerEvent? = none ∧ called = false ∧ v = answerIn s.heap) ∨
      ∃ s' called' v', s.step = .next s' ∧ Due s' called' v' ∧ OnlyCallsStore called' rest ∧
        lastAnswer v (s.answerEvent?.toList ++ rest) = lastAnswer v' rest := by
  cases due with
  | settled =>
    rcases hevent : s.answerEvent? with _ | (x | x)
    · exact .inl ⟨rfl, rfl, rfl⟩
    · rw [hevent] at only
      obtain ⟨s', p, site, hstep, hmode, answers⟩ := step_of_called hevent
      exact .inr ⟨s', true, x, hstep, .pending hmode answers, only, rfl⟩
    · rw [hevent] at only
      cases only.1
  | pending mode answers =>
    right
    obtain ⟨s', hstep, ⟨hevent, rfl⟩ | ⟨hevent, p', hmode, answers'⟩⟩ := answers.step mode hp
    · rw [hevent] at only ⊢
      exact ⟨s', false, _, hstep, .settled, only.2, rfl⟩
    · rw [hevent] at only ⊢
      exact ⟨s', true, v, hstep, .pending hmode answers', only, rfl⟩

end

end Script

namespace Sandbox

open Script

/-! ## Runs -/

/-- The states that a run goes through. -/
def passes (tools : Array Tool) : Nat → State → World → List State
  | 0, _, _ => []
  | fuel + 1, s, w =>
    s :: match s.step with
    | .next s => passes tools fuel s w
    | .done _ _ => []
    | .failed _ _ => []
    | .tool wrapper args s =>
      let (a, h, w) := callTool (tools.getD wrapper default) args s.heap w
      passes tools fuel (resumeWith s a h) w

/-- What happens to the answer in a run. -/
def answerEvents (passed : List State) : List AnswerEvent := passed.filterMap State.answerEvent?

section
variable {tools : Array Tool} {fuel : Nat} {s s' : State} {h h' : Heap} {w w' : World}
  {ending : Ending (List Value)}

/-- A call of a tool leaves all tables of scripts as they are. -/
theorem keepsFields_callTool (wrapper : Nat) (args : List Value) (h : Heap) (w : World) :
    h.KeepsFields (callTool (tools.getD wrapper default) args h w).2.1 := by
  rcases @callTool_cases tools wrapper args h w with ⟨-, w', hc⟩ | ⟨-, v, h', w', hc, hy⟩
  · rw [hc]
    exact .refl h
  · rw [hc]
    cases hy with
    | image ok run => exact .of_keeps (Exchange.written_of_encode run).keeps
    | _ => exact .refl h

theorem heap_resumeWith (s : State) (a : Answer) (h : Heap) : (resumeWith s a h).heap = h := by
  cases a <;> rfl

/-- What happens to the answer in a run begins with what its first step does. -/
theorem answerEvents_cons (s : State) (passed : List State) :
    answerEvents (s :: passed) = s.answerEvent?.toList ++ answerEvents passed := by
  unfold answerEvents
  cases hevent : s.answerEvent? with
  | none => rw [List.filterMap_cons_none hevent]; rfl
  | some e => rw [List.filterMap_cons_some hevent]; rfl

/-- A run that ends, in globals without a metatable and with calls alone storing the answer, leaves
the argument of the last call. The induction is on the steps of the run. -/
theorem answer_run {called : Bool} {v : Value} (due : Due s called v)
    (hrun : run tools fuel s w = (ending, h', w')) (ends : ending ≠ .unfinished)
    (inside : globalsAddress < s.heap.tables.size)
    (plain : ∀ t ∈ passes tools fuel s w, (t.heap.table globalsAddress).metatable = none)
    (only : OnlyCallsStore called (answerEvents (passes tools fuel s w))) :
    answerIn h' = lastAnswer v (answerEvents (passes tools fuel s w)) := by
  induction fuel generalizing s w called v with
  | zero =>
    cases hrun
    exact absurd rfl ends
  | succ fuel ih =>
    rw [passes, answerEvents_cons] at only ⊢
    rw [passes] at plain
    have hp : PlainGlobals s.heap := ⟨inside, plain s List.mem_cons_self⟩
    have inside' : globalsAddress < s.step.heap.tables.size :=
      Nat.lt_of_lt_of_le inside s.stores_step.size
    rw [run] at hrun
    obtain ⟨quiet, rfl, rfl⟩ | ⟨s', called', v', hstep, due', only', hlast⟩ := due.next hp only
    · have same : answerIn s.step.heap = answerIn s.heap := answerIn_step inside quiet
      rw [quiet] at only ⊢
      rw [← same]
      cases hstep : s.step with
      | next s' =>
        rw [hstep] at plain only hrun inside'
        exact ih .settled hrun inside' (fun t ht => plain t (List.mem_cons_of_mem s ht)) only
      | done vs h =>
        rw [hstep] at hrun
        cases hrun
        rfl
      | failed e h =>
        rw [hstep] at hrun
        cases hrun
        rfl
      | tool wrapper args s' =>
        rw [hstep] at plain only hrun inside'
        dsimp only at plain only hrun
        have keeps := @keepsFields_callTool tools wrapper args s'.heap w
        rcases hcall : callTool (tools.getD wrapper default) args s'.heap w with ⟨a, h, w₁⟩
        rw [hcall] at plain only hrun keeps
        dsimp only
        rw [hcall]
        have hheap := heap_resumeWith s' a h
        have hanswer : answerIn s'.heap = answerIn (resumeWith s' a h).heap := by
          rw [hheap]
          exact (keeps.field _ inside' _).symm
        have inside'' : globalsAddress < (resumeWith s' a h).heap.tables.size := by
          rw [hheap]
          exact Nat.lt_of_lt_of_le inside' keeps.size
        refine Eq.trans ?_ (congrArg (lastAnswer · _) hanswer.symm)
        exact ih .settled hrun inside'' (fun t ht => plain t (List.mem_cons_of_mem s ht)) only
    · rw [hstep] at plain only' hrun inside' hlast
      rw [hstep, hlast]
      exact ih due' hrun inside' (fun t ht => plain t (List.mem_cons_of_mem s ht)) only'

/-- A run that ends leaves the heap of the last state that it goes through. -/
theorem exists_mem_passes (hrun : run tools fuel s w = (ending, h', w'))
    (ends : ending ≠ .unfinished) : ∃ t ∈ passes tools fuel s w, t.heap = h' := by
  induction fuel generalizing s w with
  | zero =>
    cases hrun
    exact absurd rfl ends
  | succ fuel ih =>
    rw [run] at hrun
    rw [passes]
    cases hstep : s.step with
    | next s' =>
      rw [hstep] at hrun
      obtain ⟨t, ht, hheap⟩ := ih hrun
      exact ⟨t, List.mem_cons_of_mem s ht, hheap⟩
    | done vs h =>
      rw [hstep] at hrun
      cases hrun
      exact ⟨s, List.mem_cons_self, (s.heap_of_left? (by rw [hstep]; rfl)).symm⟩
    | failed e h =>
      rw [hstep] at hrun
      cases hrun
      exact ⟨s, List.mem_cons_self, (s.heap_of_left? (by rw [hstep]; rfl)).symm⟩
    | tool wrapper args s' =>
      rw [hstep] at hrun
      obtain ⟨t, ht, hheap⟩ := ih hrun
      exact ⟨t, List.mem_cons_of_mem s ht, hheap⟩

end

end Sandbox

end ScriptAgent
