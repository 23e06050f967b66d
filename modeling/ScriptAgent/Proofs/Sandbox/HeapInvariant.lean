import ScriptAgent.Proofs.Sandbox.Registered
import ScriptAgent.Proofs.Script.Performing

/-!
# What holds of the heap of a sandbox

The heap of a sandbox is changed by questions of the host, by runs of scripts, and by values that
the host writes into it. What all three keep, and what holds of the fresh heap, holds whatever is
done in the sandbox (`HeapInvariant.of_reached`).

One such fact is that no coroutine which does not run is in a call that prints (`calm_of_reached`):
the states of a run follow each other (`chain_passes`), and each step keeps it (`Follows.moves`).
-/

namespace ScriptAgent.Sandbox

open Script

/-- A property of heaps that the host and the scripts keep. -/
structure HeapInvariant (P : Heap → Prop) : Prop where
  reply : ∀ {h}, P h → ∀ q, P (h.reply q).2
  run : ∀ {h}, P h → ∀ tools fuel m w, P (run tools fuel (start h m) w).2.1
  script : ∀ {h}, P h → ∀ v c, P ((h.newCell v).2.newClosure c).2
  written : ∀ {h d v h'}, P h → Exchange.encode h d = .ok (v, h') → P h'

namespace HeapInvariant

variable {P : Heap → Prop} {s : Sandbox} {h : Heap}

theorem runScript (inv : HeapInvariant P) (hh : P h) (tools : Array Tool) (fuel : Nat)
    (script : Function) (w : World) : P (runScript tools fuel h script w).2.1 :=
  inv.run (inv.script hh (.table globalsAddress) _) tools fuel _ w

/-- A program of the host keeps what its questions and calls keep. -/
theorem runProgram {α : Type} (inv : HeapInvariant P) (hh : P h) (tools : Array Tool) (fuel : Nat)
    (p : Program α) (w : World) : P (runProgram tools fuel p h w).2.1 := by
  induction p generalizing h w with
  | done | raise => exact hh
  | ask q k ih =>
    rw [Sandbox.runProgram]
    split
    · exact ih _ (inv.reply hh q) w
    · have hask := inv.run hh tools fuel (.native (.query q) none) w
      rw [← ask] at hask
      split
      · next heq =>
        rw [heq] at hask
        exact ih _ hask _
      · next heq => rwa [heq] at hask
      · next heq => rwa [heq] at hask

/-- What is kept of the heap is preserved by a sandbox: its bindings are not in the heap. -/
theorem preserved (inv : HeapInvariant P) : Preserved (fun s => P s.heap) fun _ _ => True where
  perform {s α} hs p w := by
    have hrun := inv.runProgram hs s.wrapped s.limit p w
    unfold Sandbox.perform
    split
    all_goals
      next heq => rwa [heq] at hrun
  script hs script w := inv.runScript hs _ _ script w
  written hs encoded := inv.written hs encoded
  drop hs _ := hs
  wrap {s} hs {n tool} _ := (heap_wrap s n tool).symm ▸ hs

/-- What is kept holds whatever has been done in a sandbox. -/
theorem of_reached (inv : HeapInvariant P) (fresh : P Heap.initial) (reached : Reached s) :
    P s.heap :=
  inv.preserved.of_reached fresh (fun _ _ _ => trivial) reached

end HeapInvariant

/-! ## Coroutines -/

section
variable {h h' : Heap} {tools : Array Tool} {s : State} {w : World}

/-- Values that are written into a table begin no coroutine. -/
theorem threads_encodeAll {a : Address} {ps : List (Key × Datum)}
    (hw : ∀ p ∈ ps, ∀ {h x h'}, Exchange.encode h p.2 = .ok (x, h') → h'.threads = h.threads)
    (run : Exchange.encodeAll h a ps = .ok h') : h'.threads = h.threads := by
  induction ps generalizing h with
  | nil =>
    cases run
    rfl
  | cons p rest ih =>
    obtain ⟨k, d⟩ := p
    rw [Exchange.encodeAll] at run
    cases hx : Exchange.encode h d with
    | error e => rw [hx] at run; cases run
    | ok r =>
      rw [hx] at run
      have hfirst : r.2.threads = h.threads := hw (k, d) List.mem_cons_self hx
      have hrest := ih (fun p hp => hw p (List.mem_cons_of_mem _ hp)) run
      exact hrest.trans hfirst

/-- A value that is written begins no coroutine. -/
theorem threads_encode {d : Datum} {v : Value} (run : Exchange.encode h d = .ok (v, h')) :
    h'.threads = h.threads := by
  induction d using Exchange.induction_parts generalizing h v h' with
  | step d parts stands =>
    cases hps : Exchange.parts? d with
    | some ps =>
      by_cases hr : ∃ n, d = .range n
      · obtain ⟨n, rfl⟩ := hr
        cases (Exchange.encode_range h n).symm.trans run
        rfl
      · rw [Exchange.encode_parts hps (fun n hn => hr ⟨n, hn⟩)] at run
        cases hall : Exchange.encodeAll (h.newTable Table.empty).2 h.tables.size ps with
        | error e => rw [hall] at run; cases run
        | ok h₁ =>
          rw [hall] at run
          cases run
          have hall := threads_encodeAll (fun p hp => parts ps hps p hp) hall
          exact hall
    | none =>
      cases d with
      | choice type member d =>
        rw [Exchange.encode] at run
        exact stands type member d rfl run
      | int i =>
        rw [Exchange.encode] at run
        split at run <;> cases run
        rfl
      | none | bool | float | str | bytes | object =>
        rw [Exchange.encode] at run
        cases run
        rfl
      | _ => cases hps

/-- A call of a tool begins no coroutine. -/
theorem threads_callTool (wrapper : Nat) (args : List Value) (h : Heap) (w : World) :
    (callTool (tools.getD wrapper default) args h w).2.1.threads = h.threads := by
  rcases @callTool_cases tools wrapper args h w with ⟨-, w', hc⟩ | ⟨-, v, h', w', hc, hy⟩
  · rw [hc]
  · rw [hc]
    cases hy with
    | image ok run => exact threads_encode run
    | _ => rfl

theorem stack_resumeWith (s : State) (a : Answer) (h : Heap) :
    (resumeWith s a h).stack = s.stack := by
  cases a <;> rfl

/-- A state is followed by the one that a run goes on with after the call of a tool. -/
theorem follows_resumeWith {s' : State} {wrapper : Nat} {args : List Value}
    (step : s.step = .tool wrapper args s') (w : World) :
    Follows s (resumeWith s' (callTool (tools.getD wrapper default) args s'.heap w).1
      (callTool (tools.getD wrapper default) args s'.heap w).2.1) := by
  refine .tool step (stack_resumeWith _ _ _) ?_
  rw [heap_resumeWith]
  exact threads_callTool wrapper args s'.heap w

/-- A run goes through the state that it begins with first. -/
theorem eq_of_mem_head?_passes {fuel : Nat} {u : State}
    (hu : u ∈ (passes tools fuel s w).head?) : u = s := by
  cases fuel with
  | zero => cases hu
  | succ fuel => exact (Option.some.inj hu).symm

/-- The states that a run goes through follow each other. -/
theorem chain_passes (tools : Array Tool) (fuel : Nat) (s : State) (w : World) :
    (passes tools fuel s w).IsChain Follows := by
  induction fuel generalizing s w with
  | zero => exact .nil
  | succ fuel ih =>
    rw [passes]
    refine List.isChain_cons.2 ⟨fun u hu => ?_, ?_⟩
    · split at hu
      · next step =>
        cases eq_of_mem_head?_passes hu
        exact .next step
      · cases hu
      · cases hu
      · next step =>
        cases eq_of_mem_head?_passes hu
        exact follows_resumeWith step w
    · split
      · exact ih _ _
      · exact .nil
      · exact .nil
      · exact ih _ _

/-- A run leaves the coroutines calm. -/
theorem calm_run (calm : s.heap.Calm) (tools : Array Tool) (fuel : Nat) (w : World) :
    (run tools fuel s w).2.1.Calm := by
  induction fuel generalizing s w with
  | zero => exact calm
  | succ fuel ih =>
    rw [run]
    split
    · next step => exact ih ((Follows.next step).moves calm).calm w
    · next vs h step =>
      rw [s.heap_of_left? (h := h) (by rw [step]; rfl)]
      exact calm
    · next e h step =>
      rw [s.heap_of_left? (h := h) (by rw [step]; rfl)]
      exact calm
    · next step => exact ih ((follows_resumeWith step w).moves calm).calm _

end

/-- In a sandbox no coroutine that does not run is in a call that prints. -/
theorem heapInvariant_calm : HeapInvariant Heap.Calm where
  reply calm q := calm.reply q
  run calm tools fuel m w := calm_run (s := start _ m) calm tools fuel w
  script calm _ _ := calm.of_threads rfl
  written calm run := calm.of_threads (threads_encode run)

theorem calm_of_reached {s : Sandbox} (reached : Reached s) : s.heap.Calm := by
  refine heapInvariant_calm.of_reached (fun t => ?_) reached
  -- There is the main coroutine only, and it has not begun anything.
  cases t <;> exact silent_nil

end ScriptAgent.Sandbox
