import ScriptAgent.Proofs.Sandbox.Binding
import ScriptAgent.Proofs.Sandbox.Reserved

/-!
# The bindings of a sandbox

A sandbox has a binding for each name that is bound, with the tool and the number of its wrapper.
Scripts change the heap only, so a property of the bindings that removing and adding bindings keep
holds whatever scripts do (`Invariant.preserved`, `Preserved.execute`). In particular the tool of a binding is always
behind its wrapper, and its name is accepted (`Reached.registered`).
-/

namespace ScriptAgent.Sandbox

open Script

/-- What holds of the bindings of a sandbox: behind the wrapper of each is its tool, and the names
are accepted. -/
structure Registered (s : Sandbox) : Prop where
  wrapped : Wrapped s
  accepted : checkNames (s.bound.map Binding.name) = .ok ()

/-- What a fresh sandbox becomes when the host uses it, whatever the scripts do. -/
inductive Reached : Sandbox → Prop
  | fresh : Reached .empty
  | executed {s : Sandbox} (code : String) (tools : ToolMap) (w : World) (before : Reached s) :
      Reached (s.execute code tools w).2.1
  | bound {s : Sandbox} (tools : ToolMap) (w : World) (before : Reached s) :
      Reached (s.bind tools w).2.1
  | stored {s : Sandbox} (name : String) (d : Datum) (w : World) (before : Reached s) :
      Reached (s.setGlobal name d w).2.1
  | read {s : Sandbox} (name : String) (w : World) (before : Reached s) :
      Reached (s.getGlobal name w).2.1

/-- A sandbox comes out of another one by a change of its heap. -/
def SameBut (s s' : Sandbox) : Prop := ∃ h, s' = { s with heap := h }

section
variable {s s' s₁ : Sandbox} {w : World} {n : String} {tool : Tool} {tools : ToolMap}
  {names : List String}

theorem SameBut.trans (h : SameBut s s₁) (h' : SameBut s₁ s') : SameBut s s' := by
  obtain ⟨h, rfl⟩ := h
  obtain ⟨h', rfl⟩ := h'
  exact ⟨h', rfl⟩

/-- A program of the host changes the heap only. -/
theorem sameBut_perform {α : Type} (s : Sandbox) (p : Program α) (w : World) :
    SameBut s (s.perform p w).2.1 := by
  unfold perform
  rcases runProgram s.wrapped s.limit p s.heap w with ⟨_ | _ | _, h, w'⟩ <;> exact ⟨h, rfl⟩

/-! ## What is kept -/

/-- A property of sandboxes that holds whatever the host and the scripts do: what the host asks,
the run of a script, the removal of a binding and values that are written keep it, and so does a new
binding of a tool under a name that is fine for it. -/
structure Preserved (P : Sandbox → Prop) (fine : String → Tool → Prop) : Prop where
  perform : ∀ {s} {α : Type}, P s → ∀ (p : Program α) (w : World), P (s.perform p w).2.1
  script : ∀ {s}, P s → ∀ (script : Function) (w : World),
    P { s with heap := (runScript s.wrapped s.limit s.heap script w).2.1 }
  written : ∀ {s d v h}, P s → Exchange.encode s.heap d = .ok (v, h) → P { s with heap := h }
  drop : ∀ {s}, P s → ∀ n, P (s.dropBinding n)
  wrap : ∀ {s}, P s → ∀ {n tool}, fine n tool → P (s.wrap n tool).2

namespace Preserved

variable {P : Sandbox → Prop} {fine : String → Tool → Prop}

/-- Removing names keeps what is preserved. -/
theorem unbindAll (kept : Preserved P fine) (hs : P s) (names : List String) (w : World) :
    P (unbindAll names s w).2.1 := by
  induction names generalizing s w with
  | nil => exact hs
  | cons n rest ih =>
    have hassign := kept.perform hs (assign .stop n .nil) w
    rw [Sandbox.unbindAll]
    split
    · next s₁ w₁ heq =>
      rw [heq] at hassign
      exact ih (kept.drop hassign n) w₁
    · next heq => rwa [heq] at hassign

/-- Binding tools keeps what is preserved. -/
theorem bindAll (kept : Preserved P fine) (hs : P s) (hfine : ∀ e ∈ tools, fine e.1 e.2)
    (w : World) : P (bindAll tools s w).2.1 := by
  induction tools generalizing s w with
  | nil => exact hs
  | cons e rest ih =>
    obtain ⟨n, tool⟩ := e
    have hwrap := kept.wrap hs (hfine (n, tool) List.mem_cons_self)
    have hassign := kept.perform hwrap (assign .create n (.tool (s.wrap n tool).1)) w
    rw [Sandbox.bindAll]
    dsimp only
    split
    · next s₁ w₁ heq =>
      rw [heq] at hassign
      exact ih hassign (fun e he => hfine e (List.mem_cons_of_mem _ he)) w₁
    · next heq => rwa [heq] at hassign

/-- Binding a map of tools keeps what is preserved. -/
theorem bind (kept : Preserved P fine) (hs : P s) (tools : ToolMap)
    (hfine : checkNames (tools.map Prod.fst) = .ok () → ∀ e ∈ tools, fine e.1 e.2) (w : World) :
    P (s.bind tools w).2.1 := by
  have hunbind := kept.unbindAll hs (s.boundBeyond (tools.map Prod.fst)) w
  unfold Sandbox.bind
  dsimp only
  split
  · exact hs
  · next accepted =>
    split
    · next heq => rwa [heq] at hunbind
    · next s₁ w₁ heq =>
      rw [heq] at hunbind
      exact kept.bindAll hunbind (hfine accepted) w₁

/-- Reading the print buffer keeps what is preserved. -/
theorem printBuffer (kept : Preserved P fine) (hs : P s) (w : World) :
    P (s.printBuffer w).2.1 := by
  have hread := kept.perform hs (readGlobal bufferName) w
  rw [printBuffer_eq]
  split
  all_goals
    next heq => rwa [heq] at hread

/-- A script that has been read keeps what is preserved. -/
theorem runParsed (kept : Preserved P fine) (hs : P s) (script : Function) (w : World) :
    P (s.runParsed script w).2.1 := by
  have hrun := kept.script hs script w
  rw [runParsed_eq]
  rcases heq : runScript s.wrapped s.limit s.heap script w with ⟨ending, h, w₁⟩
  rw [heq] at hrun
  have hbuffer := kept.printBuffer hrun
  dsimp only at hbuffer ⊢
  split
  · next w₂ _ =>
    have hbuffer := hbuffer w₂
    rw [endedRun_eq]
    split
    · next heq => rwa [heq] at hbuffer
    · next s₂ w₃ heq =>
      rw [heq] at hbuffer
      have hslot := kept.perform hbuffer (readGlobal answerName) w₃
      split
      all_goals
        next heq => rwa [heq] at hslot
  · next w₂ _ =>
    have hbuffer := hbuffer w₂
    unfold failedRun
    split
    all_goals
      next heq => rwa [heq] at hbuffer

/-- An execution keeps what is preserved. -/
theorem execute (kept : Preserved P fine) (hs : P s) (code : String) (tools : ToolMap)
    (hfine : checkNames (tools.map Prod.fst) = .ok () → ∀ e ∈ tools, fine e.1 e.2) (w : World) :
    P (s.execute code tools w).2.1 := by
  have hbind := kept.bind hs tools hfine w
  unfold Sandbox.execute
  split
  · next heq => rwa [heq] at hbind
  · next s₁ w₁ heq =>
    rw [heq] at hbind
    have hprepare := kept.perform hbind prepare w₁
    split
    · next heq => rwa [heq] at hprepare
    · next s₂ w₂ heq =>
      rw [heq] at hprepare
      split
      · next script _ => exact kept.runParsed hprepare script w₂
      · exact hprepare

/-- Writing a global keeps what is preserved. -/
theorem setGlobal (kept : Preserved P fine) (hs : P s) (name : String) (d : Datum) (w : World) :
    P (s.setGlobal name d w).2.1 := by
  unfold Sandbox.setGlobal
  split
  · exact hs
  · split
    · exact hs
    · next v h encoded =>
      exact kept.perform (kept.written hs encoded) (writeGlobal (Utf8.encode name) v) w

/-- Reading a global keeps what is preserved. -/
theorem getGlobal (kept : Preserved P fine) (hs : P s) (name : String) (w : World) :
    P (s.getGlobal name w).2.1 := by
  have hread := kept.perform hs (readGlobal (Utf8.encode name)) w
  unfold Sandbox.getGlobal
  split
  all_goals
    next heq => rwa [heq] at hread

/-- What is preserved and holds of a fresh sandbox holds whatever is done in it, if every name that
is accepted is fine. -/
theorem of_reached (kept : Preserved P fine) (fresh : P .empty)
    (hfine : ∀ n tool, nameFault? n = none → fine n tool) (reached : Reached s) : P s := by
  have hfine (tools : ToolMap) (accepted : checkNames (tools.map Prod.fst) = .ok ()) :
      ∀ e ∈ tools, fine e.1 e.2 := fun e he =>
    hfine e.1 e.2 (checkNames_eq_ok_iff.1 accepted e.1 (List.mem_map_of_mem he))
  induction reached with
  | fresh => exact fresh
  | executed code tools w _ ih => exact kept.execute ih code tools (hfine tools) w
  | bound tools w _ ih => exact kept.bind ih tools (hfine tools) w
  | stored name d w _ ih => exact kept.setGlobal ih name d w
  | read name w _ ih => exact kept.getGlobal ih name w

end Preserved

/-! ## Invariants -/

/-- A property of sandboxes that holds whatever scripts do: changes of the heap and the removal of
bindings keep it, and so does a new binding of a tool under a name that is fine for it. -/
structure Invariant (P : Sandbox → Prop) (fine : String → Tool → Prop) : Prop where
  heap : ∀ {s s'}, P s → SameBut s s' → P s'
  drop : ∀ {s}, P s → ∀ n, P (s.dropBinding n)
  wrap : ∀ {s}, P s → ∀ {n tool}, fine n tool → P (s.wrap n tool).2

/-- What is asked, run and written changes the heap only. -/
theorem Invariant.preserved {P : Sandbox → Prop} {fine : String → Tool → Prop}
    (inv : Invariant P fine) : Preserved P fine where
  perform hs p w := inv.heap hs (sameBut_perform _ p w)
  script hs _ _ := inv.heap hs ⟨_, rfl⟩
  written hs _ := inv.heap hs ⟨_, rfl⟩
  drop := inv.drop
  wrap := inv.wrap

/-! ## What is registered -/

/-- A fresh sandbox has no bindings. -/
theorem registered_empty : Registered .empty := ⟨nofun, rfl⟩

/-- Bindings stay registered. -/
theorem invariant_registered : Invariant Registered fun n _ => nameFault? n = none where
  heap reg same := by
    obtain ⟨h, rfl⟩ := same
    exact ⟨reg.wrapped, reg.accepted⟩
  drop {s} reg n := by
    have hsub : ∀ b ∈ (s.dropBinding n).bound, b ∈ s.bound := fun b hb => (List.mem_filter.1 hb).1
    refine ⟨fun b hb => reg.wrapped b (hsub b hb), checkNames_eq_ok_iff.2 fun k hk => ?_⟩
    obtain ⟨b, hb, rfl⟩ := List.mem_map.1 hk
    exact checkNames_eq_ok_iff.1 reg.accepted b.name (List.mem_map_of_mem (hsub b hb))
  wrap {s} reg {n tool} hn := by
    have wraps := reg.wrapped.wrap n tool
    refine ⟨wraps.wrapped reg.wrapped, checkNames_eq_ok_iff.2 fun k hk => ?_⟩
    rcases (wraps.names k).1 hk with rfl | hk
    · exact hn
    · exact checkNames_eq_ok_iff.1 reg.accepted k hk

/-- Whatever scripts have done in a sandbox, its bindings are registered. -/
theorem Reached.registered (reached : Reached s) : Registered s :=
  invariant_registered.preserved.of_reached registered_empty (fun _ _ accepted => accepted) reached

end

end ScriptAgent.Sandbox
