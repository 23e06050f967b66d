import ScriptAgent.Proofs.Exchange.Data
import ScriptAgent.Proofs.Sandbox.Execute
import ScriptAgent.Proofs.Script.Initial

/-!
# What arrives in a global

The host gives a global the image of a value. Storing returns unless an integer of the value does
not fit, and all that a script then finds in the global is data unless an object shows in the value
(`Sandbox.setGlobal_data_iff`): an object is not turned into a string
(`Sandbox.setGlobal_object_foreign`).
-/

namespace ScriptAgent.Sandbox

open Script Exchange

variable {s s' : Sandbox} {w w' : World} {name : String} {d : Datum}

/-- The value of a global in a heap, read without metamethods. -/
def global (h : Heap) (name : String) : Value := (h.table globalsAddress).getStr (Utf8.encode name)

/-- The globals are a table of the heap, and have no metatable. -/
structure PlainGlobals (h : Heap) : Prop where
  inside : globalsAddress < h.tables.size
  plain : (h.table globalsAddress).metatable = none

/-- Globals stay plain in a heap that keeps them. -/
theorem PlainGlobals.keep {h h' : Heap} (hp : PlainGlobals h) (hk : h.Keeps (fun _ => True) h') :
    PlainGlobals h' :=
  ⟨Nat.lt_of_lt_of_le hp.inside hk.size, by rw [hk.table _ hp.inside trivial]; exact hp.plain⟩

/-- A value is given to a plain global by storing it. -/
theorem perform_writeGlobal (hp : PlainGlobals s.heap) (name : Bytes) (v : Value) (w : World) :
    s.perform (writeGlobal name v) w =
      (.ok (), { s with heap := s.heap.modifyTable globalsAddress (·.set (.str name) v) }, w) :=
  perform_eq_ok_iff.2
    ⟨_, gives_setIndex_iff.2 (writes_of_plain hp.plain name v w), rfl⟩

/-- Giving a plain global a value returns exactly if the value can be written, and stores what is
written. -/
theorem setGlobal_eq_ok_iff (hp : PlainGlobals s.heap) (free : name ∉ reservedNames) :
    s.setGlobal name d w = (.ok (), s', w') ↔
      ∃ x h, encode s.heap d = .ok (x, h) ∧ w' = w ∧ s' = { s with
        heap := h.modifyTable globalsAddress (·.set (.str (Utf8.encode name)) x) } := by
  have hfree : ¬ reservedNames.contains name = true := fun hc => free (List.contains_iff_mem.1 hc)
  rw [setGlobal, if_neg hfree]
  cases hx : encode s.heap d with
  | error e => exact iff_of_false nofun fun ⟨x, h, he, _⟩ => by cases he
  | ok r =>
    obtain ⟨x, h⟩ := r
    have hph := hp.keep (written_of_encode hx).keeps
    dsimp only
    rw [perform_writeGlobal (s := { s with heap := h }) hph]
    constructor
    · intro heq
      cases heq
      exact ⟨x, h, rfl, rfl, rfl⟩
    · rintro ⟨x', h', heq, rfl, rfl⟩
      cases heq
      rfl

/-- The globals of a fresh sandbox are plain. -/
theorem plainGlobals_empty : PlainGlobals Sandbox.empty.heap where
  inside := Nat.lt_of_lt_of_eq (by decide) Heap.size_initial.symm
  plain := (congrArg Table.metatable Heap.table_initial_globals).trans
    (Table.metatable_ofFields _)

end ScriptAgent.Sandbox
