import ScriptAgent.Proofs.Sandbox.Tree
import ScriptAgent.Proofs.Text.Bytes

/-!
# Looking up names

A name is a path, and its place is that path without the steps from the globals to themselves. A
script looks a name up by indexing along the path. Where there are only tables, tools and nothing on
the way, this gives a tool exactly if one is at the place of the name (`Sandbox.gives_lookup_iff`).
-/

namespace ScriptAgent.Sandbox

open Script

/-! ## Paths of names -/

theorem splitDots_ne_nil (cs : List Char) : splitDots cs ≠ [] := by
  unfold splitDots
  split
  · exact List.cons_ne_nil _ _
  · exact List.cons_ne_nil _ _
  · split <;> exact List.cons_ne_nil _ _

/-- What has no dot is one part. -/
theorem splitDots_of_not_mem {cs : List Char} (hcs : '.' ∉ cs) : splitDots cs = [cs] := by
  induction cs with
  | nil => rfl
  | cons c cs ih =>
    rw [List.mem_cons, not_or] at hcs
    rw [splitDots]
    · rw [ih hcs.2]
    · exact Ne.symm hcs.1

/-- Characters are put together again from the parts between their dots. -/
theorem intercalate_splitDots (cs : List Char) : ['.'].intercalate (splitDots cs) = cs := by
  induction cs with
  | nil => rfl
  | cons c rest ih =>
    obtain ⟨part, more, hrest⟩ := List.exists_cons_of_ne_nil (splitDots_ne_nil rest)
    rw [hrest] at ih
    by_cases hc : c = '.'
    · rw [hc, splitDots, hrest, List.intercalate_cons_cons, ih]
      rfl
    · have hcons : splitDots (c :: rest) = (c :: part) :: more := by
        rw [splitDots]
        · simp only [hrest]
        · exact hc
      rw [hcons]
      cases more with
      | nil =>
        rw [← ih]
        rfl
      | cons next more =>
        rw [List.intercalate_cons_cons] at ih ⊢
        rw [← ih]
        rfl

/-- Different names have different paths. -/
theorem keysOf_injective : Function.Injective keysOf := by
  intro m n h
  have hpath : pathOf m = pathOf n :=
    List.map_injective_iff.2 (fun _ _ => Utf8.encodeChars_injective) h
  have hchars : m.toList = n.toList := by
    rw [← intercalate_splitDots m.toList, ← intercalate_splitDots n.toList]
    exact congrArg _ hpath
  exact String.toList_inj.1 hchars

/-- The place of a name: its path, without the steps from the globals to themselves. -/
def placeOf (n : String) : List Bytes := shorten (keysOf n)

/-- Different names with direct paths have different places. -/
theorem eq_of_placeOf_eq {m n : String} (hm : Direct (keysOf m)) (hn : Direct (keysOf n))
    (h : placeOf m = placeOf n) : m = n := by
  rw [placeOf, placeOf, shorten_of_direct hm, shorten_of_direct hn] at h
  exact keysOf_injective h

/-! ## Looking up names -/

/-- The value at a path of fields of a value, by the rules of indexing. -/
def lookupBelow (target : Value) : List Bytes → Program Value
  | [] => .done target
  | k :: rest => do
    let v ← Operation.index .library none target (.str k)
    lookupBelow v rest

/-- The value that a name leads to. -/
def lookup (n : String) : Program Value := lookupBelow (.table globalsAddress) (keysOf n)

/-- A name leads to a wrapper of the tool with this number. -/
def LeadsTo (s : Sandbox) (w : World) (n : String) (id : Nat) : Prop :=
  ∃ m, (s.perform (lookup n) w).1 = .ok (.tool m) ∧ (s.wrapped.getD m default).id = id

/-- What is at a place is a table, a tool or nothing. -/
def Settled (v : Value) : Prop := (∃ a, v = .table a) ∨ (∃ m, v = .tool m) ∨ v = .nil

/-- What is on the way to a place is tables, tools or nothing. -/
def Readable (h : Heap) (p : List Bytes) : Prop := ∀ q, q <+: p → Settled (valueAt h q)

section
variable {tools : Array Tool} {fuel : Nat} {h h' : Heap} {w w' : World} {v x : Value}
  {p q path : List Bytes} {m : Nat}

/-- Reading a path of settled values by the rules of indexing gives a tool exactly if the path leads
to it, if no table on the way has a metatable. -/
theorem gives_lookupBelow_iff
    (plain : ∀ scopes rest a, path = scopes ++ rest → rest ≠ [] → h.follow v scopes = .table a →
      (h.table a).metatable = none)
    (settled : ∀ q, q <+: path → Settled (h.follow v q)) :
    Gives tools fuel (lookupBelow v path) h w (.tool m) h' w' ↔
      h.follow v path = .tool m ∧ h' = h ∧ w' = w := by
  induction path generalizing v with
  | nil =>
    rw [lookupBelow, gives_done_iff, Heap.follow_nil, eq_comm]
  | cons k rest ih =>
    rw [lookupBelow, gives_bind_iff]
    simp only [gives_index_iff]
    rcases settled [] List.nil_prefix with ⟨a, ha⟩ | hv
    · obtain rfl : v = .table a := ha
      have hplain := plain [] (k :: rest) a rfl (List.cons_ne_nil _ _) rfl
      simp only [reads_field_iff_of_plain hplain, Heap.follow_cons, Heap.field_table]
      have next := @ih ((h.table a).getStr k)
        (fun scopes more b hrest hmore hb =>
          plain (k :: scopes) more b (by rw [hrest, List.cons_append]) hmore hb)
        fun q hq => settled (k :: q) (List.cons_prefix_cons.2 ⟨rfl, hq⟩)
      rw [← next]
      constructor
      · rintro ⟨x, h₁, w₁, ⟨rfl, rfl, rfl⟩, hg⟩
        exact hg
      · exact fun hg => ⟨_, _, _, ⟨rfl, rfl, rfl⟩, hg⟩
    · have hv : (∃ m, v = .tool m) ∨ v = .nil := hv
      have noTable : ∀ a, v ≠ .table a := by
        rintro a rfl
        rcases hv with ⟨m, hm⟩ | hm <;> cases hm
      have noHandler : metamethod h v "index" = .nil := by
        rcases hv with ⟨m, rfl⟩ | rfl <;> rfl
      rw [Heap.follow_of_not_table noTable (List.cons_ne_nil _ _)]
      refine iff_of_false ?_ nofun
      rintro ⟨x, h₁, w₁, hr, -⟩
      exact not_reads_of_plain noTable noHandler hr

/-- Looking a name up gives a tool exactly if one is at its place. -/
theorem gives_lookup_iff {n : String} (tree : Tree h) (readable : Readable h (placeOf n)) :
    Gives tools fuel (lookup n) h w (.tool m) h' w' ↔
      valueAt h (placeOf n) = .tool m ∧ h' = h ∧ w' = w := by
  rw [placeOf, tree.valueAt_shorten]
  refine gives_lookupBelow_iff (fun _ _ a _ _ _ => tree.bare a) fun q hq => ?_
  have hsettled := readable (shorten q) (shorten_mono hq)
  rwa [tree.valueAt_shorten] at hsettled

end

end ScriptAgent.Sandbox
