import ScriptAgent.Proofs.Sandbox.Execute
import ScriptAgent.Proofs.Script.Path

/-!
# Writing at a path without metatables

The host writes a value at the path of a name by programs on the heap. Where none of the tables on
the way has a metatable, this does to the heap what `place` does, and nothing else
(`Sandbox.perform_assign_plain`).

What holds of `place` is shown by its own recursion, which has five cases: there is no path, the
last field is stored, the path goes on through a table, it goes on nowhere and stops, and it goes on
in a new table.
-/

namespace ScriptAgent.Sandbox

open Script

/-- The heap after a new table has been put into a table. -/
def openScope (h : Heap) (a : Address) (scope : Bytes) : Heap :=
  (h.newTable Table.empty).2.modifyTable a (·.set (.str scope) (.table h.tables.size))

/-- The heap after a value has been written at a path below a table. -/
def place (missing : Missing) (x : Value) (h : Heap) (a : Address) : List Bytes → Heap
  | [] => h
  | [leaf] => h.modifyTable a (·.set (.str leaf) x)
  | scope :: name :: rest =>
    match (h.table a).getStr scope with
    | .table b => place missing x h b (name :: rest)
    | _ =>
      match missing with
      | .stop => h
      | .create => place missing x (openScope h a scope) h.tables.size (name :: rest)

section
variable {tools : Array Tool} {fuel : Nat} {missing : Missing} {x : Value} {h h' : Heap}
  {w w' : World} {a b : Address} {scope name : Bytes} {path rest : List Bytes} {s : Sandbox}

/-- A path that goes on through a table is written below that table. -/
theorem place_inside (hb : (h.table a).getStr scope = .table b) :
    place missing x h a (scope :: name :: rest) = place missing x h b (name :: rest) := by
  rw [place.eq_def]
  simp only [hb]

/-- A path that does not go on is not written if nothing is created. -/
theorem place_stopped (hv : ∀ b, (h.table a).getStr scope ≠ .table b) :
    place .stop x h a (scope :: name :: rest) = h := by
  rw [place]
  split
  · next b hb => exact absurd hb (hv b)
  · rfl

/-- A path that does not go on is written below a new table. -/
theorem place_created (hv : ∀ b, (h.table a).getStr scope ≠ .table b) :
    place .create x h a (scope :: name :: rest) =
      place .create x (openScope h a scope) h.tables.size (name :: rest) := by
  rw [place]
  split
  · next b hb => exact absurd hb (hv b)
  · rfl

/-- No table that a path goes through has a metatable: neither the one that it begins at nor one
that a part of it leads to. -/
def PlainAlong (h : Heap) (a : Address) (path : List Bytes) : Prop :=
  ∀ scopes rest b, path = scopes ++ rest → rest ≠ [] → h.follow (.table a) scopes = .table b →
    (h.table b).metatable = none

/-- The first table of a path has no metatable. -/
theorem PlainAlong.head (hp : PlainAlong h a (scope :: rest)) : (h.table a).metatable = none :=
  hp [] (scope :: rest) a rfl (List.cons_ne_nil _ _) rfl

/-- The rest of a path goes through tables without metatables too. -/
theorem PlainAlong.tail (hp : PlainAlong h a (scope :: rest))
    (hb : (h.table a).getStr scope = .table b) : PlainAlong h b rest := by
  intro scopes more c hrest hmore hc
  refine hp (scope :: scopes) more c (by rw [hrest, List.cons_append]) hmore ?_
  rwa [Heap.follow_cons, Heap.field_table, hb]

/-- Reading a field of a table without a metatable gives what is there, and nothing else. -/
theorem reads_field_iff_of_plain (plain : (h.table a).metatable = none) {k : Bytes} {v : Value} :
    Reads tools fuel (.str k) Operation.maxChain h w (.table a) v h' w' ↔
      v = (h.table a).getStr k ∧ h' = h ∧ w' = w := by
  by_cases found : (h.table a).getStr k = .nil
  · rw [found]
    exact reads_absent_iff found (metamethod_of_plain plain _)
  · exact reads_found_iff found

/-- A new table has no metatable. -/
theorem plain_openScope (h : Heap) (a : Address) (scope : Bytes) :
    ((openScope h a scope).table h.tables.size).metatable = none := by
  rw [openScope, Heap.metatable_modifyTable_set, Heap.table_newTable_self]
  rfl

/-- A new table has no fields, unless it is put into itself. -/
theorem field_openScope (h : Heap) (a : Address) (scope k : Bytes) :
    ((openScope h a scope).table h.tables.size).getStr k = .table h.tables.size ∨
      ((openScope h a scope).table h.tables.size).getStr k = .nil := by
  by_cases ha : a = h.tables.size
  · have hlt : h.tables.size < (h.newTable Table.empty).2.tables.size := by
      rw [Heap.size_newTable]; exact Nat.lt_succ_self _
    rw [openScope, ha, Heap.table_modifyTable_self hlt, Heap.table_newTable_self, Table.getStr,
      Table.get_set]
    split
    · exact .inl rfl
    · exact .inr (Table.get_empty _)
  · rw [openScope, Heap.table_modifyTable_ne ha, Heap.table_newTable_self]
    exact .inr (Table.get_empty _)

/-- A new table leads to nothing, or to itself. -/
theorem follow_openScope (h : Heap) (a : Address) (scope : Bytes) (p : List Bytes) :
    (openScope h a scope).follow (.table h.tables.size) p = .table h.tables.size ∨
      (openScope h a scope).follow (.table h.tables.size) p = .nil := by
  induction p with
  | nil => exact .inl rfl
  | cons k p ih =>
    rw [Heap.follow_cons, Heap.field_table]
    rcases field_openScope h a scope k with hk | hk
    · rw [hk]
      exact ih
    · rw [hk]
      by_cases hp : p = []
      · exact .inr (by rw [hp]; rfl)
      · exact .inr (Heap.follow_of_not_table nofun hp)

/-- A new table that is put into one of before leads to nothing. -/
theorem follow_openScope_of_lt (ha : a < h.tables.size) (hp : path ≠ []) :
    (openScope h a scope).follow (.table h.tables.size) path = .nil := by
  obtain ⟨k, rest, rfl⟩ := List.exists_cons_of_ne_nil hp
  have hnil : ((openScope h a scope).table h.tables.size).getStr k = .nil := by
    rw [openScope, Heap.table_modifyTable_ne (Nat.ne_of_lt ha), Heap.table_newTable_self]
    exact Table.get_empty _
  rw [Heap.follow_cons, Heap.field_table, hnil]
  by_cases hrest : rest = []
  · rw [hrest]
    rfl
  · exact Heap.follow_of_not_table nofun hrest

/-- The first field of a path is read as what is there. -/
theorem PlainAlong.reads (hp : PlainAlong h a (scope :: rest)) :
    Reads tools fuel (.str scope) Operation.maxChain h w (.table a) ((h.table a).getStr scope)
      h w :=
  (reads_field_iff_of_plain hp.head).2 ⟨rfl, rfl, rfl⟩

/-- Where no table on the way has a metatable, writing at a path succeeds, and places the value. -/
theorem assigns_place (plain : PlainAlong h a path) :
    Assigns tools fuel missing x h w (.table a) path (place missing x h a path) w := by
  fun_induction place missing x h a path with
  | case1 => exact .here
  | case2 h a leaf => exact .leaf (writes_of_plain plain.head leaf x w)
  | case3 h a scope name rest b hb ih => exact .inside (hb ▸ plain.reads) (ih (plain.tail hb))
  | case4 h a scope name rest stop noTable => exact .stopped stop plain.reads noTable
  | case5 h a scope name rest create noTable ih =>
    cases create
    refine .created rfl plain.reads noTable (writes_of_plain ?_ scope (.table h.tables.size) w)
      (ih fun scopes more c _ _ hc => ?_)
    · rw [Heap.table_newTable_empty]
      exact plain.head
    · rcases follow_openScope h a scope scopes with hf | hf
      · cases hf.symm.trans hc
        exact plain_openScope h a scope
      · cases hf.symm.trans hc

/-- Where no table on the way has a metatable, the host writes at the path of a name by placing the
value. -/
theorem perform_assign_plain {n : String} (plain : PlainAlong s.heap globalsAddress (keysOf n)) :
    s.perform (assign missing n x) w =
      (.ok (), { s with heap := place missing x s.heap globalsAddress (keysOf n) }, w) :=
  perform_assign_iff.2 ⟨_, assigns_place plain, rfl⟩

end

end ScriptAgent.Sandbox
