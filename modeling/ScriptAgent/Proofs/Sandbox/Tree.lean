import ScriptAgent.Proofs.Sandbox.Scopes

/-!
# The tree of names

Names of tools are paths below the globals. Where no table has a metatable and each table is found
at one path only, apart from the globals, which contain themselves, the tables on these paths are a
tree (`Tree`). A fresh heap is one (`tree_initial`).

In a tree, writing at a path has an effect there, below it and above it, and nowhere else
(`Tree.place_create`, `Tree.place_stop`).
-/

namespace ScriptAgent.Sandbox

open Script

/-! ## Paths -/

/-- The name under which the globals contain themselves. -/
def selfName : Bytes := Bytes.ofAscii "_G"

/-- A path does not begin with a step from the globals to themselves. -/
def Direct (p : List Bytes) : Prop := p.head? ≠ some selfName

instance (p : List Bytes) : Decidable (Direct p) := inferInstanceAs (Decidable (_ ≠ _))

/-- A path without the steps from the globals to themselves. -/
def shorten (p : List Bytes) : List Bytes := p.dropWhile (· = selfName)

section
variable {h h' : Heap} {a b : Address} {k : Bytes} {x v : Value} {p q f scopes rest : List Bytes}
  {missing : Missing}

theorem direct_nil : Direct [] := nofun

@[simp] theorem shorten_self (p : List Bytes) : shorten (selfName :: p) = shorten p :=
  List.dropWhile_cons_of_pos (by simp)

@[simp] theorem shorten_cons (hk : k ≠ selfName) (p : List Bytes) : shorten (k :: p) = k :: p :=
  List.dropWhile_cons_of_neg (by simpa using hk)

theorem direct_shorten (p : List Bytes) : Direct (shorten p) := by
  induction p with
  | nil => exact nofun
  | cons k p ih =>
    by_cases hk : k = selfName
    · rwa [hk, shorten_self]
    · rw [shorten_cons hk]
      exact fun he => hk (Option.some.inj he)

/-- There is nothing to leave out of a direct path. -/
theorem shorten_of_direct (hp : Direct p) : shorten p = p := by
  cases p with
  | nil => rfl
  | cons k p => exact shorten_cons (fun hk => hp (congrArg some hk)) p

/-- A path that begins another one still does when both are shortened. -/
theorem shorten_mono (hp : p <+: q) : shorten p <+: shorten q := by
  obtain ⟨r, rfl⟩ := hp
  induction p with
  | nil => exact List.nil_prefix
  | cons k p ih =>
    rw [List.cons_append]
    by_cases hk : k = selfName
    · rwa [hk, shorten_self, shorten_self]
    · rw [shorten_cons hk, shorten_cons hk]
      exact List.prefix_append _ _

/-- A path that begins a direct one is direct. -/
theorem Direct.of_start (hp : Direct p) (hq : q <+: p) : Direct q := by
  obtain ⟨r, rfl⟩ := hq
  cases q with
  | nil => exact direct_nil
  | cons k q => exact hp

/-- Everything that a direct path begins with is direct. -/
theorem Direct.below (hp : Direct p) : Below Direct p := fun _ hq _ => hp.of_start hq

/-- The first part of a direct path is direct. -/
theorem Direct.left (hp : Direct (p ++ q)) : Direct p := hp.of_start (List.prefix_append p q)

/-! ## Trees -/

/-- The tables below the globals are a tree: no table has a metatable, the globals contain
themselves, and no other table is at two paths. -/
structure Tree (h : Heap) : Prop where
  bare : Bare h
  inside : ∀ p a, Direct p → valueAt h p = .table a → a < h.tables.size
  itself : (h.table globalsAddress).getStr selfName = .table globalsAddress
  apart : ∀ p q a, Direct p → Direct q → valueAt h p = .table a → valueAt h q = .table a → p = q

/-- The steps from the globals to themselves can be left out of a path. -/
theorem Tree.valueAt_shorten (tree : Tree h) (p : List Bytes) :
    valueAt h (shorten p) = valueAt h p := by
  induction p with
  | nil => rfl
  | cons k p ih =>
    by_cases hk : k = selfName
    · rw [hk, shorten_self, ih, valueAt, valueAt, Heap.follow_cons, Heap.field_table, tree.itself]
    · rw [shorten_cons hk]

/-- The steps from the globals to themselves can be left out of a path that is written. -/
theorem Tree.place_shorten (tree : Tree h) (hp : shorten p ≠ []) :
    place missing x h globalsAddress p = place missing x h globalsAddress (shorten p) := by
  induction p with
  | nil => rfl
  | cons k p ih =>
    by_cases hk : k = selfName
    · rw [hk, shorten_self] at hp ⊢
      cases p with
      | nil => exact absurd rfl hp
      | cons j p => rw [place_inside tree.itself, ih hp]
    · rw [shorten_cons hk]

/-- In a tree, the scopes of a name with a direct path are clear. -/
theorem Tree.scopesClear {n : String} (tree : Tree h) (hn : Direct (keysOf n)) :
    ScopesClear h n := by
  intro scopes rest a hkeys hs _ ha
  rw [hkeys] at hn
  refine ⟨?_, tree.bare a⟩
  rintro rfl
  exact hs (tree.apart _ _ _ hn.left direct_nil ha rfl)

/-- The tables of a tree are separate at direct paths. -/
theorem Tree.separate (tree : Tree h) : Separate Direct h where
  closed _ hp := hp.below
  inside := tree.inside
  apart := tree.apart

/-- A heap with separate tables is a tree if it has the metatables of a tree and the globals in
themselves. -/
theorem Tree.keep (tree : Tree h) (sep : Separate Direct h')
    (metatable : ∀ b, (h'.table b).metatable = (h.table b).metatable)
    (itself : valueAt h' [selfName] = valueAt h [selfName]) : Tree h' where
  bare b := (metatable b).trans (tree.bare b)
  inside := sep.inside
  itself := itself.trans tree.itself
  apart := sep.apart

/-! ## Writing at a path -/

/-- A value that leads nowhere has been written at a path: it is there, with nothing below it and
with tables above it, and nothing else has changed. -/
structure Placed (x : Value) (f : List Bytes) (h h' : Heap) : Prop where
  here : valueAt h' f = x
  below : ∀ p, Direct p → f <+: p → p ≠ f → valueAt h' p = .nil
  above : ∀ p, p <+: f → p ≠ f → ∃ b, valueAt h' p = .table b
  other : ∀ p, Direct p → Apart f p → valueAt h' p = valueAt h p

/-- At a path other than that of a value that has been placed, there is a table or nothing, or the
value of before where the paths are apart. -/
theorem Placed.cases (placed : Placed x f h h') (hp : Direct p) (hne : p ≠ f) :
    (∃ a, valueAt h' p = .table a) ∨ valueAt h' p = .nil ∨
      Apart f p ∧ valueAt h' p = valueAt h p := by
  by_cases hbelow : f <+: p
  · exact .inr (.inl (placed.below p hp hbelow hne))
  · by_cases habove : p <+: f
    · exact .inl (placed.above p habove hne)
    · exact .inr (.inr ⟨⟨hbelow, habove⟩, placed.other p hp ⟨hbelow, habove⟩⟩)

/-- A direct path and the name of the globals in themselves are apart. -/
theorem Direct.apart_self (hf : Direct f) (hne : f ≠ []) : Apart f [selfName] := by
  obtain ⟨k, rest, rfl⟩ := List.exists_cons_of_ne_nil hne
  have hk : k ≠ selfName := fun hk => hf (congrArg some hk)
  exact ⟨fun hle => hk (List.cons_prefix_cons.1 hle).1,
    fun hle => hk (List.cons_prefix_cons.1 hle).1.symm⟩

theorem below_self : Below Direct [selfName] := fun q hq hne => by
  obtain rfl := (List.prefix_concat_iff.1 hq).resolve_left hne |> List.prefix_nil.1
  exact direct_nil

/-- Writing a value that is no table below a table of a tree, with the tables on the way, places it
and keeps a tree. -/
theorem Tree.place_create (tree : Tree h) (hx : ∀ a, x ≠ .table a) (hne : p ≠ [])
    (ha : valueAt h scopes = .table a) (hp : Direct (scopes ++ p)) :
    Tree (place .create x h a p) ∧ Placed x (scopes ++ p) h (place .create x h a p) := by
  obtain ⟨sep, written⟩ := tree.separate.place_create hx hne ha hp.below
  have hgrown := (Grown.refl h).place (fun b hb => absurd hb (hx b)) .create a p
  have hself := hp.apart_self (List.append_ne_nil_of_right_ne_nil _ hne)
  exact ⟨tree.keep sep hgrown.metatable (written.other _ below_self hself),
    ⟨written.here, fun q _ => written.below q, written.above,
      fun q hq => written.other q hq.below⟩⟩

/-- Removing the value at a path below a table of a tree removes it and everything below it, and
keeps a tree. -/
theorem Tree.place_stop (tree : Tree h) (hne : p ≠ []) (ha : valueAt h scopes = .table a)
    (hp : Direct (scopes ++ p)) :
    Tree (place .stop .nil h a p) ∧
    ∀ q, Direct q → valueAt (place .stop .nil h a p) q =
      if scopes ++ p <+: q then .nil else valueAt h q := by
  obtain ⟨sep, removed⟩ := tree.separate.place_stop hne ha hp.below
  have hgrown := (Grown.refl h).place (x := .nil) (fun b hb => nomatch hb) .stop a p
  have hself := (hp.apart_self (List.append_ne_nil_of_right_ne_nil _ hne)).1
  refine ⟨tree.keep sep hgrown.metatable ?_, fun q hq => removed q hq.below⟩
  rw [removed _ below_self, if_neg hself]

end

/-! ## A fresh heap -/

/-- Nothing in a fresh heap has a metatable. -/
theorem bare_initial : Bare Heap.initial := by
  have hall : ∀ t ∈ Heap.initial.tables.toList, t.metatable = none := by
    intro t ht
    have ht : t ∈ globalsTable :: (libraryNames.map fun name =>
        Table.ofFields (functionsUnder name ++ constantsUnder name)) ++ [stringMetatable] := ht
    simp only [List.cons_append, List.mem_cons, List.mem_append, List.mem_map, List.not_mem_nil,
      or_false] at ht
    rcases ht with ht | ⟨n, -, ht⟩ | ht
    · exact (congrArg Table.metatable ht).trans (Table.metatable_ofFields _)
    · exact ht ▸ Table.metatable_ofFields _
    · exact (congrArg Table.metatable ht).trans (Table.metatable_ofFields _)
  intro a
  by_cases ha : a < Heap.initial.tables.size
  · have hget : Heap.initial.table a = Heap.initial.tables[a] := by
      simp [Heap.table, Array.getD_eq_getD_getElem?, ha]
    rw [hget]
    exact hall _ (Array.mem_toList_iff.2 (Array.getElem_mem ha))
  · rw [Heap.table_of_le (Nat.le_of_not_lt ha)]
    rfl

/-- A fresh heap has the globals and the tables of the library in its tree, and no tool. -/
theorem valueAt_initial {p : List Bytes} (hp : Direct p) :
    (valueAt Heap.initial p).Inert ∨
    p = [] ∨
    ∃ n ∈ libraryNames, p = [Bytes.ofAscii n] ∧
      valueAt Heap.initial p = .table (libraryAddress n) := by
  rcases p with _ | ⟨k, p⟩
  · exact .inr (.inl rfl)
  rw [valueAt, Heap.follow_cons, Heap.field_table, Heap.table_initial_globals]
  rcases getStr_globalsTable k with hk | ⟨n, hn, rfl, hk⟩ | ⟨rfl, -⟩
  · rcases p with _ | ⟨j, p⟩
    · exact .inl hk
    · rw [Heap.follow_of_not_table hk.1 (List.cons_ne_nil _ _)]
      exact .inl ⟨nofun, nofun⟩
  · rw [hk]
    rcases p with _ | ⟨j, p⟩
    · exact .inr (.inr ⟨n, hn, rfl, rfl⟩)
    · have hj := Heap.inert_getStr_library hn j
      rw [Heap.follow_cons, Heap.field_table]
      rcases p with _ | ⟨i, p⟩
      · exact .inl hj
      · rw [Heap.follow_of_not_table hj.1 (List.cons_ne_nil _ _)]
        exact .inl ⟨nofun, nofun⟩
  · exact absurd rfl hp

/-- The tables of the library are apart from one another and from the globals. -/
theorem libraryAddress_inj {m n : String} (hm : m ∈ libraryNames)
    (h : libraryAddress m = libraryAddress n) : m = n :=
  (List.idxOf_inj hm).1 (Nat.succ.inj h)

/-- A fresh heap is a tree. -/
theorem tree_initial : Tree Heap.initial where
  bare := bare_initial
  inside p a hp ha := by
    rcases valueAt_initial hp with hi | rfl | ⟨n, hn, -, hv⟩
    · exact absurd ha (hi.1 a)
    · cases ha
      exact Nat.succ_pos _
    · obtain rfl := Value.table.inj (hv.symm.trans ha)
      have hidx : libraryNames.idxOf n < 7 := List.idxOf_lt_length_iff.2 hn
      exact Nat.lt_succ_of_lt (Nat.succ_lt_succ hidx)
  itself := by
    rw [Heap.table_initial_globals, globalsTable, Table.ofFields_eq, List.map_append, List.map_cons,
      List.map_cons]
    exact Table.get_setAll_last (by decide)
  apart p q a hp hq ha hb := by
    rcases valueAt_initial hp with hi | rfl | ⟨m, hm, rfl, hvm⟩
    · exact absurd ha (hi.1 a)
    · rcases valueAt_initial hq with hi | rfl | ⟨n, hn, rfl, hvn⟩
      · exact absurd hb (hi.1 a)
      · rfl
      · cases ha
        cases hvn.symm.trans hb
    · rcases valueAt_initial hq with hi | rfl | ⟨n, hn, rfl, hvn⟩
      · exact absurd hb (hi.1 a)
      · cases hb
        cases hvm.symm.trans ha
      · have hmn := Value.table.inj ((hvm.symm.trans ha).trans (hb.symm.trans hvn))
        rw [libraryAddress_inj hm hmn]

end ScriptAgent.Sandbox
