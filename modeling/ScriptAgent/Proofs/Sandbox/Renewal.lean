import ScriptAgent.Proofs.Sandbox.Wrappers

/-!
# Binding the same tools again

A map of tools is bound twice in a row. A name that begins another one takes the place of the
other's scope, so the scope is made anew each time: afterwards it is another table. Otherwise
nothing changes. This is stated by relating the tables of the first heap to those of the second one
(`Renewed`): a table that is a scope of a name to the one that is this scope then, and every other
table to itself. Related tables have the same fields, up to related tables again (`Renews`).

The scopes have to be tables of their own, that is in no two places
(`Sandbox.wrappers_and_rebinding`). A name that leads through the globals' own name has the globals
as a scope, so binding it takes them out of the place where they are found when it is bound again
(`Sandbox.rebinding_differs`).
-/

namespace ScriptAgent.Sandbox

open Script

/-! ## Writing the wrappers of tools -/

/-- Writes tools at the paths of their names, one after the other. -/
def placeTools : List (String × Nat) → Heap → Heap
  | [], h => h
  | (n, m) :: rest, h => placeTools rest (place .create (.tool m) h globalsAddress (keysOf n))

/-- The number of the wrapper that is bound under a name. -/
def wrapperOf (s : Sandbox) (n : String) : Nat :=
  match s.binding? n with
  | some b => b.wrapper
  | none => 0

/-- The names of tools with the wrappers that are bound under them. -/
def seats (tools : ToolMap) (s : Sandbox) : List (String × Nat) :=
  tools.map fun e => (e.1, s.wrapperOf e.1)

section
variable {s : Sandbox} {tools : ToolMap}

/-- Putting tools behind names writes the wrappers that are bound under them afterwards. -/
theorem heap_withTools (nodup : (tools.map Prod.fst).Nodup) :
    (withTools tools s).heap = placeTools (seats tools (withTools tools s)) s.heap := by
  induction tools generalizing s with
  | nil => rfl
  | cons e rest ih =>
    obtain ⟨n, tool⟩ := e
    rw [List.map_cons, List.nodup_cons] at nodup
    obtain ⟨b, hb, -, hwrapper⟩ := binding?_wrap_self s n tool
    have hseat : (withTools rest (s.withTool n tool)).wrapperOf n = (s.wrap n tool).1 := by
      have hlast : (withTools rest (s.withTool n tool)).binding? n = some b :=
        (binding?_withTools nodup.1).trans hb
      rw [wrapperOf, hlast]
      exact hwrapper
    rw [withTools, seats, List.map_cons, placeTools, hseat]
    exact ih nodup.2

/-- Tools that are bound under their names are put there again by writing their wrappers. -/
theorem withTools_of_bound (bound : ∀ e ∈ tools, s.boundId e.1 = some e.2.id) (h : Heap) :
    withTools tools { s with heap := h } = { s with heap := placeTools (seats tools s) h } := by
  induction tools generalizing h with
  | nil => rfl
  | cons e rest ih =>
    obtain ⟨n, tool⟩ := e
    obtain ⟨b, hb, hid⟩ := Option.map_eq_some_iff.1 (bound (n, tool) List.mem_cons_self)
    have hfirst : ({ s with heap := h } : Sandbox).withTool n tool =
        { s with heap := place .create (.tool b.wrapper) h globalsAddress (keysOf n) } := by
      rw [withTool, wrap_heap s h n tool, wrap_of_bound hb hid]
    have hseat : s.wrapperOf n = b.wrapper := by rw [wrapperOf, hb]
    have hseats : seats ((n, tool) :: rest) s = (n, b.wrapper) :: seats rest s := by
      rw [seats, List.map_cons, hseat]
      rfl
    rw [withTools, hfirst, ih fun e he => bound e (List.mem_cons_of_mem _ he), hseats, placeTools]

end

section
variable {names : List String} {es : List (String × Nat)} {h g : Heap} {n : String} {m : Nat}
  {p q : List Bytes} {a b : Address} {j : Key}

theorem grown_placeTools (es : List (String × Nat)) (h : Heap) : Grown h (placeTools es h) := by
  induction es generalizing h with
  | nil => exact .refl h
  | cons e rest ih =>
    obtain ⟨n, m⟩ := e
    exact (grown_place (x := .tool m) nofun .create h (keysOf n)).trans (ih _)

/-- A tool that is written at the path of a name is there, and the scopes stay separate. -/
theorem Separate.placeTool (sep : Separate (IsScope names) h) (hn : n ∈ names) (m : Nat) :
    Separate (IsScope names) (place .create (.tool m) h globalsAddress (keysOf n)) ∧
    Written (IsScope names) (.tool m) (keysOf n) h
      (place .create (.tool m) h globalsAddress (keysOf n)) := by
  have root : valueAt h [] = .table globalsAddress := rfl
  exact sep.place_create (x := .tool m) nofun (keysOf_ne_nil n) root (below_keysOf hn)

theorem Separate.placeTools (sep : Separate (IsScope names) h) (hsub : ∀ e ∈ es, e.1 ∈ names) :
    Separate (IsScope names) (placeTools es h) := by
  induction es generalizing h with
  | nil => exact sep
  | cons e rest ih =>
    obtain ⟨n, m⟩ := e
    exact ih (sep.placeTool (hsub (n, m) List.mem_cons_self) m).1
      fun e he => hsub e (List.mem_cons_of_mem _ he)

/-- A path that no name touches leads to what it has led to. -/
theorem Separate.valueAt_placeTools (sep : Separate (IsScope names) h)
    (hsub : ∀ e ∈ es, e.1 ∈ names) (hq : Below (IsScope names) q)
    (apart : ∀ e ∈ es, Apart (keysOf e.1) q) :
    valueAt (Sandbox.placeTools es h) q = valueAt h q := by
  induction es generalizing h with
  | nil => rfl
  | cons e rest ih =>
    obtain ⟨n, m⟩ := e
    obtain ⟨sep', written⟩ := sep.placeTool (hsub (n, m) List.mem_cons_self) m
    rw [Sandbox.placeTools, ih sep' (fun e he => hsub e (List.mem_cons_of_mem _ he)) fun e he =>
      apart e (List.mem_cons_of_mem _ he)]
    exact written.other q hq (apart (n, m) List.mem_cons_self)

/-- A scope that no name begins stays the table that it is. -/
theorem Separate.scope_placeTools (sep : Separate (IsScope names) h)
    (hsub : ∀ e ∈ es, e.1 ∈ names) (hp : IsScope names p) (clear : ∀ e ∈ es, ¬ keysOf e.1 <+: p)
    (ha : valueAt h p = .table a) : valueAt (Sandbox.placeTools es h) p = .table a := by
  induction es generalizing h with
  | nil => exact ha
  | cons e rest ih =>
    obtain ⟨n, m⟩ := e
    obtain ⟨sep', written⟩ := sep.placeTool (hsub (n, m) List.mem_cons_self) m
    have hclear : ¬ keysOf n <+: p := clear (n, m) List.mem_cons_self
    refine ih sep' (fun e he => hsub e (List.mem_cons_of_mem _ he))
      (fun e he => clear e (List.mem_cons_of_mem _ he)) ?_
    by_cases hle : p <+: keysOf n
    · exact written.scopes p a hle (fun he => hclear (he ▸ List.prefix_refl _)) ha
    · exact (written.other p (below_scope hp) ⟨hclear, hle⟩).trans ha

/-- A scope that a name begins is made anew. -/
theorem Separate.fresh_placeTools (sep : Separate (IsScope names) h)
    (hsub : ∀ e ∈ es, e.1 ∈ names) (covered : ∃ e ∈ es, keysOf e.1 <+: p)
    (ha : valueAt (Sandbox.placeTools es h) p = .table a) : h.tables.size ≤ a := by
  induction es generalizing h with
  | nil =>
    obtain ⟨e, he, -⟩ := covered
    cases he
  | cons e rest ih =>
    obtain ⟨n, m⟩ := e
    obtain ⟨sep', written⟩ := sep.placeTool (hsub (n, m) List.mem_cons_self) m
    have hsize := (grown_place (x := .tool m) nofun .create h (keysOf n)).size
    refine Nat.le_trans hsize ?_
    obtain ⟨e, he, hle⟩ := covered
    rcases List.mem_cons.1 he with rfl | he
    · -- the name has taken the place of the scope, so what is there later is new
      have noTable : ∀ b, valueAt (place .create (.tool m) h globalsAddress (keysOf n)) p ≠
          .table b := by
        intro b hb
        by_cases hpn : p = keysOf n
        · cases written.here.symm.trans (hpn ▸ hb)
        · cases (written.below p hle hpn).symm.trans hb
      by_contra hlt
      exact noTable a ((grown_placeTools rest _).valueAt_before ha (Nat.lt_of_not_le hlt))
    · exact ih sep' (fun e he => hsub e (List.mem_cons_of_mem _ he)) ⟨e, he, hle⟩ ha

/-- A table that is a scope in the end has changed in fields on the paths of names only. -/
theorem Separate.get_placeTools (sep : Separate (IsScope names) h) (hsub : ∀ e ∈ es, e.1 ∈ names)
    (hp : IsScope names p) (hb : valueAt (Sandbox.placeTools es h) p = .table b) :
    ((Sandbox.placeTools es h).table b).get j = (h.table b).get j ∨
      ∃ n ∈ names, ∃ k rest, keysOf n = p ++ k :: rest ∧ j = .str k := by
  induction es generalizing h with
  | nil => exact .inl rfl
  | cons e rest ih =>
    obtain ⟨n, m⟩ := e
    have hn : n ∈ names := hsub (n, m) List.mem_cons_self
    obtain ⟨sep', written⟩ := sep.placeTool hn m
    rcases ih sep' (fun e he => hsub e (List.mem_cons_of_mem _ he)) hb with hsame | hon
    · rcases written.fields b j with hfirst | ⟨q, k, more, hpath, htable, hj⟩
      · exact .inl (hsame.trans hfirst)
      · -- the table has been at one scope only
        have hq : IsScope names q := isScope_of_path hn hpath
        have hbefore := (grown_placeTools rest _).valueAt_before hb (sep'.inside q b hq htable)
        obtain rfl := sep'.apart p q b hp hq hbefore htable
        exact .inr ⟨n, hn, k, more, hpath, hj⟩
    · exact .inr hon

/-- A table of before that is at no scope does not change. -/
theorem Separate.table_placeTools (sep : Separate (IsScope names) h)
    (hsub : ∀ e ∈ es, e.1 ∈ names) (hlt : a < h.tables.size)
    (nowhere : ∀ p, IsScope names p → valueAt h p ≠ .table a) :
    ((Sandbox.placeTools es h).table a).get j = (h.table a).get j := by
  induction es generalizing h with
  | nil => rfl
  | cons e rest ih =>
    obtain ⟨n, m⟩ := e
    have hn : n ∈ names := hsub (n, m) List.mem_cons_self
    obtain ⟨sep', written⟩ := sep.placeTool hn m
    have hg := grown_place (x := .tool m) nofun .create h (keysOf n)
    have nowhere' : ∀ p, IsScope names p →
        valueAt (place .create (.tool m) h globalsAddress (keysOf n)) p ≠ .table a :=
      fun p hp ha => nowhere p hp (hg.valueAt_before ha hlt)
    refine (ih sep' (fun e he => hsub e (List.mem_cons_of_mem _ he))
      (Nat.lt_of_lt_of_le hlt hg.size) nowhere').trans ?_
    rcases written.fields a j with hsame | ⟨q, k, more, hpath, htable, -⟩
    · exact hsame
    · exact absurd htable (nowhere' q (isScope_of_path hn hpath))

/-- Two values at a path are the same, and no tables, or both are tables and the path is a scope. -/
def SameShape (names : List String) (q : List Bytes) (v x : Value) : Prop :=
  (v = x ∧ ∀ a, v ≠ .table a) ∨ (IsScope names q ∧ (∃ a, v = .table a) ∧ ∃ b, x = .table b)

/-- What the paths that names touch lead to has the same shape after the same names have been
written, whatever was there before. The last name that touches a path decides it. -/
theorem Separate.sameShape (seph : Separate (IsScope names) h) (sepg : Separate (IsScope names) g)
    (hsub : ∀ e ∈ es, e.1 ∈ names) (hq : Below (IsScope names) q)
    (touched : ∃ e ∈ es, ¬ Apart (keysOf e.1) q) :
    SameShape names q (valueAt (Sandbox.placeTools es h) q)
      (valueAt (Sandbox.placeTools es g) q) := by
  induction es generalizing h g with
  | nil =>
    obtain ⟨e, he, -⟩ := touched
    cases he
  | cons e rest ih =>
    obtain ⟨n, m⟩ := e
    have hn : n ∈ names := hsub (n, m) List.mem_cons_self
    have hsub' : ∀ e ∈ rest, e.1 ∈ names := fun e he => hsub e (List.mem_cons_of_mem _ he)
    obtain ⟨seph', writtenh⟩ := seph.placeTool hn m
    obtain ⟨sepg', writteng⟩ := sepg.placeTool hn m
    by_cases later : ∃ e ∈ rest, ¬ Apart (keysOf e.1) q
    · exact ih seph' sepg' hsub' later
    have apart : ∀ e ∈ rest, Apart (keysOf e.1) q := fun e he => by
      by_contra hnot
      exact later ⟨e, he, hnot⟩
    have hnot : ¬ Apart (keysOf n) q := by
      obtain ⟨e, he, hnot⟩ := touched
      rcases List.mem_cons.1 he with rfl | he
      · exact hnot
      · exact absurd (apart e he) hnot
    rw [Sandbox.placeTools, Sandbox.placeTools, seph'.valueAt_placeTools hsub' hq apart,
      sepg'.valueAt_placeTools hsub' hq apart]
    by_cases hle : keysOf n <+: q
    · by_cases he : q = keysOf n
      · subst he
        exact .inl ⟨writtenh.here.trans writteng.here.symm, fun a ha => by
          cases writtenh.here.symm.trans ha⟩
      · exact .inl ⟨(writtenh.below q hle he).trans (writteng.below q hle he).symm, fun a ha => by
          cases (writtenh.below q hle he).symm.trans ha⟩
    · have hle' : q <+: keysOf n := by
        by_contra hle'
        exact hnot ⟨hle, hle'⟩
      have hne : q ≠ keysOf n := fun he => hle (he ▸ List.prefix_refl _)
      exact .inr ⟨below_keysOf hn q hle' hne, writtenh.above q hle' hne, writteng.above q hle' hne⟩

end

/-! ## Where tables are held -/

/-- No table refers to a table that the heap does not have. -/
structure NoDangling (h : Heap) : Prop where
  fields : ∀ a j b, (h.table a).get j = .table b → b < h.tables.size
  metatables : ∀ a m, (h.table a).metatable = some m → m < h.tables.size

/-- Every table that is held is in the heap, and the ones from a number on are held once. -/
structure HeldOnce (n : Nat) (h : Heap) : Prop where
  inside : ∀ a j b, (h.table a).get j = .table b → b < h.tables.size
  once : ∀ a a' j j' b, n ≤ b → (h.table a).get j = .table b → (h.table a').get j' = .table b →
    a = a' ∧ j = j'

section
variable {h : Heap} {n : Nat} {a : Address} {k : Bytes} {x : Value} {path : List Bytes}

/-- Without dangling references, no table beyond the heap is held. -/
theorem NoDangling.heldOnce (dangling : NoDangling h) : HeldOnce h.tables.size h where
  inside := dangling.fields
  once a _ j _ b hb hj _ := absurd (dangling.fields a j b hj) (Nat.not_lt_of_le hb)

/-- Storing what is no table keeps tables held once. -/
theorem HeldOnce.set (held : HeldOnce n h) (hx : ∀ b, x ≠ .table b) (a : Address) (k : Bytes) :
    HeldOnce n (h.modifyTable a (·.set (.str k) x)) := by
  have before : ∀ {c j b}, ((h.modifyTable a (·.set (.str k) x)).table c).get j = .table b →
      (h.table c).get j = .table b := fun {c j b} hb => by
    rw [Heap.get_modifyTable_set] at hb
    split at hb
    · exact absurd hb (hx b)
    · exact hb
  refine ⟨fun c j b hb => ?_, fun c c' j j' b hn hb hb' => held.once c c' j j' b hn (before hb)
    (before hb')⟩
  rw [Heap.size_modifyTable]
  exact held.inside c j b (before hb)

/-- A new scope is held once. -/
theorem HeldOnce.openScope (held : HeldOnce n h) (a : Address) (k : Bytes) :
    HeldOnce n (openScope h a k) := by
  have hsize : (Sandbox.openScope h a k).tables.size = h.tables.size + 1 := by
    rw [Sandbox.openScope, Heap.size_modifyTable, Heap.size_newTable]
  have before : ∀ {c j b}, ((Sandbox.openScope h a k).table c).get j = .table b →
      c = a ∧ j = .str k ∧ b = h.tables.size ∨ (h.table c).get j = .table b := fun {c j b} hb => by
    rw [Sandbox.openScope, Heap.get_modifyTable_set] at hb
    split at hb
    · next heq => exact .inl ⟨heq.2.1.symm, heq.2.2.symm, (Value.table.inj hb).symm⟩
    · rw [Heap.table_newTable_empty] at hb
      exact .inr hb
  refine ⟨fun c j b hb => ?_, fun c c' j j' b hn hb hb' => ?_⟩
  · rw [hsize]
    rcases before hb with ⟨-, -, rfl⟩ | hb
    · exact Nat.lt_succ_self _
    · exact Nat.lt_succ_of_lt (held.inside c j b hb)
  · rcases before hb with ⟨rfl, rfl, rfl⟩ | hold
    · rcases before hb' with ⟨rfl, rfl, -⟩ | hold'
      · exact ⟨rfl, rfl⟩
      · exact absurd (held.inside c' j' _ hold') (Nat.lt_irrefl _)
    · rcases before hb' with ⟨rfl, rfl, rfl⟩ | hold'
      · exact absurd (held.inside c j _ hold) (Nat.lt_irrefl _)
      · exact held.once c c' j j' b hn hold hold'

/-- Placing what is no table keeps tables held once. -/
theorem HeldOnce.place (held : HeldOnce n h) (hx : ∀ b, x ≠ .table b) (missing : Missing)
    (a : Address) (path : List Bytes) : HeldOnce n (place missing x h a path) := by
  fun_induction Sandbox.place missing x h a path with
  | case1 => exact held
  | case2 h a leaf => exact held.set hx a leaf
  | case3 h a scope name rest b hb ih => exact ih held
  | case4 => exact held
  | case5 h a scope name rest create noTable ih =>
    cases create
    exact ih (held.openScope a scope)

theorem HeldOnce.placeTools (held : HeldOnce n h) (es : List (String × Nat)) :
    HeldOnce n (placeTools es h) := by
  induction es generalizing h with
  | nil => exact held
  | cons e rest ih => exact ih (held.place (x := .tool e.2) nofun .create _ _)

end

/-! ## The second time -/

/-- How tables of a heap correspond to those of a later one: a scope of the names to the table that
is this scope then, and a table that is no scope in either heap to itself. -/
def Renewed (names : List String) (h h' : Heap) (a b : Address) : Prop :=
  (∃ p, IsScope names p ∧ valueAt h p = .table a ∧ valueAt h' p = .table b) ∨
  (a = b ∧ a < h.tables.size ∧
    ∀ p, IsScope names p → valueAt h p ≠ .table a ∧ valueAt h' p ≠ .table a)

/-- Two values are the same, up to the identity of tables that correspond. -/
def Matches (same : Address → Address → Prop) (v x : Value) : Prop :=
  (v = x ∧ ∀ a, v ≠ .table a) ∨ ∃ a b, v = .table a ∧ x = .table b ∧ same a b

/-- A heap is another one up to the identity of tables. No table corresponds to two others, and the
tables up to a number correspond to themselves: only newer ones have changed their identity. Tables
that correspond have the same fields, up to tables that correspond, and the same metatable. Nothing
but tables has changed. -/
structure SameUpTo (same : Address → Address → Prop) (n : Nat) (h h' : Heap) : Prop where
  right : ∀ {a b b'}, same a b → same a b' → b = b'
  left : ∀ {a a' b}, same a b → same a' b → a = a'
  kept : ∀ a < n, same a a
  fields : ∀ {a b}, same a b → ∀ j, Matches same ((h.table a).get j) ((h'.table b).get j)
  metatables : ∀ {a b}, same a b → (h'.table b).metatable = (h.table a).metatable ∧
    ∀ m, (h.table a).metatable = some m → m < n
  rest : { h' with tables := h.tables } = h

section
variable {names : List String} {es : List (String × Nat)} {h : Heap} {p : List Bytes}
  {a b : Address} {j : Key}

/-- What the heap has besides tables stays when tools are written. -/
theorem rest_placeTools (es : List (String × Nat)) (h : Heap) :
    { placeTools es h with tables := h.tables } = h := by
  suffices hall : ∀ t, { placeTools es h with tables := t } = { h with tables := t } from
    (hall h.tables).trans rfl
  intro t
  induction es generalizing h with
  | nil => rfl
  | cons e rest ih =>
    have hfirst := congrArg (fun g : Heap => { g with tables := t })
      (rest_place .create (.tool e.2) h globalsAddress (keysOf e.1))
    exact (ih _).trans hfirst

/-- Tools that are written once and then again, at the paths of names whose scopes are tables of
their own. -/
structure Twice (names : List String) (es : List (String × Nat)) (h : Heap) : Prop where
  sep : Separate (IsScope names) h
  plain : ∀ p a, IsScope names p → valueAt h p = .table a → (h.table a).metatable = none
  mem : ∀ e ∈ es, e.1 ∈ names
  all : ∀ n ∈ names, ∃ e ∈ es, e.1 = n
  dangling : NoDangling h

variable (twice : Twice names es h)
include twice

theorem Twice.sep₁ : Separate (IsScope names) (placeTools es h) := twice.sep.placeTools twice.mem

theorem Twice.sep₂ : Separate (IsScope names) (placeTools es (placeTools es h)) :=
  twice.sep₁.placeTools twice.mem

theorem Twice.held₁ : HeldOnce h.tables.size (placeTools es h) :=
  twice.dangling.heldOnce.placeTools es

/-- A scope is the same table the second time if no name begins it, and a new one each time if one
does. -/
theorem Twice.scope (hp : IsScope names p) (ha : valueAt (placeTools es h) p = .table a)
    (hb : valueAt (placeTools es (placeTools es h)) p = .table b) :
    a = b ∨ h.tables.size ≤ a ∧ (placeTools es h).tables.size ≤ b := by
  by_cases covered : ∃ e ∈ es, keysOf e.1 <+: p
  · exact .inr ⟨twice.sep.fresh_placeTools twice.mem covered ha,
      twice.sep₁.fresh_placeTools twice.mem covered hb⟩
  · have clear : ∀ e ∈ es, ¬ keysOf e.1 <+: p := fun e he hle => covered ⟨e, he, hle⟩
    have hkept := twice.sep₁.scope_placeTools twice.mem hp clear ha
    exact .inl (Value.table.inj (hkept.symm.trans hb))

/-- A table of before corresponds to itself. -/
theorem Twice.kept (hlt : a < h.tables.size) :
    Renewed names (placeTools es h) (placeTools es (placeTools es h)) a a := by
  have hlt₁ := Nat.lt_of_lt_of_le hlt (grown_placeTools es h).size
  by_cases hscope : ∃ p, IsScope names p ∧ valueAt (placeTools es h) p = .table a
  · obtain ⟨p, hp, ha⟩ := hscope
    have clear : ∀ e ∈ es, ¬ keysOf e.1 <+: p := fun e he hle =>
      Nat.not_le_of_lt hlt (twice.sep.fresh_placeTools twice.mem ⟨e, he, hle⟩ ha)
    exact .inl ⟨p, hp, ha, twice.sep₁.scope_placeTools twice.mem hp clear ha⟩
  · refine .inr ⟨rfl, hlt₁, fun p hp => ⟨fun ha => hscope ⟨p, hp, ha⟩, fun ha => ?_⟩⟩
    exact hscope ⟨p, hp, (grown_placeTools es _).valueAt_before ha hlt₁⟩

/-- A table that is held where no scope is corresponds to itself. -/
theorem Twice.elsewhere (ha : ((placeTools es h).table a).get j = .table b)
    (off : ∀ q k, IsScope names (q ++ [k]) → valueAt (placeTools es h) q = .table a →
      j ≠ .str k) : Renewed names (placeTools es h) (placeTools es (placeTools es h)) b b := by
  by_cases hlt : b < h.tables.size
  · exact twice.kept hlt
  have hlt₁ := twice.held₁.inside a j b ha
  have nowhere : ∀ p, IsScope names p → valueAt (placeTools es h) p ≠ .table b := by
    intro p hp hb
    rcases List.eq_nil_or_concat p with rfl | ⟨q, k, rfl⟩
    · -- the globals have been there before
      cases hb
      exact hlt (twice.sep.inside [] _ (.inl rfl) rfl)
    · rw [List.concat_eq_append] at hp hb
      rw [valueAt_concat] at hb
      rcases (valueAt (placeTools es h) q).table_or_not with ⟨c, hc⟩ | noTable
      · rw [hc, Heap.field_table] at hb
        obtain ⟨rfl, rfl⟩ := twice.held₁.once a c j (.str k) b (Nat.le_of_not_lt hlt) ha hb
        exact off q k hp hc rfl
      · cases (Heap.field_of_not_table noTable k).symm.trans hb
  exact .inr ⟨rfl, hlt₁, fun p hp => ⟨nowhere p hp, fun hb =>
    nowhere p hp ((grown_placeTools es _).valueAt_before hb hlt₁)⟩⟩

/-- A value that is the same in both heaps matches itself where no scope is. -/
theorem Twice.matches_elsewhere
    (off : ∀ q k, IsScope names (q ++ [k]) → valueAt (placeTools es h) q = .table a →
      j ≠ .str k) :
    Matches (Renewed names (placeTools es h) (placeTools es (placeTools es h)))
      (((placeTools es h).table a).get j) (((placeTools es h).table a).get j) := by
  rcases (((placeTools es h).table a).get j).table_or_not with ⟨c, hc⟩ | noTable
  · exact .inr ⟨c, c, hc, hc, twice.elsewhere hc off⟩
  · exact .inl ⟨rfl, noTable⟩

/-- Tables that correspond have the same fields. -/
theorem Twice.fields
    (same : Renewed names (placeTools es h) (placeTools es (placeTools es h)) a b) (j : Key) :
    Matches (Renewed names (placeTools es h) (placeTools es (placeTools es h)))
      (((placeTools es h).table a).get j)
      (((placeTools es (placeTools es h)).table b).get j) := by
  rcases same with ⟨p, hp, ha, hb⟩ | ⟨rfl, hlt, nowhere⟩
  · by_cases onPath : ∃ n ∈ names, ∃ k rest, keysOf n = p ++ k :: rest ∧ j = .str k
    · -- the field is at a path that a name touches
      obtain ⟨n, hn, k, rest, hpath, rfl⟩ := onPath
      obtain ⟨e, he, rfl⟩ := twice.all n hn
      have hle : p ++ [k] <+: keysOf e.1 := ⟨rest, by rw [hpath, List.append_assoc]; rfl⟩
      have hq : Below (IsScope names) (p ++ [k]) := fun q hq hne =>
        below_keysOf hn q (hq.trans hle) fun heq =>
          hne (hq.eq_of_length_le (heq ▸ hle.length_le))
      have shape := twice.sep.sameShape twice.sep₁ twice.mem hq
        ⟨e, he, fun apart => apart.2 hle⟩
      rw [valueAt_concat, valueAt_concat, ha, hb] at shape
      rcases shape with ⟨heq, noTable⟩ | ⟨hscope, ⟨c, hc⟩, d, hd⟩
      · exact .inl ⟨heq, noTable⟩
      · refine .inr ⟨c, d, hc, hd, .inl ⟨p ++ [k], hscope, ?_, ?_⟩⟩
        · rw [valueAt_concat, ha]
          exact hc
        · rw [valueAt_concat, hb]
          exact hd
    · -- the field has not been written since its table was there
      have first := (twice.sep.get_placeTools twice.mem hp ha (j := j)).resolve_right onPath
      have second := (twice.sep₁.get_placeTools twice.mem hp hb (j := j)).resolve_right onPath
      rw [second]
      rcases twice.scope hp ha hb with rfl | ⟨hnew, hnew'⟩
      · refine twice.matches_elsewhere fun q k hq hqa hj => onPath ?_
        obtain rfl := twice.sep₁.apart p q a hp
          (below_scope hq q (List.prefix_append _ _) (by simp)) ha hqa
        rcases hq with hnil | ⟨n, hn, ⟨more, hpath⟩, -⟩
        · exact absurd hnil (by simp)
        · exact ⟨n, hn, k, more, by rw [← hpath, List.append_assoc]; rfl, hj⟩
      · rw [first, Heap.table_of_le hnew, Heap.table_of_le hnew']
        exact .inl ⟨rfl, fun c hc => by cases (Table.get_empty j).symm.trans hc⟩
  · rw [twice.sep₁.table_placeTools twice.mem hlt fun p hp => (nowhere p hp).1]
    exact twice.matches_elsewhere fun q k hq hqa => absurd hqa
      (nowhere q (below_scope hq q (List.prefix_append _ _) (by simp))).1

/-- A table that is a scope has no metatable. -/
theorem Twice.plainScope {g : Heap} (hg : Grown h g) (hp : IsScope names p)
    (ha : valueAt g p = .table a) : (h.table a).metatable = none := by
  by_cases hlt : a < h.tables.size
  · exact twice.plain p a hp (hg.valueAt_before ha hlt)
  · rw [Heap.table_of_le (Nat.le_of_not_lt hlt)]
    rfl

/-- What is written the second time is what has been written the first time, up to the identity of
the scopes that are made anew. -/
theorem Twice.sameUpTo :
    SameUpTo (Renewed names (placeTools es h) (placeTools es (placeTools es h))) h.tables.size
      (placeTools es h) (placeTools es (placeTools es h)) where
  right {a b b'} hab hab' := by
    rcases hab with ⟨p, hp, ha, hb⟩ | ⟨rfl, -, nowhere⟩ <;>
      rcases hab' with ⟨q, hq, ha', hb'⟩ | ⟨rfl, -, nowhere'⟩
    · obtain rfl := twice.sep₁.apart p q a hp hq ha ha'
      exact Value.table.inj (hb.symm.trans hb')
    · exact absurd ha (nowhere' p hp).1
    · exact absurd ha' (nowhere q hq).1
    · rfl
  left {a a' b} hab hab' := by
    rcases hab with ⟨p, hp, ha, hb⟩ | ⟨rfl, -, nowhere⟩ <;>
      rcases hab' with ⟨q, hq, ha', hb'⟩ | ⟨rfl, -, nowhere'⟩
    · obtain rfl := twice.sep₂.apart p q b hp hq hb hb'
      exact Value.table.inj (ha.symm.trans ha')
    · exact absurd hb (nowhere' p hp).2
    · exact absurd hb' (nowhere q hq).2
    · rfl
  kept a hlt := twice.kept hlt
  fields same j := twice.fields same j
  metatables {a b} same := by
    have before : ∀ c, ((placeTools es h).table c).metatable = (h.table c).metatable :=
      (grown_placeTools es h).metatable
    refine ⟨?_, fun m hm => twice.dangling.metatables a m ((before a).symm.trans hm)⟩
    rw [(grown_placeTools es _).metatable, before, before]
    rcases same with ⟨p, hp, ha, hb⟩ | ⟨rfl, -, -⟩
    · have hg := grown_placeTools es h
      rw [twice.plainScope hg hp ha, twice.plainScope (hg.trans (grown_placeTools es _)) hp hb]
    · rfl
  rest := rest_placeTools es _

end

/-! ## Sandboxes -/

/-- A sandbox is another one up to the identity of scopes of some names that are made anew; the
tables up to a number keep their identity. -/
structure Renews (names : List String) (n : Nat) (s s' : Sandbox) : Prop where
  heap : SameUpTo (Renewed names s.heap s'.heap) n s.heap s'.heap
  rest : s' = { s with heap := s'.heap }

/-- The table that a value is, if it is one. -/
def tableOf? : Value → Option Address
  | .table a => some a
  | _ => none

theorem tableOf?_eq_some_iff {v : Value} {a : Address} : tableOf? v = some a ↔ v = .table a := by
  cases v <;> simp [tableOf?]

instance (h : Heap) : Decidable (NoDangling h) :=
  decidable_of_iff (∀ t ∈ h.tables.toList,
      (∀ e ∈ t.toList, ∀ b ∈ tableOf? e.2, b < h.tables.size) ∧
      ∀ m ∈ t.metatable, m < h.tables.size) <| by
    have table_cases : ∀ a, h.table a ∈ h.tables.toList ∨ h.table a = Table.empty := by
      intro a
      by_cases ha : a < h.tables.size
      · refine .inl ?_
        rw [Heap.table, Array.getD_eq_getD_getElem?, Array.getElem?_eq_getElem ha]
        exact Array.getElem_mem_toList ha
      · exact .inr (Heap.table_of_le (Nat.le_of_not_lt ha))
    simp only [Option.mem_def, tableOf?_eq_some_iff]
    constructor
    · refine fun hall => ⟨fun a j b hb => ?_, fun a m hm => ?_⟩
      · rcases table_cases a with hmem | hempty
        · exact (hall _ hmem).1 (j, .table b) (Table.mem_toList.2 ⟨hb, nofun⟩) b rfl
        · rw [hempty] at hb
          cases (Table.get_empty j).symm.trans hb
      · rcases table_cases a with hmem | hempty
        · exact (hall _ hmem).2 m hm
        · rw [hempty] at hm
          cases hm
    · intro dangling t ht
      obtain ⟨a, ha, rfl⟩ := List.getElem_of_mem ht
      have htable : h.table a = h.tables.toList[a] := by
        rw [Heap.table, Array.getD_eq_getD_getElem?, Array.getElem?_eq_getElem (by simpa using ha)]
        rfl
      rw [← htable]
      exact ⟨fun e he b hb => dangling.fields a e.1 b ((Table.mem_toList.1 he).1.trans hb),
        dangling.metatables a⟩

section
variable {s : Sandbox} {tools : ToolMap} {removed : List String}

/-- Removing values makes no tables. -/
theorem size_place_stop (x : Value) (h : Heap) (a : Address) (p : List Bytes) :
    (place .stop x h a p).tables.size = h.tables.size := by
  fun_induction place .stop x h a p with
  | case1 => rfl
  | case2 => exact Heap.size_modifyTable _ _ _
  | case3 h a scope name rest b hb ih => exact ih
  | case4 => rfl
  | case5 h a scope name rest create => cases create

/-- Removing names makes no tables, and no dangling references. -/
theorem NoDangling.withoutNames (dangling : NoDangling s.heap) (removed : List String) :
    NoDangling (withoutNames removed s).heap ∧
    (Sandbox.withoutNames removed s).heap.tables.size = s.heap.tables.size := by
  induction removed generalizing s with
  | nil => exact ⟨dangling, rfl⟩
  | cons n rest ih =>
    have hsize : (s.withoutName n).heap.tables.size = s.heap.tables.size :=
      size_place_stop .nil s.heap globalsAddress (keysOf n)
    have hg : Grown s.heap (s.withoutName n).heap :=
      grown_place (x := .nil) nofun .stop s.heap (keysOf n)
    have step : NoDangling (s.withoutName n).heap := by
      refine ⟨fun a j b hb => ?_, fun a m hm => ?_⟩
      · rw [hsize]
        rcases get_place_stop_nil s.heap globalsAddress (keysOf n) a j with hsame | hnil
        · exact dangling.fields a j b (hsame.symm.trans hb)
        · cases hnil.symm.trans hb
      · rw [hsize]
        exact dangling.metatables a m ((hg.metatable a).symm.trans hm)
    obtain ⟨dangling', hsize'⟩ := ih step
    exact ⟨dangling', hsize'.trans hsize⟩

/-- Tools that have been put behind their names are bound under them. -/
theorem boundId_withTools (nodup : (tools.map Prod.fst).Nodup) {e : String × Tool}
    (he : e ∈ tools) :
    (withTools tools s).boundId e.1 = some e.2.id := by
  induction tools generalizing s with
  | nil => cases he
  | cons f rest ih =>
    obtain ⟨n, tool⟩ := f
    rw [List.map_cons, List.nodup_cons] at nodup
    rcases List.mem_cons.1 he with rfl | he
    · obtain ⟨b, hb, hid, -⟩ := binding?_wrap_self s n tool
      have hlast : (withTools rest (s.withTool n tool)).binding? n = some b :=
        (binding?_withTools nodup.1).trans hb
      rw [withTools, boundId, hlast, Option.map_some, hid]
    · exact ih nodup.2 he

/-- Binding the same tools again gives the same sandbox, up to the identity of the scopes that are
made anew. -/
theorem renews_rebound (nodup : (tools.map Prod.fst).Nodup)
    (own : OwnTables (tools.map Prod.fst) s.heap) (dangling : NoDangling s.heap) :
    Renews (tools.map Prod.fst) s.heap.tables.size (s.rebound tools)
      ((s.rebound tools).rebound tools) := by
  obtain ⟨dangling', hsize⟩ := dangling.withoutNames (s.boundBeyond (tools.map Prod.fst))
  have own' : OwnTables (tools.map Prod.fst)
      (Sandbox.withoutNames (s.boundBeyond (tools.map Prod.fst)) s).heap := own.withoutNames
  have hbeyond : (s.rebound tools).boundBeyond (tools.map Prod.fst) = [] :=
    boundBeyond_eq_nil_iff.2 fun _ => mem_names_rebound_iff.1
  have hagain : (s.rebound tools).rebound tools = { s.rebound tools with
      heap := placeTools (seats tools (s.rebound tools)) (s.rebound tools).heap } := by
    conv_lhs => rw [rebound, hbeyond]
    exact withTools_of_bound (fun e he => boundId_withTools nodup he) (s.rebound tools).heap
  have hfirst : (s.rebound tools).heap = placeTools (seats tools (s.rebound tools))
      (Sandbox.withoutNames (s.boundBeyond (tools.map Prod.fst)) s).heap := heap_withTools nodup
  have twice : Twice (tools.map Prod.fst) (seats tools (s.rebound tools))
      (Sandbox.withoutNames (s.boundBeyond (tools.map Prod.fst)) s).heap := by
    refine ⟨own'.separate, own'.plain, fun e he => ?_, fun n hn => ?_, dangling'⟩
    · obtain ⟨f, hf, rfl⟩ := List.mem_map.1 he
      exact List.mem_map_of_mem hf
    · obtain ⟨f, hf, rfl⟩ := List.mem_map.1 hn
      exact ⟨_, List.mem_map_of_mem hf, rfl⟩
  refine ⟨?_, by rw [hagain]⟩
  rw [hagain, hfirst, ← hsize]
  exact twice.sameUpTo

end

/-- After calls that bind tools and return, in a fresh sandbox, the bindings are exactly those of
the last map, each with its tool behind its wrapper, and a wrapper has been made for each entry of
the maps whose tool is not the one that the map before gave the name. And in any sandbox, binding
the same tools twice in a row gives the same as binding them once, up to the identity of scopes that
are made anew; it gives exactly the same if no name begins another one. This is if the names are
accepted, no table on the way to a name that is bound before has a metatable, and each scope of the
tools' names is a table of its own without a metatable. -/
theorem wrappers_and_rebinding (calls : List Call) (s t : Sandbox) (w w' v : World)
    (tools : ToolMap) (nodup : ∀ c ∈ calls, (c.tools.map Prod.fst).Nodup)
    (returns : ReturnsAll calls .empty w s w')
    (accepted : checkNames (tools.map Prod.fst) = .ok ()) (unique : (tools.map Prod.fst).Nodup)
    (unhooked : Unhooked t.heap (t.bound.map Binding.name))
    (own : OwnTables (tools.map Prod.fst) t.heap) (dangling : NoDangling t.heap) :
    (Serves ((calls.map Call.tools).getLastD []) s ∧
      (∀ n, n ∈ s.bound.map Binding.name ↔
        n ∈ ((calls.map Call.tools).getLastD []).map Prod.fst) ∧
      s.wrapped.size = renewals [] (calls.map Call.tools)) ∧
    ∃ t₁ t₂, t.bind tools v = (.ok (), t₁, v) ∧ t₁.bind tools v = (.ok (), t₂, v) ∧
      Renews (tools.map Prod.fst) t.heap.tables.size t₁ t₂ ∧
      (PrefixFree (tools.map Prod.fst) → t₂ = t₁) := by
  have before : Unhooked t.heap (t.bound.map Binding.name ++ tools.map Prod.fst) :=
    ⟨unhooked.globals, fun n hn => (List.mem_append.1 hn).elim (unhooked.along n)
      (own.bindable.unhooked.along n)⟩
  have after : Unhooked (t.rebound tools).heap
      ((t.rebound tools).bound.map Binding.name ++ tools.map Prod.fst) :=
    ((grown_rebound t tools).unhooked own.bindable.unhooked).mono fun n hn =>
      (List.mem_append.1 hn).elim mem_names_rebound_iff.1 id
  refine ⟨?_, t.rebound tools, (t.rebound tools).rebound tools, bind_eq_rebound accepted before v,
    bind_eq_rebound accepted after v, renews_rebound unique own dangling,
    fun free => rebound_rebound free own unique⟩
  obtain ⟨serves, size⟩ := returns.serves nodup serves_empty
  exact ⟨serves, fun _ => serves.mem_names_iff, size.trans (Nat.zero_add _)⟩

/-- A tool is bound, and then bound again beside another one. In a fresh sandbox, a name is bound
that begins another one, whose scope is made anew when the names are bound again. -/
theorem wrappers_and_rebinding_scope :
    (∀ c ∈ [Call.bind [("a", default)], .bind [("a", default), ("b", (default : Tool))]],
      (c.tools.map Prod.fst).Nodup) ∧
    checkNames ["a", "a.b"] = .ok () ∧ ["a", "a.b"].Nodup ∧
    Unhooked Sandbox.empty.heap (Sandbox.empty.bound.map Binding.name) ∧
    OwnTables ["a", "a.b"] Sandbox.empty.heap ∧ NoDangling Sandbox.empty.heap ∧
    ∃ s w', ReturnsAll [.bind [("a", default)], .bind [("a", default), ("b", default)]] .empty
        default s w' ∧
      s.wrapped.size = 2 ∧
      ∃ t₁ t₂,
        Sandbox.empty.bind [("a", default), ("a.b", default)] default = (.ok (), t₁, default) ∧
        t₁.bind [("a", default), ("a.b", default)] default = (.ok (), t₂, default) ∧
        Renews ["a", "a.b"] Sandbox.empty.heap.tables.size t₁ t₂ := by
  have nodup : ∀ c ∈ [Call.bind [("a", default)], .bind [("a", default), ("b", (default : Tool))]],
      (c.tools.map Prod.fst).Nodup := by
    simp only [List.forall_mem_cons, Call.tools, List.map_cons, List.map_nil]
    exact ⟨by decide, by decide, nofun⟩
  have unhooked : Unhooked Sandbox.empty.heap (Sandbox.empty.bound.map Binding.name) :=
    unhooked_of_grown (.refl _) _
  have own : OwnTables ["a", "a.b"] Sandbox.empty.heap := by decide +kernel
  have dangling : NoDangling Sandbox.empty.heap := by decide +kernel
  have first := @bind_empty [("a", default)] (by decide) default
  have second := @bind_eq_rebound (Sandbox.empty.rebound [("a", default)])
    [("a", default), ("b", default)] (by decide) (unhooked_of_grown (grown_rebound _ _) _) default
  have returns : ReturnsAll [.bind [("a", default)], .bind [("a", default), ("b", default)]] .empty
      default _ _ := .cons (.bind first) (.cons (.bind second) .nil)
  obtain ⟨⟨-, -, size⟩, t₁, t₂, h₁, h₂, renews, -⟩ := wrappers_and_rebinding
    [.bind [("a", default)], .bind [("a", default), ("b", default)]] _ .empty default default
    default [("a", default), ("a.b", default)] nodup returns (by decide) (by decide) unhooked own
    dangling
  exact ⟨nodup, by decide, by decide, unhooked, own, dangling, _, _, returns, size, t₁, t₂, h₁,
    h₂, renews⟩

/-- A name that leads through the globals' own name takes the globals out of that place, so when it
is bound again a new scope takes the place of the tool. No table has a metatable, and what is found
in the global is a tool after the name has been bound once, and a table after it has been bound
twice. -/
theorem rebinding_differs :
    ¬ ∀ (s : Sandbox) (tools : ToolMap) (w : World) (s₁ s₂ : Sandbox), Bare s.heap →
      checkNames (tools.map Prod.fst) = .ok () → (tools.map Prod.fst).Nodup →
      s.bind tools w = (.ok (), s₁, w) → s₁.bind tools w = (.ok (), s₂, w) →
      ∀ n, (global s₁.heap n).typeName = (global s₂.heap n).typeName := by
  intro hall
  have bare : Bare Sandbox.empty.heap := tree_initial.bare
  have first := @bind_empty [("_G._G", default)] (by decide) default
  have second := @bind_eq_rebound (Sandbox.empty.rebound [("_G._G", default)])
    [("_G._G", default)] (by decide) (unhooked_of_grown (grown_rebound _ _) _) default
  have hsame := hall .empty _ default _ _ bare (by decide) (by decide) first second "_G"
  exact absurd hsame (by decide +kernel)

end ScriptAgent.Sandbox
