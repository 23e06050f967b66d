import ScriptAgent.Proofs.Sandbox.Globals
import ScriptAgent.Proofs.Sandbox.Place

/-!
# Heaps that tools can be bound in

Tools can be bound and unbound under names without calling a script if the globals are plain and
the scopes of the names are clear (`Bindable`): no table that they lead to is that of the globals,
or has a metatable.

Binding only adds tables and stores values that are tools, nothing or such tables (`Grown`), so at
each path there is the value of before or a fresh one (`Grown.follow`), and a heap that tools can be
bound in stays one (`Grown.bindable`).
-/

namespace ScriptAgent.Sandbox

open Script

/-- A value is no table among the first ones of a heap. -/
def Fresh (n : Nat) (v : Value) : Prop := ∀ a, v = .table a → n ≤ a

/-- A heap comes out of another one by adding tables and storing fresh values in fields. -/
structure Grown (h h' : Heap) : Prop where
  size : h.tables.size ≤ h'.tables.size
  metatable : ∀ a, (h'.table a).metatable = (h.table a).metatable
  field : ∀ a k, (h'.table a).getStr k = (h.table a).getStr k ∨
    Fresh h.tables.size ((h'.table a).getStr k)

section
variable {h h' : Heap} {a : Address} {k : Bytes} {x v : Value} {missing : Missing}
  {path : List Bytes} {n : String}

/-- A heap comes out of itself. -/
theorem Grown.refl (h : Heap) : Grown h h := ⟨Nat.le_refl _, fun _ => rfl, fun _ _ => .inl rfl⟩

/-- Storing a fresh value in a field keeps a heap grown. -/
theorem Grown.set (hg : Grown h h') (hx : Fresh h.tables.size x) (a : Address) (k : Bytes) :
    Grown h (h'.modifyTable a (·.set (.str k) x)) where
  size := by rw [Heap.size_modifyTable]; exact hg.size
  metatable b := by rw [Heap.metatable_modifyTable_set]; exact hg.metatable b
  field b j := by
    rw [Heap.getStr_modifyTable_set]
    split
    · exact .inr hx
    · exact hg.field b j

/-- Opening a scope keeps a heap grown. -/
theorem Grown.openScope (hg : Grown h h') (a : Address) (k : Bytes) :
    Grown h (openScope h' a k) := by
  have hnew : Grown h (h'.newTable Table.empty).2 := by
    refine ⟨by rw [Heap.size_newTable]; exact Nat.le_succ_of_le hg.size, fun b => ?_,
      fun b j => ?_⟩
    · rw [Heap.table_newTable_empty]
      exact hg.metatable b
    · rw [Heap.table_newTable_empty]
      exact hg.field b j
  exact hnew.set (fun b hb => Value.table.inj hb ▸ hg.size) a k

/-- Placing a fresh value keeps a heap grown. -/
theorem Grown.place (hg : Grown h h') (hx : Fresh h.tables.size x) (missing : Missing)
    (a : Address) (path : List Bytes) : Grown h (place missing x h' a path) := by
  fun_induction Sandbox.place missing x h' a path with
  | case1 => exact hg
  | case2 h' a leaf => exact hg.set hx a leaf
  | case3 h' a scope name rest b hb ih => exact ih hg
  | case4 => exact hg
  | case5 h' a scope name rest create noTable ih =>
    cases create
    exact ih (hg.openScope a scope)

/-- What is grown twice is grown. -/
theorem Grown.trans {h'' : Heap} (hg : Grown h h') (hg' : Grown h' h'') : Grown h h'' where
  size := Nat.le_trans hg.size hg'.size
  metatable a := (hg'.metatable a).trans (hg.metatable a)
  field a k := by
    rcases hg'.field a k with hf | hf
    · rw [hf]
      exact hg.field a k
    · exact .inr fun b hb => Nat.le_trans hg.size (hf b hb)

/-- Fresh values lead to fresh values only. -/
theorem Grown.follow_fresh (hg : Grown h h') (hv : Fresh h.tables.size v) (p : List Bytes) :
    Fresh h.tables.size (h'.follow v p) := by
  induction p generalizing v with
  | nil => exact hv
  | cons k p ih =>
    refine ih ?_
    rcases v.table_or_not with ⟨a, rfl⟩ | noTable
    · rcases hg.field a k with hf | hf
      · rw [Heap.field_table, hf, Heap.table_of_le (hv a rfl), Table.getStr, Table.get_empty]
        intro b hb
        cases hb
      · exact hf
    · rw [Heap.field_of_not_table noTable]
      intro b hb
      cases hb

/-- At each path, there is the value of before or a fresh one. -/
theorem Grown.follow (hg : Grown h h') (v : Value) (p : List Bytes) :
    h'.follow v p = h.follow v p ∨ Fresh h.tables.size (h'.follow v p) := by
  induction p generalizing v with
  | nil => exact .inl rfl
  | cons k p ih =>
    have hk : h'.field v k = h.field v k ∨ Fresh h.tables.size (h'.field v k) := by
      cases v with
      | table a => exact hg.field a k
      | _ => exact .inl rfl
    rcases hk with hk | hk
    · rw [Heap.follow_cons, Heap.follow_cons, hk]
      exact ih _
    · exact .inr (hg.follow_fresh hk p)

/-- The scopes of a name are clear: no table that they lead to is that of the globals, or has a
metatable. -/
def ScopesClear (h : Heap) (n : String) : Prop :=
  ∀ scopes rest a, keysOf n = scopes ++ rest → scopes ≠ [] → rest ≠ [] →
    h.follow (.table globalsAddress) scopes = .table a →
      a ≠ globalsAddress ∧ (h.table a).metatable = none

/-- Where the globals are plain and the scopes of a name are clear, no table on the way has a
metatable. -/
theorem ScopesClear.plainAlong (hc : ScopesClear h n) (hp : PlainGlobals h) :
    PlainAlong h globalsAddress (keysOf n) := by
  intro scopes rest a hn hrest ha
  by_cases hs : scopes = []
  · subst hs
    cases ha
    exact hp.plain
  · exact (hc scopes rest a hn hs hrest ha).2

/-- Globals stay plain in a grown heap. -/
theorem Grown.plainGlobals (hg : Grown h h') (hp : PlainGlobals h) : PlainGlobals h' :=
  ⟨Nat.lt_of_lt_of_le hp.inside hg.size, (hg.metatable _).trans hp.plain⟩

/-- Tools can be bound and unbound under names without calling a script: the globals are plain, and
the scopes of the names are clear. -/
structure Bindable (h : Heap) (names : List String) : Prop where
  globals : PlainGlobals h
  scopes : ∀ n ∈ names, ScopesClear h n

/-- Scopes stay clear in a grown heap. -/
theorem Grown.scopesClear (hg : Grown h h') (hp : PlainGlobals h) (hc : ScopesClear h n) :
    ScopesClear h' n := by
  intro scopes rest a hn hs hrest ha
  rcases hg.follow (.table globalsAddress) scopes with hf | hf
  · rw [hg.metatable]
    exact hc scopes rest a hn hs hrest (hf ▸ ha)
  · have hle := hf a ha
    refine ⟨Nat.ne_of_gt (Nat.lt_of_lt_of_le hp.inside hle), ?_⟩
    rw [hg.metatable, Heap.table_of_le hle]
    rfl

/-- Tools can be bound under fewer names. -/
theorem Bindable.mono {names names' : List String} (hb : Bindable h names)
    (hsub : ∀ n ∈ names', n ∈ names) : Bindable h names' :=
  ⟨hb.globals, fun n hn => hb.scopes n (hsub n hn)⟩

/-- The host writes at the path of a name by placing the value. -/
theorem Bindable.assigns {names : List String} (hb : Bindable h names) (hn : n ∈ names)
    {tools : Array Tool} {fuel : Nat} {w : World} :
    Assigns tools fuel missing x h w (.table globalsAddress) (keysOf n)
      (place missing x h globalsAddress (keysOf n)) w :=
  assigns_place ((hb.scopes n hn).plainAlong hb.globals)

/-- Tools can still be bound in a grown heap. -/
theorem Grown.bindable {names : List String} (hg : Grown h h') (hb : Bindable h names) :
    Bindable h' names :=
  ⟨hg.plainGlobals hb.globals, fun n hn => hg.scopesClear hb.globals (hb.scopes n hn)⟩

end

end ScriptAgent.Sandbox
