import Mathlib.Data.List.Infix
import ScriptAgent.Proofs.Sandbox.Lookup
import ScriptAgent.Proofs.Sandbox.Reserved

/-!
# Writing at the paths of names

Names are written one after the other, at their paths below the globals. If no name begins another
one (`PrefixFree`) and each scope of the names is a table of its own (`OwnTables`), these writes do
not get in each other's way.

What they may change is read off the names and the heap of before (`Touches`). This is carried
through them as `Rewrites`, with one lemma for each of the two kinds of write
(`Rewrites.create`, `Rewrites.remove`).
-/

namespace ScriptAgent.Sandbox

open Script

/-! ## Names and scopes -/

/-- A path is a scope of some names: what one of their paths has in front of another part. The
globals are always one. -/
def IsScope (names : List String) (p : List Bytes) : Prop :=
  p = [] ∨ ∃ n ∈ names, p <+: keysOf n ∧ p ≠ keysOf n

/-- No name begins another one, part by part. -/
def PrefixFree (names : List String) : Prop :=
  ∀ m ∈ names, ∀ n ∈ names, m ≠ n → ¬ keysOf m <+: keysOf n

instance (names : List String) : Decidable (PrefixFree names) :=
  inferInstanceAs (Decidable (∀ m ∈ names, ∀ n ∈ names, m ≠ n → ¬ keysOf m <+: keysOf n))

/-- Each scope of some names is a table of its own, where it is one: a table of the heap, without a
metatable, and at no other scope. In particular no scope leads to the globals. -/
structure OwnTables (names : List String) (h : Heap) : Prop where
  inside : ∀ p a, IsScope names p → valueAt h p = .table a → a < h.tables.size
  plain : ∀ p a, IsScope names p → valueAt h p = .table a → (h.table a).metatable = none
  apart : ∀ p q a, IsScope names p → IsScope names q → valueAt h p = .table a →
    valueAt h q = .table a → p = q

section
variable {names created : List String} {h : Heap} {m n : String} {p q rest : List Bytes} {k : Bytes}

theorem keysOf_ne_nil (n : String) : keysOf n ≠ [] := by
  intro hn
  exact splitDots_ne_nil n.toList (List.map_eq_nil_iff.1 hn)

/-- What a path has in front of another part is a scope. -/
theorem isScope_of_path (hn : n ∈ names) (hp : keysOf n = p ++ k :: rest) : IsScope names p := by
  refine .inr ⟨n, hn, hp ▸ List.prefix_append _ _, fun he => ?_⟩
  rw [← he] at hp
  exact List.cons_ne_nil k rest (List.append_right_eq_self.1 hp.symm)

/-- What a path begins with, other than itself, has another part behind it. -/
theorem exists_rest (hp : p <+: q) (hne : p ≠ q) : ∃ k rest, q = p ++ k :: rest := by
  obtain ⟨more, rfl⟩ := hp
  have hmore : more ≠ [] := fun h => hne (by rw [h, List.append_nil])
  obtain ⟨k, rest, rfl⟩ := List.exists_cons_of_ne_nil hmore
  exact ⟨k, rest, rfl⟩

/-- Everything that the path of a name begins with is a scope. -/
theorem below_keysOf (hn : n ∈ names) : Below (IsScope names) (keysOf n) := by
  intro q hq hne
  obtain ⟨k, rest, hpath⟩ := exists_rest hq hne
  exact isScope_of_path hn hpath

/-- Everything that a scope begins with is a scope. -/
theorem below_scope (hp : IsScope names p) : Below (IsScope names) p := by
  intro q hq hne
  rcases hp with rfl | ⟨n, hn, hp, -⟩
  · exact absurd (List.prefix_nil.1 hq) hne
  · refine below_keysOf hn q (hq.trans hp) fun he => hne ?_
    exact hq.eq_of_length_le (he ▸ hp.length_le)

/-- The paths of different names are apart. -/
theorem PrefixFree.apart (free : PrefixFree names) (hm : m ∈ names) (hn : n ∈ names)
    (hne : m ≠ n) : Apart (keysOf m) (keysOf n) :=
  ⟨free m hm n hn hne, free n hn m hm (Ne.symm hne)⟩

/-- No name begins a scope. -/
theorem PrefixFree.not_begins_scope (free : PrefixFree names) (hn : n ∈ names)
    (hp : IsScope names p) : ¬ keysOf n <+: p := by
  intro hle
  rcases hp with rfl | ⟨m, hm, hp, hne⟩
  · exact keysOf_ne_nil n (List.prefix_nil.1 hle)
  · by_cases hmn : n = m
    · subst hmn
      exact hne (hp.eq_of_length_le hle.length_le)
    · exact free n hn m hm hmn (hle.trans hp)

/-- Tables of their own are separate. -/
theorem OwnTables.separate (own : OwnTables names h) : Separate (IsScope names) h where
  closed _ hp := below_scope hp
  inside := own.inside
  apart := own.apart

/-- Tools can be bound under names whose scopes are tables of their own. -/
theorem OwnTables.bindable (own : OwnTables names h) : Bindable h names where
  globals := ⟨own.inside [] _ (.inl rfl) rfl, own.plain [] _ (.inl rfl) rfl⟩
  scopes n hn scopes rest a hkeys hs hr ha := by
    obtain ⟨k, more, rfl⟩ := List.exists_cons_of_ne_nil hr
    have hscope := isScope_of_path hn hkeys
    refine ⟨?_, own.plain _ a hscope ha⟩
    rintro rfl
    exact hs (own.apart _ _ _ hscope (.inl rfl) ha rfl)

/-- In a tree, the scopes of names with direct paths are tables of their own. -/
theorem Tree.ownTables (tree : Tree h) (direct : ∀ n ∈ names, Direct (keysOf n)) :
    OwnTables names h := by
  have hscope : ∀ p, IsScope names p → Direct p := by
    rintro p (rfl | ⟨n, hn, hp, -⟩)
    · exact direct_nil
    · exact (direct n hn).of_start hp
  exact ⟨fun p a hp ha => tree.inside p a (hscope p hp) ha, fun _ a _ _ => tree.bare a,
    fun p q a hp hq => tree.apart p q a (hscope p hp) (hscope q hq)⟩

end

/-! ## Deciding whether scopes are tables of their own -/

/-- The scopes of some names. -/
def scopesOf (names : List String) : List (List Bytes) :=
  [] :: names.flatMap fun n => (keysOf n).dropLast.inits

/-- The table at a path, if there is one. -/
def tableAt? (h : Heap) (p : List Bytes) : Option Address :=
  match valueAt h p with
  | .table a => some a
  | _ => none

section
variable {names : List String} {h : Heap} {p q : List Bytes} {a : Address}

theorem tableAt?_eq_some_iff : tableAt? h p = some a ↔ valueAt h p = .table a := by
  unfold tableAt?
  split
  · next b hb => rw [hb, Option.some.injEq, Value.table.injEq]
  · next noTable => exact iff_of_false nofun (noTable a)

/-- A path begins with another one, other than itself, exactly if its part in front of the last one
does. -/
theorem begins_dropLast_iff (hq : q ≠ []) : p <+: q.dropLast ↔ p <+: q ∧ p ≠ q := by
  obtain ⟨init, k, rfl⟩ := List.eq_nil_or_concat q |>.resolve_left hq
  rw [List.concat_eq_append, List.dropLast_concat, List.prefix_concat_iff]
  constructor
  · intro hp
    refine ⟨.inr hp, fun he => ?_⟩
    exact not_append_begins (List.cons_ne_nil k []) (he ▸ hp)
  · rintro ⟨hp, hne⟩
    exact hp.resolve_left hne

theorem mem_scopesOf_iff : p ∈ scopesOf names ↔ IsScope names p := by
  rw [scopesOf, List.mem_cons, List.mem_flatMap, IsScope]
  simp only [List.mem_inits, begins_dropLast_iff (keysOf_ne_nil _)]

end

instance (names : List String) (h : Heap) : Decidable (OwnTables names h) :=
  decidable_of_iff (∀ p ∈ scopesOf names, ∀ a ∈ tableAt? h p,
      a < h.tables.size ∧ (h.table a).metatable = none ∧
      ∀ q ∈ scopesOf names, tableAt? h q = some a → p = q) <| by
    simp only [mem_scopesOf_iff, Option.mem_def, tableAt?_eq_some_iff]
    constructor
    · intro hall
      exact ⟨fun p a hp ha => (hall p hp a ha).1, fun p a hp ha => (hall p hp a ha).2.1,
        fun p q a hp hq ha => (hall p hp a ha).2.2 q hq⟩
    · intro own p hp a ha
      exact ⟨own.inside p a hp ha, own.plain p a hp ha, fun q hq => own.apart p q a hp hq ha⟩

/-! ## Writing at the paths of names -/

/-- Writing at the paths of some names, and creating the scopes of some of them, changes a field of
a table: the last one of a path, or one that is to hold a scope and holds no table. -/
inductive Touches (h : Heap) (names created : List String) (b : Address) : Key → Prop
  | last {n : String} {q : List Bytes} {k : Bytes} (name : n ∈ names)
      (path : keysOf n = q ++ [k]) (table : valueAt h q = .table b) :
      Touches h names created b (.str k)
  | scope {n : String} {q rest : List Bytes} {k : Bytes} (name : n ∈ created)
      (path : keysOf n = q ++ k :: rest) (more : rest ≠ []) (table : valueAt h q = .table b)
      (absent : ∀ a, valueAt h (q ++ [k]) ≠ .table a) : Touches h names created b (.str k)

/-- A field of a table is on the path of one of some names. -/
def OnPath (h : Heap) (names : List String) (b : Address) (j : Key) : Prop :=
  ∃ n ∈ names, ∃ q k rest, keysOf n = q ++ k :: rest ∧ valueAt h q = .table b ∧ j = .str k

/-- A heap comes out of another one by writing at the paths of some names, and creating the scopes
of some of them: the tables at scopes stay there, the tables of before change in the fields that are
touched, and new tables have fields on the paths only. -/
structure Rewrites (h₀ : Heap) (names created : List String) (h : Heap) : Prop where
  grown : Grown h₀ h
  separate : Separate (IsScope names) h
  scopes : ∀ p a, IsScope names p → valueAt h₀ p = .table a → valueAt h p = .table a
  fields : ∀ b j, b < h₀.tables.size →
    (h.table b).get j = (h₀.table b).get j ∨ Touches h₀ names created b j
  added : ∀ b j, h₀.tables.size ≤ b → (h.table b).get j = .nil ∨ OnPath h created b j
  rest : { h with tables := h₀.tables } = h₀

section
variable {h₀ h h' : Heap} {names created : List String} {n : String} {x : Value} {p q : List Bytes}
  {a b : Address} {j : Key}

/-- Nothing has been written yet. -/
theorem OwnTables.rewrites (own : OwnTables names h) (created : List String) :
    Rewrites h names created h where
  grown := .refl h
  separate := own.separate
  scopes _ _ _ ha := ha
  fields _ _ _ := .inl rfl
  added b j hb := by
    rw [Heap.table_of_le hb]
    exact .inl (Table.get_empty j)
  rest := rfl

/-- A table of before that is at a path has been there before. -/
theorem Grown.valueAt_before (hg : Grown h₀ h) (ha : valueAt h p = .table a)
    (hlt : a < h₀.tables.size) : valueAt h₀ p = .table a := by
  rcases hg.follow (.table globalsAddress) p with hsame | fresh
  · exact hsame.symm.trans ha
  · exact absurd (fresh a ha) (Nat.not_le_of_lt hlt)

/-- At the paths of names, the tables at scopes stay when more is written there. -/
theorem OnPath.keep (onPath : OnPath h created b j) (hsub : ∀ n ∈ created, n ∈ names)
    (kept : ∀ p a, IsScope names p → valueAt h p = .table a → valueAt h' p = .table a) :
    OnPath h' created b j := by
  obtain ⟨n, hn, q, k, rest, hpath, hb, hj⟩ := onPath
  exact ⟨n, hn, q, k, rest, hpath, kept q b (isScope_of_path (hsub n hn) hpath) hb, hj⟩

/-- What the heap has besides tables stays when a value is placed. -/
theorem Rewrites.rest_place (rewrites : Rewrites h₀ names created h) (missing : Missing) (x : Value)
    (a : Address) (p : List Bytes) : { place missing x h a p with tables := h₀.tables } = h₀ := by
  have hrest := congrArg (fun g : Heap => { g with tables := h₀.tables })
    (Sandbox.rest_place missing x h a p)
  exact hrest.trans rewrites.rest

/-- A value that is no table is written at the path of a name, with its scopes. -/
theorem Rewrites.create (rewrites : Rewrites h₀ names created h) (free : PrefixFree names)
    (hsub : ∀ n ∈ created, n ∈ names) (hn : n ∈ created) (hx : ∀ a, x ≠ .table a) :
    Rewrites h₀ names created (place .create x h globalsAddress (keysOf n)) ∧
    Written (IsScope names) x (keysOf n) h (place .create x h globalsAddress (keysOf n)) := by
  have root : valueAt h [] = .table globalsAddress := rfl
  obtain ⟨separate, written⟩ := rewrites.separate.place_create hx (keysOf_ne_nil n) root
    (below_keysOf (hsub n hn))
  rw [List.nil_append] at written
  have grown := rewrites.grown.trans (grown_place hx .create h (keysOf n))
  have kept : ∀ p a, IsScope names p → valueAt h p = .table a →
      valueAt (place .create x h globalsAddress (keysOf n)) p = .table a := by
    intro p a hp ha
    have hnot := free.not_begins_scope (hsub n hn) hp
    by_cases hle : p <+: keysOf n
    · exact written.scopes p a hle (fun he => hnot (he ▸ List.prefix_refl _)) ha
    · exact (written.other p (below_scope hp) ⟨hnot, hle⟩).trans ha
  refine ⟨⟨grown, separate, fun p a hp ha => kept p a hp (rewrites.scopes p a hp ha),
    fun b j hb => ?_, fun b j hb => ?_, rewrites.rest_place .create x _ _⟩, written⟩
  · rcases written.fields b j with hsame | ⟨q, k, rest, hpath, htable, rfl⟩
    · rw [hsame]
      exact rewrites.fields b j hb
    have hbefore := grown.valueAt_before htable hb
    by_cases hrest : rest = []
    · exact .inr (.last (hsub n hn) (hrest ▸ hpath) hbefore)
    rcases (valueAt h₀ (q ++ [k])).table_or_not with ⟨c, hc⟩ | absent
    · -- the scope was there before, so the field has not changed
      obtain ⟨l, more, rfl⟩ := List.exists_cons_of_ne_nil hrest
      have hscope : IsScope names (q ++ [k]) :=
        isScope_of_path (hsub n hn) (by rw [hpath, List.append_assoc]; rfl)
      have hc' := kept _ c hscope (rewrites.scopes _ c hscope hc)
      rw [valueAt_concat, htable] at hc'
      rw [valueAt_concat, hbefore] at hc
      exact .inl (hc'.trans hc.symm)
    · exact .inr (.scope hn hpath hrest hbefore absent)
  · rcases written.fields b j with hsame | ⟨q, k, rest, hpath, htable, rfl⟩
    · rw [hsame]
      exact (rewrites.added b j hb).imp_right (·.keep hsub kept)
    · exact .inr ⟨n, hn, q, k, rest, hpath, htable, rfl⟩

/-- The value at the path of a name is removed. -/
theorem Rewrites.remove (rewrites : Rewrites h₀ names created h) (free : PrefixFree names)
    (hsub : ∀ n ∈ created, n ∈ names) (hn : n ∈ names) :
    Rewrites h₀ names created (place .stop .nil h globalsAddress (keysOf n)) ∧
    ∀ q, Below (IsScope names) q → valueAt (place .stop .nil h globalsAddress (keysOf n)) q =
      if keysOf n <+: q then .nil else valueAt h q := by
  have root : valueAt h [] = .table globalsAddress := rfl
  obtain ⟨separate, removed⟩ := rewrites.separate.place_stop (keysOf_ne_nil n) root
    (below_keysOf hn)
  rw [List.nil_append] at removed
  have kept : ∀ p a, IsScope names p → valueAt h p = .table a →
      valueAt (place .stop .nil h globalsAddress (keysOf n)) p = .table a := by
    intro p a hp ha
    rw [removed p (below_scope hp), if_neg (free.not_begins_scope hn hp)]
    exact ha
  refine ⟨⟨rewrites.grown.trans (grown_place (x := .nil) nofun .stop h (keysOf n)), separate,
    fun p a hp ha => kept p a hp (rewrites.scopes p a hp ha),
    fun b j hb => ?_, fun b j hb => ?_, rewrites.rest_place .stop .nil _ _⟩, removed⟩
  · rcases get_place_stop (x := .nil) h globalsAddress (keysOf n) b j with
      hsame | ⟨q, k, hpath, htable, rfl⟩
    · rw [hsame]
      exact rewrites.fields b j hb
    · exact .inr (.last hn hpath (rewrites.grown.valueAt_before htable hb))
  · rcases get_place_stop (x := .nil) h globalsAddress (keysOf n) b j with
      hsame | ⟨q, k, hpath, htable, rfl⟩
    · rw [hsame]
      exact (rewrites.added b j hb).imp_right (·.keep hsub kept)
    · have hnil := removed (keysOf n) (below_keysOf hn)
      rw [if_pos (List.prefix_refl _), hpath, valueAt_concat, ← hpath,
        kept q b (isScope_of_path hn hpath) htable] at hnil
      exact .inl hnil

end

end ScriptAgent.Sandbox
