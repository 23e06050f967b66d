import Mathlib.Data.List.Induction
import ScriptAgent.Proofs.Sandbox.Bindable

/-!
# Writing below scopes

Names of tools are paths below the globals; what such a path has in front of its last part are its
scopes. Tables can be shared, so a write at one path can be seen at another one. Where each table
is at one of the scopes only (`Separate`), a write at a path has an effect there, below it and above
it, and nowhere else (`Separate.place_create`, `Separate.place_stop`).

Table by table, such a write changes fields on its path only, in the scopes that the path has then
(`Written.fields`).
-/

namespace ScriptAgent.Sandbox

open Script

/-! ## Values at paths -/

/-- Neither of two paths begins the other one. -/
def Apart (p q : List Bytes) : Prop := ¬ p <+: q ∧ ¬ q <+: p

instance (p q : List Bytes) : Decidable (Apart p q) := inferInstanceAs (Decidable (_ ∧ _))

/-- The value at a path below the globals. -/
def valueAt (h : Heap) (p : List Bytes) : Value := h.follow (.table globalsAddress) p

/-- Everything that a path begins with is among some paths, apart from the path itself. -/
def Below (P : List Bytes → Prop) (p : List Bytes) : Prop := ∀ q, q <+: p → q ≠ p → P q

section
variable {h h' : Heap} {a b : Address} {k : Bytes} {x v : Value} {p q f scopes rest : List Bytes}
  {missing : Missing} {P : List Bytes → Prop}

theorem valueAt_append (h : Heap) (p q : List Bytes) :
    valueAt h (p ++ q) = h.follow (valueAt h p) q := Heap.follow_append h _ p q

theorem valueAt_concat (h : Heap) (p : List Bytes) (k : Bytes) :
    valueAt h (p ++ [k]) = h.field (valueAt h p) k := Heap.follow_concat h _ p k

/-- At a path that goes on from a table is what the table has in that field. -/
theorem valueAt_field (ha : valueAt h p = .table a) (k : Bytes) :
    valueAt h (p ++ [k]) = (h.table a).getStr k := by
  rw [valueAt_concat, ha, Heap.field_table]

/-- A path that goes on is below where it goes on from. -/
theorem Below.begin (hp : Below P (scopes ++ k :: rest)) : P scopes :=
  hp scopes (List.prefix_append _ _) (by simp)

theorem valueAt_newTable (h : Heap) (p : List Bytes) :
    valueAt (h.newTable Table.empty).2 p = valueAt h p := Heap.follow_newTable_empty h _ p

/-- Nothing is below what is no table. -/
theorem valueAt_below (hv : ∀ a, valueAt h p ≠ .table a) (hq : p <+: q) (hne : p ≠ q) :
    valueAt h q = .nil := by
  obtain ⟨r, rfl⟩ := hq
  rw [valueAt_append]
  exact Heap.follow_of_not_table hv fun hr => hne (by rw [hr, List.append_nil])

/-- What is above a table is a table. -/
theorem valueAt_above (ha : valueAt h q = .table a) (hp : p <+: q) :
    ∃ b, valueAt h p = .table b := by
  refine (valueAt h p).table_or_not.resolve_right fun noTable => ?_
  by_cases hpq : p = q
  · exact noTable a (hpq ▸ ha)
  · cases (valueAt_below noTable hp hpq).symm.trans ha

/-- What a path begins with is shorter. -/
theorem not_append_begins (hk : rest ≠ []) : ¬ p ++ rest <+: p := fun hle => by
  have hlen := hle.length_le
  have hpos := List.length_pos_of_ne_nil hk
  rw [List.length_append] at hlen
  omega

theorem Below.concat (below : Below P (p ++ [k])) : P p :=
  below p (List.prefix_append p [k]) (by simp)

/-! ## Scopes -/

/-- The tables at some paths are in the heap, and each of them is at one of the paths only. With a
path, everything that it begins with is among the paths. -/
structure Separate (P : List Bytes → Prop) (h : Heap) : Prop where
  closed : ∀ p, P p → Below P p
  inside : ∀ p a, P p → valueAt h p = .table a → a < h.tables.size
  apart : ∀ p q a, P p → P q → valueAt h p = .table a → valueAt h q = .table a → p = q

/-- A new empty table is at none of the scopes. -/
theorem Separate.newTable (sep : Separate P h) : Separate P (h.newTable Table.empty).2 where
  closed := sep.closed
  inside p a hp ha := by
    rw [valueAt_newTable] at ha
    rw [Heap.size_newTable]
    exact Nat.lt_succ_of_lt (sep.inside p a hp ha)
  apart p q a hp hq ha hb := by
    rw [valueAt_newTable] at ha hb
    exact sep.apart p q a hp hq ha hb

/-- Storing a value in a scope changes nothing but what is at or below its path. -/
theorem Separate.valueAt_set_other (sep : Separate P h) (ha : valueAt h scopes = .table a)
    (hs : P scopes) (hp : Below P p) (hother : ¬ scopes ++ [k] <+: p) :
    valueAt (h.modifyTable a (·.set (.str k) x)) p = valueAt h p := by
  induction p using List.reverseRecOn with
  | nil => rfl
  | append_singleton q j ih =>
    rw [List.prefix_concat_iff, not_or] at hother
    rw [valueAt_concat, valueAt_concat, ih (sep.closed q hp.concat) hother.2]
    rcases (valueAt h q).table_or_not with ⟨b, hb⟩ | noTable
    · rw [hb, Heap.field_table, Heap.field_table, Heap.getStr_modifyTable_set, if_neg]
      rintro ⟨-, rfl, rfl⟩
      -- the table that is written is at one of the scopes only
      exact hother.1 (by rw [sep.apart _ _ _ hs hp.concat ha hb])
    · rw [Heap.field_of_not_table noTable, Heap.field_of_not_table noTable]

/-- Below the path of a value that has been stored in a scope is what the value leads to. -/
theorem Separate.valueAt_set_below (sep : Separate P h) (ha : valueAt h scopes = .table a)
    (hs : P scopes) (p : List Bytes) :
    valueAt (h.modifyTable a (·.set (.str k) x)) (scopes ++ [k] ++ p) =
      (h.modifyTable a (·.set (.str k) x)).follow x p := by
  have hscopes := sep.valueAt_set_other (x := x) ha hs (sep.closed _ hs)
    (not_append_begins (List.cons_ne_nil k []))
  rw [valueAt_append, valueAt_concat, hscopes, ha, Heap.field_table, Heap.getStr_modifyTable_set,
    if_pos ⟨sep.inside _ _ hs ha, rfl, rfl⟩]

/-- Storing a value in a scope keeps the scopes if the value leads nowhere and is at none of them
if it is a table. -/
theorem Separate.set (sep : Separate P h) (ha : valueAt h scopes = .table a) (hs : P scopes)
    (hx : ∀ r, r ≠ [] → (h.modifyTable a (·.set (.str k) x)).follow x r = .nil)
    (hnew : ∀ b, x = .table b → b < h.tables.size ∧ ∀ q, P q → valueAt h q ≠ .table b) :
    Separate P (h.modifyTable a (·.set (.str k) x)) := by
  -- a table at a scope of the changed heap is the one that has been stored, or was there before
  have origin : ∀ p b, P p → valueAt (h.modifyTable a (·.set (.str k) x)) p = .table b →
      p = scopes ++ [k] ∧ x = .table b ∨ valueAt h p = .table b := by
    intro p b hp hb
    by_cases hbelow : scopes ++ [k] <+: p
    · obtain ⟨r, rfl⟩ := hbelow
      rw [sep.valueAt_set_below ha hs] at hb
      by_cases hr : r = []
      · subst hr
        exact .inl ⟨List.append_nil _, hb⟩
      · cases (hx r hr).symm.trans hb
    · exact .inr ((sep.valueAt_set_other ha hs (sep.closed p hp) hbelow).symm.trans hb)
  refine ⟨sep.closed, fun p b hp hb => ?_, fun p q b hp hq hpb hqb => ?_⟩
  · rw [Heap.size_modifyTable]
    rcases origin p b hp hb with ⟨-, hb⟩ | hb
    · exact (hnew b hb).1
    · exact sep.inside p b hp hb
  · rcases origin p b hp hpb with ⟨rfl, hxb⟩ | hpb
    · rcases origin q b hq hqb with ⟨rfl, -⟩ | hqb
      · rfl
      · exact absurd hqb ((hnew b hxb).2 q hq)
    · rcases origin q b hq hqb with ⟨rfl, hxb⟩ | hqb
      · exact absurd hpb ((hnew b hxb).2 p hp)
      · exact sep.apart p q b hp hq hpb hqb

/-! ## Writing at a path -/

/-- A value that leads nowhere has been written at a path below scopes: it is there, with nothing
below it and with tables above it, the ones of before if there were any, and nothing else has
changed below the scopes. In all tables, only fields on the path have changed. -/
structure Written (P : List Bytes → Prop) (x : Value) (f : List Bytes) (h h' : Heap) : Prop where
  here : valueAt h' f = x
  below : ∀ p, f <+: p → p ≠ f → valueAt h' p = .nil
  above : ∀ p, p <+: f → p ≠ f → ∃ b, valueAt h' p = .table b
  scopes : ∀ p b, p <+: f → p ≠ f → valueAt h p = .table b → valueAt h' p = .table b
  other : ∀ p, Below P p → Apart f p → valueAt h' p = valueAt h p
  fields : ∀ b j, (h'.table b).get j = (h.table b).get j ∨
    ∃ q leaf rest, f = q ++ leaf :: rest ∧ valueAt h' q = .table b ∧ j = .str leaf

/-- Storing a value in a field leaves what is read everywhere else. -/
theorem get_stored_or (h : Heap) (a : Address) (k : Bytes) (x : Value) (b : Address) (j : Key) :
    ((h.modifyTable a (·.set (.str k) x)).table b).get j = (h.table b).get j ∨
      b = a ∧ j = .str k := by
  rw [Heap.get_modifyTable_set]
  split
  · next hcond => exact .inr ⟨hcond.2.1.symm, hcond.2.2.symm⟩
  · exact .inl rfl

/-- A value that is stored in a scope and leads nowhere is written. -/
theorem Separate.written_set (sep : Separate P h) (ha : valueAt h scopes = .table a)
    (hs : P scopes)
    (hx : ∀ r, r ≠ [] → (h.modifyTable a (·.set (.str k) x)).follow x r = .nil) :
    Written P x (scopes ++ [k]) h (h.modifyTable a (·.set (.str k) x)) := by
  have same : ∀ p, p <+: scopes ++ [k] → p ≠ scopes ++ [k] →
      valueAt (h.modifyTable a (·.set (.str k) x)) p = valueAt h p ∧ p <+: scopes := by
    intro p hp hne
    have hscopes := (List.prefix_concat_iff.1 hp).resolve_left hne
    have hbelow : Below P p := fun q hq hqp => sep.closed _ hs q (hq.trans hscopes) fun he =>
      hqp (hq.eq_of_length_le (he ▸ hscopes.length_le))
    refine ⟨sep.valueAt_set_other ha hs hbelow fun hle => hne ?_, hscopes⟩
    exact hp.eq_of_length_le hle.length_le
  refine ⟨by simpa using sep.valueAt_set_below (x := x) ha hs [], fun p hbelow hne => ?_,
    fun p hp hne => ?_, fun p b hp hne hb => (same p hp hne).1.trans hb, fun p hp apart =>
    sep.valueAt_set_other ha hs hp apart.1, fun b j => ?_⟩
  · obtain ⟨r, rfl⟩ := hbelow
    rw [sep.valueAt_set_below ha hs]
    exact hx r fun hr => hne (by rw [hr, List.append_nil])
  · obtain ⟨b, hb⟩ := valueAt_above ha (same p hp hne).2
    exact ⟨b, (same p hp hne).1.trans hb⟩
  · refine (get_stored_or h a k x b j).imp_right ?_
    rintro ⟨rfl, hj⟩
    have hscopes := (same scopes (List.prefix_append scopes [k]) (by simp)).1
    exact ⟨scopes, k, [], rfl, hscopes.trans ha, hj⟩

/-- Opening a scope in another one keeps the scopes. -/
theorem Separate.openScope (sep : Separate P h) (ha : valueAt h scopes = .table a)
    (hs : P scopes) :
    Separate P (openScope h a k) ∧
    Written P (.table h.tables.size) (scopes ++ [k]) h (openScope h a k) := by
  have ha' := (valueAt_newTable h scopes).trans ha
  have hx : ∀ r, r ≠ [] →
      (Sandbox.openScope h a k).follow (.table h.tables.size) r = .nil := fun r hr =>
    follow_openScope_of_lt (sep.inside _ _ hs ha) hr
  have written := sep.newTable.written_set ha' hs hx
  refine ⟨sep.newTable.set ha' hs hx fun b hb => ?_, written.here, written.below, written.above,
    fun p b hp hne hb => written.scopes p b hp hne ((valueAt_newTable h p).trans hb),
    fun p hp apart => (written.other p hp apart).trans (valueAt_newTable h p),
    fun b j => (written.fields b j).imp_left fun hsame => ?_⟩
  · obtain rfl := Value.table.inj hb
    refine ⟨by rw [Heap.size_newTable]; exact Nat.lt_succ_self _, fun q hq hqb => ?_⟩
    exact Nat.lt_irrefl _ (sep.inside q _ hq ((valueAt_newTable h q).symm.trans hqb))
  · rw [Sandbox.openScope, hsame, Heap.table_newTable_empty]

/-- A value below a scope that has been opened is written in the heap of before, if the scope was no
table. -/
theorem Written.of_openScope (opened : Written P v f h h') (hv : ∀ a, valueAt h f ≠ .table a)
    (hf : f <+: p) {h'' : Heap} (written : Written P x p h' h'') : Written P x p h h'' where
  here := written.here
  below := written.below
  above := written.above
  scopes q b hq hne hb := by
    by_cases hfq : f <+: q
    · by_cases he : f = q
      · exact absurd (he ▸ hb) (hv b)
      · cases (valueAt_below hv hfq he).symm.trans hb
    · have hqf := (List.prefix_or_prefix_of_prefix hq hf).resolve_right hfq
      refine written.scopes q b hq hne (opened.scopes q b hqf ?_ hb)
      rintro rfl
      exact hfq (List.prefix_refl _)
  other q hq apart := by
    rw [written.other q hq apart]
    by_cases hfq : f <+: q
    · have hne : q ≠ f := fun he => apart.2 (he ▸ hf)
      rw [opened.below q hfq hne, valueAt_below hv hfq (Ne.symm hne)]
    · exact opened.other q hq ⟨hfq, fun hqf => apart.2 (hqf.trans hf)⟩
  fields b j := by
    rcases written.fields b j with hsame | hon
    · refine (opened.fields b j).imp hsame.trans ?_
      rintro ⟨q, leaf, rest, rfl, hb, hj⟩
      obtain ⟨more, rfl⟩ := hf
      have hq : q ++ leaf :: rest ++ more = q ++ leaf :: (rest ++ more) := by simp
      refine ⟨q, leaf, rest ++ more, hq, written.scopes q b ?_ ?_ hb, hj⟩
      · exact hq ▸ List.prefix_append _ _
      · simp
    · exact .inr hon

/-- Writing a value that is no table below a scope, with the scopes on the way, writes it and keeps
the scopes. -/
theorem Separate.place_create (sep : Separate P h) (hx : ∀ a, x ≠ .table a) (hne : p ≠ [])
    (ha : valueAt h scopes = .table a) (hp : Below P (scopes ++ p)) :
    Separate P (place .create x h a p) ∧ Written P x (scopes ++ p) h (place .create x h a p) := by
  fun_induction place .create x h a p generalizing scopes with
  | case1 => exact absurd rfl hne
  | case2 h a leaf =>
    have hs : P scopes := hp.begin
    have lone := fun r => @Heap.follow_of_not_table
      (h.modifyTable a (·.set (.str leaf) x)) x r hx
    exact ⟨sep.set ha hs lone fun b hb => absurd hb (hx b), sep.written_set ha hs lone⟩
  | case3 h a scope name rest b hb ih =>
    rw [List.append_cons] at hp ⊢
    exact ih sep (List.cons_ne_nil _ _) ((valueAt_field ha scope).trans hb) hp
  | case4 h a scope name rest stop => cases stop
  | case5 h a scope name rest _ noTable ih =>
    have hscope := List.prefix_append (scopes ++ [scope]) (name :: rest)
    obtain ⟨sep₁, opened⟩ := sep.openScope (k := scope) ha hp.begin
    rw [List.append_cons] at hp ⊢
    obtain ⟨sep₂, written⟩ := ih sep₁ (List.cons_ne_nil _ _) opened.here hp
    exact ⟨sep₂, opened.of_openScope (fun b => valueAt_field ha scope ▸ noTable b) hscope written⟩

/-- Removing the value at a path below a scope removes it and everything below it, and keeps the
scopes. -/
theorem Separate.place_stop (sep : Separate P h) (hne : p ≠ []) (ha : valueAt h scopes = .table a)
    (hp : Below P (scopes ++ p)) :
    Separate P (place .stop .nil h a p) ∧
    ∀ q, Below P q → valueAt (place .stop .nil h a p) q =
      if scopes ++ p <+: q then .nil else valueAt h q := by
  fun_induction place .stop .nil h a p generalizing scopes with
  | case1 => exact absurd rfl hne
  | case2 h a leaf =>
    have hs : P scopes := hp.begin
    have hnil : ∀ b : Address, Value.nil ≠ .table b := fun _ h => by cases h
    have lone := fun r => @Heap.follow_of_not_table
      (h.modifyTable a (·.set (.str leaf) .nil)) .nil r hnil
    refine ⟨sep.set ha hs lone fun b hb => absurd hb (hnil b), fun q hq => ?_⟩
    by_cases hbelow : scopes ++ [leaf] <+: q
    · rw [if_pos hbelow]
      have written := sep.written_set ha hs lone
      by_cases he : q = scopes ++ [leaf]
      · exact he ▸ written.here
      · exact written.below q hbelow he
    · rw [if_neg hbelow]
      exact sep.valueAt_set_other ha hs hq hbelow
  | case3 h a scope name rest b hb ih =>
    rw [List.append_cons] at hp ⊢
    exact ih sep (List.cons_ne_nil _ _) ((valueAt_field ha scope).trans hb) hp
  | case4 h a scope name rest _ noTable =>
    refine ⟨sep, fun q _ => ?_⟩
    rw [List.append_cons]
    split
    · next hbelow =>
      have hscope := (List.prefix_append (scopes ++ [scope]) (name :: rest)).trans hbelow
      refine valueAt_below (fun b => valueAt_field ha scope ▸ noTable b) hscope fun he => ?_
      exact not_append_begins (List.cons_ne_nil name rest) (he ▸ hbelow)
    · rfl
  | case5 h a scope name rest create => cases create

/-- Removing the value at a path changes no field but the last one of the path. -/
theorem get_place_stop (h : Heap) (a : Address) (p : List Bytes) (b : Address) (j : Key) :
    ((place .stop x h a p).table b).get j = (h.table b).get j ∨
      ∃ q leaf, p = q ++ [leaf] ∧ h.follow (.table a) q = .table b ∧ j = .str leaf := by
  fun_induction place .stop x h a p with
  | case1 => exact .inl rfl
  | case2 h a leaf =>
    refine (get_stored_or h a leaf x b j).imp_right ?_
    rintro ⟨rfl, hj⟩
    exact ⟨[], leaf, rfl, rfl, hj⟩
  | case3 h a scope name rest c hc ih =>
    refine ih.imp_right ?_
    rintro ⟨q, leaf, hp, hfollow, hj⟩
    refine ⟨scope :: q, leaf, by rw [hp, List.cons_append], ?_, hj⟩
    rwa [Heap.follow_cons, Heap.field_table, hc]
  | case4 => exact .inl rfl
  | case5 h a scope name rest create => cases create

/-- Writing at a path changes tables only. -/
theorem rest_place (missing : Missing) (x : Value) (h : Heap) (a : Address) (p : List Bytes) :
    { place missing x h a p with tables := h.tables } = h := by
  suffices hall : ∀ t, { place missing x h a p with tables := t } = { h with tables := t } from
    (hall h.tables).trans rfl
  intro t
  fun_induction place missing x h a p with
  | case1 | case2 | case4 => rfl
  | case3 h a scope name rest b hb ih => exact ih
  | case5 h a scope name rest create noTable ih =>
    cases create
    exact ih

end

end ScriptAgent.Sandbox
