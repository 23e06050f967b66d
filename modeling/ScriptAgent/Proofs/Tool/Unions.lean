import ScriptAgent.Proofs.Tool.Parameters

/-!
# The tags of unions

A parameter is shown with the tags of its type. The tags of a union are those of its members, each
at its first place, and members that stand for the absence of a value are passed over. So they do
not depend on how a union is grouped or on what is repeated in it, and the order of its members only
decides the order of the tags (`DeclaredType.tags_union`).

All of this rests on one equation, `valueTags_union`, between the tags of a union and those of its
members. It needs no exception for types without values: these have no tags there, and only `tags`
gives them one (`tags_eq`).
-/

namespace ScriptAgent.Tool.DeclaredType

/-! ## Items at their first places -/

section
variable {t : TypeTag} {ts us vs : List TypeTag}

/-- No item is lost, and none is added. -/
theorem mem_firsts : t ∈ firsts ts ↔ t ∈ ts := by
  induction ts with
  | nil => rfl
  | cons u rest ih =>
    rw [firsts, List.mem_cons, List.mem_cons, List.mem_filter, ih, bne_iff_ne]
    by_cases h : t = u
    · simp only [h, true_or]
    · simp only [h, false_or, ne_eq, not_false_eq_true, and_true]

/-- Items without repetitions stay as they are. -/
theorem firsts_of_nodup (nodup : ts.Nodup) : firsts ts = ts := by
  induction ts with
  | nil => rfl
  | cons t rest ih =>
    obtain ⟨hnew, nodup⟩ := List.nodup_cons.1 nodup
    have hkeep : rest.filter (· != t) = rest := List.filter_eq_self.2 fun u hu =>
      bne_iff_ne.2 fun h => hnew (by rw [← h]; exact hu)
    rw [firsts, ih nodup, hkeep]

/-- What is left out of some items is left out of their first places. -/
theorem firsts_filter (p : TypeTag → Bool) (ts : List TypeTag) :
    firsts (ts.filter p) = (firsts ts).filter p := by
  induction ts with
  | nil => rfl
  | cons t rest ih =>
    cases ht : p t with
    | true =>
      rw [List.filter_cons_of_pos ht, firsts, firsts, ih, List.filter_cons_of_pos ht,
        List.filter_comm]
    | false =>
      have hfalse : ¬ p t = true := Bool.not_eq_true _ ▸ ht
      rw [List.filter_cons_of_neg hfalse, firsts, List.filter_cons_of_neg hfalse, ih,
        List.filter_filter]
      refine (List.filter_congr fun u _ => ?_).symm
      -- What is different from `t` is not asked for where `p` holds.
      cases hu : p u with
      | true =>
        rw [Bool.true_and]
        exact bne_iff_ne.2 fun h => by rw [h, ht] at hu; cases hu
      | false => rw [Bool.false_and]

/-- Each item is kept at its first place, and left out wherever it comes again. -/
theorem firsts_eq_eraseDups : ∀ ts : List TypeTag, firsts ts = ts.eraseDups
  | [] => rfl
  | t :: rest => by
    rw [firsts, ← firsts_filter, firsts_eq_eraseDups, List.eraseDups_cons]
    rfl
termination_by ts => ts.length
decreasing_by exact Nat.lt_succ_of_le (List.length_filter_le _ _)

/-- Behind other items the first places of those that are new count. -/
theorem firsts_append (ts us : List TypeTag) :
    firsts (ts ++ us) = firsts ts ++ (firsts us).filter fun u => !ts.contains u := by
  induction ts with
  | nil => simp [firsts]
  | cons t rest ih =>
    rw [List.cons_append, firsts, firsts, ih, List.filter_append, List.filter_filter,
      List.cons_append]
    refine congrArg (t :: (firsts rest).filter (· != t) ++ ·) (List.filter_congr fun u _ => ?_)
    rw [List.contains_cons, Bool.not_or]
    rfl

/-- Repetitions in front make no difference. -/
theorem firsts_firsts_append (ts us : List TypeTag) :
    firsts (firsts ts ++ us) = firsts (ts ++ us) := by
  rw [firsts_append, firsts_append, firsts_of_nodup (nodup_firsts ts)]
  refine congrArg (firsts ts ++ ·) (List.filter_congr fun u _ => congrArg (! ·) ?_)
  rw [Bool.eq_iff_iff, List.contains_iff_mem, List.contains_iff_mem, mem_firsts]

/-- Repetitions behind make no difference. -/
theorem firsts_append_firsts (ts us : List TypeTag) :
    firsts (ts ++ firsts us) = firsts (ts ++ us) := by
  rw [firsts_append, firsts_append, firsts_of_nodup (nodup_firsts us)]

/-- Items that have come before make no difference. -/
theorem firsts_append_of_subset (h : us ⊆ ts) : firsts (ts ++ us ++ vs) = firsts (ts ++ vs) := by
  have hnone : (firsts us).filter (fun u => !ts.contains u) = [] :=
    List.filter_eq_nil_iff.2 fun u hu => by
      simpa using h (mem_firsts.1 hu)
  rw [← firsts_firsts_append, firsts_append ts us, hnone, List.append_nil, firsts_firsts_append]

/-- Repetitions in the parts of a list make no difference. -/
theorem firsts_flatMap {α : Type} (f : α → List TypeTag) (xs : List α) :
    firsts (xs.flatMap fun x => firsts (f x)) = firsts (xs.flatMap f) := by
  induction xs with
  | nil => rfl
  | cons x rest ih =>
    rw [List.flatMap_cons, List.flatMap_cons, firsts_firsts_append, ← firsts_append_firsts, ih,
      firsts_append_firsts]

/-- Tags of which each is the same are one tag, if there are any and none is repeated. -/
theorem eq_singleton_of_forall (filled : ts ≠ []) (nodup : ts.Nodup) (h : ∀ u ∈ ts, u = t) :
    ts = [t] := by
  match ts with
  | [] => exact absurd rfl filled
  | [u] => rw [h u List.mem_cons_self]
  | u :: v :: rest =>
    have huv : u = v := (h u List.mem_cons_self).trans
      (h v (List.mem_cons_of_mem _ List.mem_cons_self)).symm
    exact absurd (huv ▸ List.mem_cons_self) (List.nodup_cons.1 nodup).1

end

/-! ## The tags of values -/

/-- Whether a type stands for nothing but the absence of a value. -/
def isVoid (a : DeclaredType) : Bool := a.members.all isNothing

/-- The tags of the members of a type that stand for values. -/
def valueTags (a : DeclaredType) : List TypeTag :=
  firsts ((a.members.filter fun m => !m.isNothing).map tag)

/-- A type that may be absent. -/
def optional (a : DeclaredType) : DeclaredType := .union [a, .base .nothing]

section
variable {a b : DeclaredType} {ms ns : List DeclaredType} {t : TypeTag}

/-- A type without values has no tags of values. -/
theorem isVoid_iff : a.isVoid = true ↔ a.valueTags = [] := by
  have hnil : ∀ ts, firsts ts = [] ↔ ts = [] := by
    intro ts
    cases ts with
    | nil => exact Iff.rfl
    | cons t rest => exact iff_of_false nofun nofun
  rw [isVoid, valueTags, hnil, List.map_eq_nil_iff, List.filter_eq_nil_iff, List.all_eq_true]
  exact forall₂_congr fun m _ => by rw [Bool.not_eq_true', Bool.not_eq_false]

theorem isVoid_eq_false_iff : a.isVoid = false ↔ a.valueTags ≠ [] := by
  rw [← Bool.not_eq_true, isVoid_iff]

theorem nodup_valueTags (a : DeclaredType) : a.valueTags.Nodup := nodup_firsts _

/-- The tags of a type are those of its values, and there is one tag without any. -/
theorem tags_eq (a : DeclaredType) :
    a.tags = if a.valueTags = [] then [.string] else a.valueTags := by
  rw [tags, valueTags]
  cases a.members.filter fun m => !m.isNothing with
  | nil => rfl
  | cons m rest => exact (if_neg (List.cons_ne_nil _ _)).symm

theorem tags_of_values (values : a.isVoid = false) : a.tags = a.valueTags := by
  rw [tags_eq, if_neg (isVoid_eq_false_iff.1 values)]

/-- The members of some types are those of each of them. -/
theorem membersOfAll_eq (ms : List DeclaredType) : membersOfAll ms = ms.flatMap members := by
  induction ms with
  | nil => rw [membersOfAll, List.flatMap_nil]
  | cons a rest ih => rw [membersOfAll, ih, List.flatMap_cons]

/-- The values of a union have the tags of the values of its members. -/
theorem valueTags_union (ms : List DeclaredType) :
    (union ms).valueTags = firsts (ms.flatMap valueTags) := by
  have hms : ((union ms).members.filter fun m => !m.isNothing).map tag =
      ms.flatMap fun a => (a.members.filter fun m => !m.isNothing).map tag := by
    rw [members, membersOfAll_eq, List.filter_flatMap, List.map_flatMap]
  rw [valueTags, hms]
  exact (firsts_flatMap _ ms).symm

theorem valueTags_nothing : (base .nothing).valueTags = [] := rfl

theorem mem_valueTags_union : t ∈ (union ms).valueTags ↔ ∃ m ∈ ms, t ∈ m.valueTags := by
  rw [valueTags_union, mem_firsts, List.mem_flatMap]

/-- A union has values if one of its members has. -/
theorem isVoid_union (values : ∃ m ∈ ms, m.isVoid = false) : (union ms).isVoid = false := by
  obtain ⟨m, hm, hvalues⟩ := values
  obtain ⟨t, ht⟩ := List.exists_mem_of_ne_nil _ (isVoid_eq_false_iff.1 hvalues)
  exact isVoid_eq_false_iff.2 (List.ne_nil_of_mem (mem_valueTags_union.2 ⟨m, hm, ht⟩))

/-- The tags of values of some types are the tags of those that have values. -/
theorem flatMap_valueTags (ms : List DeclaredType) :
    ms.flatMap valueTags = (ms.filter (!·.isVoid)).flatMap tags := by
  induction ms with
  | nil => rfl
  | cons a rest ih =>
    cases ha : a.isVoid with
    | true =>
      rw [List.filter_cons_of_neg (by rw [ha]; decide), List.flatMap_cons, isVoid_iff.1 ha, ih]
      rfl
    | false =>
      rw [List.filter_cons_of_pos (by rw [ha]; rfl), List.flatMap_cons, List.flatMap_cons,
        tags_of_values ha, ih]

/-! ## Parameters with one tag -/

/-- A parameter is shown with one tag if its type has one. -/
theorem parameterType_eq_one_iff : a.parameterType = .one t ↔ a.tags = [t] := by
  rw [parameterType]
  rcases a.tags with _ | ⟨u, _ | ⟨v, rest⟩⟩
  · simp
  · show ParameterType.one u = .one t ↔ [u] = [t]
    rw [ParameterType.one.injEq, List.singleton_inj]
  · simp

/-- The type of a parameter is one tag exactly if all members with values have that one tag. -/
theorem parameterType_union_iff (values : ∃ m ∈ ms, m.isVoid = false) :
    (union ms).parameterType = .one t ↔ ∀ m ∈ ms, m.isVoid = false → m.tags = [t] := by
  rw [parameterType_eq_one_iff, tags_of_values (isVoid_union values)]
  constructor
  · intro hone m hm hvalues
    rw [tags_of_values hvalues]
    refine eq_singleton_of_forall (isVoid_eq_false_iff.1 hvalues) m.nodup_valueTags fun u hu => ?_
    have hmem : u ∈ (union ms).valueTags := mem_valueTags_union.2 ⟨m, hm, hu⟩
    rw [hone] at hmem
    exact List.mem_singleton.1 hmem
  · intro hall
    refine eq_singleton_of_forall (isVoid_eq_false_iff.1 (isVoid_union values))
      (union ms).nodup_valueTags fun u hu => ?_
    obtain ⟨m, hm, hu⟩ := mem_valueTags_union.1 hu
    have hvalues : m.isVoid = false := isVoid_eq_false_iff.2 (List.ne_nil_of_mem hu)
    rw [← tags_of_values hvalues, hall m hm hvalues] at hu
    exact List.mem_singleton.1 hu

end

/-! ## Grouping and order -/

/-- Two types are the same up to how unions in them are grouped and what is repeated there. -/
inductive Regrouped : DeclaredType → DeclaredType → Prop where
  /-- A union inside a union gives its members to it. -/
  | flatten (before ms after : List DeclaredType) :
      Regrouped (.union (before ++ .union ms :: after)) (.union (before ++ ms ++ after))
  /-- A member that has come before is left out. -/
  | repeated {before : List DeclaredType} {a : DeclaredType} (known : a ∈ before)
      (after : List DeclaredType) :
      Regrouped (.union (before ++ a :: after)) (.union (before ++ after))
  | single (a : DeclaredType) : Regrouped (.union [a]) a
  | inside {a b : DeclaredType} (before after : List DeclaredType) (h : Regrouped a b) :
      Regrouped (.union (before ++ a :: after)) (.union (before ++ b :: after))
  | refl (a : DeclaredType) : Regrouped a a
  | symm {a b : DeclaredType} (h : Regrouped a b) : Regrouped b a
  | trans {a b c : DeclaredType} (h : Regrouped a b) (h' : Regrouped b c) : Regrouped a c

/-- Two types are the same up to grouping, repetitions and the order of members. -/
inductive Reordered : DeclaredType → DeclaredType → Prop where
  | regrouped {a b : DeclaredType} (h : Regrouped a b) : Reordered a b
  | permuted {ms ns : List DeclaredType} (h : ms.Perm ns) : Reordered (.union ms) (.union ns)
  | inside {a b : DeclaredType} (before after : List DeclaredType) (h : Reordered a b) :
      Reordered (.union (before ++ a :: after)) (.union (before ++ b :: after))
  | trans {a b c : DeclaredType} (h : Reordered a b) (h' : Reordered b c) : Reordered a c

section
variable {a b : DeclaredType}

/-- Grouping and repetitions make no difference to the tags of values. -/
theorem Regrouped.valueTags_eq (h : Regrouped a b) : a.valueTags = b.valueTags := by
  induction h with
  | flatten before ms after =>
    rw [valueTags_union, valueTags_union, List.flatMap_append, List.flatMap_cons, valueTags_union,
      List.flatMap_append, List.flatMap_append, ← List.append_assoc, ← firsts_firsts_append,
      firsts_append_firsts, firsts_firsts_append]
  | @repeated before a known after =>
    have hsubset : a.valueTags ⊆ before.flatMap valueTags := fun t ht =>
      List.mem_flatMap.2 ⟨a, known, ht⟩
    rw [valueTags_union, valueTags_union, List.flatMap_append, List.flatMap_cons,
      ← List.append_assoc, firsts_append_of_subset hsubset, List.flatMap_append]
  | single a =>
    rw [valueTags_union, List.flatMap_singleton, firsts_of_nodup a.nodup_valueTags]
  | inside before after _ ih =>
    rw [valueTags_union, valueTags_union, List.flatMap_append, List.flatMap_append,
      List.flatMap_cons, List.flatMap_cons, ih]
  | refl => rfl
  | symm _ ih => exact ih.symm
  | trans _ _ ih ih' => exact ih.trans ih'

/-- The order of members makes no difference to which tags values have. -/
theorem Reordered.mem_valueTags_iff (h : Reordered a b) (t : TypeTag) :
    t ∈ a.valueTags ↔ t ∈ b.valueTags := by
  induction h with
  | regrouped h => rw [h.valueTags_eq]
  | permuted h =>
    rw [mem_valueTags_union, mem_valueTags_union]
    exact exists_congr fun m => and_congr_left' h.mem_iff
  | inside before after _ ih =>
    simp only [mem_valueTags_union, List.mem_append, List.mem_cons, or_and_right, exists_or,
      exists_eq_left, ih]
  | trans _ _ ih ih' => exact ih.trans ih'

/-- The order of members only decides the order of the tags. -/
theorem Reordered.perm_tags (h : Reordered a b) : a.tags.Perm b.tags := by
  have hperm : a.valueTags.Perm b.valueTags :=
    (List.perm_ext_iff_of_nodup a.nodup_valueTags b.nodup_valueTags).2 h.mem_valueTags_iff
  rw [tags_eq, tags_eq]
  by_cases hnil : b.valueTags = []
  · rw [hnil] at hperm
    rw [if_pos hnil, if_pos (List.perm_nil.1 hperm)]
  · have hfilled : a.valueTags ≠ [] := fun h => by
      rw [h] at hperm
      exact hnil (List.nil_perm.1 hperm)
    rw [if_neg hnil, if_neg hfilled]
    exact hperm

end

/-- The tags of types and unions. Every type has a tag, and none twice. The tags of a union with
values are the tags of its members with values, one member after the other, with each tag kept at
its first place; a parameter is shown with one tag exactly if all these members have that one tag. A
type that may be absent has the tags of the type. Grouping and repetitions make no difference, and
the order of members only decides the order of the tags. -/
theorem tags_union :
    (∀ a : DeclaredType, a.tags ≠ [] ∧ a.tags.Nodup) ∧
    (∀ ms : List DeclaredType, (∃ m ∈ ms, m.isVoid = false) →
      (union ms).tags = ((ms.filter (!·.isVoid)).flatMap tags).eraseDups ∧
      ∀ t, (union ms).parameterType = .one t ↔ ∀ m ∈ ms, m.isVoid = false → m.tags = [t]) ∧
    (∀ a : DeclaredType, a.optional.tags = a.tags) ∧
    (∀ a b, Regrouped a b → a.tags = b.tags) ∧
    ∀ a b, Reordered a b → a.tags.Perm b.tags := by
  refine ⟨tags_nodup, fun ms values => ⟨?_, fun t => parameterType_union_iff values⟩, fun a => ?_,
    fun a b h => ?_, fun a b h => h.perm_tags⟩
  · rw [tags_of_values (isVoid_union values), valueTags_union, flatMap_valueTags,
      firsts_eq_eraseDups]
  · have hsame : a.optional.valueTags = a.valueTags := by
      rw [optional, valueTags_union, List.flatMap_cons, List.flatMap_singleton, valueTags_nothing,
        List.append_nil, firsts_of_nodup a.nodup_valueTags]
    rw [tags_eq, tags_eq a, hsame]
  · rw [tags_eq, tags_eq b, h.valueTags_eq]

/-- A union in which numbers come twice, with an absence in it and beside it, and the same members
without the inner unions and in the opposite order. -/
theorem tags_union_nested :
    let count : DeclaredType := .base .integer
    let names : DeclaredType := .applied .list [.base .text]
    let ms := [count.optional, names, .base .nothing, .union [.base .float, .base .text]]
    (∃ m ∈ ms, m.isVoid = false) ∧ (union ms).tags = [.number, .table, .string] ∧
      (∀ t, (union ms).parameterType ≠ .one t) ∧
      (union [.base .float, count, count, .base .nothing]).parameterType = .one .number ∧
      (union ms).tags =
        (union [count, .base .nothing, names, .base .nothing, .base .float, .base .text]).tags ∧
      (union ms).tags.Perm (union
        [.union [.base .float, .base .text], .base .nothing, names, count.optional]).tags := by
  intro count names ms
  obtain ⟨-, hunion, -, hgrouped, hordered⟩ := tags_union
  have values : ∃ m ∈ ms, m.isVoid = false := ⟨count.optional, List.mem_cons_self, by decide⟩
  have hcounts : ∃ m ∈ [.base .float, count, count, .base .nothing], m.isVoid = false :=
    ⟨count, by simp, by decide⟩
  refine ⟨values, (hunion ms values).1, fun t ht => ?_,
    ((hunion _ hcounts).2 _).2 (by decide), hgrouped _ _ ?_,
    hordered _ _ (.permuted (List.reverse_perm ms).symm)⟩
  · have hall := ((hunion ms values).2 t).1 ht
    have hcount : [.number] = [t] := hall count.optional (by simp [ms]) (by decide)
    have hnames : [.table] = [t] := hall names (by simp [ms]) (by decide)
    cases hcount.trans hnames.symm
  · exact .trans (.flatten [] _ _) (.flatten [count, .base .nothing, names, .base .nothing] _ [])

end ScriptAgent.Tool.DeclaredType
