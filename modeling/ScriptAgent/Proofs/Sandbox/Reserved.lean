import ScriptAgent.Proofs.Sandbox.Tree
import ScriptAgent.Proofs.Text.Bytes
import ScriptAgent.Sandbox.Report

/-!
# Reserved globals

What an earlier script has left in the reserved globals does not reach the next one: two sandboxes
that agree on everything else execute every script in the same way
(`Sandbox.execute_eq_of_agreeBut`). Binding tools does not look at reserved globals, as long as the
scopes of their names are clear: no table that they lead to is that of the globals, or has a
metatable. After the tools are bound, all reserved globals are written, so the two sandboxes are one
and the same when the script starts.

A scope with a metatable does leak (`Sandbox.execute_leaks`): binding a tool in it calls a function
of an earlier script before the reserved globals are reset.
-/

namespace ScriptAgent.Sandbox

open Script

/-! ## Resetting the globals -/

/-- The entries of the globals that are written before every script. -/
def resetEntries : List (Key × Value) := resets.map fun e => (.str e.1, e.2)

/-- The heap after the reserved globals have been reset. -/
def reset (h : Heap) : Heap := h.modifyTable globalsAddress (·.setAll resetEntries)

/-- The path of a name does not begin at a reserved global. -/
def Unreserved (n : String) : Prop :=
  ∀ k rest, keysOf n = k :: rest → Key.str k ∉ resetEntries.map Prod.fst

section
variable {tools : Array Tool} {fuel : Nat} {h h' : Heap} {w : World} {a : Address} {k : Bytes}
  {x v : Value} {missing : Missing} {path : List Bytes} {n : String} {es : List (Key × Value)}

/-- A value at a key that is not among those of entries may be stored before them or after. -/
theorem setAll_set {t : Table} {k : Key} (hk : k ∉ es.map Prod.fst) (v : Value) :
    (t.set k v).setAll es = (t.setAll es).set k v := by
  induction es generalizing t with
  | nil => rfl
  | cons e rest ih =>
    rw [List.map_cons, List.mem_cons, not_or] at hk
    rw [Table.setAll, Table.setAll, Table.set_comm t hk.1, ih hk.2]

/-- Opening a scope of another table commutes with a change of the globals. -/
theorem openScope_modify (hg : globalsAddress < h.tables.size) (ha : a ≠ globalsAddress) (k : Bytes)
    (f : Table → Table) :
    openScope (h.modifyTable globalsAddress f) a k =
      (openScope h a k).modifyTable globalsAddress f := by
  rw [openScope, openScope, Heap.newTable_modifyTable hg, Heap.size_modifyTable,
    Heap.modifyTable_comm _ (Ne.symm ha)]

/-- Placing a value at a path that does not lead to the globals commutes with a change of them. -/
theorem place_modify (hg : globalsAddress < h.tables.size) (f : Table → Table)
    (avoids : ∀ scopes rest, path = scopes ++ rest → rest ≠ [] →
      h.follow (.table a) scopes ≠ .table globalsAddress) :
    place missing x (h.modifyTable globalsAddress f) a path =
      (place missing x h a path).modifyTable globalsAddress f := by
  induction path generalizing h a with
  | nil => rfl
  | cons scope path ih =>
    have ha : a ≠ globalsAddress := fun ha =>
      avoids [] _ rfl (List.cons_ne_nil _ _) (congrArg Value.table ha)
    cases path with
    | nil => exact Heap.modifyTable_comm h (Ne.symm ha) f _
    | cons name rest =>
      have hfield : ((h.modifyTable globalsAddress f).table a).getStr scope =
          (h.table a).getStr scope := by rw [Heap.table_modifyTable_ne (Ne.symm ha)]
      rcases ((h.table a).getStr scope).table_or_not with ⟨b, hb⟩ | noTable
      · rw [place_inside hb, place_inside (hfield.trans hb)]
        refine ih hg fun scopes more hrest hmore hb' => avoids (scope :: scopes) more
          (by rw [hrest, List.cons_append]) hmore ?_
        rwa [Heap.follow_cons, Heap.field_table, hb]
      · have noTable' : ∀ b, ((h.modifyTable globalsAddress f).table a).getStr scope ≠ .table b :=
          fun b => hfield ▸ noTable b
        cases missing with
        | stop => rw [place_stopped noTable, place_stopped noTable']
        | create =>
          rw [place_created noTable, place_created noTable', openScope_modify hg ha,
            Heap.size_modifyTable]
          refine ih (Nat.lt_of_lt_of_le hg ((Grown.refl h).openScope a scope).size)
            fun scopes more _ _ hb => ?_
          rcases follow_openScope h a scope scopes with hf | hf
          · exact Nat.ne_of_gt hg (Value.table.inj (hf.symm.trans hb))
          · cases hf.symm.trans hb

/-- Storing a value at a key that is not reserved commutes with resetting the globals. -/
theorem reset_set (hk : Key.str k ∉ resetEntries.map Prod.fst) :
    reset (h.modifyTable globalsAddress (·.set (.str k) x)) =
      (reset h).modifyTable globalsAddress (·.set (.str k) x) := by
  rw [reset, reset, Heap.modifyTable_modifyTable, Heap.modifyTable_modifyTable]
  exact congrArg (h.modifyTable globalsAddress) (funext fun t => setAll_set hk x)

/-- A global that is not reserved stays when the globals are reset. -/
theorem getStr_reset (hg : globalsAddress < h.tables.size)
    (hk : Key.str k ∉ resetEntries.map Prod.fst) :
    ((reset h).table globalsAddress).getStr k = (h.table globalsAddress).getStr k := by
  rw [reset, Heap.table_modifyTable_self hg, Table.getStr, Table.get_setAll_of_not_mem hk]
  rfl

/-- Placing a value at the path of a name with clear scopes commutes with resetting the globals. -/
theorem reset_place (hp : PlainGlobals h) (hc : ScopesClear h n) (hn : Unreserved n) :
    reset (place missing x h globalsAddress (keysOf n)) =
      place missing x (reset h) globalsAddress (keysOf n) := by
  rcases hkeys : keysOf n with _ | ⟨scope, _ | ⟨name, rest⟩⟩
  · rfl
  · exact reset_set (hn _ _ hkeys)
  have hfield := getStr_reset hp.inside (hn _ _ hkeys)
  rcases ((h.table globalsAddress).getStr scope).table_or_not with ⟨b, hb⟩ | noTable
  · rw [place_inside hb, place_inside (hfield.trans hb)]
    refine (place_modify hp.inside _ fun scopes more hrest hmore hg => ?_).symm
    refine (hc (scope :: scopes) more _ ?_ (List.cons_ne_nil _ _) hmore ?_).1 rfl
    · rw [hkeys, hrest, List.cons_append]
    · rwa [Heap.follow_cons, Heap.field_table, hb]
  · have noTable' : ∀ b, ((reset h).table globalsAddress).getStr scope ≠ .table b :=
      fun b => hfield ▸ noTable b
    cases missing with
    | stop => rw [place_stopped noTable, place_stopped noTable']
    | create =>
      have hsize : (reset h).tables.size = h.tables.size := Heap.size_modifyTable _ _ _
      have hopen : openScope (reset h) globalsAddress scope =
          reset (openScope h globalsAddress scope) := by
        rw [openScope, openScope, hsize, reset, Heap.newTable_modifyTable hp.inside]
        exact (reset_set (hn _ _ hkeys)).symm
      rw [place_created noTable, place_created noTable', hopen, hsize]
      refine (place_modify ?_ _ fun scopes more _ _ hb => ?_).symm
      · exact Nat.lt_of_lt_of_le hp.inside ((Grown.refl h).openScope _ scope).size
      · rcases follow_openScope h globalsAddress scope scopes with hf | hf
        · exact Nat.ne_of_gt hp.inside (Value.table.inj (hf.symm.trans hb))
        · cases hf.symm.trans hb

/-- Plain globals are written by storing the values in them. -/
theorem writesAll_plain (hp : PlainGlobals h) (writes : List (Bytes × Value)) (w : World) :
    WritesAll tools fuel writes h w
      (h.modifyTable globalsAddress (·.setAll (writes.map fun e => (.str e.1, e.2)))) w := by
  induction writes generalizing h with
  | nil =>
    have hid := Heap.modifyTable_id h globalsAddress
    exact hid.symm ▸ .nil
  | cons e rest ih =>
    obtain ⟨name, v⟩ := e
    have hnext := @ih (h.modifyTable globalsAddress (·.set (.str name) v))
      ⟨by rw [Heap.size_modifyTable]; exact hp.inside,
        (Heap.metatable_modifyTable_set _ _ _ _ _).trans hp.plain⟩
    rw [Heap.modifyTable_modifyTable] at hnext
    exact .cons (writes_of_plain hp.plain name v w) hnext

end

/-! ## Two sandboxes -/

/-- Two sandboxes are the same once the reserved globals are reset. -/
structure Twin (s t : Sandbox) : Prop where
  rest : t = { s with heap := t.heap }
  reset : reset s.heap = reset t.heap

section
variable {s t : Sandbox} {h : Heap} {w : World} {n : String} {names : List String}
  {tools : ToolMap}

/-- Placing the same value in twins makes twins. -/
theorem Twin.place (twin : Twin s t) (x : Value) (missing : Missing)
    (hs : Bindable s.heap names) (ht : Bindable t.heap names) (hn : n ∈ names)
    (free : Unreserved n) :
    Twin { s with heap := place missing x s.heap globalsAddress (keysOf n) }
      { t with heap := place missing x t.heap globalsAddress (keysOf n) } where
  rest := by rw [twin.rest]
  reset := by
    rw [reset_place hs.globals (hs.scopes n hn) free, reset_place ht.globals (ht.scopes n hn) free,
      twin.reset]

/-- Dropping the binding of a name makes twins of twins. -/
theorem Twin.dropBinding (twin : Twin s t) (n : String) :
    Twin (s.dropBinding n) (t.dropBinding n) where
  rest := by
    conv_lhs => rw [twin.rest]
    rfl
  reset := twin.reset

/-- A value that is placed is fresh if it is no table. -/
theorem grown_place (hx : ∀ a, x ≠ .table a) (missing : Missing) (h : Heap) (path : List Bytes) :
    Grown h (place missing x h globalsAddress path) :=
  (Grown.refl h).place (fun a ha => absurd ha (hx a)) missing globalsAddress path

/-- Names are removed from twins in the same way. -/
theorem unbinds_twin (twin : Twin s t) (hs : Bindable s.heap names) (ht : Bindable t.heap names)
    (free : ∀ n ∈ names, Unreserved n) (w : World) :
    ∃ s' t', Unbinds names s w s' w ∧ Unbinds names t w t' w ∧ Twin s' t' ∧
      Grown s.heap s'.heap ∧ Grown t.heap t'.heap := by
  induction names generalizing s t with
  | nil => exact ⟨s, t, .nil, .nil, twin, .refl _, .refl _⟩
  | cons n rest ih =>
    have hn : n ∈ n :: rest := List.mem_cons_self
    have hsub : ∀ m ∈ rest, m ∈ n :: rest := fun m => List.mem_cons_of_mem n
    have hgs := @grown_place .nil nofun .stop s.heap (keysOf n)
    have hgt := @grown_place .nil nofun .stop t.heap (keysOf n)
    have twin' := twin.place .nil .stop hs ht hn (free n hn)
    obtain ⟨s', t', us, ut, twin', gs, gt⟩ := ih
      (s := { s with heap := place .stop .nil s.heap globalsAddress (keysOf n) }.dropBinding n)
      (t := { t with heap := place .stop .nil t.heap globalsAddress (keysOf n) }.dropBinding n)
      (twin'.dropBinding n) ((hgs.bindable hs).mono hsub) ((hgt.bindable ht).mono hsub)
      fun m hm => free m (hsub m hm)
    exact ⟨s', t', .cons (hs.assigns hn) us, .cons (ht.assigns hn) ut, twin', hgs.trans gs,
      hgt.trans gt⟩

/-- A tool is wrapped whatever the heap is. -/
theorem wrap_heap (s : Sandbox) (h : Heap) (n : String) (tool : Tool) :
    ({ s with heap := h } : Sandbox).wrap n tool =
      ((s.wrap n tool).1, { (s.wrap n tool).2 with heap := h }) := by
  have hb : ({ s with heap := h } : Sandbox).binding? n = s.binding? n := rfl
  unfold wrap
  rw [hb]
  cases s.binding? n with
  | none => rfl
  | some b =>
    dsimp only
    split <;> rfl

/-- A tool is wrapped in twins in the same way. -/
theorem Twin.wrap (twin : Twin s t) (n : String) (tool : Tool) :
    (t.wrap n tool).1 = (s.wrap n tool).1 ∧ Twin (s.wrap n tool).2 (t.wrap n tool).2 := by
  have hw : t.wrap n tool = ((s.wrap n tool).1, { (s.wrap n tool).2 with heap := t.heap }) := by
    conv_lhs => rw [twin.rest]
    exact wrap_heap s t.heap n tool
  refine ⟨by rw [hw], ⟨by rw [hw], ?_⟩⟩
  rw [heap_wrap, heap_wrap]
  exact twin.reset

/-- Tools are bound in twins in the same way. -/
theorem binds_twin (twin : Twin s t) (hs : Bindable s.heap (tools.map Prod.fst))
    (ht : Bindable t.heap (tools.map Prod.fst)) (free : ∀ n ∈ tools.map Prod.fst, Unreserved n)
    (w : World) :
    ∃ s' t', Binds tools s w s' w ∧ Binds tools t w t' w ∧ Twin s' t' ∧
      Grown s.heap s'.heap ∧ Grown t.heap t'.heap := by
  induction tools generalizing s t with
  | nil => exact ⟨s, t, .nil, .nil, twin, .refl _, .refl _⟩
  | cons binding rest ih =>
    obtain ⟨n, tool⟩ := binding
    have hn : n ∈ ((n, tool) :: rest).map Prod.fst := List.mem_cons_self
    have hsub : ∀ m ∈ rest.map Prod.fst, m ∈ ((n, tool) :: rest).map Prod.fst :=
      fun m => List.mem_cons_of_mem n
    obtain ⟨hnumber, twin₁⟩ := twin.wrap n tool
    rw [← heap_wrap s n tool] at hs
    rw [← heap_wrap t n tool] at ht
    have hgs := @grown_place (.tool (s.wrap n tool).1) nofun .create (s.wrap n tool).2.heap
      (keysOf n)
    have hgt := @grown_place (.tool (s.wrap n tool).1) nofun .create (t.wrap n tool).2.heap
      (keysOf n)
    obtain ⟨s', t', bs, bt, twin', gs, gt⟩ := ih
      (twin₁.place (.tool (s.wrap n tool).1) .create hs ht hn (free n hn))
      ((hgs.bindable hs).mono hsub) ((hgt.bindable ht).mono hsub) fun m hm => free m (hsub m hm)
    refine ⟨s', t', .cons (hs.assigns hn) bs, .cons (hnumber ▸ ht.assigns hn) bt, twin', ?_, ?_⟩
    · exact heap_wrap s n tool ▸ hgs.trans gs
    · exact heap_wrap t n tool ▸ hgt.trans gt

/-- What makes a sandbox ready for a script leads twins to one and the same sandbox. -/
theorem readies_twin (twin : Twin s t) (accepted : checkNames (tools.map Prod.fst) = .ok ())
    (hs : Bindable s.heap (s.bound.map Binding.name ++ tools.map Prod.fst))
    (ht : Bindable t.heap (s.bound.map Binding.name ++ tools.map Prod.fst))
    (free : ∀ n ∈ s.bound.map Binding.name ++ tools.map Prod.fst, Unreserved n) (w : World) :
    ∃ r, Readies tools s w r w ∧ Readies tools t w r w := by
  have hold : ∀ n ∈ s.boundBeyond (tools.map Prod.fst),
      n ∈ s.bound.map Binding.name ++ tools.map Prod.fst := fun n hn =>
    List.mem_append_left _ (mem_boundBeyond_iff.1 hn).1
  have hnew : ∀ n ∈ tools.map Prod.fst, n ∈ s.bound.map Binding.name ++ tools.map Prod.fst :=
    fun n hn => List.mem_append_right _ hn
  obtain ⟨s₁, t₁, us, ut, twin₁, gs, gt⟩ := unbinds_twin twin (hs.mono hold) (ht.mono hold)
    (fun n hn => free n (hold n hn)) w
  obtain ⟨s₂, t₂, bs, bt, twin₂, gs', gt'⟩ := binds_twin twin₁ ((gs.bindable hs).mono hnew)
    ((gt.bindable ht).mono hnew) (fun n hn => free n (hnew n hn)) w
  have hsame : { t₂ with heap := reset t₂.heap } = { s₂ with heap := reset s₂.heap } := by
    rw [twin₂.reset, twin₂.rest]
  have hbeyond : t.boundBeyond (tools.map Prod.fst) = s.boundBeyond (tools.map Prod.fst) := by
    rw [twin.rest]
    rfl
  refine ⟨{ s₂ with heap := reset s₂.heap }, .intro accepted us bs ?_,
    hsame ▸ .intro accepted (hbeyond ▸ ut) bt ?_⟩
  · exact writesAll_plain ((gs.trans gs').plainGlobals hs.globals) resets w
  · exact writesAll_plain ((gt.trans gt').plainGlobals ht.globals) resets w

end

/-! ## Reserved names -/

/-- The keys that are reset are the reserved names. -/
theorem mem_resetKeys_iff {k : Key} :
    k ∈ resetEntries.map Prod.fst ↔ ∃ n ∈ reservedNames, k = .str (Utf8.encode n) := by
  have hkeys : resetEntries.map Prod.fst =
      ["print", "thought", "observation", "final_answer", "_final_answer", "_print_buffer"].map
        fun n => Key.str (Utf8.encode n) := by decide
  rw [hkeys, List.mem_map]
  refine exists_congr fun n => and_congr ?_ eq_comm
  simp only [reservedNames, controlNames, List.cons_append, List.nil_append, List.mem_cons,
    List.not_mem_nil, or_false]
  tauto

/-- Names are accepted exactly if no one of them is rejected. -/
theorem checkNames_eq_ok_iff {names : List String} :
    checkNames names = .ok () ↔ ∀ n ∈ names, nameFault? n = none := by
  rw [← List.findSome?_eq_none_iff, checkNames]
  split
  · next fault hfault => simp [hfault]
  · next hnone => simp [hnone]

/-- The path of a name that is accepted does not begin at a reserved global. -/
theorem unreserved_of_accepted {names : List String} (accepted : checkNames names = .ok ())
    {n : String} (hn : n ∈ names) : Unreserved n := by
  intro k rest hkeys hk
  have hfault := checkNames_eq_ok_iff.1 accepted n hn
  obtain ⟨r, hr, hkr⟩ := mem_resetKeys_iff.1 hk
  rcases hpath : pathOf n with _ | ⟨c, cs⟩
  · rw [keysOf, hpath] at hkeys
    cases hkeys
  · rw [keysOf, hpath, List.map_cons, List.cons.injEq] at hkeys
    have hc : c = r.toList := Utf8.encodeChars_injective (hkeys.1.trans (Key.str.inj hkr))
    unfold nameFault? at hfault
    split at hfault
    · cases hfault
    · split at hfault
      · cases hfault
      · next hfree =>
        refine hfree (List.contains_iff_mem.2 ?_)
        rw [hpath, List.headD_cons, hc, String.ofList_toList]
        exact hr

/-- Two sandboxes agree on everything but the values of the reserved globals. -/
structure AgreeBut (s t : Sandbox) : Prop where
  rest : t = { s with heap := { s.heap with tables := t.heap.tables } }
  size : s.heap.tables.size = t.heap.tables.size
  tables : ∀ a, a ≠ globalsAddress → s.heap.table a = t.heap.table a
  metatable : (s.heap.table globalsAddress).metatable = (t.heap.table globalsAddress).metatable
  globals : ∀ k, (∀ n ∈ reservedNames, k ≠ .str (Utf8.encode n)) →
    (s.heap.table globalsAddress).get k = (t.heap.table globalsAddress).get k

section
variable {s t : Sandbox} {n : String}

/-- Entries that are written over two tables make them the same if they are the same at all other
keys. -/
theorem setAll_congr {t u : Table} {es : List (Key × Value)} (hm : t.metatable = u.metatable)
    (hk : ∀ k, k ∉ es.map Prod.fst → t.get k = u.get k) : t.setAll es = u.setAll es := by
  refine Table.ext (fun k => ?_) (by rw [Table.metatable_setAll, Table.metatable_setAll, hm])
  by_cases h : k ∈ es.map Prod.fst
  · obtain ⟨before, v, after, rfl, last⟩ := Exchange.exists_last_of_mem h
    rw [Table.get_setAll_last last, Table.get_setAll_last last]
  · rw [Table.get_setAll_of_not_mem h, Table.get_setAll_of_not_mem h, hk k h]

/-- Sandboxes that agree on everything but the reserved globals are twins. -/
theorem AgreeBut.twin (agree : AgreeBut s t) (hp : PlainGlobals s.heap) : Twin s t where
  rest := by rw [agree.rest]
  reset := by
    have hrest : ∀ h h' : Heap, h' = { h with tables := h'.tables } →
        { reset h with tables := (reset h').tables } = reset h' := by
      intro h h' heq
      rw [heq]
      rfl
    refine Heap.ext_tables (hrest _ _ ?_) ?_ fun a => ?_
    · conv_lhs => rw [agree.rest]
    · rw [reset, reset, Heap.size_modifyTable, Heap.size_modifyTable, agree.size]
    · by_cases ha : a = globalsAddress
      · subst ha
        rw [reset, reset, Heap.table_modifyTable_self hp.inside,
          Heap.table_modifyTable_self (agree.size ▸ hp.inside)]
        exact setAll_congr agree.metatable fun k hk => agree.globals k fun n hn hkn =>
          hk (mem_resetKeys_iff.2 ⟨n, hn, hkn⟩)
      · rw [reset, reset, Heap.table_modifyTable_ne (Ne.symm ha),
          Heap.table_modifyTable_ne (Ne.symm ha), agree.tables a ha]

/-- The path of a name with clear scopes, and what it begins with, lead to the same values in
sandboxes that agree. -/
theorem AgreeBut.follow (agree : AgreeBut s t) (hc : ScopesClear s.heap n) (free : Unreserved n)
    {scopes rest : List Bytes} (hn : keysOf n = scopes ++ rest) (hs : scopes ≠ []) :
    t.heap.follow (.table globalsAddress) scopes =
      s.heap.follow (.table globalsAddress) scopes := by
  induction scopes using List.reverseRecOn generalizing rest with
  | nil => exact absurd rfl hs
  | append_singleton init k ih =>
    rw [Heap.follow_concat, Heap.follow_concat]
    by_cases hi : init = []
    -- The first field is one of the globals, and not a reserved one.
    · subst hi
      refine (agree.globals (.str k) fun m hm hkm => ?_).symm
      exact free k rest (by rw [hn]; rfl) (mem_resetKeys_iff.2 ⟨m, hm, hkm⟩)
    · have hn' : keysOf n = init ++ k :: rest := by rw [hn, List.append_assoc]; rfl
      rw [ih hn' hi]
      rcases (s.heap.follow (.table globalsAddress) init).table_or_not with ⟨a, ha⟩ | noTable
      · have hne := (hc init _ a hn' hi (List.cons_ne_nil _ _) ha).1
        rw [ha, Heap.field_table, Heap.field_table, agree.tables a hne]
      · rw [Heap.field_of_not_table noTable, Heap.field_of_not_table noTable]

/-- Tools can be bound in both of two sandboxes that agree, or in neither. -/
theorem AgreeBut.bindable {names : List String} (agree : AgreeBut s t)
    (hb : Bindable s.heap names) (free : ∀ n ∈ names, Unreserved n) : Bindable t.heap names where
  globals := ⟨agree.size ▸ hb.globals.inside, agree.metatable ▸ hb.globals.plain⟩
  scopes n hn scopes rest a hkeys hs hr ha := by
    rw [agree.follow (hb.scopes n hn) (free n hn) hkeys hs] at ha
    obtain ⟨hne, hplain⟩ := hb.scopes n hn scopes rest a hkeys hs hr ha
    exact ⟨hne, agree.tables a hne ▸ hplain⟩

end

/-- A sandbox with a value stored in a global. -/
def withGlobal (s : Sandbox) (n : String) (v : Value) : Sandbox :=
  { s with heap := s.heap.modifyTable globalsAddress (·.set (.str (Utf8.encode n)) v) }

/-- A change of the globals that leaves all but the reserved ones, and the metatable, leaves
everything else. -/
theorem agreeBut_modify (s : Sandbox) {f : Table → Table}
    (metatable : ∀ t, (f t).metatable = t.metatable)
    (get : ∀ t k, (∀ n ∈ reservedNames, k ≠ .str (Utf8.encode n)) → (f t).get k = t.get k) :
    AgreeBut s { s with heap := s.heap.modifyTable globalsAddress f } := by
  have changed : (s.heap.modifyTable globalsAddress f).table globalsAddress =
      f (s.heap.table globalsAddress) ∨
      (s.heap.modifyTable globalsAddress f).table globalsAddress =
        s.heap.table globalsAddress := by
    by_cases hg : globalsAddress < s.heap.tables.size
    · exact .inl (Heap.table_modifyTable_self hg)
    · exact .inr (Heap.table_modifyTable_of_le (Nat.not_lt.1 hg))
  refine ⟨?_, (Heap.size_modifyTable _ _ _).symm,
    fun a ha => (Heap.table_modifyTable_ne (Ne.symm ha)).symm, ?_, fun k hk => ?_⟩
  · obtain ⟨⟨tables, closures, cells, threads, searches, sm, seed⟩, wrapped, bound, limit⟩ := s
    rfl
  · rcases changed with hf | hsame
    · exact (hf ▸ metatable _).symm
    · exact hsame ▸ rfl
  · rcases changed with hf | hsame
    · exact (hf ▸ get _ k hk).symm
    · exact hsame ▸ rfl

/-- A value in a reserved global leaves everything else. -/
theorem agreeBut_withGlobal (s : Sandbox) {n : String} (hn : n ∈ reservedNames) (v : Value) :
    AgreeBut s (s.withGlobal n v) :=
  agreeBut_modify s (fun t => Table.metatable_set t _ v) fun t _ hk =>
    Table.get_set_ne t (Ne.symm (hk n hn)) v

/-- A name of two parts has one scope. -/
theorem scopes_of_keysOf {n : String} {k l : Bytes} (hkeys : keysOf n = [k, l])
    {scopes rest : List Bytes} (hn : keysOf n = scopes ++ rest) (hs : scopes ≠ [])
    (hr : rest ≠ []) : scopes = [k] := by
  rw [hkeys] at hn
  rcases scopes with _ | ⟨a, _ | ⟨b, scopes⟩⟩
  · exact absurd rfl hs
  · rw [(List.cons.inj hn).1]
  · have hlen := congrArg List.length hn
    have hpos := List.length_pos_of_ne_nil hr
    simp only [List.length_cons, List.length_nil, List.length_append] at hlen
    omega

section
variable {s t r : Sandbox} {w w₁ : World} {tools : ToolMap} {code : String}

/-- Executions that come to the same sandbox before the script are the same. -/
theorem execute_eq_of_readies (hs : Readies tools s w r w₁) (ht : Readies tools t w r w₁) :
    s.execute code tools w = t.execute code tools w := by
  obtain ⟨s₁, ws, hbs, hps⟩ := readies_iff.1 hs
  obtain ⟨t₁, wt, hbt, hpt⟩ := readies_iff.1 ht
  simp only [execute, hbs, hps, hbt, hpt]

/-- Two sandboxes that agree on everything but the values of the reserved globals execute a script
with tools in the same way, and are the same afterwards. This is if the names are accepted, the
globals have no metatable, and no table that a scope of a name leads to, bound before or now, is
that of the globals or has a metatable. Both come to the same sandbox before the script, and return
a result if the script leaves the globals without a metatable. -/
theorem execute_eq_of_agreeBut (s t : Sandbox) (code : String) (tools : ToolMap) (w : World)
    (agree : AgreeBut s t) (accepted : checkNames (tools.map Prod.fst) = .ok ())
    (before : checkNames (s.bound.map Binding.name) = .ok ())
    (bindable : Bindable s.heap (s.bound.map Binding.name ++ tools.map Prod.fst)) :
    s.execute code tools w = t.execute code tools w ∧
    ∃ r, Readies tools s w r w ∧ Readies tools t w r w ∧
      ((∀ script, Script.parse scriptChunk (Utf8.encode code) = .ok script →
        ((runScript r.wrapped r.limit r.heap script w).2.1.table globalsAddress).metatable =
          none) →
      ∃ e s' w', s.execute code tools w = (.ok e, s', w')) := by
  have free : ∀ n ∈ s.bound.map Binding.name ++ tools.map Prod.fst, Unreserved n := fun n hn =>
    (List.mem_append.1 hn).elim (unreserved_of_accepted before) (unreserved_of_accepted accepted)
  obtain ⟨r, rs, rt⟩ := readies_twin (agree.twin bindable.globals) accepted bindable
    (agree.bindable bindable free) free w
  exact ⟨execute_eq_of_readies rs rt, r, rs, rt, execute_returns_of_readies rs⟩

end

/-- A fresh sandbox and one with an answer in it bind a tool in a new scope and execute a script in
the same way. -/
theorem execute_eq_of_agreeBut_answer :
    AgreeBut .empty (withGlobal .empty "_final_answer" (.bool true)) ∧
    checkNames ["json.parse"] = .ok () ∧
    checkNames (Sandbox.empty.bound.map Binding.name) = .ok () ∧
    Bindable Sandbox.empty.heap (Sandbox.empty.bound.map Binding.name ++ ["json.parse"]) ∧
    Sandbox.empty.execute "print(json.parse)" [("json.parse", default)] default =
      (withGlobal .empty "_final_answer" (.bool true)).execute "print(json.parse)"
        [("json.parse", default)] default := by
  have agree := agreeBut_withGlobal .empty (n := "_final_answer") (by decide) (.bool true)
  have bindable : Bindable Sandbox.empty.heap ["json.parse"] := by
    refine ⟨plainGlobals_empty, fun n hn => ?_⟩
    obtain rfl := List.mem_singleton.1 hn
    exact tree_initial.scopesClear (by decide)
  exact ⟨agree, by decide, rfl, bindable,
    (execute_eq_of_agreeBut .empty _ "print(json.parse)" [("json.parse", default)] default agree
      (by decide) rfl bindable).1⟩

/-- A script that gives a scope a metatable, whose function keeps the answer that it finds. -/
def leakingScript : String :=
  "s = setmetatable(\x7b\x7d, \x7b__newindex = function() leak = _final_answer end\x7d)"

/-- A sandbox with a scope that has a metatable. -/
def leaking : Sandbox := (Sandbox.empty.execute leakingScript [] default).2.1

/-- What an execution that has returned has ended with. -/
def statusOf (r : Except Failure Execution × Sandbox × World) : Option Status :=
  match r.1 with
  | .ok e => some e.report.status
  | .error _ => none

/-- The globals of the sandbox have no metatable, nothing is bound in it, and its scope is not the
globals. -/
theorem plain_leaking :
    globalsAddress < leaking.heap.tables.size ∧
    (leaking.heap.table globalsAddress).metatable = none ∧
    leaking.bound.map Binding.name = [] ∧
    (leaking.heap.table globalsAddress).getStr (Utf8.encode "s") ≠ .table globalsAddress := by
  decide +kernel

/-- Binding a tool in a scope that has a metatable calls a function of an earlier script before the
reserved globals are reset, so two sandboxes that differ in the answer of before execute a script
differently. It is not enough that no scope leads to the globals. -/
theorem execute_leaks :
    ¬ ∀ (s t : Sandbox) (code : String) (tools : ToolMap) (w : World), AgreeBut s t →
      PlainGlobals s.heap → checkNames (tools.map Prod.fst) = .ok () →
      checkNames (s.bound.map Binding.name) = .ok () →
      (∀ n ∈ s.bound.map Binding.name ++ tools.map Prod.fst, ∀ scopes rest,
        keysOf n = scopes ++ rest → scopes ≠ [] → rest ≠ [] →
          s.heap.follow (.table globalsAddress) scopes ≠ .table globalsAddress) →
      s.execute code tools w = t.execute code tools w := by
  intro hall
  have hstatus :
      statusOf (leaking.execute "final_answer(leak)" [("s.f", default)] default) =
        some .continued ∧
      statusOf ((leaking.withGlobal "_final_answer" (.bool true)).execute "final_answer(leak)"
        [("s.f", default)] default) = some .answered := by decide +kernel
  obtain ⟨hinside, hplain, hbound, hscope⟩ := plain_leaking
  have heq := hall leaking _ "final_answer(leak)" [("s.f", default)] default
    (agreeBut_withGlobal leaking (n := "_final_answer") (by decide) (.bool true))
    ⟨hinside, hplain⟩ (by decide) (by rw [hbound]; rfl)
    fun n hn scopes rest hkeys hs hr => by
      rw [hbound] at hn
      obtain rfl := List.mem_singleton.1 hn
      rw [scopes_of_keysOf (k := Utf8.encode "s") (l := Utf8.encode "f") (by decide) hkeys hs hr]
      exact hscope
  rw [heq, hstatus.2] at hstatus
  exact absurd hstatus.1 (by decide)

end ScriptAgent.Sandbox
