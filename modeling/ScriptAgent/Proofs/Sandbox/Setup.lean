import ScriptAgent.Proofs.Sandbox.Registered
import ScriptAgent.Proofs.Sandbox.Rewrites

/-!
# What is set up before a script

Before a script starts, the names that are bound no longer are removed, the tools are bound, and the
reserved globals are reset. Earlier scripts may have stored anything at the paths of the names and
in the reserved globals.

If no name begins another one, and each scope of the names is a table of its own, then every name
leads to its tool, the names that are removed lead to nothing, the reserved globals are the original
ones, and nothing else has changed (`Sandbox.execute_setUp`).
-/

namespace ScriptAgent.Sandbox

open Script

/-! ## Removing names and binding tools -/

/-- Names have been removed. -/
structure Unbound (names : List String) (s s' : Sandbox) : Prop where
  bound : ∀ b, b ∈ s'.bound ↔ b ∈ s.bound ∧ b.name ∉ names
  wrapped : s'.wrapped = s.wrapped
  limit : s'.limit = s.limit
  removed : ∀ n ∈ names, valueAt s'.heap (keysOf n) = .nil

/-- Tools have been bound: the name of each leads to its wrapper, and what is apart from the names
is as before. -/
structure Furnished (tools : ToolMap) (names : List String) (s s' : Sandbox) : Prop where
  wrapped : Wrapped s'
  size : s.wrapped.size ≤ s'.wrapped.size
  kept : ∀ m < s.wrapped.size, s'.wrapped.getD m default = s.wrapped.getD m default
  bound : ∀ k, k ∈ s'.bound.map Binding.name ↔
    k ∈ tools.map Prod.fst ∨ k ∈ s.bound.map Binding.name
  limit : s'.limit = s.limit
  held : ∀ e ∈ tools, Holds s' (keysOf e.1) e.2.id
  other : ∀ n ∈ names, n ∉ tools.map Prod.fst →
    valueAt s'.heap (keysOf n) = valueAt s.heap (keysOf n)

section
variable {s s' : Sandbox} {w : World} {n : String} {tool : Tool} {tools : ToolMap} {h₀ : Heap}
  {names created removed : List String}

/-- A wrapper leaves the limit as it is. -/
theorem limit_wrap (s : Sandbox) (n : String) (tool : Tool) :
    (s.wrap n tool).2.limit = s.limit := by
  unfold wrap
  split
  · split <;> rfl
  · rfl

/-- Names are removed one after the other. -/
theorem unbinds_rewrites (own : OwnTables names h₀) (free : PrefixFree names)
    (hsub : ∀ n ∈ created, n ∈ names) (hremoved : ∀ n ∈ removed, n ∈ names)
    (rewrites : Rewrites h₀ names created s.heap) (w : World) :
    ∃ s', Unbinds removed s w s' w ∧ Rewrites h₀ names created s'.heap ∧ Unbound removed s s' ∧
      ∀ n ∈ names, valueAt s.heap (keysOf n) = .nil → valueAt s'.heap (keysOf n) = .nil := by
  induction removed generalizing s with
  | nil => exact ⟨s, .nil, rewrites, ⟨by simp, rfl, rfl, nofun⟩, fun _ _ hnil => hnil⟩
  | cons n rest ih =>
    have hn : n ∈ names := hremoved n List.mem_cons_self
    have bindable := rewrites.grown.bindable own.bindable
    obtain ⟨rewrites₁, hvalue⟩ := rewrites.remove free hsub hn
    obtain ⟨s', unbinds, rewrites', unbound, hnil⟩ := ih
      (s := { s with heap := place .stop .nil s.heap globalsAddress (keysOf n) }.dropBinding n)
      (fun k hk => hremoved k (List.mem_cons_of_mem n hk)) rewrites₁
    have hkept : ∀ k ∈ names, valueAt s.heap (keysOf k) = .nil →
        valueAt (place .stop .nil s.heap globalsAddress (keysOf n)) (keysOf k) = .nil := by
      intro k hk hknil
      rw [hvalue _ (below_keysOf hk)]
      split
      · rfl
      · exact hknil
    refine ⟨s', .cons (bindable.assigns hn) unbinds, rewrites',
      ⟨fun b => ?_, unbound.wrapped, unbound.limit, fun k hk => ?_⟩,
      fun k hk hknil => hnil k hk (hkept k hk hknil)⟩
    · rw [unbound.bound, dropBinding, List.mem_filter, decide_eq_true_eq, List.mem_cons, not_or,
        and_assoc]
    · rcases List.mem_cons.1 hk with rfl | hk
      · refine hnil k hn ?_
        exact (hvalue _ (below_keysOf hn)).trans (if_pos (List.prefix_refl _))
      · exact unbound.removed k hk

/-- Tools are bound one after the other. -/
theorem binds_rewrites (own : OwnTables names h₀) (free : PrefixFree names)
    (hsub : ∀ n ∈ created, n ∈ names) (hcreated : ∀ n ∈ tools.map Prod.fst, n ∈ created)
    (nodup : (tools.map Prod.fst).Nodup) (wrapped : Wrapped s)
    (rewrites : Rewrites h₀ names created s.heap) (w : World) :
    ∃ s', Binds tools s w s' w ∧ Rewrites h₀ names created s'.heap ∧
      Furnished tools names s s' := by
  induction tools generalizing s with
  | nil =>
    exact ⟨s, .nil, rewrites, wrapped, Nat.le_refl _, fun _ _ => rfl, by simp, rfl, nofun,
      fun _ _ _ => rfl⟩
  | cons e rest ih =>
    obtain ⟨n, tool⟩ := e
    rw [List.map_cons, List.nodup_cons] at nodup
    have hn : n ∈ created := hcreated n List.mem_cons_self
    have wraps := wrapped.wrap n tool
    have rewrites₀ : Rewrites h₀ names created (s.wrap n tool).2.heap := wraps.heap ▸ rewrites
    have bindable := rewrites₀.grown.bindable own.bindable
    obtain ⟨rewrites₁, written⟩ :=
      rewrites₀.create free hsub hn (x := .tool (s.wrap n tool).1) nofun
    obtain ⟨s', binds, rewrites', furnished⟩ := ih
      (s := { (s.wrap n tool).2 with
        heap := place .create (.tool (s.wrap n tool).1) (s.wrap n tool).2.heap globalsAddress
          (keysOf n) })
      (fun k hk => hcreated k (List.mem_cons_of_mem n hk)) nodup.2 (wraps.wrapped wrapped) rewrites₁
    refine ⟨s', .cons (bindable.assigns (hsub n hn)) binds, rewrites', furnished.wrapped,
      Nat.le_trans wraps.size furnished.size, fun m hm => ?_, fun k => ?_,
      furnished.limit.trans (limit_wrap s n tool), fun e he => ?_, fun k hk hnot => ?_⟩
    · rw [furnished.kept m (Nat.lt_of_lt_of_le hm wraps.size)]
      exact wraps.kept m hm
    · refine (furnished.bound k).trans ((or_congr_right (wraps.names k)).trans ?_)
      rw [List.map_cons, List.mem_cons, or_left_comm, or_assoc]
    · rcases List.mem_cons.1 he with rfl | he
      · -- the tools that are bound after this one leave its name
        refine ⟨(s.wrap n tool).1, ?_, ?_⟩
        · exact (furnished.other n (hsub n hn) nodup.1).trans written.here
        · rw [furnished.kept _ wraps.inside]
          exact wraps.behind
      · exact furnished.held e he
    · rw [List.map_cons, List.mem_cons, not_or] at hnot
      have hbefore := written.other (keysOf k) (below_keysOf hk)
        (free.apart (hsub n hn) hk (Ne.symm hnot.1))
      rw [furnished.other k hk hnot.2]
      exact hbefore.trans (by rw [wraps.heap])

end

/-! ## Resetting the globals -/

/-- The reserved globals, with the values that they are reset to. -/
def resetGlobals : List (String × Value) :=
  controls ++ [("_final_answer", .nil), ("_print_buffer", .str [])]

section
variable {s r : Sandbox} {h : Heap} {w w₁ : World} {n : String} {names : List String} {id : Nat}
  {tools : ToolMap}

/-- Resetting the globals changes the reserved ones only. -/
theorem agreeBut_reset (s : Sandbox) : AgreeBut s { s with heap := reset s.heap } := by
  refine agreeBut_modify s (fun t => Table.metatable_setAll t _) fun t k hk => ?_
  refine Table.get_setAll_of_not_mem fun hmem => ?_
  obtain ⟨n, hn, hkn⟩ := mem_resetKeys_iff.1 hmem
  exact hk n hn hkn

/-- Every field but those of the reserved globals is the same in sandboxes that agree. -/
theorem AgreeBut.get_eq (agree : AgreeBut s r) (b : Address) (j : Key) :
    (r.heap.table b).get j = (s.heap.table b).get j ∨
      b = globalsAddress ∧ ∃ n ∈ reservedNames, j = .str (Utf8.encode n) := by
  by_cases hb : b = globalsAddress
  · subst hb
    by_cases hj : ∃ n ∈ reservedNames, j = .str (Utf8.encode n)
    · exact .inr ⟨rfl, hj⟩
    · exact .inl (agree.globals j fun n hn hjn => hj ⟨n, hn, hjn⟩).symm
  · exact .inl (by rw [agree.tables b hb])

/-- All metatables are the same in sandboxes that agree. -/
theorem AgreeBut.metatable_eq (agree : AgreeBut s r) (b : Address) :
    (r.heap.table b).metatable = (s.heap.table b).metatable := by
  by_cases hb : b = globalsAddress
  · exact hb ▸ agree.metatable.symm
  · rw [agree.tables b hb]

/-- What is written before every script, under the names of the globals. -/
theorem resetEntries_eq :
    resetEntries = resetGlobals.map fun e => (.str (Utf8.encode e.1), e.2) := rfl

/-- A reserved global has the value that it is reset to. -/
theorem global_reset (hp : PlainGlobals h) {e : String × Value}
    (he : e ∈ resetGlobals) :
    global (reset h) e.1 = e.2 := by
  have hmem : (Key.str (Utf8.encode e.1), e.2) ∈ resetEntries :=
    resetEntries_eq ▸ List.mem_map_of_mem he
  have nodup : (resetEntries.map Prod.fst).Nodup := by decide
  rw [global, reset, Heap.table_modifyTable_self hp.inside]
  exact Table.get_setAll nodup hmem

/-- A name leads to the wrapper that is at its path, where tools can be bound under it. -/
theorem Bindable.leadsTo (bindable : Bindable s.heap names) (hn : n ∈ names)
    (holds : Holds s (keysOf n) id) (w : World) : LeadsTo s w n id := by
  obtain ⟨m, hm, hid⟩ := holds
  have settled : ∀ q, q <+: keysOf n → Settled (valueAt s.heap q) := by
    intro q hq
    by_cases hqn : q = keysOf n
    · exact .inr (.inl ⟨m, hqn ▸ hm⟩)
    rcases (valueAt s.heap q).table_or_not with htable | noTable
    · exact .inl htable
    · -- nothing would be behind what is no table
      cases (valueAt_below noTable hq hqn).symm.trans hm
  have plain := (bindable.scopes n hn).plainAlong bindable.globals
  have gives : Gives s.wrapped s.limit (lookup n) s.heap w (.tool m) s.heap w :=
    (gives_lookupBelow_iff plain settled).2 ⟨hm, rfl, rfl⟩
  exact ⟨m, by rw [perform_eq_ok_iff.2 ⟨_, gives, rfl⟩], hid⟩

/-- An execution whose script can be read runs it in what it has set up. -/
theorem execute_of_readies {code : String} {script : Function} (ready : Readies tools s w r w₁)
    (parse : Script.parse scriptChunk (Utf8.encode code) = .ok script) :
    s.execute code tools w = r.runParsed script w₁ := by
  obtain ⟨s₁, w₂, hbind, hprepare⟩ := readies_iff.1 ready
  simp only [execute, hbind, hprepare, parse]

/-- An execution whose script cannot be read leaves what it has set up. -/
theorem execute_of_readies_unreadable {code : String} {message : Bytes}
    (ready : Readies tools s w r w₁)
    (parse : Script.parse scriptChunk (Utf8.encode code) = .error message) :
    (s.execute code tools w).2.1 = r := by
  obtain ⟨s₁, w₂, hbind, hprepare⟩ := readies_iff.1 ready
  simp only [execute, hbind, hprepare, parse]

end

/-! ## Before a script -/

/-- What a sandbox has become when a script starts, with the names of tools bound before and the
tools that are bound now. -/
structure SetUp (tools : ToolMap) (s r : Sandbox) : Prop where
  /-- Every name leads to its tool. -/
  leads : ∀ e ∈ tools, ∀ w, LeadsTo r w e.1 e.2.id
  /-- A name that is bound no longer leads to nothing. -/
  removed : ∀ n ∈ s.bound.map Binding.name, n ∉ tools.map Prod.fst →
    valueAt r.heap (keysOf n) = .nil
  /-- The control functions are the original ones. -/
  controls : ∀ e ∈ controls, global r.heap e.1 = e.2
  answer : global r.heap "_final_answer" = .nil
  buffer : global r.heap "_print_buffer" = .str []
  bound : ∀ n, n ∈ r.bound.map Binding.name ↔ n ∈ tools.map Prod.fst
  /-- A table of before has changed only in its fields that hold tools, in those that hold new
  scopes, and in the reserved globals. -/
  fields : ∀ b j, b < s.heap.tables.size → (r.heap.table b).get j = (s.heap.table b).get j ∨
    Touches s.heap (s.bound.map Binding.name ++ tools.map Prod.fst) (tools.map Prod.fst) b j ∨
    b = globalsAddress ∧ ∃ n ∈ reservedNames, j = .str (Utf8.encode n)
  /-- A scope of a name is the table that it was before, or a new one. -/
  scopes : ∀ n ∈ tools.map Prod.fst, ∀ p rest a, keysOf n = p ++ rest →
    valueAt r.heap p = .table a → valueAt s.heap p = .table a ∨ s.heap.tables.size ≤ a
  /-- A new table has no fields but those on the paths of the names. -/
  added : ∀ b j, s.heap.tables.size ≤ b →
    (r.heap.table b).get j = .nil ∨ OnPath r.heap (tools.map Prod.fst) b j
  metatables : ∀ b, (r.heap.table b).metatable = (s.heap.table b).metatable
  /-- Nothing in the heap has changed but tables. -/
  rest : { r.heap with tables := s.heap.tables } = s.heap
  wrappers : ∀ m < s.wrapped.size, r.wrapped.getD m default = s.wrapped.getD m default
  limit : r.limit = s.limit

section
variable {s s₁ s₂ : Sandbox} {tools : ToolMap}

/-- Once names have been removed and tools have been bound, resetting the globals completes what is
set up. -/
theorem setUp_reset {names : List String}
    (hnames : names = s.bound.map Binding.name ++ tools.map Prod.fst)
    (unreserved : ∀ n ∈ names, Unreserved n) (own : OwnTables names s.heap)
    (unbound : Unbound (s.boundBeyond (tools.map Prod.fst)) s s₁)
    (furnished : Furnished tools names s₁ s₂)
    (rewrites : Rewrites s.heap names (tools.map Prod.fst) s₂.heap) :
    SetUp tools s { s₂ with heap := reset s₂.heap } := by
  have hnew : ∀ n ∈ tools.map Prod.fst, n ∈ names := fun n hn =>
    hnames ▸ List.mem_append_right _ hn
  have bindable := rewrites.grown.bindable own.bindable
  have agree := agreeBut_reset s₂
  have hvalue : ∀ n ∈ names, ∀ p rest, keysOf n = p ++ rest →
      valueAt (reset s₂.heap) p = valueAt s₂.heap p := by
    intro n hn p rest hpath
    by_cases hp : p = []
    · subst hp
      rfl
    · exact agree.follow (bindable.scopes n hn) (unreserved n hn) hpath hp
  have hwhole : ∀ n ∈ names, valueAt (reset s₂.heap) (keysOf n) = valueAt s₂.heap (keysOf n) :=
    fun n hn => hvalue n hn (keysOf n) [] (List.append_nil _).symm
  exact {
    leads e he w := by
      have hn : e.1 ∈ names := hnew e.1 (List.mem_map_of_mem he)
      obtain ⟨m, hm, hid⟩ := furnished.held e he
      exact (agree.bindable bindable unreserved).leadsTo hn ⟨m, (hwhole _ hn).trans hm, hid⟩ w
    removed n hn hnot := by
      have hmem : n ∈ names := hnames ▸ List.mem_append_left _ hn
      have hbeyond : n ∈ s.boundBeyond (tools.map Prod.fst) :=
        mem_boundBeyond_iff.2 ⟨hn, hnot⟩
      exact (hwhole n hmem).trans
        ((furnished.other n hmem hnot).trans (unbound.removed n hbeyond))
    controls e he := global_reset bindable.globals (List.mem_append_left _ he)
    answer := global_reset (e := ("_final_answer", .nil)) bindable.globals (by simp [resetGlobals])
    buffer :=
      global_reset (e := ("_print_buffer", .str [])) bindable.globals (by simp [resetGlobals])
    bound n := by
      refine (furnished.bound n).trans (or_iff_left_of_imp fun hn => ?_)
      -- what is still bound has not been removed, so it is among the tools
      obtain ⟨b, hb, rfl⟩ := List.mem_map.1 hn
      obtain ⟨hb, hkept⟩ := (unbound.bound b).1 hb
      by_contra hnot
      exact hkept (mem_boundBeyond_iff.2 ⟨List.mem_map_of_mem hb, hnot⟩)
    fields b j hb := by
      rcases agree.get_eq b j with hsame | reserved
      · rw [hsame, ← hnames]
        exact (rewrites.fields b j hb).imp_right .inl
      · exact .inr (.inr reserved)
    scopes n hn p rest a hpath ha := by
      have ha' := (hvalue n (hnew n hn) p rest hpath).symm.trans ha
      rcases rewrites.grown.follow (.table globalsAddress) p with hsame | fresh
      · exact .inl (hsame.symm.trans ha')
      · exact .inr (fresh a ha')
    added b j hb := by
      rcases agree.get_eq b j with hsame | ⟨rfl, -⟩
      · rw [hsame]
        refine (rewrites.added b j hb).imp_right ?_
        rintro ⟨n, hn, q, k, rest, hpath, htable, hj⟩
        exact ⟨n, hn, q, k, rest, hpath, (hvalue n (hnew n hn) q _ hpath).trans htable, hj⟩
      · exact absurd own.bindable.globals.inside (Nat.not_lt_of_le hb)
    metatables b := (agree.metatable_eq b).trans (rewrites.grown.metatable b)
    rest := rewrites.rest
    wrappers m hm := by
      have hm₁ : m < s₁.wrapped.size := unbound.wrapped ▸ hm
      exact (furnished.kept m hm₁).trans (by rw [unbound.wrapped])
    limit := furnished.limit.trans unbound.limit }

/-- Before a script starts, all tools are bound under their names, the names that are bound no
longer are removed, the reserved globals are reset, and nothing else has changed. This is whatever
earlier scripts have stored, if the names are accepted, no name bound before or now begins another
one, and each scope of theirs is a table of its own without a metatable. -/
theorem execute_setUp (s : Sandbox) (tools : ToolMap) (w : World) (registered : Registered s)
    (accepted : checkNames (tools.map Prod.fst) = .ok ()) (nodup : (tools.map Prod.fst).Nodup)
    (free : PrefixFree (s.bound.map Binding.name ++ tools.map Prod.fst))
    (own : OwnTables (s.bound.map Binding.name ++ tools.map Prod.fst) s.heap) :
    ∃ r, SetUp tools s r ∧
      (∀ code script, Script.parse scriptChunk (Utf8.encode code) = .ok script →
        s.execute code tools w = r.runParsed script w) ∧
      ∀ code message, Script.parse scriptChunk (Utf8.encode code) = .error message →
        (s.execute code tools w).2.1 = r := by
  have unreserved : ∀ n ∈ s.bound.map Binding.name ++ tools.map Prod.fst, Unreserved n :=
    fun n hn => (List.mem_append.1 hn).elim (unreserved_of_accepted registered.accepted)
      (unreserved_of_accepted accepted)
  have hold : ∀ n ∈ s.boundBeyond (tools.map Prod.fst),
      n ∈ s.bound.map Binding.name ++ tools.map Prod.fst := fun n hn =>
    List.mem_append_left _ (mem_boundBeyond_iff.1 hn).1
  have hnew : ∀ n ∈ tools.map Prod.fst, n ∈ s.bound.map Binding.name ++ tools.map Prod.fst :=
    fun n hn => List.mem_append_right _ hn
  obtain ⟨s₁, unbinds, rewrites₁, unbound, -⟩ :=
    unbinds_rewrites own free hnew hold (own.rewrites (tools.map Prod.fst)) w
  have wrapped : Wrapped s₁ := by
    intro b hb
    rw [unbound.wrapped]
    exact registered.wrapped b ((unbound.bound b).1 hb).1
  obtain ⟨s₂, binds, rewrites₂, furnished⟩ :=
    binds_rewrites own free hnew (fun _ hn => hn) nodup wrapped rewrites₁ w
  have plain := rewrites₂.grown.plainGlobals own.bindable.globals
  have ready : Readies tools s w { s₂ with heap := reset s₂.heap } w :=
    .intro accepted unbinds binds (writesAll_plain plain resets w)
  exact ⟨_, setUp_reset rfl unreserved own unbound furnished rewrites₂,
    fun _ _ => execute_of_readies ready, fun _ _ => execute_of_readies_unreadable ready⟩

end

/-- A sandbox whose script has put a number in the place of a scope, has removed a tool, and has
stored a number in place of a control function. -/
def clobbered : Sandbox :=
  (Sandbox.empty.execute "print = 1; a = 2; c.d = nil" [("a.b", default), ("c.d", default)]
    default).2.1

/-- A tool is bound in scopes that a script has overwritten. -/
theorem execute_setUp_clobbered :
    Registered clobbered ∧ checkNames ["a.e.f"] = .ok () ∧ ["a.e.f"].Nodup ∧
    PrefixFree (clobbered.bound.map Binding.name ++ ["a.e.f"]) ∧
    OwnTables (clobbered.bound.map Binding.name ++ ["a.e.f"]) clobbered.heap ∧
    ∃ r, SetUp [("a.e.f", default)] clobbered r := by
  have registered : Registered clobbered := (Reached.executed _ _ _ .fresh).registered
  obtain ⟨free, own⟩ : PrefixFree (clobbered.bound.map Binding.name ++ ["a.e.f"]) ∧
      OwnTables (clobbered.bound.map Binding.name ++ ["a.e.f"]) clobbered.heap := by
    decide +kernel
  obtain ⟨r, setUp, -⟩ := execute_setUp clobbered [("a.e.f", default)] default registered
    (by decide) (by decide) free own
  exact ⟨registered, by decide, by decide, free, own, r, setUp⟩

end ScriptAgent.Sandbox
