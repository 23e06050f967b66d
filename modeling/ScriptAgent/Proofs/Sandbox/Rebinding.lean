import ScriptAgent.Proofs.Sandbox.Setup

/-!
# Binding tools without metatables

Where no table on the way to a name has a metatable (`Unhooked`), binding tools runs no code of a
script: it does to a sandbox what `Sandbox.rebound` does, and all that happens before a script is
`Sandbox.readied` (`bind_eq_rebound`, `readies_readied`). Both are functions of the sandbox and the
tools, so the surroundings play no part in them.

Tools that are seated, that is bound and found at their paths, are bound again without any change
(`rebound_of_seated`). Once tools have been bound they are seated, if no name begins another one and
each scope of the names is a table of its own (`seated_rebound`).
-/

namespace ScriptAgent.Sandbox

open Script

/-! ## Where no code is run -/

/-- The globals are plain, and no table on the way to some names has a metatable. -/
structure Unhooked (h : Heap) (names : List String) : Prop where
  globals : PlainGlobals h
  along : ∀ n ∈ names, PlainAlong h globalsAddress (keysOf n)

section
variable {h h' : Heap} {a : Address} {k : Bytes} {path : List Bytes} {names names' : List String}
  {n : String} {missing : Missing} {x : Value}

/-- A path stays without metatables in a grown heap. -/
theorem Grown.plainAlong (hg : Grown h h') (hp : PlainAlong h a path) : PlainAlong h' a path := by
  intro scopes rest b hpath hrest hb
  rw [hg.metatable]
  rcases hg.follow (.table a) scopes with hsame | fresh
  · exact hp scopes rest b hpath hrest (hsame.symm.trans hb)
  · rw [Heap.table_of_le (fresh b hb)]
    rfl

theorem Grown.unhooked (hg : Grown h h') (hu : Unhooked h names) : Unhooked h' names :=
  ⟨hg.plainGlobals hu.globals, fun n hn => hg.plainAlong (hu.along n hn)⟩

theorem Unhooked.mono (hu : Unhooked h names) (hsub : ∀ n ∈ names', n ∈ names) :
    Unhooked h names' :=
  ⟨hu.globals, fun n hn => hu.along n (hsub n hn)⟩

/-- Where the scopes of names are clear, no table on the way to them has a metatable. -/
theorem Bindable.unhooked (hb : Bindable h names) : Unhooked h names :=
  ⟨hb.globals, fun n hn => (hb.scopes n hn).plainAlong hb.globals⟩

/-- The host writes at the path of a name by placing the value. -/
theorem Unhooked.assigns (hu : Unhooked h names) (hn : n ∈ names) {tools : Array Tool} {fuel : Nat}
    {w : World} :
    Assigns tools fuel missing x h w (.table globalsAddress) (keysOf n)
      (place missing x h globalsAddress (keysOf n)) w :=
  assigns_place (hu.along n hn)

end

/-! ## What binding does -/

/-- Removes the value at the path of a name, and its binding. -/
def withoutName (s : Sandbox) (n : String) : Sandbox :=
  { s with heap := place .stop .nil s.heap globalsAddress (keysOf n) }.dropBinding n

/-- Puts a tool behind a name, and its wrapper at the path of the name. -/
def withTool (s : Sandbox) (n : String) (tool : Tool) : Sandbox :=
  { (s.wrap n tool).2 with
    heap := place .create (.tool (s.wrap n tool).1) s.heap globalsAddress (keysOf n) }

/-- Removes names one after the other. -/
def withoutNames : List String → Sandbox → Sandbox
  | [], s => s
  | n :: rest, s => withoutNames rest (s.withoutName n)

/-- Puts tools behind their names, one after the other. -/
def withTools : ToolMap → Sandbox → Sandbox
  | [], s => s
  | (n, tool) :: rest, s => withTools rest (s.withTool n tool)

/-- The sandbox after tools have been bound in it, where no table on the way has a metatable. -/
def rebound (s : Sandbox) (tools : ToolMap) : Sandbox :=
  withTools tools (withoutNames (s.boundBeyond (tools.map Prod.fst)) s)

/-- The sandbox in which a script with tools is run, where no table on the way has a metatable. -/
def readied (s : Sandbox) (tools : ToolMap) : Sandbox :=
  { s.rebound tools with heap := reset (s.rebound tools).heap }

section
variable {s : Sandbox} {names : List String} {tools : ToolMap} {n : String}

theorem grown_withoutNames (names : List String) (s : Sandbox) :
    Grown s.heap (withoutNames names s).heap := by
  induction names generalizing s with
  | nil => exact .refl _
  | cons n rest ih =>
    have hfirst : Grown s.heap (s.withoutName n).heap :=
      grown_place (x := .nil) nofun .stop s.heap (keysOf n)
    exact hfirst.trans (ih _)

theorem grown_withTools (tools : ToolMap) (s : Sandbox) :
    Grown s.heap (withTools tools s).heap := by
  induction tools generalizing s with
  | nil => exact .refl _
  | cons e rest ih =>
    obtain ⟨n, tool⟩ := e
    have hfirst : Grown s.heap (s.withTool n tool).heap :=
      grown_place (x := .tool (s.wrap n tool).1) nofun .create s.heap (keysOf n)
    exact hfirst.trans (ih _)

theorem grown_rebound (s : Sandbox) (tools : ToolMap) : Grown s.heap (s.rebound tools).heap :=
  (grown_withoutNames _ s).trans (grown_withTools tools _)

/-- Names are removed without running code. -/
theorem unbinds_withoutNames (hu : Unhooked s.heap names) (w : World) :
    Unbinds names s w (withoutNames names s) w := by
  induction names generalizing s with
  | nil => exact .nil
  | cons n rest ih =>
    have hg : Grown s.heap (s.withoutName n).heap :=
      grown_place (x := .nil) nofun .stop s.heap (keysOf n)
    exact .cons (hu.assigns List.mem_cons_self)
      (ih ((hg.unhooked hu).mono fun m hm => List.mem_cons_of_mem n hm))

/-- Tools are bound without running code. -/
theorem binds_withTools (hu : Unhooked s.heap (tools.map Prod.fst)) (w : World) :
    Binds tools s w (withTools tools s) w := by
  induction tools generalizing s with
  | nil => exact .nil
  | cons e rest ih =>
    obtain ⟨n, tool⟩ := e
    have hg : Grown s.heap (s.withTool n tool).heap :=
      grown_place (x := .tool (s.wrap n tool).1) nofun .create s.heap (keysOf n)
    have hfirst : Assigns (s.wrap n tool).2.wrapped (s.wrap n tool).2.limit .create
        (.tool (s.wrap n tool).1) s.heap w (.table globalsAddress) (keysOf n)
        (s.withTool n tool).heap w := hu.assigns List.mem_cons_self
    rw [← heap_wrap s n tool] at hfirst
    exact .cons hfirst (ih ((hg.unhooked hu).mono fun m hm => List.mem_cons_of_mem n hm))

/-- What is removed and bound where tools are bound. -/
theorem Unhooked.parts
    (hu : Unhooked s.heap (s.bound.map Binding.name ++ tools.map Prod.fst)) :
    Unhooked s.heap (s.boundBeyond (tools.map Prod.fst)) ∧
    Unhooked (withoutNames (s.boundBeyond (tools.map Prod.fst)) s).heap (tools.map Prod.fst) :=
  ⟨hu.mono fun _ hn => List.mem_append_left _ (mem_boundBeyond_iff.1 hn).1,
    ((grown_withoutNames _ s).unhooked hu).mono fun _ hn => List.mem_append_right _ hn⟩

/-- Where no table on the way has a metatable, binding tools returns and runs no code. -/
theorem bind_eq_rebound (accepted : checkNames (tools.map Prod.fst) = .ok ())
    (hu : Unhooked s.heap (s.bound.map Binding.name ++ tools.map Prod.fst)) (w : World) :
    s.bind tools w = (.ok (), s.rebound tools, w) := by
  obtain ⟨hold, hnew⟩ := hu.parts
  rw [bind]
  simp only [accepted, unbindAll_eq_ok_iff.2 (unbinds_withoutNames hold w)]
  exact bindAll_eq_ok_iff.2 (binds_withTools hnew w)

/-- Where no table on the way has a metatable, all that happens before a script runs no code. -/
theorem readies_readied (accepted : checkNames (tools.map Prod.fst) = .ok ())
    (hu : Unhooked s.heap (s.bound.map Binding.name ++ tools.map Prod.fst)) (w : World) :
    Readies tools s w (s.readied tools) w := by
  obtain ⟨hold, hnew⟩ := hu.parts
  exact .intro accepted (unbinds_withoutNames hold w) (binds_withTools hnew w)
    (writesAll_plain ((grown_rebound s tools).plainGlobals hu.globals) resets w)

/-- What has grown out of the fresh heap has no metatables, so no name is hooked in it. -/
theorem unhooked_of_grown {h : Heap} (hg : Grown Sandbox.empty.heap h) (names : List String) :
    Unhooked h names :=
  ⟨hg.plainGlobals plainGlobals_empty, fun _ _ _ _ b _ _ _ =>
    (hg.metatable b).trans (tree_initial.bare b)⟩

/-- Binding tools in a fresh sandbox returns and runs no code. -/
theorem bind_empty (accepted : checkNames (tools.map Prod.fst) = .ok ()) (w : World) :
    Sandbox.empty.bind tools w = (.ok (), Sandbox.empty.rebound tools, w) :=
  bind_eq_rebound accepted (unhooked_of_grown (.refl _) _) w

end

/-! ## Binding again -/

/-- Tools are bound under their names, and their wrappers are at the paths of the names. -/
def Seated (tools : ToolMap) (s : Sandbox) : Prop :=
  ∀ e ∈ tools, ∃ b, s.binding? e.1 = some b ∧ b.tool.id = e.2.id ∧
    valueAt s.heap (keysOf e.1) = .tool b.wrapper

section
variable {s : Sandbox} {h : Heap} {names : List String} {tools : ToolMap} {n : String} {a : Address}
  {k : Bytes} {x : Value} {path : List Bytes} {m : Nat} {b : Binding} {l : List Binding}
  {missing : Missing} {tool : Tool}

/-- Storing the value that is there changes nothing. -/
theorem modifyTable_set_same (hx : (h.table a).getStr k = x) :
    h.modifyTable a (·.set (.str k) x) = h := by
  refine Heap.ext_tables rfl (Heap.size_modifyTable _ _ _) fun b =>
    Table.ext (fun j => ?_) (Heap.metatable_modifyTable_set _ _ _ _ _)
  rw [Heap.get_modifyTable_set]
  split
  · next hcond =>
    obtain ⟨-, rfl, rfl⟩ := hcond
    exact hx.symm
  · rfl

/-- Writing a tool at a path where it is changes nothing. -/
theorem place_same (hx : h.follow (.table a) path = .tool m) :
    place missing (.tool m) h a path = h := by
  fun_induction place missing (.tool m) h a path with
  | case1 => rfl
  | case2 h a leaf =>
    rw [Heap.follow_cons, Heap.field_table] at hx
    exact modifyTable_set_same hx
  | case3 h a scope name rest b hb ih =>
    rw [Heap.follow_cons, Heap.field_table, hb] at hx
    exact ih hx
  | case4 => rfl
  | case5 h a scope name rest _ noTable =>
    rw [Heap.follow_cons, Heap.field_table] at hx
    cases (Heap.follow_of_not_table noTable (List.cons_ne_nil _ _)).symm.trans hx

/-- A tool that is bound under a name keeps its wrapper. -/
theorem wrap_of_bound (hb : s.binding? n = some b) (hid : b.tool.id = tool.id) :
    s.wrap n tool = (b.wrapper, s) := by
  rw [wrap, hb]
  exact if_pos hid

/-- Tools that are seated are bound without any change. -/
theorem withTools_of_seated (seated : Seated tools s) : withTools tools s = s := by
  induction tools with
  | nil => rfl
  | cons e rest ih =>
    obtain ⟨n, tool⟩ := e
    obtain ⟨b, hb, hid, hvalue⟩ := seated (n, tool) List.mem_cons_self
    have hwrap := wrap_of_bound hb hid
    have hfirst : s.withTool n tool = s := by
      rw [withTool, hwrap]
      dsimp only
      rw [place_same hvalue]
    rw [withTools, hfirst]
    exact ih fun e he => seated e (List.mem_cons_of_mem _ he)

/-- Tools that are seated, with nothing else bound, are bound without any change. -/
theorem rebound_of_seated (seated : Seated tools s)
    (bound : ∀ k ∈ s.bound.map Binding.name, k ∈ tools.map Prod.fst) : s.rebound tools = s := by
  rw [rebound, boundBeyond_eq_nil_iff.2 bound]
  exact withTools_of_seated seated

/-! ## Bindings by name -/

theorem find?_putBinding (b : Binding) (l : List Binding) (n : String) :
    (putBinding b l).find? (·.name = n) =
      if b.name = n then some b else l.find? (·.name = n) := by
  induction l with
  | nil => by_cases hn : b.name = n <;> simp [putBinding, hn]
  | cons c rest ih =>
    rw [putBinding]
    by_cases hc : c.name = b.name
    · rw [if_pos hc, List.find?_cons, List.find?_cons, hc]
      by_cases hn : b.name = n <;> simp [hn]
    · rw [if_neg hc, List.find?_cons, List.find?_cons, ih]
      by_cases hn : b.name = n
      · have hcn : c.name ≠ n := fun h => hc (h.trans hn.symm)
        simp [hn, hcn]
      · simp [hn]

/-- What is bound when a tool has got a new wrapper behind a name. -/
theorem binding?_wrapAnew (s : Sandbox) (n : String) (tool : Tool) (k : String) :
    (s.wrapAnew n tool).binding? k =
      if n = k then some ⟨n, tool, s.wrapped.size⟩ else s.binding? k :=
  find?_putBinding ⟨n, tool, s.wrapped.size⟩ s.bound k

/-- A tool that is put behind a name is bound under it. -/
theorem binding?_wrap_self (s : Sandbox) (n : String) (tool : Tool) :
    ∃ b, (s.wrap n tool).2.binding? n = some b ∧ b.tool.id = tool.id ∧
      b.wrapper = (s.wrap n tool).1 := by
  have anew : ∃ b, (s.wrapAnew n tool).binding? n = some b ∧ b.tool.id = tool.id ∧
      b.wrapper = s.wrapped.size := ⟨_, (binding?_wrapAnew s n tool n).trans (if_pos rfl), rfl, rfl⟩
  unfold wrap
  split
  · next b hb =>
    split
    · next hid => exact ⟨b, hb, hid, rfl⟩
    · exact anew
  · exact anew

/-- A tool that is put behind a name leaves what is bound under the others. -/
theorem binding?_wrap_ne {k : String} (hk : k ≠ n) (s : Sandbox) (tool : Tool) :
    (s.wrap n tool).2.binding? k = s.binding? k := by
  have anew : (s.wrapAnew n tool).binding? k = s.binding? k :=
    (binding?_wrapAnew s n tool k).trans (if_neg (Ne.symm hk))
  unfold wrap
  split
  · split
    · rfl
    · exact anew
  · exact anew

/-- Putting tools behind names leaves the other names. -/
theorem binding?_withTools (hn : n ∉ tools.map Prod.fst) :
    (withTools tools s).binding? n = s.binding? n := by
  induction tools generalizing s with
  | nil => rfl
  | cons e rest ih =>
    obtain ⟨k, tool⟩ := e
    rw [List.map_cons, List.mem_cons, not_or] at hn
    rw [withTools, ih hn.2]
    exact binding?_wrap_ne hn.1 s tool

/-- The names that are bound when a tool has been put behind one. -/
theorem mem_names_wrap_iff {k : String} :
    k ∈ (s.wrap n tool).2.bound.map Binding.name ↔ k = n ∨ k ∈ s.bound.map Binding.name := by
  have anew : k ∈ (s.wrapAnew n tool).bound.map Binding.name ↔
      k = n ∨ k ∈ s.bound.map Binding.name := mem_names_putBinding_iff
  unfold wrap
  split
  · next b hb =>
    split
    · have hname : b.name = n := by simpa using List.find?_some hb
      refine ⟨.inr, fun hk => hk.elim ?_ id⟩
      rintro rfl
      exact hname ▸ List.mem_map_of_mem (List.mem_of_find?_eq_some hb)
    · exact anew
  · exact anew

/-- The names that are bound when tools have been put behind theirs. -/
theorem mem_names_withTools_iff :
    n ∈ (withTools tools s).bound.map Binding.name ↔
      n ∈ tools.map Prod.fst ∨ n ∈ s.bound.map Binding.name := by
  induction tools generalizing s with
  | nil => simp [withTools]
  | cons e rest ih =>
    obtain ⟨k, tool⟩ := e
    have hwrap : n ∈ (s.withTool k tool).bound.map Binding.name ↔
        n = k ∨ n ∈ s.bound.map Binding.name := mem_names_wrap_iff
    rw [withTools, ih, hwrap, List.map_cons, List.mem_cons, or_left_comm, or_assoc]

/-- The names that are bound when some have been removed. -/
theorem mem_names_withoutNames_iff :
    n ∈ (withoutNames names s).bound.map Binding.name ↔
      n ∈ s.bound.map Binding.name ∧ n ∉ names := by
  induction names generalizing s with
  | nil => simp [withoutNames]
  | cons k rest ih =>
    have hdrop : n ∈ (s.withoutName k).bound.map Binding.name ↔
        n ∈ s.bound.map Binding.name ∧ n ≠ k := by
      simp only [withoutName, dropBinding, List.mem_map, List.mem_filter, decide_eq_true_eq]
      constructor
      · rintro ⟨b, ⟨hb, hne⟩, rfl⟩
        exact ⟨⟨b, hb, rfl⟩, hne⟩
      · rintro ⟨⟨b, hb, rfl⟩, hne⟩
        exact ⟨b, ⟨hb, hne⟩, rfl⟩
    rw [withoutNames, ih, hdrop, List.mem_cons, not_or, and_assoc]

/-- The names that are bound when tools have been bound are theirs. -/
theorem mem_names_rebound_iff :
    n ∈ (s.rebound tools).bound.map Binding.name ↔ n ∈ tools.map Prod.fst := by
  rw [rebound, mem_names_withTools_iff, mem_names_withoutNames_iff]
  refine or_iff_left_of_imp fun ⟨hbound, hkept⟩ => ?_
  by_contra hnot
  exact hkept (List.mem_filter.2 ⟨hbound, by simpa using hnot⟩)

/-! ## Where tools are seated -/

/-- Removing the value at a path makes fields empty, and changes nothing else in tables. -/
theorem get_place_stop_nil (h : Heap) (a : Address) (path : List Bytes) (b : Address) (j : Key) :
    ((place .stop .nil h a path).table b).get j = (h.table b).get j ∨
      ((place .stop .nil h a path).table b).get j = .nil := by
  fun_induction place .stop .nil h a path with
  | case1 => exact .inl rfl
  | case2 h a leaf =>
    rw [Heap.get_modifyTable_set]
    split
    · exact .inr rfl
    · exact .inl rfl
  | case3 h a scope name rest c hc ih => exact ih
  | case4 => exact .inl rfl
  | case5 h a scope name rest create => cases create

/-- Where fields have only been made empty, a table at a path has been there before. -/
theorem valueAt_of_emptied {h' : Heap}
    (emptied : ∀ b j, (h'.table b).get j = (h.table b).get j ∨ (h'.table b).get j = .nil)
    (ha : valueAt h' path = .table a) : valueAt h path = .table a := by
  induction path using List.reverseRecOn generalizing a with
  | nil => exact ha
  | append_singleton q k ih =>
    rw [valueAt_concat] at ha ⊢
    rcases (valueAt h' q).table_or_not with ⟨c, hc⟩ | noTable
    · rw [ih hc, Heap.field_table]
      rw [hc, Heap.field_table] at ha
      rcases emptied c (.str k) with hsame | hnil
      · exact hsame.symm.trans ha
      · cases hnil.symm.trans ha
    · cases (Heap.field_of_not_table noTable k).symm.trans ha

/-- Scopes that are tables of their own stay so when names are removed. -/
theorem OwnTables.withoutNames {removed : List String} (own : OwnTables names s.heap) :
    OwnTables names (withoutNames removed s).heap := by
  induction removed generalizing s with
  | nil => exact own
  | cons n rest ih =>
    have hg : Grown s.heap (s.withoutName n).heap :=
      grown_place (x := .nil) nofun .stop s.heap (keysOf n)
    have before : ∀ {p a}, valueAt (s.withoutName n).heap p = .table a →
        valueAt s.heap p = .table a := fun ha =>
      valueAt_of_emptied (get_place_stop_nil s.heap globalsAddress (keysOf n)) ha
    refine ih ⟨fun p a hp ha => ?_, fun p a hp ha => ?_, fun p q a hp hq ha hb => ?_⟩
    · exact Nat.lt_of_lt_of_le (own.inside p a hp (before ha)) hg.size
    · exact (hg.metatable a).trans (own.plain p a hp (before ha))
    · exact own.apart p q a hp hq (before ha) (before hb)

/-- Tools that are put behind names are seated, if no name begins another one and each scope is a
table of its own. What is at the paths of other names stays. -/
theorem seated_withTools (free : PrefixFree names) (sep : Separate (IsScope names) s.heap)
    (hsub : ∀ k ∈ tools.map Prod.fst, k ∈ names) (nodup : (tools.map Prod.fst).Nodup) :
    Seated tools (withTools tools s) ∧
    ∀ k ∈ names, k ∉ tools.map Prod.fst →
      valueAt (withTools tools s).heap (keysOf k) = valueAt s.heap (keysOf k) := by
  induction tools generalizing s with
  | nil => exact ⟨nofun, fun _ _ _ => rfl⟩
  | cons e rest ih =>
    obtain ⟨n, tool⟩ := e
    rw [List.map_cons, List.nodup_cons] at nodup
    have hn : n ∈ names := hsub n List.mem_cons_self
    have root : valueAt s.heap [] = .table globalsAddress := rfl
    obtain ⟨sep', written⟩ := sep.place_create (x := .tool (s.wrap n tool).1) nofun
      (keysOf_ne_nil n) root (below_keysOf hn)
    obtain ⟨seated, other⟩ := ih (s := s.withTool n tool) sep'
      (fun k hk => hsub k (List.mem_cons_of_mem n hk)) nodup.2
    refine ⟨fun e he => ?_, fun k hk hnot => ?_⟩
    · rcases List.mem_cons.1 he with rfl | he
      · -- the tools that are put behind names after this one leave its name
        obtain ⟨b, hb, hid, hwrapper⟩ := binding?_wrap_self s n tool
        refine ⟨b, (binding?_withTools nodup.1).trans hb, hid, ?_⟩
        rw [hwrapper]
        exact (other n hn nodup.1).trans written.here
      · exact seated e he
    · rw [List.map_cons, List.mem_cons, not_or] at hnot
      exact (other k hk hnot.2).trans
        (written.other (keysOf k) (below_keysOf hk) (free.apart hn hk (Ne.symm hnot.1)))

/-- Tools that have been bound are seated. -/
theorem seated_rebound (free : PrefixFree (tools.map Prod.fst))
    (own : OwnTables (tools.map Prod.fst) s.heap) (nodup : (tools.map Prod.fst).Nodup) :
    Seated tools (s.rebound tools) :=
  (seated_withTools free own.withoutNames.separate (fun _ => id) nodup).1

/-- Binding the same tools again changes nothing. -/
theorem rebound_rebound (free : PrefixFree (tools.map Prod.fst))
    (own : OwnTables (tools.map Prod.fst) s.heap) (nodup : (tools.map Prod.fst).Nodup) :
    (s.rebound tools).rebound tools = s.rebound tools :=
  rebound_of_seated (seated_rebound free own nodup) fun _ => mem_names_rebound_iff.1

/-! ## Getting ready again -/

/-- Resetting the globals again changes nothing. -/
theorem reset_reset (h : Heap) : reset (reset h) = reset h := by
  rw [reset, reset, Heap.modifyTable_modifyTable]
  exact congrArg (h.modifyTable globalsAddress) (funext fun t =>
    setAll_congr (Table.metatable_setAll t _) fun _ hk => Table.get_setAll_of_not_mem hk)

/-- What is at the path of a name stays when the globals are reset. -/
theorem valueAt_reset (hb : Bindable h names) (free : ∀ k ∈ names, Unreserved k) (hn : n ∈ names) :
    valueAt (reset h) (keysOf n) = valueAt h (keysOf n) := by
  let t : Sandbox := ⟨h, #[], [], 0⟩
  exact (agreeBut_reset t).follow (hb.scopes n hn) (free n hn)
    (List.append_nil _).symm (keysOf_ne_nil n)

/-- Getting ready again with the same tools changes nothing. -/
theorem readied_readied (accepted : checkNames (tools.map Prod.fst) = .ok ())
    (free : PrefixFree (tools.map Prod.fst)) (own : OwnTables (tools.map Prod.fst) s.heap)
    (nodup : (tools.map Prod.fst).Nodup) : (s.readied tools).readied tools = s.readied tools := by
  have hb := (grown_rebound s tools).bindable own.bindable
  have seated : Seated tools (s.readied tools) := by
    intro e he
    obtain ⟨b, hbinding, hid, hvalue⟩ := seated_rebound free own nodup e he
    exact ⟨b, hbinding, hid, (valueAt_reset hb (fun _ => unreserved_of_accepted accepted)
      (List.mem_map_of_mem he)).trans hvalue⟩
  have hsame : (s.readied tools).rebound tools = s.readied tools :=
    rebound_of_seated seated fun _ => mem_names_rebound_iff.1
  rw [readied, hsame]
  exact congrArg (fun h => { s.rebound tools with heap := h }) (reset_reset _)

end

end ScriptAgent.Sandbox
