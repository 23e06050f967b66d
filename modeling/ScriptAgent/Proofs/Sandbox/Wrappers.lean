import ScriptAgent.Proofs.Sandbox.Rebinding

/-!
# The wrappers of tools

A tool gets a wrapper when it is bound under a name that did not have it before, and keeps it as
long as it is bound there. So after calls that bind tools, the bindings are exactly those of the
last map, each with the tool behind its wrapper (`Serves`), and as many wrappers have been made as
there are entries of the maps whose tool is not the one that the map before gave the name
(`ReturnsAll.serves`).
-/

namespace ScriptAgent.Sandbox

open Script

/-! ## What a map gives -/

/-- The identity of the tool that a map has under a name. -/
def toolIdOf (tools : ToolMap) (n : String) : Option Nat :=
  (tools.find? (·.1 = n)).map (·.2.id)

/-- The identity of the tool that is bound under a name. -/
def boundId (s : Sandbox) (n : String) : Option Nat := (s.binding? n).map (·.tool.id)

/-- The bindings of a sandbox are those of a map, and behind the wrapper of each is its tool. -/
structure Serves (tools : ToolMap) (s : Sandbox) : Prop where
  nodup : (s.bound.map Binding.name).Nodup
  ids : ∀ n, s.boundId n = toolIdOf tools n
  behind : ∀ b ∈ s.bound, s.wrapped[b.wrapper]? = some b.tool

/-- The number of entries of a map whose tool is not the one that another map has under the name. -/
def renewed (before tools : ToolMap) : Nat :=
  tools.countP fun e => toolIdOf before e.1 ≠ some e.2.id

/-- The number of entries of maps whose tool is not the one that the map before gives the name. -/
def renewals (before : ToolMap) : List ToolMap → Nat
  | [] => 0
  | tools :: rest => renewed before tools + renewals tools rest

/-- Puts tools behind names, without writing them anywhere. -/
def wrapAll : ToolMap → Sandbox → Sandbox
  | [], s => s
  | (n, tool) :: rest, s => wrapAll rest (s.wrap n tool).2

section
variable {s s' : Sandbox} {w w' : World} {n k : String} {tool : Tool} {tools before : ToolMap}
  {names : List String} {b : Binding} {l : List Binding}

theorem toolIdOf_eq_none_iff : toolIdOf tools n = none ↔ n ∉ tools.map Prod.fst := by
  simp only [toolIdOf, Option.map_eq_none_iff, List.find?_eq_none, List.mem_map, not_exists,
    not_and, decide_eq_true_eq]

theorem toolIdOf_of_mem (nodup : (tools.map Prod.fst).Nodup) {e : String × Tool} (he : e ∈ tools) :
    toolIdOf tools e.1 = some e.2.id := by
  induction tools with
  | nil => cases he
  | cons f rest ih =>
    rw [List.map_cons, List.nodup_cons] at nodup
    rcases List.mem_cons.1 he with rfl | he
    · simp [toolIdOf]
    · have hne : f.1 ≠ e.1 := fun h => nodup.1 (h ▸ List.mem_map_of_mem he)
      have htail := ih nodup.2 he
      rw [toolIdOf] at htail ⊢
      rwa [List.find?_cons_of_neg (by simpa using hne)]

/-- The names that are bound are those of the map. -/
theorem Serves.mem_names_iff (serves : Serves tools s) :
    n ∈ s.bound.map Binding.name ↔ n ∈ tools.map Prod.fst := by
  have hnone : s.boundId n = none ↔ n ∉ s.bound.map Binding.name := by
    simp [boundId, binding?]
  rw [← not_iff_not, ← hnone, serves.ids, toolIdOf_eq_none_iff]

/-! ## Wrapping -/

/-- Behind the wrapper of each binding is its tool, and no name is bound twice. -/
structure Tended (s : Sandbox) : Prop where
  nodup : (s.bound.map Binding.name).Nodup
  behind : ∀ b ∈ s.bound, s.wrapped[b.wrapper]? = some b.tool

theorem nodup_names_putBinding (nodup : (l.map Binding.name).Nodup) :
    ((putBinding b l).map Binding.name).Nodup := by
  induction l with
  | nil => exact List.nodup_singleton _
  | cons c rest ih =>
    rw [List.map_cons, List.nodup_cons] at nodup
    rw [putBinding]
    split
    · next hc => exact List.nodup_cons.2 ⟨hc ▸ nodup.1, nodup.2⟩
    · next hc =>
      refine List.nodup_cons.2 ⟨fun hmem => ?_, ih nodup.2⟩
      rcases mem_names_putBinding_iff.1 hmem with h | h
      · exact hc h
      · exact nodup.1 h

/-- A new wrapper has its tool behind it, and the others keep theirs. -/
theorem Tended.wrapAnew (tended : Tended s) (n : String) (tool : Tool) :
    Tended (s.wrapAnew n tool) where
  nodup := nodup_names_putBinding tended.nodup
  behind b hb := by
    rcases eq_or_mem_of_mem_putBinding hb with rfl | hb
    · exact Array.getElem?_push_size
    · have hbehind := tended.behind b hb
      have hlt : b.wrapper < s.wrapped.size := by
        by_contra hle
        rw [Array.getElem?_eq_none (Nat.le_of_not_lt hle)] at hbehind
        cases hbehind
      exact (Array.getElem?_push_lt hlt).trans ((Array.getElem?_eq_getElem hlt).symm.trans hbehind)

theorem Tended.wrap (tended : Tended s) (n : String) (tool : Tool) : Tended (s.wrap n tool).2 := by
  unfold Sandbox.wrap
  split
  · split
    · exact tended
    · exact tended.wrapAnew n tool
  · exact tended.wrapAnew n tool

/-- A new wrapper is made exactly if the tool is not the one that is bound under the name. -/
theorem size_wrap (s : Sandbox) (n : String) (tool : Tool) :
    (s.wrap n tool).2.wrapped.size =
      s.wrapped.size + if s.boundId n = some tool.id then 0 else 1 := by
  have anew : (s.wrapAnew n tool).wrapped.size = s.wrapped.size + 1 := Array.size_push _
  unfold wrap boundId
  split
  · next b hb =>
    rw [hb]
    split
    · next hid => simp [hid]
    · next hid => simpa [hid] using anew
  · next hb =>
    rw [hb]
    simpa using anew

theorem boundId_wrap (s : Sandbox) (n : String) (tool : Tool) (k : String) :
    (s.wrap n tool).2.boundId k = if k = n then some tool.id else s.boundId k := by
  split
  · next hk =>
    obtain ⟨b, hb, hid, -⟩ := binding?_wrap_self s n tool
    rw [boundId, hk, hb, Option.map_some, hid]
  · next hk => rw [boundId, boundId, binding?_wrap_ne hk]

/-- What putting tools behind names does: the names get their tools, the others stay, and a wrapper
is made for each tool that is not the one bound under its name. -/
theorem Tended.wrapAll (tended : Tended s) (nodup : (tools.map Prod.fst).Nodup) :
    Tended (wrapAll tools s) ∧
    (∀ n, (wrapAll tools s).boundId n = (toolIdOf tools n).or (s.boundId n)) ∧
    (wrapAll tools s).wrapped.size =
      s.wrapped.size + tools.countP fun e => s.boundId e.1 ≠ some e.2.id := by
  induction tools generalizing s with
  | nil => exact ⟨tended, fun _ => rfl, rfl⟩
  | cons e rest ih =>
    obtain ⟨n, tool⟩ := e
    rw [List.map_cons, List.nodup_cons] at nodup
    obtain ⟨tended', ids, size⟩ := ih (tended.wrap n tool) nodup.2
    refine ⟨tended', fun k => ?_, ?_⟩
    · rw [Sandbox.wrapAll, ids, boundId_wrap]
      by_cases hk : k = n
      · subst hk
        rw [if_pos rfl, toolIdOf_eq_none_iff.2 nodup.1]
        simp [toolIdOf]
      · rw [if_neg hk]
        simp [toolIdOf, Ne.symm hk]
    · -- the names are different, so what is bound under the others is what was bound before
      have hcount : (rest.countP fun e => (s.wrap n tool).2.boundId e.1 ≠ some e.2.id) =
          rest.countP fun e => s.boundId e.1 ≠ some e.2.id := by
        refine List.countP_congr fun e he => ?_
        have hmem : e.1 ∈ rest.map Prod.fst := List.mem_map_of_mem he
        have hne : e.1 ≠ n := fun h => nodup.1 (h ▸ hmem)
        rw [boundId_wrap, if_neg hne]
      rw [Sandbox.wrapAll, size, size_wrap, hcount, List.countP_cons]
      by_cases hid : s.boundId n = some tool.id
      · simp [hid]
      · simp only [hid, if_false, ne_eq, not_false_eq_true, decide_true, if_true]
        omega

/-! ## Binding -/

/-- Removing names removes their bindings, and nothing else but from the heap. -/
theorem Unbinds.sameBut (unbinds : Unbinds names s w s' w') :
    SameBut { s with bound := s.bound.filter fun b => b.name ∉ names } s' := by
  induction unbinds with
  | @nil s w => exact ⟨s.heap, by simp⟩
  | cons assign next ih =>
    obtain ⟨h, rfl⟩ := ih
    refine ⟨h, ?_⟩
    simp only [dropBinding, List.filter_filter, List.mem_cons, not_or, Bool.decide_and, ne_eq]
    congr 2
    funext b
    rw [Bool.and_comm]

/-- Binding tools puts them behind their names, and changes nothing else but the heap. -/
theorem Binds.sameBut (binds : Binds tools s w s' w') : SameBut (wrapAll tools s) s' := by
  have hheap : ∀ (tools : ToolMap) (s : Sandbox) (h : Heap),
      SameBut (wrapAll tools s) (wrapAll tools { s with heap := h }) := by
    intro tools
    induction tools with
    | nil => exact fun s h => ⟨h, rfl⟩
    | cons e rest ih =>
      obtain ⟨n, tool⟩ := e
      intro s h
      rw [wrapAll, wrapAll, wrap_heap s h n tool]
      exact ih (s.wrap n tool).2 h
  induction binds with
  | nil => exact ⟨_, rfl⟩
  | cons assign next ih => exact (hheap _ (Sandbox.wrap _ _ _).2 _).trans ih

/-- Removing bindings by their names leaves those of the other names. -/
theorem find?_filter_names (keep : String → Bool) (l : List Binding) (n : String) :
    (l.filter fun b => keep b.name).find? (·.name = n) =
      if keep n then l.find? (·.name = n) else none := by
  induction l with
  | nil => simp
  | cons b rest ih =>
    by_cases hb : b.name = n
    · subst hb
      cases hkeep : keep b.name <;> simp [hkeep]
      simpa [hkeep] using ih
    · cases hkeep : keep b.name <;> simp [hkeep, hb, ih]

/-- When a map is to be bound, the names that are bound beyond it are removed, and no others. -/
theorem boundId_filter (s : Sandbox) (tools : ToolMap) (h : Heap) (n : String) :
    ({ s with
        bound := s.bound.filter fun b => b.name ∉ s.boundBeyond (tools.map Prod.fst)
        heap := h } : Sandbox).boundId n =
      if n ∈ tools.map Prod.fst then s.boundId n else none := by
  have hfind := find?_filter_names (fun k => k ∉ s.boundBeyond (tools.map Prod.fst)) s.bound n
  rw [boundId, binding?, hfind]
  by_cases hn : n ∈ tools.map Prod.fst
  · have hkept : decide (n ∉ s.boundBeyond (tools.map Prod.fst)) = true :=
      decide_eq_true fun h => (mem_boundBeyond_iff.1 h).2 hn
    rw [if_pos hn, if_pos hkept]
    rfl
  · rw [if_neg hn]
    by_cases hbound : n ∈ s.bound.map Binding.name
    · have hremoved : ¬ decide (n ∉ s.boundBeyond (tools.map Prod.fst)) = true := fun h =>
        of_decide_eq_true h (mem_boundBeyond_iff.2 ⟨hbound, hn⟩)
      rw [if_neg hremoved]
      rfl
    · have hnone : s.bound.find? (·.name = n) = none := by simpa using hbound
      rw [hnone, ite_self]
      rfl

/-- Where a map has been served, binding another one makes the sandbox serve that one, and makes a
wrapper for each of its tools that is not the one of before. -/
theorem Serves.bind (serves : Serves before s) (nodup : (tools.map Prod.fst).Nodup)
    (hbind : s.bind tools w = (.ok (), s', w')) :
    Serves tools s' ∧ s'.wrapped.size = s.wrapped.size + renewed before tools := by
  unfold Sandbox.bind at hbind
  dsimp only at hbind
  split at hbind
  · cases hbind
  split at hbind
  · cases hbind
  next s₁ w₁ hunbind =>
  obtain ⟨h₁, rfl⟩ := (unbindAll_eq_ok_iff.1 hunbind).sameBut
  obtain ⟨h', rfl⟩ := (bindAll_eq_ok_iff.1 hbind).sameBut
  have hkept := boundId_filter s tools h₁
  generalize hk : ({ s with
    bound := s.bound.filter fun b => b.name ∉ s.boundBeyond (tools.map Prod.fst)
    heap := h₁ } : Sandbox) = kept at hkept hbind ⊢
  have tended : Tended kept := by
    subst hk
    exact ⟨serves.nodup.sublist (List.filter_sublist.map Binding.name),
      fun b hb => serves.behind b (List.mem_filter.1 hb).1⟩
  obtain ⟨⟨nodup', behind⟩, ids, size⟩ := tended.wrapAll nodup
  refine ⟨⟨nodup', fun n => ?_, behind⟩, ?_⟩
  · refine (ids n).trans ?_
    rw [hkept]
    split
    · next hn =>
      obtain ⟨e, he, rfl⟩ := List.mem_map.1 hn
      rw [toolIdOf_of_mem nodup he]
      rfl
    · exact Option.or_none
  · have hsize : kept.wrapped.size = s.wrapped.size := by rw [← hk]
    rw [hsize] at size
    refine size.trans (congrArg (s.wrapped.size + ·) (List.countP_congr fun e he => ?_))
    rw [hkept, if_pos (List.mem_map_of_mem he), serves.ids]

end

/-! ## Calls -/

/-- A call of the host that binds tools. -/
inductive Call where
  | bind (tools : ToolMap)
  | execute (tools : ToolMap) (code : String)

/-- The tools that a call binds. -/
def Call.tools : Call → ToolMap
  | .bind tools | .execute tools _ => tools

/-- A call returns. -/
inductive Returns : Call → Sandbox → World → Sandbox → World → Prop
  | bind {tools : ToolMap} {s s' : Sandbox} {w w' : World}
      (returns : s.bind tools w = (.ok (), s', w')) : Returns (.bind tools) s w s' w'
  | execute {tools : ToolMap} {code : String} {e : Execution} {s s' : Sandbox} {w w' : World}
      (returns : s.execute code tools w = (.ok e, s', w')) :
      Returns (.execute tools code) s w s' w'

/-- Calls return, one after the other. -/
inductive ReturnsAll : List Call → Sandbox → World → Sandbox → World → Prop
  | nil {s : Sandbox} {w : World} : ReturnsAll [] s w s w
  | cons {call : Call} {rest : List Call} {s s₁ s' : Sandbox} {w w₁ w' : World}
      (first : Returns call s w s₁ w₁) (next : ReturnsAll rest s₁ w₁ s' w') :
      ReturnsAll (call :: rest) s w s' w'

section
variable {s s' : Sandbox} {w w' : World} {tools before : ToolMap}

/-- A sandbox still serves a map when its heap has changed. -/
theorem Serves.sameBut (serves : Serves tools s) (same : SameBut s s') : Serves tools s' := by
  obtain ⟨h, rfl⟩ := same
  exact ⟨serves.nodup, serves.ids, serves.behind⟩

/-- A call that returns has bound its tools, and changed nothing else after it but the heap. -/
theorem Returns.bind_sameBut {call : Call} (returns : Returns call s w s' w') :
    ∃ s₁ w₁, s.bind call.tools w = (.ok (), s₁, w₁) ∧ SameBut s₁ s' := by
  cases returns with
  | bind hbind => exact ⟨s', w', hbind, s'.heap, rfl⟩
  | @execute tools code e _ _ _ _ hexecute =>
    have ready : ∃ s₁ w₁, Readies tools s w s₁ w₁ ∧ SameBut s₁ s' := by
      cases execute_eq_ok_iff.1 hexecute with
      | unreadable ready _ => exact ⟨_, _, ready, _, rfl⟩
      | failed ready _ _ _ _ => exact ⟨_, _, ready, _, rfl⟩
      | ended ready _ _ _ _ => exact ⟨_, _, ready, _, rfl⟩
    obtain ⟨s₂, w₂, ready, same⟩ := ready
    obtain ⟨s₁, w₁, hbind, hprepare⟩ := readies_iff.1 ready
    have hsame := sameBut_perform s₁ prepare w₁
    rw [hprepare] at hsame
    exact ⟨s₁, w₁, hbind, hsame.trans same⟩

/-- After calls that return, the sandbox serves the map of the last one, and as many wrappers have
been made as tools have been new under their names. -/
theorem ReturnsAll.serves {calls : List Call} (returns : ReturnsAll calls s w s' w')
    (nodup : ∀ c ∈ calls, (c.tools.map Prod.fst).Nodup) (serves : Serves before s) :
    Serves ((calls.map Call.tools).getLastD before) s' ∧
    s'.wrapped.size = s.wrapped.size + renewals before (calls.map Call.tools) := by
  induction returns generalizing before with
  | nil => exact ⟨serves, rfl⟩
  | @cons call rest s s₁ s' w w₁ w' first next ih =>
    obtain ⟨s₂, w₂, hbind, same⟩ := first.bind_sameBut
    obtain ⟨serves₂, size⟩ := serves.bind (nodup call List.mem_cons_self) hbind
    obtain ⟨serves', size'⟩ := ih (fun c hc => nodup c (List.mem_cons_of_mem _ hc))
      (serves₂.sameBut same)
    obtain ⟨h, rfl⟩ := same
    rw [List.map_cons, List.getLastD_cons, renewals]
    exact ⟨serves', by rw [size', size, Nat.add_assoc]⟩

/-- A fresh sandbox serves the empty map. -/
theorem serves_empty : Serves [] .empty := ⟨List.nodup_nil, fun _ => rfl, nofun⟩

end

end ScriptAgent.Sandbox
