import ScriptAgent.Proofs.Sandbox.Lookup

/-!
# What names lead to after binding

Maps of tools are bound one after the other in a fresh sandbox. Names are paths, so the place of a
name can be above or below that of another one, and the names that begin with the globals' own name
have the same places as those without it. Binding a name removes what is below its place and
replaces what is above it by scopes.

So a name leads to a wrapper of a tool exactly if, of the entries of the last map whose places are
not apart from its own, the last one has its place and that tool (`Sandbox.bindEach_leadsTo_iff`).
A name below another one, or above it, can therefore take its place
(`Sandbox.bindEach_displaces`).
-/

namespace ScriptAgent.Sandbox

open Script

/-! ## Wrapping a tool -/

section
variable {s s' s₁ : Sandbox} {w : World} {n k : String} {tool : Tool} {b c : Binding}
  {l : List Binding} {m : Nat}

/-- A binding is put among the others. -/
theorem eq_or_mem_of_mem_putBinding (hc : c ∈ putBinding b l) : c = b ∨ c ∈ l := by
  induction l with
  | nil => exact .inl (List.mem_singleton.1 hc)
  | cons d rest ih =>
    rw [putBinding] at hc
    split at hc
    · exact (List.mem_cons.1 hc).imp_right (List.mem_cons_of_mem _)
    · rcases List.mem_cons.1 hc with rfl | hc
      · exact .inr List.mem_cons_self
      · exact (ih hc).imp_right (List.mem_cons_of_mem _)

/-- A binding that is put among others adds its name to theirs. -/
theorem mem_names_putBinding_iff :
    k ∈ (putBinding b l).map Binding.name ↔ k = b.name ∨ k ∈ l.map Binding.name := by
  induction l with
  | nil => simp [putBinding]
  | cons d rest ih =>
    rw [putBinding]
    split
    · next hd => simp [hd]
    · rw [List.map_cons, List.mem_cons, ih, List.map_cons, List.mem_cons]
      exact or_left_comm

/-- A sandbox in which a tool has been wrapped behind a name, with the number of the wrapper. -/
structure Wraps (n : String) (tool : Tool) (s : Sandbox) (m : Nat) (s' : Sandbox) : Prop where
  heap : s'.heap = s.heap
  size : s.wrapped.size ≤ s'.wrapped.size
  kept : ∀ i < s.wrapped.size, s'.wrapped.getD i default = s.wrapped.getD i default
  inside : m < s'.wrapped.size
  behind : (s'.wrapped.getD m default).id = tool.id
  bound : ∀ b ∈ s'.bound, b ∈ s.bound ∨ b.name = n ∧ b.wrapper = m ∧ b.tool.id = tool.id
  names : ∀ k, k ∈ s'.bound.map Binding.name ↔ k = n ∨ k ∈ s.bound.map Binding.name

/-- A new wrapper wraps its tool. -/
theorem wraps_wrapAnew (s : Sandbox) (n : String) (tool : Tool) :
    Wraps n tool s s.wrapped.size (s.wrapAnew n tool) where
  heap := rfl
  size := by simp [wrapAnew]
  kept i hi := by simp [wrapAnew, Array.getElem?_push, Nat.ne_of_lt hi]
  inside := by simp [wrapAnew]
  behind := by simp [wrapAnew]
  bound b hb := by
    rcases eq_or_mem_of_mem_putBinding hb with rfl | hb
    · exact .inr ⟨rfl, rfl, rfl⟩
    · exact .inl hb
  names k := mem_names_putBinding_iff

/-- What is behind the wrappers of a sandbox: for each binding its tool. -/
def Wrapped (s : Sandbox) : Prop :=
  ∀ b ∈ s.bound, b.wrapper < s.wrapped.size ∧
    (s.wrapped.getD b.wrapper default).id = b.tool.id

/-- A tool is wrapped behind a name, in the wrapper of before if it has one there. -/
theorem Wrapped.wrap (wrapped : Wrapped s) (n : String) (tool : Tool) :
    Wraps n tool s (s.wrap n tool).1 (s.wrap n tool).2 := by
  unfold Sandbox.wrap
  split
  · next b hb =>
    split
    · next hid =>
      have hmem : b ∈ s.bound := List.mem_of_find?_eq_some hb
      have hname : b.name = n := by simpa using List.find?_some hb
      obtain ⟨hsize, htool⟩ := wrapped b hmem
      refine ⟨rfl, Nat.le_refl _, fun _ _ => rfl, hsize, htool.trans hid, fun _ => .inl,
        fun k => ⟨.inr, fun hk => ?_⟩⟩
      rcases hk with rfl | hk
      · exact hname ▸ List.mem_map_of_mem hmem
      · exact hk
    · exact wraps_wrapAnew s n tool
  · exact wraps_wrapAnew s n tool

/-- Wrapping a tool keeps what is behind the wrappers. -/
theorem Wraps.wrapped (wraps : Wraps n tool s m s') (wrapped : Wrapped s) : Wrapped s' := by
  intro b hb
  rcases wraps.bound b hb with hb | ⟨-, rfl, hid⟩
  · obtain ⟨hsize, htool⟩ := wrapped b hb
    exact ⟨Nat.lt_of_lt_of_le hsize wraps.size, by rw [wraps.kept _ hsize, htool]⟩
  · exact ⟨wraps.inside, wraps.behind.trans hid.symm⟩

end

/-! ## One name -/

/-- A sandbox that only the host has written: its heap is a tree, and the tools in it are at the
places of the names that are bound. -/
structure Sound (s : Sandbox) : Prop where
  tree : Tree s.heap
  wrapped : Wrapped s
  places : ∀ b ∈ s.bound, placeOf b.name ≠ []
  held : ∀ p m, Direct p → valueAt s.heap p = .tool m →
    ∃ k ∈ s.bound.map Binding.name, placeOf k = p

/-- A tool has been bound under a name. -/
structure Bound (n : String) (tool : Tool) (s s' : Sandbox) : Prop where
  size : s.wrapped.size ≤ s'.wrapped.size
  kept : ∀ i < s.wrapped.size, s'.wrapped.getD i default = s.wrapped.getD i default
  names : ∀ k, k ∈ s'.bound.map Binding.name ↔ k = n ∨ k ∈ s.bound.map Binding.name
  placed : ∃ m, Placed (.tool m) (placeOf n) s.heap s'.heap ∧ m < s'.wrapped.size ∧
    (s'.wrapped.getD m default).id = tool.id

section
variable {s s' s₁ : Sandbox} {w : World} {n k : String} {tool : Tool} {p q : List Bytes}
  {x : Value} {missing : Missing} {m id : Nat}

/-- The host writes at the place of a name. -/
theorem perform_assign_of_tree (tree : Tree s.heap) (hn : placeOf n ≠ []) (w : World) :
    s.perform (assign missing n x) w =
      (.ok (), { s with heap := place missing x s.heap globalsAddress (placeOf n) }, w) := by
  rw [perform_assign_plain fun _ _ b _ _ _ => tree.bare b, tree.place_shorten hn, placeOf]

/-- Binding a tool under a name keeps a sandbox sound. -/
theorem Sound.bindOne (sound : Sound s) (hn : placeOf n ≠ []) (tool : Tool) (w : World) :
    ∃ s', (s.wrap n tool).2.perform (assign .create n (.tool (s.wrap n tool).1)) w =
        (.ok (), s', w) ∧ Sound s' ∧ Bound n tool s s' := by
  have wraps := sound.wrapped.wrap n tool
  have tree := sound.tree
  rw [← wraps.heap] at tree
  have direct : Direct ([] ++ placeOf n) := direct_shorten (keysOf n)
  obtain ⟨tree', placed⟩ := tree.place_create (x := .tool (s.wrap n tool).1) nofun hn rfl direct
  have placed : Placed (.tool (s.wrap n tool).1) (placeOf n) s.heap
      (place .create (.tool (s.wrap n tool).1) (s.wrap n tool).2.heap globalsAddress
        (placeOf n)) := by
    rw [← wraps.heap]
    exact placed
  refine ⟨_, perform_assign_of_tree tree hn w, ⟨tree', wraps.wrapped sound.wrapped, ?_, ?_⟩,
    ⟨wraps.size, wraps.kept, wraps.names, _, placed, wraps.inside, wraps.behind⟩⟩
  · intro b hb
    rcases wraps.bound b hb with hb | ⟨rfl, -⟩
    · exact sound.places b hb
    · exact hn
  · intro p m hp hm
    by_cases hpn : p = placeOf n
    · exact ⟨n, (wraps.names n).2 (.inl rfl), hpn.symm⟩
    · rcases placed.cases hp hpn with ⟨a, ha⟩ | hnil | ⟨-, hsame⟩
      · cases ha.symm.trans hm
      · cases hnil.symm.trans hm
      · obtain ⟨k, hk, hkp⟩ := sound.held p m hp (hsame.symm.trans hm)
        exact ⟨k, (wraps.names k).2 (.inr hk), hkp⟩

/-- Removing a name keeps a sandbox sound. -/
theorem Sound.unbindOne (sound : Sound s) (hn : placeOf n ≠ []) (w : World) :
    ∃ s', s.perform (assign .stop n .nil) w = (.ok (), s', w) ∧ Sound (s'.dropBinding n) ∧
      s'.bound = s.bound ∧
      ∀ q, Direct q → valueAt s'.heap q = .nil ∨ valueAt s'.heap q = valueAt s.heap q := by
  have direct : Direct ([] ++ placeOf n) := direct_shorten (keysOf n)
  obtain ⟨tree', removed⟩ := sound.tree.place_stop hn rfl direct
  refine ⟨_, perform_assign_of_tree sound.tree hn w, ⟨tree', fun b hb => ?_, fun b hb => ?_,
    fun p m hp hm => ?_⟩, rfl, fun q hq => ?_⟩
  · exact sound.wrapped b (List.mem_filter.1 hb).1
  · exact sound.places b (List.mem_filter.1 hb).1
  · have hm := (removed p hp).symm.trans hm
    split at hm
    · cases hm
    · next hbelow =>
      obtain ⟨k, hk, rfl⟩ := sound.held p m hp hm
      obtain ⟨b, hb, rfl⟩ := List.mem_map.1 hk
      refine ⟨b.name, List.mem_map_of_mem (List.mem_filter.2 ⟨hb, decide_eq_true ?_⟩), rfl⟩
      rintro rfl
      exact hbelow (List.prefix_refl _)
  · have hq := removed q hq
    split at hq
    · exact .inl hq
    · exact .inr hq

/-- What was settled is settled after a tool has been bound. -/
theorem Bound.settled (bound : Bound n tool s s') (hq : Direct q)
    (hs : Settled (valueAt s.heap q)) : Settled (valueAt s'.heap q) := by
  obtain ⟨m, placed, -⟩ := bound.placed
  by_cases hqn : q = placeOf n
  · exact .inr (.inl ⟨m, hqn ▸ placed.here⟩)
  · rcases placed.cases hq hqn with htable | hnil | ⟨-, hsame⟩
    · exact .inl htable
    · exact .inr (.inr hnil)
    · exact hsame ▸ hs

/-- A name can be read after a tool has been bound under it. -/
theorem Bound.readable (bound : Bound n tool s s') : Readable s'.heap (placeOf n) := by
  obtain ⟨m, placed, -⟩ := bound.placed
  intro q hq
  by_cases hqn : q = placeOf n
  · exact .inr (.inl ⟨m, hqn ▸ placed.here⟩)
  · exact .inl (placed.above q hq hqn)

end

/-! ## A map of tools -/

/-- At a path there is a wrapper of the tool with this number. -/
def Holds (s : Sandbox) (p : List Bytes) (id : Nat) : Prop :=
  ∃ m, valueAt s.heap p = .tool m ∧ (s.wrapped.getD m default).id = id

/-- Tools have been bound one after the other. -/
inductive BoundAll : ToolMap → Sandbox → Sandbox → Prop where
  | nil {s : Sandbox} : BoundAll [] s s
  | cons {n : String} {tool : Tool} {tools : ToolMap} {s s₁ s' : Sandbox}
      (first : Bound n tool s s₁) (rest : BoundAll tools s₁ s') :
      BoundAll ((n, tool) :: tools) s s'

section
variable {s s' s₁ : Sandbox} {w : World} {n k : String} {tool : Tool} {tools : ToolMap}
  {p q : List Bytes} {m id : Nat} {before after : ToolMap}

/-- Binding tools keeps a sandbox sound. -/
theorem Sound.bindAll (sound : Sound s) (hne : ∀ n ∈ tools.map Prod.fst, placeOf n ≠ [])
    (w : World) :
    ∃ s', bindAll tools s w = (.ok (), s', w) ∧ Sound s' ∧ BoundAll tools s s' := by
  induction tools generalizing s with
  | nil => exact ⟨s, rfl, sound, .nil⟩
  | cons e rest ih =>
    obtain ⟨n, tool⟩ := e
    obtain ⟨s₁, first, sound₁, bound⟩ := sound.bindOne (hne n List.mem_cons_self) tool w
    obtain ⟨s', next, sound', boundAll⟩ := ih sound₁ fun k hk =>
      hne k (List.mem_cons_of_mem _ hk)
    refine ⟨s', ?_, sound', .cons bound boundAll⟩
    rw [Sandbox.bindAll]
    simp only [first, next]

/-- What is behind the wrappers of before stays when tools are bound. -/
theorem BoundAll.kept (bound : BoundAll tools s s') (hm : m < s.wrapped.size) :
    s'.wrapped.getD m default = s.wrapped.getD m default := by
  induction bound with
  | nil => rfl
  | cons first _ ih => rw [ih (Nat.lt_of_lt_of_le hm first.size), first.kept m hm]

/-- The names of the tools are bound, and those of before. -/
theorem BoundAll.names (bound : BoundAll tools s s') :
    k ∈ s'.bound.map Binding.name ↔ k ∈ tools.map Prod.fst ∨ k ∈ s.bound.map Binding.name := by
  induction bound with
  | nil => simp
  | cons first _ ih =>
    rw [ih, first.names, List.map_cons, List.mem_cons, or_left_comm, or_assoc]

/-- What was settled is settled after tools have been bound. -/
theorem BoundAll.settled (bound : BoundAll tools s s') (hq : Direct q)
    (hs : Settled (valueAt s.heap q)) : Settled (valueAt s'.heap q) := by
  induction bound with
  | nil => exact hs
  | cons first _ ih => exact ih (first.settled hq hs)

/-- The names of tools can be read after they have been bound. -/
theorem BoundAll.readable (bound : BoundAll tools s s') (hn : n ∈ tools.map Prod.fst) :
    Readable s'.heap (placeOf n) := by
  induction bound with
  | nil => cases hn
  | cons first rest ih =>
    rcases List.mem_cons.1 hn with rfl | hn
    · exact fun q hq =>
        rest.settled ((direct_shorten _).of_start hq) (first.readable q hq)
    · exact ih hn

/-- Binding tools leaves what is apart from the places of all of them. -/
theorem BoundAll.untouched (bound : BoundAll tools s s') (hp : Direct p)
    (apart : ∀ e ∈ tools, Apart (placeOf e.1) p) : valueAt s'.heap p = valueAt s.heap p := by
  induction bound with
  | nil => rfl
  | @cons n tool _ _ _ _ first _ ih =>
    obtain ⟨m, placed, -⟩ := first.placed
    have here := apart (n, tool) List.mem_cons_self
    rw [ih fun e he => apart e (List.mem_cons_of_mem _ he), placed.other p hp here]

/-- The last of the tools whose place is not apart from a path decides what the path leads to: its
wrapper if the path is its place, and no tool otherwise. -/
theorem BoundAll.holds_iff (bound : BoundAll (before ++ (n, tool) :: after) s s') (hp : Direct p)
    (touched : ¬ Apart (placeOf n) p) (last : ∀ e ∈ after, Apart (placeOf e.1) p) :
    Holds s' p id ↔ placeOf n = p ∧ tool.id = id := by
  induction before generalizing s with
  | nil =>
    obtain _ | ⟨first, rest⟩ := bound
    obtain ⟨m, placed, hm, hid⟩ := first.placed
    have hvalue := rest.untouched hp last
    unfold Holds
    rw [hvalue]
    constructor
    · rintro ⟨i, hi, rfl⟩
      by_cases hpn : p = placeOf n
      · obtain rfl := Value.tool.inj ((hpn ▸ placed.here).symm.trans hi)
        rw [rest.kept hm]
        exact ⟨hpn.symm, hid.symm⟩
      · rcases placed.cases hp hpn with ⟨a, ha⟩ | hnil | ⟨apart, -⟩
        · cases ha.symm.trans hi
        · cases hnil.symm.trans hi
        · exact absurd apart touched
    · rintro ⟨rfl, rfl⟩
      exact ⟨m, placed.here, by rw [rest.kept hm, hid]⟩
  | cons e before ih =>
    obtain _ | ⟨-, rest⟩ := bound
    exact ih rest

/-- Removing names keeps a sandbox sound. -/
theorem Sound.unbindAll {names : List String} (sound : Sound s)
    (hne : ∀ n ∈ names, placeOf n ≠ []) (w : World) :
    ∃ s', unbindAll names s w = (.ok (), s', w) ∧ Sound s' ∧
      (∀ k, k ∈ s'.bound.map Binding.name ↔ k ∈ s.bound.map Binding.name ∧ k ∉ names) ∧
      ∀ q, Direct q → valueAt s'.heap q = .nil ∨ valueAt s'.heap q = valueAt s.heap q := by
  induction names generalizing s with
  | nil => exact ⟨s, rfl, sound, by simp, fun _ _ => .inr rfl⟩
  | cons n rest ih =>
    obtain ⟨s₁, first, sound₁, hbound, hvalue₁⟩ := sound.unbindOne (hne n List.mem_cons_self) w
    obtain ⟨s', next, sound', hnames, hvalue⟩ := ih sound₁ fun k hk =>
      hne k (List.mem_cons_of_mem _ hk)
    refine ⟨s', ?_, sound', fun k => ?_, fun q hq => ?_⟩
    · rw [Sandbox.unbindAll]
      simp only [first, next]
    · rw [hnames, dropBinding, hbound]
      simp only [List.mem_map, List.mem_filter, List.mem_cons, decide_eq_true_eq, not_or]
      constructor
      · rintro ⟨⟨b, ⟨hb, hne⟩, rfl⟩, hrest⟩
        exact ⟨⟨b, hb, rfl⟩, hne, hrest⟩
      · rintro ⟨⟨b, hb, rfl⟩, hne, hrest⟩
        exact ⟨⟨b, ⟨hb, hne⟩, rfl⟩, hrest⟩
    · rcases hvalue q hq with hnil | hsame
      · exact .inl hnil
      · exact hsame ▸ hvalue₁ q hq

/-- Binding a map of tools keeps a sandbox sound, and the names that are bound afterwards are those
of the map. -/
theorem Sound.bind (sound : Sound s) (accepted : checkNames (tools.map Prod.fst) = .ok ())
    (hne : ∀ n ∈ tools.map Prod.fst, placeOf n ≠ []) (w : World) :
    ∃ s₁ s', s.bind tools w = (.ok (), s', w) ∧ Sound s' ∧ BoundAll tools s₁ s' ∧
      (∀ k ∈ s'.bound.map Binding.name, k ∈ tools.map Prod.fst) ∧
      ∀ q, Direct q → Settled (valueAt s.heap q) → Settled (valueAt s'.heap q) := by
  have hne' : ∀ n ∈ s.boundBeyond (tools.map Prod.fst), placeOf n ≠ [] := fun n hn => by
    obtain ⟨b, hb, rfl⟩ := List.mem_map.1 (mem_boundBeyond_iff.1 hn).1
    exact sound.places b hb
  obtain ⟨s₁, first, sound₁, hnames, hvalue⟩ := sound.unbindAll hne' w
  obtain ⟨s', next, sound', bound⟩ := sound₁.bindAll hne w
  refine ⟨s₁, s', ?_, sound', bound, fun k hk => ?_, fun q hq hs => bound.settled hq ?_⟩
  · rw [Sandbox.bind]
    simp only [accepted, first, next]
  · rcases bound.names.1 hk with hk | hk
    · exact hk
    · obtain ⟨hk, hnot⟩ := (hnames k).1 hk
      by_contra hkt
      exact hnot (mem_boundBeyond_iff.2 ⟨hk, hkt⟩)
  · rcases hvalue q hq with hnil | hsame
    · exact .inr (.inr hnil)
    · exact hsame ▸ hs

end

/-! ## Maps of tools, one after the other -/

/-- Binds maps of tools one after the other. -/
def bindEach : List ToolMap → Sandbox → World → Except Failure Unit × Sandbox × World
  | [], s, w => (.ok (), s, w)
  | tools :: rest, s, w =>
    match s.bind tools w with
    | (.ok (), s, w) => bindEach rest s w
    | (.error e, s, w) => (.error e, s, w)

section
variable {s s' s₁ : Sandbox} {w w₁ : World} {n : String} {maps : List ToolMap} {last : ToolMap}
  {id : Nat}

/-- The last map is bound in the sandbox that the others leave. -/
theorem bindEach_append (first : bindEach maps s w = (.ok (), s₁, w₁)) :
    bindEach (maps ++ [last]) s w = s₁.bind last w₁ := by
  induction maps generalizing s w with
  | nil =>
    cases first
    rw [List.nil_append, bindEach]
    rcases s₁.bind last w₁ with ⟨e | _, s', w'⟩ <;> rfl
  | cons tools rest ih =>
    rw [bindEach] at first
    rw [List.cons_append, bindEach]
    split at first
    · exact ih first
    · cases first

/-- Binding maps keeps a sandbox sound, and all of their names can be read afterwards. -/
theorem Sound.bindEach (sound : Sound s)
    (accepted : ∀ tools ∈ maps, checkNames (tools.map Prod.fst) = .ok ())
    (hne : ∀ tools ∈ maps, ∀ n ∈ tools.map Prod.fst, placeOf n ≠ []) (w : World) :
    ∃ s', bindEach maps s w = (.ok (), s', w) ∧ Sound s' ∧
      (∀ q, Direct q → Settled (valueAt s.heap q) → Settled (valueAt s'.heap q)) ∧
      ∀ tools ∈ maps, ∀ n ∈ tools.map Prod.fst, Readable s'.heap (placeOf n) := by
  induction maps generalizing s with
  | nil => exact ⟨s, rfl, sound, fun _ _ => id, nofun⟩
  | cons tools rest ih =>
    obtain ⟨s₀, s₁, first, sound₁, bound, -, settled₁⟩ :=
      sound.bind (accepted tools List.mem_cons_self) (hne tools List.mem_cons_self) w
    obtain ⟨s', next, sound', settled, readable⟩ := ih sound₁
      (fun t ht => accepted t (List.mem_cons_of_mem _ ht))
      fun t ht => hne t (List.mem_cons_of_mem _ ht)
    refine ⟨s', ?_, sound', fun q hq hs => settled q hq (settled₁ q hq hs), fun t ht n hn => ?_⟩
    · rw [Sandbox.bindEach]
      simp only [first, next]
    · rcases List.mem_cons.1 ht with rfl | ht
      · exact fun q hq =>
          settled q ((direct_shorten _).of_start hq) (bound.readable hn q hq)
      · exact readable t ht n hn

/-- A fresh sandbox is sound. -/
theorem sound_empty : Sound .empty where
  tree := tree_initial
  wrapped := nofun
  places := nofun
  held p m hp hm := by
    rcases valueAt_initial hp with hi | rfl | ⟨n, -, -, hv⟩
    · exact absurd hm (hi.2 m)
    · cases hm
    · cases hv.symm.trans hm

/-- Where a name can be read, it leads to a wrapper of a tool exactly if one is at its place. -/
theorem Sound.leadsTo_iff (sound : Sound s) (readable : Readable s.heap (placeOf n)) :
    LeadsTo s w n id ↔ Holds s (placeOf n) id := by
  refine exists_congr fun m => and_congr_left fun _ => ?_
  constructor
  · intro hp
    rcases hx : s.perform (lookup n) w with ⟨r, s', w'⟩
    rw [hx] at hp
    obtain rfl : r = .ok (.tool m) := hp
    obtain ⟨h', hg, -⟩ := perform_eq_ok_iff.1 hx
    exact ((gives_lookup_iff sound.tree readable).1 hg).1
  · intro hm
    rw [perform_eq_ok_iff.2 ⟨_, (gives_lookup_iff sound.tree readable).2 ⟨hm, rfl, rfl⟩, rfl⟩]

/-- Of the entries of a map whose places are not apart from that of a name, the last one has this
place, and the tool with this number. -/
def Rules (last : ToolMap) (n : String) (id : Nat) : Prop :=
  ∃ before name tool after, last = before ++ (name, tool) :: after ∧
    placeOf name = placeOf n ∧ tool.id = id ∧ ∀ e ∈ after, Apart (placeOf e.1) (placeOf n)

/-- An entry rules its own name if the places of the map are apart. -/
theorem rules_of_pairwise (apart : last.Pairwise fun e f => Apart (placeOf f.1) (placeOf e.1))
    {e : String × Tool} (he : e ∈ last) : Rules last e.1 e.2.id := by
  obtain ⟨before, after, rfl⟩ := List.append_of_mem he
  obtain ⟨-, hcons, -⟩ := List.pairwise_append.1 apart
  exact ⟨before, e.1, e.2, after, rfl, rfl, rfl, (List.pairwise_cons.1 hcons).1⟩

/-- Where all paths are direct, only the names of a map are ruled by it. -/
theorem Rules.mem (rules : Rules last n id)
    (direct : ∀ m ∈ n :: last.map Prod.fst, Direct (keysOf m)) : n ∈ last.map Prod.fst := by
  obtain ⟨before, name, tool, after, hlast, hplace, -, -⟩ := rules
  have hname : name ∈ last.map Prod.fst := List.mem_map.2 ⟨(name, tool), by simp [hlast], rfl⟩
  have hn := direct n List.mem_cons_self
  exact eq_of_placeOf_eq (direct name (List.mem_cons_of_mem _ hname)) hn hplace ▸ hname

/-- Once a map has been bound, and no name beyond it is, it rules what is at the place of a name. -/
theorem BoundAll.holds_iff_rules (bound : BoundAll last s₁ s) (sound : Sound s)
    (names : ∀ k ∈ s.bound.map Binding.name, k ∈ last.map Prod.fst) :
    Holds s (placeOf n) id ↔ Rules last n id := by
  have direct : Direct (placeOf n) := direct_shorten _
  constructor
  · intro holds
    -- a tool is at the place of a name that is bound, so the map has touched the place
    have ⟨m, hm, _⟩ := holds
    obtain ⟨k, hk, hkn⟩ := sound.held _ m direct hm
    obtain ⟨e, he, rfl⟩ := List.mem_map.1 (names k hk)
    have touched : ∃ e ∈ last, ¬ Apart (placeOf e.1) (placeOf n) :=
      ⟨e, he, fun apart => apart.1 (hkn ▸ List.prefix_refl _)⟩
    obtain ⟨before, ⟨name, tool⟩, after, rfl, hname, hafter⟩ := exists_last touched
    have hafter : ∀ e ∈ after, Apart (placeOf e.1) (placeOf n) := fun e he =>
      not_not.1 (hafter e he)
    obtain ⟨hplace, hid⟩ := (bound.holds_iff direct hname hafter).1 holds
    exact ⟨before, name, tool, after, rfl, hplace, hid, hafter⟩
  · rintro ⟨before, name, tool, after, rfl, hplace, hid, hafter⟩
    have touched : ¬ Apart (placeOf name) (placeOf n) := fun apart =>
      apart.1 (hplace ▸ List.prefix_refl _)
    exact (bound.holds_iff direct touched hafter).2 ⟨hplace, hid⟩

/-- After maps of tools have been bound one after the other in a fresh sandbox, a name of any of
them leads to a wrapper of a tool exactly if the last map rules it so. This is if all names are
accepted and none leads to the globals. So the names of the last map lead to their tools if their
places are apart, and a name that it does not have leads to none if all paths are direct. -/
theorem bindEach_leadsTo_iff (maps : List ToolMap) (last : ToolMap) (w : World)
    (accepted : ∀ tools ∈ maps ++ [last], checkNames (tools.map Prod.fst) = .ok ())
    (below : ∀ tools ∈ maps ++ [last], ∀ n ∈ tools.map Prod.fst, placeOf n ≠ []) :
    ∃ s, bindEach (maps ++ [last]) .empty w = (.ok (), s, w) ∧
      (∀ tools ∈ maps ++ [last], ∀ n ∈ tools.map Prod.fst, ∀ w' id,
        LeadsTo s w' n id ↔ Rules last n id) ∧
      ((last.Pairwise fun e f => Apart (placeOf f.1) (placeOf e.1)) →
        ∀ e ∈ last, ∀ w', LeadsTo s w' e.1 e.2.id) ∧
      ∀ tools ∈ maps, ∀ n ∈ tools.map Prod.fst, n ∉ last.map Prod.fst →
        (∀ m ∈ n :: last.map Prod.fst, Direct (keysOf m)) →
          ∀ w' id, ¬ LeadsTo s w' n id := by
  have hmem : ∀ tools ∈ maps, tools ∈ maps ++ [last] := fun _ => List.mem_append_left _
  have hlast : last ∈ maps ++ [last] := by simp
  obtain ⟨s₀, first, sound₀, -, readable₀⟩ := sound_empty.bindEach
    (fun t ht => accepted t (hmem t ht)) (fun t ht => below t (hmem t ht)) w
  obtain ⟨s₁, s, next, sound, bound, names, settled⟩ :=
    sound₀.bind (accepted last hlast) (below last hlast) w
  have readable : ∀ tools ∈ maps ++ [last], ∀ n ∈ tools.map Prod.fst,
      Readable s.heap (placeOf n) := by
    intro tools ht n hn
    rcases List.mem_append.1 ht with ht | ht
    · exact fun q hq => settled q ((direct_shorten _).of_start hq) (readable₀ tools ht n hn q hq)
    · obtain rfl := List.mem_singleton.1 ht
      exact bound.readable hn
  have ruled : ∀ tools ∈ maps ++ [last], ∀ n ∈ tools.map Prod.fst, ∀ w' id,
      LeadsTo s w' n id ↔ Rules last n id := fun tools ht n hn _ _ =>
    (sound.leadsTo_iff (readable tools ht n hn)).trans (bound.holds_iff_rules sound names)
  refine ⟨s, (bindEach_append first).trans next, ruled, fun apart e he w' => ?_,
    fun tools ht n hn hnot direct w' id hleads => ?_⟩
  · exact (ruled last hlast e.1 (List.mem_map_of_mem he) w' e.2.id).2 (rules_of_pairwise apart he)
  · exact hnot (((ruled tools (hmem tools ht) n hn w' id).1 hleads).mem direct)

end

/-- After a scope has taken the place of a name, the name in the scope leads to its tool, and the
name of before leads to none. -/
theorem bindEach_leadsTo_iff_scope :
    (∀ tools ∈ [[("a", default)], [("c", default), ("a.b", (default : Tool))]],
      checkNames (tools.map Prod.fst) = .ok ()) ∧
    (∀ tools ∈ [[("a", default)], [("c", default), ("a.b", (default : Tool))]],
      ∀ n ∈ tools.map Prod.fst, placeOf n ≠ []) ∧
    ∃ s, bindEach [[("a", default)], [("c", default), ("a.b", default)]] .empty default =
        (.ok (), s, default) ∧
      LeadsTo s default "a.b" 0 ∧ ∀ id, ¬ LeadsTo s default "a" id := by
  have accepted : ∀ tools ∈ [[("a", default)], [("c", default), ("a.b", (default : Tool))]],
      checkNames (tools.map Prod.fst) = .ok () := by
    simp only [List.forall_mem_cons]
    exact ⟨by decide, by decide, nofun⟩
  have below : ∀ tools ∈ [[("a", default)], [("c", default), ("a.b", (default : Tool))]],
      ∀ n ∈ tools.map Prod.fst, placeOf n ≠ [] := by
    simp only [List.forall_mem_cons, List.map_cons, List.map_nil]
    exact ⟨⟨by decide, nofun⟩, ⟨by decide, by decide, nofun⟩, nofun⟩
  obtain ⟨s, hs, -, hleads, hnot⟩ := bindEach_leadsTo_iff [[("a", default)]]
    [("c", default), ("a.b", default)] default accepted below
  refine ⟨accepted, below, s, hs, hleads ?_ ("a.b", default) (by simp) default,
    hnot [("a", default)] (by simp) "a" (by simp) ?_ ?_ default⟩
  · simp only [List.pairwise_cons, List.forall_mem_cons]
    exact ⟨⟨by decide, nofun⟩, nofun, .nil⟩
  · simp only [List.map_cons, List.map_nil]
    decide
  · simp only [List.forall_mem_cons, List.map_cons, List.map_nil]
    exact ⟨by decide, by decide, by decide, nofun⟩

/-- A name that is bound later in the same map can take the place of another one, which then leads
to no tool: not every name of the last map leads to its tool. -/
theorem bindEach_displaces :
    ¬ ∀ (maps : List ToolMap) (last : ToolMap) (w : World),
      (∀ tools ∈ maps ++ [last], (tools.map Prod.fst).Nodup ∧
        checkNames (tools.map Prod.fst) = .ok ()) →
      ∃ s, bindEach (maps ++ [last]) .empty w = (.ok (), s, w) ∧
        (∀ e ∈ last, LeadsTo s w e.1 e.2.id) ∧
        ∀ tools ∈ maps, ∀ n ∈ tools.map Prod.fst, n ∉ last.map Prod.fst →
          ∀ id, ¬ LeadsTo s w n id := by
  intro hall
  obtain ⟨s, hs, hleads, -⟩ := hall [] [("a", default), ("a.b", default)] default
    (by simp; decide)
  have htable : (((bindEach [[("a", default), ("a.b", default)]] .empty default).2.1.perform
      (lookup "a") default).1.toOption.map Value.typeName) = some "table" := by decide +kernel
  obtain ⟨m, hm, -⟩ := hleads ("a", default) List.mem_cons_self
  have hs : bindEach [[("a", default), ("a.b", default)]] .empty default =
    (.ok (), s, default) := hs
  have htool : ((s.perform (lookup "a") default).1.toOption.map Value.typeName) =
      some "userdata" := by
    rw [hm]
    rfl
  rw [hs, htool] at htable
  exact absurd htable (by decide)

end ScriptAgent.Sandbox
