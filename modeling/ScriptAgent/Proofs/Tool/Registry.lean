import Mathlib.Data.List.Induction
import ScriptAgent.Tool.Registry

/-!
# Requests for tools select what they ask for

A request that ends with a dot and a star selects the names that begin with what stands before the
star, any other one the name that it is (`Selects`). A list of requests is answered with the
registered tools that some request selects, in the order of the requests and within one request in
that of the registry (`Selection`), unless a request selects nothing (`getTools_selects`).

The requests are taken one by one, so the selection of a list is that of the list without its last
request with what this one adds. All properties of a selection follow this step.
-/

namespace ScriptAgent.Tool.Registry

variable {r : Registry} {w : String} {ws xs ys : List String} {e : String × Tool}

/-- The end of a request that asks for a scope. -/
def wild : List Char := ['.', '*']

/-- A request selects a name. -/
def Selects (w name : String) : Prop :=
  if wild <:+ w.toList then w.toList.dropLast <+: name.toList else name = w

instance (w name : String) : Decidable (Selects w name) :=
  inferInstanceAs (Decidable (if wild <:+ w.toList then w.toList.dropLast <+: name.toList
    else name = w))

/-- Why a request that selects nothing is rejected. -/
def faultOf (w : String) : RegistryFault :=
  if wild <:+ w.toList then .emptyScope (String.ofList w.toList.dropLast.dropLast)
  else .unknownTool w

/-- A request selects a registered name. -/
def Knows (r : Registry) (w : String) : Prop := ∃ name ∈ r.names, Selects w name

instance (r : Registry) (w : String) : Decidable (r.Knows w) :=
  inferInstanceAs (Decidable (∃ name ∈ r.names, Selects w name))

/-- The first of two tools is selected by an earlier request, or by the same one and is registered
before the other. -/
def Precedes (r : Registry) (ws : List String) (a b : String × Tool) : Prop :=
  ws.findIdx (Selects · a.1) < ws.findIdx (Selects · b.1) ∨
    ws.findIdx (Selects · a.1) = ws.findIdx (Selects · b.1) ∧ [a, b].Sublist r.tools

/-- Tools are those that some requests select from a registry: the registered ones under the names
that a request selects, each once, in the order of the requests. -/
structure Selection (r : Registry) (ws : List String) (found : List (String × Tool)) : Prop where
  names_distinct : (found.map Prod.fst).Nodup
  mem_iff : ∀ e, e ∈ found ↔ e ∈ r.tools ∧ ∃ w ∈ ws, Selects w e.1
  in_order : found.Pairwise (r.Precedes ws)

/-- Registering keeps the names distinct. -/
theorem nodup_register {r' : Registry} {name : String} {t : Tool} (hr : r.names.Nodup)
    (h : r.register name t = .ok r') : r'.names.Nodup := by
  rw [register] at h
  split at h
  · cases h
  · next hnew =>
    cases h
    rw [names, List.map_append, List.nodup_append]
    refine ⟨hr, by simp, ?_⟩
    rintro old hold new hadded rfl
    rw [List.mem_singleton.1 hadded] at hold
    exact hnew (List.contains_iff_mem.2 hold)

/-! ## One request -/

/-- The tools that a request selects. -/
def matching (r : Registry) (w : String) : List (String × Tool) :=
  r.tools.filter fun e => Selects w e.1

/-- What a request selects is registered. -/
theorem mem_matching : e ∈ r.matching w ↔ e ∈ r.tools ∧ Selects w e.1 := by
  rw [matching, List.mem_filter, decide_eq_true_iff]

/-- A request selects a tool if it selects a registered name. -/
theorem matching_ne_nil : r.matching w ≠ [] ↔ r.Knows w := by
  constructor
  · intro h
    obtain ⟨e, he⟩ := List.exists_mem_of_ne_nil _ h
    obtain ⟨hmem, hsel⟩ := mem_matching.1 he
    exact ⟨e.1, List.mem_map_of_mem hmem, hsel⟩
  · rintro ⟨name, hname, hsel⟩
    obtain ⟨e, hmem, rfl⟩ := List.mem_map.1 hname
    exact List.ne_nil_of_mem (mem_matching.2 ⟨hmem, hsel⟩)

/-- The scope of a request stands before the dot and the star. -/
theorem scopeOf?_eq_some_iff {scope : List Char} :
    scopeOf? w = some scope ↔ w.toList = scope ++ wild := by
  rw [scopeOf?, ← List.reverse_inj, List.reverse_append]
  split
  · next rest hrest =>
    rw [hrest, Option.some_inj, ← List.reverse_inj, List.reverse_reverse]
    exact ⟨fun h => by rw [h]; rfl,
      fun h => List.append_cancel_left (show ['*', '.'] ++ rest = ['*', '.'] ++ _ from h)⟩
  · next hno =>
    refine ⟨nofun, fun h => (hno _ h).elim⟩

/-- A request for a scope selects the names that begin with the scope and a dot. -/
theorem selects_scope {scope : List Char} {name : String} (h : w.toList = scope ++ wild) :
    Selects w name ↔ scope ++ ['.'] <+: name.toList := by
  have hdrop : w.toList.dropLast = scope ++ ['.'] := by
    rw [h, List.dropLast_append_of_ne_nil (show wild ≠ [] from List.cons_ne_nil _ _)]
    rfl
  rw [Selects, if_pos ⟨scope, h.symm⟩, hdrop]

/-- Any other request selects itself. -/
theorem selects_name {name : String} (h : ¬wild <:+ w.toList) : Selects w name ↔ name = w := by
  rw [Selects, if_neg h]

/-- Under a name there is the tool that is found there, if one is. -/
theorem filter_eq_lookup {tools : List (String × Tool)} (h : (tools.map Prod.fst).Nodup)
    (w : String) :
    tools.filter (fun e => e.1 = w) = (tools.lookup w).toList.map fun t => (w, t) := by
  induction tools with
  | nil => rfl
  | cons e rest ih =>
    obtain ⟨hnew, hrest⟩ := List.nodup_cons.1 h
    rw [List.lookup_cons]
    by_cases heq : e.1 = w
    · subst heq
      have hnone : rest.filter (fun e' => e'.1 = e.1) = [] :=
        List.filter_eq_nil_iff.2 fun e' he' hname => hnew (by
          rw [← of_decide_eq_true hname]
          exact List.mem_map_of_mem he')
      simp only [List.filter_cons, decide_true, if_true, hnone, beq_self_eq_true]
      rfl
    · simp only [List.filter_cons, heq, decide_false, beq_false_of_ne (Ne.symm heq)]
      exact ih hrest

/-- One request is answered with what it selects. -/
theorem select_eq (hr : r.names.Nodup) (w : String) :
    r.select w = if r.matching w = [] then .error (faultOf w) else .ok (r.matching w) := by
  rw [select]
  cases hscope : scopeOf? w with
  | some scope =>
    have hw := scopeOf?_eq_some_iff.1 hscope
    have hmatching (p : String × Tool → Bool)
        (hp : ∀ e, p e = (scope ++ ['.']).isPrefixOf e.1.toList) :
        r.tools.filter p = r.matching w :=
      List.filter_congr fun e _ => by
        rw [hp, Bool.eq_iff_iff, List.isPrefixOf_iff_prefix, decide_eq_true_iff, selects_scope hw]
    have hfault : faultOf w = .emptyScope (String.ofList scope) := by
      rw [faultOf, if_pos ⟨scope, hw.symm⟩, hw]
      simp [wild]
    dsimp only
    rw [hmatching _ fun _ => rfl]
    cases hfound : r.matching w with
    | nil => rw [if_pos rfl, hfault]
    | cons e rest => rw [if_neg (List.cons_ne_nil _ _)]
  | none =>
    have hname : ¬wild <:+ w.toList := by
      rintro ⟨scope, h⟩
      rw [scopeOf?_eq_some_iff.2 h.symm] at hscope
      cases hscope
    have hmatching : r.matching w = (r.tools.lookup w).toList.map fun t => (w, t) := by
      rw [← filter_eq_lookup hr]
      exact List.filter_congr fun e _ => by rw [decide_eq_decide, selects_name hname]
    rw [hmatching, faultOf, if_neg hname]
    cases r.tools.lookup w with
    | none => rfl
    | some t => rfl

/-! ## All requests -/

/-- What is added to a selection is what it does not have. -/
theorem mem_merge {selected found : List (String × Tool)} :
    e ∈ merge selected found ↔ e ∈ selected ∨ e ∈ found ∧ e.1 ∉ selected.map Prod.fst := by
  rw [merge, List.mem_append, List.mem_filter]
  simp

/-- What is selected for some requests comes before what further ones add. -/
theorem selectAll_append (selected : List (String × Tool)) (xs ys : List String) :
    r.selectAll selected (xs ++ ys) = r.selectAll selected xs >>= (r.selectAll · ys) := by
  induction xs generalizing selected with
  | nil => rfl
  | cons x xs ih =>
    rw [List.cons_append, selectAll, selectAll]
    cases r.select x with
    | error fault => rfl
    | ok found => exact ih _

/-- The first request that selects a name stays the first one if more requests follow. -/
theorem findIdx_append_of_exists {p : String → Bool} (h : ∃ v ∈ xs, p v = true) :
    (xs ++ ys).findIdx p = xs.findIdx p ∧ xs.findIdx p < xs.length := by
  have hlt := List.findIdx_lt_length.2 h
  exact ⟨by rw [List.findIdx_append, if_pos hlt], hlt⟩

/-- A request is the first one that selects a name if no earlier one does. -/
theorem findIdx_append_singleton {p : String → Bool} (h : ∀ v ∈ xs, p v = false)
    (hw : p w = true) : (xs ++ [w]).findIdx p = xs.length := by
  rw [List.findIdx_append, List.findIdx_eq_length.2 h, if_neg (Nat.lt_irrefl _),
    List.findIdx_cons, hw]
  exact Nat.zero_add _

namespace Selection
variable {found : List (String × Tool)} (h : r.Selection ws found)
include h

/-- A registered name is in a selection if a request selects it. -/
theorem mem_names_iff (he : e ∈ r.tools) :
    e.1 ∈ found.map Prod.fst ↔ ∃ v ∈ ws, Selects v e.1 := by
  constructor
  · intro hmem
    obtain ⟨e', he', hname⟩ := List.mem_map.1 hmem
    rw [← hname]
    exact ((h.mem_iff e').1 he').2
  · exact fun hsel => List.mem_map_of_mem ((h.mem_iff e).2 ⟨he, hsel⟩)

/-- What a further request adds is registered, and no earlier request selects it. -/
theorem of_mem_added
    (he : e ∈ (r.matching w).filter fun (name, _) => !(found.map Prod.fst).contains name) :
    e ∈ r.tools ∧ Selects w e.1 ∧ e.1 ∉ found.map Prod.fst ∧ ∀ v ∈ ws, ¬Selects v e.1 := by
  obtain ⟨hmatching, hnew⟩ := List.mem_filter.1 he
  obtain ⟨hmem, hsel⟩ := mem_matching.1 hmatching
  have hnot : e.1 ∉ found.map Prod.fst := by simpa using hnew
  exact ⟨hmem, hsel, hnot, fun v hv hsel => hnot ((h.mem_names_iff hmem).2 ⟨v, hv, hsel⟩)⟩

/-- What a further request adds to a selection makes it the selection of all requests. -/
theorem merge_matching (hr : r.names.Nodup) (w : String) :
    r.Selection (ws ++ [w]) (merge found (r.matching w)) where
  names_distinct := by
    rw [merge, List.map_append, List.nodup_append]
    refine ⟨h.names_distinct, hr.sublist ((List.filter_sublist.trans List.filter_sublist).map _),
      ?_⟩
    rintro name hold name' hadded rfl
    obtain ⟨e, he, rfl⟩ := List.mem_map.1 hadded
    exact (h.of_mem_added he).2.2.1 hold
  mem_iff := by
    intro e
    rw [mem_merge, mem_matching, h.mem_iff]
    constructor
    · rintro (⟨he, v, hv, hsel⟩ | ⟨⟨he, hsel⟩, -⟩)
      · exact ⟨he, v, List.mem_append_left _ hv, hsel⟩
      · exact ⟨he, w, List.mem_append_right _ List.mem_cons_self, hsel⟩
    · rintro ⟨he, v, hv, hsel⟩
      by_cases hold : ∃ v ∈ ws, Selects v e.1
      · exact .inl ⟨he, hold⟩
      · rcases List.mem_append.1 hv with hv | hv
        · exact (hold ⟨v, hv, hsel⟩).elim
        · rw [List.mem_singleton.1 hv] at hsel
          exact .inr ⟨⟨he, hsel⟩, fun hmem => hold ((h.mem_names_iff he).1 hmem)⟩
  in_order := by
    have old (e : String × Tool) (he : e ∈ found) :
        (ws ++ [w]).findIdx (fun v => Selects v e.1) = ws.findIdx (fun v => Selects v e.1) ∧
          ws.findIdx (fun v => Selects v e.1) < ws.length := by
      obtain ⟨v, hv, hsel⟩ := ((h.mem_iff e).1 he).2
      exact findIdx_append_of_exists ⟨v, hv, decide_eq_true hsel⟩
    have added (e : String × Tool)
        (he : e ∈ (r.matching w).filter fun (name, _) => !(found.map Prod.fst).contains name) :
        (ws ++ [w]).findIdx (fun v => Selects v e.1) = ws.length := by
      obtain ⟨-, hsel, -, hnone⟩ := h.of_mem_added he
      exact findIdx_append_singleton (fun v hv => decide_eq_false (hnone v hv))
        (decide_eq_true hsel)
    rw [merge, List.pairwise_append]
    refine ⟨h.in_order.imp_of_mem fun ha hb hab => ?_, ?_, fun a ha b hb => ?_⟩
    · rwa [Precedes, (old _ ha).1, (old _ hb).1]
    · refine List.pairwise_iff_forall_sublist.2 fun {a b} hab => .inr ⟨?_, ?_⟩
      · rw [added a (hab.subset List.mem_cons_self),
          added b (hab.subset (List.mem_cons_of_mem _ List.mem_cons_self))]
      · exact hab.trans (List.filter_sublist.trans List.filter_sublist)
    · left
      rw [(old a ha).1, added b hb]
      exact (old a ha).2

end Selection

/-- Requests that select something are all answered, with what they select. The induction adds the
last request. -/
theorem exists_selectAll (hr : r.names.Nodup) (ws : List String) (hws : ∀ w ∈ ws, r.Knows w) :
    ∃ found, r.selectAll [] ws = .ok found ∧ r.Selection ws found := by
  induction ws using List.reverseRecOn with
  | nil => exact ⟨[], rfl, List.nodup_nil, fun e => by simp, List.Pairwise.nil⟩
  | append_singleton ws w ih =>
    obtain ⟨found, hfound, hsel⟩ := ih fun v hv => hws v (List.mem_append_left _ hv)
    have hw := matching_ne_nil.2 (hws w (List.mem_append_right _ List.mem_cons_self))
    refine ⟨merge found (r.matching w), ?_, hsel.merge_matching hr w⟩
    rw [selectAll_append, hfound]
    change r.selectAll found [w] = _
    rw [selectAll, select_eq hr, if_neg hw]
    rfl

/-- The first request that selects nothing is rejected. -/
theorem selectAll_error (hr : r.names.Nodup) (hxs : ∀ v ∈ xs, r.Knows v) (hw : ¬r.Knows w)
    (ys : List String) : r.selectAll [] (xs ++ w :: ys) = .error (faultOf w) := by
  obtain ⟨found, hfound, -⟩ := exists_selectAll hr xs hxs
  rw [selectAll_append, hfound]
  change r.selectAll found (w :: ys) = _
  rw [selectAll, select_eq hr, if_pos (Decidable.not_not.1 (mt matching_ne_nil.1 hw))]
  rfl

/-- If requests are answered, each of them selects something. -/
theorem knows_of_selectAll (hr : r.names.Nodup) {selected found : List (String × Tool)}
    (h : r.selectAll selected ws = .ok found) : ∀ w ∈ ws, r.Knows w := by
  induction ws generalizing selected with
  | nil => exact List.forall_mem_nil _
  | cons w ws ih =>
    rw [selectAll, select_eq hr] at h
    by_cases hw : r.matching w = []
    · rw [if_pos hw] at h
      cases h
    · rw [if_neg hw] at h
      exact List.forall_mem_cons.2 ⟨matching_ne_nil.1 hw, ih h⟩

/-- If requests are answered, it is with what they select. -/
theorem selection_of_selectAll (hr : r.names.Nodup) {found : List (String × Tool)}
    (h : r.selectAll [] ws = .ok found) : r.Selection ws found := by
  obtain ⟨found', hfound, hsel⟩ := exists_selectAll hr ws (knows_of_selectAll hr h)
  rw [h] at hfound
  exact Except.ok.inj hfound ▸ hsel

/-- All that a registered name selects is selected with the name. -/
theorem selects_of_selects {v name : String} (hv : Selects v w) (hw : Selects w name) :
    Selects v name := by
  by_cases hscope : wild <:+ w.toList
  · by_cases hscope' : wild <:+ v.toList
    · obtain ⟨scope, hw'⟩ := hscope
      obtain ⟨scope', hv'⟩ := hscope'
      rw [selects_scope hw'.symm] at hw
      rw [selects_scope hv'.symm] at hv ⊢
      have hend : scope ++ wild = scope ++ ['.'] ++ ['*'] := by
        rw [List.append_assoc]
        rfl
      rw [← hw', hend, List.prefix_concat_iff] at hv
      rcases hv with heq | hv
      · have := congrArg List.getLast? heq
        rw [List.getLast?_concat, List.getLast?_concat] at this
        cases this
      · exact hv.trans hw
    · rwa [← (selects_name hscope').1 hv]
  · rwa [(selects_name hscope).1 hw]

/-- A registered name selects something. -/
theorem knows_of_mem (hw : w ∈ r.names) : r.Knows w := by
  refine ⟨w, hw, ?_⟩
  rw [Selects]
  split
  · exact List.dropLast_prefix _
  · rfl

/-- A request adds nothing if it stands before or if an earlier request selects it by its name. -/
theorem selectAll_insert (hr : r.names.Nodup)
    (hw : w ∈ xs ∨ w ∈ r.names ∧ ∃ v ∈ xs, Selects v w) (ys : List String) :
    r.selectAll [] (xs ++ w :: ys) = r.selectAll [] (xs ++ ys) := by
  rw [selectAll_append, selectAll_append]
  cases hfound : r.selectAll [] xs with
  | error fault => rfl
  | ok found =>
    have hsel := selection_of_selectAll hr hfound
    have hknows : r.Knows w := hw.elim (knows_of_selectAll hr hfound w) fun h => knows_of_mem h.1
    have hmerge : merge found (r.matching w) = found := by
      have hold : ∀ e ∈ r.matching w, e.1 ∈ found.map Prod.fst := by
        intro e he
        obtain ⟨hmem, hsel'⟩ := mem_matching.1 he
        refine (hsel.mem_names_iff hmem).2 ?_
        rcases hw with hw | ⟨-, v, hv, hvw⟩
        · exact ⟨w, hw, hsel'⟩
        · exact ⟨v, hv, selects_of_selects hvw hsel'⟩
      rw [merge, List.filter_eq_nil_iff.2 fun e he => by simpa using hold e he, List.append_nil]
    change r.selectAll found (w :: ys) = r.selectAll found ys
    rw [selectAll, select_eq hr, if_neg (matching_ne_nil.2 hknows)]
    change r.selectAll (merge found (r.matching w)) ys = _
    rw [hmerge]

/-- Requests that are answered separately are answered together, with what is selected for either
list. -/
theorem exists_selectAll_append (hr : r.names.Nodup) {a b : List (String × Tool)}
    (ha : r.selectAll [] xs = .ok a) (hb : r.selectAll [] ys = .ok b) :
    ∃ c, r.selectAll [] (xs ++ ys) = .ok c ∧ ∀ e, e ∈ c ↔ e ∈ a ∨ e ∈ b := by
  obtain ⟨c, hc, hsel⟩ := exists_selectAll hr (xs ++ ys) fun w hw =>
    (List.mem_append.1 hw).elim (knows_of_selectAll hr ha w) (knows_of_selectAll hr hb w)
  refine ⟨c, hc, fun e => ?_⟩
  rw [hsel.mem_iff, (selection_of_selectAll hr ha).mem_iff, (selection_of_selectAll hr hb).mem_iff]
  constructor
  · rintro ⟨he, w, hw, hew⟩
    exact (List.mem_append.1 hw).imp (fun hw => ⟨he, w, hw, hew⟩) fun hw => ⟨he, w, hw, hew⟩
  · rintro (⟨he, w, hw, hew⟩ | ⟨he, w, hw, hew⟩)
    · exact ⟨he, w, List.mem_append_left _ hw, hew⟩
    · exact ⟨he, w, List.mem_append_right _ hw, hew⟩

/-- Any requests are answered as a list that is not empty. -/
theorem getTools_eq (h : ws ≠ []) : r.getTools ws = r.selectAll [] ws := by
  rw [getTools, List.isEmpty_eq_false_iff.2 h]
  rfl

/-- Requests that each select a registered name are answered with what they select; otherwise the
first one that selects nothing is rejected. So a request changes nothing if the same one stands
before it, or if it is a registered name that an earlier one selects, and two lists of requests that
are answered are answered together with what each of them is. -/
theorem getTools_selects (hr : r.names.Nodup) :
    (∀ ws ≠ [], (∀ w ∈ ws, r.Knows w) →
      ∃ found, r.getTools ws = .ok found ∧ r.Selection ws found) ∧
    (∀ xs w ys, (∀ v ∈ xs, r.Knows v) → ¬r.Knows w →
      r.getTools (xs ++ w :: ys) = .error (faultOf w)) ∧
    (∀ xs w ys, w ∈ xs ∨ (w ∈ r.names ∧ ∃ v ∈ xs, Selects v w) →
      r.getTools (xs ++ w :: ys) = r.getTools (xs ++ ys)) ∧
    ∀ xs ys a b, xs ≠ [] → ys ≠ [] → r.getTools xs = .ok a → r.getTools ys = .ok b →
      ∃ c, r.getTools (xs ++ ys) = .ok c ∧ ∀ e, e ∈ c ↔ e ∈ a ∨ e ∈ b := by
  refine ⟨fun ws hws hknows => ?_, fun xs w ys hxs hw => ?_, fun xs w ys hw => ?_,
    fun xs ys a b hxs hys ha hb => ?_⟩
  · rw [getTools_eq hws]
    exact exists_selectAll hr ws hknows
  · rw [getTools_eq (List.append_ne_nil_of_right_ne_nil _ (List.cons_ne_nil _ _))]
    exact selectAll_error hr hxs hw ys
  · have hxs : xs ≠ [] := hw.elim List.ne_nil_of_mem fun h => List.ne_nil_of_mem h.2.choose_spec.1
    rw [getTools_eq (List.append_ne_nil_of_left_ne_nil hxs _),
      getTools_eq (List.append_ne_nil_of_left_ne_nil hxs _)]
    exact selectAll_insert hr hw ys
  · rw [getTools_eq hxs] at ha
    rw [getTools_eq hys] at hb
    rw [getTools_eq (List.append_ne_nil_of_left_ne_nil hxs _)]
    exact exists_selectAll_append hr ha hb

/-- A registry with a scope, a name that begins like it, and a name without a scope. -/
def sample : Registry :=
  .ofTools (["json.parse", "jsonx.go", "json.dump", "add"].map fun name =>
    { (default : Tool) with name := name })

/-- The requests that the sample knows are answered in their order, whatever comes twice among them,
and the first one that it does not know is rejected. -/
theorem getTools_selects_sample :
    sample.names.Nodup ∧
      (∃ found, sample.getTools ["add", "json.*"] = .ok found ∧
        sample.Selection ["add", "json.*"] found) ∧
      (sample.getTools ["add", "json.*"]).toOption.map (·.map Prod.fst) =
        some ["add", "json.parse", "json.dump"] ∧
      sample.getTools ["add", "js.*", "go"] = .error (.emptyScope "js") ∧
      sample.getTools ["json.*", "json.dump", "add"] = sample.getTools ["json.*", "add"] ∧
      ∃ a b c, sample.getTools ["json.*"] = .ok a ∧ sample.getTools ["add", "json.dump"] = .ok b ∧
        sample.getTools ["json.*", "add", "json.dump"] = .ok c ∧ ∀ e, e ∈ c ↔ e ∈ a ∨ e ∈ b := by
  have hr : sample.names.Nodup := by decide
  obtain ⟨hfound, hfault, hagain, happend⟩ := getTools_selects hr
  refine ⟨hr, hfound _ (by decide) ?_, by decide, ?_, ?_, ?_⟩
  · decide
  · exact hfault ["add"] "js.*" ["go"] (by decide) (by decide)
  · exact hagain ["json.*"] "json.dump" ["add"] (.inr (by decide))
  · obtain ⟨c, hc, hmem⟩ :=
      happend ["json.*"] ["add", "json.dump"] _ _ (by decide) (by decide) rfl rfl
    exact ⟨_, _, c, rfl, rfl, hc, hmem⟩

end ScriptAgent.Tool.Registry
