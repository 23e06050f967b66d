import Mathlib.Data.List.Nodup
import ScriptAgent.Tool.Function

/-!
# The description of a function tells how to call it

The host admits only some lists of parameters (`Function.Admissible`), and it accepts a call with
some number of arguments by place if these and the defaults give each parameter a value and no
argument is left (`Function.accepts`). The tool that is made of a function describes it
(`Function.toTool_describes`): its parameters are those that arguments by place reach, in order, the
required ones come first, and their numbers are the bounds of the calls that are accepted.

That the required parameters come first is what both bounds rest on: an argument by place goes to
the first parameter that is free, so a default is of use only behind all parameters without one.
-/

namespace ScriptAgent.Tool

/-! ## The tags of a type -/

namespace DeclaredType

/-- Each item is kept once. -/
theorem nodup_firsts (ts : List TypeTag) : (firsts ts).Nodup := by
  induction ts with
  | nil => exact List.nodup_nil
  | cons t rest ih =>
    refine List.nodup_cons.2 ⟨fun hmem => ?_, ih.filter _⟩
    exact bne_iff_ne.1 (List.mem_filter.1 hmem).2 rfl

/-- Every type has a tag, and no tag twice. -/
theorem tags_nodup (a : DeclaredType) : a.tags ≠ [] ∧ a.tags.Nodup := by
  rw [tags]
  split
  · exact ⟨List.cons_ne_nil _ _, by decide⟩
  · next hfilled =>
    refine ⟨fun hnil => ?_, nodup_firsts _⟩
    cases hms : a.members.filter fun m => !m.isNothing with
    | nil => exact hfilled hms
    | cons m ms =>
      rw [hms] at hnil
      cases hnil

/-- A parameter is shown with the tags of its type. -/
theorem tags_parameterType (a : DeclaredType) : a.parameterType.tags = a.tags := by
  rw [parameterType]
  split
  · next h => exact h.symm
  · rfl

end DeclaredType

/-! ## Signatures and calls -/

/-- The ways of passing in the order in which a signature has them. -/
def Passing.rank : Passing → Nat
  | .byPlaceOnly => 0
  | .byPlaceOrName => 1
  | .collectsPlaces => 2
  | .byNameOnly => 3
  | .collectsNames => 4

namespace FunctionParameter

/-- Whether a parameter takes one argument by place. -/
def takesPlace (p : FunctionParameter) : Bool :=
  p.passing = .byPlaceOnly || p.passing = .byPlaceOrName

/-- Whether a parameter collects the arguments that no other one takes. -/
def collects (p : FunctionParameter) : Bool :=
  p.passing = .collectsPlaces || p.passing = .collectsNames

/-- Whether a parameter takes one argument by place and has nothing to fall back on. -/
def needsPlace (p : FunctionParameter) : Bool := p.takesPlace && !p.hasDefault

/-- Whether some arguments by place, and the defaults, give each parameter a value with no argument
left over. -/
def accept : List FunctionParameter → Nat → Bool
  | [], n => n == 0
  | p :: ps, n =>
    match p.passing with
    | .byPlaceOnly | .byPlaceOrName =>
      match n with
      | 0 => p.hasDefault && accept ps 0
      | n + 1 => accept ps n
    | .collectsPlaces => accept ps 0
    | .byNameOnly => p.hasDefault && accept ps n
    | .collectsNames => accept ps n

end FunctionParameter

namespace Function

/-- The host admits the parameters of a function: their names are distinct, they stand in the order
of their ways of passing, at most one of them collects arguments in each way and has no default, and
behind a default by place all parameters by place have one. -/
structure Admissible (f : Function) : Prop where
  names_distinct : (f.parameters.map (·.name)).Nodup
  in_order : f.parameters.Pairwise fun p q => p.passing.rank ≤ q.passing.rank
  collects_once : f.parameters.Pairwise fun p q => p.collects = true → p.passing ≠ q.passing
  collects_plain : ∀ p ∈ f.parameters, p.collects = true → p.hasDefault = false
  defaults_last : f.parameters.Pairwise fun p q =>
    p.takesPlace = true → p.hasDefault = true → q.needsPlace = false

/-- Whether the host accepts a call with some number of arguments, all by place. -/
def accepts (f : Function) (n : Nat) : Bool := FunctionParameter.accept f.parameters n

end Function

/-- A tool describes a function. -/
structure Describes (t : Tool) (f : Function) : Prop where
  /-- The parameters are those that arguments by place reach, in order. -/
  names : t.parameters.map (·.name) = (f.parameters.filter (·.isPassedByPlace)).map (·.name)
  names_distinct : (t.parameters.map (·.name)).Nodup
  /-- The required parameters come first. -/
  required_first : t.parameters.filter (·.required) <+: t.parameters
  /-- The required parameters are those that take a place and have no default. -/
  required_names :
    (t.parameters.filter (·.required)).map (·.name) =
      (f.parameters.filter (·.needsPlace)).map (·.name)
  /-- Their number, and that of all parameters, are the bounds of the accepted calls. -/
  accepts_iff : (∀ p ∈ f.parameters, p.passing = .byNameOnly → p.hasDefault = true) → ∀ n,
    f.accepts n = true ↔ (t.parameters.filter (·.required)).length ≤ n ∧
      ((∀ p ∈ f.parameters, p.passing ≠ .collectsPlaces) → n ≤ t.parameters.length)
  tags : ∀ p ∈ t.parameters, p.type.tags ≠ [] ∧ p.type.tags.Nodup
  /-- The text on a parameter is what the documentation has for its name. -/
  descriptions : ∀ p ∈ t.parameters,
    p.description = (f.readDocumentation.entries.lookup p.name).getD ""
  /-- The parameters are shown in order, the required ones without a question mark and the others
  with one. -/
  shown : ∀ name, t.describe name = "- " ++ (if name.isEmpty then t.name else name) ++ "(" ++
    String.intercalate ", "
      ((t.parameters.filter (·.required)).map (fun p => p.name ++ ": " ++ p.type.label) ++
        (t.parameters.filter (!·.required)).map fun p => p.name ++ "?: " ++ p.type.label) ++
    "): " ++ t.description

/-! ## Accepted calls -/

namespace FunctionParameter
variable {p q : FunctionParameter} {ps : List FunctionParameter}

/-- What takes a place stands before all else. -/
theorem takesPlace_iff : p.takesPlace = true ↔ p.passing.rank ≤ 1 := by
  rw [takesPlace]
  cases p.passing <;> decide

/-- Nothing takes a place behind a parameter that does not. -/
theorem takesPlace_eq_false (h : p.takesPlace = false) (hrank : p.passing.rank ≤ q.passing.rank) :
    q.takesPlace = false := by
  rw [Bool.eq_false_iff, Ne, takesPlace_iff] at h ⊢
  omega

/-- What takes no place needs no argument. -/
theorem needsPlace_eq_false (h : p.takesPlace = false) : p.needsPlace = false := by
  rw [needsPlace, h, Bool.false_and]

/-- What is passed by place takes a place or collects what takes none. -/
theorem isPassedByPlace_eq (p : FunctionParameter) :
    p.isPassedByPlace = (p.takesPlace || p.passing = .collectsPlaces) := by
  rw [isPassedByPlace, takesPlace]
  cases p.passing <;> rfl

/-- What takes a place is required unless it has a default, and nothing else that is passed by place
is. -/
theorem needsPlace_eq (p : FunctionParameter) :
    p.needsPlace = (p.isPassedByPlace && p.isRequired) := by
  rw [needsPlace, takesPlace, isPassedByPlace, isRequired]
  cases p.passing <;> cases p.hasDefault <;> rfl

/-- An argument by place goes to the first parameter that takes one. -/
theorem accept_succ (h : p.takesPlace = true) (n : Nat) :
    accept (p :: ps) (n + 1) = accept ps n := by
  rw [accept]
  cases hp : p.passing <;> simp_all [takesPlace]

/-- Without an argument by place, a parameter that takes one falls back on its default. -/
theorem accept_zero (h : p.takesPlace = true) :
    accept (p :: ps) 0 = (p.hasDefault && accept ps 0) := by
  rw [accept]
  cases hp : p.passing <;> simp_all [takesPlace]

/-- A call is accepted if its arguments reach all parameters that need one, and if there are not
more arguments than parameters unless one collects them. -/
theorem accept_iff (in_order : ps.Pairwise fun p q => p.passing.rank ≤ q.passing.rank)
    (defaults_last : ps.Pairwise fun p q =>
      p.takesPlace = true → p.hasDefault = true → q.needsPlace = false)
    (named : ∀ p ∈ ps, p.passing = .byNameOnly → p.hasDefault = true) (n : Nat) :
    accept ps n = true ↔ ps.countP needsPlace ≤ n ∧
      ((∀ p ∈ ps, p.passing ≠ .collectsPlaces) → n ≤ ps.countP takesPlace) := by
  induction ps generalizing n with
  | nil => simp [accept]
  | cons p ps ih =>
    obtain ⟨hrank, in_order⟩ := List.pairwise_cons.1 in_order
    obtain ⟨hdefault, defaults_last⟩ := List.pairwise_cons.1 defaults_last
    obtain ⟨hnamed, named⟩ := List.forall_mem_cons.1 named
    replace ih := ih in_order defaults_last named
    rw [List.forall_mem_cons]
    cases htakes : p.takesPlace with
    | true =>
      have hplain : p.passing ≠ .collectsPlaces := by
        intro h
        rw [takesPlace, h] at htakes
        cases htakes
      rw [List.countP_cons_of_pos (p := takesPlace) htakes]
      cases n with
      | zero =>
        rw [accept_zero htakes, Bool.and_eq_true, ih]
        cases hp : p.hasDefault with
        | true => simp [needsPlace, htakes, hp]
        | false => simp [needsPlace, htakes, hp]
      | succ n =>
        rw [accept_succ htakes, ih]
        cases hp : p.hasDefault with
        | true =>
          -- Behind a default nothing needs an argument.
          have hnone : ps.countP needsPlace = 0 := List.countP_eq_zero.2 fun q hq => by
            rw [hdefault q hq htakes hp]
            decide
          simp [needsPlace, htakes, hp, hnone, hplain]
        | false => simp [needsPlace, htakes, hp, hplain]
    | false =>
      have hlater : ∀ q ∈ ps, q.takesPlace = false := fun q hq =>
        takesPlace_eq_false htakes (hrank q hq)
      have hplaces : (p :: ps).countP takesPlace = 0 ∧ ps.countP takesPlace = 0 := by
        simpa [List.countP_eq_zero, htakes] using hlater
      have hneeds : (p :: ps).countP needsPlace = 0 ∧ ps.countP needsPlace = 0 := by
        simpa [List.countP_eq_zero, needsPlace_eq_false htakes] using fun q hq =>
          needsPlace_eq_false (hlater q hq)
      rw [hplaces.1, hneeds.1]
      rw [hplaces.2, hneeds.2] at ih
      cases hp : p.passing with
      | byPlaceOnly | byPlaceOrName =>
        rw [takesPlace, hp] at htakes
        cases htakes
      | collectsPlaces => simp [accept, hp, ih]
      | byNameOnly => simp [accept, hp, ih, hnamed hp]
      | collectsNames => simp [accept, hp, ih]

end FunctionParameter

/-! ## The parameters of a tool -/

/-- If nothing with a property stands behind something without it, what has it comes first. -/
theorem filter_append_filter_not {α : Type} {P : α → Bool} {l : List α}
    (h : l.Pairwise fun x y => P y = true → P x = true) :
    l.filter P ++ l.filter (!P ·) = l := by
  induction l with
  | nil => rfl
  | cons x l ih =>
    obtain ⟨hx, hl⟩ := List.pairwise_cons.1 h
    cases hp : P x with
    | true => rw [List.filter_cons_of_pos hp, List.filter_cons_of_neg (by simp [hp]),
        List.cons_append, ih hl]
    | false =>
      have hnone : ∀ y ∈ l, P y = false := fun y hy =>
        Bool.eq_false_iff.2 fun hpy => by rw [hx y hy hpy] at hp; cases hp
      rw [List.filter_cons_of_neg (by simp [hp]), List.filter_cons_of_pos (by simp [hp]),
        List.filter_eq_nil_iff.2 (by simpa using hnone),
        List.filter_eq_self.2 (by simpa using hnone), List.nil_append]

/-- What is found for each item of a list is as long as the list. -/
theorem length_of_mapM {α β : Type} {g : α → Option β} {l : List α} {l' : List β}
    (h : l.mapM g = some l') : l'.length = l.length := by
  induction l generalizing l' with
  | nil =>
    cases h
    rfl
  | cons x l ih =>
    rw [List.mapM_cons] at h
    obtain ⟨y, hy, h⟩ := Option.bind_eq_some_iff.1 h
    obtain ⟨rest, hrest, h⟩ := Option.bind_eq_some_iff.1 h
    cases h
    rw [List.length_cons, List.length_cons, ih hrest]

namespace Function
variable (f : Function)

/-- Every parameter has a type, known or not. -/
theorem length_types : f.types.length = f.parameters.length := by
  rw [types]
  cases h : f.resolvedTypes? with
  | none => exact List.length_map _
  | some types => exact length_of_mapM h

/-- What a parameter of the tool has from a parameter of the function alone, the parameters of the
tool have in the order of the function. -/
theorem map_toolParameters {α : Type} (g : Parameter → α) (g' : FunctionParameter → α)
    (h : ∀ p type d, g (FunctionParameter.toParameter p type d) = g' p) :
    f.toolParameters.map g = (f.parameters.filter (·.isPassedByPlace)).map g' := by
  have hzip : (f.parameters.zip f.types).map Prod.fst = f.parameters :=
    List.map_fst_zip (Nat.le_of_eq f.length_types.symm)
  rw [toolParameters, List.map_filterMap, ← List.filterMap_eq_map, List.filterMap_filter]
  conv_rhs => rw [← hzip, List.filterMap_map]
  congr 1
  funext ⟨p, type⟩
  simp only [Function.comp]
  cases p.isPassedByPlace with
  | true => simp [h]
  | false => simp

/-- Each parameter of the tool is one of the function, with a type and what the documentation has on
its name. -/
theorem exists_of_mem_toolParameters {q : Parameter} (h : q ∈ f.toolParameters) :
    ∃ p type, q = FunctionParameter.toParameter p type f.readDocumentation := by
  obtain ⟨⟨p, type⟩, -, h⟩ := List.mem_filterMap.1 h
  cases hp : p.isPassedByPlace with
  | true =>
    simp only [hp] at h
    exact ⟨p, type, (Option.some.inj h).symm⟩
  | false =>
    simp only [hp] at h
    cases h

/-- The required parameters are those that need an argument. -/
theorem map_filter_required : (f.toolParameters.filter (·.required)).map (·.name) =
    (f.parameters.filter (·.needsPlace)).map (·.name) := by
  have hpairs := f.map_toolParameters (fun q => (q.name, q.required))
    (fun p => (p.name, p.isRequired)) fun _ _ _ => rfl
  have hneeds : f.parameters.filter (·.needsPlace) =
      (f.parameters.filter (·.isPassedByPlace)).filter (·.isRequired) := by
    rw [List.filter_filter]
    refine List.filter_congr fun p _ => ?_
    rw [p.needsPlace_eq, Bool.and_comm]
  calc (f.toolParameters.filter (·.required)).map (·.name)
      = ((f.toolParameters.map fun q => (q.name, q.required)).filter Prod.snd).map Prod.fst := by
        rw [List.filter_map, List.map_map]
        rfl
    _ = ((f.parameters.filter (·.isPassedByPlace)).filter (·.isRequired)).map (·.name) := by
        rw [hpairs, List.filter_map, List.map_map]
        rfl
    _ = (f.parameters.filter (·.needsPlace)).map (·.name) := by rw [hneeds]

variable {f}

/-- No required parameter stands behind one that is not. -/
theorem Admissible.pairwise_required (hf : f.Admissible) :
    f.toolParameters.Pairwise fun p q => q.required = true → p.required = true := by
  have hmap := f.map_toolParameters (·.required) (·.isRequired) fun _ _ _ => rfl
  suffices h : (f.toolParameters.map (·.required)).Pairwise fun a b => b = true → a = true from
    List.pairwise_map.1 h
  rw [hmap, List.pairwise_map]
  refine ((hf.in_order.and hf.defaults_last).filter _).imp_of_mem ?_
  intro p q hp hq ⟨hrank, hdefault⟩ hrequired
  have hneeds : q.needsPlace = true := by
    rw [q.needsPlace_eq, (List.mem_filter.1 hq).2, hrequired]
    rfl
  have htakes : p.takesPlace = true := by
    refine Bool.not_eq_false _ ▸ fun h => ?_
    rw [FunctionParameter.needsPlace_eq_false
      (FunctionParameter.takesPlace_eq_false h hrank)] at hneeds
    cases hneeds
  cases hd : p.hasDefault with
  | true =>
    rw [hdefault htakes hd] at hneeds
    cases hneeds
  | false =>
    have := p.needsPlace_eq
    rw [FunctionParameter.needsPlace, htakes, hd, (List.mem_filter.1 hp).2] at this
    exact this.symm

/-- The numbers of the required and of all parameters of the tool are the bounds of the calls that
the host accepts, the second one unless a parameter collects what is left. -/
theorem Admissible.accepts_iff (hf : f.Admissible)
    (named : ∀ p ∈ f.parameters, p.passing = .byNameOnly → p.hasDefault = true) (n : Nat) :
    f.accepts n = true ↔ (f.toolParameters.filter (·.required)).length ≤ n ∧
      ((∀ p ∈ f.parameters, p.passing ≠ .collectsPlaces) → n ≤ f.toolParameters.length) := by
  have hrequired : (f.toolParameters.filter (·.required)).length =
      f.parameters.countP (·.needsPlace) := by
    rw [List.countP_eq_length_filter]
    simpa only [List.length_map] using congrArg List.length f.map_filter_required
  have hall : (∀ p ∈ f.parameters, p.passing ≠ .collectsPlaces) →
      f.toolParameters.length = f.parameters.countP (·.takesPlace) := by
    intro hplain
    have := congrArg List.length (f.map_toolParameters (·.name) (·.name) fun _ _ _ => rfl)
    rw [List.length_map, List.length_map, ← List.countP_eq_length_filter] at this
    rw [this]
    refine List.countP_congr fun p hp => ?_
    rw [p.isPassedByPlace_eq, decide_eq_false (hplain p hp), Bool.or_false]
  rw [accepts, FunctionParameter.accept_iff hf.in_order hf.defaults_last named, hrequired]
  exact and_congr_right fun _ => forall_congr' fun hplain => by rw [hall hplain]

/-- The tool that is made of a function describes it. -/
theorem toTool_describes (hf : f.Admissible) (name description : Option String) (id : Nat)
    (run : List Datum → World → Outcome × World) :
    (f.toTool name description id run).Describes f where
  names := f.map_toolParameters (·.name) (·.name) fun _ _ _ => rfl
  names_distinct := by
    have hnames := f.map_toolParameters (·.name) (·.name) fun _ _ _ => rfl
    rw [toTool, hnames]
    exact hf.names_distinct.sublist (List.filter_sublist.map _)
  required_first := ⟨_, filter_append_filter_not hf.pairwise_required⟩
  required_names := f.map_filter_required
  accepts_iff := hf.accepts_iff
  tags := by
    intro q hq
    obtain ⟨p, type, rfl⟩ := f.exists_of_mem_toolParameters hq
    rw [FunctionParameter.toParameter, DeclaredType.tags_parameterType]
    exact DeclaredType.tags_nodup _
  descriptions := by
    intro q hq
    obtain ⟨p, type, rfl⟩ := f.exists_of_mem_toolParameters hq
    rfl
  shown := by
    intro name
    have hlabels : f.toolParameters.map Parameter.label =
        (f.toolParameters.filter (·.required)).map (fun p => p.name ++ ": " ++ p.type.label) ++
          (f.toolParameters.filter (!·.required)).map fun p => p.name ++ "?: " ++ p.type.label := by
      conv_lhs => rw [← filter_append_filter_not hf.pairwise_required, List.map_append]
      congr 1
      · refine List.map_congr_left fun q hq => ?_
        rw [Parameter.label, (List.mem_filter.1 hq).2, if_pos rfl, String.append_empty]
      · refine List.map_congr_left fun q hq => ?_
        have hrequired : q.required = false := by simpa using (List.mem_filter.1 hq).2
        rw [Parameter.label, hrequired, if_neg Bool.false_ne_true,
          show "?: " = "?" ++ ": " from rfl, ← String.append_assoc]
    rw [describe]
    simp only [toTool, hlabels]
    rfl

/-- A function with parameters of all kinds. -/
def sample : Function where
  name := "plan"
  parameters := [
    ⟨"goal", .byPlaceOnly, some (.written "str"), false⟩,
    ⟨"limit", .byPlaceOrName, some (.union [.base .integer, .base .nothing, .base .list]), true⟩,
    ⟨"rest", .collectsPlaces, none, false⟩,
    ⟨"eager", .byNameOnly, some (.base .flag), true⟩,
    ⟨"more", .collectsNames, none, false⟩]
  documentation := some "Make a plan.\n\n    Args:\n        goal: What for.\n        *rest: More."

/-- The tool that is made of the sample. -/
def sampleTool : Tool := sample.toTool none none 0 fun _ w => (.value .none, w)

/-- The sample is described by its tool, and accepts calls with one argument or more. -/
theorem toTool_describes_sample :
    sample.Admissible ∧ sampleTool.Describes sample ∧ sample.accepts 0 = false ∧
      sample.accepts 1 = true ∧ sample.accepts 4 = true ∧ sampleTool.describe "" =
        "- plan(goal: string, limit?: number|table, rest?: string): Make a plan." := by
  have hf : sample.Admissible := ⟨by decide, by decide, by decide, by decide, by decide⟩
  refine ⟨hf, toTool_describes hf _ _ _ _, by decide, by decide, by decide, ?_⟩
  decide +kernel

end Function

end ScriptAgent.Tool
