import ScriptAgent.CommandLine
import ScriptAgent.Proofs.Fallible
import ScriptAgent.Proofs.Text.Numeral

/-!
# Command lines that ask for a task

The words that name a task, a provider and a budget (`request`) are read as these, whatever the
task, for each provider in any case and for each integer that has not too many digits
(`parse_request`). An integer with more digits is reported (`parse_request_some`). A budget stands
in a word of its own: a negative one begins with a dash and still is no option
(`classify_integer`).
-/

namespace ScriptAgent.CommandLine

/-! ## What words are -/

section
variable {name cs : List Char}

/-- A name ends before the first equals sign, and its argument comes after that. -/
theorem cutEquals_append (h : '=' ∉ name) (given : List Char) :
    cutEquals (name ++ '=' :: given) = (name, some (String.ofList given)) := by
  have hname : ∀ c ∈ name, (c != '=') = true := fun c hc => bne_iff_ne.2 fun h' => h (h' ▸ hc)
  have hrest : (name ++ '=' :: given).dropWhile (· != '=') = '=' :: given := by
    rw [List.dropWhile_append_of_pos hname]
    rfl
  have htaken : (name ++ '=' :: given).takeWhile (· != '=') = name := by
    rw [List.takeWhile_append_of_pos hname]
    exact List.append_nil name
  rw [cutEquals, hrest]
  dsimp only
  rw [htaken]

/-- Without an equals sign there is no argument. -/
theorem cutEquals_of_not_mem (h : '=' ∉ cs) : cutEquals cs = (cs, none) := by
  have hrest : cs.dropWhile (· != '=') = [] :=
    List.dropWhile_eq_nil_iff.2 fun c hc => bne_iff_ne.2 fun h' => h (h' ▸ hc)
  rw [cutEquals, hrest]

end

/-- A word is no name if no name is that word. -/
theorem named_eq_none {word : String} (h : word ∉ helpNames ++ specs.map OptionSpec.name)
    (argument : Option String) : named specs word argument = none := by
  rw [List.mem_append, not_or] at h
  have hhelp : ¬ helpNames.contains word = true := fun hc => h.1 (List.contains_iff_mem.1 hc)
  have hfind : specs.find? (·.name == word) = none := List.find?_eq_none.2 fun spec hs hn =>
    h.2 (List.mem_map.2 ⟨spec, hs, beq_iff_eq.1 hn⟩)
  rw [named, if_neg hhelp, hfind]
  rfl

/-- An option is found under its name. -/
theorem named_eq_some {spec : OptionSpec} (hs : spec ∈ specs) (argument : Option String) :
    named specs spec.name argument = some (.option spec argument) := by
  simp only [specs, List.mem_cons, List.not_mem_nil, or_false] at hs
  rcases hs with rfl | rfl | rfl | rfl | rfl <;> rfl

/-- A word that begins with a dash and is no name is cut at an equals sign. -/
theorem classify_dashed {word : String} (hdash : word.toList.head? = some '-')
    (hlong : 1 < word.toList.length) (hnone : named specs word none = none) :
    classify specs word =
      match (cutEquals word.toList).2.bind fun a =>
          named specs (String.ofList (cutEquals word.toList).1) (some a) with
      | some w => .ok w
      | none => classifyPart specs word := by
  have hhead : ¬ (word.toList.head? != some '-') = true := by
    rw [hdash, bne_self_eq_false]
    exact Bool.false_ne_true
  unfold classify
  dsimp only
  rw [if_neg hhead, hnone]
  exact if_neg (Nat.ne_of_gt hlong)

/-- An option and its argument in one word. -/
def joined (name given : String) : String := name ++ "=" ++ given

/-- A word with the name of an option, an equals sign and any text gives the option that text. -/
theorem classify_joined {spec : OptionSpec} (hs : spec ∈ specs) (given : String) :
    classify specs (joined spec.name given) = .ok (.option spec (some given)) := by
  have hnames : ∀ name ∈ helpNames ++ specs.map OptionSpec.name,
      '=' ∉ name.toList ∧ name.toList.head? = some '-' ∧ 1 < name.toList.length := by decide
  obtain ⟨hequals, hdash, hlong⟩ := hnames spec.name
    (List.mem_append_right _ (List.mem_map_of_mem hs))
  have hchars : (joined spec.name given).toList = spec.name.toList ++ '=' :: given.toList := by
    rw [joined, String.toList_append, String.toList_append, List.append_assoc]
    rfl
  have hnone : named specs (joined spec.name given) none = none :=
    named_eq_none (fun hmem => (hnames _ hmem).1 (hchars ▸ by simp)) none
  have hhead : (joined spec.name given).toList.head? = some '-' := by
    rw [hchars, List.head?_append, hdash, Option.some_or]
  have hlength : 1 < (joined spec.name given).toList.length := by
    rw [hchars, List.length_append]
    omega
  rw [classify_dashed hhead hlength hnone, hchars, cutEquals_append hequals, Option.bind_some,
    String.ofList_toList, String.ofList_toList, named_eq_some hs]

/-- A word without a dash at its beginning is no option. -/
theorem classify_plain {word : String} (h : word.toList.head? ≠ some '-') :
    classify specs word = .ok .plain := by
  unfold classify
  rw [if_pos (bne_iff_ne.2 h)]

section
variable {d : Char} {ds : List Char} (hd : Json.isDigit d = true)
include hd

/-- No name has a digit after its first dash. -/
theorem getElem?_name_ne {name : String} (hname : name ∈ helpNames ++ specs.map OptionSpec.name) :
    name.toList[1]? ≠ some d := by
  have hsecond : ∀ name ∈ helpNames ++ specs.map OptionSpec.name,
      name.toList[1]?.any Json.isDigit = false := by decide
  intro h
  have hany := hsecond name hname
  rw [h, Option.any_some, hd] at hany
  cases hany

/-- No name begins with a dash and a digit. -/
theorem candidates_eq_nil : candidates specs ('-' :: d :: ds) = [] := by
  have hdash : d ≠ '-' := Text.ne_of_isDigit hd rfl
  have hcandidates : candidates specs ('-' :: d :: ds) =
      (helpNames ++ specs.map OptionSpec.name).filterMap fun name =>
        if name.toList == ('-' :: d :: ds).take 2 then
          some (name, some (String.ofList (('-' :: d :: ds).drop 2)))
        else if ('-' :: d :: ds).isPrefixOf name.toList then some (name, none)
        else none := by
    unfold candidates
    split
    · next heq => exact absurd (List.cons.inj (List.cons.inj heq).2).1 hdash
    · rfl
  rw [hcandidates, List.filterMap_eq_nil_iff]
  intro name hname
  rw [if_neg, if_neg]
  · intro hprefix
    obtain ⟨rest, hrest⟩ := List.isPrefixOf_iff_prefix.1 hprefix
    exact getElem?_name_ne hd hname (by rw [← hrest]; rfl)
  · intro heq
    exact getElem?_name_ne hd hname (by rw [beq_iff_eq.1 heq]; rfl)

end

/-- An integer is no option, even if it begins with a dash. -/
theorem classify_integer (n : Int) : classify specs (toString n) = .ok .plain := by
  have hdigits : ∀ c ∈ Nat.toDigits 10 n.natAbs, Json.isDigit c = true := fun c hc =>
    Json.isDigit_of_mem_toDigits hc
  obtain ⟨d, ds, hds⟩ := List.exists_cons_of_ne_nil (Nat.toDigits_ne_nil (n := n.natAbs) (b := 10))
  rw [hds] at hdigits
  have hd := hdigits d List.mem_cons_self
  by_cases hneg : n < 0
  · have hchars : (toString n).toList = '-' :: d :: ds := by
      rw [Text.toList_toString, if_pos hneg, hds]
    have hequals : '=' ∉ '-' :: d :: ds := fun h => by
      rcases List.mem_cons.1 h with h | h
      · cases h
      · exact Text.ne_of_isDigit (hdigits _ h) rfl rfl
    have hrest : (d :: ds).dropWhile (fun c => (Text.digit? c).isSome) = [] :=
      List.dropWhile_eq_nil_iff.2 fun c hc => by rw [Text.digit?_of_isDigit (hdigits c hc)]; rfl
    have hnegative : isNegativeNumber ('-' :: d :: ds) = true := by
      simp only [isNegativeNumber, hrest, List.isEmpty_cons, Bool.not_false]
    have hnone : named specs (toString n) none = none :=
      named_eq_none (fun hname => getElem?_name_ne hd hname (by rw [hchars]; rfl)) none
    have hhead : (toString n).toList.head? = some '-' := by
      rw [hchars]
      rfl
    have hlength : 1 < (toString n).toList.length := by
      rw [hchars, List.length_cons, List.length_cons]
      omega
    rw [classify_dashed hhead hlength hnone, hchars, cutEquals_of_not_mem hequals,
      Option.bind_none]
    dsimp only
    rw [classifyPart, hchars, candidates_eq_nil hd]
    dsimp only
    rw [hnegative, Bool.true_or, if_pos rfl]
  · refine classify_plain fun hhead => ?_
    rw [Text.toList_toString, if_neg hneg, hds] at hhead
    exact Text.ne_of_isDigit hd rfl (Option.some.inj hhead)

/-! ## Requests -/

/-- The words that ask for a task with a provider and perhaps a budget. -/
def request (task provider : String) (budget : Option Int) : List String :=
  [joined "--task" task, joined "--provider" provider] ++
    match budget with
    | none => []
    | some n => ["--max-iterations", toString n]

/-- A word is looked at before the rest, unless it is the separator. -/
theorem classifyAll_cons {word : String} {w : Word} (hw : classify specs word = .ok w)
    (rest : List String) :
    classifyAll specs (word :: rest) = (classifyAll specs rest).map ((word, w) :: ·) := by
  have hne : word ≠ "--" := by
    rintro rfl
    cases hw
  rw [classifyAll, hw]
  · cases classifyAll specs rest <;> rfl
  · exact hne

/-- The option with the task. -/
def taskSpec : OptionSpec := ⟨"--task", .text⟩

/-- The option with the provider. -/
def providerSpec : OptionSpec := ⟨"--provider", .word ["ollama", "anthropic", "openai", "mock"]⟩

/-- The option with the budget. -/
def budgetSpec : OptionSpec := ⟨"--max-iterations", .integer⟩

/-- What the words of a request are. -/
theorem classifyAll_request (task provider : String) (budget : Option Int) :
    classifyAll specs (request task provider budget) = .ok (
      [(joined "--task" task, .option taskSpec (some task)),
        (joined "--provider" provider, .option providerSpec (some provider))] ++
      match budget with
      | none => []
      | some n => [("--max-iterations", .option budgetSpec none), (toString n, .plain)]) := by
  have hspecs : taskSpec ∈ specs ∧ providerSpec ∈ specs := by decide
  have htask : classify specs (joined "--task" task) = .ok (.option taskSpec (some task)) :=
    classify_joined hspecs.1 task
  have hprovider : classify specs (joined "--provider" provider) =
      .ok (.option providerSpec (some provider)) := classify_joined hspecs.2 provider
  have hbudget : classify specs "--max-iterations" = .ok (.option budgetSpec none) := rfl
  cases budget with
  | none =>
    show classifyAll specs [joined "--task" task, joined "--provider" provider] = _
    rw [classifyAll_cons htask, classifyAll_cons hprovider]
    rfl
  | some n =>
    show classifyAll specs [joined "--task" task, joined "--provider" provider,
      "--max-iterations", toString n] = _
    rw [classifyAll_cons htask, classifyAll_cons hprovider, classifyAll_cons hbudget,
      classifyAll_cons (classify_integer n)]
    rfl

section
variable {provider : String} (hprovider : provider.toLower ∈ Model.Provider.Kind.all.map Prod.fst)
include hprovider

/-- A provider is named in any case. -/
theorem valueOf_provider :
    valueOf providerSpec provider = .ok (.text provider.toLower) := by
  have hchoices : ∀ name ∈ Model.Provider.Kind.all.map Prod.fst,
      ["ollama", "anthropic", "openai", "mock"].contains name = true := by decide
  exact if_pos (hchoices _ hprovider)

/-- What is gone through after a task and a provider. -/
theorem consume_request (task : String) (rest : List (String × Word)) :
    consume [] [] ((joined "--task" task, .option taskSpec (some task)) ::
        (joined "--provider" provider, .option providerSpec (some provider)) :: rest) =
      consume [("--provider", .text provider.toLower), ("--task", .text task)] [] rest := by
  have htask : valueOf taskSpec task = .ok (.text task) := rfl
  rw [consume, htask]
  show consume _ _ _ = _
  rw [consume, valueOf_provider hprovider]
  rfl

/-- A request without a budget is read as what it asks for. -/
theorem parse_request_none (task : String) : parse specs (request task provider none) =
    .ok (.values [("--provider", .text provider.toLower), ("--task", .text task)]) := by
  rw [parse, classifyAll_request]
  exact consume_request hprovider task []

/-- A request with a budget is read as what it asks for, or the budget is reported because it has
too many digits. -/
theorem parse_request_some (task : String) (n : Int) :
    parse specs (request task provider (some n)) =
      if (Nat.toDigits 10 n.natAbs).length ≤ Text.maxDigits then
        .ok (.values [("--max-iterations", .integer n), ("--provider", .text provider.toLower),
          ("--task", .text task)])
      else .error (.noInteger "--max-iterations" (toString n)) := by
  rw [parse, classifyAll_request]
  refine (consume_request hprovider task _).trans ?_
  show consume _ _ [_, _] = _
  rw [consume, valueOf]
  dsimp only
  rw [Text.integer?_toString]
  by_cases hn : (Nat.toDigits 10 n.natAbs).length ≤ Text.maxDigits
  · rw [if_pos hn, if_pos hn]
    rfl
  · rw [if_neg hn, if_neg hn]
    rfl

/-- A request is read as what it asks for, if the budget has not too many digits. -/
theorem parse_request (task : String) {budget : Option Int}
    (hbudget : ∀ n ∈ budget, (Nat.toDigits 10 n.natAbs).length ≤ Text.maxDigits) :
    ∃ values, parse specs (request task provider budget) = .ok (.values values) ∧
      Arguments.ofValues values = ⟨.run, task, some provider.toLower, budget, none⟩ := by
  cases budget with
  | none => exact ⟨_, parse_request_none hprovider task, rfl⟩
  | some n =>
    exact ⟨_, (parse_request_some hprovider task n).trans (if_pos (hbudget n rfl)), rfl⟩

end

end ScriptAgent.CommandLine
