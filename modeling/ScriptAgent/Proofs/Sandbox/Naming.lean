import ScriptAgent.Proofs.Sandbox.Lookup
import ScriptAgent.Proofs.Sandbox.Reserved
import ScriptAgent.Script.Token

/-!
# Which names are accepted

A tool can be called by its name if this is one or more names of the script language, joined by
single dots, the first of which is not reserved (`Callable`). The check is on words, not on names of
the language, and passes over a line break at the end of a name (`Accepted`): exactly such names are
accepted, and of some names the first one that is not is reported (`checkNames_accepted`).

So a callable name is always accepted, and a name that is accepted is callable unless it ends in a
line break or has a reserved word of the language among its parts. Names of both kinds are accepted
(`checkNames_accepts_uncallable`).
-/

namespace ScriptAgent.Sandbox

open Script

/-! ## Words and names -/

/-- A letter of the alphabet, or an underscore. -/
def IsLetter (c : Char) : Prop := ('a' ≤ c ∧ c ≤ 'z') ∨ ('A' ≤ c ∧ c ≤ 'Z') ∨ c = '_'

/-- A letter, an underscore or a digit. -/
def IsWordChar (c : Char) : Prop := IsLetter c ∨ ('0' ≤ c ∧ c ≤ '9')

/-- Characters are a word: a letter or an underscore, and then letters, underscores and digits. -/
def IsWord (cs : List Char) : Prop :=
  ∃ c rest, cs = c :: rest ∧ IsLetter c ∧ ∀ d ∈ rest, IsWordChar d

/-- Characters are a reserved word of the script language. -/
def IsKeyword (cs : List Char) : Prop := Utf8.encodeChars cs ∈ Token.keywords

instance (cs : List Char) : Decidable (IsKeyword cs) := inferInstanceAs (Decidable (_ ∈ _))

/-- A script can call a tool by a name: it is one or more names of the language, joined by single
dots, and the first one is not reserved. -/
def Callable (n : String) : Prop :=
  ∃ first rest, (∀ p ∈ first :: rest, IsWord p ∧ ¬ IsKeyword p) ∧
    n.toList = ['.'].intercalate (first :: rest) ∧ String.ofList first ∉ reservedNames

/-- A name is words that are joined by single dots, the first of them `first`, with `ending` after
the last one: nothing or a line break. -/
structure Worded (n : String) (first : List Char) (rest : List (List Char)) (ending : List Char) :
    Prop where
  words : ∀ p ∈ first :: rest, IsWord p
  closing : ending = [] ∨ ending = ['\n']
  joined : n.toList = ['.'].intercalate (first :: rest) ++ ending

/-- What is accepted as the name of a tool: one or more words, joined by single dots, perhaps with a
line break at the end. The first word is not reserved, unless it is the only one and the line break
follows it. -/
def Accepted (n : String) : Prop :=
  ∃ first rest ending, Worded n first rest ending ∧
    (String.ofList first ∈ reservedNames → rest = [] ∧ ending = ['\n'])

section
variable {c : Char} {cs first : List Char} {parts rest : List (List Char)} {n : String}

theorem isNameStart_iff : isNameStart c = true ↔ IsLetter c := by
  have upper : c.isUpper = true ↔ 'A' ≤ c ∧ c ≤ 'Z' := decide_eq_true_iff
  have lower : c.isLower = true ↔ 'a' ≤ c ∧ c ≤ 'z' :=
    Bool.and_eq_true_iff.trans (and_congr decide_eq_true_iff decide_eq_true_iff)
  have alpha : c.isAlpha = true ↔ c.isUpper = true ∨ c.isLower = true := Bool.or_eq_true_iff
  rw [isNameStart, Bool.or_eq_true, alpha, upper, lower, beq_iff_eq, IsLetter]
  tauto

theorem isWordChar_iff : (isNameStart c || c.isDigit) = true ↔ IsWordChar c := by
  rw [Bool.or_eq_true, isNameStart_iff, IsWordChar]
  simp only [Char.isDigit, Bool.and_eq_true, decide_eq_true_eq, Char.le_def, ge_iff_le]

/-- The check for an identifier is the one for a word. -/
theorem isIdentifier_iff : isIdentifier cs = true ↔ IsWord cs := by
  cases cs with
  | nil => exact iff_of_false nofun fun ⟨_, _, h, _⟩ => nomatch h
  | cons c rest =>
    rw [isIdentifier, Bool.and_eq_true, isNameStart_iff, List.all_eq_true]
    simp only [isWordChar_iff]
    constructor
    · rintro ⟨hc, hrest⟩
      exact ⟨c, rest, rfl, hc, hrest⟩
    · rintro ⟨_, _, heq, hc, hrest⟩
      cases heq
      exact ⟨hc, hrest⟩

/-- All characters of a word may stand in one. -/
theorem IsWord.chars (word : IsWord cs) (hc : c ∈ cs) : IsWordChar c := by
  obtain ⟨d, rest, rfl, hd, hrest⟩ := word
  rcases List.mem_cons.1 hc with rfl | hc
  · exact .inl hd
  · exact hrest c hc

theorem IsWord.dot_not_mem (word : IsWord cs) : '.' ∉ cs := fun hc =>
  absurd (isWordChar_iff.2 (word.chars hc)) (by decide)

theorem IsWord.newline_not_mem (word : IsWord cs) : '\n' ∉ cs := fun hc =>
  absurd (isWordChar_iff.2 (word.chars hc)) (by decide)

/-! ## Parts -/

/-- A part ends at the first dot. -/
theorem splitDots_append (hcs : '.' ∉ first) (cs : List Char) :
    splitDots (first ++ '.' :: cs) = first :: splitDots cs := by
  induction first with
  | nil => rfl
  | cons c first ih =>
    rw [List.mem_cons, not_or] at hcs
    rw [List.cons_append, splitDots]
    · rw [ih hcs.2]
    · exact Ne.symm hcs.1

/-- Parts that are joined by dots are found again, with what is added to the last one. -/
theorem splitDots_intercalate (hparts : ∀ p ∈ first :: rest, '.' ∉ p) (hcs : '.' ∉ cs) :
    splitDots (['.'].intercalate (first :: rest) ++ cs) =
      match rest with
      | [] => [first ++ cs]
      | second :: more => first :: splitDots (['.'].intercalate (second :: more) ++ cs) := by
  have hfirst := hparts first List.mem_cons_self
  cases rest with
  | nil =>
    rw [List.intercalate_singleton]
    exact splitDots_of_not_mem (List.not_mem_append hfirst hcs)
  | cons second more =>
    rw [List.intercalate_cons_cons, List.append_assoc, List.append_assoc]
    exact splitDots_append hfirst _

/-- Parts that are joined by dots are found again. -/
theorem splitDots_joined (hne : parts ≠ []) (hparts : ∀ p ∈ parts, '.' ∉ p) :
    splitDots (['.'].intercalate parts) = parts := by
  induction parts with
  | nil => exact absurd rfl hne
  | cons first rest ih =>
    have hsplit := @splitDots_intercalate [] first rest hparts List.not_mem_nil
    rw [List.append_nil] at hsplit
    rw [hsplit]
    cases rest with
    | nil => rw [List.append_nil]
    | cons second more =>
      dsimp only
      rw [List.append_nil, ih (List.cons_ne_nil _ _) fun p hp =>
        hparts p (List.mem_cons_of_mem _ hp)]

/-- No line break is among words that are joined by dots. -/
theorem newline_not_mem_intercalate (words : ∀ p ∈ parts, IsWord p) :
    '\n' ∉ ['.'].intercalate parts := by
  induction parts with
  | nil => exact List.not_mem_nil
  | cons first rest ih =>
    have hfirst := (words first List.mem_cons_self).newline_not_mem
    have hrest := ih fun p hp => words p (List.mem_cons_of_mem _ hp)
    cases rest with
    | nil => rwa [List.intercalate_singleton]
    | cons second more =>
      rw [List.intercalate_cons_cons]
      simp only [List.mem_append, List.mem_singleton, not_or]
      exact ⟨⟨hfirst, by decide⟩, hrest⟩

/-! ## The check -/

/-- A name passes as a path exactly if it is words that are joined by dots, perhaps with a line
break at the end. -/
theorem isPath_iff : isPath n.toList = true ↔ ∃ first rest ending, Worded n first rest ending := by
  unfold isPath
  dsimp only
  rw [List.all_eq_true]
  simp only [isIdentifier_iff]
  constructor
  · intro words
    obtain ⟨first, rest, hparts⟩ := List.exists_cons_of_ne_nil
      (splitDots_ne_nil (if n.toList.getLast? = some '\n' then n.toList.dropLast else n.toList))
    have hjoined := intercalate_splitDots
      (if n.toList.getLast? = some '\n' then n.toList.dropLast else n.toList)
    rw [hparts] at words hjoined
    split at hjoined
    · next hlast =>
      refine ⟨first, rest, ['\n'], words, .inr rfl, ?_⟩
      rw [hjoined]
      exact (List.dropLast_append_getLast? _ hlast).symm
    · exact ⟨first, rest, [], words, .inl rfl, by rw [hjoined, List.append_nil]⟩
  · rintro ⟨first, rest, ending, words, hending, hn⟩
    have hdots : ∀ p ∈ first :: rest, '.' ∉ p := fun p hp => (words p hp).dot_not_mem
    have hparts := splitDots_joined (List.cons_ne_nil first rest) hdots
    rw [hn]
    rcases hending with rfl | rfl
    · rw [List.append_nil, if_neg, hparts]
      · exact words
      · exact fun hlast => newline_not_mem_intercalate words (List.mem_of_getLast? hlast)
    · rw [if_pos List.getLast?_concat, List.dropLast_concat, hparts]
      exact words

/-- The line break at the end of a name belongs to its first part only if there is no other part. -/
theorem Worded.head (worded : Worded n first rest ending) :
    (pathOf n).headD [] = first ++ if rest = [] then ending else [] := by
  have hdots : ∀ p ∈ first :: rest, '.' ∉ p := fun p hp => (worded.words p hp).dot_not_mem
  have hending : '.' ∉ ending := by
    rcases worded.closing with rfl | rfl <;> decide
  rw [pathOf, worded.joined, splitDots_intercalate hdots hending]
  cases rest with
  | nil => rfl
  | cons second more => exact (List.append_nil _).symm

/-- The reserved names are words. -/
theorem isWord_of_reserved (hn : String.ofList cs ∈ reservedNames) : IsWord cs := by
  have hall : ∀ r ∈ reservedNames, isIdentifier r.toList = true := by decide
  have hword := hall _ hn
  rw [String.toList_ofList] at hword
  exact isIdentifier_iff.1 hword

/-- The first part of a name is reserved exactly if its first word is, unless it is the only one and
a line break follows it. -/
theorem Worded.reserved_iff (worded : Worded n first rest ending) :
    String.ofList ((pathOf n).headD []) ∈ reservedNames ↔
      String.ofList first ∈ reservedNames ∧ ¬ (rest = [] ∧ ending = ['\n']) := by
  rw [worded.head]
  by_cases hrest : rest = []
  · rcases worded.closing with hending | hending
    · simp [hrest, hending]
    · rw [if_pos hrest, hending]
      refine iff_of_false (fun hres => ?_) fun h => h.2 ⟨hrest, rfl⟩
      exact (isWord_of_reserved hres).newline_not_mem
        (List.mem_append_right _ List.mem_cons_self)
  · simp [hrest]

/-- A name is not rejected exactly if it is accepted. -/
theorem nameFault?_eq_none_iff : nameFault? n = none ↔ Accepted n := by
  unfold nameFault?
  by_cases hpath : isPath n.toList = true
  · rw [hpath, Bool.not_true, if_neg Bool.false_ne_true, ite_eq_right_iff]
    simp only [List.contains_iff_mem, reduceCtorEq, imp_false]
    constructor
    · intro hres
      obtain ⟨first, rest, ending, worded⟩ := isPath_iff.1 hpath
      rw [worded.reserved_iff, not_and_not_right] at hres
      exact ⟨first, rest, ending, worded, hres⟩
    · rintro ⟨first, rest, ending, worded, hres⟩
      rw [worded.reserved_iff, not_and_not_right]
      exact hres
  · rw [Bool.not_eq_true] at hpath
    rw [hpath, Bool.not_false, if_pos rfl]
    refine iff_of_false nofun ?_
    rintro ⟨first, rest, ending, worded, -⟩
    rw [isPath_iff.2 ⟨first, rest, ending, worded⟩] at hpath
    exact Bool.noConfusion hpath

/-- A name is rejected because it is no path, or else because its first part is reserved. -/
theorem nameFault?_eq_some_iff {fault : NameFault} : nameFault? n = some fault ↔
    ((∀ first rest ending, ¬ Worded n first rest ending) ∧ fault = .notIdentifier n) ∨
      ((∃ first rest ending, Worded n first rest ending) ∧ ¬ Accepted n ∧
        fault = .reserved n) := by
  by_cases haccepted : Accepted n
  · rw [nameFault?_eq_none_iff.2 haccepted]
    have ⟨first, rest, ending, worded, _⟩ := haccepted
    refine iff_of_false nofun ?_
    rintro (⟨h, -⟩ | ⟨-, h, -⟩)
    · exact h first rest ending worded
    · exact h haccepted
  · have hne := mt nameFault?_eq_none_iff.1 haccepted
    rw [nameFault?] at hne ⊢
    by_cases hpath : isPath n.toList = true
    · have hparts := isPath_iff.1 hpath
      rw [hpath, Bool.not_true, if_neg Bool.false_ne_true] at hne ⊢
      rw [ite_eq_right_iff, Classical.not_imp] at hne
      rw [if_pos hne.1, Option.some_inj, eq_comm (b := fault)]
      obtain ⟨first, rest, ending, worded⟩ := hparts
      constructor
      · exact fun h => .inr ⟨⟨first, rest, ending, worded⟩, haccepted, h⟩
      · rintro (⟨h, -⟩ | ⟨-, -, h⟩)
        · exact absurd worded (h first rest ending)
        · exact h
    · have hparts := mt isPath_iff.2 hpath
      rw [Bool.not_eq_true] at hpath
      rw [hpath, Bool.not_false, if_pos rfl, Option.some_inj, eq_comm (b := fault)]
      constructor
      · exact fun h => .inl ⟨fun first rest ending hw => hparts ⟨first, rest, ending, hw⟩, h⟩
      · rintro (⟨-, h⟩ | ⟨h, -⟩)
        · exact h
        · exact absurd h hparts

/-! ## Callable names -/

/-- A name is callable exactly if it is accepted, does not end in a line break and has no reserved
word of the language among its parts. -/
theorem callable_iff : Callable n ↔
    Accepted n ∧ n.toList.getLast? ≠ some '\n' ∧ ∀ p ∈ pathOf n, ¬ IsKeyword p := by
  constructor
  · rintro ⟨first, rest, words, hn, hres⟩
    have hwords : ∀ p ∈ first :: rest, IsWord p := fun p hp => (words p hp).1
    refine ⟨⟨first, rest, [], ⟨hwords, .inl rfl, by rw [hn, List.append_nil]⟩,
      fun h => absurd h hres⟩, fun hlast => ?_, ?_⟩
    · rw [hn] at hlast
      exact newline_not_mem_intercalate hwords (List.mem_of_getLast? hlast)
    · rw [pathOf, hn, splitDots_joined (List.cons_ne_nil _ _) fun p hp => (hwords p hp).dot_not_mem]
      exact fun p hp => (words p hp).2
  · rintro ⟨⟨first, rest, ending, worded, hres⟩, hlast, keywords⟩
    have hending : ending = [] := by
      refine worded.closing.resolve_right fun hending => hlast ?_
      rw [worded.joined, hending, List.getLast?_concat]
    have hn := worded.joined
    rw [hending, List.append_nil] at hn
    rw [pathOf, hn, splitDots_joined (List.cons_ne_nil _ _)
      fun p hp => (worded.words p hp).dot_not_mem] at keywords
    refine ⟨first, rest, fun p hp => ⟨worded.words p hp, keywords p hp⟩, hn, fun h => ?_⟩
    have hbreak := (hres h).2
    rw [hending] at hbreak
    cases hbreak

end

/-- Names pass the check exactly if each of them is accepted: it is one or more words joined by
single dots, perhaps with a line break at the end, and does not begin with a reserved name. The
names that a script can call a tool by are those of them that do not end in a line break and have no
reserved word of the language among their parts. If the names do not pass, the first one that is not
accepted is reported: as no identifier if it is not such words, and as a collision with a reserved
name if it is. -/
theorem checkNames_accepted (names : List String) :
    (checkNames names = .ok () ↔ ∀ n ∈ names, Accepted n) ∧
    (∀ n, Callable n ↔
      Accepted n ∧ n.toList.getLast? ≠ some '\n' ∧ ∀ p ∈ pathOf n, ¬ IsKeyword p) ∧
    ∀ fault, checkNames names = .error fault ↔
      ∃ before n after, names = before ++ n :: after ∧ (∀ m ∈ before, Accepted m) ∧
        (((∀ first rest ending, ¬ Worded n first rest ending) ∧ fault = .notIdentifier n) ∨
          ((∃ first rest ending, Worded n first rest ending) ∧ ¬ Accepted n ∧
            fault = .reserved n)) := by
  refine ⟨?_, fun n => callable_iff, fun fault => ?_⟩
  · rw [checkNames_eq_ok_iff]
    simp only [nameFault?_eq_none_iff]
  · have hfind : checkNames names = .error fault ↔ names.findSome? nameFault? = some fault := by
      rw [checkNames]
      cases names.findSome? nameFault? with
      | none => exact ⟨fun h => (by cases h), fun h => (by cases h)⟩
      | some f => rw [Except.error.injEq, Option.some_inj]
    rw [hfind, List.findSome?_eq_some_iff]
    constructor
    · rintro ⟨before, n, after, hnames, hfault, hbefore⟩
      exact ⟨before, n, after, hnames, fun m hm => nameFault?_eq_none_iff.1 (hbefore m hm),
        nameFault?_eq_some_iff.1 hfault⟩
    · rintro ⟨before, n, after, hnames, hbefore, hfault⟩
      exact ⟨before, n, after, hnames, nameFault?_eq_some_iff.2 hfault,
        fun m hm => nameFault?_eq_none_iff.2 (hbefore m hm)⟩

/-- A name with a line break at the end and a reserved word of the language are accepted, and no
script can call a tool by them. -/
theorem checkNames_accepts_uncallable :
    checkNames ["add\n", "end"] = .ok () ∧ ¬ Callable "add\n" ∧ ¬ Callable "end" ∧
    ¬ ∀ n, checkNames [n] = .ok () ↔ Callable n := by
  have hbreak : ¬ Callable "add\n" := fun h => (callable_iff.1 h).2.1 (by decide)
  have hkeyword : ¬ Callable "end" := fun h =>
    (callable_iff.1 h).2.2 ['e', 'n', 'd'] (by decide) (by decide)
  exact ⟨by decide, hbreak, hkeyword, fun h => hkeyword ((h "end").1 (by decide))⟩

end ScriptAgent.Sandbox
