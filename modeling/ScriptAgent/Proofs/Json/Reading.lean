import ScriptAgent.Proofs.Json.Numbers
import ScriptAgent.Proofs.Json.Strings

/-!
# Texts that are read as values

`Json.Reads cs d` says that a text is read as a value wherever it stands: whatever follows it, as
long as it does not go on with a numeral, and with any fuel above the length of the text. What is
written for nothing, booleans, numbers and texts is read so, and arrays and objects are read from
texts of their parts (`Json.readItems_intercalate`, `Json.readMembers_intercalate`).

A value begins with a character that no other value of its place begins with
(`Json.begins_of_readValue`), so white space in front of it is skipped and an array with a part is
not taken for an empty one.
-/

namespace ScriptAgent.Json

/-! ## White space -/

section
variable {cs rest : List Char} {c : Char}

/-- White space only. -/
def Blank (cs : List Char) : Prop := ∀ c ∈ cs, isSpace c = true

/-- White space is skipped. -/
theorem skipSpace_append (hcs : Blank cs) : skipSpace (cs ++ rest) = skipSpace rest :=
  List.dropWhile_append_of_pos hcs

/-- Other characters are not skipped. -/
theorem skipSpace_cons (hc : isSpace c = false) : skipSpace (c :: rest) = c :: rest := by
  rw [skipSpace, List.dropWhile_cons_of_neg (by rw [hc]; decide)]

/-- White space before something else is skipped, and nothing more. -/
theorem skipSpace_begins {blanks : List Char} (hblanks : Blank blanks) (hcs : cs = c :: rest)
    (hc : isSpace c = false) : skipSpace (blanks ++ cs) = cs := by
  rw [skipSpace_append hblanks, hcs, skipSpace_cons hc]

/-- A text that begins with a character that no numeral goes on with ends a numeral. -/
theorem endsNumeral_cons (hc : isDigit c = false) (h : c ≠ '.' ∧ c ≠ 'e' ∧ c ≠ 'E') :
    EndsNumeral (c :: rest) := by
  intro d hd
  cases hd
  exact ⟨hc, h⟩

/-- White space ends a numeral, and so does what follows it. -/
theorem endsNumeral_append (hcs : Blank cs) (hrest : EndsNumeral rest) :
    EndsNumeral (cs ++ rest) := by
  cases cs with
  | nil => exact hrest
  | cons c cs =>
    have hc := hcs c List.mem_cons_self
    simp only [isSpace, Bool.or_eq_true, beq_iff_eq] at hc
    rcases hc with ((rfl | rfl) | rfl) | rfl <;> exact endsNumeral_cons rfl (by decide)

end

/-! ## Beginnings -/

section
variable {cs : List Char} {r : Datum × List Char} {fuel : Nat}

/-- Digits are split off a text that begins with one. -/
theorem begins_of_wholeDigits (h : (wholeDigits cs).1 ≠ []) :
    ∃ d rest, isDigit d = true ∧ cs = d :: rest := by
  cases cs with
  | nil => exact absurd rfl h
  | cons d rest =>
    by_cases hd : isDigit d = true
    · exact ⟨d, rest, hd, rfl⟩
    · refine absurd ?_ h
      unfold wholeDigits
      split
      · next heq =>
        rw [(List.cons.inj heq).1] at hd
        exact absurd rfl hd
      · exact List.takeWhile_cons_of_neg hd

/-- What is read as a number begins with a digit or with a minus sign before one. -/
theorem begins_of_readNumber (h : readNumber cs = .ok r) :
    ∃ d rest, isDigit d = true ∧ (cs = d :: rest ∨ cs = '-' :: d :: rest) := by
  unfold readNumber at h
  split at h
  next negative ds hsign =>
  have hne : (wholeDigits ds).1 ≠ [] := by
    intro hnil
    simp only [hnil] at h
    cases h
  obtain ⟨d, rest, hd, rfl⟩ := begins_of_wholeDigits hne
  refine ⟨d, rest, hd, ?_⟩
  split at hsign
  · cases hsign
    exact .inr rfl
  · cases hsign
    exact .inl rfl

/-- A digit is none of the other characters. -/
theorem ne_of_isDigit {c d : Char} (hd : isDigit d = true) (hc : isDigit c = false) : d ≠ c := by
  rintro rfl
  rw [hd] at hc
  cases hc

/-- What is read as a number alone is read as it wherever a value is expected. -/
theorem readValue_of_readNumber (h : readNumber cs = .ok r) : readValue (fuel + 1) cs = .ok r := by
  obtain ⟨d, rest, hd, hcs⟩ := begins_of_readNumber h
  rw [readValue.eq_def]
  dsimp only
  split
  case h_11 => exact h
  -- A digit begins no other value, and neither does a minus sign before one.
  all_goals rcases hcs with heq | heq <;> cases heq <;> exact absurd rfl (ne_of_isDigit hd rfl)

/-- A value begins with no white space, with no closing bracket and with no byte order mark. -/
theorem begins_of_readValue (h : readValue fuel cs = .ok r) :
    ∃ c rest, cs = c :: rest ∧ isSpace c = false ∧ c ≠ ']' ∧ c ≠ '\uFEFF' := by
  cases fuel with
  | zero => rw [readValue] at h; cases h
  | succ fuel =>
    rw [readValue.eq_def] at h
    dsimp only at h
    split at h
    case h_1 => cases h
    case h_11 =>
      obtain ⟨d, rest, hd, rfl | rfl⟩ := begins_of_readNumber h
      · have hspace : isSpace d = false := by
          simp only [isSpace, Bool.or_eq_false_iff, beq_eq_false_iff_ne]
          exact ⟨⟨⟨ne_of_isDigit hd rfl, ne_of_isDigit hd rfl⟩, ne_of_isDigit hd rfl⟩,
            ne_of_isDigit hd rfl⟩
        exact ⟨d, rest, rfl, hspace, ne_of_isDigit hd rfl, ne_of_isDigit hd rfl⟩
      · exact ⟨_, _, rfl, by decide⟩
    all_goals exact ⟨_, _, rfl, by decide⟩

end

/-! ## Values -/

/-- A text is read as a value wherever something follows it that ends a numeral. -/
def Reads (cs : List Char) (d : Datum) : Prop :=
  ∀ fuel rest, cs.length < fuel → EndsNumeral rest →
    readValue fuel (cs ++ rest) = .ok (d, rest)

namespace Reads
variable {cs rest : List Char} {d : Datum} {fuel : Nat}

/-- White space before a value is skipped, and the value is not. -/
theorem skipSpace {blanks : List Char} (h : Reads cs d) (hb : Blank blanks)
    (hrest : EndsNumeral rest) : skipSpace (blanks ++ (cs ++ rest)) = cs ++ rest := by
  obtain ⟨c, rest', hcs, hc, -⟩ := begins_of_readValue (h _ rest (Nat.lt_succ_self _) hrest)
  exact skipSpace_begins hb hcs hc

/-- Nothing. -/
theorem none : Reads "null".toList .none := by
  intro fuel rest hfuel _
  obtain ⟨fuel, rfl⟩ : ∃ n, fuel = n + 1 := ⟨fuel - 1, by omega⟩
  show readValue (fuel + 1) ('n' :: 'u' :: 'l' :: 'l' :: rest) = _
  rw [readValue]

/-- A boolean. -/
theorem bool (b : Bool) : Reads (if b then "true" else "false").toList (.bool b) := by
  intro fuel rest hfuel _
  obtain ⟨fuel, rfl⟩ : ∃ n, fuel = n + 1 := ⟨fuel - 1, by omega⟩
  cases b with
  | true =>
    show readValue (fuel + 1) ('t' :: 'r' :: 'u' :: 'e' :: rest) = _
    rw [readValue]
  | false =>
    show readValue (fuel + 1) ('f' :: 'a' :: 'l' :: 's' :: 'e' :: rest) = _
    rw [readValue]

/-- An integer of not too many digits. -/
theorem int {i : Int} (hi : (Nat.toDigits 10 i.natAbs).length ≤ maxDigits) :
    Reads (writeInt i) (.int i) := by
  intro fuel rest hfuel hrest
  obtain ⟨fuel, rfl⟩ : ∃ n, fuel = n + 1 := ⟨fuel - 1, by omega⟩
  exact readValue_of_readNumber (readNumber_digits hi hrest)

/-- A float, also one that is not finite. -/
theorem float (x : Float) : Reads (Decimal.jsonLayout.render x).toList (.float x) := by
  intro fuel rest hfuel hrest
  obtain ⟨fuel, rfl⟩ : ∃ n, fuel = n + 1 := ⟨fuel - 1, by omega⟩
  cases hx : Decimal.classify x with
  | finite negative v => exact readValue_of_readNumber (readNumber_render hx hrest)
  | infinite negative =>
    have htext : (Decimal.jsonLayout.render x).toList =
        (if negative then "-" ++ "Infinity" else "Infinity").toList := by
      rw [Decimal.Layout.render, hx]
      rfl
    rw [htext, Decimal.eq_infinity_of_infinite hx]
    cases negative with
    | true =>
      show readValue (fuel + 1)
        ('-' :: 'I' :: 'n' :: 'f' :: 'i' :: 'n' :: 'i' :: 't' :: 'y' :: rest) = _
      rw [readValue]
    | false =>
      show readValue (fuel + 1)
        ('I' :: 'n' :: 'f' :: 'i' :: 'n' :: 'i' :: 't' :: 'y' :: rest) = _
      rw [readValue]
  | notANumber =>
    have htext : (Decimal.jsonLayout.render x).toList = "NaN".toList := by
      rw [Decimal.Layout.render, hx]
      rfl
    rw [htext, Decimal.eq_nan_of_notANumber hx]
    show readValue (fuel + 1) ('N' :: 'a' :: 'N' :: rest) = _
    rw [readValue]

/-- A text. -/
theorem str (s : String) : Reads (writeString s.toList) (.str s) := by
  intro fuel rest hfuel _
  obtain ⟨fuel, rfl⟩ : ∃ n, fuel = n + 1 := ⟨fuel - 1, by omega⟩
  have htext : writeString s.toList ++ rest =
      '"' :: (s.toList.flatMap escapeChar ++ '"' :: rest) := by
    rw [writeString, List.append_assoc]
    rfl
  rw [htext, readValue]
  simp only [readString_writeString, bind, Except.bind, pure, Except.pure, List.reverse_nil,
    List.nil_append, String.ofList_toList]

end Reads

/-! ## Arrays and objects -/

section
variable {rest tail blanks blanks' cs : List Char} {parts : List (List Char)} {fuel : Nat}

/-- The first of some texts with separators between them, and what comes after it. -/
theorem intercalate_cons_append (sep cs : List Char) (parts : List (List Char)) (tail : List Char) :
    List.intercalate sep (cs :: parts) ++ tail =
      cs ++ if parts = [] then tail else sep ++ (List.intercalate sep parts ++ tail) := by
  split
  · next h => rw [h, List.intercalate_singleton]
  · next h => rw [List.intercalate_cons_of_ne_nil h, List.append_assoc, List.append_assoc]

/-- What comes after the first of some texts ends a numeral. -/
theorem endsNumeral_after (htail : EndsNumeral tail) :
    EndsNumeral (if parts = [] then tail
      else ',' :: blanks ++ (List.intercalate (',' :: blanks) parts ++ tail)) := by
  split
  · exact htail
  · exact endsNumeral_cons rfl (by decide)

/-- Texts of items begin with no white space and with no closing bracket. -/
theorem Reads.begins {d : Datum} (h : Reads cs d) (htail : EndsNumeral tail) :
    ∃ c cs', List.intercalate (',' :: blanks) (cs :: parts) ++ tail = c :: cs' ∧
      isSpace c = false ∧ c ≠ ']' := by
  obtain ⟨c, cs', hcs, hspace, hc, -⟩ :=
    begins_of_readValue (h _ _ (Nat.lt_succ_self _) (endsNumeral_after htail))
  exact ⟨c, cs', (intercalate_cons_append ..).trans hcs, hspace, hc⟩

/-- Texts of items with a separator between them are read as these items. -/
theorem readItems_intercalate {items acc : List Datum} (h : List.Forall₂ Reads parts items)
    (filled : parts ≠ []) (hblanks : Blank blanks) (hclose : Blank blanks')
    (hfuel : (List.intercalate (',' :: blanks) parts).length + 1 < fuel) :
    readItems fuel acc (List.intercalate (',' :: blanks) parts ++ (blanks' ++ ']' :: rest)) =
      .ok (.list (acc.reverse ++ items), rest) := by
  have htail : EndsNumeral (blanks' ++ ']' :: rest) :=
    endsNumeral_append hclose (endsNumeral_cons rfl (by decide))
  induction h generalizing fuel acc with
  | nil => exact absurd rfl filled
  | @cons cs d parts items hd hparts ih =>
    obtain ⟨fuel, rfl⟩ : ∃ n, fuel = n + 1 := ⟨fuel - 1, by omega⟩
    have hlength := congrArg List.length (intercalate_cons_append (',' :: blanks) cs parts [])
    rw [List.append_nil, List.length_append] at hlength
    rw [intercalate_cons_append, readItems, hd fuel _ (by omega) (endsNumeral_after htail)]
    simp only [bind, Except.bind]
    cases hparts with
    | nil =>
      rw [if_pos rfl, skipSpace_append hclose, skipSpace_cons rfl]
      simp [pure, Except.pure]
    | @cons cs' d' parts items hd' hparts =>
      rw [if_neg (List.cons_ne_nil _ _), List.append_nil] at hlength
      rw [if_neg (List.cons_ne_nil _ _), List.cons_append, skipSpace_cons rfl]
      show readItems fuel (d :: acc) (skipSpace (blanks ++ (_ ++ (blanks' ++ ']' :: rest)))) = _
      obtain ⟨c, rest', hbegins, hc, -⟩ := hd'.begins htail
      rw [List.length_append, List.length_cons] at hlength
      rw [skipSpace_begins hblanks hbegins hc, ih (List.cons_ne_nil _ _) (by omega)]
      simp

/-- A text is a name with a colon and a text that is read as a value. -/
def ReadsMember (blanks cs : List Char) (e : Datum × Datum) : Prop :=
  ∃ s text, cs = writeString s.toList ++ (':' :: blanks ++ text) ∧ e.1 = .str s ∧ Reads text e.2

/-- The name of a member is read before the value. -/
theorem readMembers_member {acc : List (Datum × Datum)} {e : Datum × Datum} {names : List Char}
    (h : ReadsMember names cs e) (hnames : Blank names) (hfuel : cs.length < fuel)
    (htail : EndsNumeral tail) :
    readMembers (fuel + 1) acc (cs ++ tail) =
      match skipSpace tail with
      | '}' :: rest => .ok (Datum.ofEntries (e :: acc).reverse, rest)
      | ',' :: rest => readMembers fuel (e :: acc) (skipSpace rest)
      | rest => fault .expectingComma rest := by
  obtain ⟨k, d⟩ := e
  obtain ⟨s, text, rfl, rfl, hd⟩ := h
  have htext : (writeString s.toList ++ (':' :: names ++ text)) ++ tail =
      '"' :: (s.toList.flatMap escapeChar ++ '"' :: (':' :: (names ++ (text ++ tail)))) := by
    simp [writeString]
  have hlength : text.length < fuel := by
    simp only [List.length_append, List.length_cons] at hfuel
    omega
  rw [htext, readMembers]
  simp only [readString_writeString, bind, Except.bind, List.reverse_nil, List.nil_append,
    String.ofList_toList]
  rw [skipSpace_cons rfl]
  simp only [hd.skipSpace hnames htail, hd fuel tail hlength htail]
  rfl

/-- Texts of members begin with a quote. -/
theorem ReadsMember.begins {e : Datum × Datum} {names sep : List Char}
    (h : ReadsMember names cs e) :
    ∃ cs', List.intercalate sep (cs :: parts) ++ tail = '"' :: cs' := by
  obtain ⟨s, text, rfl, -⟩ := h
  exact ⟨_, intercalate_cons_append ..⟩

/-- Texts of members with a separator between them are read as these members. -/
theorem readMembers_intercalate {entries acc : List (Datum × Datum)} {names : List Char}
    (h : List.Forall₂ (ReadsMember names) parts entries) (filled : parts ≠ [])
    (hnames : Blank names) (hblanks : Blank blanks) (hclose : Blank blanks')
    (hfuel : (List.intercalate (',' :: blanks) parts).length + 1 < fuel) :
    readMembers fuel acc (List.intercalate (',' :: blanks) parts ++ (blanks' ++ '}' :: rest)) =
      .ok (Datum.ofEntries (acc.reverse ++ entries), rest) := by
  have htail : EndsNumeral (blanks' ++ '}' :: rest) :=
    endsNumeral_append hclose (endsNumeral_cons rfl (by decide))
  induction h generalizing fuel acc with
  | nil => exact absurd rfl filled
  | @cons cs e parts entries he hparts ih =>
    obtain ⟨fuel, rfl⟩ : ∃ n, fuel = n + 1 := ⟨fuel - 1, by omega⟩
    have hlength := congrArg List.length (intercalate_cons_append (',' :: blanks) cs parts [])
    rw [List.append_nil, List.length_append] at hlength
    rw [intercalate_cons_append, readMembers_member he hnames (by omega) (endsNumeral_after htail)]
    cases hparts with
    | nil =>
      rw [if_pos rfl, skipSpace_append hclose, skipSpace_cons rfl]
      simp
    | @cons cs' e' parts entries he' hparts =>
      rw [if_neg (List.cons_ne_nil _ _), List.append_nil, List.length_append,
        List.length_cons] at hlength
      rw [if_neg (List.cons_ne_nil _ _), List.cons_append, skipSpace_cons rfl]
      show readMembers fuel (e :: acc) (skipSpace (blanks ++ (_ ++ (blanks' ++ '}' :: rest)))) = _
      obtain ⟨rest', hbegins⟩ := he'.begins
      rw [skipSpace_begins hblanks hbegins rfl, ih (List.cons_ne_nil _ _) (by omega)]
      simp

end

end ScriptAgent.Json
