import ScriptAgent.Proofs.Json.Readable
import ScriptAgent.Proofs.Text.Bytes

/-!
# JSON in the bytes of a text

A text of JSON is read from its bytes as from its characters (`Json.parseBytes_encode`). The first
two characters of such a text are no NUL, and the first one is of ASCII, so the bytes are taken for
what they are (`charsetOf_encode`); and the bytes of characters have no defect and no halves of
pairs among them (`textOfBytes_encode`).
-/

namespace ScriptAgent.Json

open Fallible
open Utf8 (Complete isContinuation isSecondOfThree isSecondOfFour)

/-! ## Bytes of characters -/

section
variable {a b : UInt8} {bs : Bytes}

/-- The first byte of a character tells its length. -/
theorem lengthOf_two (ha : 0xC2 ≤ a.toNat) (ha' : a.toNat < 0xE0) : lengthOf a = 2 := by
  unfold lengthOf
  dsimp only
  rw [if_neg (by omega), if_neg (by omega), if_pos ha']

theorem lengthOf_three (ha : 0xE0 ≤ a.toNat) (ha' : a.toNat < 0xF0) : lengthOf a = 3 := by
  unfold lengthOf
  dsimp only
  rw [if_neg (by omega), if_neg (by omega), if_neg (by omega), if_pos ha']

theorem lengthOf_four (ha : 0xF0 ≤ a.toNat) (ha' : a.toNat < 0xF5) : lengthOf a = 4 := by
  unfold lengthOf
  dsimp only
  rw [if_neg (by omega), if_neg (by omega), if_neg (by omega), if_neg (by omega), if_pos ha']

/-- The length of a character is that of its bytes, and the other bytes follow the first one. -/
theorem following_of_complete (h : Complete (a :: bs)) (rest : Bytes) :
    lengthOf a = bs.length + 1 ∧ following a (bs ++ rest) = bs.length := by
  cases h with
  | one ha =>
    have hlength : lengthOf a = 1 := by
      unfold lengthOf
      exact if_pos ha
    refine ⟨hlength, ?_⟩
    unfold following
    rw [hlength]
    cases rest <;> rfl
  | @two _ b ha ha' hb =>
    have hlength := lengthOf_two ha ha'
    have hfollow : mayFollow a b = true := by
      simp only [mayFollow, hb, Bool.true_and, Bool.and_eq_true, Bool.or_eq_true, bne_iff_ne,
        ne_eq, decide_eq_true_eq]
      omega
    refine ⟨hlength, ?_⟩
    simp [following, hlength, hfollow, continuations]
  | @three _ b c ha ha' hb hc =>
    have hlength := lengthOf_three ha ha'
    have hfollow : mayFollow a b = true := by
      simp only [isSecondOfThree, Bool.and_eq_true, Bool.or_eq_true, bne_iff_ne, ne_eq,
        decide_eq_true_eq] at hb
      simp only [mayFollow, hb.1.1, Bool.true_and, Bool.and_eq_true, Bool.or_eq_true, bne_iff_ne,
        ne_eq, decide_eq_true_eq]
      omega
    refine ⟨hlength, ?_⟩
    simp [following, hlength, hfollow, continuations, hc]
  | @four _ b c d ha ha' hb hc hd =>
    have hlength := lengthOf_four ha ha'
    have hfollow : mayFollow a b = true := by
      simp only [isSecondOfFour, Bool.and_eq_true, Bool.or_eq_true, bne_iff_ne, ne_eq,
        decide_eq_true_eq] at hb
      simp only [mayFollow, hb.1.1, Bool.true_and, Bool.and_eq_true, Bool.or_eq_true, bne_iff_ne,
        ne_eq, decide_eq_true_eq]
      omega
    refine ⟨hlength, ?_⟩
    simp [following, hlength, hfollow, continuations, hc, hd]

/-- A character has no defect. -/
theorem misfit?_append (h : Complete bs) (position : Nat) (rest : Bytes) :
    misfit? position (bs ++ rest) = misfit? (position + bs.length) rest := by
  cases bs with
  | nil => cases h
  | cons a bs =>
    obtain ⟨hlength, hfollowing⟩ := following_of_complete h rest
    rw [List.cons_append, misfit?, hlength, if_neg (Nat.succ_ne_zero _), hfollowing, if_pos rfl,
      List.drop_left, List.length_cons, Nat.add_assoc]

/-- A byte that begins no half of a pair stays. -/
theorem withoutHalves_cons (ha : a ≠ 0xED) (rest : Bytes) :
    withoutHalves (a :: rest) = a :: withoutHalves rest := by
  rw [withoutHalves.eq_def]
  split
  · next heq => exact absurd (List.cons.inj heq).1 ha
  · next heq => cases heq; rfl
  · next heq => cases heq

/-- A byte that continues a character begins no half of a pair. -/
theorem ne_of_isContinuation (hb : isContinuation b = true) : b ≠ 0xED := by
  rintro rfl
  cases hb

/-- A character is no half of a pair. -/
theorem withoutHalves_append (h : Complete bs) (rest : Bytes) :
    withoutHalves (bs ++ rest) = bs ++ withoutHalves rest := by
  cases h with
  | @one a ha =>
    have hne : a ≠ 0xED := by rintro rfl; exact absurd ha (by decide)
    exact withoutHalves_cons hne rest
  | @two a b ha ha' hb =>
    have hne : a ≠ 0xED := by rintro rfl; exact absurd ha' (by decide)
    show withoutHalves (a :: b :: rest) = a :: b :: withoutHalves rest
    rw [withoutHalves_cons hne, withoutHalves_cons (ne_of_isContinuation hb)]
  | @three a b c ha ha' hb hc =>
    simp only [isSecondOfThree, Bool.and_eq_true, Bool.or_eq_true, bne_iff_ne, ne_eq,
      decide_eq_true_eq] at hb
    show withoutHalves (a :: b :: c :: rest) = a :: b :: c :: withoutHalves rest
    by_cases hne : a = 0xED
    · subst hne
      have hlow : ¬ 0xA0 ≤ b.toNat := by
        have := hb.2.resolve_left (by decide)
        omega
      rw [withoutHalves, if_neg hlow]
    · rw [withoutHalves_cons hne, withoutHalves_cons (ne_of_isContinuation hb.1.1),
        withoutHalves_cons (ne_of_isContinuation hc)]
  | @four a b c d ha ha' hb hc hd =>
    have hne : a ≠ 0xED := by rintro rfl; exact absurd ha (by decide)
    simp only [isSecondOfFour, Bool.and_eq_true] at hb
    show withoutHalves (a :: b :: c :: d :: rest) = a :: b :: c :: d :: withoutHalves rest
    rw [withoutHalves_cons hne, withoutHalves_cons (ne_of_isContinuation hb.1.1),
      withoutHalves_cons (ne_of_isContinuation hc), withoutHalves_cons (ne_of_isContinuation hd)]

end

/-- The bytes of characters have no defect. -/
theorem misfit?_encodeChars (cs : List Char) (position : Nat) :
    misfit? position (Utf8.encodeChars cs) = none := by
  induction cs generalizing position with
  | nil => rw [Utf8.encodeChars, List.flatMap_nil, misfit?]
  | cons c cs ih =>
    rw [Utf8.encodeChars, List.flatMap_cons, misfit?_append (Utf8.complete_encodeChar c)]
    exact ih _

/-- The bytes of characters have no halves of pairs. -/
theorem withoutHalves_encodeChars (cs : List Char) :
    withoutHalves (Utf8.encodeChars cs) = Utf8.encodeChars cs := by
  induction cs with
  | nil => rfl
  | cons c cs ih =>
    rw [Utf8.encodeChars, List.flatMap_cons, withoutHalves_append (Utf8.complete_encodeChar c)]
    exact congrArg _ ih

/-- Bytes that are taken for what they are begin with no mark. -/
theorem dropMark_of_charsetOf {bs : Bytes} (h : charsetOf bs = .utf8) :
    Text.Charset.dropMark bs = bs := by
  unfold Text.Charset.dropMark
  split
  · next rest =>
    have hmarked : charsetOf (0xEF :: 0xBB :: 0xBF :: rest) = .utf8Marked := rfl
    rw [hmarked] at h
    cases h
  · rfl

/-- The text of the bytes of a text, if they are taken for what they are. -/
theorem textOfBytes_encode {s : String} (h : charsetOf (Utf8.encode s) = .utf8) :
    textOfBytes (Utf8.encode s) = .ok s := by
  unfold textOfBytes
  rw [h]
  dsimp only
  rw [dropMark_of_charsetOf h, Utf8.encode, misfit?_encodeChars]
  dsimp only
  rw [withoutHalves_encodeChars]
  exact congrArg _ (Utf8.decode_encode s)

/-! ## Texts of JSON -/

section
variable {c : Char} {rest : List Char} {fuel : Nat}

/-- A character of ASCII that is no NUL. -/
def IsPlain (c : Char) : Prop := 0 < c.toNat ∧ c.toNat < 0x80

/-- White space is plain. -/
theorem isPlain_of_isSpace (hc : isSpace c = true) : IsPlain c := by
  simp only [isSpace, Bool.or_eq_true, beq_iff_eq] at hc
  rcases hc with ((rfl | rfl) | rfl) | rfl <;> exact ⟨by decide, by decide⟩

/-- A digit is plain. -/
theorem isPlain_of_isDigit (hc : isDigit c = true) : IsPlain c := by
  simp only [isDigit, Bool.and_eq_true, decide_eq_true_eq] at hc
  exact ⟨by omega, by omega⟩

/-- A value begins with a plain character. -/
theorem isPlain_of_readValue {r : Datum × List Char} (h : readValue fuel (c :: rest) = .ok r) :
    IsPlain c := by
  cases fuel with
  | zero => rw [readValue] at h; cases h
  | succ fuel =>
    rw [readValue.eq_def] at h
    dsimp only at h
    split at h
    case h_1 => cases h
    case h_11 =>
      obtain ⟨d, rest', hd, heq | heq⟩ := begins_of_readNumber h
      · exact (List.cons.inj heq).1 ▸ isPlain_of_isDigit hd
      · exact (List.cons.inj heq).1 ▸ ⟨by decide, by decide⟩
    all_goals rename_i heq; exact (List.cons.inj heq).1 ▸ ⟨by decide, by decide⟩

/-- The character for nothing. -/
def nul : Char := Char.ofNat 0

/-- NUL is not plain. -/
theorem not_isPlain_nul : ¬ IsPlain nul := fun h => absurd h.1 (by decide)

/-- A string does not go on with a NUL. -/
theorem readString_nul (start acc rest : List Char) :
    readString start acc (nul :: rest) = fault .controlCharacter (nul :: rest) := by
  rw [readString.eq_def]
  split
  case h_1 heq => cases heq
  case h_8 heq => cases heq; rfl
  all_goals rename_i heq; exact absurd (List.cons.inj heq).1 (by decide)

/-- A digit before a NUL is a number. -/
theorem readNumber_nul (hc : isDigit c = true) (rest : List Char) :
    ∃ d, readNumber (c :: nul :: rest) = .ok (d, nul :: rest) := by
  have hdigit : ∀ d ∈ [c], isDigit d = true := List.forall_mem_singleton.2 hc
  have hlead : [c] = ['0'] ∨ [c].head? ≠ some '0' := by
    by_cases h : c = '0'
    · exact .inl (congrArg (fun d => [d]) h)
    · exact .inr fun heq => h (Option.some.inj heq)
  have hrest : ∀ d ∈ (nul :: rest).head?, isDigit d = false := by
    intro d hd
    cases hd
    rfl
  have hfraction : fractionDigits (nul :: rest) = ([], nul :: rest) := rfl
  have hexponent : exponentPart (nul :: rest) = (none, nul :: rest) := rfl
  exact ⟨_, readNumber_parts false hdigit hlead (List.cons_ne_nil _ _) hrest hfraction hexponent⟩

/-- What is read of a character and a NUL leaves the NUL. -/
theorem nul_of_readValue {r : Datum × List Char}
    (h : readValue fuel (c :: nul :: rest) = .ok r) : r.2 = nul :: rest := by
  have hskip : skipSpace (nul :: rest) = nul :: rest := skipSpace_cons rfl
  cases fuel with
  | zero => rw [readValue] at h; cases h
  | succ fuel =>
    rw [readValue.eq_def] at h
    dsimp only at h
    split at h
    case h_1 heq => cases heq
    case h_2 heq =>
      cases heq
      rw [readString_nul] at h
      cases h
    case h_3 heq =>
      cases heq
      rw [hskip] at h
      split at h
      · next heq => exact absurd (List.cons.inj heq).1 (by decide)
      · cases fuel with
        | zero => rw [readMembers] at h; cases h
        | succ fuel =>
          rw [readMembers.eq_def] at h
          dsimp only at h
          split at h
          · next heq => exact absurd (List.cons.inj heq).1 (by decide)
          · cases h
    case h_4 heq =>
      cases heq
      rw [hskip] at h
      split at h
      · next heq => exact absurd (List.cons.inj heq).1 (by decide)
      · cases fuel with
        | zero => rw [readItems] at h; cases h
        | succ fuel =>
          rw [readItems] at h
          obtain ⟨_, hr, -⟩ := bind_eq_ok_iff.1 h
          exact absurd (isPlain_of_readValue hr) not_isPlain_nul
    case h_11 =>
      obtain ⟨d, rest', hd, heq | heq⟩ := begins_of_readNumber h
      · cases heq
        obtain ⟨e, hread⟩ := readNumber_nul hd rest
        rw [hread] at h
        cases h
        rfl
      · cases heq
        cases hd
    -- A word does not go on with a NUL.
    all_goals rename_i heq; exact absurd (List.cons.inj (List.cons.inj heq).2).1 (by decide)

/-- A text of JSON begins with a plain character, and no NUL follows it. -/
theorem begins_of_parse {s : String} {d : Datum} (h : parse s = .ok d) :
    ∃ c rest, s.toList = c :: rest ∧ IsPlain c ∧ nul ∉ rest.head? := by
  obtain ⟨left, hread, hleft⟩ := readValue_of_parse h
  cases hs : s.toList with
  | nil =>
    rw [hs] at hread
    rw [show skipSpace [] = [] from rfl, readValue] at hread
    cases hread
  | cons c rest =>
    rw [hs] at hread
    by_cases hc : isSpace c = true
    · refine ⟨c, rest, rfl, isPlain_of_isSpace hc, fun hnul => ?_⟩
      obtain ⟨rest', rfl⟩ := List.head?_eq_some_iff.1 hnul
      rw [skipSpace, List.dropWhile_cons_of_pos hc] at hread
      exact absurd (isPlain_of_readValue hread) not_isPlain_nul
    · rw [skipSpace_cons (Bool.eq_false_iff.2 hc)] at hread
      refine ⟨c, rest, rfl, isPlain_of_readValue hread, fun hnul => ?_⟩
      obtain ⟨rest', rfl⟩ := List.head?_eq_some_iff.1 hnul
      rw [show left = nul :: rest' from nul_of_readValue hread] at hleft
      cases hleft

end

/-! ## Bytes of texts of JSON -/

/-- Only a NUL is written with a byte of zero at its beginning. -/
theorem encodeChar_ne_zero {c : Char} (hc : c ≠ nul) (rest : Bytes) :
    Utf8.encodeChar c ≠ 0 :: rest := by
  intro h
  have hread := Utf8.decodeChars_encodeChar_append c []
  rw [List.append_nil, h, Utf8.decodeChars_one rest (by decide)] at hread
  exact hc (List.cons.inj hread).1.symm

/-- Bytes that begin with another byte do not begin with a mark. -/
theorem isPrefixOf_cons_of_ne {a b : UInt8} (h : b ≠ a) (mark bs : Bytes) :
    (b :: mark).isPrefixOf (a :: bs) = false := by
  rw [List.isPrefixOf_cons_cons, beq_false_of_ne h, Bool.false_and]

/-- Bytes that begin with one of ASCII, and go on with no zero, are taken for what they are. -/
theorem charsetOf_ascii {a : UInt8} {bs : Bytes} (ha : a ≠ 0) (ha' : a.toNat < 0x80)
    (hbs : ∀ rest, bs ≠ 0 :: rest) : charsetOf (a :: bs) = .utf8 := by
  have hne : ∀ b : UInt8, 0x80 ≤ b.toNat → b ≠ a := by
    rintro b hb rfl
    omega
  simp only [charsetOf, isPrefixOf_cons_of_ne ha.symm, isPrefixOf_cons_of_ne (hne 0xFF (by decide)),
    isPrefixOf_cons_of_ne (hne 0xFE (by decide)), isPrefixOf_cons_of_ne (hne 0xEF (by decide))]
  rw [if_neg (by decide), if_neg (by decide), if_neg (by decide)]
  split
  · next heq =>
    cases heq
    rw [if_neg ha, if_neg fun hb => hbs _ (by rw [hb])]
  · next heq =>
    cases heq
    rw [if_neg ha, if_neg fun hb => hbs _ (by rw [hb])]
  · rfl

/-- The bytes of a text of JSON are taken for what they are. -/
theorem charsetOf_encode {s : String} {d : Datum} (h : parse s = .ok d) :
    charsetOf (Utf8.encode s) = .utf8 := by
  obtain ⟨c, rest, hs, hc, hnul⟩ := begins_of_parse h
  have hbyte : (Utf8.byte c.toNat).toNat = c.toNat := Utf8.toNat_byte (by have := hc.2; omega)
  have hbytes : Utf8.encode s = Utf8.byte c.toNat :: Utf8.encodeChars rest := by
    rw [Utf8.encode, hs, Utf8.encodeChars, List.flatMap_cons, Utf8.encodeChar, if_pos hc.2]
    rfl
  rw [hbytes]
  refine charsetOf_ascii (fun hzero => ?_) (by rw [hbyte]; exact hc.2) fun bs hbs => ?_
  · rw [hzero] at hbyte
    exact absurd hbyte.symm (Nat.pos_iff_ne_zero.1 hc.1)
  · cases rest with
    | nil => cases hbs
    | cons e rest =>
      have hcomplete := Utf8.complete_encodeChar e
      rw [Utf8.encodeChars, List.flatMap_cons] at hbs
      cases he : Utf8.encodeChar e with
      | nil => rw [he] at hcomplete; cases hcomplete
      | cons b tail =>
        rw [he] at hbs
        have hb : b = 0 := (List.cons.inj hbs).1
        refine encodeChar_ne_zero (fun heq => hnul (heq ▸ rfl)) tail (he.trans (by rw [hb]))

/-- A text of JSON is read from its bytes as it is itself. -/
theorem parseBytes_encode {s : String} {d : Datum} (h : parse s = .ok d) :
    parseBytes (Utf8.encode s) = .ok d := by
  rw [parseBytes, textOfBytes_encode (charsetOf_encode h)]
  dsimp only
  rw [h]

end ScriptAgent.Json
