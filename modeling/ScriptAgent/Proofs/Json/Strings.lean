import ScriptAgent.Json.Reader
import ScriptAgent.Json.Writer

/-!
# Strings in JSON

A character is written as itself or as one escape, with a letter or with four digits, and each of
them is read as that character (`Json.readString_escapeChar`). So a string is read back from what is
written for it, whatever characters are in it (`Json.readString_writeString`).
-/

namespace ScriptAgent.Json

variable {start acc rest : List Char}

/-- A letter after a backslash is read as the character that it stands for. -/
theorem readString_escaped {c d : Char} (hd : d ≠ 'u') (h : escaped? d = some c) :
    readString start acc ('\\' :: d :: rest) = readString start (c :: acc) rest := by
  rw [readString.eq_def]
  split
  · next heq => cases heq
  · next heq => cases heq
  · next heq => cases heq
  · next heq => cases heq; exact absurd rfl hd
  · next heq => cases heq; exact absurd rfl hd
  · next heq => cases heq; exact absurd rfl hd
  · next heq => cases heq; rw [h]
  · next other heq => cases heq; exact (other _ _ rfl rfl).elim

/-- A plain character. -/
theorem readString_plain {c : Char} (hquote : c ≠ '"') (hslash : c ≠ '\\') (hc : ¬ c.toNat < 32) :
    readString start acc (c :: rest) = readString start (c :: acc) rest := by
  rw [readString.eq_def]
  split
  · next heq => cases heq
  · next heq => cases heq; exact absurd rfl hquote
  · next heq => cases heq; exact absurd rfl hslash
  · next heq => cases heq; exact absurd rfl hslash
  · next heq => cases heq; exact absurd rfl hslash
  · next heq => cases heq; exact absurd rfl hslash
  · next heq => cases heq; exact absurd rfl hslash
  · next heq => cases heq; rw [if_neg hc]

/-- Four digits after a backslash and a letter u are read as the character with their code. -/
theorem readString_code {a b c d e : Char} {n : Nat} (h : fourDigits? a b c d = some n)
    (hn : n < 0xD800) :
    readString start acc ('\\' :: 'u' :: a :: b :: c :: d :: e :: rest) =
      readString start (Char.ofNat n :: acc) (e :: rest) := by
  have hcode : ofCode n = Char.ofNat n := by
    rw [ofCode, if_neg]
    simp only [Bool.and_eq_true, decide_eq_true_eq]
    omega
  rw [readString.eq_def]
  split
  · next heq => cases heq
  · next heq => cases heq
  · next heq => cases heq
  · next heq =>
    cases heq
    rw [h]
    dsimp only
    rw [if_neg, hcode]
    simp only [Bool.and_eq_true, decide_eq_true_eq]
    omega
  · next heq =>
    cases heq
    rw [h]
    dsimp only
    rw [hcode]
  · next other heq => cases heq; exact (other _ _ _ _ _ _ rfl).elim
  · next other heq => cases heq; exact (other rfl).elim
  · next other heq => cases heq; exact (other _ _ rfl rfl).elim

/-- A control character is written with four digits that denote its code. -/
theorem hexDigits_four {n : Nat} (hn : n < 32) :
    ∃ a b c d, Text.hexDigits 4 n = [a, b, c, d] ∧ fourDigits? a b c d = some n := by
  have h : ∀ m : Fin 32,
      Text.hexDigits 4 m = ['0', '0', (m / 16 : Nat).digitChar, (m % 16 : Nat).digitChar] ∧
        fourDigits? '0' '0' (m / 16 : Nat).digitChar (m % 16 : Nat).digitChar = some m.val := by
    decide
  exact ⟨_, _, _, _, h ⟨n, hn⟩⟩

/-- What is written for a character is read as that character. -/
theorem readString_escapeChar (c : Char) (hrest : rest ≠ []) :
    readString start acc (escapeChar c ++ rest) = readString start (c :: acc) rest := by
  unfold escapeChar
  split
  · exact readString_escaped (by decide) rfl
  · exact readString_escaped (by decide) rfl
  · exact readString_escaped (by decide) rfl
  · exact readString_escaped (by decide) rfl
  · exact readString_escaped (by decide) rfl
  · next hquote hslash _ _ _ =>
    have hc : Char.ofNat c.toNat = c := Char.ofNat_toNat c
    split
    · next h8 =>
      rw [h8] at hc
      exact readString_escaped (by decide) (by rw [← hc]; rfl)
    · split
      · next h12 =>
        rw [h12] at hc
        exact readString_escaped (by decide) (by rw [← hc]; rfl)
      · split
        · next hlt =>
          obtain ⟨a, b, c', d, hdigits, hcode⟩ := hexDigits_four hlt
          obtain ⟨e, rest, rfl⟩ := List.exists_cons_of_ne_nil hrest
          rw [hdigits]
          exact (readString_code hcode (by omega)).trans (by rw [hc])
        · next hge => exact readString_plain hquote hslash hge

/-- A string is read back from what is written for it. -/
theorem readString_writeString (s rest : List Char) :
    readString start acc (s.flatMap escapeChar ++ '"' :: rest) = .ok (acc.reverse ++ s, rest) := by
  induction s generalizing acc with
  | nil => rw [List.flatMap_nil, List.nil_append, readString, List.append_nil]
  | cons c s ih =>
    rw [List.flatMap_cons, List.append_assoc, readString_escapeChar c (by simp), ih,
      List.reverse_cons, List.append_assoc]
    rfl

end ScriptAgent.Json
