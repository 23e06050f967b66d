import ScriptAgent.Text.Bytes

/-!
# Reading back written characters

Lenient reading undoes writing: `Utf8.decode_encode` says that a text is read back from its own
bytes, so two texts with the same bytes are equal (`Utf8.encode_injective`). The proof goes one
character at a time (`Utf8.decodeChars_encodeChar_append`), by the number of its bytes; what follows
the character does not matter, since a written character is complete.
-/

namespace ScriptAgent.Utf8

/-! ## Bytes as numbers -/

/-- A byte made of a small number has that number as its value. -/
theorem toNat_byte {n : Nat} (h : n < 256) : (byte n).toNat = n := by
  simp only [byte, UInt8.toNat_ofNat']
  omega

/-- A byte made of the payload of six bits continues a character. -/
theorem isContinuation_byte {n : Nat} (h : n < 64) : isContinuation (byte (0x80 + n)) = true := by
  simp only [isContinuation, toNat_byte (show 0x80 + n < 256 by omega), Bool.and_eq_true,
    decide_eq_true_eq]
  omega

/-- The payload of a byte that continues a character. -/
theorem low_byte {n : Nat} (h : n < 64) : low (byte (0x80 + n)) = n := by
  have hb : (byte (0x80 + n)).toNat = 0x80 + n := toNat_byte (by omega)
  unfold low
  omega

/-- The code point of a character is below the first one that does not exist, and no surrogate. -/
theorem toNat_valid (c : Char) :
    c.toNat < 0xD800 ∨ (0xDFFF < c.toNat ∧ c.toNat < 0x110000) := c.valid

/-! ## Complete characters by the number of their bytes -/

/-- The second byte of a character of three bytes fits the first one. -/
theorem isSecondOfThree_byte {n : Nat} (hlo : 0x800 ≤ n) (hhi : n < 0x10000)
    (hn : n < 0xD800 ∨ 0xDFFF < n) :
    isSecondOfThree (byte (0xE0 + n / 4096)) (byte (0x80 + n / 64 % 64)) = true := by
  have hb : n / 64 % 64 < 64 := Nat.mod_lt _ (by decide)
  simp only [isSecondOfThree, isContinuation_byte hb,
    toNat_byte (show 0xE0 + n / 4096 < 256 by omega),
    toNat_byte (show 0x80 + n / 64 % 64 < 256 by omega), Bool.true_and, Bool.and_eq_true,
    Bool.or_eq_true, bne_iff_ne, ne_eq, decide_eq_true_eq]
  omega

/-- The second byte of a character of four bytes fits the first one. -/
theorem isSecondOfFour_byte {n : Nat} (hlo : 0x10000 ≤ n) (hhi : n < 0x110000) :
    isSecondOfFour (byte (0xF0 + n / 262144)) (byte (0x80 + n / 4096 % 64)) = true := by
  have hb : n / 4096 % 64 < 64 := Nat.mod_lt _ (by decide)
  simp only [isSecondOfFour, isContinuation_byte hb,
    toNat_byte (show 0xF0 + n / 262144 < 256 by omega),
    toNat_byte (show 0x80 + n / 4096 % 64 < 256 by omega), Bool.true_and, Bool.and_eq_true,
    Bool.or_eq_true, bne_iff_ne, ne_eq, decide_eq_true_eq]
  omega

/-- The bytes of a character: as many as the first one asks for, all others continue it, and the
second one fits the first one. -/
inductive Complete : Bytes → Prop where
  | one {a : UInt8} (ha : a.toNat < 0x80) : Complete [a]
  | two {a b : UInt8} (ha : 0xC2 ≤ a.toNat) (ha' : a.toNat < 0xE0)
      (hb : isContinuation b = true) : Complete [a, b]
  | three {a b c : UInt8} (ha : 0xE0 ≤ a.toNat) (ha' : a.toNat < 0xF0)
      (hb : isSecondOfThree a b = true) (hc : isContinuation c = true) : Complete [a, b, c]
  | four {a b c d : UInt8} (ha : 0xF0 ≤ a.toNat) (ha' : a.toNat < 0xF5)
      (hb : isSecondOfFour a b = true) (hc : isContinuation c = true)
      (hd : isContinuation d = true) : Complete [a, b, c, d]

/-- A character is written as the bytes of a character. -/
theorem complete_encodeChar (c : Char) : Complete (encodeChar c) := by
  have hv := toNat_valid c
  simp only [encodeChar]
  split
  · exact .one (by rw [toNat_byte (by omega)]; assumption)
  split
  · have ha : (byte (0xC0 + c.toNat / 64)).toNat = 0xC0 + c.toNat / 64 := toNat_byte (by omega)
    exact .two (by omega) (by omega) (isContinuation_byte (Nat.mod_lt _ (by decide)))
  split
  · have ha : (byte (0xE0 + c.toNat / 4096)).toNat = 0xE0 + c.toNat / 4096 :=
      toNat_byte (by omega)
    exact .three (by omega) (by omega) (isSecondOfThree_byte (by omega) (by omega) (by omega))
      (isContinuation_byte (Nat.mod_lt _ (by decide)))
  · have ha : (byte (0xF0 + c.toNat / 262144)).toNat = 0xF0 + c.toNat / 262144 :=
      toNat_byte (by omega)
    exact .four (by omega) (by omega) (isSecondOfFour_byte (by omega) (by omega))
      (isContinuation_byte (Nat.mod_lt _ (by decide)))
      (isContinuation_byte (Nat.mod_lt _ (by decide)))

/-- A byte of ASCII is a character. -/
theorem decodeChars_one {a : UInt8} (rest : Bytes) (ha : a.toNat < 0x80) :
    decodeChars (a :: rest) = Char.ofNat a.toNat :: decodeChars rest := by
  rw [decodeChars.eq_def]
  simp only [if_pos ha]

/-- A character of two bytes. -/
theorem decodeChars_two {a b : UInt8} (rest : Bytes) (ha : 0xC2 ≤ a.toNat) (ha' : a.toNat < 0xE0)
    (hb : isContinuation b = true) : decodeChars (a :: b :: rest) =
      Char.ofNat ((a.toNat - 0xC0) * 64 + low b) :: decodeChars rest := by
  have h1 : ¬ a.toNat < 0x80 := by omega
  have h2 : ¬ a.toNat < 0xC2 := by omega
  rw [decodeChars.eq_def]
  simp only [if_neg h1, if_neg h2, if_pos ha', if_pos hb]

/-- A character of three bytes. -/
theorem decodeChars_three {a b c : UInt8} (rest : Bytes) (ha : 0xE0 ≤ a.toNat)
    (ha' : a.toNat < 0xF0) (hb : isSecondOfThree a b = true) (hc : isContinuation c = true) :
    decodeChars (a :: b :: c :: rest) =
      Char.ofNat ((a.toNat - 0xE0) * 4096 + low b * 64 + low c) :: decodeChars rest := by
  have h1 : ¬ a.toNat < 0x80 := by omega
  have h2 : ¬ a.toNat < 0xC2 := by omega
  have h3 : ¬ a.toNat < 0xE0 := by omega
  rw [decodeChars.eq_def]
  simp only [if_neg h1, if_neg h2, if_neg h3, if_pos ha', if_pos hb, if_pos hc]

/-- A character of four bytes. -/
theorem decodeChars_four {a b c d : UInt8} (rest : Bytes) (ha : 0xF0 ≤ a.toNat)
    (ha' : a.toNat < 0xF5) (hb : isSecondOfFour a b = true) (hc : isContinuation c = true)
    (hd : isContinuation d = true) : decodeChars (a :: b :: c :: d :: rest) =
      Char.ofNat ((a.toNat - 0xF0) * 262144 + low b * 4096 + low c * 64 + low d) ::
        decodeChars rest := by
  have h1 : ¬ a.toNat < 0x80 := by omega
  have h2 : ¬ a.toNat < 0xC2 := by omega
  have h3 : ¬ a.toNat < 0xE0 := by omega
  have h4 : ¬ a.toNat < 0xF0 := by omega
  rw [decodeChars.eq_def]
  simp only [if_neg h1, if_neg h2, if_neg h3, if_neg h4, if_pos ha', if_pos hb, if_pos hc,
    if_pos hd]

/-- A character that is followed by any bytes is read back, and the reading goes on after it. -/
theorem decodeChars_encodeChar_append (c : Char) (rest : Bytes) :
    decodeChars (encodeChar c ++ rest) = c :: decodeChars rest := by
  have hv := toNat_valid c
  simp only [encodeChar]
  split
  · next h1 =>
    have ha : (byte c.toNat).toNat = c.toNat := toNat_byte (by omega)
    rw [List.cons_append, List.nil_append, decodeChars_one rest (by omega), ha, Char.ofNat_toNat]
  split
  · next h1 h2 =>
    have ha : (byte (0xC0 + c.toNat / 64)).toNat = 0xC0 + c.toNat / 64 := toNat_byte (by omega)
    have hn : (0xC0 + c.toNat / 64 - 0xC0) * 64 + c.toNat % 64 = c.toNat := by omega
    have hb : c.toNat % 64 < 64 := Nat.mod_lt _ (by decide)
    rw [List.cons_append, List.cons_append, List.nil_append,
      decodeChars_two rest (by omega) (by omega) (isContinuation_byte hb), ha, low_byte hb, hn,
      Char.ofNat_toNat]
  split
  · next h1 h2 h3 =>
    have ha : (byte (0xE0 + c.toNat / 4096)).toNat = 0xE0 + c.toNat / 4096 :=
      toNat_byte (by omega)
    have hb : c.toNat / 64 % 64 < 64 := Nat.mod_lt _ (by decide)
    have hc : c.toNat % 64 < 64 := Nat.mod_lt _ (by decide)
    have hs := isSecondOfThree_byte (n := c.toNat) (by omega) (by omega) (by omega)
    have hn : (0xE0 + c.toNat / 4096 - 0xE0) * 4096 + c.toNat / 64 % 64 * 64 + c.toNat % 64 =
        c.toNat := by omega
    rw [List.cons_append, List.cons_append, List.cons_append, List.nil_append,
      decodeChars_three rest (by omega) (by omega) hs (isContinuation_byte hc), ha, low_byte hb,
      low_byte hc, hn, Char.ofNat_toNat]
  · next h1 h2 h3 =>
    have ha : (byte (0xF0 + c.toNat / 262144)).toNat = 0xF0 + c.toNat / 262144 :=
      toNat_byte (by omega)
    have hb : c.toNat / 4096 % 64 < 64 := Nat.mod_lt _ (by decide)
    have hc : c.toNat / 64 % 64 < 64 := Nat.mod_lt _ (by decide)
    have hd : c.toNat % 64 < 64 := Nat.mod_lt _ (by decide)
    have hs := isSecondOfFour_byte (n := c.toNat) (by omega) (by omega)
    have hn : (0xF0 + c.toNat / 262144 - 0xF0) * 262144 + c.toNat / 4096 % 64 * 4096 +
        c.toNat / 64 % 64 * 64 + c.toNat % 64 = c.toNat := by omega
    rw [List.cons_append, List.cons_append, List.cons_append, List.cons_append, List.nil_append,
      decodeChars_four rest (by omega) (by omega) hs (isContinuation_byte hc)
        (isContinuation_byte hd), ha, low_byte hb, low_byte hc, low_byte hd, hn, Char.ofNat_toNat]

/-! ## Texts -/

/-- The characters of a text are read back from their bytes. -/
theorem decodeChars_encodeChars (cs : List Char) : decodeChars (encodeChars cs) = cs := by
  induction cs with
  | nil => rw [encodeChars, List.flatMap_nil, decodeChars]
  | cons c cs ih =>
    rw [encodeChars, List.flatMap_cons, decodeChars_encodeChar_append]
    exact congrArg (c :: ·) ih

/-- Characters with the same bytes are equal. -/
theorem encodeChars_injective {cs ds : List Char} (h : encodeChars cs = encodeChars ds) :
    cs = ds := by
  rw [← decodeChars_encodeChars cs, h, decodeChars_encodeChars]

/-- A text is read back from its bytes. -/
@[simp] theorem decode_encode (s : String) : decode (encode s) = s := by
  rw [decode, encode, decodeChars_encodeChars, String.ofList_toList]

/-- Texts with the same bytes are equal. -/
theorem encode_injective {s t : String} (h : encode s = encode t) : s = t := by
  rw [← decode_encode s, h, decode_encode]

end ScriptAgent.Utf8
