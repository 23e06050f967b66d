import Mathlib.Data.List.Dedup
import ScriptAgent.Proofs.Exchange.Decode
import ScriptAgent.Proofs.Json.Numbers
import ScriptAgent.Proofs.Text.Bytes

/-!
# Keys as texts

The keys of a table that does not count are read as texts. A number that a table can be indexed by
is determined by its text (`Exchange.numberOf_numberText`): an integer is written by its digits, a
float that is one of the integers beyond 64 bits as well, and any other float with a point or an
exponent. So numbers and booleans have different texts (`Exchange.key_eq_of_text`), and so have
strings that are texts (`Exchange.str_eq_of_text`). Only a string that is the text of another key,
or one that is not encoded as a text should be, is read as another key is.

`Exchange.KeysApart` says of a table that no two of its keys have the same text.
-/

namespace ScriptAgent.Exchange

open Script

/-! ## The text of a number -/

/-- The number that a text of a key stands for. -/
def numberOf (text : String) : Script.Num :=
  match Json.readNumber text.toList with
  | .ok (.int i, _) => if Num.fits i then .int (Int64.ofInt i) else .float (Decimal.ofInt i)
  | .ok (.float x, _) => .float x
  | _ =>
    .float (if text = "inf" then Decimal.infinity false
      else if text = "-inf" then Decimal.infinity true
      else 0.0 / 0.0)

section
variable {i : Int} {x : Float} {n : Script.Num}

/-- The text of an integer stands for the integer, or for the nearest float if it is too large. -/
theorem numberOf_intText (hi : i.natAbs < 2 ^ Decimal.maxBits) :
    numberOf (Datum.intText i) =
      if Num.fits i then .int (Int64.ofInt i) else .float (Decimal.ofInt i) := by
  have hlength : (Nat.toDigits 10 i.natAbs).length ≤ Decimal.maxBits :=
    (Nat.length_toDigits_le_iff (by decide) (by decide)).2
      (Nat.lt_of_lt_of_le hi (Nat.pow_le_pow_left (by decide) Decimal.maxBits))
  have hread : Json.readNumber (Datum.intText i).toList = .ok (.int i, []) := by
    have h := Json.readNumber_digits (Nat.le_trans hlength (by decide)) Json.endsNumeral_nil
    rwa [List.append_nil] at h
  rw [numberOf, hread]

/-- The text of a float stands for the float. -/
theorem numberOf_floatText (x : Float) : numberOf (Datum.floatText x) = .float x := by
  cases hx : Decimal.classify x with
  | finite negative v =>
    have hread : Json.readNumber (Datum.floatText x).toList = .ok (.float x, []) := by
      have h := Json.readNumber_render hx Json.endsNumeral_nil
      rw [List.append_nil] at h
      rw [← h, Datum.floatText, Decimal.Layout.render, Decimal.Layout.render, hx]
      rfl
    rw [numberOf, hread]
  | infinite negative =>
    have htext : Datum.floatText x = if negative then "-" ++ "inf" else "inf" := by
      rw [Datum.floatText, Decimal.Layout.render, hx]
      rfl
    rw [htext, Decimal.eq_infinity_of_infinite hx]
    cases negative <;> rfl
  | notANumber =>
    have htext : Datum.floatText x = "nan" := by
      rw [Datum.floatText, Decimal.Layout.render, hx]
      rfl
    rw [htext, Decimal.eq_nan_of_notANumber hx]
    rfl

/-- A number is what its text stands for, unless it is a float that is an integer of 64 bits. -/
theorem numberOf_numberText (hn : n.normalize = n) : numberOf (numberText n) = n := by
  cases n with
  | int i =>
    have hfits := fits_toInt i
    have hbound : i.toInt.natAbs < 2 ^ Decimal.maxBits := by
      simp only [Num.fits, Bool.and_eq_true, decide_eq_true_eq] at hfits
      exact Nat.lt_of_lt_of_le (show i.toInt.natAbs < 2 ^ 64 by omega)
        (Nat.pow_le_pow_right (by decide) (by decide))
    rw [numberText, numberOf_intText hbound, if_pos hfits, Int64.ofInt_toInt]
  | float x =>
    rw [numberText]
    cases hx : Decimal.toInt? x with
    | none => exact numberOf_floatText x
    | some i =>
      have hfits : Num.fits i = false := by
        refine Bool.eq_false_iff.2 fun hfits => ?_
        rw [Num.normalize, Num.floatToInt?, hx] at hn
        simp only [hfits, if_true] at hn
        cases hn
      have hzero : i ≠ 0 := by
        rintro rfl
        cases hfits
      rw [numberOf_intText (Decimal.natAbs_lt_of_toInt? hx), if_neg (Bool.eq_false_iff.1 hfits),
        ← Decimal.eq_ofInt_of_toInt? hx hzero]

end

/-! ## The texts of different keys -/

section
variable {k l : Key} {u v : Value} {n : Script.Num}

/-- A number that is no float that is an integer of 64 bits stays as it is. -/
theorem normalize_normalize (n : Script.Num) : n.normalize.normalize = n.normalize := by
  cases n with
  | int i => rfl
  | float x =>
    cases hx : Num.floatToInt? x with
    | some i => simp only [Num.normalize, hx]
    | none => simp only [Num.normalize, hx]

/-- A value that is a key is indexed by as that key. -/
theorem key?_value (hv : v.key? = some k) : k.value.key? = some k := by
  cases v with
  | nil => cases hv
  | num n =>
    have hnormal := normalize_normalize n
    rw [Value.key?] at hv
    split at hv
    · cases hv
      rfl
    · next x hx =>
      rw [hx] at hnormal
      split at hv
      · next hself =>
        cases hv
        simp only [Key.value, Decimal.ofBits_toBits, Value.key?, hnormal, hself, if_true]
      · cases hv
  | _ => cases hv; rfl

/-- The number that a key stands for is no float that is an integer of 64 bits. -/
theorem normalize_of_key? (hv : v.key? = some k) (hk : k.value = .num n) : n.normalize = n := by
  have hkey := key?_value hv
  rw [hk, Value.key?] at hkey
  cases n with
  | int i => rfl
  | float x =>
    cases hx : Num.floatToInt? x with
    | none => simp only [Num.normalize, hx]
    | some i =>
      simp only [Num.normalize, hx] at hkey
      cases hkey
      cases hk

/-- A key is an integer, a float or a boolean. -/
def isNumeric : Key → Bool
  | .int _ | .float _ | .bool _ => true
  | _ => false

/-- The text of a number is not that of a boolean. -/
theorem numberText_ne_bool (hn : n.normalize = n) (b : Bool) :
    numberText n ≠ keyText (.bool b) := by
  intro h
  have hnan : n = .float (0.0 / 0.0) := by
    rw [← numberOf_numberText hn, h]
    cases b <;> rfl
  have htext : numberText (.float (0.0 / 0.0)) = "nan" := by
    decide
  rw [hnan, htext] at h
  cases b <;> exact absurd h (by decide)

/-- A numeric key stands for a number or a boolean. -/
theorem value_of_isNumeric (hk : isNumeric k = true) :
    (∃ n, k.value = .num n) ∨ ∃ b, k.value = .bool b := by
  cases k with
  | int i => exact .inl ⟨_, rfl⟩
  | float b => exact .inl ⟨_, rfl⟩
  | bool b => exact .inr ⟨b, rfl⟩
  | _ => cases hk

/-- Numbers and booleans that something indexes by have different texts. -/
theorem key_eq_of_text (hk : u.key? = some k) (hl : v.key? = some l) (knum : isNumeric k = true)
    (lnum : isNumeric l = true) (h : keyText k.value = keyText l.value) : k = l := by
  suffices hvalue : k.value = l.value by
    have hkey := key?_value hk
    rw [hvalue, key?_value hl] at hkey
    exact (Option.some.inj hkey).symm
  rcases value_of_isNumeric knum with ⟨n, hn⟩ | ⟨b, hb⟩ <;>
    rcases value_of_isNumeric lnum with ⟨m, hm⟩ | ⟨c, hc⟩
  · have hnumbers : numberText n = numberText m := by rwa [hn, hm] at h
    rw [hn, hm, ← numberOf_numberText (normalize_of_key? hk hn), hnumbers,
      numberOf_numberText (normalize_of_key? hl hm)]
  · rw [hn, hc] at h
    exact absurd h (numberText_ne_bool (normalize_of_key? hk hn) c)
  · rw [hb, hm] at h
    exact absurd h.symm (numberText_ne_bool (normalize_of_key? hl hm) b)
  · rw [hb, hc] at h ⊢
    cases b <;> cases c <;> first | rfl | exact absurd h (by decide)

/-- Strings that are texts have different texts. -/
theorem str_eq_of_text {s t : String}
    (h : keyText (.str (Utf8.encode s)) = keyText (.str (Utf8.encode t))) : s = t := by
  rwa [keyText, keyText, Utf8.decode_encode, Utf8.decode_encode] at h

end

/-! ## Tables -/

/-- The keys of a table are texts. -/
def TextKeys (t : Table) : Prop := ∀ k, t.get k ≠ .nil → ∃ s, k = .str (Utf8.encode s)

/-- No two keys of a table have the same text. -/
def KeysApart (t : Table) : Prop :=
  ∀ k l, t.get k ≠ .nil → t.get l ≠ .nil → keyText k.value = keyText l.value → k = l

/-- The keys of a table as texts, in the order of the keys. -/
def keyTexts (t : Table) : List String := t.toList.map fun i => keyText i.1.value

section
variable {t u : Table} {e : Enumeration}

/-- The keys of a table that are texts are apart. -/
theorem TextKeys.apart (ht : TextKeys t) : KeysApart t := by
  intro k l hk hl htext
  obtain ⟨r, rfl⟩ := ht k hk
  obtain ⟨s, rfl⟩ := ht l hl
  rw [str_eq_of_text htext]

/-- Tables with entries at the same keys have keys that are apart, or neither has. -/
theorem KeysApart.congr (ht : KeysApart t) (same : ∀ k, u.get k ≠ .nil → t.get k ≠ .nil) :
    KeysApart u := by
  intro k l hk hl htext
  exact ht k l (same k hk) (same l hl) htext

/-- The keys of a table are apart exactly if their texts are distinct. -/
theorem nodup_keyTexts_iff : (keyTexts t).Nodup ↔ KeysApart t := by
  have htexts : keyTexts t = (t.toList.map Prod.fst).map fun k => keyText k.value := by
    rw [keyTexts, List.map_map]
    rfl
  rw [htexts, List.nodup_map_iff_inj_on (Table.nodup_keys_toList t)]
  constructor
  · intro h k l hk hl
    exact h k (Table.mem_keys_toList.2 hk) l (Table.mem_keys_toList.2 hl)
  · intro h k hk l hl
    exact h k l (Table.mem_keys_toList.1 hk) (Table.mem_keys_toList.1 hl)

/-- The entries that a table is read as have texts as keys. -/
theorem str_of_mem_items (items : List (Key × Value)) (inner : Value → Datum) :
    ∀ p ∈ items.map fun i => (Datum.str (keyText i.1.value), inner i.2), ∃ s, p.1 = .str s := by
  intro p hp
  obtain ⟨i, -, rfl⟩ := List.mem_map.1 hp
  exact ⟨_, rfl⟩

/-- The entries that a table is read as have the texts of its keys, in the order in which they are
enumerated. -/
theorem texts_items (inner : Value → Datum) :
    ((e.items t).map fun i => (Datum.str (keyText i.1.value), inner i.2)).map Prod.fst =
      ((e.items t).map fun i => keyText i.1.value).map Datum.str := by
  rw [List.map_map, List.map_map]
  rfl

/-- A table whose keys are apart is read as entries with distinct keys. -/
theorem KeysApart.nodup (ht : KeysApart t) (inner : Value → Datum) :
    (((e.items t).map fun i => (Datum.str (keyText i.1.value), inner i.2)).map
      Prod.fst).Nodup := by
  rw [texts_items]
  refine List.Nodup.map (fun _ _ => Datum.str.inj) ?_
  exact ((e.perm t).map _).nodup_iff.2 (nodup_keyTexts_iff.2 ht)

end

end ScriptAgent.Exchange
