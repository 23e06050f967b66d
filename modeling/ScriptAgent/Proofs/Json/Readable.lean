import Mathlib.Data.List.Induction
import ScriptAgent.Json.Encoded
import ScriptAgent.Proofs.Fallible
import ScriptAgent.Proofs.Json.RoundTrip

/-!
# What is read as JSON can be written again

Whatever a text of JSON is read as, JSON can hold (`Json.readable_of_parse`): an integer has no more
digits than are converted, and the members of an object have distinct names. So it can be written
and is read back.

The body of a request is in a layout that asks for finite floats. It can be written exactly if all
floats in it are finite, and is then read back as well (`Json.Readable.write_body`).
-/

namespace ScriptAgent.Json

open Fallible

/-! ## What is read -/

section
variable {cs rest ds : List Char} {d : Datum}

/-- Digits denote less than a one with as many zeros behind it. -/
theorem ofDigits_lt (hds : ∀ c ∈ ds, isDigit c = true) : ofDigits ds < 10 ^ ds.length := by
  induction ds using List.reverseRecOn with
  | nil => exact Nat.one_pos
  | append_singleton ds c ih =>
    rw [List.forall_mem_append, List.forall_mem_singleton] at hds
    have hlt := ih hds.1
    have hc := hds.2
    simp only [isDigit, Bool.and_eq_true, decide_eq_true_eq] at hc
    have hvalue : ofDigits (ds ++ [c]) = ofDigits ds * 10 + (c.toNat - 48) := by
      rw [ofDigits, List.foldl_append]
      rfl
    rw [hvalue, List.length_append, List.length_singleton, Nat.pow_succ]
    omega

/-- What stands before the point are digits. -/
theorem isDigit_of_mem_wholeDigits {c : Char} (hc : c ∈ (wholeDigits cs).1) : isDigit c = true := by
  unfold wholeDigits at hc
  split at hc
  · rw [List.mem_singleton.1 hc]
    decide
  · exact List.all_eq_true.1 List.all_takeWhile c hc

/-- JSON can hold what is read as a number. -/
theorem readable_of_readNumber (h : readNumber cs = .ok (d, rest)) : Readable d := by
  unfold readNumber at h
  split at h
  next negative ds hsign =>
  dsimp only at h
  split at h
  · cases h
  · split at h
    · split at h
      · cases h
      · next hlength =>
        cases h
        refine .int ?_
        have hlt : ofDigits (wholeDigits ds).1 < 10 ^ (wholeDigits ds).1.length :=
          ofDigits_lt fun c hc => isDigit_of_mem_wholeDigits hc
        have hpow : 10 ^ (wholeDigits ds).1.length ≤ 10 ^ maxDigits :=
          Nat.pow_le_pow_right (by decide) (Nat.not_lt.1 hlength)
        rw [Nat.length_toDigits_le_iff (by decide) (by decide)]
        have habs : (if negative = true then -(ofDigits (wholeDigits ds).1 : Int)
            else ofDigits (wholeDigits ds).1).natAbs = ofDigits (wholeDigits ds).1 := by
          split <;> simp
        rw [habs]
        exact Nat.lt_of_lt_of_le hlt hpow
    · cases h
      exact .float _

/-- JSON can hold a dictionary that is made of entries with texts as keys if it can hold their
values. -/
theorem readable_ofEntries {entries : List (Datum × Datum)}
    (h : ∀ e ∈ entries, (∃ s, e.1 = .str s) ∧ Readable e.2) :
    Readable (Datum.ofEntries entries) := by
  obtain ⟨fs, hfs, hkeyed⟩ := Datum.ofEntries_textKeyed (fun e he => (h e he).1)
    fun e he => (h e he).2
  exact hfs ▸ .dict hkeyed.keys hkeyed.distinct hkeyed.values

/-- JSON can hold what is read as a value, as an array and as an object, if it can hold the items
and the members that have been read before. The induction is on the fuel that all three share. -/
theorem readable_of_read (fuel : Nat) :
    (∀ cs d rest, readValue fuel cs = .ok (d, rest) → Readable d) ∧
    (∀ acc cs d rest, (∀ e ∈ acc, Readable e) → readItems fuel acc cs = .ok (d, rest) →
      Readable d) ∧
    ∀ acc cs d rest, (∀ e ∈ acc, (∃ s, e.1 = Datum.str s) ∧ Readable e.2) →
      readMembers fuel acc cs = .ok (d, rest) → Readable d := by
  induction fuel with
  | zero =>
    refine ⟨fun cs d rest h => ?_, fun acc cs d rest _ h => ?_, fun acc cs d rest _ h => ?_⟩
    · rw [readValue] at h
      cases h
    · rw [readItems] at h
      cases h
    · rw [readMembers] at h
      cases h
  | succ fuel ih =>
    obtain ⟨ihValue, ihItems, ihMembers⟩ := ih
    refine ⟨fun cs d rest h => ?_, fun acc cs d rest hacc h => ?_, fun acc cs d rest hacc h => ?_⟩
    · rw [readValue.eq_def] at h
      dsimp only at h
      split at h
      · cases h
      · obtain ⟨⟨s, rest'⟩, -, h⟩ := bind_eq_ok_iff.1 h
        cases h
        exact .str _
      · split at h
        · cases h
          exact .dict (List.forall_mem_nil _) .nil (List.forall_mem_nil _)
        · exact ihMembers [] _ _ _ (List.forall_mem_nil _) h
      · split at h
        · cases h
          exact .list (List.forall_mem_nil _)
        · exact ihItems [] _ _ _ (List.forall_mem_nil _) h
      · cases h
        exact .none
      · cases h
        exact .bool true
      · cases h
        exact .bool false
      · cases h
        exact .float _
      · cases h
        exact .float _
      · cases h
        exact .float _
      · exact readable_of_readNumber h
    · rw [readItems] at h
      obtain ⟨⟨v, rest'⟩, hv, h⟩ := bind_eq_ok_iff.1 h
      have hall : ∀ e ∈ v :: acc, Readable e := List.forall_mem_cons.2 ⟨ihValue _ _ _ hv, hacc⟩
      dsimp only at h
      split at h
      · cases h
        exact .list fun e he => hall e (List.mem_reverse.1 he)
      · exact ihItems _ _ _ _ hall h
      · cases h
    · rw [readMembers.eq_def] at h
      dsimp only at h
      split at h
      · obtain ⟨⟨name, rest'⟩, -, h⟩ := bind_eq_ok_iff.1 h
        dsimp only at h
        split at h
        · obtain ⟨⟨v, rest'⟩, hv, h⟩ := bind_eq_ok_iff.1 h
          have hall : ∀ e ∈ (.str (String.ofList name), v) :: acc,
              (∃ s, e.1 = Datum.str s) ∧ Readable e.2 :=
            List.forall_mem_cons.2 ⟨⟨⟨_, rfl⟩, ihValue _ _ _ hv⟩, hacc⟩
          dsimp only at h
          split at h
          · cases h
            exact readable_ofEntries fun e he => hall e (List.mem_reverse.1 he)
          · exact ihMembers _ _ _ _ hall h
          · cases h
        · cases h
      · cases h

/-- What a text is read as is read as a value between white space. -/
theorem readValue_of_parse {text : String} (h : parse text = .ok d) :
    ∃ rest, readValue (2 * text.toList.length + 2) (skipSpace text.toList) = .ok (d, rest) ∧
      skipSpace rest = [] := by
  unfold parse at h
  dsimp only at h
  split at h
  · next hd =>
    cases h
    unfold parseChars at hd
    split at hd
    · cases hd
    · obtain ⟨⟨v, rest⟩, hv, hd⟩ := bind_eq_ok_iff.1 hd
      dsimp only at hd
      split at hd
      · next hrest =>
        cases hd
        exact ⟨rest, hv, hrest⟩
      · cases hd
  · cases h

/-- JSON can hold what a text is read as. -/
theorem readable_of_parse {text : String} (h : parse text = .ok d) : Readable d := by
  obtain ⟨rest, hv, -⟩ := readValue_of_parse h
  exact (readable_of_read _).1 _ _ _ hv

/-- JSON can hold what bytes are read as. -/
theorem readable_of_parseBytes {bs : Bytes} (h : parseBytes bs = .ok d) : Readable d := by
  unfold parseBytes at h
  split at h
  · cases h
  · split at h
    · next hd =>
      cases h
      exact readable_of_parse hd
    · cases h

end

/-! ## Bodies of requests -/

/-- All floats in a value are finite. -/
def AllFinite (d : Datum) : Prop :=
  ∀ x, Datum.Inside (.float x) d → ∃ negative v, Decimal.classify x = .finite negative v

/-- A float contains itself. -/
theorem allFinite_float {x : Float} :
    AllFinite (.float x) ↔ ∃ negative v, Decimal.classify x = .finite negative v := by
  constructor
  · exact fun h => h x .refl
  · intro h y hy
    cases hy
    exact h

/-- A list contains what its items contain. -/
theorem allFinite_list {items : List Datum} :
    AllFinite (.list items) ↔ ∀ d ∈ items, AllFinite d := by
  constructor
  · exact fun h d hd x hx => h x (.item hd hx)
  · intro h x hx
    cases hx with
    | item hd hx => exact h _ hd x hx

/-- A dictionary contains what its values contain. -/
theorem allFinite_dict {entries : List (Datum × Datum)} :
    AllFinite (.dict entries) ↔ ∀ e ∈ entries, AllFinite e.2 := by
  constructor
  · exact fun h e he x hx => h x (.value he hx)
  · intro h x hx
    cases hx with
    | value he hx => exact h _ he x hx

/-- A layout that does not ask for finite floats. -/
def Layout.lenient (l : Layout) : Layout := { l with finiteOnly := false }

section
variable {l : Layout} {d : Datum}

/-- Where all floats are finite, nothing depends on whether the layout asks for it. -/
theorem Readable.writeChars_lenient (hd : Readable d) (hs : l.sorted = false)
    (finite : AllFinite d) (level : Nat) : writeChars l level d = writeChars l.lenient level d := by
  induction hd generalizing level with
  | none | bool | int | str => rw [writeChars, writeChars]
  | float x =>
    obtain ⟨negative, v, hx⟩ := allFinite_float.1 finite
    rw [writeChars, writeChars, writeFloat, writeFloat, hx]
  | list _ ih =>
    have hitems := writeItems_congr (g := id) fun d hd =>
      ih d hd (allFinite_list.1 finite d hd) (level + 1)
    rw [writeChars, writeChars, hitems, List.map_id]
    rfl
  | @dict entries keys _ _ ih =>
    have hentries : ∀ e ∈ entries,
        writeEntry l (level + 1) e = writeEntry l.lenient (level + 1) e := by
      rintro ⟨k, v⟩ he
      obtain ⟨s, rfl⟩ : ∃ s, k = .str s := keys _ he
      have hv := ih _ he (allFinite_dict.1 finite _ he) (level + 1)
      rw [writeEntry, writeEntry, hv]
      rfl
    have hs' : l.lenient.sorted = false := hs
    rw [writeChars, writeChars, writeEntries_eq_map, writeEntries_eq_map,
      List.map_congr_left hentries, arrange, arrange, hs, hs']
    rfl

/-- Items that are written have been written one by one. -/
theorem written_of_mem_items {level : Nat} {items : List Datum} {parts : List (List Char)}
    (h : writeItems l level items = .ok parts) :
    ∀ d ∈ items, ∃ cs, writeChars l level d = .ok cs := by
  induction items generalizing parts with
  | nil => exact List.forall_mem_nil _
  | cons d rest ih =>
    rw [writeItems] at h
    obtain ⟨cs, hcs, h⟩ := bind_eq_ok_iff.1 h
    obtain ⟨parts', hparts, -⟩ := bind_eq_ok_iff.1 h
    exact List.forall_mem_cons.2 ⟨⟨cs, hcs⟩, ih hparts⟩

/-- Members that are written have been written one by one. -/
theorem written_of_mem_members {α ε β : Type} {members : List (α × Except ε β)} {parts : List β}
    (h : members.mapM Prod.snd = .ok parts) : ∀ m ∈ members, ∃ b, m.2 = .ok b := by
  induction members generalizing parts with
  | nil => exact List.forall_mem_nil _
  | cons m rest ih =>
    rw [List.mapM_cons] at h
    obtain ⟨b, hb, h⟩ := bind_eq_ok_iff.1 h
    obtain ⟨bs, hbs, -⟩ := bind_eq_ok_iff.1 h
    exact List.forall_mem_cons.2 ⟨⟨b, hb⟩, ih hbs⟩

/-- In a layout that asks for finite floats, what is written has no others. -/
theorem Readable.allFinite_of_written (hd : Readable d) (hl : l.finiteOnly = true)
    (hs : l.sorted = false) {level : Nat} {cs : List Char} (h : writeChars l level d = .ok cs) :
    AllFinite d := by
  induction hd generalizing level cs with
  | none | bool | int | str => intro x hx; cases hx
  | float x =>
    rw [writeChars, writeFloat, hl] at h
    split at h
    · next hx => exact allFinite_float.2 ⟨_, _, hx⟩
    · cases h
  | list _ ih =>
    rw [writeChars] at h
    obtain ⟨parts, hparts, -⟩ := bind_eq_ok_iff.1 h
    refine allFinite_list.2 fun d hd => ?_
    obtain ⟨cs, hcs⟩ := written_of_mem_items hparts d hd
    exact ih d hd hcs
  | @dict entries keys _ _ ih =>
    rw [writeChars, writeEntries_eq_map, arrange, hs] at h
    obtain ⟨members, hmembers, h⟩ := bind_eq_ok_iff.1 h
    cases hmembers
    obtain ⟨parts, hparts, -⟩ := bind_eq_ok_iff.1 h
    refine allFinite_dict.2 ?_
    rintro ⟨k, v⟩ he
    obtain ⟨cs, hcs⟩ := written_of_mem_members hparts _ (List.mem_map_of_mem he)
    rw [writeEntry] at hcs
    obtain ⟨name, -, hcs⟩ := bind_eq_ok_iff.1 hcs
    obtain ⟨text, htext, -⟩ := bind_eq_ok_iff.1 hcs
    exact ih _ he htext

/-- What JSON can hold is written as a body, and read back from it, exactly if all floats in it are
finite. -/
theorem Readable.write_body (hd : Readable d) :
    (AllFinite d ∧ ∃ text, write .body d = .ok text ∧ parse text = .ok d) ∨
      (¬ AllFinite d ∧ ∃ refusal, write .body d = .error refusal) := by
  by_cases finite : AllFinite d
  · have hl : Layout.body.lenient.Legible :=
      ⟨⟨[], rfl, List.forall_mem_nil _⟩, ⟨[], rfl, List.forall_mem_nil _⟩, rfl⟩
    obtain ⟨text, hwritten, hread⟩ := hd.parse_write hl rfl
    refine .inl ⟨finite, text, ?_, hread⟩
    rw [write, hd.writeChars_lenient rfl finite]
    exact hwritten
  · refine .inr ⟨finite, ?_⟩
    cases h : writeChars .body 0 d with
    | ok cs => exact absurd (hd.allFinite_of_written rfl rfl h) finite
    | error refusal => exact ⟨refusal, by rw [write, h]; rfl⟩

end

end ScriptAgent.Json
