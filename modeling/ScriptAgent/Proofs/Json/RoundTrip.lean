import ScriptAgent.Proofs.Json.Reading
import ScriptAgent.Proofs.Json.Sorted

/-!
# What is written as JSON is read back

What JSON can hold (`Json.Readable`), and is written in a layout whose separators are a comma and a
colon, is read back as it is (`Json.Readable.parse_write`). Plain data is read back with the entries
of dictionaries in the order in which they were written (`Json.parse_write_arranged`). So what is read back is the same data (`Json.parse_write`), and two
texts in a layout that sorts members are equal exactly if the data is the same
(`Json.write_eq_iff_same`).
-/

namespace ScriptAgent.Json

open Datum (Same)

/-- The separators of a layout are a comma and a colon with white space behind them, and the layout
does not ask for finite floats. -/
structure Layout.Legible (l : Layout) : Prop where
  items : ∃ blanks, l.itemSeparator.toList = ',' :: blanks ∧ Blank blanks
  names : ∃ blanks, l.nameSeparator.toList = ':' :: blanks ∧ Blank blanks
  anyFloat : l.finiteOnly = false

/-- The layout on one line, with blanks. -/
theorem Layout.legible_spaced : Layout.spaced.Legible :=
  ⟨⟨[' '], rfl, by simp [Blank, isSpace]⟩, ⟨[' '], rfl, by simp [Blank, isSpace]⟩, rfl⟩

/-- The layout on one line. -/
theorem Layout.legible_compact : Layout.compact.Legible :=
  ⟨⟨[], rfl, by simp [Blank]⟩, ⟨[], rfl, by simp [Blank]⟩, rfl⟩

/-- The indented layout. -/
theorem Layout.legible_pretty : Layout.pretty.Legible :=
  ⟨⟨[], rfl, by simp [Blank]⟩, ⟨[' '], rfl, by simp [Blank, isSpace]⟩, rfl⟩

/-- The order of members has no part in the separators. -/
theorem Layout.Legible.unsorted {l : Layout} (hl : l.Legible) : l.unsorted.Legible :=
  ⟨hl.items, hl.names, hl.anyFloat⟩

section
variable {l : Layout} {level : Nat} {parts : List (List Char)}

/-- A line break with an indentation is white space. -/
theorem Layout.blank_newline (l : Layout) (level : Nat) : Blank (l.newline level) := by
  unfold Layout.newline
  split
  · refine List.forall_mem_cons.2 ⟨rfl, fun c hc => ?_⟩
    rw [List.eq_of_mem_replicate hc]
    rfl
  · simp [Blank]

/-- White space behind white space. -/
theorem Blank.append {cs cs' : List Char} (h : Blank cs) (h' : Blank cs') : Blank (cs ++ cs') :=
  List.forall_mem_append.2 ⟨h, h'⟩

/-- The parts of a value with brackets, the separators behind their first character. -/
theorem enclose_append (level : Nat) {blanks : List Char}
    (hsep : l.itemSeparator.toList = ',' :: blanks)
    (filled : parts ≠ []) (opener closer : Char) (rest : List Char) :
    l.enclose level opener closer parts ++ rest =
      opener :: (l.newline (level + 1) ++
        (List.intercalate (',' :: (blanks ++ l.newline (level + 1))) parts ++
          (l.newline level ++ closer :: rest))) := by
  have hempty : parts.isEmpty = false := List.isEmpty_eq_false_iff.2 filled
  rw [Layout.enclose, hempty, hsep]
  simp

/-- An array is read as a list of what its parts are read as. -/
theorem reads_array (hl : l.Legible) {items : List Datum} (h : List.Forall₂ Reads parts items) :
    Reads (l.enclose level '[' ']' parts) (.list items) := by
  intro fuel rest hfuel _
  obtain ⟨fuel, rfl⟩ : ∃ n, fuel = n + 1 := ⟨fuel - 1, by omega⟩
  obtain ⟨blanks, hsep, hblanks⟩ := hl.items
  have htail : EndsNumeral (l.newline level ++ ']' :: rest) :=
    endsNumeral_append (l.blank_newline level) (endsNumeral_cons rfl (by decide))
  cases h with
  | nil =>
    show readValue (fuel + 1) ('[' :: ']' :: rest) = _
    rw [readValue, skipSpace_cons rfl]
    rfl
  | @cons cs d parts items hd hparts =>
    have filled : cs :: parts ≠ [] := List.cons_ne_nil _ _
    have hlength := congrArg List.length (enclose_append level hsep filled '[' ']' [])
    simp only [List.length_append, List.length_cons, List.length_nil] at hlength
    obtain ⟨c, rest', hbegins, hspace, hc⟩ := hd.begins htail
    rw [enclose_append level hsep filled, readValue,
      skipSpace_begins (l.blank_newline _) hbegins hspace]
    split
    · next heq => exact absurd (List.cons.inj (hbegins.symm.trans heq)).1 hc
    · exact readItems_intercalate (.cons hd hparts) filled (hblanks.append (l.blank_newline _))
        (l.blank_newline _) (by omega)

/-- An object is read as a dictionary of what its parts are read as. -/
theorem reads_object (hl : l.Legible) {names : List Char} (hnames : Blank names)
    {entries : List (Datum × Datum)} (h : List.Forall₂ (ReadsMember names) parts entries) :
    Reads (l.enclose level '{' '}' parts) (Datum.ofEntries entries) := by
  intro fuel rest hfuel _
  obtain ⟨fuel, rfl⟩ : ∃ n, fuel = n + 1 := ⟨fuel - 1, by omega⟩
  obtain ⟨blanks, hsep, hblanks⟩ := hl.items
  cases h with
  | nil =>
    show readValue (fuel + 1) ('{' :: '}' :: rest) = _
    rw [readValue, skipSpace_cons rfl]
    rfl
  | @cons cs e parts entries he hparts =>
    have filled : cs :: parts ≠ [] := List.cons_ne_nil _ _
    have hlength := congrArg List.length (enclose_append level hsep filled '{' '}' [])
    simp only [List.length_append, List.length_cons, List.length_nil] at hlength
    obtain ⟨rest', hbegins⟩ := he.begins
    rw [enclose_append level hsep filled, readValue,
      skipSpace_begins (l.blank_newline _) hbegins rfl]
    split
    · next heq => cases hbegins.symm.trans heq
    · exact readMembers_intercalate (.cons he hparts) filled hnames
        (hblanks.append (l.blank_newline _)) (l.blank_newline _) (by omega)

/-- What JSON can hold: nothing, booleans, integers of not too many digits, floats, texts, lists, and
dictionaries with distinct texts as keys. -/
inductive Readable : Datum → Prop where
  | none : Readable .none
  | bool (b : Bool) : Readable (.bool b)
  | int {i : Int} (few : (Nat.toDigits 10 i.natAbs).length ≤ maxDigits) : Readable (.int i)
  | float (x : Float) : Readable (.float x)
  | str (s : String) : Readable (.str s)
  | list {items : List Datum} (h : ∀ d ∈ items, Readable d) : Readable (.list items)
  | dict {entries : List (Datum × Datum)} (keys : ∀ e ∈ entries, ∃ s, e.1 = .str s)
      (distinct : (entries.map Prod.fst).Nodup) (h : ∀ e ∈ entries, Readable e.2) :
      Readable (.dict entries)

/-- JSON can hold plain data. -/
theorem readable_of_plain {d : Datum} (hd : d.Plain) : Readable d := by
  induction hd with
  | none => exact .none
  | bool b => exact .bool b
  | int fits => exact .int (length_toDigits_of_fits fits)
  | float x => exact .float x
  | str s => exact .str s
  | list _ ih => exact .list ih
  | dict keys distinct _ ih => exact .dict keys distinct ih

/-- A value is written as a text that is read as this value. -/
structure ReadsBack (l : Layout) (level : Nat) (d : Datum) (cs : List Char) : Prop where
  written : writeChars l level d = .ok cs
  reads : Reads cs d

/-- Items that are read back one by one are read back together. -/
theorem readsBack_items {items : List Datum} (h : ∀ d ∈ items, ∃ cs, ReadsBack l level d cs) :
    ∃ parts, writeItems l level items = .ok parts ∧ List.Forall₂ Reads parts items := by
  induction items with
  | nil => exact ⟨[], by rw [writeItems], .nil⟩
  | cons d rest ih =>
    obtain ⟨cs, hd⟩ := h d List.mem_cons_self
    obtain ⟨parts, hwritten, hreads⟩ := ih fun d hd => h d (List.mem_cons_of_mem _ hd)
    refine ⟨cs :: parts, ?_, .cons hd.reads hreads⟩
    rw [writeItems, hd.written, hwritten]
    rfl

/-- Entries with texts as keys whose values are read back one by one are read back together. -/
theorem readsBack_entries {names : List Char} (hnames : l.nameSeparator.toList = ':' :: names)
    {entries : List (Datum × Datum)} (keys : ∀ e ∈ entries, ∃ s, e.1 = .str s)
    (h : ∀ e ∈ entries, ∃ cs, ReadsBack l level e.2 cs) :
    ∃ parts, (entries.map (writeEntry l level)).mapM Prod.snd = .ok parts ∧
      List.Forall₂ (ReadsMember names) parts entries := by
  induction entries with
  | nil => exact ⟨[], rfl, .nil⟩
  | cons e rest ih =>
    obtain ⟨k, d⟩ := e
    obtain ⟨s, rfl⟩ : ∃ s, k = .str s := keys _ List.mem_cons_self
    obtain ⟨cs, hd⟩ := h _ List.mem_cons_self
    obtain ⟨parts, hwritten, hreads⟩ := ih (fun e he => keys e (List.mem_cons_of_mem _ he))
      fun e he => h e (List.mem_cons_of_mem _ he)
    refine ⟨(writeString s.toList ++ (':' :: names ++ cs)) :: parts, ?_,
      .cons ⟨s, cs, rfl, rfl, hd.reads⟩ hreads⟩
    rw [List.map_cons, List.mapM_cons, hwritten, writeEntry]
    simp only [nameOf, hd.written, hnames]
    simp [bind, Except.bind, pure, Except.pure]

/-- What JSON can hold is written as a text that is read as it, if the layout leaves members in their
own order. -/
theorem Readable.readsBack (hl : l.Legible) (hs : l.sorted = false) {d : Datum} (hd : Readable d)
    (level : Nat) : ∃ cs, ReadsBack l level d cs := by
  induction hd generalizing level with
  | none => exact ⟨_, by rw [writeChars], .none⟩
  | bool b => exact ⟨_, by rw [writeChars], .bool b⟩
  | int few => exact ⟨_, by rw [writeChars], .int few⟩
  | float x =>
    have hwritten : writeFloat l x = .ok (Decimal.jsonLayout.render x).toList := by
      rw [writeFloat, hl.anyFloat]
      split <;> rfl
    exact ⟨_, by rw [writeChars, hwritten], .float x⟩
  | str s => exact ⟨_, by rw [writeChars], .str s⟩
  | list _ ih =>
    obtain ⟨parts, hwritten, hreads⟩ := readsBack_items fun d hd => ih d hd (level + 1)
    exact ⟨_, by rw [writeChars, hwritten]; rfl, reads_array hl hreads⟩
  | @dict entries keys distinct _ ih =>
    obtain ⟨names, hnames, hblank⟩ := hl.names
    obtain ⟨parts, hparts, hreads⟩ := readsBack_entries hnames keys fun e he => ih e he (level + 1)
    refine ⟨l.enclose level '{' '}' parts, ?_, ?_⟩
    · rw [writeChars, writeEntries_eq_map, arrange, hs]
      simp only [Bool.false_eq_true, if_false, bind, Except.bind, hparts]
      rfl
    · rw [← Datum.ofEntries_of_nodup keys distinct]
      exact reads_object hl hblank hreads

/-- A text of JSON that is read as a value wherever it stands is read as this value. -/
theorem parseChars_of_reads {cs : List Char} {d : Datum} (h : Reads cs d) :
    parseChars cs = .ok d := by
  have hread := h (2 * cs.length + 2) [] (by omega) endsNumeral_nil
  rw [List.append_nil] at hread
  obtain ⟨c, rest, hcs, hspace, -, hmark⟩ := begins_of_readValue hread
  have hskip : skipSpace cs = cs := by rw [hcs, skipSpace_cons hspace]
  unfold parseChars
  split
  · exact absurd (List.cons.inj hcs).1.symm hmark
  · rw [hskip, hread]
    rfl

/-- What JSON can hold is written as a text that is read as it, if the layout leaves members in their
own order. -/
theorem Readable.parse_write (hl : l.Legible) (hs : l.sorted = false) {d : Datum}
    (hd : Readable d) : ∃ text, write l d = .ok text ∧ parse text = .ok d := by
  obtain ⟨cs, h⟩ := hd.readsBack hl hs 0
  refine ⟨String.ofList cs, by rw [write, h.written]; rfl, ?_⟩
  rw [parse, String.toList_ofList, parseChars_of_reads h.reads]

/-- A value as it is written in a layout: in its own order, or sorted. -/
def Layout.arranged (l : Layout) (d : Datum) : Datum := if l.sorted then d.sorted else d

/-- A value as it is written is the same data. -/
theorem Layout.same_arranged (l : Layout) {d : Datum} (hd : d.Plain) : d.Same (l.arranged d) := by
  unfold Layout.arranged
  split
  · exact hd.same_sorted
  · exact hd.same_self

/-- A plain value is written as a text that is read as the value in the order in which it is
written. -/
theorem reads_arranged (hl : l.Legible) {d : Datum} (hd : d.Plain) (level : Nat) :
    ∃ cs, writeChars l level d = .ok cs ∧ Reads cs (l.arranged d) := by
  unfold Layout.arranged
  split
  · next hs =>
    have hsorted : d.sorted.Plain := hd.same_sorted.plain hd
    obtain ⟨cs, h⟩ := (readable_of_plain hsorted).readsBack hl.unsorted rfl level
    exact ⟨cs, (writeChars_sorted hs hd level).trans h.written, h.reads⟩
  · next hs =>
    obtain ⟨cs, h⟩ := (readable_of_plain hd).readsBack hl (Bool.eq_false_iff.2 hs) level
    exact ⟨cs, h.written, h.reads⟩

/-- Plain data that is written in a legible layout is read back, in the order in which it is
written. -/
theorem parse_write_arranged (hl : l.Legible) {d : Datum} (hd : d.Plain) :
    ∃ text, write l d = .ok text ∧ parse text = .ok (l.arranged d) := by
  obtain ⟨cs, hwritten, hreads⟩ := reads_arranged hl hd 0
  refine ⟨String.ofList cs, by rw [write, hwritten]; rfl, ?_⟩
  rw [parse, String.toList_ofList, parseChars_of_reads hreads]

/-- Plain data that is written in a legible layout is read back as the same data. -/
theorem parse_write (hl : l.Legible) {d : Datum} (hd : d.Plain) :
    ∃ text d', write l d = .ok text ∧ parse text = .ok d' ∧ d.Same d' ∧ d'.Plain := by
  obtain ⟨text, hwritten, hread⟩ := parse_write_arranged hl hd
  have same := l.same_arranged hd
  exact ⟨text, l.arranged d, hwritten, hread, same, same.plain hd⟩

/-- Two plain values are written as one text in a layout that sorts members exactly if they are the
same data. -/
theorem write_eq_iff_same (hl : l.Legible) (hs : l.sorted = true) {d e : Datum} (hd : d.Plain)
    (he : e.Plain) : write l d = write l e ↔ d.Same e := by
  have harranged : ∀ d, l.arranged d = d.sorted := by
    intro d
    rw [Layout.arranged, hs, if_pos rfl]
  rw [hd.same_iff he]
  constructor
  · intro h
    obtain ⟨s, hwritten, hread⟩ := parse_write_arranged hl hd
    obtain ⟨t, hwritten', hread'⟩ := parse_write_arranged hl he
    -- The text is read as both sorted forms.
    have hst : s = t := Except.ok.inj (hwritten.symm.trans (h.trans hwritten'))
    rw [hst, hread', harranged, harranged] at hread
    exact (Except.ok.inj hread).symm
  · intro h
    rw [write_sorted hs hd, write_sorted hs he, h]

end

end ScriptAgent.Json
