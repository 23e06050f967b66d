import Mathlib.Data.List.Nodup
import ScriptAgent.Proofs.Text.Lines
import ScriptAgent.Tool.Documentation

/-!
# Documentation that is written by its form

A documentation text is written as a page: the lines of the summary, further prose, a heading, the
entries of the parameters with empty lines between them, and further sections (`Page`). What is read
from a page is its summary on one line and its entries, in order, and nothing else of it
(`Page.read_text`).

The reader goes through the lines once. An entry is found in its line whatever its type and its
text hold (`Entry.found_line`), and each part of a page leaves the reader in a state from which the
next part is read: the lines of the summary are collected, the prose after them and the sections
after the entries change nothing, and each entry is added behind the others.
-/

namespace ScriptAgent.Tool.Documentation

open Text

variable {cs rest : List Char}

/-! ## Entries -/

/-- An entry as it is written in a line: a margin, at most two stars, the name, the type in
parentheses if there is one, a colon, and the text behind a gap. -/
structure Entry where
  margin : List Char
  stars : Nat
  name : List Char
  type : Option (List Char)
  gap : List Char
  text : List Char
  margin_filled : margin ≠ [] := by decide
  margin_blank : ∀ c ∈ margin, isBlank c = true := by exact List.all_eq_true.1 (by decide)
  stars_le : stars ≤ 2 := by decide
  name_filled : name ≠ [] := by decide
  name_word : ∀ c ∈ name, isWordChar c = true := by exact List.all_eq_true.1 (by decide)
  type_open : ∀ t ∈ type, ')' ∉ t := by decide
  gap_blank : ∀ c ∈ gap, isBlank c = true := by exact List.all_eq_true.1 (by decide)
  text_stripped : stripChars text = text := by decide

namespace Entry
variable (e : Entry)

/-- The type of a parameter, in parentheses behind a blank. -/
def remark : List Char :=
  match e.type with
  | none => []
  | some t => ' ' :: '(' :: (t ++ [')'])

/-- What stands behind the margin and the stars. -/
def body : List Char := e.name ++ (e.remark ++ ':' :: (e.gap ++ e.text))

/-- The line of an entry. -/
def line : List Char := e.margin ++ (List.replicate e.stars '*' ++ e.body)

/-- The name and the text of an entry. -/
def pair : String × String := (String.ofList e.name, String.ofList e.text)

/-- The name begins with a part of a word. -/
theorem exists_body : ∃ c cs, e.body = c :: cs ∧ isWordChar c = true := by
  obtain ⟨c, cs, hname⟩ := List.exists_cons_of_ne_nil e.name_filled
  refine ⟨c, cs ++ (e.remark ++ ':' :: (e.gap ++ e.text)), ?_, ?_⟩
  · rw [body, hname]
    rfl
  · exact e.name_word c (by rw [hname]; exact List.mem_cons_self)

/-- The margin is stripped, and nothing more. -/
theorem stripLeft_line : stripLeft e.line = List.replicate e.stars '*' ++ e.body := by
  rw [line, stripLeft, List.dropWhile_append_of_pos e.margin_blank]
  obtain ⟨c, cs, hbody, hword⟩ := e.exists_body
  cases e.stars with
  | zero =>
    have hblank := isBlank_of_isWordChar hword
    rw [List.replicate_zero, List.nil_append, hbody,
      List.dropWhile_cons_of_neg (by rw [hblank]; decide)]
  | succ n => rw [List.replicate_succ, List.cons_append, List.dropWhile_cons_of_neg (by decide)]

/-- All stars are dropped, and nothing more. -/
theorem dropStars_stars : dropStars 2 (List.replicate e.stars '*' ++ e.body) = e.body := by
  obtain ⟨c, cs, hbody, hword⟩ := e.exists_body
  have hstar : c ≠ '*' := by
    rintro rfl
    exact absurd hword (by decide)
  have keep (n : Nat) : dropStars n e.body = e.body := by
    rw [hbody, dropStars.eq_def]
    split
    · next heq => exact absurd (List.cons.inj heq).1 hstar
    · rfl
  match e.stars, e.stars_le with
  | 0, _ => exact keep 2
  | 1, _ => exact keep 1
  | 2, _ => exact keep 0

/-- The name ends before the type or the colon. -/
theorem name_split : e.body.takeWhile isWordChar = e.name ∧
    e.body.dropWhile isWordChar = e.remark ++ ':' :: (e.gap ++ e.text) := by
  obtain ⟨d, cs, hrest, hd⟩ : ∃ d cs, e.remark ++ ':' :: (e.gap ++ e.text) = d :: cs ∧
      isWordChar d = false := by
    unfold remark
    cases e.type with
    | none => exact ⟨_, _, rfl, by decide⟩
    | some t => exact ⟨_, _, rfl, by decide⟩
  rw [body, List.takeWhile_append_of_pos e.name_word, List.dropWhile_append_of_pos e.name_word,
    hrest, List.takeWhile_cons_of_neg (by rw [hd]; decide),
    List.dropWhile_cons_of_neg (by rw [hd]; decide), List.append_nil]
  exact ⟨rfl, rfl⟩

/-- The type is dropped, whatever it holds but the parenthesis that ends it. -/
theorem dropRemark_remark (h : rest.head? = some ':') :
    dropRemark (stripLeft (e.remark ++ rest)) = rest := by
  obtain ⟨cs, rfl⟩ : ∃ cs, rest = ':' :: cs := by
    cases rest with
    | nil => cases h
    | cons c cs => exact ⟨cs, by rw [Option.some.inj h]⟩
  have colon : stripLeft (':' :: cs) = ':' :: cs := List.dropWhile_cons_of_neg (by decide)
  unfold remark
  cases htype : e.type with
  | none =>
    rw [List.nil_append, colon]
    rfl
  | some t =>
    have hopen : ∀ c ∈ t, (c != ')') = true := fun c hc =>
      bne_iff_ne.2 fun heq => e.type_open t htype (heq ▸ hc)
    have hstrip : stripLeft (' ' :: '(' :: (t ++ [')']) ++ ':' :: cs) =
        '(' :: (t ++ ')' :: ':' :: cs) := by
      rw [List.cons_append, List.cons_append, List.append_assoc, stripLeft,
        List.dropWhile_cons_of_pos (by decide), List.dropWhile_cons_of_neg (by decide)]
      rfl
    rw [hstrip, dropRemark]
    simp only [List.dropWhile_append_of_pos hopen]
    rw [List.dropWhile_cons_of_neg (by decide)]
    exact colon

/-- An entry is found in its line. -/
theorem found_line : entry? e.line = some e.pair := by
  have htext : stripChars (e.gap ++ e.text) = e.text := by
    have hstrip : stripChars (e.gap ++ e.text ++ []) = stripChars e.text :=
      stripChars_append e.gap_blank (List.forall_mem_nil _)
    rwa [List.append_nil, e.text_stripped] at hstrip
  obtain ⟨htake, hdrop⟩ := e.name_split
  have hname : e.name.isEmpty = false := List.isEmpty_eq_false_iff.2 e.name_filled
  have hremark : dropRemark (stripLeft (e.remark ++ ':' :: (e.gap ++ e.text))) =
      ':' :: (e.gap ++ e.text) := e.dropRemark_remark rfl
  unfold entry?
  rw [e.stripLeft_line, e.dropStars_stars]
  simp only [htake, hdrop, hname, hremark, htext]
  rfl

/-- The line of an entry is indented. -/
theorem isBlank_headD_line : isBlank (e.line.headD ' ') = true := by
  obtain ⟨c, cs, hmargin⟩ := List.exists_cons_of_ne_nil e.margin_filled
  rw [line, hmargin]
  exact e.margin_blank c (by rw [hmargin]; exact List.mem_cons_self)

end Entry

/-! ## Pages -/

/-- A line among the entries: an empty one, or an entry. -/
inductive Item where
  | empty (line : List Char) (blank : ∀ c ∈ line, isBlank c = true)
  | entry (e : Entry)

/-- The line of an item. -/
def Item.line : Item → List Char
  | .empty line _ => line
  | .entry e => e.line

/-- The entry of an item, if it is one. -/
def Item.content? : Item → Option Entry
  | .empty .. => none
  | .entry e => some e

/-- The parts of a page. -/
structure Parts where
  summary : List (List Char)
  prose : List (List Char)
  heading : List Char
  items : List Item
  sections : List (List Char)

namespace Parts

/-- The entries of the parameters, in order. -/
def entries (p : Parts) : List Entry := p.items.filterMap Item.content?

/-- The lines of a page without the heading. -/
def otherLines (p : Parts) : List (List Char) :=
  p.summary ++ (p.prose ++ (p.items.map Item.line ++ p.sections))

/-- The lines of a page. -/
def lines (p : Parts) : List (List Char) :=
  p.summary ++ (p.prose ++ (p.heading :: (p.items.map Item.line ++ p.sections)))

/-- The text of a page. -/
def text (p : Parts) : List Char := joinWith ['\n'] p.lines

/-- What a page says: its summary on one line, and its entries. -/
def meaning (p : Parts) : Documentation :=
  ⟨String.ofList (List.intercalate [' '] p.summary), p.entries.map Entry.pair⟩

end Parts

/-- A page: a summary of lines without white space at their ends, prose behind an empty line, a
heading in any case, entries with distinct names, and sections that begin at the margin. No other
line is a heading, and no line holds a line break. -/
structure Page extends Parts where
  summary_filled : summary ≠ [] := by decide
  summary_stripped : ∀ l ∈ summary, l ≠ [] ∧ stripChars l = l := by decide
  prose_apart : ∀ l ∈ prose.head?, stripChars l = [] := by decide
  heading_word : String.ofList (heading.map Char.toLower) ∈ headings := by decide
  names_distinct : (toParts.entries.map Entry.name).Nodup := by decide
  sections_apart : ∀ l ∈ sections.head?, isBlank (l.headD ' ') = false := by decide
  headings_once : ∀ l ∈ toParts.otherLines, isHeading (stripChars l) = false := by decide
  lines_unbroken : ∀ l ∈ toParts.lines, Unbroken l := by decide

/-! ## Reading -/

namespace Reading
variable {r : Reading} {l : List Char} {lines : List (List Char)}

/-- An empty line adds nothing. -/
theorem line_nil (r : Reading) : ∃ part, r.line [] = { r with part := part } := by
  have hheading : isHeading (stripChars []) = false := by decide
  obtain ⟨part, lines, entries⟩ := r
  simp only [line, hheading]
  cases part with
  | summary =>
    cases lines with
    | nil => exact ⟨.summary, rfl⟩
    | cons l lines => exact ⟨.other, rfl⟩
  | parameters => exact ⟨.parameters, rfl⟩
  | other => exact ⟨.other, rfl⟩

/-- A heading begins the part of the parameters. -/
theorem line_heading (h : isHeading (stripChars l) = true) :
    r.line l = { r with part := .parameters } := by
  rw [line]
  exact if_pos h

/-- Nothing is read behind the parameters, and nothing between the summary and them. -/
theorem line_other (h : isHeading (stripChars l) = false) (hr : r.part = .other) :
    r.line l = r := by
  simp only [line, h, hr]
  rfl

/-- Nothing is read from lines that are no headings. -/
theorem foldl_other (h : ∀ l ∈ lines, isHeading (stripChars l) = false) (hr : r.part = .other) :
    lines.foldl line r = r := by
  induction lines with
  | nil => rfl
  | cons l lines ih =>
    rw [List.foldl_cons, line_other (h l List.mem_cons_self) hr,
      ih fun l hl => h l (List.mem_cons_of_mem _ hl)]

/-- A line of the summary is collected. -/
theorem line_summary (h : isHeading (stripChars l) = false) (hr : r.part = .summary)
    (filled : stripChars l ≠ []) : r.line l = { r with lines := stripChars l :: r.lines } := by
  have hempty : (stripChars l).isEmpty = false := List.isEmpty_eq_false_iff.2 filled
  simp only [line, h, hr, summaryLine, hempty]
  rfl

/-- The lines of the summary are collected in order. -/
theorem foldl_summary (h : ∀ l ∈ lines, isHeading (stripChars l) = false)
    (stripped : ∀ l ∈ lines, l ≠ [] ∧ stripChars l = l) (hr : r.part = .summary) :
    lines.foldl line r = { r with lines := lines.reverse ++ r.lines } := by
  induction lines generalizing r with
  | nil => rfl
  | cons l lines ih =>
    obtain ⟨filled, hl⟩ := stripped l List.mem_cons_self
    rw [List.foldl_cons, line_summary (h l List.mem_cons_self) hr (by rwa [hl]), hl,
      ih (r := { r with lines := l :: r.lines }) (fun l hl => h l (List.mem_cons_of_mem _ hl))
        (fun l hl => stripped l (List.mem_cons_of_mem _ hl)) hr, List.reverse_cons,
      List.append_assoc]
    rfl

/-- An empty line ends the summary. -/
theorem line_empty (h : stripChars l = []) (hr : r.part = .summary) (filled : r.lines ≠ []) :
    r.line l = { r with part := .other } := by
  have hlines : r.lines.isEmpty = false := List.isEmpty_eq_false_iff.2 filled
  have hheading : isHeading [] = false := by decide
  simp only [line, h, hheading, hr, summaryLine, hlines]
  rfl

/-- Nothing is read from prose behind the summary. -/
theorem foldl_prose (h : ∀ l ∈ lines, isHeading (stripChars l) = false)
    (apart : ∀ l ∈ lines.head?, stripChars l = []) (hr : r.part = .summary)
    (filled : r.lines ≠ []) : ∃ part, lines.foldl line r = { r with part := part } := by
  cases lines with
  | nil => exact ⟨r.part, rfl⟩
  | cons l lines =>
    rw [List.foldl_cons, line_empty (apart l rfl) hr filled,
      foldl_other (fun l hl => h l (List.mem_cons_of_mem _ hl)) rfl]
    exact ⟨.other, rfl⟩

/-- A line that is empty leaves what has been read of the parameters. -/
theorem line_parameters_empty (h : ∀ c ∈ l, isBlank c = true) (hr : r.part = .parameters) :
    r.line l = r := by
  have hheading : isHeading [] = false := by decide
  have hentry : entry? l = none := by
    have hstrip : stripLeft l = [] := List.dropWhile_eq_nil_iff.2 h
    unfold entry?
    rw [hstrip]
    rfl
  simp only [line, stripChars_eq_nil_iff.2 h, hheading, hr, hentry]
  rfl

/-- The line of an entry adds the entry. -/
theorem line_entry (e : Entry) (h : isHeading (stripChars e.line) = false)
    (hr : r.part = .parameters) :
    r.line e.line = { r with entries := putEntry e.pair.1 e.pair.2 r.entries } := by
  simp only [line, h, hr, e.isBlank_headD_line, e.found_line]
  simp

end Reading

/-- An entry with a new name comes last. -/
theorem putEntry_of_not_mem {name text : String} {entries : List (String × String)}
    (h : name ∉ entries.map Prod.fst) : putEntry name text entries = entries ++ [(name, text)] := by
  induction entries with
  | nil => rfl
  | cons e rest ih =>
    obtain ⟨n, t⟩ := e
    rw [List.map_cons, List.mem_cons, not_or] at h
    rw [putEntry, if_neg (Ne.symm h.1), ih h.2]
    rfl

namespace Reading
variable {r : Reading} {lines : List (List Char)}

/-- The entries are read in order, behind those that have been read. -/
theorem foldl_items (items : List Item)
    (h : ∀ l ∈ items.map Item.line, isHeading (stripChars l) = false)
    (distinct : (r.entries.map Prod.fst ++
      (items.filterMap Item.content?).map fun e => e.pair.1).Nodup)
    (hr : r.part = .parameters) : (items.map Item.line).foldl line r =
      { r with entries := r.entries ++ (items.filterMap Item.content?).map Entry.pair } := by
  induction items generalizing r with
  | nil => simp
  | cons item items ih =>
    have hitems : ∀ l ∈ items.map Item.line, isHeading (stripChars l) = false := fun l hl =>
      h l (List.mem_cons_of_mem _ hl)
    cases item with
    | empty l blank =>
      rw [List.map_cons, List.foldl_cons, Item.line, line_parameters_empty blank hr,
        ih hitems distinct hr]
      rfl
    | entry e =>
      have hnew : e.pair.1 ∉ r.entries.map Prod.fst := fun hmem =>
        (List.nodup_append.1 distinct).2.2 _ hmem _ List.mem_cons_self rfl
      rw [List.map_cons, List.foldl_cons, Item.line, line_entry e (h _ List.mem_cons_self) hr,
        putEntry_of_not_mem hnew,
        ih (r := { r with entries := r.entries ++ [e.pair] }) hitems ?_ hr]
      · simp [Item.content?]
      · simpa [Item.content?] using distinct

/-- Nothing is read from sections behind the parameters. -/
theorem foldl_sections (h : ∀ l ∈ lines, isHeading (stripChars l) = false)
    (apart : ∀ l ∈ lines.head?, isBlank (l.headD ' ') = false)
    (hr : r.part = .parameters) : ∃ part, lines.foldl line r = { r with part := part } := by
  cases lines with
  | nil => exact ⟨r.part, rfl⟩
  | cons l lines =>
    have hbegin := apart l rfl
    have hfilled : (stripChars l).isEmpty = false := by
      refine List.isEmpty_eq_false_iff.2 fun hnil => ?_
      cases l with
      | nil => exact absurd hbegin (by decide)
      | cons c cs =>
        rw [List.headD_cons, stripChars_eq_nil_iff.1 hnil c List.mem_cons_self] at hbegin
        cases hbegin
    have hline : r.line l = { r with part := .other } := by
      simp only [line, h l List.mem_cons_self, hr, hfilled, hbegin]
      rfl
    rw [List.foldl_cons, hline, foldl_other (fun l hl => h l (List.mem_cons_of_mem _ hl)) rfl]
    exact ⟨.other, rfl⟩

end Reading

namespace Page
variable (p : Page)

/-- The heading is read as one, in any case. -/
theorem isHeading_heading : isHeading (stripChars p.heading) = true := by
  have hplain : ∀ c ∈ p.heading, isBlank c = false := by
    intro c hc
    refine Bool.eq_false_iff.2 fun hblank => ?_
    have apart : ∀ n ∈ blankCodes, ∀ s ∈ headings, (Char.ofNat n).toLower ∉ s.toList := by decide
    have := apart _ (toNat_mem_of_isBlank hblank) _ p.heading_word
    rw [Char.ofNat_toNat, String.toList_ofList] at this
    exact this (List.mem_map_of_mem hc)
  have hstrip : stripChars p.heading = p.heading := by
    have hleft : ∀ cs : List Char, (∀ c ∈ cs, isBlank c = false) → cs.dropWhile isBlank = cs := by
      intro cs hcs
      cases cs with
      | nil => rfl
      | cons c cs =>
        rw [List.dropWhile_cons_of_neg (by rw [hcs c List.mem_cons_self]; decide)]
    rw [stripChars, stripLeft, stripRight, hleft _ hplain,
      hleft _ fun c hc => hplain c (List.mem_reverse.1 hc), List.reverse_reverse]
  rw [hstrip, isHeading, List.contains_iff_mem]
  exact p.heading_word

/-- The lines of a page are read as what it says. -/
theorem foldl_lines : ∃ part, p.lines.foldl Reading.line ⟨.summary, [], []⟩ =
    ⟨part, p.summary.reverse, p.entries.map Entry.pair⟩ := by
  have apart {l : List Char} (hl : l ∈ p.otherLines) : isHeading (stripChars l) = false :=
    p.headings_once l hl
  have hsummary := Reading.foldl_summary (r := ⟨.summary, [], []⟩)
    (fun l hl => apart (List.mem_append_left _ hl)) p.summary_stripped rfl
  obtain ⟨part, hprose⟩ := Reading.foldl_prose (r := ⟨.summary, p.summary.reverse, []⟩)
    (fun l hl => apart (List.mem_append_right _ (List.mem_append_left _ hl))) p.prose_apart rfl
    (fun h => p.summary_filled (List.reverse_eq_nil_iff.1 h))
  have hitems := Reading.foldl_items (r := ⟨.parameters, p.summary.reverse, []⟩) p.items
    (fun l hl => apart (List.mem_append_right _ (List.mem_append_right _
      (List.mem_append_left _ hl)))) ?_ rfl
  · obtain ⟨part', hsections⟩ := Reading.foldl_sections
      (r := ⟨.parameters, p.summary.reverse, p.entries.map Entry.pair⟩)
      (fun l hl => apart (List.mem_append_right _ (List.mem_append_right _
        (List.mem_append_right _ hl)))) p.sections_apart rfl
    refine ⟨part', ?_⟩
    rw [Parts.lines, List.foldl_append, hsummary, List.append_nil, List.foldl_append, hprose,
      List.foldl_cons, Reading.line_heading p.isHeading_heading, List.foldl_append, hitems]
    exact hsections
  · rw [List.map_nil, List.nil_append, show (fun e : Entry => e.pair.1) =
      String.ofList ∘ Entry.name from rfl, ← List.map_map]
    exact List.Nodup.map (fun _ _ => String.ofList_injective) p.names_distinct

/-- A text says what a page says if the reader collects the same from both. -/
theorem read_of_foldl {text : List Char}
    (hlines : ((splitLines text).foldl Reading.line ⟨.summary, [], []⟩).lines =
      p.summary.reverse)
    (hentries : ((splitLines text).foldl Reading.line ⟨.summary, [], []⟩).entries =
      p.entries.map Entry.pair) : read text = p.meaning := by
  rw [read, hlines, hentries, List.reverse_reverse, joinWith_eq_intercalate]
  rfl

/-- What is read from a page is what it says: the lines of the summary joined by blanks, and the
names and the texts of the entries, in order. It does not matter which line breaks the text has. -/
theorem read_text :
    read p.text = p.meaning ∧ ∀ text, splitLines text = p.lines → read text = p.meaning := by
  obtain ⟨part, hread⟩ := p.foldl_lines
  have of_lines {text : List Char} (h : splitLines text = p.lines) : read text = p.meaning :=
    p.read_of_foldl (by rw [h, hread]) (by rw [h, hread])
  refine ⟨?_, fun text h => of_lines h⟩
  rcases splitLines_joinWith p.lines_unbroken with h | h
  · exact of_lines h
  · -- The empty last line is lost, but nothing is read from it.
    obtain ⟨part', hlast⟩ := Reading.line_nil
      ((splitLines p.text).foldl Reading.line ⟨.summary, [], []⟩)
    rw [← h, List.foldl_append, List.foldl_cons, List.foldl_nil, ← Parts.text, hlast,
      Reading.mk.injEq] at hread
    exact p.read_of_foldl hread.2.1 hread.2.2

/-- A page with all parts: two lines of a summary, prose that looks like an entry, an empty line
between the entries, and a section whose lines look like entries. -/
def sample : Page where
  summary := ["Look".toList, "ahead.".toList]
  prose := [[], "  city: no".toList]
  heading := "ARGS:".toList
  items := [
    .entry { margin := [' '], stars := 0, name := "city".toList, type := some "str, (any".toList,
             gap := [' '], text := "Where: (x): y".toList },
    .empty [' ', '\t'] (List.all_eq_true.1 (by decide)),
    .entry { margin := ['\t'], stars := 2, name := "rest".toList, type := none, gap := ['\t'],
             text := [] }]
  sections := ["Returns:".toList, " unit: no".toList]

/-- The lines of the page, which end otherwise than in `Page.text`. -/
def sampleText : List Char :=
  ("Look\r\nahead.\r\n\r\n  city: no\r\nARGS:\r\n city (str, (any): Where: (x): y\r\n \t\r\n" ++
    "\t**rest:\t\r\nReturns:\r\n unit: no\r\n").toList

/-- The page is read, whichever line breaks its text has. -/
theorem read_text_sample :
    splitLines sampleText = sample.lines ∧ read sample.text = sample.meaning ∧
      read sampleText = sample.meaning ∧
      sample.meaning = ⟨"Look ahead.", [("city", "Where: (x): y"), ("rest", "")]⟩ := by
  have hlines : splitLines sampleText = sample.lines := by decide +kernel
  exact ⟨hlines, sample.read_text.1, sample.read_text.2 _ hlines, by decide⟩

end Page

end ScriptAgent.Tool.Documentation
