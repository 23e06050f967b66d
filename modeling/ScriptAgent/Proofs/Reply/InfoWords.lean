import ScriptAgent.Proofs.Reply.Blocks

/-!
# The words behind opening fences

A reply with one block of code may name the language of the block behind the opening fence
(`Fenced`). The code in the reply begins where the opening ends, and the opening of scripts is a
word only if it is followed by white space. So what remains of the word is a part of the code
(`Fenced.script_text`), and the code is the body of the block exactly if there is no word, or the
word of the opening of scripts directly behind the fence (`Fenced.script_eq_body_iff`).
-/

namespace ScriptAgent.Reply

open Text

variable {opening cs before after : List Char} {i j p : Nat}

/-- The word of the opening of scripts. -/
def scriptWord : List Char := ['l', 'u', 'a']

/-- A reply with one block of code: prose, a fence with a word behind it on the same line, the body
of the block, a fence, and prose. No fence occurs but the two, and none of them is longer than a
fence. -/
structure Fenced where
  before : List Char
  /-- The white space before the word. -/
  gap : List Char
  word : List Char
  /-- The white space after the word, before the end of the line. -/
  margin : List Char
  body : List Char
  after : List Char
  before_clear : ¬ fence <:+: before
  before_end : before.getLast? ≠ some '`'
  gap_blank : ∀ c ∈ gap, isBlank c = true
  word_plain : ∀ c ∈ word, isBlank c = false ∧ c ≠ '`'
  margin_blank : ∀ c ∈ margin, isBlank c = true
  body_clear : ¬ fence <:+: body
  body_end : body.getLast? ≠ some '`'
  after_clear : ¬ fence <:+: after
  after_begin : after.head? ≠ some '`'

/-! ## Places of fences -/

/-- No fence begins before the end of a text that has none and does not end in a part of one. -/
theorem not_fence_of_before (clear : ¬ fence <:+: before) (hend : before.getLast? ≠ some '`')
    (hp : p < before.length) : ¬ fence <+: (before ++ after).drop p := by
  intro hat
  rw [List.drop_append_of_le_length hp.le] at hat
  rcases Nat.lt_or_ge (before.drop p).length fence.length with hshort | hlong
  · -- the rest of the text is the beginning of the fence
    obtain ⟨rest, hrest⟩ := List.prefix_of_prefix_length_le (List.prefix_append _ _) hat hshort.le
    have hne : before.drop p ≠ [] := fun h => absurd (List.drop_eq_nil_iff.1 h) (by omega)
    have hlast : (before.drop p).getLast hne ∈ fence := by
      rw [← hrest]
      exact List.mem_append_left _ (List.getLast_mem hne)
    have htick : ∀ c ∈ fence, c = '`' := by simp [fence]
    refine hend ?_
    rw [List.getLast?_eq_some_getLast (fun h => by simp [h] at hp), ← List.getLast_drop hne,
      htick _ hlast]
  · exact clear ((List.prefix_of_prefix_length_le hat (List.prefix_append _ _) hlong).isInfix.trans
      (List.drop_suffix _ _).isInfix)

/-- No other fence begins inside a fence that is not longer. -/
theorem zero_or_le_of_fence (hbegin : after.head? ≠ some '`')
    (hat : fence <+: (fence ++ after).drop p) : p = 0 ∨ 3 ≤ p := by
  have begins {ticks : List Char} (h : ('`' :: ticks) <+: after) : False := by
    obtain ⟨rest, rfl⟩ := h
    exact hbegin rfl
  match p with
  | 0 => exact .inl rfl
  | 1 =>
    have : ['`'] <+: after := by simpa [fence] using hat
    exact (begins this).elim
  | 2 =>
    have : ['`', '`'] <+: after := by simpa [fence] using hat
    exact (begins this).elim
  | p + 3 => exact .inr (Nat.le_add_left _ _)

/-- No fence begins in characters that are none of a fence. -/
theorem fence_infix_of_plain (plain : ∀ c ∈ before, c ≠ '`') (hin : fence <:+: before ++ after) :
    fence <:+: after := by
  induction before with
  | nil => exact hin
  | cons c before ih =>
    rcases List.infix_cons_iff.1 hin with hat | hin
    · obtain ⟨rest, hrest⟩ := hat
      exact absurd (List.cons.inj hrest).1.symm (plain c List.mem_cons_self)
    · exact ih (fun d hd => plain d (List.mem_cons_of_mem _ hd)) hin

namespace Fenced

variable (r : Fenced)

/-- What is behind the opening fence on the same line, with the end of the line. -/
def line : List Char := r.gap ++ (r.word ++ (r.margin ++ ['\n']))

/-- What is between the fences. -/
def inner : List Char := r.line ++ r.body

/-- The characters of the reply. -/
def chars : List Char := r.before ++ (fence ++ (r.inner ++ (fence ++ r.after)))

/-- The reply. -/
def text : String := String.ofList r.chars

/-- Where the opening begins. -/
def opened : Nat := r.before.length

/-- Where the block ends. -/
def closed : Nat := r.opened + (3 + r.inner.length)

/-- No part of a fence is behind the opening fence on the same line. -/
theorem line_plain : ∀ c ∈ r.line, c ≠ '`' := by
  have blank : isBlank '`' = false := by decide
  intro c hc hcell
  subst hcell
  simp only [line, List.mem_append, List.mem_singleton] at hc
  rcases hc with h | h | h | h
  · simp [r.gap_blank _ h] at blank
  · exact (r.word_plain _ h).2 rfl
  · simp [r.margin_blank _ h] at blank
  · cases h

/-- The opening fence is not longer than a fence. -/
theorem inner_begin (x : List Char) : (r.inner ++ x).head? ≠ some '`' := by
  intro h
  have plain := r.line_plain
  have nonempty : r.line ≠ [] := by simp [line]
  rw [inner] at h
  cases hline : r.line with
  | nil => exact nonempty hline
  | cons c rest =>
    rw [hline] at h plain
    exact plain c List.mem_cons_self (Option.some.inj h)

/-- There is no fence between the fences. -/
theorem inner_clear : ¬ fence <:+: r.inner :=
  fun h => r.body_clear (fence_infix_of_plain r.line_plain h)

/-- The closing fence is not longer than a fence. -/
theorem inner_end : r.inner.getLast? ≠ some '`' := by
  have hbody := r.body_end
  have hline : r.line.getLast? = some '\n' := by simp [line]
  rw [inner, List.getLast?_append, hline]
  cases hlast : r.body.getLast? with
  | none => simp
  | some c => rwa [hlast] at hbody

theorem drop_opened : r.chars.drop r.opened = fence ++ (r.inner ++ (fence ++ r.after)) :=
  List.drop_left

theorem drop_inner : r.chars.drop (r.opened + 3) = r.inner ++ (fence ++ r.after) := by
  rw [← List.drop_drop, drop_opened]
  rfl

theorem drop_closed : r.chars.drop r.closed = fence ++ r.after := by
  rw [closed, ← Nat.add_assoc, ← List.drop_drop, drop_inner, List.drop_left]

/-- The only fences of the reply are the two of its block. -/
theorem fence_at (hat : fence <+: r.chars.drop p) : p = r.opened ∨ p = r.closed := by
  rcases Nat.lt_or_ge p r.opened with hp | hp
  · exact absurd hat (not_fence_of_before r.before_clear r.before_end hp)
  obtain ⟨q, rfl⟩ := Nat.exists_eq_add_of_le hp
  have hopen := hat
  rw [← List.drop_drop, drop_opened] at hopen
  rcases zero_or_le_of_fence (r.inner_begin _) hopen with rfl | hq
  · exact .inl rfl
  obtain ⟨s, rfl⟩ := Nat.exists_eq_add_of_le hq
  rw [← Nat.add_assoc, ← List.drop_drop, drop_inner] at hat
  rcases Nat.lt_or_ge s r.inner.length with hs | hs
  · exact absurd hat (not_fence_of_before r.inner_clear r.inner_end hs)
  obtain ⟨u, rfl⟩ := Nat.exists_eq_add_of_le hs
  rw [← List.drop_drop, List.drop_left] at hat
  rcases zero_or_le_of_fence r.after_begin hat with rfl | hu
  · exact .inr rfl
  obtain ⟨v, rfl⟩ := Nat.exists_eq_add_of_le hu
  rw [← List.drop_drop] at hat
  exact absurd (hat.isInfix.trans (List.drop_suffix v _).isInfix) r.after_clear

/-! ## The block -/

theorem opened_lt_closed : r.opened + 3 ≤ r.closed := by
  rw [closed]
  omega

/-- The fences of the reply are its first block. -/
theorem blockAt : BlockAt fence r.chars r.opened r.closed := by
  have hclosed := r.opened_lt_closed
  refine ⟨⟨Nat.zero_le _, ?_, fun p _ hp hat => ?_⟩, ⟨?_, ?_, fun p hstart hp hat => ?_⟩⟩
  · rw [drop_opened]
    exact List.prefix_append _ _
  · rcases r.fence_at hat with rfl | rfl <;> omega
  · exact hclosed
  · rw [drop_closed]
    exact List.prefix_append _ _
  · have hfrom : r.opened + 3 ≤ p := hstart
    rcases r.fence_at hat with rfl | rfl <;> omega

/-- What is between the fences, from some place on. -/
theorem extract_closed {k : Nat} (hk : k ≤ r.inner.length) :
    r.chars.extract (r.opened + 3 + k) r.closed = r.inner.drop k := by
  have hlen : r.closed - (r.opened + 3 + k) = (r.inner.drop k).length := by
    rw [closed, List.length_drop]
    omega
  rw [List.extract_eq_take_drop, hlen, ← List.drop_drop, drop_inner,
    List.drop_append_of_le_length hk, List.take_left]

/-- A script is opened where the word of scripts begins directly behind the opening fence. -/
def opensScript : Prop := r.gap = [] ∧ scriptWord <+: r.word

instance : Decidable r.opensScript := inferInstanceAs (Decidable (_ ∧ _))

/-- What the word behind the opening fence adds to the code. -/
def remainder : List Char := if r.opensScript then r.word.drop 3 else r.word

/-- A word is found in another one that is followed by white space only if it is a beginning of
it. -/
theorem prefix_word {word cs : List Char} {c : Char} (plain : ∀ d ∈ opening, isBlank d = false)
    (blank : isBlank c = true) (h : opening <+: word ++ c :: cs) : opening <+: word := by
  rcases Nat.lt_or_ge word.length opening.length with hlong | hshort
  · have hwhole : word ++ [c] <+: opening := by
      refine List.prefix_of_prefix_length_le ⟨cs, by simp⟩ h ?_
      rw [List.length_append, List.length_singleton]
      exact hlong
    have hc := plain c (hwhole.mem (by simp))
    rw [blank] at hc
    cases hc
  · exact List.prefix_of_prefix_length_le h (List.prefix_append _ _) hshort

/-- What follows the word behind the opening fence begins with white space. -/
theorem exists_blank (x : List Char) :
    ∃ c cs, isBlank c = true ∧ r.margin ++ '\n' :: x = c :: cs := by
  cases hmargin : r.margin with
  | nil => exact ⟨'\n', x, by decide, rfl⟩
  | cons c rest => exact ⟨c, _, r.margin_blank c (by simp [hmargin]), rfl⟩

/-- Scripts are opened nowhere else. -/
theorem opensScript_of_blockAt (h : BlockAt scriptFence r.chars i j) :
    i = r.opened ∧ j = r.closed ∧ r.opensScript := by
  have plain : ∀ d ∈ scriptWord, isBlank d = false := by
    have hall : scriptWord.all (fun d => !isBlank d) = true := by decide
    simpa using hall
  have hfrom : i + 6 ≤ j := h.closes.from_start
  have hclosed := r.opened_lt_closed
  have hi := r.fence_at ((List.prefix_append _ _).trans h.opens.here)
  have hj := r.fence_at h.closes.here
  obtain rfl : i = r.opened := by omega
  have hat := h.opens.here
  rw [drop_opened, scriptFence, List.prefix_append_right_inj, inner, line] at hat
  simp only [List.append_assoc, List.cons_append, List.nil_append] at hat
  refine ⟨rfl, by omega, ?_⟩
  cases hgap : r.gap with
  | nil =>
    rw [hgap, List.nil_append] at hat
    obtain ⟨c, cs, blank, hrest⟩ := r.exists_blank (r.body ++ (fence ++ r.after))
    rw [hrest] at hat
    exact ⟨hgap, prefix_word plain blank hat⟩
  | cons c gap =>
    rw [hgap] at hat
    have blank := r.gap_blank c (by simp [hgap])
    have := plain c (by rw [← (List.cons_prefix_cons.1 hat).1]; decide)
    rw [blank] at this
    cases this

/-- What is between the fences of a script. -/
theorem inner_of_opensScript (h : r.opensScript) :
    r.inner = scriptWord ++ (r.word.drop 3 ++ (r.margin ++ '\n' :: r.body)) := by
  obtain ⟨hgap, rest, hword⟩ := h
  rw [inner, line, hgap, ← hword]
  simp [scriptWord]

/-- Scripts are opened where the word of scripts begins directly behind the fence. -/
theorem script_blockAt (h : r.opensScript) : BlockAt scriptFence r.chars r.opened r.closed := by
  have hinner := r.inner_of_opensScript h
  refine ⟨⟨Nat.zero_le _, ?_, fun p hstart hp hat =>
      r.blockAt.opens.first p hstart hp ((List.prefix_append _ _).trans hat)⟩,
    ⟨?_, r.blockAt.closes.here, fun p hstart hp => r.blockAt.closes.first p ?_ hp⟩⟩
  · rw [drop_opened, hinner]
    exact ⟨_, by simp only [scriptFence, scriptWord, List.append_assoc]; rfl⟩
  · have hlen := congrArg List.length hinner
    simp only [scriptWord, List.length_append, List.length_cons] at hlen
    simp only [closed, scriptFence, fence, List.length_append, List.length_cons, List.length_nil]
    omega
  · exact Nat.le_trans (Nat.add_le_add_left (by decide) _) hstart

/-- The code in the reply is the body of the block with what the word behind the opening fence adds
to it. -/
theorem script_text : script r.text =
    String.ofList (stripChars (r.remainder ++ (r.margin ++ '\n' :: r.body))) := by
  rw [script, text, String.toList_ofList, remainder]
  split
  · next h =>
    have hinner := r.inner_of_opensScript h
    rw [scriptChars_of_script (r.script_blockAt h), ← Nat.add_assoc r.opened 3 3,
      r.extract_closed (by simp [hinner, scriptWord]), hinner]
    rfl
  · next h =>
    have none : ∀ i j, ¬ BlockAt scriptFence r.chars i j := fun i j hscript =>
      h (r.opensScript_of_blockAt hscript).2.2
    have hstrip : stripChars (r.gap ++ (r.word ++ (r.margin ++ '\n' :: r.body)) ++ []) =
        stripChars (r.word ++ (r.margin ++ '\n' :: r.body)) :=
      stripChars_append r.gap_blank (List.forall_mem_nil _)
    rw [scriptChars_of_block none r.blockAt, ← Nat.add_zero (r.opened + 3),
      r.extract_closed (Nat.zero_le _), ← hstrip, inner, line]
    simp

/-- Nothing of the word is left exactly if there is none, or if it is the word of scripts directly
behind the fence. -/
theorem remainder_eq_nil_iff :
    r.remainder = [] ↔ r.word = [] ∨ (r.gap = [] ∧ r.word = scriptWord) := by
  rw [remainder]
  split
  · next h =>
    obtain ⟨hgap, rest, hword⟩ := h
    simp [← hword, hgap, scriptWord]
  · next h =>
    refine ⟨.inl, fun hword => hword.resolve_right fun ⟨hgap, hword⟩ => h ⟨hgap, ?_⟩⟩
    exact hword ▸ List.prefix_refl _

/-- There is no white space in what is left of the word. -/
theorem remainder_plain : ∀ c ∈ r.remainder, isBlank c = false := by
  intro c hc
  rw [remainder] at hc
  split at hc
  · exact (r.word_plain c (List.mem_of_mem_drop hc)).1
  · exact (r.word_plain c hc).1

/-- What is left of the word is a part of the code: the code has as many characters more than the
body that are not white space. -/
theorem stripChars_inner_eq_iff :
    stripChars (r.remainder ++ (r.margin ++ '\n' :: r.body)) = stripChars r.body ↔
      r.remainder = [] := by
  have blank : ∀ c ∈ r.margin ++ ['\n'], isBlank c = true := by
    intro c hc
    rcases List.mem_append.1 hc with hc | hc
    · exact r.margin_blank c hc
    · rw [List.mem_singleton.1 hc]
      decide
  have hsplit : r.margin ++ '\n' :: r.body = r.margin ++ ['\n'] ++ r.body ++ [] := by simp
  rw [hsplit]
  constructor
  · intro h
    have hcount := congrArg (List.countP fun c => !isBlank c) h
    have hnone : (r.margin ++ ['\n']).countP (fun c => !isBlank c) = 0 :=
      List.countP_eq_zero.2 fun c hc => by simp [blank c hc]
    simp only [countP_stripChars, List.countP_append, List.countP_nil] at hcount hnone
    have hzero : r.remainder.countP (fun c => !isBlank c) = 0 := by omega
    refine List.eq_nil_iff_forall_not_mem.2 fun c hc => ?_
    have := List.countP_eq_zero.1 hzero c hc
    rw [r.remainder_plain c hc] at this
    exact this rfl
  · intro h
    rw [h, List.nil_append, stripChars_append blank (List.forall_mem_nil _)]

/-- The code in a reply with one block is the body of the block exactly if there is no word behind
the opening fence, or the word of scripts directly behind it. Otherwise what is left of the word
after the opening is a part of the code. -/
theorem script_eq_body_iff :
    (script r.text = String.ofList (stripChars r.body) ↔
      r.word = [] ∨ (r.gap = [] ∧ r.word = scriptWord)) ∧
    script r.text = String.ofList (stripChars (r.remainder ++ (r.margin ++ '\n' :: r.body))) := by
  refine ⟨?_, r.script_text⟩
  rw [r.script_text, String.ofList_inj, stripChars_inner_eq_iff, remainder_eq_nil_iff]

/-- A block whose language is named otherwise. -/
def python : Fenced where
  before := "x\n".toList
  gap := []
  word := "python".toList
  margin := []
  body := "print(1)\n".toList
  after := []
  before_clear := fun h => absurd (h.subset (by decide : '`' ∈ fence)) (by decide)
  before_end := by decide
  gap_blank := nofun
  word_plain := by
    have hall : "python".toList.all (fun c => !isBlank c && c != '`') = true := by decide
    simpa using hall
  margin_blank := nofun
  body_clear := fun h => absurd (h.subset (by decide : '`' ∈ fence)) (by decide)
  body_end := by decide
  after_clear := by decide
  after_begin := by decide

/-- The word behind the fence is executed with the body. -/
theorem script_python :
    python.text = "x\n```python\nprint(1)\n```" ∧ script python.text = "python\nprint(1)" ∧
      String.ofList (stripChars python.body) = "print(1)" ∧
      script python.text ≠ String.ofList (stripChars python.body) := by
  have hscript : script python.text = "python\nprint(1)" := python.script_text.trans rfl
  have hbody : String.ofList (stripChars python.body) = "print(1)" := rfl
  refine ⟨rfl, hscript, hbody, ?_⟩
  rw [hscript, hbody]
  decide

end Fenced

end ScriptAgent.Reply
