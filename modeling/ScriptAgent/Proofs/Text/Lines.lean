import ScriptAgent.Proofs.Text.Pattern
import ScriptAgent.Text.Classes

/-!
# Lines and white space

Lines that are joined by line breaks are the lines of the text, up to an empty last one
(`Text.splitLines_joinWith`). A text is stripped of everything exactly if it is white space, and no
part of a word is white space.
-/

namespace ScriptAgent.Text

variable {cs line rest : List Char} {c : Char}

/-! ## Lines -/

/-- A text within one line. -/
def Unbroken (cs : List Char) : Prop := ∀ c ∈ cs, isLineEnd c = false

instance (cs : List Char) : Decidable (Unbroken cs) :=
  List.decidableBAll (fun c => isLineEnd c = false) cs

/-- A character that ends no line continues the current one. -/
theorem linesFrom_cons (hc : isLineEnd c = false) : linesFrom line (c :: rest) =
    linesFrom (c :: line) rest := by
  have hreturn : c ≠ '\r' := by
    rintro rfl
    exact absurd hc (by decide)
  rw [linesFrom.eq_def]
  split
  · next heq => cases heq
  · next heq => exact absurd (List.cons.inj heq).1 hreturn
  · next heq =>
    cases heq
    rw [if_neg (by rw [hc]; decide)]

/-- A text within one line continues the current one. -/
theorem Unbroken.linesFrom_append (h : Unbroken cs) :
    linesFrom line (cs ++ rest) = linesFrom (cs.reverse ++ line) rest := by
  induction cs generalizing line with
  | nil => rfl
  | cons c cs ih =>
    rw [List.cons_append, linesFrom_cons (h c List.mem_cons_self),
      ih fun d hd => h d (List.mem_cons_of_mem _ hd), List.reverse_cons, List.append_assoc]
    rfl

/-- A text within one line is that line, if it is not empty. -/
theorem Unbroken.splitLines (h : Unbroken cs) : splitLines cs = if cs = [] then [] else [cs] := by
  have happend : linesFrom [] (cs ++ []) = linesFrom (cs.reverse ++ []) [] := h.linesFrom_append
  rw [List.append_nil, List.append_nil] at happend
  rw [Text.splitLines, happend, linesFrom]
  simp

/-- A line break ends a line. -/
theorem Unbroken.splitLines_newline (h : Unbroken cs) :
    Text.splitLines (cs ++ '\n' :: rest) = cs :: Text.splitLines rest := by
  rw [Text.splitLines, h.linesFrom_append, List.append_nil, linesFrom, List.reverse_reverse]
  · rfl
  · intro rest' heq
    cases heq

/-- Joined pieces are separated. -/
theorem joinWith_eq_intercalate (sep : List Char) (pieces : List (List Char)) :
    joinWith sep pieces = List.intercalate sep pieces := by
  induction pieces with
  | nil => rfl
  | cons piece rest ih =>
    cases rest with
    | nil => rw [joinWith, List.intercalate_singleton]
    | cons piece' rest =>
      rw [joinWith, ih, List.intercalate_cons_of_ne_nil (List.cons_ne_nil _ _)]
      exact nofun

/-- Lines that are joined by line breaks are the lines of the text, but for an empty last one. -/
theorem splitLines_joinWith {lines : List (List Char)} (h : ∀ l ∈ lines, Unbroken l) :
    splitLines (joinWith ['\n'] lines) = lines ∨
      splitLines (joinWith ['\n'] lines) ++ [[]] = lines := by
  induction lines with
  | nil => exact .inl rfl
  | cons l rest ih =>
    have hl : Unbroken l := h l List.mem_cons_self
    cases rest with
    | nil =>
      rw [joinWith, hl.splitLines]
      split
      · next hempty => exact .inr (by rw [hempty]; rfl)
      · exact .inl rfl
    | cons l' rest =>
      have hjoin : joinWith ['\n'] (l :: l' :: rest) =
          l ++ '\n' :: joinWith ['\n'] (l' :: rest) := by
        rw [joinWith, List.append_assoc]
        · rfl
        · exact nofun
      rw [hjoin, hl.splitLines_newline]
      exact (ih fun l hl => h l (List.mem_cons_of_mem _ hl)).imp (congrArg (l :: ·))
        (congrArg (l :: ·))

/-! ## White space -/

/-- White space is not left when it is stripped, and nothing else is stripped whole. -/
theorem stripChars_eq_nil_iff : stripChars cs = [] ↔ ∀ c ∈ cs, isBlank c = true := by
  have hcount := countP_stripChars cs
  constructor
  · intro h
    rw [h, List.countP_nil, eq_comm, List.countP_eq_zero] at hcount
    simpa using hcount
  · intro h
    have hstrip : stripChars (cs ++ [] ++ []) = stripChars [] :=
      stripChars_append h (List.forall_mem_nil _)
    rw [List.append_nil, List.append_nil] at hstrip
    rw [hstrip]
    rfl

/-- The codes of white space. -/
def blankCodes : List Nat := [9, 10, 11, 12, 13, 28, 29, 30, 31, 32, 133, 160, 5760, 8192, 8193,
  8194, 8195, 8196, 8197, 8198, 8199, 8200, 8201, 8202, 8232, 8233, 8239, 8287, 12288]

/-- White space has one of these codes. -/
theorem toNat_mem_of_isBlank (h : isBlank c = true) : c.toNat ∈ blankCodes := by
  simp only [isBlank, inRanges, Bool.if_false_left, Bool.and_eq_true, Bool.or_eq_true,
    Bool.not_eq_true', decide_eq_true_eq, decide_eq_false_iff_not, Bool.false_eq_true,
    or_false] at h
  simp only [blankCodes, List.mem_cons, List.not_mem_nil, or_false]
  omega

/-- No part of a word is white space. -/
theorem isBlank_of_isWordChar (h : isWordChar c = true) : isBlank c = false := by
  have apart : ∀ n ∈ blankCodes, isWordChar (Char.ofNat n) = false := by decide +kernel
  refine Bool.eq_false_iff.2 fun hblank => ?_
  have := apart _ (toNat_mem_of_isBlank hblank)
  rw [Char.ofNat_toNat, h] at this
  cases this

end ScriptAgent.Text
