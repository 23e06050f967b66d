/-!
# Searching in texts

The first occurrence of a text in another one, as the parts before and after it.
-/

namespace ScriptAgent.Text

/-- The rest of a text after a beginning. -/
def afterBeginning? : List Char → List Char → Option (List Char)
  | [], cs => some cs
  | _ :: _, [] => none
  | m :: marker, c :: cs => if m = c then afterBeginning? marker cs else none

/-- The parts of a text before and after the first occurrence of a marker. -/
def cutAt? (marker : List Char) : List Char → Option (List Char × List Char)
  | [] =>
    match afterBeginning? marker [] with
    | some rest => some ([], rest)
    | none => none
  | c :: cs =>
    match afterBeginning? marker (c :: cs) with
    | some rest => some ([], rest)
    | none =>
      match cutAt? marker cs with
      | some (before, rest) => some (c :: before, rest)
      | none => none

/-- Whether a text occurs in another one. -/
def occurs (marker cs : List Char) : Bool := (cutAt? marker cs).isSome

theorem afterBeginning?_eq_some {marker cs rest : List Char} :
    afterBeginning? marker cs = some rest ↔ cs = marker ++ rest := by
  induction marker generalizing cs with
  | nil => simp [afterBeginning?]
  | cons m marker ih =>
    cases cs with
    | nil => simp [afterBeginning?]
    | cons c cs =>
      by_cases h : m = c
      · simp [afterBeginning?, h, ih]
      · simp [afterBeginning?, h, Ne.symm h]

/-- Nothing is lost where a text is cut. -/
theorem append_of_cutAt? {marker cs before rest : List Char}
    (h : cutAt? marker cs = some (before, rest)) : cs = before ++ marker ++ rest := by
  induction cs generalizing before rest with
  | nil =>
    simp only [cutAt?] at h
    split at h
    · next hr => cases h; simpa using afterBeginning?_eq_some.1 hr
    · cases h
  | cons c cs ih =>
    simp only [cutAt?] at h
    split at h
    · next hr => cases h; simpa using afterBeginning?_eq_some.1 hr
    · split at h
      · next hr => cases h; simp [ih hr]
      · cases h

end ScriptAgent.Text
