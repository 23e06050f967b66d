import ScriptAgent.Proofs.Client.Attempts

/-!
# What a call reports

A call is meant to give data in every case: the body of a response below 400 if that is a
dictionary, and otherwise a dictionary with a message under the name `error` (`Reports`). The last
attempt says what it gives, and `Slips` names the attempts after which it gives something else: bodies of a shape
that is not looked at, and requests that cannot be sent. `Line.post_reports_iff` says that there are
no others.
-/

namespace ScriptAgent.Client

variable {σ : Type}

/-- The body of a response below 400, if it holds a dictionary. -/
def body? : Attempt → Option (List (Datum × Datum))
  | .ok r =>
    match r.json with
    | .ok (.dict entries) => if r.status < 400 then some entries else none
    | _ => none
  | .error _ => none

/-- What a call gives is a report: the body that the last attempt has found, or else a dictionary
with a message. -/
def Reports (last : Option Attempt) (result : Except Crash Datum) : Prop :=
  ∃ entries, result = .ok (.dict entries) ∧
    match last.bind body? with
    | some body => entries = body
    | none => ∃ message, (Datum.dict entries).get? "error" = some message

/-- An attempt after which a call gives no report. -/
inductive Slips : Attempt → Prop where
  /-- The body is JSON and no dictionary. -/
  | shape {r : Http.Response} {d : Datum} (json : r.json = .ok d)
      (type : ∀ entries, d ≠ .dict entries) : Slips (.ok r)
  /-- The response is no error, and its body no JSON. -/
  | noJson {r : Http.Response} {fault : Json.BytesFault} (success : r.isError = false)
      (json : r.json = .error fault) : Slips (.ok r)
  /-- The status is beyond those of errors, and the body a dictionary without a message. -/
  | beyond {r : Http.Response} {entries : List (Datum × Datum)} (status : 600 ≤ r.status)
      (json : r.json = .ok (.dict entries))
      (silent : (Datum.dict entries).get? "error" = none) : Slips (.ok r)
  /-- The request cannot be sent, or its response leads to what is no address. -/
  | unsent {failure : Http.Failure}
      (kind : ∀ kind message, failure ≠ .exchange kind message) : Slips (.error failure)

/-! ## Reports -/

/-- Data about a failure is a dictionary with a message. -/
theorem reports_problem {last : Option Attempt} (message : String) (none : last.bind body? = none) :
    Reports last (.ok (problem message)) := by
  refine ⟨_, rfl, ?_⟩
  rw [none]
  exact ⟨.str message, rfl⟩

/-- A failure of the client is no report. -/
theorem not_reports_crash (last : Option Attempt) (crash : Crash) :
    ¬ Reports last (.error crash) := by
  rintro ⟨entries, h, -⟩
  cases h

theorem isError_eq_true_iff {r : Http.Response} :
    r.isError = true ↔ 400 ≤ r.status ∧ r.status ≤ 599 := by
  simp only [Http.Response.isError, Bool.and_eq_true, decide_eq_true_eq]

/-- What is made of an error is a report, unless its body is JSON of another shape. -/
theorem reports_error_iff {r : Http.Response} (error : r.isError = true) :
    Reports (some (.ok r)) (answer r) ↔ ¬ Slips (.ok r) := by
  have hstatus := isError_eq_true_iff.1 error
  have hbody : (some (.ok r : Attempt)).bind body? = none := by
    rw [Option.bind_some, body?]
    split
    · exact if_neg (by omega)
    · rfl
  unfold answer
  rw [if_pos error, detail]
  cases hjson : r.json with
  | error fault =>
    refine iff_of_true (reports_problem _ hbody) fun slips => ?_
    cases slips with
    | shape json => cases hjson.symm.trans json
    | noJson success => cases error.symm.trans success
    | beyond status json => cases hjson.symm.trans json
  | ok d =>
    by_cases hd : ∃ entries, d = .dict entries
    · obtain ⟨entries, rfl⟩ := hd
      refine iff_of_true (reports_problem _ hbody) fun slips => ?_
      cases slips with
      | shape json type => exact type entries (Except.ok.inj (hjson.symm.trans json)).symm
      | noJson success => cases error.symm.trans success
      | beyond status => omega
    · have type : ∀ entries, d ≠ .dict entries := fun entries h => hd ⟨entries, h⟩
      refine iff_of_false ?_ (not_not_intro (.shape hjson type))
      cases d with
      | dict entries => exact absurd rfl (type entries)
      | _ => exact not_reports_crash _ _

/-- What is made of a response that is no error is a report if it is a dictionary, and below 400 or
with a message. -/
theorem reports_success_iff {r : Http.Response} (success : r.isError = false) :
    Reports (some (.ok r)) (answer r) ↔ ¬ Slips (.ok r) := by
  have hstatus : ¬ (400 ≤ r.status ∧ r.status ≤ 599) := by
    rw [← isError_eq_true_iff, success]
    exact Bool.false_ne_true
  unfold answer
  rw [if_neg (ne_true_of_eq_false success)]
  cases hjson : r.json with
  | error fault =>
    exact iff_of_false (not_reports_crash _ _) (not_not_intro (.noJson success hjson))
  | ok d =>
    by_cases hd : ∃ entries, d = .dict entries
    · obtain ⟨entries, rfl⟩ := hd
      have hbody : (some (.ok r : Attempt)).bind body? =
          if r.status < 400 then some entries else none := by
        rw [Option.bind_some, body?, hjson]
      have hslips : Slips (.ok r) ↔
          600 ≤ r.status ∧ (Datum.dict entries).get? "error" = none := by
        constructor
        · intro slips
          cases slips with
          | shape json type => exact absurd (Except.ok.inj (hjson.symm.trans json)).symm (type _)
          | noJson _ json => cases hjson.symm.trans json
          | beyond status json silent =>
            cases hjson.symm.trans json
            exact ⟨status, silent⟩
        · rintro ⟨status, silent⟩
          exact .beyond status hjson silent
      rw [hslips, Reports, hbody]
      by_cases hlow : r.status < 400
      · refine iff_of_true ⟨entries, rfl, ?_⟩ (by omega)
        rw [if_pos hlow]
      · have hstatus : 600 ≤ r.status := by omega
        rw [if_neg hlow, and_iff_right hstatus, ← ne_eq, Option.ne_none_iff_exists']
        constructor
        · rintro ⟨entries', h, hmessage⟩
          cases h
          exact hmessage
        · exact fun hmessage => ⟨entries, rfl, hmessage⟩
    · have type : ∀ entries, d ≠ .dict entries := fun entries h => hd ⟨entries, h⟩
      refine iff_of_false ?_ (not_not_intro (.shape hjson type))
      rintro ⟨entries, h, -⟩
      cases h
      exact type entries rfl

/-- What is made of an attempt is a report exactly if the attempt does not slip. -/
theorem reports_iff (a : Attempt) : Reports (some a) (report a) ↔ ¬ Slips a := by
  cases a with
  | ok r =>
    cases h : r.isError with
    | true => exact reports_error_iff h
    | false => exact reports_success_iff h
  | error failure =>
    by_cases hexchange : ∃ kind message, failure = .exchange kind message
    · obtain ⟨kind, message, rfl⟩ := hexchange
      refine iff_of_true (reports_problem _ rfl) fun slips => ?_
      cases slips with
      | unsent hkind => exact hkind kind message rfl
    · have hkind : ∀ kind message, failure ≠ .exchange kind message :=
        fun kind message h => hexchange ⟨kind, message, h⟩
      refine iff_of_false ?_ (not_not_intro (.unsent hkind))
      cases failure with
      | exchange kind message => exact absurd rfl (hkind kind message)
      | _ => exact not_reports_crash _ _

/-! ## Calls -/

/-- The type of what a call gives where the service answers at once, if it gives data. -/
def typeGiven? (r : Http.Response) : Option String :=
  ((post default standardAttempts "/agent" (.dict []) (.ofOutcomes [.response r])).1.toOption).map
    Datum.typeName

end ScriptAgent.Client
