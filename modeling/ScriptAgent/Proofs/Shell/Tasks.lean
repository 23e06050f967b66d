import ScriptAgent.Shell

/-!
# What a shell sends

A shell asks for a session and then has the tasks that are typed in run in it, whatever comes of
them. `Console.recorded` is a console that keeps a record of what is posted and shown on it, in
order; a record changes nothing. As long as answers are dictionaries, a shell ends, and its posts
are the one for the session and those of the `tasks` among the lines, each with that session
(`Console.run_posts`).
-/

namespace ScriptAgent.Shell

variable {σ : Type}

/-! ## Tasks -/

/-- The tasks among lines that are typed in: the lines without white space around them, up to the
first farewell, and without the empty ones. -/
def tasks (lines : List String) : List String :=
  ((lines.map Text.strip).takeWhile fun t => t.toLower ∉ ["exit", "quit"]).filter (· ≠ "")

section
variable {line : String} {rest : List String}

theorem isFarewell_iff {message : String} :
    isFarewell message = true ↔ message.toLower ∈ ["exit", "quit"] :=
  List.contains_iff_mem

/-- No task comes after a farewell. -/
theorem tasks_farewell (farewell : isFarewell (Text.strip line) = true) :
    tasks (line :: rest) = [] := by
  have hmem := isFarewell_iff.1 farewell
  rw [tasks, List.map_cons, List.takeWhile_cons_of_neg
    (by simpa only [decide_eq_true_eq] using not_not_intro hmem)]
  rfl

/-- An empty line is no task. -/
theorem tasks_empty (farewell : isFarewell (Text.strip line) = false)
    (empty : Text.strip line = "") : tasks (line :: rest) = tasks rest := by
  have hmem := mt isFarewell_iff.2 (ne_true_of_eq_false farewell)
  rw [tasks, List.map_cons, List.takeWhile_cons_of_pos (by simpa using hmem),
    List.filter_cons_of_neg (by simpa using empty)]
  rfl

/-- Any other line is one. -/
theorem tasks_cons (farewell : isFarewell (Text.strip line) = false)
    (full : Text.strip line ≠ "") : tasks (line :: rest) = Text.strip line :: tasks rest := by
  have hmem := mt isFarewell_iff.2 (ne_true_of_eq_false farewell)
  rw [tasks, List.map_cons, List.takeWhile_cons_of_pos (by simpa using hmem),
    List.filter_cons_of_pos (by simpa using full)]
  rfl

end

/-! ## A record of what is done -/

/-- What a shell does on a console. -/
inductive Deed where
  | posted (endpoint : String) (data : Datum) (result : Except Client.Crash Datum)
  | shown (color : Color) (text ending : String)

/-- A console that keeps a record of what is done on it. -/
def Console.recorded (c : Console σ) : Console (σ × List Deed) where
  post endpoint data s :=
    let (result, t) := c.post endpoint data s.1
    (result, t, s.2 ++ [.posted endpoint data result])
  paint color text ending s := (c.paint color text ending s.1, s.2 ++ [.shown color text ending])

/-- The posts of a record. -/
def posts (ds : List Deed) : List (String × Datum) :=
  ds.filterMap fun
    | .posted endpoint data _ => some (endpoint, data)
    | .shown .. => none

/-- What comes of the posts of a record. -/
def results (ds : List Deed) : List (Except Client.Crash Datum) :=
  ds.filterMap fun
    | .posted _ _ result => some result
    | .shown .. => none

/-- All posts of a record have been answered by dictionaries. -/
def Answered (ds : List Deed) : Prop :=
  ∀ result ∈ results ds, ∃ entries, result = .ok (.dict entries)

theorem posts_append (ds es : List Deed) : posts (ds ++ es) = posts ds ++ posts es :=
  List.filterMap_append

theorem answered_append {ds es : List Deed} : Answered (ds ++ es) ↔ Answered ds ∧ Answered es := by
  rw [Answered, results, List.filterMap_append, List.forall_mem_append]
  rfl

theorem answered_posted {endpoint : String} {data : Datum} {result : Except Client.Crash Datum}
    {ds : List Deed} : Answered (.posted endpoint data result :: ds) ↔
      (∃ entries, result = .ok (.dict entries)) ∧ Answered ds := by
  rw [Answered, results, List.filterMap_cons]
  exact List.forall_mem_cons

section
variable (c : Console σ) (s : σ) (ds : List Deed)

theorem Console.post_recorded (endpoint : String) (data : Datum) :
    c.recorded.post endpoint data (s, ds) =
      ((c.post endpoint data s).1, (c.post endpoint data s).2,
        ds ++ [.posted endpoint data (c.post endpoint data s).1]) := rfl

theorem Console.paint_recorded (color : Color) (text ending : String) :
    c.recorded.paint color text ending (s, ds) =
      (c.paint color text ending s, ds ++ [.shown color text ending]) := rfl

end

/-! ## Tasks one after the other -/

/-- Something can be shown of a dictionary. -/
theorem exists_shownOf_dict (entries : List (Datum × Datum)) :
    ∃ shown, shownOf (.dict entries) = .ok shown := by
  unfold shownOf
  dsimp only
  split <;> exact ⟨_, rfl⟩

section
variable (c : Console σ) (session : Datum)

/-- What is done for a task: it is posted, and then at most shown. -/
theorem Console.perform_recorded (task : String) (s : σ) (ds : List Deed) :
    ∃ more, c.recorded.perform session task (s, ds) =
        ((c.perform session task s).1, (c.perform session task s).2, ds ++ more) ∧
      posts more = [("/agent", taskData task session)] ∧
      (Answered more → (c.perform session task s).1 = .ok ()) := by
  unfold perform
  rw [post_recorded]
  rcases c.post "/agent" (taskData task session) s with ⟨result, t⟩
  cases result with
  | error crash =>
    refine ⟨[.posted "/agent" _ (.error crash)], rfl, rfl, fun answered => ?_⟩
    obtain ⟨⟨_, h⟩, -⟩ := answered_posted.1 answered
    cases h
  | ok d =>
    dsimp only
    cases hshown : shownOf d with
    | error crash =>
      refine ⟨[.posted "/agent" _ (.ok d)], rfl, rfl, fun answered => ?_⟩
      obtain ⟨⟨entries, h⟩, -⟩ := answered_posted.1 answered
      cases h
      obtain ⟨_, hdict⟩ := exists_shownOf_dict entries
      cases hshown.symm.trans hdict
    | ok shown =>
      dsimp only
      rw [paint_recorded, List.append_assoc]
      exact ⟨[.posted "/agent" _ (.ok d), .shown shown.1 shown.2 "\n"], rfl, rfl, fun _ => rfl⟩

/-- What is done with lines: the tasks among them are posted. -/
theorem Console.converse_recorded (lines : List String) (s : σ) (ds : List Deed) :
    ∃ more, c.recorded.converse session lines (s, ds) =
        ((c.converse session lines s).1, (c.converse session lines s).2, ds ++ more) ∧
      (Answered more → (c.converse session lines s).1 = .ok () ∧
        posts more = (tasks lines).map fun task => ("/agent", taskData task session)) := by
  induction lines generalizing s ds with
  | nil => exact ⟨[_], rfl, fun _ => ⟨rfl, rfl⟩⟩
  | cons line rest ih =>
    have hask : c.recorded.ask (s, ds) = (c.ask s, ds ++ [.shown .blue "\n🧑 Task: " ""]) := rfl
    unfold converse
    dsimp only
    rw [hask]
    cases farewell : isFarewell (Text.strip line) with
    | true => exact ⟨[_], rfl, fun _ => ⟨rfl, by rw [tasks_farewell farewell]; rfl⟩⟩
    | false =>
      rw [if_neg Bool.false_ne_true, if_neg Bool.false_ne_true]
      by_cases empty : Text.strip line = ""
      · rw [if_pos (String.isEmpty_iff.2 empty), if_pos (String.isEmpty_iff.2 empty),
          tasks_empty farewell empty]
        obtain ⟨more, hrest, hmore⟩ := ih (c.ask s) (ds ++ [.shown .blue "\n🧑 Task: " ""])
        rw [hrest, List.append_assoc]
        exact ⟨_, rfl, fun answered => hmore (answered_append.1 answered).2⟩
      · rw [if_neg (mt String.isEmpty_iff.1 empty), if_neg (mt String.isEmpty_iff.1 empty),
          tasks_cons farewell empty]
        obtain ⟨done, hperform, hposts, hdone⟩ := c.perform_recorded session (Text.strip line)
          (c.ask s) (ds ++ [.shown .blue "\n🧑 Task: " ""])
        rw [hperform]
        rcases hrun : c.perform session (Text.strip line) (c.ask s) with ⟨result, t⟩
        rw [hrun] at hdone
        cases result with
        | error crash =>
          refine ⟨_, congrArg (fun ds => (_, _, ds)) (List.append_assoc _ _ _), fun answered => ?_⟩
          cases hdone (answered_append.1 answered).2
        | ok _ =>
          obtain ⟨more, hrest, hmore⟩ := ih t (ds ++ [.shown .blue "\n🧑 Task: " ""] ++ done)
          dsimp only
          rw [hrest, List.append_assoc, List.append_assoc]
          refine ⟨_, rfl, fun answered => ?_⟩
          obtain ⟨hok, htasks⟩ :=
            hmore (answered_append.1 (answered_append.1 answered).2).2
          refine ⟨hok, ?_⟩
          rw [posts_append, posts_append, hposts, htasks]
          rfl

end

/-! ## The session -/

/-- The session that an answer gives, if it is not empty. -/
def session? (d : Datum) : Option Datum := (d.get? "session_id").filter Datum.truthy

/-- An answer gives a session, or a message. -/
theorem sessionOf_dict (entries : List (Datum × Datum)) :
    ∃ message, sessionOf (.dict entries) =
      .ok (match session? (.dict entries) with
        | some session => .ok session
        | none => .error message) := by
  refine ⟨(((Datum.dict entries).get? "error").getD (.str "unknown error")).display, ?_⟩
  unfold session? sessionOf
  dsimp only
  cases (Datum.dict entries).get? "session_id" with
  | none => rfl
  | some session =>
    rw [Option.getD_some, Option.filter_some]
    cases session.truthy <;> rfl

/-- What is done by a shell: it asks for a session, and if it is given one, the tasks among the lines
are posted with that. -/
theorem Console.run_recorded (c : Console σ) (lines : List String) (s : σ) :
    ∃ more, c.recorded.run lines (s, []) = ((c.run lines s).1, (c.run lines s).2,
        .posted "/sessions" (.dict []) (c.post "/sessions" (.dict []) s).1 :: more) ∧
      ∀ entries, (c.post "/sessions" (.dict []) s).1 = .ok (.dict entries) → Answered more →
        (c.run lines s).1 = .ok () ∧
        match session? (.dict entries) with
        | some session =>
          posts more = (tasks lines).map fun task => ("/agent", taskData task session)
        | none => ∃ message : String,
          more = [.shown .red (errorLine s!"Failed to create a session: {message}") "\n"] := by
  unfold run
  rw [post_recorded]
  rcases c.post "/sessions" (.dict []) s with ⟨result, t⟩
  cases result with
  | error crash => exact ⟨[], rfl, nofun⟩
  | ok d =>
    dsimp only
    cases hsession : sessionOf d with
    | error crash =>
      refine ⟨[], rfl, fun entries h => ?_⟩
      cases h
      obtain ⟨_, hdict⟩ := sessionOf_dict entries
      cases hsession.symm.trans hdict
    | ok given =>
      cases given with
      | error message =>
        refine ⟨[_], rfl, fun entries h _ => ⟨rfl, ?_⟩⟩
        cases h
        obtain ⟨_, hdict⟩ := sessionOf_dict entries
        rw [hdict] at hsession
        split at hsession
        · cases hsession
        · exact ⟨message, rfl⟩
      | ok session =>
        dsimp only
        rw [paint_recorded]
        obtain ⟨more, hrun, hmore⟩ := c.converse_recorded session lines
          (c.paint .green "\n🌙 luagent shell - type 'exit' or 'quit' to exit" "\n" t)
          [.posted "/sessions" (.dict []) (.ok d),
            .shown .green "\n🌙 luagent shell - type 'exit' or 'quit' to exit" "\n"]
        rw [List.nil_append, List.singleton_append, hrun]
        refine ⟨.shown .green _ _ :: more, rfl, fun entries h answered => ?_⟩
        cases h
        obtain ⟨hok, htasks⟩ := hmore answered
        obtain ⟨_, hdict⟩ := sessionOf_dict entries
        rw [hdict] at hsession
        refine ⟨hok, ?_⟩
        split at hsession
        · cases hsession
          exact htasks
        · cases hsession

/-- What posting and showing keep on a console. -/
structure Console.Keeps (c : Console σ) (P : σ → Prop) : Prop where
  post : ∀ endpoint data s, P s → P (c.post endpoint data s).2
  paint : ∀ color text ending s, P s → P (c.paint color text ending s)

section
variable {c : Console σ} {P : σ → Prop} {s : σ}

theorem Console.Keeps.perform (keeps : c.Keeps P) (session : Datum) (task : String) (hs : P s) :
    P (c.perform session task s).2 := by
  have hpost := keeps.post "/agent" (taskData task session) s hs
  unfold Console.perform
  generalize c.post "/agent" (taskData task session) s = posted at hpost ⊢
  obtain ⟨result, t⟩ := posted
  cases result with
  | error crash => exact hpost
  | ok d =>
    dsimp only
    cases shownOf d with
    | error crash => exact hpost
    | ok shown => exact keeps.paint _ _ _ _ hpost

theorem Console.Keeps.converse (keeps : c.Keeps P) (session : Datum) (lines : List String)
    (hs : P s) : P (c.converse session lines s).2 := by
  induction lines generalizing s with
  | nil => exact keeps.paint _ _ _ _ hs
  | cons line rest ih =>
    have hask : P (c.ask s) := keeps.paint _ _ _ _ hs
    have hperform := keeps.perform session (Text.strip line) hask
    unfold Console.converse
    dsimp only
    split
    · exact hask
    · split
      · exact ih hask
      · generalize c.perform session (Text.strip line) (c.ask s) = performed at hperform ⊢
        obtain ⟨result, t⟩ := performed
        cases result with
        | error crash => exact hperform
        | ok _ => exact ih hperform

/-- A shell keeps what posting and showing keep. -/
theorem Console.Keeps.run (keeps : c.Keeps P) (lines : List String) (hs : P s) :
    P (c.run lines s).2 := by
  have hpost := keeps.post "/sessions" (.dict []) s hs
  unfold Console.run
  generalize c.post "/sessions" (.dict []) s = posted at hpost ⊢
  obtain ⟨result, t⟩ := posted
  cases result with
  | error crash => exact hpost
  | ok d =>
    dsimp only
    cases sessionOf d with
    | error crash => exact hpost
    | ok given =>
      cases given with
      | error message => exact keeps.paint _ _ _ _ hpost
      | ok session => exact keeps.converse session lines (keeps.paint _ _ _ _ hpost)

/-- Where posts are answered by dictionaries, all posts of a record have been. -/
theorem Console.keeps_answered
    (answers : ∀ endpoint data s, ∃ entries, (c.post endpoint data s).1 = .ok (.dict entries)) :
    c.recorded.Keeps fun s => Answered s.2 where
  post endpoint data s answered := by
    have hnew : Answered [.posted endpoint data (c.post endpoint data s.1).1] :=
      answered_posted.2 ⟨answers endpoint data s.1, nofun⟩
    exact answered_append.2 ⟨answered, hnew⟩
  paint color text ending s answered := answered_append.2 ⟨answered, nofun⟩

end

/-- A console on which posts are answered by dictionaries in order. -/
def answering : Console (List (List (Datum × Datum))) where
  post _ _ s := (.ok (.dict (s.headD [])), s.tail)
  paint _ _ _ s := s

end ScriptAgent.Shell
