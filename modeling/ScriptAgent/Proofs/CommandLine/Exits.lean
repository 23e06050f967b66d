import ScriptAgent.Proofs.Agent.Endings
import ScriptAgent.Proofs.CommandLine.Requests

/-!
# How the program exits after a task

A command line asks for a task (`Asks`), and the program is to end honestly: with the status zero
after printing the answer, or with another one after a message about what has failed (`Honest`). It
does exactly if the budget is not negative and each execution of the run returns
(`exits_honestly_iff`). In that case it prints nothing else, since a run prints nothing
(`Agent.run_silent`).

Otherwise it ends without a status and without a message. The agent is made before the failures of
a run are looked at, so a negative budget escapes (`exit_escapes`), and so does what a script makes
an access of the host raise.
-/

namespace ScriptAgent.CommandLine

/-! ## Honest ends -/

/-- A command line asks for a task: it can be read, and its arguments are to run a task that is not
empty. -/
structure Asks (words : List String) (a : Arguments) : Prop where
  read : ∃ values, parse specs words = .ok (.values values) ∧ Arguments.ofValues values = a
  mode : a.mode = .run
  task : a.task ≠ ""

/-- Whether the budget of a request has too many digits to be read. -/
def IsOversized (budget : Option Int) : Prop :=
  ∃ n ∈ budget, Text.maxDigits < (Nat.toDigits 10 n.natAbs).length

/-- The surroundings in which a task is run. -/
def started (w : World) : World := w.log logger .info s!"Starting luagent [{Mode.run.text} mode]"

/-- The agent that runs a task with a model. -/
def agentFor (settings : Settings) (model : Model.Provider) (budget : Option Int) :
    Except Agent.Unusable Agent :=
  Agent.make settings model Agent.defaultTools
    (match budget with
      | some n => .int n
      | none => .none) .none

/-- How the run of a task ends; none if the agent does not admit the budget, so that there is no
run. -/
def outcome (settings : Settings) (model : Model.Provider) (a : Arguments) (w : World) :
    Option Agent.Ending :=
  match agentFor settings model a.budget with
  | .error _ => none
  | .ok agent => some (agent.run a.task Agent.never (started w)).1

/-- Nothing escapes from the run of a task: its budget is not negative, and each of its executions
returns. -/
structure Contained (settings : Settings) (model : Model.Provider) (a : Arguments) (w : World) :
    Prop where
  budget : 0 ≤ a.budget.getD settings.maxIterations
  returns : ∀ agent, agentFor settings model a.budget = .ok agent →
    agent.EachReturns a.task Agent.never (started w)

/-- An error is reported between two surroundings: nothing but a message about it is printed. -/
def Reported (message : String) (w w' : World) : Prop :=
  w'.printed = w.printed ++ (w.terminal.paint .red (errorLine message) ++ "\n")

/-- The program ends honestly between two surroundings: after an answer with the status zero, having
printed exactly the answer, and otherwise with another status, having reported the error. -/
inductive Honest (w w' : World) : Option Agent.Ending → Finish → Prop
  | answered {text : String} {finish : Finish} : finish.status? = some 0 →
      w'.printed = w.printed ++ (w.terminal.paint .yellow text ++ "\n") →
      Honest w w' (some (.answered text)) finish
  | failed {ending : Agent.Ending} {finish : Finish} {status : Nat} :
      (∀ text, ending ≠ .answered text) → finish.status? = some status → status ≠ 0 →
      Reported ending.message w w' → Honest w w' (some ending) finish
  /-- There is no run. -/
  | unusable {finish : Finish} {status : Nat} : finish.status? = some status → status ≠ 0 →
      (finish.errorText ≠ "" ∨ ∃ message, Reported message w w') → Honest w w' none finish

/-- An honest end has a status. -/
theorem Honest.status {outcome : Option Agent.Ending} {finish : Finish} {w w' : World}
    (honest : Honest w w' outcome finish) : finish.status? ≠ none := by
  cases honest with
  | answered h | failed _ h | unusable h => exact h ▸ nofun

/-- What is wrong with a command line is said. -/
theorem errorText_misused (fault : UsageFault) : (Finish.misused fault).errorText ≠ "" := by
  intro h
  have hlist := congrArg String.toList h
  simp only [Finish.errorText, programName, String.toList_append] at hlist
  cases hlist

/-! ## Requests -/

section
variable {provider : String} (hprovider : provider.toLower ∈ Model.Provider.Kind.all.map Prod.fst)
include hprovider

/-- A request asks for its task, unless its budget has too many digits. -/
theorem asks_request {task : String} (htask : task ≠ "") {budget : Option Int}
    (hbudget : ¬ IsOversized budget) :
    Asks (request task provider budget) ⟨.run, task, some provider.toLower, budget, none⟩ where
  read := parse_request hprovider task fun n hn => Nat.not_lt.1 fun h => hbudget ⟨n, hn, h⟩
  mode := rfl
  task := htask

/-- A request whose budget has too many digits is reported. -/
theorem honest_oversized (task : String) {budget : Option Int} (hbudget : IsOversized budget)
    (load : Loader) (settings : Settings) (w : World) :
    Honest w (run load (request task provider budget) settings w).2.2 none
      (run load (request task provider budget) settings w).1 := by
  obtain ⟨n, hn, hlong⟩ := hbudget
  cases hn
  rw [run, parse_request_some hprovider, if_neg (Nat.not_le.2 hlong)]
  exact .unusable rfl (Nat.succ_ne_zero 1) (.inl (errorText_misused _))

/-- A provider that is named is loaded. -/
theorem standardLoader_ok {a : Arguments} (ha : a.provider = some provider.toLower)
    (settings : Settings) : ∃ model, standardLoader (applyArguments a settings) = .ok model := by
  have hknown : ∀ name ∈ Model.Provider.Kind.all.map Prod.fst,
      (Model.Provider.Kind.all.lookup name.toLower).isSome = true := by decide +kernel
  obtain ⟨kind, hkind⟩ := Option.isSome_iff_exists.1 (hknown _ hprovider)
  have hname : (applyArguments a settings).provider = provider.toLower := by
    rw [applyArguments, ha]
    rfl
  unfold standardLoader Model.Provider.load
  dsimp only
  rw [if_pos (show "".isEmpty = true from rfl), hname, hkind]
  cases kind <;> exact ⟨_, rfl⟩

end

/-! ## Running a task -/

section
variable {load : Loader} {words : List String} {a : Arguments} {settings : Settings} {w : World}
  {model : Model.Provider}

/-- A command line that asks for a task has it run. -/
theorem run_of_asks (asks : Asks words a) (load : Loader) (settings : Settings) (w : World) :
    run load words settings w =
      ((runTask load (applyArguments a settings) a.task a.budget (started w)).1,
        applyArguments a settings,
        (runTask load (applyArguments a settings) a.task a.budget (started w)).2) := by
  obtain ⟨⟨values, hparse, hvalues⟩, hmode, htask⟩ := asks
  have hfull : ¬ a.task.isEmpty = true := mt String.isEmpty_iff.1 htask
  rw [run, hparse]
  dsimp only
  rw [hvalues, perform, hmode]
  dsimp only
  rw [if_neg hfull]
  rfl

/-- The agent that runs a task is a new one with the default tools. There is none for a negative
budget. -/
theorem agentFor_eq (settings : Settings) (model : Model.Provider) (budget : Option Int) :
    agentFor settings model budget =
      if budget.getD settings.maxIterations < 0 then
        .error (.options [⟨[.name "max_iterations"], .tooSmall 0⟩])
      else
        .ok ⟨settings.agentName, (budget.getD settings.maxIterations).toNat, Agent.defaultTools,
          model, .empty, .empty⟩ :=
  Agent.make_defaultTools settings model budget

/-- The agent that runs a task has a budget that is not negative, the default tools, and an empty
sandbox. -/
theorem agentFor_eq_ok {agent : Agent} {budget : Option Int}
    (hagent : agentFor settings model budget = .ok agent) :
    0 ≤ budget.getD settings.maxIterations ∧ agent.tools = Agent.defaultTools ∧
      agent.sandbox = .empty := by
  rw [agentFor_eq] at hagent
  split at hagent
  · cases hagent
  · next h =>
    cases hagent
    exact ⟨Int.not_lt.1 h, rfl, rfl⟩

/-- Running a task prints nothing by itself. -/
theorem silent_run {agent : Agent} {budget : Option Int}
    (hagent : agentFor settings model budget = .ok agent) (task : String) (w : World) :
    w.Silent (agent.run task Agent.never (started w)).2.2 := by
  obtain ⟨-, htools, hsandbox⟩ := agentFor_eq_ok hagent
  have hstarted : w.Silent (started w) := w.silent_log _ _ _
  exact hstarted.trans (Agent.run_silent hsandbox (started w)
    (htools ▸ Agent.respects_defaultTools _) task Agent.never)

/-- What comes of a task, once there is a model for it. -/
theorem runTask_of_loaded (loads : load settings = .ok model) (task : String)
    (budget : Option Int) (w : World) :
    runTask load settings task budget w =
      match agentFor settings model budget with
      | .error reason => (.failed (.unusable reason), w)
      | .ok agent =>
        report (agent.run task Agent.never w).1 (agent.run task Agent.never w).2.2 := by
  unfold runTask
  rw [loads]
  rfl

/-- What is reported of a run is honest if it has ended with an answer, a used-up budget or a
failure of the model, and has printed nothing. -/
theorem honest_report {ending : Agent.Ending} {budget : Nat} {w' : World} (silent : w.Silent w')
    (hending : (∃ text, ending = .answered text) ∨ ending = .exhausted budget ∨
      ∃ message, ending = .refused message) :
    Honest w (report ending w').2 (some ending) (report ending w').1 := by
  have hpaint : ∀ color text, (w'.paint color text "\n").printed =
      w.printed ++ (w.terminal.paint color text ++ "\n") := fun color text => by
    rw [World.printed_paint, silent.printed, silent.terminal]
  rcases hending with ⟨text, rfl⟩ | rfl | ⟨message, rfl⟩
  · exact .answered rfl (hpaint .yellow text)
  · exact .failed nofun rfl Nat.one_ne_zero (hpaint .red _)
  · exact .failed nofun rfl Nat.one_ne_zero (hpaint .red _)

section
variable {finish : Finish} {settings' : Settings} {w' : World}

/-- If nothing escapes from the run of a task, the program ends honestly. -/
theorem honest_of_contained (asks : Asks words a)
    (loads : load (applyArguments a settings) = .ok model)
    (hrun : run load words settings w = (finish, settings', w'))
    (contained : Contained (applyArguments a settings) model a w) :
    Honest w w' (outcome (applyArguments a settings) model a w) finish := by
  rw [run_of_asks asks, runTask_of_loaded loads] at hrun
  rcases hagent : agentFor (applyArguments a settings) model a.budget with reason | agent
  · rw [agentFor_eq, if_neg (Int.not_lt.2 contained.budget)] at hagent
    cases hagent
  · rw [hagent] at hrun
    rw [outcome, hagent]
    cases hrun
    exact honest_report (silent_run hagent a.task w)
      (Agent.run_ending (contained.returns agent hagent))

/-- If something escapes from the run of a task, the program ends without a status, and prints
nothing. -/
theorem escapes_of_not_contained (asks : Asks words a)
    (loads : load (applyArguments a settings) = .ok model)
    (hrun : run load words settings w = (finish, settings', w'))
    (escapes : ¬ Contained (applyArguments a settings) model a w) :
    finish.status? = none ∧ w'.printed = w.printed := by
  rw [run_of_asks asks, runTask_of_loaded loads] at hrun
  rcases hagent : agentFor (applyArguments a settings) model a.budget with reason | agent
  · rw [hagent] at hrun
    cases hrun
    exact ⟨rfl, (w.silent_log _ _ _).printed⟩
  · have returns : ¬ agent.EachReturns a.task Agent.never (started w) := fun returns =>
      escapes ⟨(agentFor_eq_ok hagent).1, fun agent' h => by
        cases hagent.symm.trans h
        exact returns⟩
    obtain ⟨failure, hbroken⟩ : ∃ failure,
        (agent.run a.task Agent.never (started w)).1 = .broken failure := by
      simpa [Agent.eachReturns_iff] using returns
    rw [hagent] at hrun
    dsimp only at hrun
    rw [hbroken] at hrun
    cases hrun
    exact ⟨rfl, (silent_run hagent a.task w).printed⟩

/-- A command line that asks for a task ends honestly exactly if nothing escapes from its run.
Otherwise the program ends without a status and without having printed anything. -/
theorem honest_iff (asks : Asks words a) (loads : load (applyArguments a settings) = .ok model)
    (hrun : run load words settings w = (finish, settings', w')) :
    (Honest w w' (outcome (applyArguments a settings) model a w) finish ↔
        Contained (applyArguments a settings) model a w) ∧
      (finish.status? = none ↔ ¬ Contained (applyArguments a settings) model a w) ∧
      (finish.status? = none → w'.printed = w.printed) := by
  by_cases contained : Contained (applyArguments a settings) model a w
  · have honest := honest_of_contained asks loads hrun contained
    exact ⟨iff_of_true honest contained, iff_of_false honest.status (not_not_intro contained),
      fun h => absurd h honest.status⟩
  · obtain ⟨hnone, hprinted⟩ := escapes_of_not_contained asks loads hrun contained
    exact ⟨iff_of_false (fun honest => honest.status hnone) contained,
      iff_of_true hnone contained, fun _ => hprinted⟩

/-- If a command line that asks for a task ends without a status, then nothing has been printed. -/
theorem printed_of_escape (asks : Asks words a)
    (loads : load (applyArguments a settings) = .ok model)
    (hnone : (run load words settings w).1.status? = none) :
    (run load words settings w).2.2.printed = w.printed :=
  (honest_iff asks loads (Prod.ext rfl (Prod.ext rfl rfl))).2.2 hnone

end

/-- How the program ends after each request for a task, with whatever model it is given. A budget
with too many digits is reported, and every other request asks for its task, with a provider that
is loaded. Every command line that asks for a task ends honestly exactly if the budget is not
negative and each execution of the run returns, and otherwise without a status and without a
message. -/
theorem exits_honestly_iff (settings : Settings) (w : World) :
    (∀ (task provider : String) (budget : Option Int), task ≠ "" →
      provider.toLower ∈ Model.Provider.Kind.all.map Prod.fst →
        (IsOversized budget → ∀ load,
          Honest w (run load (request task provider budget) settings w).2.2 none
            (run load (request task provider budget) settings w).1) ∧
        (¬ IsOversized budget →
          Asks (request task provider budget)
            ⟨.run, task, some provider.toLower, budget, none⟩) ∧
        ∃ model, standardLoader (applyArguments
          ⟨.run, task, some provider.toLower, budget, none⟩ settings) = .ok model) ∧
    ∀ words a, Asks words a → ∀ load model, load (applyArguments a settings) = .ok model →
      ∀ finish settings' w', run load words settings w = (finish, settings', w') →
        (Honest w w' (outcome (applyArguments a settings) model a w) finish ↔
          Contained (applyArguments a settings) model a w) ∧
        (finish.status? = none ↔ ¬ Contained (applyArguments a settings) model a w) ∧
        (finish.status? = none → w'.printed = w.printed) :=
  ⟨fun task _ _ htask hprovider => ⟨fun hlong load => honest_oversized hprovider task hlong load
      settings w, asks_request hprovider htask, standardLoader_ok hprovider rfl settings⟩,
    fun _ _ asks _ _ loads _ _ _ hrun => honest_iff asks loads hrun⟩

end

theorem toLower_mock : "mock".toLower = "mock" := by decide +kernel

theorem mock_mem : "mock".toLower ∈ Model.Provider.Kind.all.map Prod.fst := by
  rw [toLower_mock]
  decide

theorem not_isOversized {n : Int} (hn : n.natAbs = 1) : ¬ IsOversized (some n) := by
  rintro ⟨m, hm, hlong⟩
  cases hm
  rw [hn] at hlong
  exact absurd hlong (by decide)

/-- The arguments of a request for a task with a budget. -/
def argumentsFor (n : Int) : Arguments := ⟨.run, "t", some "mock", some n, none⟩

/-- A model that gives one script. -/
def speaking (code : String) : Model.Provider := .scripted (.ofReplies [.reply (.str code)])

/-- The end of the program after a task with one iteration, in which a script is given. -/
def spoken (code : String) : Finish × Settings × World :=
  run (fun _ => .ok (speaking code)) (request "t" "mock" (some 1)) .standard .empty

/-- An answer is printed, and the program exits with the status zero. -/
theorem exits_honestly_iff_answered :
    ("t" ≠ "" ∧ "mock".toLower ∈ Model.Provider.Kind.all.map Prod.fst ∧
        ¬ IsOversized (some 1)) ∧
      Asks (request "t" "mock" (some 1)) (argumentsFor 1) ∧
      Contained (applyArguments (argumentsFor 1) .standard) (speaking "final_answer('42')")
        (argumentsFor 1) .empty ∧
      Honest .empty (spoken "final_answer('42')").2.2
        (outcome (applyArguments (argumentsFor 1) .standard) (speaking "final_answer('42')")
          (argumentsFor 1) .empty) (spoken "final_answer('42')").1 ∧
      (spoken "final_answer('42')").1.status? = some 0 ∧
      (spoken "final_answer('42')").2.2.printed = "42\n" := by
  have hall := exits_honestly_iff .standard .empty
  have asks : Asks (request "t" "mock" (some 1)) (argumentsFor 1) := by
    have := (hall.1 "t" "mock" (some 1) (by decide) mock_mem).2.1 (not_isOversized rfl)
    rwa [toLower_mock] at this
  have hstatus : (spoken "final_answer('42')").1.status? = some 0 := by decide +kernel
  have hprinted : (spoken "final_answer('42')").2.2.printed = "42\n" := by decide +kernel
  have hrun : spoken "final_answer('42')" = ((spoken "final_answer('42')").1,
      (spoken "final_answer('42')").2.1, (spoken "final_answer('42')").2.2) :=
    Prod.ext rfl (Prod.ext rfl rfl)
  obtain ⟨hhonest, hescapes, -⟩ := hall.2 _ _ asks (fun _ => .ok (speaking "final_answer('42')"))
    (speaking "final_answer('42')") rfl _ _ _ hrun
  have contained : Contained (applyArguments (argumentsFor 1) .standard)
      (speaking "final_answer('42')") (argumentsFor 1) .empty := by
    by_contra h
    rw [hescapes.2 h] at hstatus
    cases hstatus
  exact ⟨⟨by decide, mock_mem, not_isOversized rfl⟩, asks, contained, hhonest.2 contained, hstatus,
    hprinted⟩

/-- A script that makes each access to a global that is not there raise. -/
def barring : String := "setmetatable(_G, \x7b__index = function() error('no') end\x7d)"

/-- The program does not always end honestly after a task: a negative budget, and a script that
makes an access of the host raise, end it without a status and without a message. -/
theorem exit_escapes :
    (Asks (request "t" "mock" (some (-1))) (argumentsFor (-1)) ∧
      (run standardLoader (request "t" "mock" (some (-1))) .standard .empty).1.status? = none ∧
      (run standardLoader (request "t" "mock" (some (-1))) .standard .empty).2.2.printed = "") ∧
    Asks (request "t" "mock" (some 1)) (argumentsFor 1) ∧
      (spoken barring).1.status? = none ∧ (spoken barring).2.2.printed = "" := by
  have asks : ∀ n : Int, n.natAbs = 1 → Asks (request "t" "mock" (some n)) (argumentsFor n) := by
    intro n hn
    have := asks_request mock_mem (show "t" ≠ "" by decide) (not_isOversized hn)
    rwa [toLower_mock] at this
  have hnegative :
      (run standardLoader (request "t" "mock" (some (-1))) .standard .empty).1.status? = none := by
    decide +kernel
  have hbarring : (spoken barring).1.status? = none := by decide +kernel
  obtain ⟨_, loads⟩ := standardLoader_ok mock_mem (a := argumentsFor (-1))
    (congrArg some toLower_mock.symm) .standard
  exact ⟨⟨asks (-1) rfl, hnegative, printed_of_escape (asks (-1) rfl) loads hnegative⟩, asks 1 rfl,
    hbarring, printed_of_escape (asks 1 rfl) rfl hbarring⟩

end ScriptAgent.CommandLine
