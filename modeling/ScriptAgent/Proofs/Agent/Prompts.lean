import ScriptAgent.Proofs.Agent.History
import ScriptAgent.Proofs.Text.Order
import ScriptAgent.Sandbox.Report

/-!
# Prompts of agents

What the prompts of an agent show. A prompt is an unchanging text, the history of the conversation
and another unchanging text, and from one call of the model to the next the history grows at its end
(`prompts_grow`), within a run and from one run to the next. The order in which tools are bound has
no part in it.

What a script that goes on has printed is in the next prompt as a whole; of a script that fails only
the error is (`next_prompt_shows`).
-/

namespace ScriptAgent.Agent

open Text (byName_sorted byName_strict byName_eq_of_perm)

/-! ## Lines -/

/-- Lines after others. -/
theorem lines_append {ls ms : List String} (hl : ls ≠ []) (hm : ms ≠ []) :
    lines (ls ++ ms) = lines ls ++ "\n" ++ lines ms :=
  String.intercalate_append_of_ne_nil hl hm

/-- A line is a part of the whole. -/
theorem lines_of_mem {l : String} {ls : List String} (h : l ∈ ls) :
    ∃ before after, lines ls = before ++ l ++ after := by
  obtain ⟨before, after, rfl⟩ := List.append_of_mem h
  have hcons : ∃ after', lines (l :: after) = l ++ after' := by
    cases after with
    | nil => exact ⟨"", by rw [String.append_empty]; rfl⟩
    | cons m after => exact ⟨"\n" ++ lines (m :: after), by
        rw [← String.append_assoc]; exact String.intercalate_cons_cons⟩
  obtain ⟨after', hafter⟩ := hcons
  cases before with
  | nil => exact ⟨"", after', by rw [List.nil_append, hafter, String.empty_append]⟩
  | cons m before =>
    refine ⟨lines (m :: before) ++ "\n", after', ?_⟩
    rw [lines_append (List.cons_ne_nil m before) (List.cons_ne_nil l after), hafter,
      String.append_assoc, String.append_assoc, String.append_assoc]

/-- A message in a conversation is shown in its prompts. -/
theorem prompt_of_mem (tools : List (String × Tool)) {c : Conversation} {m : Message}
    (h : m ∈ c.messages) : ∃ before after, prompt tools c = before ++ m.render ++ after := by
  obtain ⟨before, after, hc⟩ := lines_of_mem (List.mem_map_of_mem (f := Message.render) h)
  refine ⟨opening tools ++ before, after ++ closing, ?_⟩
  have hrender : c.render = before ++ m.render ++ after := hc
  rw [prompt, hrender]
  simp only [String.append_assoc]

/-- The part of a prompt before the history is made of lines, one of which is the block of tools. -/
theorem exists_opening_eq : ∃ above below : List String, above ≠ [] ∧ below ≠ [] ∧ ∀ tools,
    opening tools =
      lines (above ++ ([toolsBlock tools] ++ (below ++ ["Conversation history:", ""]))) :=
  ⟨[_, _, _], [_, _, _], List.cons_ne_nil _ _, List.cons_ne_nil _ _, fun _ => rfl⟩

/-- The fixed parts of a prompt: only the block of tools and the history are not the same in all
prompts. -/
theorem exists_prompt_eq : ∃ before after : String, ∀ tools c,
    prompt tools c = before ++ toolsBlock tools ++ after ++ "Conversation history:\n" ++ c.render ++
      closing := by
  obtain ⟨above, below, habove, hbelow, hopening⟩ := exists_opening_eq
  have hheading : lines ["Conversation history:", ""] = "Conversation history:\n" := by
    decide +kernel
  have hone : ∀ l, lines [l] = l := fun _ => rfl
  refine ⟨lines above ++ "\n", "\n" ++ lines below ++ "\n", fun tools c => ?_⟩
  have hne : ∀ (l : String) (ls : List String), [l] ++ ls ≠ [] := List.cons_ne_nil
  rw [prompt, hopening, lines_append habove (hne _ _),
    lines_append (List.cons_ne_nil _ _) (List.append_ne_nil_of_left_ne_nil hbelow _),
    lines_append hbelow (List.cons_ne_nil _ _), hheading, hone]
  simp only [String.append_assoc]

/-! ## Tools -/

/-- The description of a tool is not empty: it begins with a dash. -/
theorem describe_ne_empty (t : Tool) (name : String) : t.describe name ≠ "" := by
  intro h
  have hlist := congrArg String.toList h
  simp [Tool.describe] at hlist

/-- The block of tools has one entry for each of them. -/
theorem toolsBlock_eq (tools : List (String × Tool)) :
    toolsBlock tools =
      if (sortTools tools).isEmpty then "-- (no tools available)"
      else lines ((sortTools tools).map fun (name, t) => t.describe name) := by
  unfold toolsBlock describeTools
  cases h : sortTools tools with
  | nil => rfl
  | cons e rest =>
    obtain ⟨before, after, hlines⟩ := lines_of_mem
      (List.mem_cons_self (a := e.2.describe e.1) (l := rest.map fun (name, t) => t.describe name))
    have hne : (lines ((e :: rest).map fun (name, t) => t.describe name)).isEmpty = false := by
      rw [Bool.eq_false_iff, ne_eq, String.isEmpty_iff]
      intro hempty
      rw [List.map_cons, hlines, String.append_eq_empty_iff, String.append_eq_empty_iff] at hempty
      exact describe_ne_empty _ _ hempty.1.2
    dsimp only
    rw [hne]
    rfl

/-! ## Successive prompts -/

/-- A call of the model: the conversation at that time, and the prompt. -/
structure Prompting where
  messages : List Message
  prompt : String
deriving DecidableEq

/-- The calls of the model in a history, after a conversation. -/
def promptings : List Message → List Happening → List Prompting
  | _, [] => []
  | ms, .said m :: rest => promptings (ms ++ [m]) rest
  | ms, .called (.generated prompt _) :: rest => ⟨ms, prompt⟩ :: promptings ms rest
  | ms, .called (.executed ..) :: rest => promptings ms rest

/-- Messages are in the conversation of the calls after them. -/
theorem promptings_said (ms ns : List Message) (rest : List Happening) :
    promptings ms (ns.map .said ++ rest) = promptings (ms ++ ns) rest := by
  induction ns generalizing ms with
  | nil => rw [List.append_nil]; rfl
  | cons n ns ih =>
    rw [List.map_cons, List.cons_append, promptings, ih, List.append_assoc, List.singleton_append]

/-- The calls of the model in a part of a history and in the rest of it. -/
theorem promptings_append (ms : List Message) (hs rest : List Happening) :
    promptings ms (hs ++ rest) =
      promptings ms hs ++ promptings (ms ++ hs.filterMap Happening.message?) rest := by
  induction hs generalizing ms with
  | nil => rw [List.filterMap_nil, List.append_nil]; rfl
  | cons happening hs ih =>
    match happening with
    | .said m =>
      have hm : (Happening.said m :: hs).filterMap Happening.message? =
        m :: hs.filterMap Happening.message? := rfl
      rw [List.cons_append, promptings, promptings, ih, hm, List.append_assoc,
        List.singleton_append]
    | .called (.executed ..) => exact ih ms
    | .called (.generated prompt _) => exact congrArg (⟨ms, prompt⟩ :: ·) (ih ms)

/-- The conversation at a call of the model goes on from the one before. -/
theorem messages_of_mem_promptings {ms : List Message} {hs : List Happening} {x : Prompting}
    (h : x ∈ promptings ms hs) : ∃ more, x.messages = ms ++ more := by
  induction hs generalizing ms with
  | nil => cases h
  | cons happening hs ih =>
    match happening with
    | .said m =>
      obtain ⟨more, hx⟩ := ih h
      exact ⟨m :: more, by rw [hx, List.append_assoc]; rfl⟩
    | .called (.executed ..) => exact ih h
    | .called (.generated ..) =>
      rcases List.mem_cons.1 h with rfl | h
      · exact ⟨[], (List.append_nil _).symm⟩
      · exact ih h

section
variable {prompt : Conversation → String} {stage stage' : Stage} {ms ms' : List Message}
  {hs rest : List Happening} {x y : Prompting}

/-- A deed adds its messages to the conversation. -/
theorem Deed.messages (h : Deed prompt stage ms hs stage' ms') :
    ms' = ms ++ hs.filterMap Happening.message? := by
  cases h with
  | task ms text | script ms code => rfl
  | pause ms | stop ms | failure ms | breakdown ms | answer ms =>
    exact (List.append_nil ms).symm
  | reaction ms code e outcome =>
    exact congrArg (ms ++ ·)
      (Happening.messages_of [.executed code (.ok e)] (Round.reaction e)).symm

/-- A deed calls the model at most once, with the prompt of the conversation. Then either the run is
over or a message is added. -/
theorem Deed.promptings_cases (h : Deed prompt stage ms hs stage' ms') :
    promptings ms hs = [] ∨
      promptings ms hs = [⟨ms, prompt ⟨ms⟩⟩] ∧ stage = .asking ∧
        (stage' = .idle ∧ ms' = ms ∨ ∃ m, ms' = ms ++ [m]) := by
  cases h with
  | task | pause | stop | breakdown | answer => exact .inl rfl
  | reaction ms code e outcome =>
    have hsaid := promptings_said ms (Round.reaction e) []
    rw [List.append_nil] at hsaid
    exact .inl hsaid
  | failure ms g fails => exact .inr ⟨rfl, rfl, .inl ⟨rfl, rfl⟩⟩
  | script ms code => exact .inr ⟨rfl, rfl, .inr ⟨_, rfl⟩⟩

/-- The calls of the model in a story that begins with a deed. -/
theorem Deed.promptings_append (h : Deed prompt stage ms hs stage' ms') (rest : List Happening) :
    promptings ms (hs ++ rest) = promptings ms hs ++ promptings ms' rest := by
  rw [Agent.promptings_append, h.messages]

/-- Between two runs, the next call of the model comes after the task of another run. -/
theorem Story.idle_promptings (h : Story prompt .idle ms hs) (hx : x ∈ promptings ms hs) :
    ∃ task more, x.messages = ms ++ ⟨.user, task⟩ :: more := by
  generalize hidle : Stage.idle = stage at h
  induction h with
  | done => cases hx
  | step deed next ih =>
    cases hidle
    rw [deed.promptings_append] at hx
    cases deed with
    | task ms text =>
      obtain ⟨more, hx⟩ := messages_of_mem_promptings hx
      exact ⟨text, more, by rw [hx, List.append_assoc]; rfl⟩
    | pause ms => exact ih hx rfl

/-- Each prompt of a story is that of the conversation at its call. -/
theorem Story.prompt_eq (h : Story prompt stage ms hs) (hx : x ∈ promptings ms hs) :
    x.prompt = prompt ⟨x.messages⟩ := by
  induction h with
  | done => cases hx
  | step deed next ih =>
    rw [deed.promptings_append] at hx
    rcases List.mem_append.1 hx with hx | hx
    · rcases deed.promptings_cases with hnone | ⟨hone, -⟩
      · rw [hnone] at hx
        cases hx
      · rw [hone] at hx
        rw [List.mem_singleton.1 hx]
    · exact ih hx

/-- From one call of the model in a story to any later one, messages are added. -/
theorem Story.promptings_grow (h : Story prompt stage ms hs) :
    (promptings ms hs).Pairwise fun x y => ∃ m more, y.messages = x.messages ++ m :: more := by
  induction h with
  | done => exact .nil
  | step deed next ih =>
    rw [deed.promptings_append]
    rcases deed.promptings_cases with hnone | ⟨hone, -, hnext⟩
    · rw [hnone]
      exact ih
    · rw [hone]
      refine List.pairwise_cons.2 ⟨fun y hy => ?_, ih⟩
      rcases hnext with ⟨rfl, rfl⟩ | ⟨m, rfl⟩
      · obtain ⟨task, more, hy⟩ := next.idle_promptings hy
        exact ⟨_, more, hy⟩
      · obtain ⟨more, hy⟩ := messages_of_mem_promptings hy
        exact ⟨m, more, by rw [hy, List.append_assoc]; rfl⟩

end

/-- Later messages of a conversation are shown after the earlier ones. -/
theorem render_append {ms ns : List Message} (hm : ms ≠ []) (hn : ns ≠ []) :
    (⟨ms ++ ns⟩ : Conversation).render =
      (⟨ms⟩ : Conversation).render ++ "\n" ++ lines (ns.map Message.render) := by
  unfold Conversation.render
  rw [List.map_append]
  exact lines_append (mt List.map_eq_nil_iff.1 hm) (mt List.map_eq_nil_iff.1 hn)

/-- The prompts of an agent grow at the end of their history. For every sequence of its runs and any
two calls of the model in them, the later prompt is the earlier one with the messages that have been
added since, each as its role and its content, after the earlier history: what stands before the
history, which ends with its heading, and what stands after it are the same.

And the order in which tools are bound has no part in a prompt: it shows one entry for each bound
name, in strictly increasing order of the names. -/
theorem prompts_grow (a : Agent) :
    (∀ (errands : List Errand) (w : World) (i j : Nat) (x y : Prompting),
      i < j → (promptings a.conversation.messages (histories errands a w))[i]? = some x →
      (promptings a.conversation.messages (histories errands a w))[j]? = some y →
      ∃ (opening : String) (added : List Message),
        added ≠ [] ∧ y.messages = x.messages ++ added ∧
        x.prompt = opening ++ "Conversation history:\n" ++
          (⟨x.messages⟩ : Conversation).render ++ closing ∧
        y.prompt = opening ++ "Conversation history:\n" ++
          ((⟨x.messages⟩ : Conversation).render ++ "\n" ++ lines (added.map Message.render)) ++
            closing) ∧
    ∀ tools tools' : List (String × Tool), (tools.map Prod.fst).Nodup → tools.Perm tools' →
      ∃ (entries : List (String × Tool)) (before after : String),
        entries.Perm tools ∧ (entries.map Prod.fst).Pairwise (· < ·) ∧
        ∀ c : Conversation,
          prompt tools' c = prompt tools c ∧
          prompt tools c = before ++
            (if entries.isEmpty then "-- (no tools available)"
              else lines (entries.map fun (name, t) => t.describe name)) ++
            after ++ "Conversation history:\n" ++ c.render ++ closing := by
  obtain ⟨before, after, hprompt⟩ := exists_prompt_eq
  constructor
  · intro errands w i j x y hij hx hy
    have story := histories_story errands a w
    have hxm := List.mem_of_getElem? hx
    have hym := List.mem_of_getElem? hy
    obtain ⟨task, more, hxs⟩ := story.idle_promptings hxm
    have hne : x.messages ≠ [] := by
      rw [hxs]
      exact List.append_ne_nil_of_right_ne_nil _ (List.cons_ne_nil _ _)
    obtain ⟨m, added, hys⟩ : ∃ m more, y.messages = x.messages ++ m :: more := by
      obtain ⟨hi, rfl⟩ := List.getElem?_eq_some_iff.1 hx
      obtain ⟨hj, rfl⟩ := List.getElem?_eq_some_iff.1 hy
      exact List.pairwise_iff_getElem.1 story.promptings_grow i j hi hj hij
    refine ⟨before ++ toolsBlock a.tools ++ after, m :: added, List.cons_ne_nil m added, hys,
      ?_, ?_⟩
    · rw [story.prompt_eq hxm, hprompt]
    · rw [story.prompt_eq hym, hprompt, hys, render_append hne (List.cons_ne_nil m added)]
  · intro tools tools' names same
    refine ⟨sortTools tools, before, after, (byName_sorted tools).1, byName_strict names,
      fun c => ⟨?_, ?_⟩⟩
    · have hsort : sortTools tools = sortTools tools' := byName_eq_of_perm names same
      rw [hprompt, hprompt, toolsBlock_eq, toolsBlock_eq, hsort]
    · rw [hprompt, toolsBlock_eq]

/-- An agent whose model writes two scripts: the first one prints and fails, and the second one
gives an answer. -/
def apprentice : Agent where
  name := "apprentice"
  budget := 3
  tools := []
  provider := .scripted (.ofReplies [.reply (.str "print('total:\\t42') error('boom')"),
    .reply (.str "final_answer('done')")])
  conversation := .empty
  sandbox := .empty

/-- Two tools under two names. -/
def pairOfTools : List (String × Tool) := [("b", default), ("a", default)]

/-- The two calls of the model in a run, and two tools in both orders. -/
theorem prompts_grow_apprentice :
    let called := promptings [] (histories [⟨"t", never⟩] apprentice World.empty)
    (∃ x y, 0 < 1 ∧ called[0]? = some x ∧ called[1]? = some y ∧
      ∃ (opening : String) (added : List Message),
        added ≠ [] ∧ y.messages = x.messages ++ added ∧
        x.prompt = opening ++ "Conversation history:\n" ++
          (⟨x.messages⟩ : Conversation).render ++ closing ∧
        y.prompt = opening ++ "Conversation history:\n" ++
          ((⟨x.messages⟩ : Conversation).render ++ "\n" ++ lines (added.map Message.render)) ++
            closing) ∧
    (pairOfTools.map Prod.fst).Nodup ∧ pairOfTools.Perm pairOfTools.reverse ∧
      ∃ (entries : List (String × Tool)) (before after : String),
        entries.Perm pairOfTools ∧ (entries.map Prod.fst).Pairwise (· < ·) ∧
        ∀ c : Conversation,
          prompt pairOfTools.reverse c = prompt pairOfTools c ∧
          prompt pairOfTools c = before ++
            (if entries.isEmpty then "-- (no tools available)"
              else lines (entries.map fun (name, t) => t.describe name)) ++
            after ++ "Conversation history:\n" ++ c.render ++ closing := by
  intro called
  have hlength : called.length = 2 := by
    decide +kernel
  have h0 : 0 < called.length := hlength ▸ Nat.two_pos
  have h1 : 1 < called.length := hlength ▸ Nat.one_lt_two
  obtain ⟨x, hx⟩ : ∃ x, called[0]? = some x := ⟨_, List.getElem?_eq_getElem h0⟩
  obtain ⟨y, hy⟩ : ∃ y, called[1]? = some y := ⟨_, List.getElem?_eq_getElem h1⟩
  have names : (pairOfTools.map Prod.fst).Nodup := by
    decide
  have same : pairOfTools.Perm pairOfTools.reverse := (List.reverse_perm _).symm
  obtain ⟨hgrow, htools⟩ := prompts_grow apprentice
  exact ⟨⟨x, y, Nat.one_pos, hx, hy, hgrow [⟨"t", never⟩] World.empty 0 1 x y Nat.one_pos hx hy⟩,
    names, same, htools _ _ names same⟩

/-! ## What scripts have printed -/

/-- An execution that has come to an end: the conversation at that time, with the script, and the
next call of the model, if there is one. -/
structure Attempt where
  messages : List Message
  execution : Sandbox.Execution
  next : Option Prompting

/-- The executions in a history, after a conversation. -/
def attempts : List Message → List Happening → List Attempt
  | _, [] => []
  | ms, .said m :: rest => attempts (ms ++ [m]) rest
  | ms, .called (.executed _ (.ok e)) :: rest =>
    ⟨ms, e, (promptings ms rest).head?⟩ :: attempts ms rest
  | ms, .called (.executed _ (.error _)) :: rest | ms, .called (.generated ..) :: rest =>
    attempts ms rest

section
variable {prompt : Conversation → String} {stage stage' : Stage} {ms ms' : List Message}
  {hs rest : List Happening} {x : Attempt} {y : Prompting}

/-- Messages are in the conversation of the executions after them. -/
theorem attempts_said (ms ns : List Message) (rest : List Happening) :
    attempts ms (ns.map .said ++ rest) = attempts (ms ++ ns) rest := by
  induction ns generalizing ms with
  | nil => rw [List.append_nil]; rfl
  | cons n ns ih =>
    rw [List.map_cons, List.cons_append, attempts, ih, List.append_assoc, List.singleton_append]

/-- The next call of the model after an execution is one of the calls of the history. -/
theorem mem_promptings_of_next (hx : x ∈ attempts ms hs) (hy : x.next = some y) :
    y ∈ promptings ms hs := by
  induction hs generalizing ms with
  | nil => cases hx
  | cons happening hs ih =>
    match happening with
    | .said m => exact ih hx
    | .called (.executed _ (.error _)) => exact ih hx
    | .called (.generated ..) => exact List.mem_cons_of_mem _ (ih hx)
    | .called (.executed _ (.ok e)) =>
      rcases List.mem_cons.1 hx with rfl | hx
      · exact List.mem_of_head? hy
      · exact ih hx

/-- The next call of the model after a stage of a run is that of the conversation then, unless the
run has ended and another one has added its task. -/
theorem Story.next_prompting (h : Story prompt .asking ms hs)
    (hy : (promptings ms hs).head? = some y) :
    y.messages = ms ∨ ∃ task more, y.messages = ms ++ ⟨.user, task⟩ :: more := by
  cases h with
  | step deed next =>
    rw [deed.promptings_append] at hy
    rcases deed.promptings_cases with hnone | ⟨hone, -⟩
    · rw [hnone, List.nil_append] at hy
      cases deed with
      | stop ms => exact .inr (next.idle_promptings (List.mem_of_head? hy))
      | failure ms g fails => cases hnone
      | script ms code => cases hnone
    · rw [hone] at hy
      cases hy
      exact .inl rfl

/-- The reaction to a script without an answer is in the next prompt, directly after the script. -/
theorem Story.attempt_reaction (h : Story prompt stage ms hs) (hx : x ∈ attempts ms hs)
    (outcome : ∀ answer, x.execution.outcome ≠ .answered answer) (hy : x.next = some y) :
    ∃ later, y.messages = x.messages ++ Round.reaction x.execution ++ later ∧
      (later = [] ∨ ∃ task more, later = ⟨.user, task⟩ :: more) := by
  induction h with
  | done => cases hx
  | @step _ _ _ _ _ rest deed next ih =>
    cases deed with
    | task | pause | stop | failure | script | breakdown => exact ih hx
    | answer ms code e answer he =>
      rcases List.mem_cons.1 hx with rfl | hx
      · exact absurd he (outcome answer)
      · exact ih hx
    | reaction ms code e he =>
      rw [List.cons_append, attempts, attempts_said, promptings_said] at hx
      rcases List.mem_cons.1 hx with rfl | hx
      · rcases next.next_prompting hy with hm | ⟨task, more, hm⟩
        · exact ⟨[], by rw [hm, List.append_nil], .inl rfl⟩
        · exact ⟨_, hm, .inr ⟨task, more, rfl⟩⟩
      · exact ih hx

end

/-- Whether a text has a tabulator in it. -/
def hasTab (s : String) : Bool := s.toByteArray.data.toList.contains 9

theorem hasTab_append (s t : String) : hasTab (s ++ t) = (hasTab s || hasTab t) := by
  rw [hasTab, String.toByteArray_append, ByteArray.data_append, Array.toList_append,
    List.contains_eq_any_beq, List.any_append]
  simp only [hasTab, List.contains_eq_any_beq]

/-- Lines without tabulators. -/
theorem hasTab_lines {ls : List String} (h : ∀ l ∈ ls, hasTab l = false) :
    hasTab (lines ls) = false := by
  have hempty : hasTab "" = false := by
    decide +kernel
  have hbreak : hasTab "\n" = false := by
    decide +kernel
  induction ls with
  | nil => exact hempty
  | cons l ls ih =>
    have hl := h l List.mem_cons_self
    have hls := ih fun l hl => h l (List.mem_cons_of_mem _ hl)
    cases ls with
    | nil => exact hl
    | cons m ls =>
      have hcons : lines (l :: m :: ls) = l ++ "\n" ++ lines (m :: ls) :=
        String.intercalate_cons_cons
      rw [hcons, hasTab_append, hasTab_append, hl, hbreak, hls]
      rfl

/-- Without tools, nothing before the history of a prompt has a tabulator in it. -/
theorem hasTab_opening : hasTab (opening []) = false := by
  have hintroduction : hasTab introduction = false := hasTab_lines (by decide +kernel)
  have hrules : hasTab rules = false := hasTab_lines (by decide +kernel)
  refine hasTab_lines fun l hl => ?_
  simp only [List.mem_cons, List.not_mem_nil, or_false] at hl
  rcases hl with rfl | rfl | rfl | rfl | rfl | rfl | rfl | rfl | rfl
  · exact hintroduction
  · decide +kernel
  · decide +kernel
  · decide +kernel
  · decide +kernel
  · decide +kernel
  · exact hrules
  · decide +kernel
  · decide +kernel

/-- The first script of the apprentice prints a tabulator and fails, and no message of the next
prompt has a tabulator in it. -/
theorem apprentice_fails : ∃ x y,
    x ∈ attempts apprentice.conversation.messages
        (histories [⟨"t", never⟩] apprentice World.empty) ∧
      x.next = some y ∧ (∀ answer, x.execution.outcome ≠ .answered answer) ∧
      hasTab x.execution.output = true ∧ ∀ m ∈ y.messages, hasTab m.render = false := by
  have hrun : (attempts [] (histories [⟨"t", never⟩] apprentice World.empty)).any (fun x =>
      decide (x.execution.report.status = .failed) && (hasTab x.execution.output &&
      x.next.any fun y => y.messages.all fun m => !hasTab m.render)) = true := by
    decide +kernel
  obtain ⟨x, hx, hrun⟩ := List.any_eq_true.1 hrun
  obtain ⟨hfailed, hrun⟩ := Bool.and_eq_true_iff.1 hrun
  obtain ⟨houtput, hrun⟩ := Bool.and_eq_true_iff.1 hrun
  obtain ⟨y, hy, hmessages⟩ := (Option.any_eq_true _ _).1 hrun
  refine ⟨x, y, hx, hy, fun answer h => ?_, houtput, fun m hm => ?_⟩
  · have hstatus := of_decide_eq_true hfailed
    rw [Sandbox.Execution.report, h] at hstatus
    cases hstatus
  · exact Bool.not_eq_true' _ ▸ List.all_eq_true.1 hmessages m hm

/-- What the next prompt shows of a script without an answer, for every sequence of runs of an
agent: directly after the script the reaction to it, and then nothing, or the task of a later run
and what has followed it. So a script that has gone on is shown with everything that it has printed; a
script that has failed is shown with its error, and with nothing else. -/
theorem next_prompt_shows (a : Agent) (errands : List Errand) (w : World) {x : Attempt}
    {y : Prompting} (hx : x ∈ attempts a.conversation.messages (histories errands a w))
    (hy : x.next = some y) (outcome : ∀ answer, x.execution.outcome ≠ .answered answer) :
    (∃ later, y.messages = x.messages ++ Round.reaction x.execution ++ later ∧
      (later = [] ∨ ∃ task more, later = ⟨.user, task⟩ :: more)) ∧
    y.prompt = prompt a.tools ⟨y.messages⟩ ∧
    (x.execution.outcome = .continued →
      ∃ before after, y.prompt = before ++ x.execution.output ++ after) ∧
    ∀ kind message, x.execution.outcome = .failed kind message →
      Round.reaction x.execution = [⟨.system, s!"Error: {kind.text}: {message}"⟩] ∧
      ∃ before after, y.prompt = before ++ s!"SYSTEM: Error: {kind.text}: {message}" ++ after := by
  have story := histories_story errands a w
  obtain ⟨later, hm, hlater⟩ := story.attempt_reaction hx outcome hy
  have hprompt : y.prompt = prompt a.tools ⟨y.messages⟩ :=
    story.prompt_eq (mem_promptings_of_next hx hy)
  have hshown : ∀ m ∈ Round.reaction x.execution,
      ∃ before after, y.prompt = before ++ m.render ++ after := by
    intro m hmem
    rw [hprompt]
    refine prompt_of_mem a.tools (c := ⟨y.messages⟩) ?_
    rw [hm]
    exact List.mem_append_left _ (List.mem_append_right _ hmem)
  refine ⟨⟨later, hm, hlater⟩, hprompt, fun hc => ?_, fun kind message hf => ?_⟩
  · by_cases he : x.execution.output.isEmpty = true
    · rw [String.isEmpty_iff.1 he]
      exact ⟨y.prompt, "", by rw [String.append_empty, String.append_empty]⟩
    · have hreaction : Round.reaction x.execution = [⟨.system, x.execution.output⟩] := by
        rw [Round.reaction, hc]
        exact if_neg he
      obtain ⟨before, after, hp⟩ := hshown _ (hreaction ▸ List.mem_singleton_self _)
      exact ⟨before ++ "SYSTEM" ++ ": ", after, by
        rw [hp, Message.render, Role.heading]; simp only [String.append_assoc]⟩
  · have hreaction : Round.reaction x.execution =
        [⟨.system, s!"Error: {kind.text}: {message}"⟩] := by
      rw [Round.reaction, hf]
    obtain ⟨before, after, hp⟩ := hshown _ (hreaction ▸ List.mem_singleton_self _)
    refine ⟨hreaction, before, after, ?_⟩
    have hrender : (⟨.system, s!"Error: {kind.text}: {message}"⟩ : Message).render =
        s!"SYSTEM: Error: {kind.text}: {message}" := by
      have hheading : "SYSTEM" ++ ": " ++ "Error: " = "SYSTEM: Error: " := by
        decide +kernel
      rw [Message.render, Role.heading]
      simp only [toString, ← String.append_assoc, hheading]
    rw [hp, hrender]

/-- The next prompt after a script that has failed. -/
theorem next_prompt_shows_apprentice :
    ∃ x y, x ∈ attempts apprentice.conversation.messages
        (histories [⟨"t", never⟩] apprentice World.empty) ∧ x.next = some y ∧
      (∀ answer, x.execution.outcome ≠ .answered answer) ∧
      (∃ later, y.messages = x.messages ++ Round.reaction x.execution ++ later ∧
        (later = [] ∨ ∃ task more, later = ⟨.user, task⟩ :: more)) ∧
      y.prompt = prompt apprentice.tools ⟨y.messages⟩ ∧
      (x.execution.outcome = .continued →
        ∃ before after, y.prompt = before ++ x.execution.output ++ after) ∧
      ∀ kind message, x.execution.outcome = .failed kind message →
        Round.reaction x.execution = [⟨.system, s!"Error: {kind.text}: {message}"⟩] ∧
        ∃ before after,
          y.prompt = before ++ s!"SYSTEM: Error: {kind.text}: {message}" ++ after := by
  obtain ⟨x, y, hx, hy, outcome, -⟩ := apprentice_fails
  exact ⟨x, y, hx, hy, outcome, next_prompt_shows apprentice _ _ hx hy outcome⟩

/-- Not every script that has not ended its run is shown with what it has printed: a script that has
failed is not. -/
theorem output_of_failure_lost :
    ¬ ∀ (a : Agent) (errands : List Errand) (w : World) (x : Attempt) (y : Prompting),
      x ∈ attempts a.conversation.messages (histories errands a w) → x.next = some y →
      (∀ answer, x.execution.outcome ≠ .answered answer) →
      ∃ before after, y.prompt = before ++ x.execution.output ++ after := by
  intro hall
  obtain ⟨x, y, hx, hy, outcome, houtput, hmessages⟩ := apprentice_fails
  have hprompt : y.prompt = prompt [] ⟨y.messages⟩ :=
    (histories_story [⟨"t", never⟩] apprentice World.empty).prompt_eq (mem_promptings_of_next hx hy)
  have hnone : hasTab y.prompt = false := by
    have hhistory : hasTab (⟨y.messages⟩ : Conversation).render = false := by
      refine hasTab_lines fun l hl => ?_
      obtain ⟨m, hm, rfl⟩ := List.mem_map.1 hl
      exact hmessages m hm
    have hclosing : hasTab closing = false := by
      decide +kernel
    rw [hprompt, prompt, hasTab_append, hasTab_append, hasTab_opening, hhistory, hclosing]
    rfl
  obtain ⟨before, after, hshown⟩ := hall apprentice _ _ x y hx hy outcome
  rw [hshown, hasTab_append, hasTab_append, houtput, Bool.or_true, Bool.true_or] at hnone
  cases hnone

end ScriptAgent.Agent
