import ScriptAgent.Proofs.Text.Pattern
import ScriptAgent.Reply

/-!
# Blocks of code in replies

A block of code begins at the first opening of its kind and ends at the next fence (`BlockAt`). The
patterns of replies find exactly these blocks, and what they capture is the text of the block up to
white space at its ends (`search?_block_eq_some`, `search?_block_eq_none`). So the code in a reply
is the stripped text of the first script, or else of the first block, or else the reply
(`script_meaning`).
-/

namespace ScriptAgent.Reply

open Text

variable {opening cs code : List Char} {i j : Nat}

/-! ## Blocks -/

/-- The first opening of a text, with the next fence after it. -/
structure BlockAt (opening cs : List Char) (i j : Nat) : Prop where
  opens : FirstAt opening cs 0 i
  closes : FirstAt fence cs (i + opening.length) j

/-- No fence begins in white space. -/
theorem not_fence_of_blank {n : Nat} (blank : ∀ c ∈ cs.take n, isBlank c = true) (hj : j < n) :
    ¬ fence <+: cs.drop j := by
  rintro ⟨rest, hrest⟩
  have hget : (cs.take n)[j]? = some '`' := by
    rw [List.getElem?_take_of_lt hj, ← Nat.add_zero j, ← List.getElem?_drop, ← hrest]
    rfl
  have := blank _ (List.mem_of_getElem? hget)
  revert this
  decide

/-- A block that is matched ends at the next fence, and what is captured is its text up to white
space. -/
theorem capture?_block_eq_some (h : capture? (block opening) cs = some code) :
    opening <+: cs ∧ ∃ j, FirstAt fence cs opening.length j ∧
      stripChars code = stripChars (cs.extract opening.length j) := by
  obtain ⟨u, rfl, matched⟩ := capture?_text_eq_some h
  obtain ⟨n, before, matched⟩ := capture?_blanks_eq_some matched
  obtain ⟨m, rest, ended, rfl, least⟩ := capture?_captured_eq_some matched
  obtain ⟨b, after, ended⟩ := capture?_blanks_eq_some ended
  obtain ⟨v, hfence, hrest⟩ := capture?_text_eq_some ended
  obtain rfl : [] = rest := Option.some.inj hrest
  simp only [List.drop_drop] at hfence after least
  have closes : FirstAt fence u 0 (n + m + b) := by
    refine ⟨Nat.zero_le _, ⟨v, hfence.symm⟩, fun j _ hj => ?_⟩
    -- A fence before this one would begin in the white space at one of the ends, or end the block.
    rcases Nat.lt_or_ge j n with hjn | hjn
    · exact not_fence_of_blank before hjn
    rcases Nat.lt_or_ge j (n + m) with hjm | hjm
    · intro hat
      have hnext := capture?_of_blanks_eq_none (least (j - n) (by omega))
      rw [Nat.add_sub_cancel' hjn] at hnext
      obtain ⟨w, hw⟩ := hat
      rw [← hw, capture?_text_append] at hnext
      cases hnext
    · have := not_fence_of_blank after (j := j - (n + m)) (by omega)
      rwa [List.drop_drop, Nat.add_sub_cancel' hjm] at this
  refine ⟨List.prefix_append _ _, opening.length + (n + m + b), ?_, ?_⟩
  · have hdrop : FirstAt fence ((opening ++ u).drop opening.length) 0 (n + m + b) := by
      rwa [List.drop_left]
    exact (FirstAt.drop_iff opening.length).1 hdrop
  · have hparts : (opening ++ u).extract opening.length (opening.length + (n + m + b)) =
        u.take n ++ (u.drop n).take m ++ (u.drop (n + m)).take b := by
      rw [List.extract_eq_take_drop, List.drop_left, Nat.add_sub_cancel_left, List.take_add,
        List.take_add]
    rw [hparts, stripChars_append before after, List.append_nil]

/-- A block that is not matched has no fence after its opening. -/
theorem capture?_block_eq_none (h : capture? (block opening) cs = none) (opens : opening <+: cs)
    (hj : opening.length ≤ j) : ¬ fence <+: cs.drop j := by
  obtain ⟨u, rfl⟩ := opens
  rintro ⟨w, hw⟩
  rw [block, capture?_text_append] at h
  have hnext := capture?_of_blanks_eq_none
    (capture?_of_captured_eq_none (capture?_of_blanks_eq_none h) (j - opening.length))
  rw [List.drop_append, List.drop_eq_nil_of_le hj, List.nil_append] at hw
  rw [← hw, capture?_text_append] at hnext
  cases hnext

/-- A block that a search finds is the first of its kind. -/
theorem search?_block_eq_some (h : search? (block opening) cs = some code) :
    ∃ i j, BlockAt opening cs i j ∧
      stripChars code = stripChars (cs.extract (i + opening.length) j) := by
  obtain ⟨i, hmatch, hearlier⟩ := search?_eq_some h
  obtain ⟨opens, j, closes, hcode⟩ := capture?_block_eq_some hmatch
  rw [FirstAt.drop_iff] at closes
  refine ⟨i, i + j, ⟨⟨Nat.zero_le _, opens, fun k _ hk hat => ?_⟩, closes⟩, ?_⟩
  · -- an earlier opening is followed by this fence too
    have hfrom := closes.from_start
    refine capture?_block_eq_none (hearlier k hk) hat (j := i + j - k) (by omega) ?_
    rw [List.drop_drop, Nat.add_sub_cancel' (by omega)]
    exact closes.here
  · rw [hcode, List.extract_eq_take_drop, List.extract_eq_take_drop, List.drop_drop]
    congr 2
    omega

/-- A search that finds no block misses none. -/
theorem search?_block_eq_none (h : search? (block opening) cs = none) :
    ¬ BlockAt opening cs i j := by
  intro found
  have hfrom := found.closes.from_start
  refine capture?_block_eq_none (search?_eq_none h i) found.opens.here (j := j - i) (by omega) ?_
  rw [List.drop_drop, Nat.add_sub_cancel' (by omega)]
  exact found.closes.here

/-- There is one first block of a kind. -/
theorem BlockAt.unique {i' j' : Nat} (h : BlockAt opening cs i j) (h' : BlockAt opening cs i' j') :
    i = i' ∧ j = j' := by
  obtain rfl := h.opens.unique h'.opens
  exact ⟨rfl, h.closes.unique h'.closes⟩

/-- What a search captures of a block that is there. -/
theorem BlockAt.search?_eq_some (h : BlockAt opening cs i j) :
    ∃ code, search? (block opening) cs = some code ∧
      stripChars code = stripChars (cs.extract (i + opening.length) j) := by
  cases hsearch : search? (block opening) cs with
  | none => exact absurd h (search?_block_eq_none hsearch)
  | some code =>
    obtain ⟨i', j', h', hcode⟩ := search?_block_eq_some hsearch
    obtain ⟨rfl, rfl⟩ := h.unique h'
    exact ⟨code, rfl, hcode⟩

/-- Without a block of a kind a search finds none. -/
theorem search?_block_of_forall_not (none : ∀ i j, ¬ BlockAt opening cs i j) :
    search? (block opening) cs = .none := by
  cases hsearch : search? (block opening) cs with
  | none => rfl
  | some code =>
    obtain ⟨i, j, h, -⟩ := search?_block_eq_some hsearch
    exact absurd h (none i j)

/-! ## The code -/

/-- The code in a reply with a script is the first script. -/
theorem scriptChars_of_script (h : BlockAt scriptFence cs i j) :
    scriptChars cs = stripChars (cs.extract (i + 6) j) := by
  obtain ⟨code, hsearch, hcode⟩ := h.search?_eq_some
  rw [scriptChars, hsearch, Option.some_or]
  exact hcode

/-- The code in a reply with other blocks only is the first one. -/
theorem scriptChars_of_block (none : ∀ i j, ¬ BlockAt scriptFence cs i j)
    (h : BlockAt fence cs i j) : scriptChars cs = stripChars (cs.extract (i + 3) j) := by
  obtain ⟨code, hsearch, hcode⟩ := h.search?_eq_some
  rw [scriptChars, search?_block_of_forall_not none, Option.none_or, hsearch]
  exact hcode

/-- The code in a reply without a block is the reply. -/
theorem scriptChars_of_forall_not (none : ∀ i j, ¬ BlockAt scriptFence cs i j)
    (none' : ∀ i j, ¬ BlockAt fence cs i j) : scriptChars cs = cs := by
  rw [scriptChars, search?_block_of_forall_not none, Option.none_or,
    search?_block_of_forall_not none']

/-- There is no fence in the text of a block. -/
theorem BlockAt.not_isInfix_extract (h : BlockAt opening cs i j) :
    ¬ fence <:+: cs.extract (i + opening.length) j := by
  intro hin
  obtain ⟨before, after, hparts⟩ := hin
  have hlen := congrArg List.length hparts
  have hfence : fence.length = 3 := rfl
  rw [List.extract_eq_take_drop] at hparts hlen
  simp only [List.length_append, List.length_take, List.length_drop, hfence] at hlen
  refine h.closes.first (i + opening.length + before.length) (by omega) (by omega) ?_
  obtain ⟨rest, hrest⟩ := List.take_prefix (j - (i + opening.length))
    (cs.drop (i + opening.length))
  rw [← List.drop_drop, ← hrest, ← hparts, List.append_assoc, List.append_assoc, List.drop_left]
  exact List.prefix_append _ _

/-- A text without a fence has no block. -/
theorem not_blockAt_of_fence (clear : ¬ fence <:+: cs) : ¬ BlockAt opening cs i j :=
  fun h => clear (h.closes.here.isInfix.trans (List.drop_suffix _ _).isInfix)

/-- A text without a fence is all code. -/
theorem scriptChars_of_fence (clear : ¬ fence <:+: cs) : scriptChars cs = cs :=
  scriptChars_of_forall_not (fun _ _ => not_blockAt_of_fence clear)
    fun _ _ => not_blockAt_of_fence clear

/-- There is no fence in the code of a reply with a block. -/
theorem not_isInfix_scriptChars (hopening : opening ∈ [scriptFence, fence])
    (h : BlockAt opening cs i j) : ¬ fence <:+: scriptChars cs := by
  have stripped {opening : List Char} {i j : Nat} (h : BlockAt opening cs i j) :
      ¬ fence <:+: stripChars (cs.extract (i + opening.length) j) :=
    fun hin => h.not_isInfix_extract (hin.trans (isInfix_stripChars _))
  by_cases hscript : ∃ i j, BlockAt scriptFence cs i j
  · obtain ⟨i, j, hscript⟩ := hscript
    rw [scriptChars_of_script hscript]
    exact stripped hscript
  · have none : ∀ i j, ¬ BlockAt scriptFence cs i j := fun i j h => hscript ⟨i, j, h⟩
    rcases List.mem_cons.1 hopening with rfl | hopening
    · exact absurd h (none i j)
    · obtain rfl := List.mem_singleton.1 hopening
      rw [scriptChars_of_block none h]
      exact stripped h

/-- The code in the code is itself. -/
theorem scriptChars_scriptChars (cs : List Char) :
    scriptChars (scriptChars cs) = scriptChars cs := by
  by_cases h : ∃ opening ∈ [scriptFence, fence], ∃ i j, BlockAt opening cs i j
  · obtain ⟨opening, hopening, i, j, h⟩ := h
    exact scriptChars_of_fence (not_isInfix_scriptChars hopening h)
  · have none (opening) (hopening : opening ∈ [scriptFence, fence]) (i j) :
        ¬ BlockAt opening cs i j := fun hblock => h ⟨opening, hopening, i, j, hblock⟩
    rw [scriptChars_of_forall_not (none _ (by simp)) (none _ (by simp)),
      scriptChars_of_forall_not (none _ (by simp)) (none _ (by simp))]

/-! ## What is around a block -/

/-- A block does not depend on what comes after it. -/
theorem BlockAt.append {before after : List Char} (h : BlockAt opening (before ++ after) i j)
    (inside : j + 3 ≤ before.length) (after' : List Char) :
    BlockAt opening (before ++ after') i j := by
  have hfrom := h.closes.from_start
  exact ⟨h.opens.append (by omega), h.closes.append inside⟩

/-- The code of a script does not depend on what comes after it. -/
theorem scriptChars_append {before after : List Char}
    (h : BlockAt scriptFence (before ++ after) i j) (inside : j + 3 ≤ before.length)
    (after' : List Char) : scriptChars (before ++ after') = scriptChars (before ++ after) := by
  have hfrom : i + 6 ≤ j := h.closes.from_start
  have body (x : List Char) : (before ++ x).extract (i + 6) j = before.extract (i + 6) j := by
    rw [List.extract_eq_take_drop, List.drop_append_of_le_length (by omega),
      List.take_append_of_le_length (by rw [List.length_drop]; omega), List.extract_eq_take_drop]
  rw [scriptChars_of_script h, scriptChars_of_script (h.append inside after'), body, body]

/-- The opening of scripts does not overlap with itself, so no text before it completes another
one. -/
theorem scriptFence_infix_of_drop {before after : List Char} {p : Nat} (hp : p < before.length)
    (hat : scriptFence <+: (before ++ (scriptFence ++ after)).drop p) :
    scriptFence <:+: before := by
  rw [List.drop_append_of_le_length hp.le] at hat
  rcases Nat.lt_or_ge (before.drop p).length scriptFence.length with hshort | hlong
  · exfalso
    have apart : ∀ n < scriptFence.length, 0 < n → ¬ scriptFence.drop n <+: scriptFence := by
      decide
    obtain ⟨rest, hrest⟩ := List.prefix_of_prefix_length_le (List.prefix_append _ _) hat hshort.le
    obtain ⟨v, hv⟩ := hat
    rw [← hrest, List.append_assoc, List.append_cancel_left_eq, hrest] at hv
    have hdrop : scriptFence.drop (before.drop p).length = rest := by rw [← hrest, List.drop_left]
    refine apart _ hshort (by rw [List.length_drop]; omega) ?_
    refine List.prefix_of_prefix_length_le ⟨v, ?_⟩ (List.prefix_append _ after) ?_
    · rw [hdrop, hv]
    · rw [List.length_drop]
      omega
  · exact (List.prefix_of_prefix_length_le hat (List.prefix_append _ _) hlong).isInfix.trans
      (List.drop_suffix _ _).isInfix

/-- A script does not depend on what comes before it, as long as no other one is opened there. -/
theorem BlockAt.prepend (h : BlockAt scriptFence cs i j) {before : List Char}
    (clear : ¬ scriptFence <:+: before) :
    BlockAt scriptFence (before ++ cs.drop i) before.length (before.length + (j - i)) := by
  have hfrom := h.closes.from_start
  refine ⟨⟨Nat.zero_le _, by rw [List.drop_left]; exact h.opens.here, fun p _ hp hat => ?_⟩, ?_⟩
  · obtain ⟨after, hafter⟩ := h.opens.here
    rw [← hafter] at hat
    exact clear (scriptFence_infix_of_drop hp hat)
  · rw [← FirstAt.drop_iff, List.drop_left, FirstAt.drop_iff, Nat.add_sub_cancel' (by omega)]
    exact h.closes

/-- The code of a script does not depend on what comes before it, as long as no other one is opened
there. -/
theorem scriptChars_prepend (h : BlockAt scriptFence cs i j) {before : List Char}
    (clear : ¬ scriptFence <:+: before) : scriptChars (before ++ cs.drop i) = scriptChars cs := by
  have hdrop : (before ++ cs.drop i).drop (before.length + 6) = cs.drop (i + 6) := by
    rw [← List.drop_drop, List.drop_left, List.drop_drop]
  have hlen : before.length + (j - i) - (before.length + 6) = j - (i + 6) := by
    omega
  rw [scriptChars_of_script h, scriptChars_of_script (h.prepend clear), List.extract_eq_take_drop,
    List.extract_eq_take_drop, hdrop, hlen]

/-- The code in a reply. Positions are counted in characters.

If scripts are opened somewhere, and a fence follows the first of the openings, the code is the text
between the opening and the first such fence without the white space at its ends. Otherwise, if
there are two fences, it is the text between the first one and the next one after it, without white
space at its ends. Otherwise it is the reply.

So there is no fence in the code of a block, the code in the code is itself, and the code of a
script depends neither on what follows its closing fence nor on what comes before its opening, as
long as no script is opened there. -/
theorem script_meaning (reply : String) :
    let cs := reply.toList
    (∀ i j, BlockAt scriptFence cs i j →
      script reply = String.ofList (stripChars (cs.extract (i + 6) j))) ∧
    ((∀ i j, ¬ BlockAt scriptFence cs i j) → ∀ i j, BlockAt fence cs i j →
      script reply = String.ofList (stripChars (cs.extract (i + 3) j))) ∧
    ((∀ i j, ¬ BlockAt scriptFence cs i j) → (∀ i j, ¬ BlockAt fence cs i j) →
      script reply = reply) ∧
    (∀ opening ∈ [scriptFence, fence], ∀ i j, BlockAt opening cs i j →
      ¬ fence <:+: (script reply).toList) ∧
    script (script reply) = script reply ∧
    ∀ i j, BlockAt scriptFence cs i j →
      (∀ after, script (String.ofList (cs.take (j + 3)) ++ after) = script reply) ∧
      ∀ before : String, ¬ scriptFence <:+: before.toList →
        script (before ++ String.ofList (cs.drop i)) = script reply := by
  intro cs
  have chars (reply : String) : (script reply).toList = scriptChars reply.toList :=
    String.toList_ofList
  refine ⟨fun i j h => ?_, fun none i j h => ?_, fun none none' => ?_,
    fun opening hopening i j h => ?_, ?_, fun i j h => ⟨fun after => ?_, fun before clear => ?_⟩⟩
  · rw [script, scriptChars_of_script h]
  · rw [script, scriptChars_of_block none h]
  · rw [script, scriptChars_of_forall_not none none', String.ofList_toList]
  · rw [chars]
    exact not_isInfix_scriptChars hopening h
  · rw [script, chars, scriptChars_scriptChars, script]
  · have hinside := h.closes.add_length_le (by decide)
    have hlen : (cs.take (j + 3)).length = j + 3 := by
      rw [List.length_take]
      exact Nat.min_eq_left hinside
    have hcs := List.take_append_drop (j + 3) cs
    rw [script, String.toList_append, String.toList_ofList,
      scriptChars_append (hcs.symm ▸ h) hlen.ge, hcs, script]
  · rw [script, String.toList_append, String.toList_ofList, scriptChars_prepend h clear, script]

/-- A reply with a block of another kind before the script, and another one after it. -/
theorem script_meaning_between :
    let cs := "```x``` ```lua\ny ```\n```z```".toList
    BlockAt scriptFence cs 8 17 ∧
    script "```x``` ```lua\ny ```\n```z```" = String.ofList (stripChars (cs.extract (8 + 6) 17)) ∧
    ¬ fence <:+: (script "```x``` ```lua\ny ```\n```z```").toList ∧
    script (String.ofList (cs.take (17 + 3)) ++ "```lua```") =
      script "```x``` ```lua\ny ```\n```z```" ∧
    ¬ scriptFence <:+: "``".toList ∧
    script ("``" ++ String.ofList (cs.drop 8)) = script "```x``` ```lua\ny ```\n```z```" := by
  intro cs
  have opens : ∀ j < 8, ¬ scriptFence <+: cs.drop j := by decide
  have closes : ∀ j < 17, 8 + 6 ≤ j → ¬ fence <+: cs.drop j := by decide
  have block : BlockAt scriptFence cs 8 17 :=
    ⟨⟨by decide, by decide, fun j _ => opens j⟩, ⟨by decide, by decide, fun j hstart hj =>
      closes j hj hstart⟩⟩
  have clear : ¬ scriptFence <:+: "``".toList := by decide
  obtain ⟨hscript, -, -, hfence, -, haround⟩ := script_meaning "```x``` ```lua\ny ```\n```z```"
  exact ⟨block, hscript 8 17 block, hfence scriptFence (by simp) 8 17 block,
    (haround 8 17 block).1 _, clear, (haround 8 17 block).2 _ clear⟩

end ScriptAgent.Reply
