import ScriptAgent.Sandbox

/-!
# The host's access to globals

The host reads and writes globals by programs on the heap. This module says when such an access
succeeds, by the rules of the language and without a program: `Reads` and `Writes` are derivations
of an indexing, with one rule for each way in which it can go on. There are four: the key is there;
it is not, and there is no metamethod; a metamethod is a function, whose call has to return; or it
is another value, which is indexed in turn. `Assigns` goes along a path.

Each relation holds exactly of the accesses that succeed (`gives_index_iff`, `gives_setIndex_iff`,
`gives_assignBelow_iff`).
-/

namespace ScriptAgent.Sandbox

open Script

variable {α β : Type} {tools : Array Tool} {fuel : Nat} {h h' : Heap} {w w' : World}

/-! ## Programs that give a value -/

/-- A program of the host gives a value, and leaves this heap and these surroundings. -/
def Gives (tools : Array Tool) (fuel : Nat) (p : Program α) (h : Heap) (w : World) (a : α)
    (h' : Heap) (w' : World) : Prop := runProgram tools fuel p h w = (.returned a, h', w')

/-- A program that is done gives its value and changes nothing. -/
theorem gives_done_iff {a b : α} :
    Gives tools fuel (.done a) h w b h' w' ↔ b = a ∧ h' = h ∧ w' = w := by
  simp only [Gives, runProgram, Prod.mk.injEq, Ending.returned.injEq, eq_comm]

/-- A program that raises gives nothing. -/
theorem not_gives_raise {e : Value} {a : α} : ¬ Gives tools fuel (.raise e) h w a h' w' := by
  simp [Gives, runProgram]

/-- A program after another one gives a value if both do, one after the other. -/
theorem gives_bind_iff {p : Program α} {f : α → Program β} {b : β} :
    Gives tools fuel (p >>= f) h w b h' w' ↔
      ∃ a h₁ w₁, Gives tools fuel p h w a h₁ w₁ ∧ Gives tools fuel (f a) h₁ w₁ b h' w' := by
  change Gives tools fuel (p.bind f) h w b h' w' ↔ _
  induction p generalizing h w with
  | done a =>
    simp only [Program.bind, gives_done_iff]
    refine ⟨fun hf => ⟨a, h, w, ⟨rfl, rfl, rfl⟩, hf⟩, ?_⟩
    rintro ⟨_, _, _, ⟨rfl, rfl, rfl⟩, hf⟩
    exact hf
  | raise e =>
    refine iff_of_false not_gives_raise ?_
    rintro ⟨_, _, _, hp, _⟩
    exact not_gives_raise hp
  | ask q k ih =>
    simp only [Gives, Program.bind, runProgram] at ih ⊢
    split
    · exact ih _
    · split
      · exact ih _
      · simp
      · simp

/-- A program that asks a question about the heap goes on with the answer. -/
theorem gives_ask_iff {q : Query} (hq : q.isAboutHeap = true) {f : Value → Program β} {b : β} :
    Gives tools fuel (Program.queryOne q >>= f) h w b h' w' ↔
      Gives tools fuel (f ((h.reply q).1.headD .nil)) (h.reply q).2 w b h' w' := by
  change runProgram tools fuel (.ask q fun vs => f (vs.headD .nil)) h w = _ ↔ _
  simp only [Gives, runProgram, hq, if_true]

/-- All answers to a question about the heap. -/
theorem gives_query_iff {q : Query} (hq : q.isAboutHeap = true) {vs : List Value} :
    Gives tools fuel (.query q) h w vs h' w' ↔
      vs = (h.reply q).1 ∧ h' = (h.reply q).2 ∧ w' = w := by
  simp only [Gives, Program.query, runProgram, hq, if_true, Prod.mk.injEq, Ending.returned.injEq,
    eq_comm]

/-- What is called gives what the run of the machine returns. -/
theorem gives_call_iff {f : Value} {args vs : List Value} {site : Site} :
    Gives tools fuel (.query (.call f args site)) h w vs h' w' ↔
      ask tools fuel (.call f args site) h w = (.returned vs, h', w') := by
  simp only [Gives, Program.query, runProgram, Query.isAboutHeap, Bool.false_eq_true, if_false]
  split
  · next hr => rw [hr]
  · next hr => simp [hr]
  · next hr => simp [hr]

/-! ## Reading -/

/-- The metamethod of a value for an event. -/
def metamethod (h : Heap) (v : Value) (event : String) : Value :=
  h.metafield v (Bytes.ofAscii ("__" ++ event))

/-- A value is no table that has something at a key. -/
def Lacks (h : Heap) (v k : Value) : Prop := ∀ a, v = .table a → (h.table a).getValue k = .nil

/-- Reading `v[k]` succeeds, along a chain of at most `n` values, and gives a value. -/
inductive Reads (tools : Array Tool) (fuel : Nat) (k : Value) :
    Nat → Heap → World → Value → Value → Heap → World → Prop where
  /-- The key is there. -/
  | present {n : Nat} {h : Heap} {w : World} {a : Address}
      (found : (h.table a).getValue k ≠ .nil) :
      Reads tools fuel k (n + 1) h w (.table a) ((h.table a).getValue k) h w
  /-- The key is not there, and there is no metamethod. -/
  | absent {n : Nat} {h : Heap} {w : World} {a : Address}
      (missing : (h.table a).getValue k = .nil)
      (plain : metamethod h (.table a) "index" = .nil) :
      Reads tools fuel k (n + 1) h w (.table a) .nil h w
  /-- The metamethod is a function, whose call returns. -/
  | called {n : Nat} {h h' : Heap} {w w' : World} {v : Value} {vs : List Value}
      (missing : Lacks h v k) (function : Operation.isFunction (metamethod h v "index") = true)
      (returns : ask tools fuel (.call (metamethod h v "index") [v, k] .outside) h w =
        (.returned vs, h', w')) :
      Reads tools fuel k (n + 1) h w v (vs.headD .nil) h' w'
  /-- The metamethod is another value, which is indexed in turn. -/
  | passed {n : Nat} {h h' : Heap} {w w' : World} {v x : Value}
      (missing : Lacks h v k) (other : Operation.isFunction (metamethod h v "index") = false)
      (some : metamethod h v "index" ≠ .nil)
      (next : Reads tools fuel k n h w (metamethod h v "index") x h' w') :
      Reads tools fuel k (n + 1) h w v x h' w'

/-- A program that asks for a metamethod goes on with it, or otherwise without one. -/
theorem gives_handler_iff {v : Value} {event : String} {last : Program α}
    {onward : Value → Program α} {b : α} :
    Gives tools fuel (do
        let f ← Operation.handler v event
        if f == .nil then last else onward f) h w b h' w' ↔
      if metamethod h v event = .nil then Gives tools fuel last h w b h' w'
      else Gives tools fuel (onward (metamethod h v event)) h w b h' w' := by
  rw [Operation.handler, gives_ask_iff rfl]
  change Gives tools fuel (if metamethod h v event == .nil then last
    else onward (metamethod h v event)) h w b h' w' ↔ _
  by_cases plain : metamethod h v event = .nil
  · rw [if_pos (beq_iff_eq.2 plain), if_pos plain]
  · rw [if_neg (fun hb => plain (beq_iff_eq.1 hb)), if_neg plain]

/-- Calling a metamethod for its first result succeeds if the call returns. -/
theorem gives_callEventOne_iff {event : String} {f x : Value} {args : List Value} :
    Gives tools fuel (Operation.callEventOne .library event f args) h w x h' w' ↔
      ∃ vs, x = vs.headD .nil ∧
        ask tools fuel (.call f args .outside) h w = (.returned vs, h', w') := by
  refine gives_bind_iff.trans ⟨fun ⟨vs, h₁, w₁, hc, hx⟩ => ?_, fun ⟨vs, hx, hc⟩ => ?_⟩
  · obtain ⟨rfl, rfl, rfl⟩ := gives_done_iff.1 hx
    exact ⟨vs, rfl, gives_call_iff.1 hc⟩
  · exact ⟨vs, h', w', gives_call_iff.2 hc, gives_done_iff.2 ⟨hx, rfl, rfl⟩⟩

section
variable {n : Nat} {a : Address} {k v x : Value}

/-- A table lacks a key that it has nothing at. -/
theorem lacks_table (missing : (h.table a).getValue k = .nil) : Lacks h (.table a) k :=
  fun _ hb => Value.table.inj hb ▸ missing

/-- What is no table lacks all keys. -/
theorem lacks_of_not_table (hv : ∀ a, v ≠ .table a) : Lacks h v k := fun a ha => absurd ha (hv a)

/-- Where the key is, what is there is read. -/
theorem reads_found_iff (found : (h.table a).getValue k ≠ .nil) :
    Reads tools fuel k (n + 1) h w (.table a) x h' w' ↔
      x = (h.table a).getValue k ∧ h' = h ∧ w' = w := by
  constructor
  · intro hr
    cases hr with
    | present => exact ⟨rfl, rfl, rfl⟩
    | absent missing => exact absurd missing found
    | called missing | passed missing => exact absurd (missing a rfl) found
  · rintro ⟨rfl, rfl, rfl⟩
    exact .present found

/-- Where the key is not, and there is no metamethod, nil is read. -/
theorem reads_absent_iff (missing : (h.table a).getValue k = .nil)
    (plain : metamethod h (.table a) "index" = .nil) :
    Reads tools fuel k (n + 1) h w (.table a) x h' w' ↔ x = .nil ∧ h' = h ∧ w' = w := by
  constructor
  · intro hr
    cases hr with
    | present found => exact absurd missing found
    | absent => exact ⟨rfl, rfl, rfl⟩
    | called _ function => rw [plain] at function; cases function
    | passed _ _ some => exact absurd plain some
  · rintro ⟨rfl, rfl, rfl⟩
    exact .absent missing plain

/-- What is no table cannot be read without a metamethod. -/
theorem not_reads_of_plain (hv : ∀ a, v ≠ .table a) (plain : metamethod h v "index" = .nil) :
    ¬ Reads tools fuel k (n + 1) h w v x h' w' := by
  intro hr
  cases hr with
  | present | absent => exact hv _ rfl
  | called _ function => rw [plain] at function; cases function
  | passed _ _ some => exact some plain

/-- Where the key is not, a metamethod is called if it is a function, and read otherwise. -/
theorem reads_onward_iff (missing : Lacks h v k) (some : metamethod h v "index" ≠ .nil) :
    Reads tools fuel k (n + 1) h w v x h' w' ↔
      if Operation.isFunction (metamethod h v "index") = true then
        ∃ vs, x = vs.headD .nil ∧
          ask tools fuel (.call (metamethod h v "index") [v, k] .outside) h w =
            (.returned vs, h', w')
      else Reads tools fuel k n h w (metamethod h v "index") x h' w' := by
  constructor
  · intro hr
    cases hr with
    | present found => exact absurd (missing _ rfl) found
    | absent _ plain => exact absurd plain some
    | called _ function returns =>
      rw [if_pos function]
      exact ⟨_, rfl, returns⟩
    | passed _ other _ next =>
      rw [other, if_neg Bool.false_ne_true]
      exact next
  · intro hr
    split at hr
    · next function =>
      obtain ⟨vs, rfl, returns⟩ := hr
      exact .called missing function returns
    · next other => exact .passed missing (Bool.eq_false_iff.2 other) some hr

/-- An operation that a value does not take gives nothing. -/
theorem not_gives_wrongType {operation : String} {name : Described} {b : α} :
    ¬ Gives tools fuel (Operation.wrongType .library operation v name) h w b h' w' := fun hg => by
  obtain ⟨_, _, _, _, hf⟩ := gives_bind_iff.1 hg
  exact not_gives_raise hf

/-- Reading at a value that is no table asks for the metamethod, and fails without one. -/
theorem indexFrom_of_not_table (name : Described) (k : Value) (n : Nat)
    (hv : ∀ a, v ≠ .table a) :
    ∃ last : Program Value, (∀ h w x h' w', ¬ Gives tools fuel last h w x h' w') ∧
      Operation.indexFrom .library name k (n + 1) v = (do
        let f ← Operation.handler v "index"
        if f == .nil then last
        else if Operation.isFunction f then Operation.callEventOne .library "index" f [v, k]
        else Operation.indexFrom .library none k n f) := by
  cases v with
  | table a => exact absurd rfl (hv a)
  | tool _ | foreign _ =>
    cases k with
    | str key => exact ⟨_, fun _ _ _ _ _ => not_gives_raise, rfl⟩
    | _ => exact ⟨_, fun _ _ _ _ _ => not_gives_wrongType, rfl⟩
  | _ => exact ⟨_, fun _ _ _ _ _ => not_gives_wrongType, rfl⟩

/-- Reading along a chain succeeds exactly by the rules. -/
theorem gives_indexFrom_iff {name : Described} :
    Gives tools fuel (Operation.indexFrom .library name k n v) h w x h' w' ↔
      Reads tools fuel k n h w v x h' w' := by
  induction n generalizing name v with
  | zero =>
    rw [Operation.indexFrom]
    exact iff_of_false not_gives_raise fun hr => by cases hr
  | succ n ih =>
    -- Reading by a metamethod is the same for all values.
    have onward : ∀ {u : Value}, Lacks h u k → metamethod h u "index" ≠ .nil →
        (Gives tools fuel
          (if Operation.isFunction (metamethod h u "index") = true then
            Operation.callEventOne .library "index" (metamethod h u "index") [u, k]
          else Operation.indexFrom .library none k n (metamethod h u "index")) h w x h' w' ↔
          Reads tools fuel k (n + 1) h w u x h' w') := fun missing some => by
      rw [reads_onward_iff missing some]
      split
      · exact gives_callEventOne_iff
      · exact ih
    by_cases hv : ∃ a, v = .table a
    · obtain ⟨a, rfl⟩ := hv
      rw [Operation.indexFrom, gives_ask_iff rfl]
      simp only [Heap.reply, List.headD_cons]
      by_cases missing : (h.table a).getValue k = .nil
      · rw [missing]
        refine gives_handler_iff.trans ?_
        split
        · next plain =>
          rw [reads_absent_iff missing plain]
          exact gives_done_iff
        · next some => exact onward (lacks_table missing) some
      · split
        · next found => exact absurd found missing
        · rw [reads_found_iff missing]
          exact gives_done_iff
    · have hv : ∀ a, v ≠ .table a := fun a h => hv ⟨a, h⟩
      obtain ⟨last, hlast, heq⟩ := @indexFrom_of_not_table tools fuel v name k n hv
      rw [heq]
      refine gives_handler_iff.trans ?_
      split
      · next plain => exact iff_of_false (hlast _ _ _ _ _) (not_reads_of_plain hv plain)
      · next some => exact onward (lacks_of_not_table hv) some

end

/-! ## Writing -/

/-- Writing `v[k] = x` succeeds, along a chain of at most `n` values. -/
inductive Writes (tools : Array Tool) (fuel : Nat) (k x : Value) :
    Nat → Heap → World → Value → Heap → World → Prop where
  /-- The key is there, or there is no metamethod: the value is stored. -/
  | stored {n : Nat} {h : Heap} {w : World} {a : Address} {key : Key}
      (settled : (h.table a).getValue k ≠ .nil ∨ metamethod h (.table a) "newindex" = .nil)
      (valid : k.key? = some key) :
      Writes tools fuel k x (n + 1) h w (.table a) (h.modifyTable a (·.set key x)) w
  /-- The metamethod is a function, whose call returns. -/
  | called {n : Nat} {h h' : Heap} {w w' : World} {v : Value} {vs : List Value}
      (missing : Lacks h v k) (function : Operation.isFunction (metamethod h v "newindex") = true)
      (returns : ask tools fuel (.call (metamethod h v "newindex") [v, k, x] .outside) h w =
        (.returned vs, h', w')) :
      Writes tools fuel k x (n + 1) h w v h' w'
  /-- The metamethod is another value, which the write is passed on to. -/
  | passed {n : Nat} {h h' : Heap} {w w' : World} {v : Value}
      (missing : Lacks h v k) (other : Operation.isFunction (metamethod h v "newindex") = false)
      (some : metamethod h v "newindex" ≠ .nil)
      (next : Writes tools fuel k x n h w (metamethod h v "newindex") h' w') :
      Writes tools fuel k x (n + 1) h w v h' w'

/-- Throwing a result away does not change whether there is one. -/
theorem gives_discard_iff {p : Program α} {u : Unit} :
    Gives tools fuel (discard p) h w u h' w' ↔ ∃ a, Gives tools fuel p h w a h' w' := by
  change Gives tools fuel (p >>= fun _ => pure ()) h w u h' w' ↔ _
  refine gives_bind_iff.trans ⟨?_, fun ⟨a, ha⟩ => ⟨a, h', w', ha, gives_done_iff.2 ⟨rfl, rfl, rfl⟩⟩⟩
  rintro ⟨a, h₁, w₁, ha, hu⟩
  obtain ⟨-, rfl, rfl⟩ := gives_done_iff.1 hu
  exact ⟨a, ha⟩

section
variable {n : Nat} {a : Address} {k v x : Value}

/-- A write that no metamethod takes stores the value, if the key can be one. -/
theorem gives_store_iff {u : Unit} :
    Gives tools fuel (Operation.store .library a k x) h w u h' w' ↔
      ∃ key, k.key? = some key ∧ h' = h.modifyTable a (·.set key x) ∧ w' = w := by
  unfold Operation.store
  split
  · next key valid =>
    refine gives_discard_iff.trans ⟨fun ⟨vs, hvs⟩ => ?_, fun ⟨key', hk, hh, hw⟩ => ?_⟩
    · exact ⟨key, valid, ((gives_query_iff rfl).1 hvs).2⟩
    · cases valid.symm.trans hk
      exact ⟨_, (gives_query_iff rfl).2 ⟨rfl, hh, hw⟩⟩
  · next invalid =>
    refine iff_of_false (fun hg => ?_) fun ⟨key, hk, _⟩ => ?_
    · split at hg <;> exact not_gives_raise hg
    · rw [invalid] at hk; cases hk

/-- Where the key is, or there is no metamethod, the value is stored. -/
theorem writes_settled_iff
    (settled : (h.table a).getValue k ≠ .nil ∨ metamethod h (.table a) "newindex" = .nil) :
    Writes tools fuel k x (n + 1) h w (.table a) h' w' ↔
      ∃ key, k.key? = some key ∧ h' = h.modifyTable a (·.set key x) ∧ w' = w := by
  constructor
  · intro hr
    cases hr with
    | stored _ valid => exact ⟨_, valid, rfl, rfl⟩
    | called missing function =>
      obtain found | plain := settled
      · exact absurd (missing a rfl) found
      · rw [plain] at function
        cases function
    | passed missing _ some =>
      obtain found | plain := settled
      · exact absurd (missing a rfl) found
      · exact absurd plain some
  · rintro ⟨key, valid, rfl, rfl⟩
    exact .stored settled valid

/-- What is no table cannot be written without a metamethod. -/
theorem not_writes_of_plain (hv : ∀ a, v ≠ .table a) (plain : metamethod h v "newindex" = .nil) :
    ¬ Writes tools fuel k x (n + 1) h w v h' w' := by
  intro hr
  cases hr with
  | stored => exact hv _ rfl
  | called _ function => rw [plain] at function; cases function
  | passed _ _ some => exact some plain

/-- Where the key is not, a metamethod is called if it is a function, and written otherwise. -/
theorem writes_onward_iff (missing : Lacks h v k) (some : metamethod h v "newindex" ≠ .nil) :
    Writes tools fuel k x (n + 1) h w v h' w' ↔
      if Operation.isFunction (metamethod h v "newindex") = true then
        ∃ vs, ask tools fuel (.call (metamethod h v "newindex") [v, k, x] .outside) h w =
          (.returned vs, h', w')
      else Writes tools fuel k x n h w (metamethod h v "newindex") h' w' := by
  constructor
  · intro hr
    cases hr with
    | stored settled =>
      obtain found | plain := settled
      · exact absurd (missing _ rfl) found
      · exact absurd plain some
    | called _ function returns =>
      rw [if_pos function]
      exact ⟨_, returns⟩
    | passed _ other _ next =>
      rw [other, if_neg Bool.false_ne_true]
      exact next
  · intro hr
    split at hr
    · next function =>
      obtain ⟨vs, returns⟩ := hr
      exact .called missing function returns
    · next other => exact .passed missing (Bool.eq_false_iff.2 other) some hr

/-- Writing at a value that is no table asks for the metamethod, and fails without one. -/
theorem setIndexFrom_of_not_table (name : Described) (k x : Value) (n : Nat)
    (hv : ∀ a, v ≠ .table a) :
    Operation.setIndexFrom .library name k x (n + 1) v = (do
      let f ← Operation.handler v "newindex"
      if f == .nil then Operation.wrongType .library "index" v name
      else if Operation.isFunction f then
        discard (Operation.callEvent .library "newindex" f [v, k, x])
      else Operation.setIndexFrom .library none k x n f) := by
  cases v with
  | table a => exact absurd rfl (hv a)
  | _ => rfl

/-- Writing along a chain succeeds exactly by the rules. -/
theorem gives_setIndexFrom_iff {name : Described} {u : Unit} :
    Gives tools fuel (Operation.setIndexFrom .library name k x n v) h w u h' w' ↔
      Writes tools fuel k x n h w v h' w' := by
  induction n generalizing name v with
  | zero =>
    rw [Operation.setIndexFrom]
    exact iff_of_false not_gives_raise fun hr => by cases hr
  | succ n ih =>
    -- Writing by a metamethod is the same for all values.
    have onward : ∀ {t : Value}, Lacks h t k → metamethod h t "newindex" ≠ .nil →
        (Gives tools fuel
          (if Operation.isFunction (metamethod h t "newindex") = true then
            discard (Operation.callEvent .library "newindex" (metamethod h t "newindex") [t, k, x])
          else Operation.setIndexFrom .library none k x n (metamethod h t "newindex"))
          h w u h' w' ↔
          Writes tools fuel k x (n + 1) h w t h' w') := fun missing some => by
      rw [writes_onward_iff missing some]
      split
      · exact gives_discard_iff.trans (exists_congr fun _ => gives_call_iff)
      · exact ih
    by_cases hv : ∃ a, v = .table a
    · obtain ⟨a, rfl⟩ := hv
      rw [Operation.setIndexFrom, gives_ask_iff rfl]
      simp only [Heap.reply, List.headD_cons]
      by_cases missing : (h.table a).getValue k = .nil
      · rw [missing]
        refine gives_handler_iff.trans ?_
        split
        · next plain =>
          rw [writes_settled_iff (.inr plain)]
          exact gives_store_iff
        · next some => exact onward (lacks_table missing) some
      · split
        · next found => exact absurd found missing
        · rw [writes_settled_iff (.inl missing)]
          exact gives_store_iff
    · have hv : ∀ a, v ≠ .table a := fun a h => hv ⟨a, h⟩
      rw [setIndexFrom_of_not_table name k x n hv]
      refine gives_handler_iff.trans ?_
      split
      · next plain => exact iff_of_false not_gives_wrongType (not_writes_of_plain hv plain)
      · next some => exact onward (lacks_of_not_table hv) some

end

/-! ## Paths -/

/-- Writing `x` at a path below a value succeeds. -/
inductive Assigns (tools : Array Tool) (fuel : Nat) (missing : Missing) (x : Value) :
    Heap → World → Value → List Bytes → Heap → World → Prop where
  /-- There is no path. -/
  | here {h : Heap} {w : World} {target : Value} :
      Assigns tools fuel missing x h w target [] h w
  /-- The path ends here. -/
  | leaf {h h' : Heap} {w w' : World} {target : Value} {name : Bytes}
      (write : Writes tools fuel (.str name) x Operation.maxChain h w target h' w') :
      Assigns tools fuel missing x h w target [name] h' w'
  /-- There is a table on the way. -/
  | inside {h h₁ h' : Heap} {w w₁ w' : World} {target : Value} {a : Address} {scope name : Bytes}
      {rest : List Bytes}
      (read : Reads tools fuel (.str scope) Operation.maxChain h w target (.table a) h₁ w₁)
      (next : Assigns tools fuel missing x h₁ w₁ (.table a) (name :: rest) h' w') :
      Assigns tools fuel missing x h w target (scope :: name :: rest) h' w'
  /-- There is no table on the way, and none is made. -/
  | stopped {h h' : Heap} {w w' : World} {target v : Value} {scope name : Bytes} {rest : List Bytes}
      (stops : missing = .stop)
      (read : Reads tools fuel (.str scope) Operation.maxChain h w target v h' w')
      (noTable : ∀ a, v ≠ .table a) :
      Assigns tools fuel missing x h w target (scope :: name :: rest) h' w'
  /-- There is no table on the way, and one is made. -/
  | created {h h₁ h₂ h' : Heap} {w w₁ w₂ w' : World} {target v : Value} {scope name : Bytes}
      {rest : List Bytes} (creates : missing = .create)
      (read : Reads tools fuel (.str scope) Operation.maxChain h w target v h₁ w₁)
      (noTable : ∀ a, v ≠ .table a)
      (write : Writes tools fuel (.str scope) (.table h₁.tables.size) Operation.maxChain
        (h₁.newTable Table.empty).2 w₁ target h₂ w₂)
      (next : Assigns tools fuel missing x h₂ w₂ (.table h₁.tables.size) (name :: rest) h' w') :
      Assigns tools fuel missing x h w target (scope :: name :: rest) h' w'

/-- Reading succeeds exactly by the rules. -/
theorem gives_index_iff {v k x : Value} :
    Gives tools fuel (Operation.index .library none v k) h w x h' w' ↔
      Reads tools fuel k Operation.maxChain h w v x h' w' := gives_indexFrom_iff

/-- Writing succeeds exactly by the rules. -/
theorem gives_setIndex_iff {v k x : Value} {u : Unit} :
    Gives tools fuel (Operation.setIndex .library none v k x) h w u h' w' ↔
      Writes tools fuel k x Operation.maxChain h w v h' w' := gives_setIndexFrom_iff

/-- Writing at a path succeeds exactly by the rules. -/
theorem gives_assignBelow_iff {missing : Missing} {x target : Value} {path : List Bytes}
    {u : Unit} :
    Gives tools fuel (assignBelow missing x target path) h w u h' w' ↔
      Assigns tools fuel missing x h w target path h' w' := by
  induction path generalizing target h w with
  | nil =>
    rw [assignBelow]
    refine gives_done_iff.trans ⟨?_, fun ha => ?_⟩
    · rintro ⟨-, rfl, rfl⟩
      exact .here
    · cases ha
      exact ⟨rfl, rfl, rfl⟩
  | cons scope path ih =>
    cases path with
    | nil =>
      change Gives tools fuel (Operation.setIndex .library none target (.str scope) x)
        h w u h' w' ↔ _
      refine gives_setIndex_iff.trans ⟨.leaf, fun ha => ?_⟩
      cases ha with
      | leaf write => exact write
    | cons name rest =>
      rw [assignBelow.eq_def]
      dsimp only
      rw [gives_bind_iff]
      constructor
      · rintro ⟨v, h₁, w₁, hread, hnext⟩
        have read := gives_index_iff.1 hread
        split at hnext
        · exact .inside read (ih.1 hnext)
        · next noTable =>
          have noTable : ∀ a, v ≠ .table a := noTable
          split at hnext
          · obtain ⟨-, rfl, rfl⟩ := gives_done_iff.1 hnext
            exact .stopped rfl read noTable
          · rw [gives_ask_iff rfl] at hnext
            obtain ⟨_, h₂, w₂, hwrite, hbelow⟩ := gives_bind_iff.1 hnext
            exact .created rfl read noTable (gives_setIndex_iff.1 hwrite) (ih.1 hbelow)
      · intro ha
        cases ha with
        | inside read next => exact ⟨_, _, _, gives_index_iff.2 read, ih.2 next⟩
        | stopped stops read noTable =>
          refine ⟨_, _, _, gives_index_iff.2 read, ?_⟩
          split
          · exact absurd rfl (noTable _)
          · subst stops
            exact gives_done_iff.2 ⟨rfl, rfl, rfl⟩
        | created creates read noTable write next =>
          refine ⟨_, _, _, gives_index_iff.2 read, ?_⟩
          split
          · exact absurd rfl (noTable _)
          · subst creates
            dsimp only
            rw [gives_ask_iff rfl, gives_bind_iff]
            exact ⟨(), _, _, gives_setIndex_iff.2 write, ih.2 next⟩

end ScriptAgent.Sandbox
