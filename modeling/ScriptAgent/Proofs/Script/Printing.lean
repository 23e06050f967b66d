import ScriptAgent.Proofs.Script.Performing

/-!
# What a call that prints makes its line of

The line of a call is made of the texts of its arguments. The text of a value is its own, or what
its metamethod for it returns; then the metamethod has been called, with the value as its only
argument (`Told`). `print` takes the text of each argument, nil included, and joins them by single
spaces. The other two functions put a mark before the text of their message, and take the text of
the result, which is the result itself unless strings have a metamethod (`Prints`).

`Completing.prints` says that this is what happens between the beginning of a call and its
completion, whatever else runs in the meantime.
-/

namespace ScriptAgent.Script

/-- The text of a table that has no metamethod for it: its metatable may name its kind. -/
def tableText (h : Heap) (a : Address) : Bytes :=
  match h.metafield (.table a) (Bytes.ofAscii "__name") with
  | .str name => name ++ Bytes.ofAscii ": " ++ Operation.addressText a
  | _ => Operation.plainText (.table a)

/-- States of a run in which the metamethod for the text of a value is called above some frames, and
returns a text. -/
inductive Retold (B : List Frame) : Value → List State → Bytes → Prop
  | intro {v f : Value} {s s' : State} {inner : List State} {vs : List Value} (stack : s.stack = B)
      (stack' : s'.stack = B)
      (present : s.heap.metafield v (Bytes.ofAscii "__tostring") = f) (noNil : f ≠ .nil)
      (calls : Calls B f [v] inner vs) (textual : (vs.headD .nil).isTextual = true) :
      Retold B v (s :: s' :: inner) (Library.textBytes (vs.headD .nil))

/-- States of a run in which the text of a value is found above some frames. -/
inductive Told (B : List Frame) : Value → List State → Bytes → Prop
  /-- The value has no metamethod, and its text is its own. -/
  | own {v : Value} {s : State} (stack : s.stack = B)
      (absent : s.heap.metafield v (Bytes.ofAscii "__tostring") = .nil)
      (noTable : ∀ a, v ≠ .table a) : Told B v [s] (Operation.plainText v)
  | ownTable {a : Address} {s s' : State} (stack : s.stack = B) (stack' : s'.stack = B)
      (absent : s.heap.metafield (.table a) (Bytes.ofAscii "__tostring") = .nil) :
      Told B (.table a) [s, s'] (tableText s'.heap a)
  | called {v : Value} {states : List State} {text : Bytes} (retold : Retold B v states text) :
      Told B v states text

/-- States of a run in which the texts of some values are found above some frames, in order. -/
inductive Tells (B : List Frame) : List Value → List State → List Bytes → Prop
  | nil : Tells B [] [] []
  | cons {v : Value} {vs : List Value} {first rest : List State} {text : Bytes}
      {texts : List Bytes} (told : Told B v first text) (next : Tells B vs rest texts) :
      Tells B (v :: vs) (first ++ rest) (text :: texts)

/-- What a call that prints writes before its message. -/
def Native.mark : Native → Bytes
  | .thought => Bytes.ofAscii "[THOUGHT] "
  | .observation => Bytes.ofAscii "[OBSERVATION] "
  | _ => []

/-- States of a run in which the line of a call that prints is made above some frames. -/
inductive Prints (B : List Frame) : Native → List Value → List State → Bytes → Prop
  /-- The texts of all arguments are joined by single spaces. -/
  | plain {args : List Value} {states : List State} {texts : List Bytes}
      (tells : Tells B args states texts) :
      Prints B .print args states (Library.joinSpaces texts)
  /-- The message is the first argument, or nil. The line is the mark before its text, unless
  strings have a metamethod for their text by then. -/
  | marked {f : Native} {args : List Value} {first : List State} {s : State} {text : Bytes}
      (marks : f = .thought ∨ f = .observation) (message : Told B (args.getD 0 .nil) first text)
      (stack : s.stack = B)
      (absent : s.heap.metafield (.str (f.mark ++ text)) (Bytes.ofAscii "__tostring") = .nil) :
      Prints B f args (first ++ [s]) (f.mark ++ text)
  /-- Strings have one, and the line is what it returns for the marked text. -/
  | retold {f : Native} {args : List Value} {first rest : List State} {text line : Bytes}
      (marks : f = .thought ∨ f = .observation) (message : Told B (args.getD 0 .nil) first text)
      (result : Retold B (.str (f.mark ++ text)) rest line) :
      Prints B f args (first ++ rest) line

section
variable {B : List Frame} {site : Site} {p : Place} {v : Value} {vs xs : List Value}
  {states : List State}

/-- The text of a value takes a question about it, and a call of its metamethod. -/
theorem toText_eq (site : Site) (p : Place) (v : Value) :
    Operation.toText site p v =
      .ask (.metafield v (Bytes.ofAscii "__tostring")) fun fs =>
        match fs.headD .nil with
        | .nil => Operation.ownText v
        | f => .ask (.call f [v] ⟨p.position, p.position.map fun _ =>
            (.metamethod, Bytes.ofAscii "tostring")⟩) fun vs =>
          if (vs.headD .nil).isTextual then .done (vs.headD .nil)
          else Program.failText site "'__tostring' must return a string" := by
  rfl

/-- The text of a table that no metamethod gives takes a question about it. -/
theorem ownText_table (a : Address) :
    Operation.ownText (.table a) =
      .ask (.metafield (.table a) (Bytes.ofAscii "__name")) fun ns =>
        match ns.headD .nil with
        | .str name => .done (.str (name ++ Bytes.ofAscii ": " ++ Operation.addressText a))
        | _ => .done (.str (Operation.plainText (.table a))) := by
  rfl

/-- The text of any other value that no metamethod gives is found at once. -/
theorem ownText_of_noTable (noTable : ∀ a, v ≠ .table a) :
    Operation.ownText v = .done (.str (Operation.plainText v)) := by
  cases v with
  | table a => exact absurd rfl (noTable a)
  | _ => rfl

theorem direct_ownText (v : Value) : (Operation.ownText v).Direct := by
  by_cases isTable : ∃ a, v = .table a
  · obtain ⟨a, rfl⟩ := isTable
    rw [ownText_table]
    refine .heap rfl fun ns => ?_
    split <;> exact .done _
  · rw [ownText_of_noTable fun a h => isTable ⟨a, h⟩]
    exact .done _

theorem direct_toText (site : Site) (p : Place) (v : Value) :
    (Operation.toText site p v).Direct := by
  rw [toText_eq]
  refine .heap rfl fun fs => ?_
  split
  · exact direct_ownText v
  · refine .call fun vs => ?_
    split
    · exact .done _
    · exact .raise _

/-- A program that asks for a field of a metatable goes on with it. -/
theorem Performs.of_metafield {α : Type} {name : Bytes} {k : List Value → Program α} {a : α}
    (h : Performs B (.ask (.metafield v name) k) states a) : ∃ s rest, states = s :: rest ∧
      s.stack = B ∧ Performs B (k [s.heap.metafield v name]) rest a := by
  cases h with
  | @heap _ _ s rest _ _ stack next => exact ⟨s, rest, rfl, stack, next⟩

/-- What a program that asks for the own text of a table finds is that. -/
theorem performs_ownText_table {a : Address} {x : Value}
    (h : Performs B (Operation.ownText (.table a)) states x) :
    ∃ s, states = [s] ∧ s.stack = B ∧ x = .str (tableText s.heap a) := by
  rw [ownText_table] at h
  obtain ⟨s, rest, rfl, stack, next⟩ := h.of_metafield
  refine ⟨s, ?_⟩
  unfold tableText
  dsimp only [List.headD_cons] at next
  split at next <;>
  · cases next
    exact ⟨rfl, stack, rfl⟩

/-- What a program that asks for the text of a value finds is its text. -/
theorem told_of_performs {x : Value} (h : Performs B (Operation.toText site p v) states x) :
    Told B v states (Library.textBytes x) := by
  rw [toText_eq] at h
  obtain ⟨s, rest, rfl, stack, next⟩ := h.of_metafield
  dsimp only [List.headD_cons] at next
  split at next
  · next absent =>
    by_cases isTable : ∃ a, v = .table a
    · obtain ⟨a, rfl⟩ := isTable
      obtain ⟨s', rfl, stack', rfl⟩ := performs_ownText_table next
      exact .ownTable stack stack' absent
    · rw [ownText_of_noTable fun a h => isTable ⟨a, h⟩] at next
      cases next
      exact .own stack absent fun a h => isTable ⟨a, h⟩
  · next noNil =>
    cases next with
    | heap about => cases about
    | @call _ _ _ _ s' inner _ vs _ stack' calls next =>
      dsimp only at next
      split at next
      · next textual =>
        cases next
        rw [List.append_nil]
        exact .called (.intro stack stack' rfl noNil calls textual)
      · cases next

theorem direct_texts (line : Nat) (vs : List Value) : (Library.texts line vs).Direct := by
  induction vs with
  | nil => exact .done _
  | cons v rest ih => exact (direct_toText _ _ v).bind fun t => ih.bind fun ts => .done _

/-- What a program that asks for the texts of some values finds are their texts. -/
theorem tells_of_performs {line : Nat} {texts : List Bytes}
    (h : Performs B (Library.texts line vs) states texts) : Tells B vs states texts := by
  induction vs generalizing states texts with
  | nil =>
    cases h
    exact .nil
  | cons v rest ih =>
    obtain ⟨first, states, x, rfl, hx, h⟩ := Performs.of_bind h
    obtain ⟨states, last, xs, rfl, hxs, h⟩ := Performs.of_bind h
    cases h
    rw [List.append_nil]
    exact .cons (told_of_performs hx) (ih hxs)

theorem direct_lineOf (args : List Value) : (Library.lineOf args).Direct :=
  (direct_texts 22 args).bind fun _ => .done _

theorem direct_markedLine (mark : String) (line : Nat) (v : Value) :
    (Library.markedLine mark line v).Direct :=
  (direct_toText _ _ v).bind fun _ => direct_lineOf _

/-- The line of some values is made of their texts. -/
theorem tells_of_performs_lineOf (h : Performs B (Library.lineOf vs) states xs) :
    ∃ texts, Tells B vs states texts ∧ xs = [.str (Library.joinSpaces texts)] := by
  obtain ⟨first, rest, texts, rfl, htexts, h⟩ := Performs.of_bind h
  cases h
  rw [List.append_nil]
  exact ⟨texts, tells_of_performs htexts, rfl⟩

/-- A text that is joined alone is itself. -/
theorem joinSpaces_singleton (text : Bytes) : Library.joinSpaces [text] = text := by
  simp [Library.joinSpaces]

/-- The line of a marked message is found as the text of the marked text. -/
theorem prints_of_performs_markedLine {f : Native} {mark : String} {line : Nat} {args : List Value}
    (marks : f = .thought ∨ f = .observation) (hmark : f.mark = Bytes.ofAscii mark)
    (h : Performs B (Library.markedLine mark line (args.getD 0 .nil)) states xs) :
    ∃ text, Prints B f args states text ∧ xs = [.str text] := by
  obtain ⟨first, rest, x, rfl, hx, h⟩ := Performs.of_bind h
  obtain ⟨texts, tells, rfl⟩ := tells_of_performs_lineOf h
  cases tells with
  | @cons _ _ last _ text _ told next =>
    cases next
    rw [List.append_nil, joinSpaces_singleton]
    rw [← hmark] at told
    refine ⟨text, ?_, rfl⟩
    cases told with
    | own stack absent => exact .marked marks (told_of_performs hx) stack absent
    | called retold => exact .retold marks (told_of_performs hx) retold

/-- The line of a call that prints is what its program finds. -/
theorem prints_of_performs {inv : Invocation} (prints : inv.function.prints = true)
    (h : Performs B (inv.function.run inv.args inv.site) states xs) :
    ∃ line, Prints B inv.function inv.args states line ∧ xs = [.str line] := by
  obtain ⟨f, args, site⟩ := inv
  cases f with
  | print =>
    obtain ⟨texts, tells, rfl⟩ := tells_of_performs_lineOf h
    exact ⟨_, .plain tells, rfl⟩
  | thought => exact prints_of_performs_markedLine (.inl rfl) rfl h
  | observation => exact prints_of_performs_markedLine (.inr rfl) rfl h
  | _ => cases prints

/-- The program of a call that prints asks for nothing but the heap and calls. -/
theorem direct_run {inv : Invocation} (prints : inv.function.prints = true) :
    (inv.function.run inv.args inv.site).Direct := by
  obtain ⟨f, args, site⟩ := inv
  cases f with
  | print => exact direct_lineOf args
  | thought | observation => exact direct_markedLine _ _ _
  | _ => cases prints

end

/-- From its beginning to its completion, a call that prints makes its line, and is given it. -/
theorem Completing.prints {inv : Invocation} {K : List Frame} {s t : State} {states : List State}
    {vs : List Value} (h : Completing inv K (s :: states) t vs)
    (prints : inv.function.prints = true) (stack : s.stack = .printing inv :: K)
    (mode : s.mode = .native (inv.function.run inv.args inv.site) (some inv.site)) :
    ∃ making u line, s :: states = making ++ [u, t] ∧ u.stack = .printing inv :: K ∧
      vs = [.str line] ∧ Prints (.printing inv :: K) inv.function inv.args making line := by
  obtain ⟨making, u, site, heq, ustack, -, hp⟩ := h.performs (direct_run prints) stack mode
  obtain ⟨line, hprints, rfl⟩ := prints_of_performs prints hp
  exact ⟨making, u, line, heq, ustack, rfl, hprints⟩

end ScriptAgent.Script
