import Mathlib.Logic.Relation
import ScriptAgent.Proofs.Script.Path
import ScriptAgent.Script.Machine

/-!
# Finding values

An expression that is a variable, or a path of fields from one on, is found by steps of the machine
that change nothing (`Finds`), as long as there is something at the end of the path: no metamethod
is asked for then. A call of what is found waits for its argument (`stepsTo_call`).
-/

namespace ScriptAgent.Script

/-- Steps of the machine, none of them the call of a tool, lead from a state to another one. -/
def State.StepsTo : State → State → Prop :=
  Relation.ReflTransGen fun s s' => s.step = .next s'

/-- The fields of a path, one after the other, from an expression on. -/
def Expr.fields (line : Nat) (e : Expr) (path : List Bytes) : Expr :=
  path.foldl (fun e k => .index e (.literal (.str k)) line) e

/-- A value is found for an expression, and nothing is changed. -/
def Finds (h : Heap) (c : Context) (e : Expr) (v : Value) : Prop :=
  ∀ stack activations nesting thread,
    State.StepsTo ⟨h, stack, .eval e c, activations, nesting, thread⟩
      ⟨h, stack, .ret [v], activations, nesting, thread⟩

section
variable {h : Heap} {c : Context} {e object : Expr} {v : Value} {b : Address} {k : Bytes}
  {line : Nat}

/-- A variable is found. -/
theorem finds_var (d : Nat) (name : Bytes) (upvalue : Bool) :
    Finds h c (.var d name upvalue) (h.cell (c.var d)) :=
  fun _ _ _ _ => .single rfl

/-- The field of a table is asked for first, and nothing else if there is something. -/
theorem index_table (p : Place) (name : Described) (b : Address) (k : Bytes) :
    ∃ rest, Operation.index p name (.table b) (.str k) = .ask (.rawGet b (.str k)) rest ∧
      ∀ v, v ≠ .nil → rest [v] = .done v := by
  refine ⟨_, rfl, fun v hv => ?_⟩
  cases v with
  | nil => exact absurd rfl hv
  | _ => rfl

/-- What is at a field of a table is found, unless it is nil. -/
theorem Finds.field (ho : Finds h c object (.table b)) (hobject : object.isLocal = false)
    (hv : (h.table b).getStr k ≠ .nil) :
    Finds h c (.index object (.literal (.str k)) line) ((h.table b).getStr k) := by
  intro stack activations nesting thread
  obtain ⟨rest, hask, hrest⟩ := index_table (c.place line) object.describe b k
  have hbegin : (⟨h, stack, .eval (.index object (.literal (.str k)) line) c, activations, nesting,
      thread⟩ : State).step =
      .next ⟨h, .indexKey object (.literal (.str k)) line c :: stack, .eval object c, activations,
        nesting, thread⟩ := by
    show Step.next (if object.isLocal then _ else _) = _
    rw [hobject]
    rfl
  have happly : (⟨h, .indexApply (.table b) object line c :: stack, .ret [.str k], activations,
      nesting, thread⟩ : State).step =
      .next ⟨h, stack, .native (.ask (.rawGet b (.str k)) fun vs =>
        (rest vs).bind fun v => .done [v]) none, activations, nesting, thread⟩ := by
    show Step.next (State.runOne _ (Operation.index _ _ _ (.str k))) = _
    rw [hask]
    rfl
  have hanswer : (⟨h, stack, .native (.ask (.rawGet b (.str k)) fun vs =>
      (rest vs).bind fun v => .done [v]) none, activations, nesting, thread⟩ : State).step =
      .next ⟨h, stack, .native (.done [(h.table b).getStr k]) none, activations, nesting,
        thread⟩ := by
    show Step.next ⟨h, stack, .native ((rest [(h.table b).getStr k]).bind _) none, _, _, _⟩ = _
    rw [hrest _ hv]
    rfl
  exact .head hbegin ((ho _ _ _ _).trans
    (.head rfl (.head rfl (.head happly (.head hanswer (.single rfl))))))

/-- What is at the end of a path of fields is found, unless it is nil. -/
theorem Finds.follow {path : List Bytes} (ho : Finds h c object v)
    (hobject : object.isLocal = false) (hv : h.follow v path ≠ .nil) :
    Finds h c (object.fields line path) (h.follow v path) := by
  induction path generalizing object v with
  | nil => exact ho
  | cons k path ih =>
    rcases v.table_or_not with ⟨b, rfl⟩ | noTable
    · have hk : (h.table b).getStr k ≠ .nil := by
        intro hk
        rw [Heap.follow_cons, Heap.field_table, hk] at hv
        cases path with
        | nil => exact hv rfl
        | cons => exact hv (Heap.follow_of_not_table nofun (List.cons_ne_nil _ _))
      exact ih (ho.field hobject hk) rfl hv
    · exact absurd (Heap.follow_of_not_table noTable (List.cons_ne_nil _ _)) hv

/-- A variable as the last of some expressions gives its value. -/
theorem stepsTo_var (d : Nat) (name : Bytes) (upvalue : Bool) (stack : List Frame)
    (activations nesting : Nat) (thread : Address) :
    State.StepsTo ⟨h, stack, .evalMany (.var d name upvalue) c, activations, nesting, thread⟩
      ⟨h, stack, .ret [h.cell (c.var d)], activations, nesting, thread⟩ :=
  .head rfl (finds_var d name upvalue _ _ _ _)

/-- A call of what is found waits for the values of its argument. -/
theorem stepsTo_call {f arg : Expr} (hf : Finds h c f v) (stack : List Frame)
    (activations nesting : Nat) (thread : Address) :
    State.StepsTo ⟨h, stack, .evalMany (.call f [arg] line) c, activations, nesting, thread⟩
      ⟨h, .apply v [] ⟨some (c.chunk, line), f.describe⟩ false :: stack, .evalMany arg c,
        activations, nesting, thread⟩ :=
  .head rfl ((hf _ _ _ _).trans (.single rfl))

end

end ScriptAgent.Script
