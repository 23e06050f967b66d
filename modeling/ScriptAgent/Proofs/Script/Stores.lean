import ScriptAgent.Proofs.Script.Heap
import ScriptAgent.Script.Machine

/-!
# What a step stores

The machine stores values in fields of tables in three ways only: a program asks for a write without
metamethods, a table constructor stores a field, or a call that prints completes and its line is
appended to the print buffer. `State.stores?` tells from a state alone whether its next step does
this for a field. Every other step leaves the field as it is (`State.stores_step`).

The parts of a step are gone through one by one. Most leave all tables as they are (the lemmas of
the form `tables_…`); a table constructor adds a table, and stores values at integers
(`Heap.KeepsFields`).
-/

namespace ScriptAgent.Script

/-- No table is lost, and each has the same fields as before. Values at other keys may differ. -/
structure Heap.KeepsFields (h h' : Heap) : Prop where
  size : h.tables.size ≤ h'.tables.size
  field : ∀ a < h.tables.size, ∀ k, (h'.table a).getStr k = (h.table a).getStr k

namespace Heap.KeepsFields

variable {h h' h'' : Heap} {a : Address} {f : Table → Table}

/-- A heap keeps its fields. -/
theorem refl (h : Heap) : KeepsFields h h := ⟨Nat.le_refl _, fun _ _ _ => rfl⟩

/-- Fields that are kept twice are kept. -/
theorem trans (h₁ : KeepsFields h h') (h₂ : KeepsFields h' h'') : KeepsFields h h'' :=
  ⟨Nat.le_trans h₁.size h₂.size, fun a ha k => by
    rw [h₂.field a (Nat.lt_of_lt_of_le ha h₁.size), h₁.field a ha]⟩

/-- Kept tables have kept fields. -/
theorem of_keeps (hk : h.Keeps (fun _ => True) h') : KeepsFields h h' :=
  ⟨hk.size, fun a ha k => by rw [hk.table a ha trivial]⟩

/-- The same tables have the same fields. -/
theorem of_tables (ht : h'.tables = h.tables) : KeepsFields h h' :=
  ⟨Nat.le_of_eq (congrArg Array.size ht).symm, fun a _ k => by rw [table, table, ht]⟩

/-- A new table keeps the fields of the others. -/
theorem newTable (h : Heap) (t : Table) : KeepsFields h (h.newTable t).2 :=
  of_keeps (Keeps.newTable _ h t)

/-- A change of a table keeps the fields that the change keeps. -/
theorem modifyTable (h : Heap) (a : Address) (hf : ∀ t k, (f t).getStr k = t.getStr k) :
    KeepsFields h (h.modifyTable a f) where
  size := Nat.le_of_eq (size_modifyTable h a f).symm
  field b hb k := by
    by_cases hab : a = b
    · subst hab
      rw [table_modifyTable_self hb, hf]
    · rw [table_modifyTable_ne hab]

end Heap.KeepsFields

/-- The heap after a step. -/
def Step.heap : Step → Heap
  | .next s => s.heap
  | .done _ h => h
  | .failed _ h => h
  | .tool _ _ s => s.heap

/-- The heap that a step leaves if it ends the run. -/
def Step.left? : Step → Option Heap
  | .done _ h | .failed _ h => some h
  | .next _ | .tool .. => none

open Heap (KeepsFields)

namespace State

variable (s : State)

/-! ## Parts of a step -/

@[simp] theorem heap_become (m : Mode) : (s.become m).heap = s.heap := rfl

@[simp] theorem heap_push (f : Frame) (m : Mode) : (s.push f m).heap = s.heap := rfl

@[simp] theorem heap_give (vs : List Value) : (s.give vs).heap = s.heap := rfl

@[simp] theorem heap_giveOne (v : Value) : (s.giveOne v).heap = s.heap := rfl

@[simp] theorem heap_fault (p : Place) (message : Bytes) : (s.fault p message).heap = s.heap := rfl

@[simp] theorem heap_runOne (p : Program Value) : (s.runOne p).heap = s.heap := by
  cases p <;> rfl

@[simp] theorem heap_runUnit (p : Program Unit) : (s.runUnit p).heap = s.heap := by
  cases p <;> rfl

@[simp] theorem heap_enter (body : List Stmt) (c : Context) : (s.enter body c).heap = s.heap := by
  unfold enter
  split <;> rfl

theorem tables_newCells (h : Heap) (acc : List Address) (vs : List Value) :
    (h.newCells acc vs).2.tables = h.tables := by
  induction vs generalizing h acc with
  | nil => rfl
  | cons v rest ih => exact ih _ _

@[simp] theorem tables_bind (c : Context) (vs : List Value) :
    (s.bind c vs).2.heap.tables = s.heap.tables :=
  tables_newCells s.heap [] vs

/-! ## Expressions -/

@[simp] theorem heap_evalList (es : List Expr) (c : Context) :
    (s.evalList es c).heap = s.heap := by
  unfold evalList
  split <;> rfl

@[simp] theorem heap_applyBinary (op : BinaryOp) (v w : Value) (left right : Expr) (line : Nat)
    (c : Context) : (s.applyBinary op v w left right line c).heap = s.heap :=
  heap_runOne _ _

@[simp] theorem heap_callWith (f : Value) (self : List Value) (args : List Expr) (site : Site)
    (tail : Bool) (c : Context) : (s.callWith f self args site tail c).heap = s.heap :=
  heap_evalList _ _ _

/-- Values that are stored at integers leave the fields as they are. -/
theorem getStr_storeItems (t : Table) (i : Nat) (vs : List Value) (k : Bytes) :
    (storeItems t i vs).getStr k = t.getStr k := by
  induction vs generalizing t i with
  | nil => rfl
  | cons v rest ih =>
    have hk : Key.int (Int64.ofNat (i + 1)) ≠ .str k := nofun
    exact (ih _ _).trans (Table.get_set_ne t hk v)

theorem keepsFields_storeWaiting (f : Filling) :
    KeepsFields s.heap (s.storeWaiting f).2.heap :=
  .modifyTable _ _ fun t k => getStr_storeItems t _ _ k

theorem keepsFields_storeIfMany (f : Filling) : KeepsFields s.heap (s.storeIfMany f).2.heap := by
  unfold storeIfMany
  split
  · exact keepsFields_storeWaiting s f
  · exact .refl _

theorem keepsFields_fillFields (f : Filling) (fields : List Field) (c : Context) :
    KeepsFields s.heap (s.fillFields f fields c).heap := by
  unfold fillFields
  split
  · exact keepsFields_storeWaiting s f
  · dsimp only
    split <;> exact keepsFields_storeIfMany s f
  · exact keepsFields_storeIfMany s f

theorem keepsFields_eval (e : Expr) (c : Context) : KeepsFields s.heap (s.eval e c).heap := by
  cases e with
  | table fields line =>
    exact (KeepsFields.newTable s.heap _).trans
      (keepsFields_fillFields (s.allocate (·.newTable Table.empty)).2 _ fields c)
  | literal l => cases l <;> exact .refl _
  | function body => exact .of_tables rfl
  | index object key line =>
    simp only [eval]
    split <;> exact .refl _
  | binary op left right line =>
    simp only [eval]
    split <;> exact .refl _
  | _ => exact .refl _

@[simp] theorem heap_evalMany (e : Expr) (c : Context) : (s.evalMany e c).heap = s.heap := by
  cases e <;> rfl

/-! ## Calls -/

theorem keepsFields_bindParameters (closure : Closure) (args : List Value) :
    KeepsFields s.heap (s.bindParameters closure args).2.heap := by
  unfold bindParameters
  dsimp only
  have hbind := KeepsFields.of_tables (tables_bind s ⟨closure.vars,
    if closure.function.vararg then args.drop closure.function.params else [],
    closure.function.chunk⟩ (adjust closure.function.params args))
  split
  · exact (hbind.trans (.newTable _ _)).trans (.of_tables (tables_bind _ _ _))
  · exact hbind

theorem keepsFields_callClosure (a : Address) (args : List Value) (site : Site) :
    KeepsFields s.heap (s.callClosure a args site).heap := by
  unfold callClosure
  split
  · exact .refl _
  · split
    · exact .refl _
    · next closure _ =>
      dsimp only
      rw [heap_enter]
      exact keepsFields_bindParameters s closure args

@[simp] theorem heap_callNative (inv : Invocation) : (s.callNative inv).heap = s.heap := by
  unfold callNative
  dsimp only
  split <;> rfl

theorem keepsFields_call (f : Value) (args : List Value) (site : Site) :
    KeepsFields s.heap (s.call f args site).heap := by
  unfold call
  split
  case h_3 a args _ => exact keepsFields_callClosure s a args site
  case h_2 v _ => exact .of_tables (congrArg Heap.tables (heap_runUnit s _))
  case h_4 n args _ => exact .of_tables (congrArg Heap.tables (heap_callNative s _))
  all_goals exact .refl _

theorem keepsFields_tailCall (f : Value) (args : List Value) (site : Site) :
    KeepsFields s.heap (s.tailCall f args site).heap := by
  unfold tailCall
  split
  · obtain ⟨heap, stack, mode, activations, nesting, thread⟩ := s
    exact keepsFields_callClosure
      ⟨heap, (dropActivation stack).1, mode, activations - 1, nesting, thread⟩ _ _ _
  · exact keepsFields_call (s.push .returnValues s.mode) f args site

@[simp] theorem tables_leaveThread (keep : List Frame → Thread) (answer : List Value) :
    (s.leaveThread keep answer).heap.tables = s.heap.tables := by
  unfold leaveThread
  dsimp only
  split <;> rfl

@[simp] theorem tables_resume (t : Address) (args : List Value) :
    (s.resume t args).heap.tables = s.heap.tables := by
  unfold resume
  dsimp only
  split
  · rfl
  · split
    · rfl
    · split <;> rfl
  · rfl

@[simp] theorem tables_yield (vs : List Value) : (s.yield vs).heap.tables = s.heap.tables := by
  unfold yield
  split
  · rfl
  · split
    · rfl
    · exact tables_leaveThread s _ _

@[simp] theorem tables_closeThread (t : Address) :
    (s.closeThread t).heap.tables = s.heap.tables := by
  unfold closeThread
  split
  · rfl
  · dsimp only
    split <;> rfl

@[simp] theorem tables_load (chunk text : Bytes) (env : Option Value) :
    (s.load chunk text env).heap.tables = s.heap.tables := by
  unfold load
  split <;> rfl

/-! ## Statements -/

@[simp] theorem heap_guardRest (v : Value) (name : Bytes) (line : Nat) (rest : List Stmt)
    (c : Context) (m : Mode) : (s.guardRest v name line rest c m).heap = s.heap := by
  unfold guardRest
  split <;> rfl

@[simp] theorem tables_declare (count : Nat) (close : Option (Nat × Bytes)) (line : Nat)
    (rest : List Stmt) (c : Context) (vs : List Value) :
    (s.declare count close line rest c vs).heap.tables = s.heap.tables := by
  unfold declare
  dsimp only
  split
  · exact tables_bind s c _
  · rw [heap_guardRest, tables_bind]

@[simp] theorem heap_assignTargets (done : List Slot) (targets : List Target)
    (values : List Expr) (line : Nat) (c : Context) :
    (s.assignTargets done targets values line c).heap = s.heap := by
  induction targets generalizing done with
  | nil => exact heap_evalList _ _ _
  | cons target rest ih =>
    cases target with
    | var d name => exact ih _
    | index object key => rfl

@[simp] theorem tables_storeSlots (line : Nat) (c : Context) (slots : List (Slot × Value)) :
    (s.storeSlots line c slots).heap.tables = s.heap.tables := by
  induction slots generalizing s with
  | nil => rfl
  | cons slot rest ih =>
    obtain ⟨slot, v⟩ := slot
    cases slot with
    | cell a => exact ih _
    | field object key name => exact congrArg Heap.tables (heap_runUnit _ _)

@[simp] theorem heap_loopFault (p : Place) (what : String) (v : Value) :
    (s.loopFault p what v).heap = s.heap :=
  heap_runUnit s _

@[simp] theorem tables_roundInt (i : Int64) (left : Nat) (step : Int64) (body : List Stmt)
    (c : Context) : (s.roundInt i left step body c).heap.tables = s.heap.tables := by
  unfold roundInt
  dsimp only
  rw [heap_enter, tables_bind, heap_push]

@[simp] theorem tables_roundFloat (x limit step : Float) (body : List Stmt) (c : Context) :
    (s.roundFloat x limit step body c).heap.tables = s.heap.tables := by
  unfold roundFloat
  dsimp only
  rw [heap_enter, tables_bind, heap_push]

@[simp] theorem tables_forNumeric (start limit step : Value) (body : List Stmt) (line : Nat)
    (c : Context) : (s.forNumeric start limit step body line c).heap.tables = s.heap.tables := by
  unfold forNumeric
  dsimp only
  repeat' split
  all_goals simp

@[simp] theorem heap_nextRound (count : Nat) (f state control : Value) (body : List Stmt)
    (line : Nat) (c : Context) :
    (s.nextRound count f state control body line c).heap = s.heap := rfl

@[simp] theorem tables_roundIn (count : Nat) (f state : Value) (vs : List Value)
    (body : List Stmt) (line : Nat) (c : Context) :
    (s.roundIn count f state vs body line c).heap.tables = s.heap.tables := by
  unfold roundIn
  split
  · rfl
  · dsimp only
    rw [heap_enter, tables_bind, heap_push]

@[simp] theorem tables_exec (body : List Stmt) (c : Context) :
    (s.exec body c).heap.tables = s.heap.tables := by
  cases body with
  | nil => rfl
  | cons stmt rest =>
    cases stmt with
    | declare n values close line =>
      cases values with
      | nil => exact tables_declare ..
      | cons => exact congrArg Heap.tables (heap_evalList ..)
    | assign => exact congrArg Heap.tables (heap_assignTargets ..)
    | block | «repeat» => exact congrArg Heap.tables (heap_enter ..)
    | forNumeric | forIn => exact congrArg Heap.tables (heap_evalList ..)
    | «return» values tail =>
      have htables := congrArg Heap.tables
        (heap_evalList (s.push .returnValues s.mode) values c)
      -- only a single call is told apart
      rcases values with _ | ⟨e, _ | _⟩ <;> cases tail
      all_goals first
        | exact htables
        | cases e <;> rfl
    | _ => rfl

/-! ## Errors -/

@[simp] theorem heap_runHandler (h e : Value) : (s.runHandler h e).heap = s.heap := by
  unfold runHandler
  dsimp only
  split <;> rfl

@[simp] theorem tables_raise (e : Value) : (s.raise e).heap.tables = s.heap.tables := by
  unfold raise
  split
  · exact congrArg Heap.tables (heap_runHandler s _ e)
  · exact congrArg Heap.tables (heap_runHandler s _ e)
  · exact tables_leaveThread s _ _
  · rfl
  · rfl

@[simp] theorem heap_drop : s.drop.heap = s.heap := by
  obtain ⟨heap, stack, mode, activations, nesting, thread⟩ := s
  cases stack <;> rfl

@[simp] theorem heap_callClose (v : Value) (error : List Value) (f : Frame) (c : Context) :
    (s.callClose v error f c).heap = s.heap := rfl

@[simp] theorem heap_closeOnTheWay (v : Value) (u : Unwind) (c : Context) :
    (s.closeOnTheWay v u c).heap = s.heap :=
  heap_drop s

theorem tables_unwind (u : Unwind) : (s.unwind u).heap.tables = s.heap.tables := by
  unfold unwind
  split
  · split <;> rfl
  · split
    all_goals try split
    all_goals simp [Step.heap]

/-! ## Stores -/

end State

/-- The value that a write at a key of a table stores in a field of a table, if it is that field. -/
def storedAt (b : Address) (key : Key) (v : Value) (a : Address) (k : Bytes) : Option Value :=
  if b = a ∧ key = .str k then some v else none

/-- The value that the answer to a question stores in a field of a table, if it does. -/
def Query.stores? (q : Query) : Address → Bytes → Option Value :=
  match q with
  | .rawSet b key v => storedAt b key v
  | _ => fun _ _ => none

/-- The value that a frame that is given values stores in a field of a table, if it does. -/
def Frame.stores? (f : Frame) (h : Heap) (vs : List Value) : Address → Bytes → Option Value :=
  match f with
  | .printing _ =>
    match State.bufferedText h with
    | some text =>
      storedAt globalsAddress (.str bufferName)
        (.str (text ++ Library.textBytes (vs.headD .nil) ++ [10]))
    | none => fun _ _ => none
  | .fieldValue f key _ _ _ =>
    match key.key? with
    | some key => storedAt f.table key (vs.headD .nil)
    | none => fun _ _ => none
  | _ => fun _ _ => none

/-- The value that the next step stores in a field of a table, if it does. -/
def State.stores? (s : State) : Address → Bytes → Option Value :=
  match s.mode, s.stack with
  | .native (.ask q _) _, _ => q.stores?
  | .ret vs, f :: _ => f.stores? s.heap vs
  | _, _ => fun _ _ => none

/-- No table is lost, and each field has the value that is stored in it, if there is one, or else
that of before. -/
structure Heap.Stores (x : Address → Bytes → Option Value) (h h' : Heap) : Prop where
  size : h.tables.size ≤ h'.tables.size
  field : ∀ a < h.tables.size, ∀ k,
    (h'.table a).getStr k = (x a k).getD ((h.table a).getStr k)

section
variable {h h' h'' : Heap} {x : Address → Bytes → Option Value}

/-- Nothing is stored where fields are kept. -/
theorem Heap.KeepsFields.stores (hk : h.KeepsFields h') : h.Stores (fun _ _ => none) h' :=
  ⟨hk.size, hk.field⟩

/-- Nothing is stored where the tables stay the same. -/
theorem Heap.stores_of_tables (ht : h'.tables = h.tables) : h.Stores (fun _ _ => none) h' :=
  (KeepsFields.of_tables ht).stores

/-- What is stored stays where fields are kept. -/
theorem Heap.Stores.trans (hs : h.Stores x h') (hk : h'.KeepsFields h'') : h.Stores x h'' :=
  ⟨Nat.le_trans hs.size hk.size, fun a ha k => by
    rw [hk.field a (Nat.lt_of_lt_of_le ha hs.size), hs.field a ha k]⟩

/-- A write at a key of a table stores the value at that key. -/
theorem Heap.stores_set (h : Heap) (b : Address) (key : Key) (v : Value) :
    h.Stores (storedAt b key v) (h.modifyTable b (·.set key v)) where
  size := Nat.le_of_eq (size_modifyTable h b _).symm
  field a ha k := by
    rw [Table.getStr, get_modifyTable_set, storedAt]
    by_cases hat : b = a ∧ key = .str k
    · rw [if_pos hat, if_pos ⟨hat.1 ▸ ha, hat⟩, Option.getD_some]
    · rw [if_neg hat, if_neg fun hin => hat hin.2, Option.getD_none, Table.getStr]

/-- The answer to a question about the heap stores what the question says. -/
theorem Heap.stores_reply (h : Heap) (q : Query) : h.Stores q.stores? (h.reply q).2 := by
  cases q with
  | rawSet b key v => exact stores_set h b key v
  | setMetatable b m =>
    refine KeepsFields.stores (KeepsFields.modifyTable h b ?_)
    exact fun _ _ => rfl
  | newTable => exact (KeepsFields.newTable h _).stores
  | next t key =>
    unfold reply
    dsimp only
    split <;> exact (KeepsFields.refl h).stores
  | _ =>
    refine Heap.stores_of_tables ?_
    rfl

end

namespace State

variable (s : State)

/-- The answer to a question stores what the question says. -/
theorem stores_answer (q : Query) (k : List Value → Program (List Value)) (site : Option Site) :
    s.heap.Stores q.stores? (s.answer q k site).heap := by
  obtain ⟨heap, stack, mode, activations, nesting, thread⟩ := s
  let waiting (site : Option Site) : State :=
    ⟨heap, .native k site :: stack, mode, activations, nesting + 1, thread⟩
  cases q with
  | call f args callee =>
    refine Heap.stores_of_tables ?_
    simp only [answer, Query.isAboutHeap, Bool.false_eq_true, if_false]
    split <;> rfl
  | protect f args handler =>
    refine Heap.stores_of_tables ?_
    simp only [answer, Query.isAboutHeap, Bool.false_eq_true, if_false]
    split <;> rfl
  | resume t args =>
    exact Heap.stores_of_tables (tables_resume (waiting site) t args)
  | yield vs => exact Heap.stores_of_tables (tables_yield (waiting none) vs)
  | closeThread t => exact Heap.stores_of_tables (tables_closeThread (waiting site) t)
  | load chunk text env =>
    exact Heap.stores_of_tables (tables_load (waiting none) (chunkDisplay chunk) text env)
  | position level =>
    refine Heap.stores_of_tables ?_
    simp only [answer, Query.isAboutHeap, Bool.false_eq_true, if_false]
    split <;> rfl
  | running => exact (KeepsFields.refl _).stores
  | _ => exact heap.stores_reply _

/-- A field of a table constructor is stored. -/
theorem stores_storeField (f : Filling) (key v : Value) (line : Nat) (rest : List Field)
    (c : Context) :
    s.heap.Stores (Frame.stores? (.fieldValue f key line rest c) s.heap [v])
      (s.storeField f key v line rest c).heap := by
  simp only [storeField, Frame.stores?]
  cases key.key? with
  | some k =>
    exact (s.heap.stores_set f.table k v).trans
      (keepsFields_fillFields (s.mapHeap (·.modifyTable f.table (·.set k v))) f rest c)
  | none => exact (KeepsFields.refl _).stores

/-- A call that prints stores the print buffer with its line, if that is a text. -/
theorem stores_completeLine (inv : Invocation) (vs : List Value) :
    s.heap.Stores (Frame.stores? (.printing inv) s.heap vs)
      (s.completeLine inv (vs.headD .nil)).heap := by
  simp only [completeLine, Frame.stores?]
  cases bufferedText s.heap with
  | some text => exact s.heap.stores_set globalsAddress (.str bufferName) _
  | none => exact (KeepsFields.refl _).stores

/-- A frame that is given values stores what a field of a table constructor or a line that is
printed says. A table constructor and a call of a function may add tables; all other frames leave
the tables as they are. -/
theorem stores_receive (f : Frame) (vs : List Value) :
    s.heap.Stores (f.stores? s.heap vs) (s.receive f vs).heap := by
  cases f with
  | printing inv => exact stores_completeLine s inv vs
  | fieldValue f key line rest c => exact stores_storeField s f key _ line rest c
  | fieldItem f rest c => exact (keepsFields_fillFields s _ rest c).stores
  | fieldItems f => exact (keepsFields_storeWaiting s _).stores
  | apply f self site tail =>
    cases tail with
    | false => exact (keepsFields_call s f _ site).stores
    | true => exact (keepsFields_tailCall s f _ site).stores
  | binaryLocal op object =>
    refine Heap.stores_of_tables ?_
    cases object <;> simp [receive, Step.heap]
  | indexLocal object | receiver object | method _ object =>
    refine Heap.stores_of_tables ?_
    cases object <;> simp [receive, Step.heap]
  | collect done rest c =>
    refine Heap.stores_of_tables ?_
    rcases rest with _ | ⟨e, _ | _⟩ <;> rfl
  | andRight | orRight | branch | whileTest | forFloat | forInPrepare =>
    refine Heap.stores_of_tables ?_
    simp only [receive, Step.heap]
    split <;> simp
  | forCount i left =>
    refine Heap.stores_of_tables ?_
    cases left <;> simp [receive, Step.heap]
  | _ =>
    refine Heap.stores_of_tables ?_
    simp [receive, Step.heap]

theorem stores_step : s.heap.Stores s.stores? s.step.heap := by
  obtain ⟨heap, stack, mode, activations, nesting, thread⟩ := s
  cases mode with
  | eval e c => exact (keepsFields_eval _ e c).stores
  | evalMany e c => exact Heap.stores_of_tables (congrArg Heap.tables (heap_evalMany _ e c))
  | exec body c => exact Heap.stores_of_tables (tables_exec _ body c)
  | call f args site => exact (keepsFields_call _ f args site).stores
  | native p site =>
    cases p with
    | ask q k => exact stores_answer _ q k site
    | _ => exact (KeepsFields.refl _).stores
  | ret vs =>
    cases stack with
    | nil => exact (KeepsFields.refl _).stores
    | cons f stack => exact stores_receive ⟨heap, stack, _, _, _, thread⟩ f vs
  | raise e => exact Heap.stores_of_tables (tables_raise _ e)
  | unwind u => exact Heap.stores_of_tables (tables_unwind _ u)

/-! ## The last step -/

theorem left?_call (f : Value) (args : List Value) (site : Site) :
    (s.call f args site).left? = none := by
  unfold call
  split <;> rfl

theorem left?_tailCall (f : Value) (args : List Value) (site : Site) :
    (s.tailCall f args site).left? = none := by
  unfold tailCall
  split
  · rfl
  · exact left?_call _ f args site

theorem left?_receive (f : Frame) (vs : List Value) : (s.receive f vs).left? = none := by
  cases f with
  | apply f self site tail =>
    cases tail with
    | false => exact left?_call s f _ site
    | true => exact left?_tailCall s f _ site
  | binaryLocal _ object | indexLocal object | receiver object | method _ object =>
    cases object <;> rfl
  | collect done rest c => rcases rest with _ | ⟨e, _ | _⟩ <;> rfl
  | forCount i left => cases left <;> rfl
  | _ => rfl

theorem heap_of_left?_unwind (u : Unwind) {h : Heap} (hleft : (s.unwind u).left? = some h) :
    h = s.heap := by
  unfold unwind at hleft
  split at hleft
  · split at hleft <;> exact (Option.some.inj hleft).symm
  · split at hleft
    all_goals try split at hleft
    all_goals cases hleft

/-- The step that ends a run leaves the heap in which it begins. -/
theorem heap_of_left? {h : Heap} (hleft : s.step.left? = some h) : h = s.heap := by
  obtain ⟨heap, stack, mode, activations, nesting, thread⟩ := s
  cases mode with
  | call f args site => cases (left?_call _ f args site).symm.trans hleft
  | native p site => cases p <;> cases hleft
  | ret vs =>
    cases stack with
    | nil => exact (Option.some.inj hleft).symm
    | cons f stack =>
      cases (left?_receive ⟨heap, stack, _, _, _, thread⟩ f vs).symm.trans hleft
  | unwind u => exact heap_of_left?_unwind _ u hleft
  | _ => cases hleft

end State

end ScriptAgent.Script
