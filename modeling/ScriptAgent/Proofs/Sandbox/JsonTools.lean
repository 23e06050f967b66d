import ScriptAgent.Proofs.Exchange.Decode
import ScriptAgent.Proofs.Exchange.Structured
import ScriptAgent.Proofs.Json.RoundTrip
import ScriptAgent.Proofs.Sandbox.ToolCall
import ScriptAgent.Proofs.Script.Evaluation
import ScriptAgent.Sandbox

/-!
# JSON in scripts

Two tools write a value of a script as JSON, on one line or indented, and a third one reads JSON. A
script that applies the third one to what one of the others gives, in one expression, gets a value
that is like the one that it has written (`Sandbox.json_round_trip`): the value is read by the host,
written as a text, read from it, and written into the heap, and each of these steps keeps the data.

Nothing is assumed of the text of a float: that a float is read back from it is part of what is
proved (`Json.readNumber_render`).
-/

namespace ScriptAgent

open Script

namespace Tool

variable {t : Tool}

/-- The tool that reads JSON reads one argument. -/
theorem run_parse (ht : t ∈ jsonTools) (hname : t.name = "json.parse") (d : Datum) (w : World) :
    t.run [d] w = (parseJson [d], w) := by
  simp only [jsonTools, List.mem_cons, List.not_mem_nil, or_false] at ht
  rcases ht with rfl | rfl | rfl
  · rfl
  · exact absurd hname (by decide)
  · exact absurd hname (by decide)

/-- A tool that writes JSON writes one argument, in a layout that can be read. -/
theorem run_write (ht : t ∈ jsonTools) (hname : t.name = "json.encode" ∨ t.name = "json.pretty") :
    ∃ l : Json.Layout, l.Legible ∧ ∀ d w, t.run [d] w = (writeJson l [d], w) := by
  simp only [jsonTools, List.mem_cons, List.not_mem_nil, or_false] at ht
  rcases ht with rfl | rfl | rfl
  · exact absurd hname (by decide)
  · exact ⟨_, Json.Layout.legible_compact, fun d w => rfl⟩
  · exact ⟨_, Json.Layout.legible_pretty, fun d w => rfl⟩

/-- A value that can be written gives its text. -/
theorem writeJson_of_write {l : Json.Layout} {d : Datum} {text : String}
    (h : Json.write l d = .ok text) : writeJson l [d] = .value (.str text) := by
  rw [writeJson, argument, List.getD_cons_zero, h]

/-- A text that can be read gives its value. -/
theorem parseJson_of_parse {d : Datum} {text : String} (h : Json.parse text = .ok d) :
    parseJson [.str text] = .value d := by
  rw [parseJson, argument, List.getD_cons_zero]
  simp only [h]

end Tool

namespace Sandbox

section
variable {tools : Array Tool} {h : Heap} {v : Value} {d : Datum} {wrapper : Nat} {w : World}
  {s s' : State}

/-- Steps of the machine are steps of every run. -/
theorem run_stepsTo (hs : s.StepsTo s') (tools : Array Tool) (w : World) :
    ∃ steps, ∀ fuel, run tools (fuel + steps) s w = run tools fuel s' w := by
  induction hs using Relation.ReflTransGen.head_induction_on with
  | refl => exact ⟨0, fun _ => rfl⟩
  | head hstep _ ih =>
    obtain ⟨steps, hrun⟩ := ih
    refine ⟨steps + 1, fun fuel => ?_⟩
    rw [← Nat.add_assoc, run, hstep]
    exact hrun fuel

/-- A call of a tool that has its argument and gives a plain value gives its image to what waits for
it. -/
theorem run_apply_tool (hr : resultOf tools wrapper [v] h w = ⟨true, d, none⟩) (hd : d.Plain)
    (site : Site) (stack : List Frame) (activations nesting : Nat) (thread : Address) :
    ∃ y h' w', Exchange.encode h d = .ok (y, h') ∧ ∀ fuel,
      run tools (fuel + 1) ⟨h, .apply (.tool wrapper) [] site false :: stack, .ret [v], activations,
        nesting, thread⟩ w =
      run tools fuel ⟨h', stack, .ret [y], activations, nesting, thread⟩ w' := by
  have hstep : (⟨h, .apply (.tool wrapper) [] site false :: stack, .ret [v], activations, nesting,
      thread⟩ : State).step =
      .tool wrapper [v] ⟨h, stack, .ret [], activations, nesting, thread⟩ := rfl
  exact run_tool hstep hr hd

/-! ## Reading what is written -/

/-- A name leads from the globals to the wrapper of the tool for JSON of this name. -/
def OffersJson (tools : Array Tool) (h : Heap) (globals : Value) (name : String) : Prop :=
  ∃ wrapper, h.follow globals (keysOf name) = .tool wrapper ∧
    tools.getD wrapper default ∈ Tool.jsonTools ∧ (tools.getD wrapper default).name = name

/-- The call of a tool under its name with one argument; `env` is the distance of the variable that
holds the globals. -/
def callOf (line env : Nat) (name : String) (arg : Expr) : Expr :=
  .call (.fields line (.var env envName true) (keysOf name)) [arg] line

/-- A tool that a name leads to is found under this name. -/
theorem finds_tool {c : Context} {line env : Nat} {name : String}
    (hname : h.follow (h.cell (c.var env)) (keysOf name) = .tool wrapper) :
    Finds h c (.fields line (.var env envName true) (keysOf name)) (.tool wrapper) :=
  hname ▸ (finds_var env envName true).follow rfl (by rw [hname]; exact nofun)

/-- The result of a tool that is called with one value. -/
theorem resultOf_of_run {f : List Datum → Tool.Outcome} {e : Datum}
    (hrun : ∀ d w, (tools.getD wrapper default).run [d] w = (f [d], w))
    (hd : Exchange.decode h v = d) (hf : f [d] = .value e) :
    resultOf tools wrapper [v] h w = ⟨true, e, none⟩ := by
  rw [resultOf, List.map_singleton, hd, Tool.execute_of_value ((hrun d w).trans (by rw [hf]))]

/-- The expression that writes the value of a variable with a tool, and reads the text that this
gives. -/
def readWritten (line env : Nat) (writer : String) (place : Nat) (x : Bytes) (upvalue : Bool) :
    Expr :=
  callOf line env "json.parse" (callOf line env writer (.var place x upvalue))

section
variable {c : Context} {line env place : Nat} {x : Bytes} {upvalue : Bool} {writer : String}

/-- The two tools are found before the variable is read, and wait for their arguments then. -/
theorem stepsTo_readWritten {p q : Nat}
    (hp : h.follow (h.cell (c.var env)) (keysOf "json.parse") = .tool p)
    (hq : h.follow (h.cell (c.var env)) (keysOf writer) = .tool q) (stack : List Frame)
    (activations nesting : Nat) (thread : Address) :
    ∃ site site', State.StepsTo
      ⟨h, stack, .evalMany (readWritten line env writer place x upvalue) c, activations, nesting,
        thread⟩
      ⟨h, .apply (.tool q) [] site' false :: .apply (.tool p) [] site false :: stack,
        .ret [h.cell (c.var place)], activations, nesting, thread⟩ :=
  ⟨_, _, (stepsTo_call (finds_tool hp) _ _ _ _).trans
    ((stepsTo_call (finds_tool hq) _ _ _ _).trans (stepsTo_var place x upvalue _ _ _ _))⟩

/-- A tree that is written as JSON and read gives a value that is alike, in tables of its own. -/
theorem run_readWritten (written : writer = "json.encode" ∨ writer = "json.pretty")
    (writes : OffersJson tools h (h.cell (c.var env)) writer)
    (reads : OffersJson tools h (h.cell (c.var env)) "json.parse")
    (structured : Exchange.Structured h Exchange.maxDepth (h.cell (c.var place)))
    (stack : List Frame) (activations nesting : Nat) (thread : Address) (w : World) :
    ∃ steps h' w' y, (∀ fuel,
      run tools (fuel + steps) ⟨h, stack, .evalMany (readWritten line env writer place x upvalue) c,
        activations, nesting, thread⟩ w =
      run tools fuel ⟨h', stack, .ret [y], activations, nesting, thread⟩ w') ∧
      Exchange.Alike h h' (h.cell (c.var place)) y ∧ h.Keeps (fun _ => True) h' := by
  obtain ⟨p, hp, hpmem, hpname⟩ := reads
  obtain ⟨q, hq, hqmem, hqname⟩ := writes
  obtain ⟨l, hl, hwrite⟩ := Tool.run_write hqmem (hqname.symm ▸ written)
  have hparse := Tool.run_parse hpmem hpname
  have hdenotes := Exchange.denotes_decode structured
  obtain ⟨text, d, htext, hread, same, plain⟩ :=
    Json.parse_write hl (Exchange.decode_plain h (h.cell (c.var place)))
  obtain ⟨site, site', hsteps⟩ := @stepsTo_readWritten h c line env place x upvalue writer p q hp hq
    stack activations nesting thread
  obtain ⟨steps, hrun⟩ := run_stepsTo hsteps tools w
  -- The first call gives the text, which leaves the heap as it is, and the second one reads it.
  obtain ⟨y₁, h₁, w₁, he₁, hrun₁⟩ := run_apply_tool (w := w)
    (resultOf_of_run hwrite rfl (Tool.writeJson_of_write htext)) (.str text) site'
    (.apply (.tool p) [] site false :: stack) activations nesting thread
  rw [Exchange.encode] at he₁
  cases he₁
  have hdecode : Exchange.decode h (.str (Utf8.encode text)) = .str text :=
    congrArg Datum.str (Utf8.decode_encode text)
  obtain ⟨y, h', w₂, he, hrun₂⟩ := run_apply_tool (w := w₁)
    (resultOf_of_run hparse hdecode (Tool.parseJson_of_parse hread)) plain site stack activations
    nesting thread
  obtain ⟨y', h'', he', holds⟩ := Exchange.encode_holds plain (hdenotes.short same) h
  cases he.symm.trans he'
  refine ⟨steps + 2, h', w₂, y, fun fuel => ?_, hdenotes.alike same holds,
    (Exchange.written_of_encode he).keeps⟩
  rw [show fuel + (steps + 2) = fuel + 1 + 1 + steps by omega, hrun, hrun₁, hrun₂]

/-- A script that writes the value of a variable as JSON and reads the text, in one expression, gets
a value that is alike, if the value is a tree of at most `maxDepth` levels of tables. All tables
that there were are as before. -/
theorem json_round_trip {s : State} (written : writer = "json.encode" ∨ writer = "json.pretty")
    (writes : OffersJson tools s.heap (s.heap.cell (c.var env)) writer)
    (reads : OffersJson tools s.heap (s.heap.cell (c.var env)) "json.parse")
    (structured : Exchange.Structured s.heap Exchange.maxDepth (s.heap.cell (c.var place)))
    (mode : s.mode = .eval (readWritten line env writer place x upvalue) c ∨
      s.mode = .evalMany (readWritten line env writer place x upvalue) c) (w : World) :
    ∃ (steps : Nat) (next : State) (w' : World) (y : Value),
      (∀ fuel, run tools (fuel + steps) s w = run tools fuel next w') ∧
      next.stack = s.stack ∧ next.mode = .ret [y] ∧
      Exchange.Alike s.heap next.heap (s.heap.cell (c.var place)) y ∧
      s.heap.Keeps (fun _ => True) next.heap := by
  obtain ⟨h, stack, _, activations, nesting, thread⟩ := s
  rcases mode with rfl | rfl
  · obtain ⟨steps, h', w', y, hrun, alike, keeps⟩ := run_readWritten written writes reads structured
      (.keepFirst :: stack) activations nesting thread w
    refine ⟨steps + 2, ⟨h', stack, .ret [y], activations, nesting, thread⟩, w', y, fun fuel => ?_,
      rfl, rfl, alike, keeps⟩
    -- One step asks for all values, and one more keeps the first of them.
    rw [show fuel + (steps + 2) = fuel + 1 + steps + 1 by omega]
    exact hrun (fuel + 1)
  · obtain ⟨steps, h', w', y, hrun, alike, keeps⟩ := run_readWritten written writes reads structured
      stack activations nesting thread w
    exact ⟨steps, ⟨h', stack, .ret [y], activations, nesting, thread⟩, w', y, hrun, rfl, rfl, alike,
      keeps⟩

end

end

/-- The fields of a scope with two of the tools for JSON. -/
def jsonScope : List (Key × Value) :=
  [(.str (Utf8.encode "parse"), .tool 0), (.str (Utf8.encode "encode"), .tool 1)]

/-- A heap with the tools for JSON under their names, a variable with the globals, and one with a
record of a list and a text. -/
def jsonHeap : Heap where
  tables := #[
    Table.empty.setAll [(.str (Utf8.encode "json"), .table 1)],
    Table.empty.setAll jsonScope,
    Table.empty.setAll [(.str (Utf8.encode "list"), .table 3),
      (.str (Utf8.encode "text"), .str (Utf8.encode "\n"))],
    Table.empty.setAll [(.int 1, .num (.int 7)), (.int 2, .num (.float 0.5))]]
  closures := #[]
  cells := #[.table 0, .table 2]
  threads := #[⟨.running, none, [], none⟩]
  searches := #[]
  stringMeta := none
  seed := .ofSeed 0 0

/-- The record of `jsonHeap`, written on one line and read. -/
theorem json_round_trip_record :
    OffersJson Tool.jsonTools.toArray jsonHeap (.table 0) "json.encode" ∧
      OffersJson Tool.jsonTools.toArray jsonHeap (.table 0) "json.parse" ∧
      Exchange.Structured jsonHeap Exchange.maxDepth (.table 2) ∧
      ∃ (steps : Nat) (next : State) (w' : World) (y : Value),
        (∀ fuel, run Tool.jsonTools.toArray (fuel + steps)
          ⟨jsonHeap, [], .evalMany (readWritten 1 0 "json.encode" 1 [120] false) ⟨[0, 1], [], []⟩,
            0, 0, 0⟩ default =
          run Tool.jsonTools.toArray fuel next w') ∧
        next.stack = [] ∧ next.mode = .ret [y] ∧
        Exchange.Alike jsonHeap next.heap (.table 2) y ∧
        jsonHeap.Keeps (fun _ => True) next.heap := by
  have hencode : keysOf "json.encode" = [Utf8.encode "json", Utf8.encode "encode"] := by decide
  have hparse : keysOf "json.parse" = [Utf8.encode "json", Utf8.encode "parse"] := by decide
  have hnodup : (jsonScope.map Prod.fst).Nodup := by decide
  have hscope : (jsonHeap.table 0).getStr (Utf8.encode "json") = .table 1 :=
    Table.get_set_self Table.empty (.str (Utf8.encode "json")) (.table 1)
  have hwrites : OffersJson Tool.jsonTools.toArray jsonHeap (.table 0) "json.encode" := by
    refine ⟨1, ?_, by simp [Tool.jsonTools], rfl⟩
    rw [hencode, Heap.follow_cons, Heap.field_table, hscope]
    exact Table.get_setAll (t := Table.empty) hnodup (List.mem_cons_of_mem _ List.mem_cons_self)
  have hreads : OffersJson Tool.jsonTools.toArray jsonHeap (.table 0) "json.parse" := by
    refine ⟨0, ?_, by simp [Tool.jsonTools], rfl⟩
    rw [hparse, Heap.follow_cons, Heap.field_table, hscope]
    exact Table.get_setAll (t := Table.empty) hnodup List.mem_cons_self
  have hlist : Exchange.Structured jsonHeap 1 (.table 3) := by
    refine .sequence rfl (m := 2) (by decide) rfl (by simp) ?_
    exact List.forall_mem_cons.2 ⟨.basic (.num _), List.forall_mem_singleton.2 (.basic (.num _))⟩
  have hrecord : Exchange.Structured jsonHeap 2 (.table 2) := by
    refine .record rfl ?_ ?_
    · exact List.forall_mem_cons.2 ⟨⟨_, rfl⟩, List.forall_mem_singleton.2 ⟨_, rfl⟩⟩
    · exact List.forall_mem_cons.2 ⟨hlist, List.forall_mem_singleton.2 (.basic (.str _))⟩
  have hstructured := hrecord.mono (show 2 ≤ Exchange.maxDepth by decide)
  refine ⟨hwrites, hreads, hstructured, ?_⟩
  exact @json_round_trip Tool.jsonTools.toArray ⟨[0, 1], [], []⟩ 1 0 1 [120] false "json.encode"
    ⟨jsonHeap, [], _, 0, 0, 0⟩ (.inl rfl) hwrites hreads hstructured (.inr rfl) default

end Sandbox

end ScriptAgent
