import ScriptAgent.Proofs.Exchange.Copy
import ScriptAgent.Proofs.Sandbox.ToolCall

/-!
# Values that pass through a tool

A tool echoes if it gives its argument as its value (`Tool.Echoes`). A script that passes a
structured value to such a tool gets a copy of it (`Sandbox.echo_copies`): the same data, in tables
of its own.
-/

namespace ScriptAgent

open Script

/-- The value of a tool is its argument, whatever else it does. -/
def Tool.Echoes (t : Tool) : Prop := ∀ d w, ∃ w', t.run [d] w = (.value d, w')

namespace Sandbox

section
variable {tools : Array Tool} {wrapper : Nat} {h : Heap} {x : Value} {s s' : State}

/-- The result of a tool that echoes is what is read of its argument. -/
theorem resultOf_of_echoes (echoes : (tools.getD wrapper default).Echoes) (w : World) :
    resultOf tools wrapper [x] h w = ⟨true, Exchange.decode h x, none⟩ := by
  obtain ⟨w', hrun⟩ := echoes (Exchange.decode h x) w
  rw [resultOf, List.map_singleton, Tool.execute_of_value hrun]

/-- A call of a tool that echoes gives a copy of its argument to what waits for it. -/
theorem run_echo (echoes : (tools.getD wrapper default).Echoes)
    (hs : s.step = .tool wrapper [x] s')
    (structured : Exchange.Structured s'.heap Exchange.maxDepth x) (w : World) :
    ∃ (next : State) (w' : World) (y : Value),
      (∀ fuel, run tools (fuel + 1) s w = run tools fuel next w') ∧ next.stack = s'.stack ∧
      next.mode = .ret [y] ∧ Exchange.Copy s'.heap next.heap x y := by
  have plain := Exchange.decode_plain s'.heap x
  obtain ⟨y, h', w', run, hrun⟩ := run_tool hs (resultOf_of_echoes echoes w) plain
  obtain ⟨y', h'', run', copy⟩ := structured.copy .byKey
  cases run.symm.trans run'
  exact ⟨resumeWith s' (.value y) h', w', y, hrun, rfl, rfl, copy⟩

end

/-- A value that is a tree of at most `maxDepth` levels of tables, each of them a sequence or with
texts as keys, is read as data that is written as a copy of the value. A script that passes it to a
tool that echoes gets such a copy. -/
theorem echo_copies :
    (∀ (e : Exchange.Enumeration) (h : Heap) (x : Value),
      Exchange.Structured h Exchange.maxDepth x →
      ∃ y h', Exchange.encode h (Exchange.decodeBy e h x) = .ok (y, h') ∧
        Exchange.Copy h h' x y) ∧
    ∀ (tools : Array Tool) (wrapper : Nat) (s s' : State) (x : Value) (w : World),
      (tools.getD wrapper default).Echoes → s.step = .tool wrapper [x] s' →
      Exchange.Structured s'.heap Exchange.maxDepth x →
      ∃ (next : State) (w' : World) (y : Value),
        (∀ fuel, run tools (fuel + 1) s w = run tools fuel next w') ∧ next.stack = s'.stack ∧
        next.mode = .ret [y] ∧ Exchange.Copy s'.heap next.heap x y := by
  refine ⟨?_, ?_⟩
  · intro e h x structured
    exact structured.copy e
  · intro tools wrapper s s' x w echoes hs structured
    exact run_echo echoes hs structured w

/-- A tool that gives its argument. -/
def echoTool : Tool := ⟨0, "echo", "", [], fun args w => (.value (Tool.argument args 0), w)⟩

/-- A heap with a list that has one record twice. -/
def sharingHeap : Heap :=
  let record := Table.empty.setAll [(.str (Utf8.encode "n"), .num (.int 1)),
    (.str (Utf8.encode "1"), .num (.float 1))]
  let list := Table.empty.setAll [(.int 1, .table 0), (.int 2, .table 0)]
  ((Heap.empty.newTable record).2.newTable list).2

/-- The list of `sharingHeap`, passed to a tool that echoes. -/
theorem echo_copies_sharing :
    Exchange.Structured sharingHeap Exchange.maxDepth (.table 1) ∧
      (∃ y h', Exchange.encode sharingHeap (Exchange.decode sharingHeap (.table 1)) =
          .ok (y, h') ∧
        Exchange.Copy sharingHeap h' (.table 1) y) ∧
      echoTool.Echoes ∧
      ∃ (next : State) (w' : World) (y : Value),
        (∀ fuel, run #[echoTool] (fuel + 1)
          ⟨sharingHeap, [], .call (.tool 0) [.table 1] .outside, 0, 0, 0⟩ default =
          run #[echoTool] fuel next w') ∧
        next.stack = [] ∧ next.mode = .ret [y] ∧
        Exchange.Copy sharingHeap next.heap (.table 1) y := by
  have record : Exchange.Structured sharingHeap 1 (.table 0) := by
    refine .record rfl ?_ ?_
    · exact List.forall_mem_cons.2 ⟨⟨_, rfl⟩, List.forall_mem_singleton.2 ⟨_, rfl⟩⟩
    · exact List.forall_mem_cons.2 ⟨.basic (.num _), List.forall_mem_singleton.2 (.basic (.num _))⟩
  have list : Exchange.Structured sharingHeap 2 (.table 1) := by
    refine .sequence rfl (m := 2) (by decide) rfl (by simp) ?_
    exact List.forall_mem_cons.2 ⟨record, List.forall_mem_singleton.2 record⟩
  have structured := list.mono (show 2 ≤ Exchange.maxDepth by decide)
  have echoes : echoTool.Echoes := by
    intro d w
    exact ⟨w, rfl⟩
  refine ⟨structured, echo_copies.1 .byKey sharingHeap (.table 1) structured, echoes, ?_⟩
  exact echo_copies.2 #[echoTool] 0
    ⟨sharingHeap, [], .call (.tool 0) [.table 1] .outside, 0, 0, 0⟩
    ⟨sharingHeap, [], .ret [], 0, 0, 0⟩ (.table 1) default echoes rfl structured

end Sandbox

end ScriptAgent
