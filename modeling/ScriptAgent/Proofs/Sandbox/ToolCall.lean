import ScriptAgent.Proofs.Exchange.Encode
import ScriptAgent.Sandbox.Run
import ScriptAgent.Tool.Bundled

/-!
# Calls of tools

What a script gets from the call of a tool depends on the result of the tool alone. A result that is
a failure gives nil, and so does one that scripts cannot hold, except for an integer beyond 64 bits
on its own: that one is turned into a script value only after the call has returned to the machine,
and raises there (`Tool.Result.Raises`). Every other result gives its image.

`tool_call_returns_iff` says this of every run at every call, for all tools and all arguments: the
call is one step of the run, and it gives a value to the frame that waits for it exactly if the
result does not raise. The statement after the call is then the next that runs.
-/

namespace ScriptAgent

open Script

/-- A result raises in the script that has called the tool: it is an integer beyond 64 bits, or a
member of an enumeration that stands for one. -/
def Tool.Result.Raises (r : Tool.Result) : Prop :=
  r.ok = true ∧ ∃ i, r.value.underlying = .int i ∧ Num.fits i = false

/-- A plain result does not raise. -/
theorem Tool.Result.not_raises {r : Tool.Result} (hd : r.value.Plain) : ¬ r.Raises := by
  rintro ⟨-, i, hi, hfits⟩
  rw [hd.underlying] at hi
  rw [hi] at hd
  cases hd with
  | int fits => rw [fits] at hfits; cases hfits

/-- A tool whose function gives a value has it as its result. -/
theorem Tool.execute_of_value {t : Tool} {args : List Datum} {d : Datum} {w w' : World}
    (hrun : t.run args w = (.value d, w')) : t.execute args w = (⟨true, d, none⟩, w') := by
  rw [execute, hrun]

namespace Sandbox

/-- The result of the tool behind a wrapper, for arguments of a script. -/
def resultOf (tools : Array Tool) (wrapper : Nat) (args : List Value) (h : Heap) (w : World) :
    Tool.Result := ((tools.getD wrapper default).execute (args.map (Exchange.decode h)) w).1

/-- What a script gets from a result, and the heap after it: nil for a failure and for what scripts
cannot hold, and the image of any other value. -/
inductive Yields (r : Tool.Result) (h : Heap) : Value → Heap → Prop where
  | failed (ok : r.ok = false) : Yields r h .nil h
  | beyond (holdable : r.value.isHoldable = false) : Yields r h .nil h
  | image {v : Value} {h' : Heap} (ok : r.ok = true)
      (run : Exchange.encode h r.value = .ok (v, h')) : Yields r h v h'

/-- The value of a tool is taken to the script unless it raises. -/
theorem answerOf_cases (t : Tool) (r : Tool.Result) (ok : r.ok = true) (h : Heap) (w : World) :
    (r.Raises ∧ ∃ w', answerOf t r.value h w = (.failure Exchange.TooLarge.message, h, w')) ∨
      (¬ r.Raises ∧ ∃ v h' w', answerOf t r.value h w = (.value v, h', w') ∧ Yields r h v h') := by
  unfold answerOf
  split
  · next i hi =>
    split
    · next fits =>
      refine .inr ⟨fun ⟨_, j, hj, hf⟩ => ?_, _, _, _, rfl, .image ok ?_⟩
      · rw [hi] at hj
        cases hj
        rw [fits] at hf
        cases hf
      · rw [← Exchange.encode_underlying, hi, Exchange.encode, if_pos fits]
    · next fits => exact .inl ⟨⟨ok, i, hi, Bool.eq_false_iff.2 fits⟩, _, rfl⟩
  · next hi =>
    have hr : ¬ r.Raises := fun ⟨_, i, hd, _⟩ => hi i hd
    rw [Exchange.encode_underlying]
    split
    · next v h' he => exact .inr ⟨hr, v, h', _, rfl, .image ok he⟩
    · next e he =>
      refine .inr ⟨hr, _, _, _, rfl, .beyond ?_⟩
      rw [← Exchange.isOk_encode h, he]
      rfl

/-- The call of a tool gives a value unless its result raises. -/
theorem callTool_cases {tools : Array Tool} {wrapper : Nat} {args : List Value} {h : Heap}
    {w : World} :
    ((resultOf tools wrapper args h w).Raises ∧ ∃ w',
      callTool (tools.getD wrapper default) args h w =
        (.failure Exchange.TooLarge.message, h, w')) ∨
    (¬ (resultOf tools wrapper args h w).Raises ∧ ∃ v h' w',
      callTool (tools.getD wrapper default) args h w = (.value v, h', w') ∧
        Yields (resultOf tools wrapper args h w) h v h') := by
  unfold callTool resultOf
  rcases (tools.getD wrapper default).execute (args.map (Exchange.decode h)) w with ⟨r, w₁⟩
  dsimp only
  split
  · next ok => exact answerOf_cases _ r ok h w₁
  · next ok =>
    have ok : r.ok = false := Bool.eq_false_iff.2 ok
    exact .inr ⟨fun hr => (by rw [hr.1] at ok; cases ok), _, _, _, rfl, .failed ok⟩

/-- A plain result gives its image. -/
theorem Yields.encode_eq {r : Tool.Result} {h h' : Heap} {v : Value} (hy : Yields r h v h')
    (ok : r.ok = true) (hd : r.value.Plain) : Exchange.encode h r.value = .ok (v, h') := by
  cases hy with
  | failed failed => rw [ok] at failed; cases failed
  | beyond holdable => rw [Exchange.isHoldable_of_plain hd] at holdable; cases holdable
  | image _ run => exact run

/-- The call of a tool that gives a plain value is one step of every run, and gives the image of the
value to what waits for it. -/
theorem run_tool {tools : Array Tool} {s s' : State} {wrapper : Nat} {args : List Value} {w : World}
    {d : Datum} (hs : s.step = .tool wrapper args s')
    (hr : resultOf tools wrapper args s'.heap w = ⟨true, d, none⟩) (hd : d.Plain) :
    ∃ y h' w', Exchange.encode s'.heap d = .ok (y, h') ∧
      ∀ fuel, run tools (fuel + 1) s w = run tools fuel (resumeWith s' (.value y) h') w' := by
  have hcases := @callTool_cases tools wrapper args s'.heap w
  rw [hr] at hcases
  rcases hcases with ⟨raises, -⟩ | ⟨-, y, h', w', hc, hy⟩
  · exact absurd raises (Tool.Result.not_raises hd)
  · refine ⟨y, h', w', hy.encode_eq rfl hd, fun fuel => ?_⟩
    rw [run, hs]
    simp only [hc]

/-- A statement that waits for a call is followed by the rest of its block. -/
theorem step_seq {s : State} {vs : List Value} {rest : List Stmt} {c : Context}
    {stack : List Frame} (hm : s.mode = .ret vs) (hs : s.stack = .seq rest c :: stack) :
    ∃ after, s.step = .next after ∧ after.mode = .exec rest c ∧ after.stack = stack ∧
      after.heap = s.heap := by
  obtain ⟨heap, _, _, activations, nesting, thread⟩ := s
  cases hm
  cases hs
  exact ⟨_, rfl, rfl, rfl, rfl⟩

/-- The call of a tool, whatever the tool and its arguments, is one step of every run. It gives one
value to what waits for it, nil or the image of the result, exactly if the result does not raise; if
it is a statement, the rest of its block runs next. Otherwise it raises. -/
theorem tool_call_returns_iff {tools : Array Tool} {s s' : State} {wrapper : Nat}
    {args : List Value} (hs : s.step = .tool wrapper args s') (w : World) :
    ∃ (next : State) (w' : World),
      (∀ fuel, run tools (fuel + 1) s w = run tools fuel next w') ∧ next.stack = s'.stack ∧
      ((resultOf tools wrapper args s'.heap w).Raises →
        next.mode = .raise (.failure Exchange.TooLarge.message)) ∧
      (((∃ v, next.mode = .ret [v] ∧
            Yields (resultOf tools wrapper args s'.heap w) s'.heap v next.heap) ∧
          ∀ rest c stack, next.stack = .seq rest c :: stack →
            ∃ after, next.step = .next after ∧ after.mode = .exec rest c ∧ after.stack = stack ∧
              after.heap = next.heap) ↔
        ¬ (resultOf tools wrapper args s'.heap w).Raises) := by
  rcases @callTool_cases tools wrapper args s'.heap w with
    ⟨hr, w', hc⟩ | ⟨hr, v, h', w', hc, hy⟩
  · refine ⟨resumeWith s' (.failure Exchange.TooLarge.message) s'.heap, w', fun fuel => ?_, rfl,
      fun _ => rfl, iff_of_false (fun ⟨⟨v, hm, _⟩, _⟩ => ?_) (fun h => h hr)⟩
    · rw [run, hs]
      simp only [hc]
    · cases hm
  · refine ⟨resumeWith s' (.value v) h', w', fun fuel => ?_, rfl, fun h => absurd h hr,
      iff_of_true ⟨⟨v, rfl, hy⟩, fun rest c stack hst => step_seq rfl hst⟩ hr⟩
    rw [run, hs]
    simp only [hc]

/-- The sum of two numbers, called as a statement with a statement after it. -/
theorem tool_call_returns_iff_sum :
    (⟨Heap.empty, [.seq [.break] default], .call (.tool 0) [.int 1, .int 2] .outside, 0, 0, 0⟩ :
      State).step =
        .tool 0 [.int 1, .int 2] ⟨Heap.empty, [.seq [.break] default], .ret [], 0, 0, 0⟩ ∧
      ∃ (next : State) (w' : World),
        (∀ fuel, run Tool.basicTools.toArray (fuel + 1)
          ⟨Heap.empty, [.seq [.break] default], .call (.tool 0) [.int 1, .int 2] .outside, 0, 0, 0⟩
          default = run Tool.basicTools.toArray fuel next w') ∧
        next.stack = [.seq [.break] default] ∧
        ((resultOf Tool.basicTools.toArray 0 [.int 1, .int 2] Heap.empty default).Raises →
          next.mode = .raise (.failure Exchange.TooLarge.message)) ∧
        (((∃ v, next.mode = .ret [v] ∧
              Yields (resultOf Tool.basicTools.toArray 0 [.int 1, .int 2] Heap.empty default)
                Heap.empty v next.heap) ∧
            ∀ rest c stack, next.stack = .seq rest c :: stack →
              ∃ after, next.step = .next after ∧ after.mode = .exec rest c ∧
                after.stack = stack ∧ after.heap = next.heap) ↔
          ¬ (resultOf Tool.basicTools.toArray 0 [.int 1, .int 2] Heap.empty default).Raises) := by
  have hs : (⟨Heap.empty, [.seq [.break] default], .call (.tool 0) [.int 1, .int 2] .outside,
      0, 0, 0⟩ : State).step =
        .tool 0 [.int 1, .int 2] ⟨Heap.empty, [.seq [.break] default], .ret [], 0, 0, 0⟩ := rfl
  exact ⟨hs, tool_call_returns_iff hs default⟩

/-- The sum of the largest integer and one raises in the script that asks for it: not every call of
a tool gives a value. -/
theorem tool_call_raises :
    ¬ ∀ (tools : Array Tool) (wrapper : Nat) (args : List Value) (h : Heap) (w : World),
      ∃ fuel v, (run tools fuel (start h (.call (.tool wrapper) args .outside)) w).1 =
        .returned [v] := by
  intro hall
  obtain ⟨fuel, v, hf⟩ :=
    hall Tool.basicTools.toArray 0 [.int 0x7FFFFFFFFFFFFFFF, .int 1] Heap.empty default
  match fuel with
  | 0 | 1 | 2 => cases hf
  | fuel + 3 => cases hf

end Sandbox

end ScriptAgent
