import ScriptAgent.Script.Machine.Reply
import ScriptAgent.Script.Machine.Unwind

/-!
# The machine

`State.step` is the step function: it begins an expression, a statement or a call, answers a
question of a program, gives values to a frame, or leaves a frame. It is total and does a
bounded amount of work, so a run is nothing but its iteration; a script that does not end is a
run without a last step.
-/

namespace ScriptAgent.Script

namespace State

/-- Answers a question of a program whose rest is `k`; `site` is the call of the function that
asks, if it is one. -/
def answer (s : State) (q : Query) (k : List Value → Program (List Value))
    (site : Option Site) : State :=
  match s with
  | ⟨heap, stack, mode, activations, nesting, thread⟩ =>
    let go (h : Heap) (vs : List Value) : State :=
      ⟨h, stack, .native (k vs) site, activations, nesting, thread⟩
    let waiting (h : Heap) (site : Option Site) : State :=
      ⟨h, .native k site :: stack, mode, activations, nesting + 1, thread⟩
    let refuse (p : Place) : State :=
      (⟨heap, stack, mode, activations, nesting, thread⟩ : State).fault p
        (Bytes.ofAscii "C stack overflow")
    if q.isAboutHeap then
      let (vs, h) := heap.reply q
      go h vs
    else
      match q with
      | .call f args callee =>
        if nesting ≥ maxNesting then refuse ⟨callee.position⟩
        else (waiting heap site).become (.call f args callee)
      | .protect f args handler =>
        if nesting ≥ maxNesting then refuse .library
        else
          ⟨heap, .guarded handler site :: .native k none :: stack, .call f args .outside,
            activations, nesting + 2, thread⟩
      | .resume t args => (waiting heap site).resume t args
      | .yield vs => (waiting heap none).yield vs
      | .closeThread t => (waiting heap site).closeThread t
      | .running => go heap [if thread = 0 then .nil else .thread thread]
      | .load chunk text env => (waiting heap none).load (chunkDisplay chunk) text env
      | .position level =>
        match positionAt (level - 2) stack with
        | some p => go heap [.str (positionText (some p))]
        | none => go heap [.str []]
      | _ => go heap []

/-- Gives values to a frame that has been left. -/
def receive (s : State) (f : Frame) (vs : List Value) : Step :=
  let v := vs.headD .nil
  match f with
  | .keepFirst => .next (s.giveOne v)
  | .binaryRight op left right line c =>
    .next (s.push (.binaryApply op v left right line c) (.eval right c))
  | .binaryLocal op left right line c =>
    match left with
    | .var d _ _ => .next (s.applyBinary op (s.heap.cell (c.var d)) v left right line c)
    | _ => .next (s.applyBinary op .nil v left right line c)
  | .binaryApply op w left right line c => .next (s.applyBinary op w v left right line c)
  | .andRight right c => .next (if v.truthy then s.become (.eval right c) else s.giveOne v)
  | .orRight right c => .next (if v.truthy then s.giveOne v else s.become (.eval right c))
  | .unaryApply op operand line c =>
    .next (s.runOne (Operation.unary (c.place line) operand.describe op v))
  | .indexKey object key line c =>
    .next (s.push (.indexApply v object line c) (.eval key c))
  | .indexLocal object line c =>
    match object with
    | .var d _ _ =>
      .next (s.runOne (Operation.index (c.place line) object.describe (s.heap.cell (c.var d)) v))
    | _ => .next (s.runOne (Operation.index (c.place line) none .nil v))
  | .indexApply w object line c =>
    .next (s.runOne (Operation.index (c.place line) object.describe w v))
  | .callee f args line tail c =>
    .next (s.callWith v [] args ⟨some (c.chunk, line), f.describe⟩ tail c)
  | .receiver method tail c =>
    match method with
    | .method object name _ nameLine _ =>
      .next ((s.push (.method v method tail c) s.mode).runOne
        (Operation.index (c.place nameLine) object.describe v (.str name)))
    | _ => .next (s.give [])
  | .method object method tail c =>
    match method with
    | .method _ name args _ line =>
      .next (s.callWith v [object] args ⟨some (c.chunk, line), some (.method, name)⟩ tail c)
    | _ => .next (s.give [])
  | .collect done rest c =>
    match rest with
    | [] => .next (s.give (done.reverse ++ vs))
    | [e] => .next (s.push (.collect (v :: done) [] c) (.evalMany e c))
    | e :: rest => .next (s.push (.collect (v :: done) rest c) (.eval e c))
  | .apply f self site tail =>
    if tail then s.tailCall f (self ++ vs) site else s.call f (self ++ vs) site
  | .fieldKey f value line rest c =>
    .next (s.push (.fieldValue f v line rest c) (.eval value c))
  | .fieldValue f key line rest c => .next (s.storeField f key v line rest c)
  | .fieldItem f rest c => .next (s.fillFields { f with waiting := v :: f.waiting } rest c)
  | .fieldItems f => .next (s.finishTable { f with waiting := vs.reverse ++ f.waiting })
  | .seq rest c => .next (s.become (.exec rest c))
  | .labels .. => .next (s.give [])
  | .declare count close line rest c => .next (s.declare count close line rest c vs)
  | .targetObject done object key rest values line c =>
    .next (s.push (.targetKey done v object rest values line c) (.eval key c))
  | .targetKey done w object rest values line c =>
    .next (s.assignTargets (.field w v object.describe :: done) rest values line c)
  | .assign slots line c => .next (s.storeSlots line c (pairSlots slots vs))
  | .store rest line c => .next (s.storeSlots line c rest)
  | .branch yes no c => .next (s.enter (if v.truthy then yes else no) c)
  | .whileTest condition body c =>
    .next (if v.truthy then (s.push (.whileLoop condition body c) s.mode).enter body c
      else s.give [])
  | .whileLoop condition body c => .next (s.push (.whileTest condition body c) (.eval condition c))
  | .repeatLoop .. => .next (s.give [])
  | .untilTest => .next (s.become (.unwind (if v.truthy then .leave else .again)))
  | .forPrepare body line c =>
    .next (s.forNumeric v (vs.getD 1 .nil) (vs.getD 2 .nil) body line c)
  | .forCount i left step body c =>
    match left with
    | 0 => .next (s.give [])
    | left + 1 => .next (s.roundInt (i + step) left step body c)
  | .forFloat x limit step body c =>
    let x := x + step
    .next (if hasRound x limit step then s.roundFloat x limit step body c else s.give [])
  | .forInPrepare count body line c =>
    let state := vs.getD 1 .nil
    let control := vs.getD 2 .nil
    let closed := vs.getD 3 .nil
    .next (match closable s.heap closed with
      | some false => s.nextRound count v state control body line c
      | some true => (s.push (.closing closed [] c) s.mode).nextRound count v state control body line c
      | none => s.guardRest closed (Bytes.ofAscii "(for state)") line [] c s.mode)
  | .forInResults count f state body line c => .next (s.roundIn count f state vs body line c)
  | .forInLoop count f state control body line c =>
    .next (s.nextRound count f state control body line c)
  | .returnValues => .next (s.become (.unwind (.finish vs)))
  | .activation _ => .next (s.give [])
  | .native k site => .next (s.become (.native (k vs) site))
  | .printing inv => .next (s.completeLine inv v)
  | .guarded .. => .next (s.give (.bool true :: vs))
  | .handling => .next (s.become (.unwind (.error (errorValue v))))
  | .boundary t outer =>
    let s := s.push (.boundary t outer) s.mode
    .next ({ s with nesting := s.nesting + 1 }.leaveThread (fun _ => ⟨.dead, none, [], none⟩)
      (.bool true :: vs))
  | .closing w _ c => .next (s.callClose w [] (.deliver vs) c)
  | .resumeUnwind u => .next (s.become (.unwind u))
  | .deliver vs => .next (s.give vs)

/-- One step of the machine. -/
def step (s : State) : Step :=
  match s.mode with
  | .eval e c => .next (s.eval e c)
  | .evalMany e c => .next (s.evalMany e c)
  | .exec body c => .next (s.exec body c)
  | .call f args site => s.call f args site
  | .native p site =>
    match p with
    | .done vs => .next (s.give vs)
    | .raise e => .next (s.become (.raise e))
    | .ask q k => .next (s.answer q k site)
  | .ret vs =>
    match s with
    | ⟨heap, [], _, _, _, _⟩ => .done vs heap
    | ⟨heap, f :: stack, mode, activations, nesting, thread⟩ =>
      let activations := activations - (if f.isActivation then 1 else 0)
      let nesting := nesting - (if f.isNativeCall then 1 else 0)
      receive ⟨heap, stack, mode, activations, nesting, thread⟩ f vs
  | .raise e => .next (s.raise e)
  | .unwind u => s.unwind u

end State

end ScriptAgent.Script
