import ScriptAgent.Script.Program

/-!
# Operations on values

The operations of the language: indexing, arithmetic, comparison, concatenation and length, with
the metamethods that tables and strings give them. Each is a program, so a metamethod is a
question to the machine like any other call.

An operation that a script performs knows its position and how the script names its operands
(`Place`); one that the library performs knows neither, and its messages show neither.
-/

namespace ScriptAgent.Script

/-- Where an operation is performed. -/
structure Place where
  position : Option (Bytes × Nat)
deriving Inhabited

/-- An operation of the library. -/
def Place.library : Place := ⟨none⟩

namespace Operation

/-! ## Errors -/

/-- The error of an operation. -/
def fault {α : Type} (p : Place) (message : Bytes) : Program α :=
  .raise (.str (positionText p.position ++ message))

/-- The type of a value as messages show it; a metatable may name it. -/
def typeName (v : Value) : Program Bytes :=
  match v with
  | .table _ => do
    match ← Program.queryOne (.metafield v (Bytes.ofAscii "__name")) with
    | .str name => return name
    | _ => return Bytes.ofAscii "table"
  | .tool _ | .foreign _ | .failure _ => return Bytes.ofAscii "POBJECT"
  | v => return Bytes.ofAscii v.typeName

/-- The error of an operation that a value does not take. -/
def wrongType {α : Type} (p : Place) (operation : String) (v : Value) (name : Described) :
    Program α := do
  let t ← typeName v
  fault p (Bytes.ofAscii s!"attempt to {operation} a " ++ t ++ Bytes.ofAscii " value" ++
    name.text)

/-- The call of a metamethod for an event. A call by the library has no name. -/
def callEvent (p : Place) (event : String) (f : Value) (args : List Value) :
    Program (List Value) :=
  let name := p.position.map fun _ => (NameKind.metamethod, Bytes.ofAscii event)
  .query (.call f args ⟨p.position, name⟩)

/-- The first result of a metamethod. -/
def callEventOne (p : Place) (event : String) (f : Value) (args : List Value) :
    Program Value := do
  return (← callEvent p event f args).headD .nil

/-- The metamethod of a value for an event. -/
def handler (v : Value) (event : String) : Program Value :=
  .queryOne (.metafield v (Bytes.ofAscii ("__" ++ event)))

/-- The metamethod of the first of two values that has one. -/
def handlerOfTwo (v w : Value) (event : String) : Program Value := do
  match ← handler v event with
  | .nil => handler w event
  | f => return f

/-- Whether a metamethod is called; anything else is indexed in turn. -/
def isFunction : Value → Bool
  | .function _ | .native _ | .wrapped _ | .matcher _ => true
  | _ => false

/-! ## Indexing -/

/-- The longest chain of tables that are indexed in turn. -/
def maxChain : Nat := 2000

/-- The value at a key, looked up along the chain of `__index` fields. -/
def indexFrom (p : Place) (name : Described) (k : Value) : Nat → Value → Program Value
  | 0, _ => fault p (Bytes.ofAscii "'__index' chain too long; possibly a loop")
  | fuel + 1, v =>
    match v with
    | .table a => do
      match ← Program.queryOne (.rawGet a k) with
      | .nil =>
        let h ← handler v "index"
        if h == .nil then return .nil
        else if isFunction h then callEventOne p "index" h [v, k]
        else indexFrom p none k fuel h
      | w => return w
    | _ => do
      let h ← handler v "index"
      if h == .nil then
        match v, k with
        | .tool _, .str key =>
          .raise (.failure s!"'function' object has no attribute '{Utf8.decode key}'")
        | .foreign _, .str key =>
          .raise (.failure s!"'str' object has no attribute '{Utf8.decode key}'")
        | _, _ => wrongType p "index" v name
      else if isFunction h then callEventOne p "index" h [v, k]
      else indexFrom p none k fuel h

/-- The value of `v[k]`. -/
def index (p : Place) (name : Described) (v k : Value) : Program Value :=
  indexFrom p name k maxChain v

/-- A write to a table that no metamethod takes; not every value is a key. -/
def store (p : Place) (a : Address) (k v : Value) : Program Unit :=
  match k.key? with
  | some key => do discard (Program.query (.rawSet a key v))
  | none =>
    if k == .nil then fault p (Bytes.ofAscii "table index is nil")
    else fault p (Bytes.ofAscii "table index is NaN")

/-- The write of a value at a key, passed on along the chain of `__newindex` fields. -/
def setIndexFrom (p : Place) (name : Described) (k w : Value) : Nat → Value → Program Unit
  | 0, _ => fault p (Bytes.ofAscii "'__newindex' chain too long; possibly a loop")
  | fuel + 1, v =>
    match v with
    | .table a => do
      match ← Program.queryOne (.rawGet a k) with
      | .nil =>
        let h ← handler v "newindex"
        if h == .nil then store p a k w
        else if isFunction h then discard (callEvent p "newindex" h [v, k, w])
        else setIndexFrom p none k w fuel h
      | _ => store p a k w
    | _ => do
      let h ← handler v "newindex"
      if h == .nil then wrongType p "index" v name
      else if isFunction h then discard (callEvent p "newindex" h [v, k, w])
      else setIndexFrom p none k w fuel h

/-- The assignment `v[k] = w`. -/
def setIndex (p : Place) (name : Described) (v k w : Value) : Program Unit :=
  setIndexFrom p name k w maxChain v

/-! ## Arithmetic -/

/-- The event of an operator. -/
def event : BinaryOp → String
  | .add => "add"
  | .sub => "sub"
  | .mul => "mul"
  | .mod => "mod"
  | .pow => "pow"
  | .div => "div"
  | .idiv => "idiv"
  | .band => "band"
  | .bor => "bor"
  | .bxor => "bxor"
  | .shl => "shl"
  | .shr => "shr"
  | .concat => "concat"
  | .eq | .ne => "eq"
  | .lt | .gt => "lt"
  | .le | .ge => "le"

/-- Why numbers cannot be combined. -/
inductive Refusal where
  | moduloByZero
  | divisionByZero
deriving DecidableEq

/-- The text of a refusal. -/
def Refusal.message : Refusal → String
  | .moduloByZero => "attempt to perform 'n%0'"
  | .divisionByZero => "attempt to divide by zero"

/-- Arithmetic on two numbers, for the operators that are not bitwise. -/
def arith (op : BinaryOp) (m n : Num) : Except Refusal Num :=
  match op, m, n with
  | .add, .int i, .int j => .ok (.int (i + j))
  | .sub, .int i, .int j => .ok (.int (i - j))
  | .mul, .int i, .int j => .ok (.int (i * j))
  | .mod, .int i, .int j =>
    if j == 0 then .error .moduloByZero else .ok (.int (Num.floorModInt i j))
  | .idiv, .int i, .int j =>
    if j == 0 then .error .divisionByZero else .ok (.int (Num.floorDivInt i j))
  | .add, m, n => .ok (.float (m.toFloat + n.toFloat))
  | .sub, m, n => .ok (.float (m.toFloat - n.toFloat))
  | .mul, m, n => .ok (.float (m.toFloat * n.toFloat))
  | .mod, m, n => .ok (.float (Num.floorModFloat m.toFloat n.toFloat))
  | .pow, m, n =>
    let y := n.toFloat
    .ok (.float (if y == 2 then m.toFloat * m.toFloat else Float.pow m.toFloat y))
  | .idiv, m, n => .ok (.float (Float.floor (m.toFloat / n.toFloat)))
  | _, m, n => .ok (.float (m.toFloat / n.toFloat))

/-- Bitwise operations on two integers. -/
def bitwise (op : BinaryOp) (i j : Int64) : Int64 :=
  match op with
  | .band => i &&& j
  | .bor => i ||| j
  | .bxor => i ^^^ j
  | .shl => Num.shiftLeft i j.toInt
  | _ => Num.shiftLeft i (-j.toInt)

/-- Whether an operator is bitwise. -/
def isBitwise : BinaryOp → Bool
  | .band | .bor | .bxor | .shl | .shr => true
  | _ => false

/-- The names of the two operands of an operation. -/
structure Names where
  left : Described
  right : Described

/-- Operands without names. -/
def Names.none : Names := ⟨Option.none, Option.none⟩

/-- The error of an operator whose operands it does not take. -/
def wrongOperand {α : Type} (p : Place) (names : Names) (operation : String) (v w : Value) :
    Program α :=
  match v with
  | .num _ => wrongType p operation w names.right
  | _ => wrongType p operation v names.left

/-- The error of a bitwise operator whose operands are numbers but not integers. -/
def noInteger {α : Type} (p : Place) (names : Names) (v : Value) : Program α :=
  let name :=
    match v with
    | .num n => if n.toInt?.isSome then names.right else names.left
    | _ => names.left
  fault p (Bytes.ofAscii "number" ++ name.text ++
    Bytes.ofAscii " has no integer representation")

/-- The value of an operator that no operand defines by itself: its metamethod. -/
def arithEvent (p : Place) (names : Names) (op : BinaryOp) (v w : Value) : Program Value := do
  match ← handlerOfTwo v w (event op) with
  | .nil =>
    if isBitwise op then
      match v, w with
      | .num _, .num _ => noInteger p names v
      | _, _ => wrongOperand p names "perform bitwise operation on" v w
    else wrongOperand p names "perform arithmetic on" v w
  | h => callEventOne p (event op) h [v, w]

/-- The value of an arithmetic or bitwise operator. -/
def arithmetic (p : Place) (names : Names) (op : BinaryOp) (v w : Value) : Program Value :=
  if isBitwise op then
    match v.toNum?.bind Num.toInt?, w.toNum?.bind Num.toInt? with
    | some i, some j => .done (.num (.int (bitwise op i j)))
    | _, _ => arithEvent p names op v w
  else
    match v, w with
    | .num m, .num n =>
      match arith op m n with
      | .ok r => .done (.num r)
      | .error e => fault p (Bytes.ofAscii e.message)
    | _, _ => arithEvent p names op v w

/-- The value of a unary minus. -/
def negate (p : Place) (name : Described) (v : Value) : Program Value :=
  match v with
  | .num (.int i) => .done (.num (.int (-i)))
  | .num (.float x) => .done (.num (.float (-x)))
  | _ => do
    match ← handler v "unm" with
    | .nil => wrongType p "perform arithmetic on" v name
    | h => callEventOne p "unm" h [v, v]

/-- The value of a bitwise complement. -/
def complement (p : Place) (name : Described) (v : Value) : Program Value :=
  match v.toNum?.bind Num.toInt? with
  | some i => .done (.num (.int (~~~ i)))
  | none => do
    match ← handler v "bnot" with
    | .nil =>
      match v with
      | .num _ => noInteger p ⟨name, name⟩ v
      | _ => wrongType p "perform bitwise operation on" v name
    | h => callEventOne p "bnot" h [v, v]

/-! ## Concatenation and length -/

/-- The value of a concatenation. -/
def concat (p : Place) (names : Names) (v w : Value) : Program Value :=
  match v.toBytes?, w.toBytes? with
  | some s, some t => .done (.str (s ++ t))
  | _, _ => do
    match ← handlerOfTwo v w "concat" with
    | .nil =>
      if v.isTextual then wrongType p "concatenate" w names.right
      else wrongType p "concatenate" v names.left
    | h => callEventOne p "concat" h [v, w]

/-- The value of the length operator. -/
def length (p : Place) (name : Described) (v : Value) : Program Value :=
  match v with
  | .str s => .done (.int s.length)
  | .table a => do
    match ← handler v "len" with
    | .nil => Program.queryOne (.border a)
    | h => callEventOne p "len" h [v]
  | _ => do
    match ← handler v "len" with
    | .nil => wrongType p "get length of" v name
    | h => callEventOne p "len" h [v]

/-! ## Comparison -/

/-- Whether two values are equal; two tables may say so by a metamethod. -/
def equal (p : Place) (v w : Value) : Program Bool :=
  if v.rawEq w then .done true
  else
    match v, w with
    | .table _, .table _ => do
      match ← handlerOfTwo v w "eq" with
      | .nil => return false
      | h => return (← callEventOne p "eq" h [v, w]).truthy
    | _, _ => .done false

/-- The error of a comparison of values that have no order. -/
def noOrder {α : Type} (p : Place) (v w : Value) : Program α := do
  let s ← typeName v
  let t ← typeName w
  if s == t then
    fault p (Bytes.ofAscii "attempt to compare two " ++ s ++ Bytes.ofAscii " values")
  else
    fault p (Bytes.ofAscii "attempt to compare " ++ s ++ Bytes.ofAscii " with " ++ t)

/-- Whether a value is less than another one. -/
def less (p : Place) (v w : Value) : Program Bool :=
  match v, w with
  | .num m, .num n => .done (m.lt n)
  | .str s, .str t => .done (compare s t == .lt)
  | _, _ => do
    match ← handlerOfTwo v w "lt" with
    | .nil => noOrder p v w
    | h => return (← callEventOne p "lt" h [v, w]).truthy

/-- Whether a value is at most another one. -/
def atMost (p : Place) (v w : Value) : Program Bool :=
  match v, w with
  | .num m, .num n => .done (m.le n)
  | .str s, .str t => .done (compare s t != .gt)
  | _, _ => do
    match ← handlerOfTwo v w "le" with
    | .nil => noOrder p v w
    | h => return (← callEventOne p "le" h [v, w]).truthy

/-- The value of an operator with two operands. -/
def binary (p : Place) (names : Names) (op : BinaryOp) (v w : Value) : Program Value :=
  match op with
  | .concat => concat p names v w
  | .eq => do return .bool (← equal p v w)
  | .ne => do return .bool (!(← equal p v w))
  | .lt => do return .bool (← less p v w)
  | .le => do return .bool (← atMost p v w)
  | .gt => do return .bool (← less p w v)
  | .ge => do return .bool (← atMost p w v)
  | op => arithmetic p names op v w

/-- The value of an operator with one operand. -/
def unary (p : Place) (name : Described) (op : UnaryOp) (v : Value) : Program Value :=
  match op with
  | .not => .done (.bool (!v.truthy))
  | .minus => negate p name v
  | .bitNot => complement p name v
  | .length => length p name v

/-! ## Text -/

/-- The address of an object as text. -/
def addressText (a : Address) : Bytes :=
  let ds := Nat.toDigits 16 (0x55d3c0a01000 + 64 * a)
  Bytes.ofAscii "0x" ++ ds.map fun c => Utf8.byte c.toNat

/-- The text of a value of which nothing but its kind and identity is shown. -/
def objectText (kind : String) (a : Address) : Bytes :=
  Bytes.ofAscii (kind ++ ": ") ++ addressText a

/-- The text of a value that no metamethod gives. -/
def plainText (v : Value) : Bytes :=
  match v with
  | .nil => Bytes.ofAscii "nil"
  | .bool b => Bytes.ofAscii (if b then "true" else "false")
  | .num n => n.toBytes
  | .str s => s
  | .table a => objectText "table" a
  | .function a => objectText "function" a
  | .native f => objectText "function" (100000 + f.ctorIdx)
  | .wrapped a => objectText "function" (200000 + a)
  | .matcher a => objectText "function" (300000 + a)
  | .thread a => objectText "thread" (400000 + a)
  | .tool w => objectText "tool" (500000 + w)
  | .foreign t | .failure t => Utf8.encode t

/-- The text of a value that no metamethod gives; a metatable may name the kind of a table. -/
def ownText (v : Value) : Program Value :=
  match v with
  | .table a => do
    match ← Program.queryOne (.metafield v (Bytes.ofAscii "__name")) with
    | .str name => return .str (name ++ Bytes.ofAscii ": " ++ addressText a)
    | _ => return .str (plainText v)
  | _ => .done (.str (plainText v))

/-- The text of a value: a metamethod may give it, and must then give a string. -/
def toText (site : Site) (p : Place) (v : Value) : Program Value := do
  match ← handler v "tostring" with
  | .nil => ownText v
  | h =>
    let r ← callEventOne p "tostring" h [v]
    if r.isTextual then return r
    else Program.failText site "'__tostring' must return a string"

end Operation

end ScriptAgent.Script
