import ScriptAgent.Script.Token
import ScriptAgent.Script.Tree

/-!
# The parser of scripts

`parse` reads a script into the body of a function, in one pass over its tokens with one token
of look-ahead. It resolves every name: scopes, variables that may not be assigned, variables
that are constants, labels and jumps. The first fault ends it, with a message that begins with
the position.

Recursion descends on a bound that the number of tokens gives; every nested call of the
grammar either consumes a token or is one of a few steps down the chain of expression forms, so
the bound is not met.
-/

namespace ScriptAgent.Script

namespace Parser

/-! ## State -/

/-- How a variable may be used. -/
inductive VariableKind where
  | regular
  /-- Assigned once, at its declaration. -/
  | const
  /-- Closed when its scope ends. -/
  | close
  /-- Replaced by its value wherever it is used. -/
  | literal (v : Literal)
  /-- No variable of its own: the name stands for a global. -/
  | «global» (readOnly : Bool)
  /-- Every name that is not declared stands for a global. -/
  | anyGlobal (readOnly : Bool)
deriving DecidableEq, Inhabited

/-- A variable in scope and the nesting level of the function that declares it. -/
structure Variable where
  name : Bytes
  kind : VariableKind
  level : Nat
deriving Inhabited

/-- A label in scope; `active` variables are in scope after a jump to it. -/
structure Label where
  name : Bytes
  line : Nat
  active : Nat
deriving Inhabited

/-- A jump that has not met its label; `active` variables are in scope at it. -/
structure Jump where
  name : Bytes
  line : Nat
  active : Nat
deriving Inhabited

/-- What the parser knows between two tokens. -/
structure State where
  tokens : List Token
  /-- The line of the last token that was consumed. -/
  lastLine : Nat
  /-- The variables in scope, innermost first. -/
  scope : List Variable
  /-- The nesting level of the current function. -/
  level : Nat
  /-- The line that the current function begins at. -/
  functionLine : Nat
  /-- The labels of the current function that are in scope. -/
  labels : List Label
  /-- The jumps of the current block that have not met a label. -/
  jumps : List Jump
  /-- The variables of the current function, and the stored ones of all, where the current block
  begins. -/
  blockActive : Nat
  blockStored : Nat
  /-- The number of loops of the current function around this place. -/
  loops : Nat
  /-- Whether a variable to be closed is in scope in the current function. -/
  closes : Bool
  /-- Whether the current function takes extra arguments. -/
  vararg : Bool
  /-- The number of nested constructs that are open. -/
  depth : Nat
  /-- The display name of the script. -/
  chunk : Bytes
deriving Inhabited

/-- A parser: a change of state that may end in a fault, whose message it is. -/
abbrev P := StateT State (Except Bytes)

/-- The end of the parse with a message at a line. -/
def fail {α : Type} (line : Nat) (message : Bytes) : P α := do
  let s ← get
  throw (s.chunk ++ Bytes.ofAscii s!":{line}: " ++ message)

/-- The current token. -/
def current : P Token := do
  match (← get).tokens with
  | t :: _ => return t
  | [] => return ⟨.eof, 0, Token.eofText⟩

/-- A fault at the current token. -/
def faultNear {α : Type} (message : String) : P α := do
  let t ← current
  fail t.line (Bytes.ofAscii message ++ Bytes.ofAscii " near " ++ t.text)

/-- A fault of meaning, at the last token that was consumed. -/
def faultOf {α : Type} (message : Bytes) : P α := do
  fail (← get).lastLine message

/-- A token that is no token ends the parse as soon as it becomes the current one. -/
def checkFault : P Unit := do
  let t ← current
  match t.kind with
  | .fault message => fail t.line message
  | _ => return ()

/-- Moves to the next token. -/
def advance : P Unit := do
  let t ← current
  modify fun s => { s with tokens := s.tokens.drop 1, lastLine := t.line }
  checkFault

/-- Whether the current token is a symbol. -/
def at? (symbol : String) : P Bool := do
  match (← current).kind with
  | .symbol s => return s == Bytes.ofAscii symbol
  | _ => return false

/-- Consumes a symbol if it is the current token. -/
def accept? (symbol : String) : P Bool := do
  if ← at? symbol then
    advance
    return true
  return false

/-- A fault that says what was expected. -/
def expected {α : Type} (what : String) : P α := faultNear s!"{what} expected"

/-- Consumes a symbol. -/
def consume (symbol : String) : P Unit := do
  unless ← accept? symbol do expected s!"'{symbol}'"

/-- Consumes a symbol that closes what another one opened at a line. -/
def consumeMatch (symbol opener : String) (line : Nat) : P Unit := do
  unless ← accept? symbol do
    if (← current).line = line then expected s!"'{symbol}'"
    else faultNear s!"'{symbol}' expected (to close '{opener}' at line {line})"

/-- Consumes a name. -/
def consumeName : P Bytes := do
  match (← current).kind with
  | .name s =>
    advance
    return s
  | _ => expected "<name>"

/-- Runs a parser one construct deeper; there is a limit to nesting. -/
def nested {α : Type} (p : P α) : P α := do
  if (← get).depth ≥ 197 then throw (Bytes.ofAscii "C stack overflow")
  modify fun s => { s with depth := s.depth + 1 }
  let a ← p
  modify fun s => { s with depth := s.depth - 1 }
  return a

/-! ## Scopes -/

/-- Whether a variable takes a place among the variables of the running script. -/
def Variable.stored (v : Variable) : Bool :=
  match v.kind with
  | .literal _ | .global _ | .anyGlobal _ => false
  | _ => true

/-- The number of stored variables in scope. -/
def storedCount : P Nat := do
  return ((← get).scope.filter Variable.stored).length

/-- The number of variables of the current function in scope. -/
def activeCount : P Nat := do
  let s ← get
  return (s.scope.takeWhile fun v => v.level == s.level).length

/-- Brings a variable into scope. -/
def declare (name : Bytes) (kind : VariableKind) : P Unit := do
  if (← activeCount) ≥ 200 then
    let s ← get
    let place :=
      if s.level ≤ 1 then "main function" else s!"function at line {s.functionLine}"
    faultNear s!"too many local variables (limit is 200) in {place}"
  modify fun s => { s with scope := ⟨name, kind, s.level⟩ :: s.scope }

/-- What a suffixed expression can be used for besides its value. -/
inductive Place where
  | none
  | call
  | var (distance : Nat) (name : Bytes)
  | readOnly (name : Bytes)
  | index (object key : Expr)
deriving Inhabited

/-- What a name that is no variable in scope stands for. -/
inductive GlobalAccess where
  /-- A global, as long as no declaration has been passed. -/
  | undecided
  /-- A global by a declaration of its name or of all names. -/
  | allowed (readOnly : Bool)
  /-- Nothing: other globals are declared, but not this one. -/
  | undeclared
deriving DecidableEq, Inhabited

/-- What a name stands for, looked up from the innermost declaration outwards: a variable, as an
expression and what may be done with it, or else a global. A declaration of a global hides the
names that it does not declare, unless one of all names follows. -/
def lookUp (name : Bytes) (level : Nat) :
    Nat → GlobalAccess → List Variable → (Expr × Place) ⊕ GlobalAccess
  | _, access, [] => .inr access
  | distance, access, v :: rest =>
    match v.kind with
    | .anyGlobal readOnly =>
      match access with
      | .allowed _ => lookUp name level distance access rest
      | _ => lookUp name level distance (.allowed readOnly) rest
    | .global readOnly =>
      if v.name == name then .inr (.allowed readOnly)
      else
        match access with
        | .undecided => lookUp name level distance .undeclared rest
        | _ => lookUp name level distance access rest
    | .literal value =>
      if v.name == name then .inl (.literal value, .readOnly name)
      else lookUp name level distance access rest
    | .regular =>
      if v.name == name then
        .inl (.var distance name (v.level < level), .var distance name)
      else lookUp name level (distance + 1) access rest
    | _ =>
      if v.name == name then .inl (.var distance name (v.level < level), .readOnly name)
      else lookUp name level (distance + 1) access rest

/-- A global: a field of the table of globals, which is itself a variable. -/
def globalField (name : Bytes) : P (Expr × Expr) := do
  let s ← get
  match lookUp envName s.level 0 .undecided s.scope with
  | .inl (env, _) => return (env, .literal (.str name))
  | .inr _ =>
    faultOf (Bytes.ofAscii "_ENV is global when accessing variable '" ++ name ++
      Bytes.ofAscii "'")

/-- The meaning of a name: a variable in scope, or else a field of the table of globals. -/
def resolve (name : Bytes) : P (Expr × Place) := do
  let s ← get
  match lookUp name s.level 0 .undecided s.scope with
  | .inl r => return r
  | .inr .undeclared =>
    faultOf (Bytes.ofAscii "variable '" ++ name ++ Bytes.ofAscii "' not declared")
  | .inr access =>
    let (env, key) ← globalField name
    let place := if access = .allowed true then .readOnly name else .index env key
    return (.index env key s.lastLine, place)

/-- An index takes the line at which the parser has arrived when its value is first needed. -/
def reline (e : Expr) : P Expr := do
  match e with
  | .index o k _ => return .index o k (← get).lastLine
  | e => return e

/-- A name that may not be assigned ends the parse. -/
def checkAssignable (p : Place) : P Unit := do
  match p with
  | .readOnly name =>
    faultOf (Bytes.ofAscii "attempt to assign to const variable '" ++ name ++
      Bytes.ofAscii "'")
  | _ => return ()

/-- Settles the jumps of a block that ends: those that meet one of its labels are done, the
others leave to the block around it, where `outer` variables are in scope. `own` are the
variables of the function at the end of the block, outermost first. -/
def settleJumps (labels : List Label) (outer : Nat) (own : List Variable) :
    List Jump → P (List Jump)
  | [] => return []
  | j :: rest => do
    match labels.find? (·.name == j.name) with
    | some l =>
      if j.active < l.active then
        let name := (own[j.active]?.map (·.name)).getD (Bytes.ofAscii "*")
        faultOf (Bytes.ofAscii "<goto " ++ j.name ++
          Bytes.ofAscii s!"> at line {j.line} jumps into the scope of '" ++ name ++
          Bytes.ofAscii "'")
      settleJumps labels outer own rest
    | none =>
      let more ← settleJumps labels outer own rest
      return { j with active := min j.active outer } :: more

/-- The variables of the current function, outermost first. -/
def ownVariables : P (List Variable) := do
  let s ← get
  return (s.scope.takeWhile fun v => v.level == s.level).reverse

/-- Runs the parser of a block in a scope of its own. -/
def inBlock {α : Type} (p : P α) : P α := do
  let before ← get
  let outer ← activeCount
  let stored ← storedCount
  set { before with jumps := [], blockActive := outer, blockStored := stored }
  let a ← p
  let after ← get
  let own ← ownVariables
  let labels := after.labels.take (after.labels.length - before.labels.length)
  let left ← settleJumps labels outer own after.jumps
  set { after with
    scope := before.scope, labels := before.labels, closes := before.closes,
    jumps := before.jumps ++ left, blockActive := before.blockActive,
    blockStored := before.blockStored }
  return a

/-- Runs the parser of a loop. -/
def looped {α : Type} (p : P α) : P α := do
  modify fun s => { s with loops := s.loops + 1 }
  let a ← p
  modify fun s => { s with loops := s.loops - 1 }
  return a

/-- Settles the jumps of a function that ends; one that meets no label is a fault. -/
def endFunction : P Unit := do
  let s ← get
  match ← settleJumps s.labels 0 (← ownVariables) s.jumps with
  | j :: _ =>
    faultOf (Bytes.ofAscii "no visible label '" ++ j.name ++
      Bytes.ofAscii s!"' for <goto> at line {j.line}")
  | [] => return ()

/-! ## Operators -/

/-- The left and right priority of an operator with two operands. -/
def priority? (s : Bytes) : Option (Nat × Nat) :=
  match Bytes.latin1 s with
  | "or" => some (1, 1)
  | "and" => some (2, 2)
  | "<" | ">" | "<=" | ">=" | "~=" | "==" => some (3, 3)
  | "|" => some (4, 4)
  | "~" => some (5, 5)
  | "&" => some (6, 6)
  | "<<" | ">>" => some (7, 7)
  | ".." => some (9, 8)
  | "+" | "-" => some (10, 10)
  | "*" | "/" | "//" | "%" => some (11, 11)
  | "^" => some (14, 13)
  | _ => none

/-- The priority of the operators with one operand. -/
def unaryPriority : Nat := 12

/-- The expression of an operator with two operands. -/
def binary (s : Bytes) (l r : Expr) (line : Nat) : Expr :=
  match Bytes.latin1 s with
  | "or" => .or l r
  | "and" => .and l r
  | "<" => .binary .lt l r line
  | ">" => .binary .gt l r line
  | "<=" => .binary .le l r line
  | ">=" => .binary .ge l r line
  | "~=" => .binary .ne l r line
  | "==" => .binary .eq l r line
  | "|" => .binary .bor l r line
  | "~" => .binary .bxor l r line
  | "&" => .binary .band l r line
  | "<<" => .binary .shl l r line
  | ">>" => .binary .shr l r line
  | ".." => .binary .concat l r line
  | "+" => .binary .add l r line
  | "-" => .binary .sub l r line
  | "*" => .binary .mul l r line
  | "/" => .binary .div l r line
  | "//" => .binary .idiv l r line
  | "%" => .binary .mod l r line
  | _ => .binary .pow l r line

/-- The operators with one operand. -/
def unary? (s : Bytes) : Option UnaryOp :=
  match Bytes.latin1 s with
  | "not" => some .not
  | "-" => some .minus
  | "~" => some .bitNot
  | "#" => some .length
  | _ => none

/-- The symbol that the current token is, or nothing. -/
def currentSymbol : P Bytes := do
  match (← current).kind with
  | .symbol s => return s
  | _ => return []

/-- Whether a block ends at the current token. -/
def blockEnds (withUntil : Bool) : P Bool := do
  match (← current).kind with
  | .eof => return true
  | .symbol s =>
    match Bytes.latin1 s with
    | "else" | "elseif" | "end" => return true
    | "until" => return withUntil
    | _ => return false
  | _ => return false

/-- An attribute after a variable's name, if there is one. -/
def variableAttribute (default : VariableKind) : P VariableKind := do
  if ← accept? "<" then
    let a ← consumeName
    consume ">"
    if a == Bytes.ofAscii "const" then return .const
    else if a == Bytes.ofAscii "close" then return .close
    else faultOf (Bytes.ofAscii "unknown attribute '" ++ a ++ Bytes.ofAscii "'")
  else return default

/-- The names of a list of variables with their attributes. -/
def declarations (default : VariableKind) : Nat → P (List (Bytes × VariableKind))
  | 0 => return []
  | fuel + 1 => do
    let name ← consumeName
    let kind ← variableAttribute default
    if ← accept? "," then
      return (name, kind) :: (← declarations default fuel)
    return [(name, kind)]

/-- An attribute of declared globals, if there is one: whether they may not be assigned. -/
def globalAttribute (default : Bool) : P Bool := do
  match ← variableAttribute (if default then .const else .regular) with
  | .close => faultOf (Bytes.ofAscii "global variables cannot be to-be-closed")
  | kind => return kind == .const

/-- The names of a list of declared globals with their attributes. -/
def globalNames (default : Bool) : Nat → P (List (Bytes × Bool))
  | 0 => return []
  | fuel + 1 => do
    let name ← consumeName
    let readOnly ← globalAttribute default
    if ← accept? "," then
      return (name, readOnly) :: (← globalNames default fuel)
    return [(name, readOnly)]

/-- Whether a declaration of globals begins at the current token. Elsewhere its first word is an
ordinary name. -/
def atGlobalDeclaration : P Bool := do
  match (← get).tokens with
  | ⟨.name w, _, _⟩ :: next :: _ =>
    if w == Bytes.ofAscii "global" then
      match next.kind with
      | .name _ => return true
      | .symbol s => return ["<", "*", "function"].contains (Bytes.latin1 s)
      | _ => return false
    else return false
  | _ => return false

/-- The same expression where `count` more variables are in scope. -/
def deepen (count : Nat) : Expr → Expr
  | .var d name upvalue => .var (d + count) name upvalue
  | e => e

/-- Gives a global its first value; one that has a value already is an error. -/
def defineGlobal (env : Expr) (name : Bytes) (value : Expr) (line : Nat) : List Stmt :=
  let key : Expr := .literal (.str name)
  let message :=
    Bytes.ofAscii "global '" ++ name ++ Bytes.ofAscii "' already defined"
  [.if (.binary .ne (.index env key line) (.literal .nil) line) [.fault message line] [],
    .assign [.index env key] [value] line]

/-- Gives globals their first values, the last one first, after all values are found. -/
def defineGlobals (vars : List (Expr × Bytes)) (values : List Expr) (line : Nat) : Stmt :=
  let count := vars.length
  .block (.declare count values none line ::
    vars.reverse.zipIdx.flatMap fun ((env, name), d) =>
      defineGlobal (deepen count env) name (.var d name false) line)

/-- A list of names. -/
def names : Nat → P (List Bytes)
  | 0 => return []
  | fuel + 1 => do
    let name ← consumeName
    if ← accept? "," then
      return name :: (← names fuel)
    return [name]

/-- The place of the variable to be closed among declared ones; there may be one at most. -/
def closePlace (vars : List (Bytes × VariableKind)) : P (Option (Nat × Bytes)) := do
  match vars.zipIdx.filter fun (v, _) => v.2 == .close with
  | [] => return none
  | [(v, i)] => return some (i, v.1)
  | _ => faultOf (Bytes.ofAscii "multiple to-be-closed variables in local list")

/-- The parameters of a function: their names, whether extra arguments are taken, and the name
of the table that holds these. -/
def parameters : Nat → P (List Bytes × Bool × Option Bytes)
  | 0 => return ([], false, none)
  | fuel + 1 => do
    match (← current).kind with
    | .name s =>
      advance
      if ← accept? "," then
        let (rest, more) ← parameters fuel
        return (s :: rest, more)
      return ([s], false, none)
    | _ =>
      if ← accept? "..." then
        match (← current).kind with
        | .name s =>
          advance
          return ([], true, some s)
        | _ => return ([], true, none)
      expected "<name> or '...'"

/-! ## The grammar -/

/-- The end of the bound on recursion. -/
def exhausted {α : Type} : P α := throw (Bytes.ofAscii "chunk has too many syntax levels")

mutual

/-- An expression whose operators all bind tighter than `limit`. -/
def expression (fuel : Nat) (limit : Nat) : P Expr :=
  match fuel with
  | 0 => exhausted
  | n + 1 => nested do
    let line := (← current).line
    let left ← do
      match unary? (← currentSymbol) with
      | some op =>
        advance
        let e ← expression n unaryPriority
        pure (Expr.unary op e line)
      | none => simple n
    operators n limit left

/-- The operators after a left operand. -/
def operators (fuel : Nat) (limit : Nat) (left : Expr) : P Expr :=
  match fuel with
  | 0 => exhausted
  | n + 1 => do
    let s ← currentSymbol
    match priority? s with
    | some (l, r) =>
      if l > limit then
        let line := (← current).line
        advance
        let left ← reline left
        let right ← expression n r
        operators n limit (binary s left right line)
      else return left
    | none => return left

/-- An expression without an operator at its top. -/
def simple (fuel : Nat) : P Expr :=
  match fuel with
  | 0 => exhausted
  | n + 1 => do
    match (← current).kind with
    | .number v =>
      advance
      return .literal (.num v)
    | .string s =>
      advance
      return .literal (.str s)
    | .symbol s =>
      match Bytes.latin1 s with
      | "nil" =>
        advance
        return .literal .nil
      | "true" =>
        advance
        return .literal (.bool true)
      | "false" =>
        advance
        return .literal (.bool false)
      | "..." =>
        unless (← get).vararg do faultNear "cannot use '...' outside a vararg function"
        advance
        return .vararg
      | "\x7b" => constructor n
      | "function" =>
        let line := (← current).line
        advance
        return .function (← functionBody n false line)
      | _ => return (← suffixed n).1
    | _ => return (← suffixed n).1

/-- A name or an expression in parentheses. -/
def primary (fuel : Nat) : P (Expr × Place) :=
  match fuel with
  | 0 => exhausted
  | n + 1 => do
    match (← current).kind with
    | .name s =>
      advance
      resolve s
    | _ =>
      let line := (← current).line
      if ← accept? "(" then
        let e ← expression n 0
        consumeMatch ")" "(" line
        let e ← reline e
        return (.single e, .none)
      faultNear "unexpected symbol"

/-- A primary expression with the indices and calls after it. -/
def suffixed (fuel : Nat) : P (Expr × Place) :=
  match fuel with
  | 0 => exhausted
  | n + 1 => do
    let (e, p) ← primary n
    suffixes n e p

/-- The indices and calls after an expression. -/
def suffixes (fuel : Nat) (e : Expr) (p : Place) : P (Expr × Place) :=
  match fuel with
  | 0 => exhausted
  | n + 1 => do
    match (← current).kind with
    | .string _ =>
      let line := (← current).line
      let args ← arguments n
      suffixes n (.call e args line) .call
    | .symbol s =>
      match Bytes.latin1 s with
      | "." =>
        advance
        let key : Expr := .literal (.str (← consumeName))
        suffixes n (.index e key (← get).lastLine) (.index e key)
      | "[" =>
        let key ← bracketed n
        suffixes n (.index e key (← get).lastLine) (.index e key)
      | ":" =>
        advance
        let name ← consumeName
        let nameLine := (← get).lastLine
        let line := (← current).line
        let args ← arguments n
        suffixes n (.method e name args nameLine line) .call
      | "(" | "\x7b" =>
        let line := (← current).line
        let args ← arguments n
        suffixes n (.call e args line) .call
      | _ => return (e, p)
    | _ => return (e, p)

/-- A key in brackets. -/
def bracketed (fuel : Nat) : P Expr :=
  match fuel with
  | 0 => exhausted
  | n + 1 => do
    advance
    let e ← expression n 0
    consume "]"
    return e

/-- The arguments of a call. -/
def arguments (fuel : Nat) : P (List Expr) :=
  match fuel with
  | 0 => exhausted
  | n + 1 => do
    match (← current).kind with
    | .string s =>
      advance
      return [.literal (.str s)]
    | .symbol s =>
      match Bytes.latin1 s with
      | "\x7b" => return [← constructor n]
      | "(" =>
        let line := (← current).line
        advance
        if ← accept? ")" then return []
        let es ← expressions n
        consumeMatch ")" "(" line
        match es.getLast? with
        | some last => return es.dropLast ++ [← reline last]
        | none => return es
      | _ => faultNear "function arguments expected"
    | _ => faultNear "function arguments expected"

/-- A list of expressions. -/
def expressions (fuel : Nat) : P (List Expr) :=
  match fuel with
  | 0 => exhausted
  | n + 1 => do
    let e ← expression n 0
    if ← accept? "," then
      let e ← reline e
      return e :: (← expressions n)
    return [e]

/-- A table constructor. -/
def constructor (fuel : Nat) : P Expr :=
  match fuel with
  | 0 => exhausted
  | n + 1 => do
    let line := (← current).line
    consume "\x7b"
    let fs ← fields n
    consumeMatch "\x7d" "\x7b" line
    return .table fs line

/-- The fields of a table constructor. -/
def fields (fuel : Nat) : P (List Field) :=
  match fuel with
  | 0 => exhausted
  | n + 1 => do
    if ← at? "\x7d" then return []
    let f ← field n
    if (← accept? ",") || (← accept? ";") then
      return f :: (← fields n)
    return [f]

/-- One field of a table constructor. -/
def field (fuel : Nat) : P Field :=
  match fuel with
  | 0 => exhausted
  | n + 1 => do
    let s ← get
    let named :=
      match s.tokens with
      | ⟨.name k, _, _⟩ :: next :: _ =>
        if next.kind == .symbol (Bytes.ofAscii "=") then some k else none
      | _ => none
    match named with
    | some k =>
      advance
      consume "="
      let v ← expression n 0
      return .keyed (.literal (.str k)) v (← get).lastLine
    | none =>
      if ← at? "[" then
        let k ← bracketed n
        consume "="
        let v ← expression n 0
        return .keyed k v (← get).lastLine
      return .positional (← expression n 0)

/-- The parameters and the statements of a function that begins at a line. -/
def functionBody (fuel : Nat) (method : Bool) (line : Nat) : P Function :=
  match fuel with
  | 0 => exhausted
  | n + 1 => do
    let outer ← get
    let stored ← storedCount
    set { outer with
      level := outer.level + 1, functionLine := line, labels := [], jumps := [], loops := 0,
      closes := false, blockActive := 0, blockStored := stored }
    if method then declare (Bytes.ofAscii "self") .regular
    consume "("
    let (params, vararg, table) ← do
      if ← at? ")" then pure ([], false, none) else parameters n
    for p in params do declare p .regular
    match table with
    | some t => declare t .regular
    | none => pure ()
    modify fun s => { s with vararg := vararg }
    consume ")"
    let body ← statements n
    consumeMatch "end" "function" line
    endFunction
    modify fun s => { s with
      scope := outer.scope, level := outer.level, functionLine := outer.functionLine,
      labels := outer.labels, jumps := outer.jumps, loops := outer.loops,
      closes := outer.closes, vararg := outer.vararg, blockActive := outer.blockActive,
      blockStored := outer.blockStored }
    let count := params.length + if method then 1 else 0
    return .mk count vararg table.isSome body outer.chunk

/-- The statements up to the end of a block. -/
def statements (fuel : Nat) : P (List Stmt) :=
  match fuel with
  | 0 => exhausted
  | n + 1 => do
    if ← blockEnds true then return []
    if ← at? "return" then return ← nested (statement n)
    let s ← nested (statement n)
    let rest ← statements n
    return s ++ rest

/-- The statements of a block with a scope of its own. -/
def block (fuel : Nat) : P (List Stmt) :=
  match fuel with
  | 0 => exhausted
  | n + 1 => inBlock (statements n)

/-- A statement. Some forms give no tree, some more than one. -/
def statement (fuel : Nat) : P (List Stmt) :=
  match fuel with
  | 0 => exhausted
  | n + 1 => do
    let line := (← current).line
    match Bytes.latin1 (← currentSymbol) with
    | ";" =>
      advance
      return []
    | "if" => return [← conditional n line]
    | "while" =>
      advance
      let c ← expression n 0
      consume "do"
      let b ← looped (block n)
      consumeMatch "end" "while" line
      return [.while c b]
    | "do" =>
      advance
      let b ← block n
      consumeMatch "end" "do" line
      return [.block b]
    | "for" => return [← looped (inBlock (forLoop n line))]
    | "repeat" =>
      advance
      let b ← looped (inBlock do
        let b ← statements n
        consumeMatch "until" "repeat" line
        let c ← expression n 0
        pure (b ++ [.until c]))
      return [.repeat b]
    | "function" =>
      advance
      let name ← consumeName
      let (e, p) ← resolve name
      let (e, p, method) ← functionName n e p
      checkAssignable p
      let b ← functionBody n method line
      match p with
      | .var d x => return [.assign [.var d x] [.function b] line]
      | .index o k => return [.assign [.index o k] [.function b] line]
      | _ => return [.assign [.index e e] [.function b] line]
    | "local" =>
      advance
      if ← accept? "function" then
        declare (← consumeName) .regular
        return [.declareFunction (← functionBody n false line)]
      localDeclaration n
    | "::" =>
      advance
      let name ← consumeName
      consume "::"
      let more ← emptyStatements n
      let s ← get
      match s.labels.find? (·.name == name) with
      | some l =>
        faultOf (Bytes.ofAscii "label '" ++ name ++
          Bytes.ofAscii s!"' already defined on line {l.line}")
      | none =>
        let active ← activeCount
        let stored ← storedCount
        let last ← blockEnds false
        let (active, depth) := if last then (s.blockActive, s.blockStored) else (active, stored)
        set { s with labels := ⟨name, line, active⟩ :: s.labels }
        return .label name depth :: more
    | "return" =>
      advance
      let values ← do
        if (← blockEnds true) || (← at? ";") then pure [] else expressions n
      discard (accept? ";")
      let tail :=
        match values with
        | [.call ..] | [.method ..] => true
        | _ => false
      return [.return values (tail && !(← get).closes)]
    | "break" =>
      if (← get).loops = 0 then faultNear "break outside loop"
      advance
      return [.break]
    | "goto" =>
      advance
      let name ← consumeName
      let active ← activeCount
      modify fun s => { s with jumps := s.jumps ++ [⟨name, line, active⟩] }
      return [.goto name]
    | _ =>
      if ← atGlobalDeclaration then return ← globalDeclaration n line
      let (e, p) ← suffixed n
      if (← at? "=") || (← at? ",") then
        return [← assignment n [] p]
      match p with
      | .call => return [.call e]
      | _ => faultNear "syntax error"

/-- The empty statements and labels after a label. -/
def emptyStatements (fuel : Nat) : P (List Stmt) :=
  match fuel with
  | 0 => exhausted
  | n + 1 => do
    if (← at? ";") || (← at? "::") then
      let s ← statement n
      return s ++ (← emptyStatements n)
    return []

/-- The branches of a conditional statement. -/
def conditional (fuel : Nat) (line : Nat) : P Stmt :=
  match fuel with
  | 0 => exhausted
  | n + 1 => do
    advance
    let c ← expression n 0
    consume "then"
    let yes ← block n
    if ← at? "elseif" then
      return .if c yes [← conditional n line]
    let no ← do
      if ← accept? "else" then block n else pure []
    consumeMatch "end" "if" line
    return .if c yes no

/-- A loop over numbers or over the results of a function. -/
def forLoop (fuel : Nat) (line : Nat) : P Stmt :=
  match fuel with
  | 0 => exhausted
  | n + 1 => do
    advance
    let name ← consumeName
    if ← accept? "=" then
      let start ← expression n 0
      consume ","
      let limit ← expression n 0
      let step ← do
        if ← accept? "," then expression n 0 else pure (.literal (.num (.int 1)))
      consume "do"
      let prepLine := (← get).lastLine
      let b ← inBlock do
        declare name .const
        statements n
      consumeMatch "end" "for" line
      return .forNumeric start limit step b prepLine
    else if (← at? ",") || (← at? "in") then
      let others ← do
        if ← accept? "," then names n else pure []
      consume "in"
      let values ← expressions n
      consume "do"
      modify fun s => { s with closes := true }
      let b ← inBlock do
        declare name .const
        for x in others do declare x .regular
        statements n
      consumeMatch "end" "for" line
      return .forIn (others.length + 1) values b line
    else faultNear "'=' or 'in' expected"

/-- The fields after the first name of a function statement. -/
def functionName (fuel : Nat) (e : Expr) (p : Place) : P (Expr × Place × Bool) :=
  match fuel with
  | 0 => exhausted
  | n + 1 => do
    if ← accept? "." then
      let key : Expr := .literal (.str (← consumeName))
      functionName n (.index e key (← get).lastLine) (.index e key)
    else if ← accept? ":" then
      let key : Expr := .literal (.str (← consumeName))
      return (.index e key (← get).lastLine, .index e key, true)
    else return (e, p, false)

/-- The variables of a declaration and their values. The variables come into scope after the
values; a last one that is constant and has a literal for its value is replaced by it. -/
def localDeclaration (fuel : Nat) : P (List Stmt) :=
  match fuel with
  | 0 => exhausted
  | n + 1 => do
    let default ← variableAttribute .regular
    let vars ← declarations default n
    let close ← closePlace vars
    let values ← do
      if ← accept? "=" then expressions n else pure []
    match vars.getLast?, values.getLast? with
    | some (name, .const), some (.literal v) =>
      if vars.length = values.length then
        for (x, k) in vars.dropLast do declare x k
        declare name (.literal v)
        return [.declare (vars.length - 1) values.dropLast close (← get).lastLine]
    | _, _ => pure ()
    for (x, k) in vars do declare x k
    if close.isSome then modify fun s => { s with closes := true }
    return [.declare vars.length values close (← get).lastLine]

/-- The rest of a declaration of globals. A function is in its own scope, other values are
not. -/
def globalDeclaration (fuel : Nat) (line : Nat) : P (List Stmt) :=
  match fuel with
  | 0 => exhausted
  | n + 1 => do
    advance
    if ← accept? "function" then
      let name ← consumeName
      declare name (.global false)
      let (env, _) ← globalField name
      let f ← functionBody n false (← current).line
      return defineGlobal env name (.function f) line
    let default ← globalAttribute false
    if ← accept? "*" then
      declare (Bytes.ofAscii "*") (.anyGlobal default)
      return []
    let vars ← globalNames default n
    let definitions ← do
      if ← accept? "=" then
        let line := (← current).line
        let fields ← vars.mapM fun (name, _) => do return ((← globalField name).1, name)
        pure [defineGlobals fields (← expressions n) line]
      else pure []
    for (name, readOnly) in vars do declare name (.global readOnly)
    return definitions

/-- The rest of an assignment after some of its targets; `targets` are in reverse. -/
def assignment (fuel : Nat) (targets : List Target) (p : Place) : P Stmt :=
  match fuel with
  | 0 => exhausted
  | n + 1 => do
    let target ← do
      match p with
      | .var d x => pure (Target.var d x)
      | .index o k => pure (Target.index o k)
      | .readOnly x =>
        checkAssignable p
        pure (Target.var 0 x)
      | _ => faultNear "syntax error"
    if ← accept? "," then
      let (_, p) ← suffixed n
      nested (assignment n (target :: targets) p)
    else
      consume "="
      let values ← expressions n
      return .assign (target :: targets).reverse values (← get).lastLine

end

/-- The state before the first token of a script. The table of globals is a variable of a
function around it. -/
def start (chunk script : Bytes) : State where
  tokens := Token.scan script
  lastLine := 1
  scope := [⟨envName, .regular, 0⟩]
  level := 1
  functionLine := 0
  labels := []
  jumps := []
  blockActive := 0
  blockStored := 1
  loops := 0
  closes := false
  vararg := true
  depth := 1
  chunk := chunk

/-- A whole script. -/
def script (fuel : Nat) : P Function := do
  checkFault
  let body ← statements fuel
  match (← current).kind with
  | .eof => pure ()
  | _ => expected "<eof>"
  endFunction
  return .mk 0 true false body (← get).chunk

end Parser

/-- How messages show the name of a script: a text is shown by its first line, cut to a
length. -/
def chunkDisplay (source : Bytes) : Bytes :=
  match source with
  | 61 :: name => name.take 59
  | 64 :: name =>
    if name.length ≤ 59 then name
    else Bytes.ofAscii "..." ++ name.drop (name.length - 56)
  | _ =>
    let line := source.takeWhile (· != 10)
    let short := line.length = source.length && source.length < 45
    let shown := if short then source else line.take 45 ++ Bytes.ofAscii "..."
    Bytes.ofAscii "[string \"" ++ shown ++ Bytes.ofAscii "\"]"

/-- Reads a script with the given display name, or says what is wrong with it. -/
def parse (chunk script : Bytes) : Except Bytes Function := do
  let s := Parser.start chunk script
  let (f, _) ← (Parser.script (16 * (s.tokens.length + 8))).run s
  return f

end ScriptAgent.Script
