import ScriptAgent.Script.Number

/-!
# Syntax of scripts

The trees that the parser builds and the machine runs. Names are resolved: a variable is the
distance of its declaration in the list of the variables in scope (`Expr.var`), and a global
name is an index into the variable `_ENV`, which every script has as its outermost variable.

Trees keep what messages need: the line of each operation that can fail, the names of
variables, and whether a variable belongs to an enclosing function. `Expr.describe` says how a
message calls the value of an expression.
-/

namespace ScriptAgent.Script

/-- The name of the variable that holds the table of globals. -/
def envName : Bytes := Bytes.ofAscii "_ENV"

/-- Operators with one operand. -/
inductive UnaryOp where
  | minus | not | length | bitNot
deriving DecidableEq, Inhabited

/-- Operators with two operands, other than the two that decide by their left operand whether
to look at their right one. -/
inductive BinaryOp where
  | add | sub | mul | mod | pow | div | idiv | band | bor | bxor | shl | shr
  | concat | eq | ne | lt | le | gt | ge
deriving DecidableEq, Inhabited

/-- Constants. -/
inductive Literal where
  | nil
  | bool (b : Bool)
  | num (n : Num)
  | str (s : Bytes)
deriving DecidableEq, Inhabited

mutual

/-- Expressions. The line of an operation is the one that its errors are reported at. -/
inductive Expr where
  | literal (v : Literal)
  /-- All extra arguments of the function. -/
  | vararg
  | var (distance : Nat) (name : Bytes) (upvalue : Bool)
  | index (object key : Expr) (line : Nat)
  | call (function : Expr) (args : List Expr) (line : Nat)
  | method (object : Expr) (name : Bytes) (args : List Expr) (nameLine line : Nat)
  | function (body : Function)
  | binary (op : BinaryOp) (left right : Expr) (line : Nat)
  | and (left right : Expr)
  | or (left right : Expr)
  | unary (op : UnaryOp) (operand : Expr) (line : Nat)
  /-- Parentheses: exactly one value. -/
  | single (e : Expr)
  | table (fields : List Field) (line : Nat)

/-- One field of a table constructor. -/
inductive Field where
  | positional (e : Expr)
  | keyed (key value : Expr) (line : Nat)

/-- What an assignment writes to. -/
inductive Target where
  | var (distance : Nat) (name : Bytes)
  | index (object key : Expr)

/-- Statements. -/
inductive Stmt where
  /-- Declares `count` variables; `close` is the place and name of the one to be closed. -/
  | declare (count : Nat) (values : List Expr) (close : Option (Nat × Bytes)) (line : Nat)
  | declareFunction (body : Function)
  | assign (targets : List Target) (values : List Expr) (line : Nat)
  | call (e : Expr)
  | block (body : List Stmt)
  | while (condition : Expr) (body : List Stmt)
  /-- The last statement of the body is `until`. -/
  | repeat (body : List Stmt)
  | until (condition : Expr)
  | if (condition : Expr) (yes no : List Stmt)
  | forNumeric (start limit step : Expr) (body : List Stmt) (line : Nat)
  | forIn (count : Nat) (values : List Expr) (body : List Stmt) (line : Nat)
  /-- A return; `tail` if its single call replaces the running function. -/
  | return (values : List Expr) (tail : Bool)
  | break
  | goto (label : Bytes)
  /-- Ends the run with an error. -/
  | fault (message : Bytes) (line : Nat)
  /-- A label; `depth` variables are in scope after a jump to it. -/
  | label (name : Bytes) (depth : Nat)

/-- The body of a function: `params` named parameters, whether it takes extra arguments (and
under which name), its statements, and the display name of the text that it comes from. -/
inductive Function where
  | mk (params : Nat) (vararg : Bool) (varargTable : Bool) (body : List Stmt) (chunk : Bytes)

end

instance : Inhabited Expr := ⟨.vararg⟩
instance : Inhabited Stmt := ⟨.break⟩
instance : Inhabited Function := ⟨.mk 0 false false [] []⟩

namespace Function

/-- The number of named parameters. -/
def params : Function → Nat
  | .mk n _ _ _ _ => n

/-- Whether extra arguments are kept. -/
def vararg : Function → Bool
  | .mk _ v _ _ _ => v

/-- Whether the extra arguments are also held by a table. -/
def varargTable : Function → Bool
  | .mk _ _ t _ _ => t

/-- The statements. -/
def body : Function → List Stmt
  | .mk _ _ _ b _ => b

/-- The display name of the text that the function comes from. -/
def chunk : Function → Bytes
  | .mk _ _ _ _ c => c

end Function

/-! ## How messages call a value -/

/-- The kinds of names that messages give to values. -/
inductive NameKind where
  | «global» | «local» | upvalue | field | method | constant | metamethod | iterator
deriving DecidableEq, Inhabited

namespace NameKind

/-- The word for a kind of name. -/
def text : NameKind → String
  | .global => "global"
  | .local => "local"
  | .upvalue => "upvalue"
  | .field => "field"
  | .method => "method"
  | .constant => "constant"
  | .metamethod => "metamethod"
  | .iterator => "for iterator"

end NameKind

/-- How a message names a value: by its kind and its name. -/
abbrev Described := Option (NameKind × Bytes)

/-- Whether the truth of an expression is known before it is run. -/
def Expr.constantTruth? : Expr → Option Bool
  | .literal .nil | .literal (.bool false) => some false
  | .literal _ => some true
  | _ => none

/-- How a key is named in a message. -/
def Expr.describeKey : Expr → Bytes
  | .literal (.str s) => s
  | .literal (.num (.int i)) =>
    if 0 ≤ i && i ≤ 255 then Bytes.ofAscii "integer index" else Bytes.ofAscii "?"
  | _ => Bytes.ofAscii "?"

/-- How a message names the value of an expression. A value that may come from either of two
operands has no name. -/
def Expr.describe : Expr → Described
  | .var _ name true => some (.upvalue, name)
  | .var _ name false => some (.local, name)
  | .literal (.str s) => some (.constant, s)
  | .index (.var _ name _) key _ =>
    some (if name = envName then .global else .field, key.describeKey)
  | .index _ key _ => some (.field, key.describeKey)
  | .method _ name _ _ _ => some (.method, name)
  | .single e => e.describe
  | .and l r => if l.constantTruth? = some true then r.describe else none
  | .or l r => if l.constantTruth? = some false then r.describe else none
  | _ => none

/-- The part of a message that names a value. -/
def Described.text : Described → Bytes
  | none => []
  | some (kind, name) => Bytes.ofAscii s!" ({kind.text} '" ++ name ++ Bytes.ofAscii "')"

end ScriptAgent.Script
