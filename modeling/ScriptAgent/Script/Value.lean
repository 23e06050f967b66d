import Std.Data.ExtTreeMap
import ScriptAgent.Script.Tree

/-!
# Values of scripts

A script value is immediate (nil, booleans, numbers, strings) or names an object of the heap by
its address. Functions of the library are named by `Native`, tools of the host by the number of
their wrapper.

`Key` holds the values that a table can be indexed by, up to the identification of a float
that is an integer with that integer: `Value.key?` is `none` for nil and for what is not a
number. Keys are totally ordered by `Key.order`, the positive integers first; tables are
enumerated in this order, so a table's contents alone decide how it is enumerated.
-/

namespace ScriptAgent.Script

/-- The place of an object in the heap. -/
abbrev Address := Nat

/-! ## The functions of the library -/

/-- The library's functions. -/
inductive Native where
  | assert | collectgarbage | error | getmetatable | ipairs | load | next | pairs | pcall
  | rawequal | rawget | rawlen | rawset | select | setmetatable | tonumber | tostring | type
  | warn | xpcall
  | print | thought | observation | finalAnswer
  | stringByte | stringChar | stringFind | stringFormat | stringGmatch | stringGsub
  | stringLen | stringLower | stringMatch | stringRep | stringReverse | stringSub | stringUpper
  | tableConcat | tableCreate | tableInsert | tableMove | tablePack | tableRemove | tableSort
  | tableUnpack
  | mathAbs | mathAcos | mathAsin | mathAtan | mathCeil | mathCos | mathDeg | mathExp
  | mathFloor | mathFmod | mathFrexp | mathLdexp | mathLog | mathMax | mathMin | mathModf
  | mathRad | mathRandom | mathRandomseed | mathSin | mathSqrt | mathTan | mathTointeger
  | mathType | mathUlt
  | utf8Char | utf8Codepoint | utf8Codes | utf8Len | utf8Offset
  | coroutineClose | coroutineCreate | coroutineIsyieldable | coroutineResume
  | coroutineRunning | coroutineStatus | coroutineWrap | coroutineYield
  | osClock | osDate | osDifftime | osTime | debugTraceback
  /-- The step of `ipairs` and of `utf8.codes`. -/
  | ipairsStep | codesStep | codesStepLax
  /-- The arithmetic of strings that are numerals. -/
  | textAdd | textSub | textMul | textMod | textPow | textDiv | textIdiv | textUnm
deriving DecidableEq, Inhabited

namespace Native

/-- The path at which a function is found in the table of globals, if it has one. -/
def path? : Native → Option String
  | .assert => some "assert"
  | .collectgarbage => some "collectgarbage"
  | .error => some "error"
  | .getmetatable => some "getmetatable"
  | .ipairs => some "ipairs"
  | .load => some "load"
  | .next => some "next"
  | .pairs => some "pairs"
  | .pcall => some "pcall"
  | .rawequal => some "rawequal"
  | .rawget => some "rawget"
  | .rawlen => some "rawlen"
  | .rawset => some "rawset"
  | .select => some "select"
  | .setmetatable => some "setmetatable"
  | .tonumber => some "tonumber"
  | .tostring => some "tostring"
  | .type => some "type"
  | .warn => some "warn"
  | .xpcall => some "xpcall"
  | .print => some "print"
  | .thought => some "thought"
  | .observation => some "observation"
  | .finalAnswer => some "final_answer"
  | .stringByte => some "string.byte"
  | .stringChar => some "string.char"
  | .stringFind => some "string.find"
  | .stringFormat => some "string.format"
  | .stringGmatch => some "string.gmatch"
  | .stringGsub => some "string.gsub"
  | .stringLen => some "string.len"
  | .stringLower => some "string.lower"
  | .stringMatch => some "string.match"
  | .stringRep => some "string.rep"
  | .stringReverse => some "string.reverse"
  | .stringSub => some "string.sub"
  | .stringUpper => some "string.upper"
  | .tableConcat => some "table.concat"
  | .tableCreate => some "table.create"
  | .tableInsert => some "table.insert"
  | .tableMove => some "table.move"
  | .tablePack => some "table.pack"
  | .tableRemove => some "table.remove"
  | .tableSort => some "table.sort"
  | .tableUnpack => some "table.unpack"
  | .mathAbs => some "math.abs"
  | .mathAcos => some "math.acos"
  | .mathAsin => some "math.asin"
  | .mathAtan => some "math.atan"
  | .mathCeil => some "math.ceil"
  | .mathCos => some "math.cos"
  | .mathDeg => some "math.deg"
  | .mathExp => some "math.exp"
  | .mathFloor => some "math.floor"
  | .mathFmod => some "math.fmod"
  | .mathFrexp => some "math.frexp"
  | .mathLdexp => some "math.ldexp"
  | .mathLog => some "math.log"
  | .mathMax => some "math.max"
  | .mathMin => some "math.min"
  | .mathModf => some "math.modf"
  | .mathRad => some "math.rad"
  | .mathRandom => some "math.random"
  | .mathRandomseed => some "math.randomseed"
  | .mathSin => some "math.sin"
  | .mathSqrt => some "math.sqrt"
  | .mathTan => some "math.tan"
  | .mathTointeger => some "math.tointeger"
  | .mathType => some "math.type"
  | .mathUlt => some "math.ult"
  | .utf8Char => some "utf8.char"
  | .utf8Codepoint => some "utf8.codepoint"
  | .utf8Codes => some "utf8.codes"
  | .utf8Len => some "utf8.len"
  | .utf8Offset => some "utf8.offset"
  | .coroutineClose => some "coroutine.close"
  | .coroutineCreate => some "coroutine.create"
  | .coroutineIsyieldable => some "coroutine.isyieldable"
  | .coroutineResume => some "coroutine.resume"
  | .coroutineRunning => some "coroutine.running"
  | .coroutineStatus => some "coroutine.status"
  | .coroutineWrap => some "coroutine.wrap"
  | .coroutineYield => some "coroutine.yield"
  | .osClock => some "os.clock"
  | .osDate => some "os.date"
  | .osDifftime => some "os.difftime"
  | .osTime => some "os.time"
  | .debugTraceback => some "debug.traceback"
  | .ipairsStep | .codesStep | .codesStepLax | .textAdd | .textSub | .textMul | .textMod
  | .textPow | .textDiv | .textIdiv | .textUnm => none

end Native

/-! ## Values -/

/-- A value of the script language. -/
inductive Value where
  | nil
  | bool (b : Bool)
  | num (n : Num)
  | str (s : Bytes)
  | table (a : Address)
  | function (a : Address)
  | native (f : Native)
  /-- The function that resumes a coroutine. -/
  | wrapped (thread : Address)
  /-- The function that gives the next match of a search. -/
  | matcher (a : Address)
  | thread (a : Address)
  /-- A tool of the host, by the number of its wrapper. -/
  | tool (wrapper : Nat)
  /-- A text of the host that is no string of scripts. -/
  | foreign (text : String)
  /-- A failure of the host that a script has caught, by its message. -/
  | failure (message : String)
deriving DecidableEq, Inhabited

namespace Value

/-- Everything but nil and false counts as true. -/
def truthy : Value → Bool
  | .nil | .bool false => false
  | _ => true

/-- The name of a value's type. -/
def typeName : Value → String
  | .nil => "nil"
  | .bool _ => "boolean"
  | .num _ => "number"
  | .str _ => "string"
  | .table _ => "table"
  | .function _ | .native _ | .wrapped _ | .matcher _ => "function"
  | .thread _ => "thread"
  | .tool _ | .foreign _ | .failure _ => "userdata"

/-- An integer as a value. -/
def int (i : Int) : Value := .num (.int (Int64.ofInt i))

/-- An ASCII text as a value. -/
def text (s : String) : Value := .str (Bytes.ofAscii s)

/-- Whether a value is a number or a string. -/
def isTextual : Value → Bool
  | .num _ | .str _ => true
  | _ => false

/-- Equality without metamethods: numbers are compared by their exact values. -/
def rawEq : Value → Value → Bool
  | .num m, .num n => m.eq n
  | v, w => v == w

/-- The number that a value is or that its text denotes. -/
def toNum? : Value → Option Num
  | .num n => some n
  | .str s => Num.ofBytes? s
  | _ => none

/-- The text of a string or a number. -/
def toBytes? : Value → Option Bytes
  | .str s => some s
  | .num n => some n.toBytes
  | _ => none

end Value

/-! ## Keys -/

/-- The values that index a table. A float key is no integer; it is kept by its bits. -/
inductive Key where
  | int (i : Int64)
  | float (bits : UInt64)
  | bool (b : Bool)
  | str (s : Bytes)
  | table (a : Address)
  | function (a : Address)
  | native (f : Native)
  | wrapped (thread : Address)
  | matcher (a : Address)
  | thread (a : Address)
  | tool (wrapper : Nat)
  | foreign (text : String)
  | failure (message : String)
deriving DecidableEq, Inhabited

namespace Key

/-- The kind of a key: the positive integers come first. -/
def kind : Key → Nat
  | .int i => if 0 < i then 0 else 1
  | .float _ => 2
  | .bool _ => 3
  | .str _ => 4
  | .table _ => 5
  | .function _ => 6
  | .native _ => 7
  | .wrapped _ => 8
  | .matcher _ => 9
  | .thread _ => 10
  | .tool _ => 11
  | .foreign _ => 12
  | .failure _ => 13

/-- The number by which keys of one kind are ordered. -/
def number : Key → Int
  | .int i => i.toInt
  | .float b => b.toNat
  | .bool b => if b then 1 else 0
  | .native f => f.ctorIdx
  | .table n | .function n | .wrapped n | .matcher n | .thread n | .tool n => n
  | .str _ | .foreign _ | .failure _ => 0

/-- The bytes by which string keys are ordered. -/
def bytes : Key → Bytes
  | .str s => s
  | _ => []

/-- The text by which host texts are ordered. -/
def hostText : Key → String
  | .foreign t | .failure t => t
  | _ => ""

/-- The order of keys: by kind, then by number, then by contents. -/
def order : Key → Key → Ordering :=
  compareLex (compareOn kind) (compareLex (compareOn number)
    (compareLex (compareOn bytes) (compareOn hostText)))

instance : Std.TransCmp order :=
  inferInstanceAs (Std.TransCmp (compareLex (compareOn kind) (compareLex (compareOn number)
    (compareLex (compareOn bytes) (compareOn hostText)))))

/-- The key with these four parts. -/
def ofParts (kind : Nat) (n : Int) (bs : Bytes) (t : String) : Key :=
  match kind with
  | 0 | 1 => .int (Int64.ofInt n)
  | 2 => .float (UInt64.ofNat n.toNat)
  | 3 => .bool (n == 1)
  | 4 => .str bs
  | 5 => .table n.toNat
  | 6 => .function n.toNat
  | 7 => .native (Native.ofNat n.toNat)
  | 8 => .wrapped n.toNat
  | 9 => .matcher n.toNat
  | 10 => .thread n.toNat
  | 11 => .tool n.toNat
  | 12 => .foreign t
  | _ => .failure t

/-- A key is determined by the parts that it is ordered by. -/
theorem ofParts_parts (k : Key) : ofParts k.kind k.number k.bytes k.hostText = k := by
  cases k with
  | int i => simp only [kind]; split <;> simp [ofParts, number]
  | bool b => cases b <;> simp [ofParts, kind, number]
  | native f => simp [ofParts, kind, number, Native.ofNat_ctorIdx]
  | _ => simp [ofParts, kind, number, bytes, hostText]

instance : Std.LawfulEqCmp order where
  eq_of_compare {k l} h := by
    simp only [order, compareLex, compareOn, Ordering.then_eq_eq,
      Std.LawfulEqOrd.compare_eq_iff_eq] at h
    obtain ⟨hk, hn, hb, ht⟩ := h
    rw [← ofParts_parts k, ← ofParts_parts l, hk, hn, hb, ht]

/-- The value that a key stands for. -/
def value : Key → Value
  | .int i => .num (.int i)
  | .float bits => .num (.float (Float.ofBits bits))
  | .bool b => .bool b
  | .str s => .str s
  | .table a => .table a
  | .function a => .function a
  | .native f => .native f
  | .wrapped a => .wrapped a
  | .matcher a => .matcher a
  | .thread a => .thread a
  | .tool w => .tool w
  | .foreign t => .foreign t
  | .failure t => .failure t

end Key

/-- The key that a value indexes by; nil and what is not a number index nothing. -/
def Value.key? : Value → Option Key
  | .nil => none
  | .bool b => some (.bool b)
  | .num n =>
    match n.normalize with
    | .int i => some (.int i)
    | .float x => if x == x then some (.float x.toBits) else none
  | .str s => some (.str s)
  | .table a => some (.table a)
  | .function a => some (.function a)
  | .native f => some (.native f)
  | .wrapped a => some (.wrapped a)
  | .matcher a => some (.matcher a)
  | .thread a => some (.thread a)
  | .tool w => some (.tool w)
  | .foreign t => some (.foreign t)
  | .failure t => some (.failure t)

end ScriptAgent.Script
