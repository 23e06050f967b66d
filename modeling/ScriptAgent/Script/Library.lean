import ScriptAgent.Script.Library.Base
import ScriptAgent.Script.Library.Control
import ScriptAgent.Script.Library.Text
import ScriptAgent.Script.Library.Format
import ScriptAgent.Script.Library.Sequence
import ScriptAgent.Script.Library.Arithmetic
import ScriptAgent.Script.Library.Unicode
import ScriptAgent.Script.Library.Coroutine
import ScriptAgent.Script.Library.Clock

/-!
# The library

Every function of the library as a program: `Native.run` gives the program of a call, and
`Native.all` lists the functions that scripts find under a name.
-/

namespace ScriptAgent.Script

/-- The program of a call of a library function. -/
def Native.run (f : Native) (args : List Value) (site : Site) : Program (List Value) :=
  let inv : Invocation := ⟨f, args, site⟩
  match f with
  | .assert => Library.assert inv
  | .collectgarbage => Library.collectgarbage inv
  | .error => Library.error inv
  | .getmetatable => Library.getmetatable inv
  | .ipairs => Library.ipairs inv
  | .load => Library.load inv
  | .next => Library.next inv
  | .pairs => Library.pairs inv
  | .pcall => Library.pcall inv
  | .rawequal => Library.rawequal inv
  | .rawget => Library.rawget inv
  | .rawlen => Library.rawlen inv
  | .rawset => Library.rawset inv
  | .select => Library.select inv
  | .setmetatable => Library.setmetatable inv
  | .tonumber => Library.tonumber inv
  | .tostring => Library.tostring inv
  | .type => Library.type inv
  | .warn => Library.warn inv
  | .xpcall => Library.xpcall inv
  | .print => Library.print inv
  | .thought => Library.thought inv
  | .observation => Library.observation inv
  | .finalAnswer => Library.finalAnswer inv
  | .stringByte => Library.stringByte inv
  | .stringChar => Library.stringChar inv
  | .stringFind => Library.stringFind inv
  | .stringFormat => Library.stringFormat inv
  | .stringGmatch => Library.stringGmatch inv
  | .stringGsub => Library.stringGsub inv
  | .stringLen => Library.stringLen inv
  | .stringLower => Library.stringLower inv
  | .stringMatch => Library.stringMatch inv
  | .stringRep => Library.stringRep inv
  | .stringReverse => Library.stringReverse inv
  | .stringSub => Library.stringSub inv
  | .stringUpper => Library.stringUpper inv
  | .tableConcat => Library.tableConcat inv
  | .tableCreate => Library.tableCreate inv
  | .tableInsert => Library.tableInsert inv
  | .tableMove => Library.tableMove inv
  | .tablePack => Library.tablePack inv
  | .tableRemove => Library.tableRemove inv
  | .tableSort => Library.tableSort inv
  | .tableUnpack => Library.tableUnpack inv
  | .mathAbs => Library.mathAbs inv
  | .mathAcos => Library.analytic Float.acos inv
  | .mathAsin => Library.analytic Float.asin inv
  | .mathAtan => Library.mathAtan inv
  | .mathCeil => Library.mathCeil inv
  | .mathCos => Library.analytic Float.cos inv
  | .mathDeg => Library.analytic (· * (180.0 / Library.pi)) inv
  | .mathExp => Library.analytic Float.exp inv
  | .mathFloor => Library.mathFloor inv
  | .mathFmod => Library.mathFmod inv
  | .mathFrexp => Library.mathFrexp inv
  | .mathLdexp => Library.mathLdexp inv
  | .mathLog => Library.mathLog inv
  | .mathMax => Library.mathMax inv
  | .mathMin => Library.mathMin inv
  | .mathModf => Library.mathModf inv
  | .mathRad => Library.analytic (· * (Library.pi / 180.0)) inv
  | .mathRandom => Library.mathRandom inv
  | .mathRandomseed => Library.mathRandomseed inv
  | .mathSin => Library.analytic Float.sin inv
  | .mathSqrt => Library.analytic Float.sqrt inv
  | .mathTan => Library.analytic Float.tan inv
  | .mathTointeger => Library.mathTointeger inv
  | .mathType => Library.mathType inv
  | .mathUlt => Library.mathUlt inv
  | .utf8Char => Library.utf8Char inv
  | .utf8Codepoint => Library.utf8Codepoint inv
  | .utf8Codes => Library.utf8Codes inv
  | .utf8Len => Library.utf8Len inv
  | .utf8Offset => Library.utf8Offset inv
  | .coroutineClose => Library.coroutineClose inv
  | .coroutineCreate => Library.coroutineCreate inv
  | .coroutineIsyieldable => Library.coroutineIsyieldable inv
  | .coroutineResume => Library.coroutineResume inv
  | .coroutineRunning => Library.coroutineRunning inv
  | .coroutineStatus => Library.coroutineStatus inv
  | .coroutineWrap => Library.coroutineWrap inv
  | .coroutineYield => Library.coroutineYield inv
  | .osClock => Library.osClock inv
  | .osDate => Library.osDate inv
  | .osDifftime => Library.osDifftime inv
  | .osTime => Library.osTime inv
  | .debugTraceback => Library.debugTraceback inv
  | .ipairsStep => Library.ipairsStep inv
  | .codesStep => Library.codesStep false inv
  | .codesStepLax => Library.codesStep true inv
  | .textAdd => Library.textArithmetic .add inv
  | .textSub => Library.textArithmetic .sub inv
  | .textMul => Library.textArithmetic .mul inv
  | .textMod => Library.textArithmetic .mod inv
  | .textPow => Library.textArithmetic .pow inv
  | .textDiv => Library.textArithmetic .div inv
  | .textIdiv => Library.textArithmetic .idiv inv
  | .textUnm => Library.textUnm inv

/-- Whether a function of the library appends what its calls give to the print buffer. -/
def Native.prints : Native → Bool
  | .print | .thought | .observation => true
  | _ => false

/-- All functions of the library that are found in the table of globals. -/
def Native.all : List Native := [
  .assert, .collectgarbage, .error, .getmetatable, .ipairs, .load, .next, .pairs, .pcall,
  .rawequal, .rawget, .rawlen, .rawset, .select, .setmetatable, .tonumber, .tostring, .type,
  .warn, .xpcall, .print, .thought, .observation, .finalAnswer, .stringByte, .stringChar,
  .stringFind, .stringFormat, .stringGmatch, .stringGsub, .stringLen, .stringLower, .stringMatch,
  .stringRep, .stringReverse, .stringSub, .stringUpper, .tableConcat, .tableCreate, .tableInsert,
  .tableMove, .tablePack, .tableRemove, .tableSort, .tableUnpack, .mathAbs, .mathAcos, .mathAsin,
  .mathAtan, .mathCeil, .mathCos, .mathDeg, .mathExp, .mathFloor, .mathFmod, .mathFrexp,
  .mathLdexp, .mathLog, .mathMax, .mathMin, .mathModf, .mathRad, .mathRandom, .mathRandomseed,
  .mathSin, .mathSqrt, .mathTan, .mathTointeger, .mathType, .mathUlt, .utf8Char, .utf8Codepoint,
  .utf8Codes, .utf8Len, .utf8Offset, .coroutineClose, .coroutineCreate, .coroutineIsyieldable,
  .coroutineResume, .coroutineRunning, .coroutineStatus, .coroutineWrap, .coroutineYield,
  .osClock, .osDate, .osDifftime, .osTime, .debugTraceback]

end ScriptAgent.Script
