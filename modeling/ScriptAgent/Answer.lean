import ScriptAgent.Json.Writer

/-!
# Answers as texts

The text in which a final answer is handed to the caller: a text as it is, a number without a
needless fraction, a list or a dictionary as JSON.
-/

namespace ScriptAgent.Datum

/-- The text of a final answer. Only what is inside a list or a dictionary can be refused. -/
def answer : Datum → Except Json.Refusal String
  | .none => .ok "nil"
  | .str s => .ok s
  | .bool b => .ok (if b then "true" else "false")
  | .float x =>
    match Decimal.toInt? x with
    | some i => .ok (intText i)
    | Option.none => .ok (floatText x)
  | .list items => Json.write .spaced (.list items)
  | .dict entries => Json.write .spaced (.dict entries)
  | d => .ok d.display

end ScriptAgent.Datum
