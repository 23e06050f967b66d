import ScriptAgent.Script.Machine.Call

/-!
# Questions about the heap

Most questions of a program are about objects of the heap alone. `Heap.reply` answers them: no code
runs before the answer, so the answer and the heap after it depend on the heap and on nothing else
of the state. The machine answers them this way, and so does the host when it performs a program
of its own.
-/

namespace ScriptAgent.Script

/-- Whether a question is about objects of the heap alone: no code runs before its answer. -/
def Query.isAboutHeap : Query → Bool
  | .rawGet .. | .rawSet .. | .next .. | .border _ | .newTable | .metafield .. | .metatable _
  | .setMetatable .. | .newMatcher _ | .matcher _ | .setMatcher .. | .random | .seed ..
  | .newThread _ | .threadStatus _ => true
  | .call .. | .protect .. | .resume .. | .yield _ | .closeThread _ | .running | .load ..
  | .position _ => false

/-- The answer to a question about the heap, and the heap after it. -/
def Heap.reply (h : Heap) (q : Query) : List Value × Heap :=
  match q with
  | .rawGet t key =>
    let v := (h.table t).getValue key
    ([v], h)
  | .rawSet t key v => ([], h.modifyTable t (·.set key v))
  | .next t key =>
    match (h.table t).next? key with
    | some (key, v) => ([key.value, v], h)
    | none => ([], h)
  | .border t =>
    let n := (h.table t).border
    ([.int n], h)
  | .newTable =>
    let (a, h) := h.newTable Table.empty
    ([.table a], h)
  | .metafield v name =>
    let f := h.metafield v name
    ([f], h)
  | .metatable v =>
    let m := ((h.metatable v).map Value.table).getD .nil
    ([m], h)
  | .setMetatable t m => ([], h.modifyTable t (·.withMetatable m))
  | .newMatcher search =>
    let (a, h) := h.newSearch search
    ([.matcher a], h)
  | .matcher a =>
    let search := h.search a
    ([.str search.source, .str search.pattern, .int search.position,
      (search.lastEnd.map fun e => Value.int e).getD .nil], h)
  | .setMatcher a search => ([], h.setSearch a search)
  | .random =>
    let (r, h) := h.random
    ([.num (.int r.toInt64)], h)
  | .seed high low => ([], { h with seed := .ofSeed high low })
  | .newThread f =>
    let (a, h) := h.newThread ⟨.suspended, some f, [], none⟩
    ([.thread a], h)
  | .threadStatus t =>
    let status := (h.thread t).status
    ([.text status.text], h)
  | .call .. | .protect .. | .resume .. | .yield _ | .closeThread _ | .running | .load ..
  | .position _ => ([], h)

end ScriptAgent.Script
