import ScriptAgent.Proofs.Script.Heap

/-!
# Paths of fields

`Heap.follow` reads a path of fields from a value on, without metamethods. What it reads depends on
the tables only, so a new empty table changes nothing (`Heap.follow_newTable_empty`).
-/

namespace ScriptAgent.Script.Heap

variable {h : Heap} {a b : Address} {v x : Value} {k : Bytes} {p q : List Bytes}

/-- The value at a field of a table; what is no table has nothing. -/
def field (h : Heap) (v : Value) (k : Bytes) : Value :=
  match v with
  | .table a => (h.table a).getStr k
  | _ => .nil

/-- The value at a path of fields. -/
def follow (h : Heap) (v : Value) : List Bytes → Value
  | [] => v
  | k :: rest => h.follow (h.field v k) rest

@[simp] theorem field_table (h : Heap) (a : Address) (k : Bytes) :
    h.field (.table a) k = (h.table a).getStr k := rfl

@[simp] theorem follow_nil (h : Heap) (v : Value) : h.follow v [] = v := rfl

@[simp] theorem follow_cons (h : Heap) (v : Value) (k : Bytes) (p : List Bytes) :
    h.follow v (k :: p) = h.follow (h.field v k) p := rfl

/-- What is no table has no fields. -/
theorem field_of_not_table (hv : ∀ a, v ≠ .table a) (k : Bytes) : h.field v k = .nil := by
  cases v with
  | table a => exact absurd rfl (hv a)
  | _ => rfl

/-- A path after another one is read from where that one leads. -/
theorem follow_append (h : Heap) (v : Value) (p q : List Bytes) :
    h.follow v (p ++ q) = h.follow (h.follow v p) q := by
  induction p generalizing v with
  | nil => rfl
  | cons k p ih => exact ih _

/-- The last field of a path is read from where the rest leads. -/
theorem follow_concat (h : Heap) (v : Value) (p : List Bytes) (k : Bytes) :
    h.follow v (p ++ [k]) = h.field (h.follow v p) k := follow_append h v p [k]

/-- No path but the empty one leads anywhere from what is no table. -/
theorem follow_of_not_table (hv : ∀ a, v ≠ .table a) (hp : p ≠ []) : h.follow v p = .nil := by
  cases p with
  | nil => exact absurd rfl hp
  | cons k p =>
    rw [follow_cons, field_of_not_table hv]
    clear hp
    induction p with
    | nil => rfl
    | cons j p ih => exact ih

/-- Heaps that have the same fields in all tables have the same values at all paths. -/
theorem follow_congr {h h' : Heap} (hf : ∀ a k, (h.table a).getStr k = (h'.table a).getStr k)
    (v : Value) (p : List Bytes) : h.follow v p = h'.follow v p := by
  induction p generalizing v with
  | nil => rfl
  | cons k p ih =>
    have hk : h.field v k = h'.field v k := by
      cases v with
      | table a => exact hf a k
      | _ => rfl
    rw [follow_cons, follow_cons, hk, ih]

/-- What is read at a field after a value has been stored in a table. -/
theorem getStr_modifyTable_set (h : Heap) (a : Address) (k : Bytes) (x : Value) (b : Address)
    (j : Bytes) :
    ((h.modifyTable a (·.set (.str k) x)).table b).getStr j =
      if a < h.tables.size ∧ a = b ∧ k = j then x else (h.table b).getStr j := by
  simp only [Table.getStr, get_modifyTable_set, Key.str.injEq]

/-- A new empty table changes no value at a path. -/
theorem follow_newTable_empty (h : Heap) (v : Value) (p : List Bytes) :
    (h.newTable Table.empty).2.follow v p = h.follow v p :=
  follow_congr (fun a k => by rw [table_newTable_empty]) v p

end ScriptAgent.Script.Heap
