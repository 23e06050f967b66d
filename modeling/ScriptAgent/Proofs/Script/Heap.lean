import ScriptAgent.Script.State

/-!
# The tables of a heap

What is read of the tables of a heap after a table is added or changed, and `Heap.Keeps`: a heap
comes out of another one by adding tables and by changing others than some. It is a preorder for
each choice of the tables that are kept (`Heap.Keeps.refl`, `Heap.Keeps.trans`).
-/

namespace ScriptAgent.Script

/-- A value is a table, or none. -/
theorem Value.table_or_not (v : Value) : (∃ a, v = .table a) ∨ ∀ a, v ≠ .table a := by
  by_cases hv : ∃ a, v = .table a
  · exact .inl hv
  · exact .inr fun a ha => hv ⟨a, ha⟩

namespace Heap

variable {h h' h'' : Heap} {a b : Address} {t : Table} {f : Table → Table}

/-- There is nothing in a table that a heap does not have. -/
theorem table_of_le (ha : h.tables.size ≤ a) : h.table a = Table.empty := by
  simp [table, Array.getD_eq_getD_getElem?, ha]

/-- A new table is one more table. -/
@[simp] theorem size_newTable (h : Heap) (t : Table) :
    (h.newTable t).2.tables.size = h.tables.size + 1 := Array.size_push t

/-- A new table is read at its address. -/
@[simp] theorem table_newTable_self (h : Heap) (t : Table) :
    (h.newTable t).2.table h.tables.size = t := by
  simp [newTable, table, Array.getD_eq_getD_getElem?]

/-- A new table leaves the others as they are. -/
theorem table_newTable_of_lt (hb : b < h.tables.size) : (h.newTable t).2.table b = h.table b := by
  simp [newTable, table, Array.getD_eq_getD_getElem?, Array.getElem?_push, Nat.ne_of_lt hb]

/-- A change of a table adds none. -/
@[simp] theorem size_modifyTable (h : Heap) (a : Address) (f : Table → Table) :
    (h.modifyTable a f).tables.size = h.tables.size := Array.size_modify

/-- A changed table is read as it is changed. -/
theorem table_modifyTable_self (ha : a < h.tables.size) :
    (h.modifyTable a f).table a = f (h.table a) := by
  simp [modifyTable, table, Array.getD_eq_getD_getElem?, Array.getElem_modify_self, ha]

/-- A change of a table that a heap does not have changes nothing there. -/
theorem table_modifyTable_of_le (ha : h.tables.size ≤ a) :
    (h.modifyTable a f).table a = h.table a := by
  rw [table_of_le ha, table_of_le (by rwa [size_modifyTable])]

/-- A change of a table leaves the others as they are. -/
theorem table_modifyTable_ne (hab : a ≠ b) : (h.modifyTable a f).table b = h.table b := by
  simp [modifyTable, table, Array.getD_eq_getD_getElem?, Array.getElem?_modify, hab]

/-- A new table without entries cannot be told from one that is not there. -/
theorem table_newTable_empty (h : Heap) (b : Address) :
    (h.newTable Table.empty).2.table b = h.table b := by
  by_cases hb : b < h.tables.size
  · exact table_newTable_of_lt hb
  · by_cases hs : b = h.tables.size
    · rw [hs, table_newTable_self]
      simp [table, Array.getD_eq_getD_getElem?]
    · simp [newTable, table, Array.getD_eq_getD_getElem?, Array.getElem?_push, hs, hb]

/-- A value that is stored in a table leaves all metatables as they are. -/
theorem metatable_modifyTable_set (h : Heap) (a : Address) (k : Key) (v : Value) (b : Address) :
    ((h.modifyTable a (·.set k v)).table b).metatable = (h.table b).metatable := by
  by_cases hab : a = b
  · subst hab
    by_cases ha : a < h.tables.size
    · rw [table_modifyTable_self ha, Table.metatable_set]
    · rw [table_modifyTable_of_le (Nat.not_lt.1 ha)]
  · rw [table_modifyTable_ne hab]

/-- What is read at a key after a value has been stored in a table. -/
theorem get_modifyTable_set (h : Heap) (a : Address) (k : Key) (v : Value) (b : Address)
    (j : Key) :
    ((h.modifyTable a (·.set k v)).table b).get j =
      if a < h.tables.size ∧ a = b ∧ k = j then v else (h.table b).get j := by
  by_cases hab : a = b
  · subst hab
    by_cases ha : a < h.tables.size
    · rw [table_modifyTable_self ha, Table.get_set]
      simp only [ha, true_and]
    · rw [if_neg fun hcond => ha hcond.1, table_modifyTable_of_le (Nat.not_lt.1 ha)]
  · rw [table_modifyTable_ne hab, if_neg fun hcond => hab hcond.2.1]

/-- A change that leaves every table as it is changes nothing. -/
theorem modifyTable_id (h : Heap) (a : Address) : h.modifyTable a (fun t => t) = h := by
  obtain ⟨tables, closures, cells, threads, searches, sm, seed⟩ := h
  simp only [modifyTable, Heap.mk.injEq, and_true, ← Array.toList_inj, Array.toList_modify]
  exact List.modify_id a tables.toList

/-- Two changes of one table are one change. -/
theorem modifyTable_modifyTable (h : Heap) (a : Address) (f g : Table → Table) :
    (h.modifyTable a f).modifyTable a g = h.modifyTable a fun t => g (f t) := by
  obtain ⟨tables, closures, cells, threads, searches, sm, seed⟩ := h
  simp only [modifyTable, Heap.mk.injEq, and_true, ← Array.toList_inj, Array.toList_modify]
  exact List.modify_modify_eq f g a tables.toList

/-- Changes of different tables commute. -/
theorem modifyTable_comm (h : Heap) (hab : a ≠ b) (f g : Table → Table) :
    (h.modifyTable a f).modifyTable b g = (h.modifyTable b g).modifyTable a f := by
  obtain ⟨tables, closures, cells, threads, searches, sm, seed⟩ := h
  simp only [modifyTable, Heap.mk.injEq, and_true, ← Array.toList_inj, Array.toList_modify]
  exact List.modify_modify_ne f g tables.toList hab

/-- A table can be changed before a new one is added, or after. -/
theorem newTable_modifyTable (ha : a < h.tables.size) (t : Table) (f : Table → Table) :
    ((h.modifyTable a f).newTable t).2 = (h.newTable t).2.modifyTable a f := by
  obtain ⟨tables, closures, cells, threads, searches, sm, seed⟩ := h
  simp only [modifyTable, newTable, Heap.mk.injEq, and_true]
  refine Array.ext (by simp) fun i hi hj => ?_
  simp only [Array.getElem_modify, Array.getElem_push, Array.size_modify]
  by_cases hlt : i < tables.size
  · simp [hlt]
  · have hne : a ≠ i := fun he => hlt (he ▸ ha)
    simp [hlt, hne]

/-- Heaps that agree on everything but tables, and table by table, are the same. -/
theorem ext_tables (hrest : { h with tables := h'.tables } = h')
    (hsize : h.tables.size = h'.tables.size) (htable : ∀ a, h.table a = h'.table a) : h = h' := by
  have htables : h.tables = h'.tables := Array.ext hsize fun i hi hj => by
    have hi' := htable i
    rwa [table, table, Array.getD_eq_getD_getElem?, Array.getD_eq_getD_getElem?,
      Array.getElem?_eq_getElem hi, Array.getElem?_eq_getElem hj] at hi'
  rw [← hrest, ← htables]

/-! ## What is kept -/

/-- No table is lost, and those at addresses with `p` are as before. -/
structure Keeps (p : Address → Prop) (h h' : Heap) : Prop where
  size : h.tables.size ≤ h'.tables.size
  table : ∀ a < h.tables.size, p a → h'.table a = h.table a

namespace Keeps

variable {p q : Address → Prop}

/-- A heap keeps its tables. -/
theorem refl (p : Address → Prop) (h : Heap) : Keeps p h h := ⟨Nat.le_refl _, fun _ _ _ => rfl⟩

/-- What is kept twice is kept. -/
theorem trans (h₁ : Keeps p h h') (h₂ : Keeps p h' h'') : Keeps p h h'' :=
  ⟨Nat.le_trans h₁.size h₂.size, fun a ha hp => by
    rw [h₂.table a (Nat.lt_of_lt_of_le ha h₁.size) hp, h₁.table a ha hp]⟩

/-- Fewer tables are kept too. -/
theorem mono (hqp : ∀ a, q a → p a) (h₁ : Keeps p h h') : Keeps q h h' :=
  ⟨h₁.size, fun a ha hq => h₁.table a ha (hqp a hq)⟩

/-- A new table keeps all others. -/
theorem newTable (p : Address → Prop) (h : Heap) (t : Table) : Keeps p h (h.newTable t).2 :=
  ⟨by rw [size_newTable]; exact Nat.le_succ _, fun _ ha _ => table_newTable_of_lt ha⟩

/-- A change of a table keeps the others. -/
theorem modifyTable (h : Heap) (a : Address) (f : Table → Table) :
    Keeps (· ≠ a) h (h.modifyTable a f) :=
  ⟨Nat.le_of_eq (size_modifyTable h a f).symm, fun _ _ hb => table_modifyTable_ne (Ne.symm hb)⟩

end Keeps

end Heap

end ScriptAgent.Script
