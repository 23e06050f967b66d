import ScriptAgent.Proofs.Script.Heap
import ScriptAgent.Proofs.Script.Table
import ScriptAgent.Script.Globals

/-!
# The initial heap

The globals of a fresh heap hold functions, a text, the tables of the library and themselves
(`getStr_globalsTable`). The tables of the library hold functions, numbers and texts
(`inert_getStr_library`).
-/

namespace ScriptAgent.Script

/-- A table with fields is filled with them. -/
theorem Table.ofFields_eq (fields : List (String × Value)) :
    Table.ofFields fields =
      Table.empty.setAll (fields.map fun f => (.str (Bytes.ofAscii f.1), f.2)) := by
  unfold Table.ofFields
  generalize Table.empty = t
  induction fields generalizing t with
  | nil => rfl
  | cons f rest ih => exact ih _

/-- Entries give a table no metatable. -/
theorem Table.metatable_setAll (t : Table) (es : List (Key × Value)) :
    (t.setAll es).metatable = t.metatable := by
  induction es generalizing t with
  | nil => rfl
  | cons e rest ih => rw [setAll, ih, metatable_set]

/-- What is read from a table with fields is the value of one of them. -/
theorem Table.mem_of_getStr_ofFields {fields : List (String × Value)} {k : Bytes}
    (hk : (Table.ofFields fields).getStr k ≠ .nil) :
    ∃ f ∈ fields, Bytes.ofAscii f.1 = k ∧ (Table.ofFields fields).getStr k = f.2 := by
  rw [Table.ofFields_eq, Table.getStr] at hk ⊢
  obtain ⟨f, hf, he⟩ := List.mem_map.1 (Table.mem_of_get_setAll hk)
  exact ⟨f, hf, Key.str.inj (congrArg Prod.fst he), (congrArg Prod.snd he).symm⟩

/-- A table with fields has no metatable. -/
theorem Table.metatable_ofFields (fields : List (String × Value)) :
    (Table.ofFields fields).metatable = none := by
  rw [ofFields_eq, metatable_setAll]
  rfl

/-- A value is neither a table nor a tool. -/
def Value.Inert (v : Value) : Prop := (∀ a, v ≠ .table a) ∧ ∀ n, v ≠ .tool n

/-- The library functions that are globals are functions. -/
theorem exists_native_of_mem_globalFunctions {f : String × Value} (hf : f ∈ globalFunctions) :
    ∃ g, f.2 = .native g := by
  obtain ⟨g, -, hg⟩ := List.mem_filterMap.1 hf
  split at hg
  · cases hg
    exact ⟨g, rfl⟩
  · cases hg

/-- The library functions of a table are functions. -/
theorem exists_native_of_mem_functionsUnder {n : String} {f : String × Value}
    (hf : f ∈ functionsUnder n) : ∃ g, f.2 = .native g := by
  obtain ⟨g, -, hg⟩ := List.mem_filterMap.1 hf
  split at hg
  · split at hg
    · cases hg
      exact ⟨g, rfl⟩
    · cases hg
  · cases hg

/-- The other values of a table of the library are numbers and texts. -/
theorem inert_of_mem_constantsUnder {n : String} {f : String × Value}
    (hf : f ∈ constantsUnder n) : f.2.Inert := by
  unfold constantsUnder at hf
  split at hf
  · simp only [List.mem_cons, List.not_mem_nil, or_false] at hf
    rcases hf with rfl | rfl | rfl | rfl <;> exact ⟨nofun, nofun⟩
  · obtain rfl := List.mem_singleton.1 hf
    exact ⟨nofun, nofun⟩
  · cases hf

/-- The globals of a fresh heap. -/
theorem getStr_globalsTable (k : Bytes) :
    (globalsTable.getStr k).Inert ∨
    (∃ n ∈ libraryNames, Bytes.ofAscii n = k ∧
      globalsTable.getStr k = .table (libraryAddress n)) ∨
    Bytes.ofAscii "_G" = k ∧ globalsTable.getStr k = .table globalsAddress := by
  by_cases hk : globalsTable.getStr k = .nil
  · exact .inl (hk ▸ ⟨nofun, nofun⟩)
  obtain ⟨f, hf, rfl, hv⟩ := Table.mem_of_getStr_ofFields hk
  rw [globalsTable, hv]
  rcases List.mem_append.1 hf with hf | hf
  · rcases List.mem_append.1 hf with hf | hf
    · obtain ⟨g, hg⟩ := exists_native_of_mem_globalFunctions hf
      exact .inl (hg ▸ ⟨nofun, nofun⟩)
    · obtain ⟨n, hn, rfl⟩ := List.mem_map.1 hf
      exact .inr (.inl ⟨n, hn, rfl, rfl⟩)
  · simp only [List.mem_cons, List.not_mem_nil, or_false] at hf
    rcases hf with rfl | rfl
    · exact .inr (.inr ⟨rfl, rfl⟩)
    · exact .inl ⟨nofun, nofun⟩

namespace Heap

/-- The globals of a fresh heap. -/
theorem table_initial_globals : Heap.initial.table globalsAddress = globalsTable := rfl

/-- The tables of the library in a fresh heap. -/
theorem table_initial_library {n : String} (hn : n ∈ libraryNames) :
    Heap.initial.table (libraryAddress n) =
      Table.ofFields (functionsUnder n ++ constantsUnder n) := by
  simp only [libraryNames, List.mem_cons, List.not_mem_nil, or_false] at hn
  rcases hn with rfl | rfl | rfl | rfl | rfl | rfl | rfl <;> rfl

/-- The tables of the library hold neither tables nor tools. -/
theorem inert_getStr_library {n : String} (hn : n ∈ libraryNames) (k : Bytes) :
    ((Heap.initial.table (libraryAddress n)).getStr k).Inert := by
  rw [table_initial_library hn]
  by_cases hk : (Table.ofFields (functionsUnder n ++ constantsUnder n)).getStr k = .nil
  · exact hk ▸ ⟨nofun, nofun⟩
  obtain ⟨f, hf, -, hv⟩ := Table.mem_of_getStr_ofFields hk
  rw [hv]
  rcases List.mem_append.1 hf with hf | hf
  · obtain ⟨g, hg⟩ := exists_native_of_mem_functionsUnder hf
    exact hg ▸ ⟨nofun, nofun⟩
  · exact inert_of_mem_constantsUnder hf

/-- A fresh heap has the globals, seven tables of the library and the metatable of strings. -/
theorem size_initial : Heap.initial.tables.size = 9 := rfl

end Heap

end ScriptAgent.Script
