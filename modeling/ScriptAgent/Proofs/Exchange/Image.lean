import ScriptAgent.Proofs.Exchange.Holdable
import ScriptAgent.Proofs.Script.Heap
import ScriptAgent.Proofs.Script.Table

/-!
# What the host writes

`Image h lo x d` says that the script value `x` of the heap `h` is the image of the host value `d`:
a table for each sequence, dictionary and record, all of them at addresses from `lo` on, and scalars
as they are; an object arrives as itself. Whatever is written is an image, made of new tables only,
and no table of before is changed (`Exchange.written_of_encode`).

The image of what lies in a table is made of tables behind it, so a table is never reached from
itself.
-/

namespace ScriptAgent.Exchange

open Script

/-! ## Parts -/

/-- The host's lists hold fewer items than this. -/
def listBound : Nat := 0x8000000000000000

/-- The keys of `n` items from an index on. -/
def indexKeys (i n : Nat) : List Key := (List.range' i n).map fun j => .int (Int64.ofNat j)

/-- There are as many indices as items. -/
@[simp] theorem length_indexKeys (first n : Nat) : (indexKeys first n).length = n := by
  rw [indexKeys, List.length_map, List.length_range']

/-- The key that an entry of a dictionary is written at. -/
def entryKey (e : Datum × Datum) : Key := .str (keyBytes e.1)

/-- The parts of a value that is written as a table, at the keys that they are written at. -/
def parts? : Datum → Option (List (Key × Datum))
  | .list items | .tuple items | .set items | .frozenset items =>
    some ((indexKeys 1 items.length).zip items)
  | .range n => some ((indexKeys 1 n).zip ((List.range n).map fun i : Nat => .int i))
  | .dict entries => some (entries.map fun e => (entryKey e, e.2))
  | .model _ fields | .record _ fields =>
    some (fields.map fun f => (.str (Utf8.encode f.1), f.2))
  | _ => none

/-- A part of a value is an integer of a range, or smaller than the value. -/
theorem sizeOf_part {d : Datum} {ps : List (Key × Datum)} (hps : parts? d = some ps)
    {q : Key × Datum} (hq : q ∈ ps) : (∃ i, q.2 = .int i) ∨ sizeOf q.2 < sizeOf d := by
  have hmem : ∀ items : List Datum, q ∈ (indexKeys 1 items.length).zip items →
      sizeOf q.2 < sizeOf items := fun items hq =>
    List.sizeOf_lt_of_mem (List.of_mem_zip hq).2
  cases d with
  | list items | tuple items | set items | frozenset items =>
    cases hps
    have h := hmem items hq
    simp
    omega
  | range n =>
    cases hps
    obtain ⟨i, -, hi⟩ := List.mem_map.1 (List.of_mem_zip hq).2
    exact .inl ⟨i, hi.symm⟩
  | dict entries =>
    cases hps
    obtain ⟨⟨k, v⟩, he, rfl⟩ := List.mem_map.1 hq
    have h := List.sizeOf_lt_of_mem he
    simp at h ⊢
    omega
  | model type fields | record type fields =>
    cases hps
    obtain ⟨⟨name, v⟩, hf, rfl⟩ := List.mem_map.1 hq
    have h := List.sizeOf_lt_of_mem hf
    simp at h ⊢
    omega
  | _ => cases hps

/-- What holds of a value when it holds of its parts, and of what it stands for, holds of all
values. -/
theorem induction_parts {p : Datum → Prop}
    (step : ∀ d, (∀ ps, parts? d = some ps → ∀ q ∈ ps, p q.2) →
      (∀ type member v, d = .choice type member v → p v) → p d) (d : Datum) : p d := by
  induction hn : sizeOf d using Nat.strongRecOn generalizing d with
  | ind n ih =>
    subst hn
    refine step d (fun ps hps q hq => ?_) fun type member v hv => ?_
    · rcases sizeOf_part hps hq with ⟨i, hi⟩ | hlt
      · rw [hi]
        exact step _ nofun nofun
      · exact ih _ hlt _ rfl
    · refine ih _ ?_ v rfl
      rw [hv, Datum.choice.sizeOf_spec]
      omega

/-! ## Images -/

/-- A script value is the image of a value of the host in a heap, and the tables of the image are at
addresses from `lo` on. -/
inductive Image (h : Heap) : Address → Value → Datum → Prop where
  | none {lo : Address} : Image h lo .nil .none
  | bool {lo : Address} (b : Bool) : Image h lo (.bool b) (.bool b)
  | int {lo : Address} (i : Int) : Image h lo (.int i) (.int i)
  | float {lo : Address} (x : Float) : Image h lo (.num (.float x)) (.float x)
  | str {lo : Address} (s : String) : Image h lo (.str (Utf8.encode s)) (.str s)
  | bytes {lo : Address} (bs : Bytes) : Image h lo (.str bs) (.bytes bs)
  /-- An object is no string of scripts. -/
  | object {lo : Address} (type text : String) : Image h lo (.foreign text) (.object type text)
  | choice {lo : Address} {x : Value} {type member : String} {d : Datum} (hx : Image h lo x d) :
      Image h lo x (.choice type member d)
  | table {lo a : Address} {es : List (Key × Value)} {d : Datum} {ps : List (Key × Datum)}
      (from_lo : lo ≤ a) (inside : a < h.tables.size) (parts : parts? d = some ps)
      (table : h.table a = Table.empty.setAll es) (keys : es.map Prod.fst = ps.map Prod.fst)
      (values : ∀ i (he : i < es.length) (hp : i < ps.length),
        Image h (a + 1) es[i].2 ps[i].2) : Image h lo (.table a) d

namespace Image

variable {h h' : Heap} {lo lo' : Address} {x : Value} {d : Datum}

/-- An image is one in every heap that keeps its tables, and has them from any lower address on. -/
theorem keep {p : Address → Prop} (hx : Image h lo x d) (hlo : lo' ≤ lo) (hk : h.Keeps p h')
    (hp : ∀ a, lo ≤ a → p a) : Image h' lo' x d := by
  induction hx generalizing lo' with
  | none => exact .none
  | bool b => exact .bool b
  | int i => exact .int i
  | float x => exact .float x
  | str s => exact .str s
  | bytes bs => exact .bytes bs
  | object type text => exact .object type text
  | choice _ ih => exact .choice (ih hlo hp)
  | table from_lo inside parts table keys _ ih =>
    refine .table (Nat.le_trans hlo from_lo) (Nat.lt_of_lt_of_le inside hk.size) parts ?_ keys
      fun i he hd => ih i he hd (Nat.le_refl _) fun b hb =>
        hp b (Nat.le_trans from_lo (Nat.le_of_succ_le hb))
    rw [hk.table _ inside (hp _ from_lo), table]

end Image

/-! ## Writing values into a table -/

/-- Writes values at keys of a table, in order. -/
def encodeAll (h : Heap) (a : Address) : List (Key × Datum) → Except TooLarge Heap
  | [] => .ok h
  | (k, d) :: rest => do
    let (v, h) ← encode h d
    encodeAll (h.modifyTable a (·.set k v)) a rest

/-- Items are written at successive integers. -/
theorem encodeItems_eq (h : Heap) (a : Address) (i : Nat) (items : List Datum) :
    encodeItems h a i items = encodeAll h a ((indexKeys i items.length).zip items) := by
  induction items generalizing h i with
  | nil => rw [encodeItems, List.zip_nil_right, encodeAll]
  | cons d rest ih =>
    rw [encodeItems, indexKeys, List.length_cons, List.range'_succ, List.map_cons,
      List.zip_cons_cons, encodeAll]
    simp only [ih, indexKeys]

/-- Entries are written at their keys. -/
theorem encodeEntries_eq (h : Heap) (a : Address) (entries : List (Datum × Datum)) :
    encodeEntries h a entries = encodeAll h a (entries.map fun e => (entryKey e, e.2)) := by
  induction entries generalizing h with
  | nil => rw [encodeEntries, List.map_nil, encodeAll]
  | cons e rest ih =>
    obtain ⟨k, d⟩ := e
    rw [encodeEntries, encodeEntry, List.map_cons, encodeAll]
    cases encode h d with
    | error e => rfl
    | ok r => exact ih _

/-- Fields are written at their names. -/
theorem encodeFields_eq (h : Heap) (a : Address) (fields : List (String × Datum)) :
    encodeFields h a fields =
      encodeAll h a (fields.map fun f => (.str (Utf8.encode f.1), f.2)) := by
  induction fields generalizing h with
  | nil => rw [encodeFields, List.map_nil, encodeAll]
  | cons f rest ih =>
    obtain ⟨name, d⟩ := f
    rw [encodeFields, encodeField, List.map_cons, encodeAll]
    cases encode h d with
    | error e => rfl
    | ok r => exact ih _

/-- The table of a range is filled with its numbers. -/
def rangeEntries (n : Nat) : List (Key × Value) :=
  (List.range n).map fun i : Nat => (.int (Int64.ofNat (i + 1)), .int i)

/-- A range is written as a table of its numbers. -/
theorem encode_range (h : Heap) (n : Nat) :
    encode h (.range n) =
      .ok (.table h.tables.size, (h.newTable (Table.empty.setAll (rangeEntries n))).2) := by
  have hfold : ∀ (is : List Nat) (t : Table),
      is.foldl (fun t i => t.set (.int (Int64.ofNat (i + 1))) (.int i)) t =
        t.setAll (is.map fun i : Nat => (.int (Int64.ofNat (i + 1)), .int i)) := by
    intro is
    induction is with
    | nil => exact fun t => rfl
    | cons i rest ih => exact fun t => ih _
  rw [encode, hfold]
  rfl

/-- Any other value with parts is written part by part into a new table. -/
theorem encode_parts {d : Datum} {ps : List (Key × Datum)} (hps : parts? d = some ps)
    (hd : ∀ n, d ≠ .range n) (h : Heap) :
    encode h d = do
      return (.table h.tables.size,
        ← encodeAll (h.newTable Table.empty).2 h.tables.size ps) := by
  cases d with
  | list items | tuple items | set items | frozenset items =>
    cases hps
    simp only [encode, encodeItems_eq]
    rfl
  | range n => exact absurd rfl (hd n)
  | dict entries =>
    cases hps
    simp only [encode, encodeEntries_eq]
    rfl
  | model type fields | record type fields =>
    cases hps
    simp only [encode, encodeFields_eq]
    rfl
  | _ => cases hps

/-- The result of writing a value: its image, made of new tables, in a heap that keeps all tables of
before. -/
structure Written (h : Heap) (d : Datum) (x : Value) (h' : Heap) : Prop where
  image : Image h' h.tables.size x d
  keeps : h.Keeps (fun _ => True) h'

/-- The result of writing values into a table: the table has got an image of each of them at its
key, made of tables behind it, and all other tables are kept. -/
structure Filled (h : Heap) (a : Address) (ps : List (Key × Datum)) (es : List (Key × Value))
    (h' : Heap) : Prop where
  keys : es.map Prod.fst = ps.map Prod.fst
  values : ∀ i (he : i < es.length) (hp : i < ps.length), Image h' (a + 1) es[i].2 ps[i].2
  keeps : h.Keeps (· ≠ a) h'
  table : h'.table a = (h.table a).setAll es

section
variable {h h' : Heap} {a : Address} {ps : List (Key × Datum)} {d : Datum} {x : Value}

/-- Values of which whatever is written is an image are written into a table as images. -/
theorem filled_of_encodeAll
    (hw : ∀ p ∈ ps, ∀ {h x h'}, encode h p.2 = .ok (x, h') → Written h p.2 x h')
    (ha : a < h.tables.size) (run : encodeAll h a ps = .ok h') : ∃ es, Filled h a ps es h' := by
  induction ps generalizing h with
  | nil =>
    cases run
    exact ⟨[], rfl, fun i he => absurd he (Nat.not_lt_zero i), .refl _ _, rfl⟩
  | cons p rest ih =>
    obtain ⟨k, d⟩ := p
    rw [encodeAll] at run
    cases hx : encode h d with
    | error e => rw [hx] at run; cases run
    | ok r =>
      obtain ⟨x, h₁⟩ := r
      rw [hx] at run
      have w := hw (k, d) List.mem_cons_self hx
      have ha₁ : a < h₁.tables.size := Nat.lt_of_lt_of_le ha w.keeps.size
      obtain ⟨es, f⟩ := ih (fun p hp => hw p (List.mem_cons_of_mem _ hp))
        (h := h₁.modifyTable a (·.set k x)) (by rwa [Heap.size_modifyTable]) run
      have hkeep : h₁.Keeps (· ≠ a) h' := (Heap.Keeps.modifyTable _ _ _).trans f.keeps
      refine ⟨(k, x) :: es, ?_, ?_, (w.keeps.mono fun _ _ => trivial).trans hkeep, ?_⟩
      · rw [List.map_cons, List.map_cons, f.keys]
      · intro i he hp
        cases i with
        -- The image of the first value is untouched: its tables are behind the one that is filled.
        | zero =>
          exact w.image.keep ha hkeep fun b hb => Nat.ne_of_gt (Nat.lt_of_lt_of_le ha hb)
        | succ i => exact f.values i (Nat.lt_of_succ_lt_succ he) (Nat.lt_of_succ_lt_succ hp)
      · rw [f.table, Heap.table_modifyTable_self ha₁, w.keeps.table a ha trivial, Table.setAll]

/-- A new table in which parts of a value are images is an image of the value. -/
theorem Filled.written {es : List (Key × Value)} (hps : parts? d = some ps)
    (f : Filled (h.newTable Table.empty).2 h.tables.size ps es h') :
    Written h d (.table h.tables.size) h' where
  image := by
    have hlt : h.tables.size < h'.tables.size :=
      Nat.lt_of_lt_of_le (by rw [Heap.size_newTable]; exact Nat.lt_succ_self _) f.keeps.size
    refine .table (Nat.le_refl _) hlt hps ?_ f.keys f.values
    rw [f.table, Heap.table_newTable_self]
  keeps := by
    refine ⟨Nat.le_trans (Heap.Keeps.newTable (fun _ => True) h .empty).size f.keeps.size,
      fun b hb _ => ?_⟩
    have hb' : b < (h.newTable Table.empty).2.tables.size := by
      rw [Heap.size_newTable]; exact Nat.lt_succ_of_lt hb
    rw [f.keeps.table b hb' (Nat.ne_of_lt hb), Heap.table_newTable_of_lt hb]

/-- The table of a range is an image of the range. -/
theorem written_range (h : Heap) (n : Nat) :
    Written h (.range n) (.table h.tables.size)
      (h.newTable (Table.empty.setAll (rangeEntries n))).2 where
  image := by
    refine .table (Nat.le_refl _) (by rw [Heap.size_newTable]; exact Nat.lt_succ_self _) rfl
      (Heap.table_newTable_self h _) ?_ fun i he hp => ?_
    · rw [List.map_fst_zip (by simp), rangeEntries, indexKeys, List.range'_eq_map_range,
        List.map_map, List.map_map]
      exact List.map_congr_left fun i _ => congrArg (fun j => Key.int (Int64.ofNat j))
        (Nat.add_comm i 1)
    · simp only [rangeEntries, List.getElem_map, List.getElem_range, List.getElem_zip]
      exact .int _
  keeps := Heap.Keeps.newTable _ h _

/-- Whatever is written is an image of the value, made of new tables, and what was there before is
not changed. -/
theorem written_of_encode (run : encode h d = .ok (x, h')) : Written h d x h' := by
  induction d using induction_parts generalizing h x h' with
  | step d parts stands =>
    cases hps : parts? d with
    | some ps =>
      by_cases hr : ∃ n, d = .range n
      · obtain ⟨n, rfl⟩ := hr
        cases (encode_range h n).symm.trans run
        exact written_range h n
      · rw [encode_parts hps (fun n hn => hr ⟨n, hn⟩)] at run
        cases hall : encodeAll (h.newTable Table.empty).2 h.tables.size ps with
        | error e => rw [hall] at run; cases run
        | ok h₁ =>
          rw [hall] at run
          cases run
          obtain ⟨es, f⟩ := filled_of_encodeAll (fun p hp => parts ps hps p hp)
            (by rw [Heap.size_newTable]; exact Nat.lt_succ_self _) hall
          exact f.written hps
    | none =>
      cases d with
      | choice type member v =>
        rw [encode] at run
        have w := stands type member v rfl run
        exact ⟨.choice w.image, w.keeps⟩
      | int i =>
        rw [encode] at run
        split at run
        · cases run
          exact ⟨.int i, .refl _ h⟩
        · cases run
      | none => rw [encode] at run; cases run; exact ⟨.none, .refl _ h⟩
      | bool b => rw [encode] at run; cases run; exact ⟨.bool b, .refl _ h⟩
      | float x => rw [encode] at run; cases run; exact ⟨.float x, .refl _ h⟩
      | str s => rw [encode] at run; cases run; exact ⟨.str s, .refl _ h⟩
      | bytes bs => rw [encode] at run; cases run; exact ⟨.bytes bs, .refl _ h⟩
      | object type text => rw [encode] at run; cases run; exact ⟨.object type text, .refl _ h⟩
      | _ => cases hps

end

end ScriptAgent.Exchange
