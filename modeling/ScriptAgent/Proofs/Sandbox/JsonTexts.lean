import ScriptAgent.Proofs.Exchange.Entries
import ScriptAgent.Proofs.Sandbox.JsonTools

/-!
# The texts of data

Data that the host has read from a script has a text as an answer and a text from each of the tools
that write JSON. The text of a list or a dictionary is read as it, and that of a tool as the same
data, by the library and by the tool that reads JSON (`Sandbox.data_texts`).

The text of the tool that writes on one line depends on the data only: it is the text of the one
form of the data in which keys are in increasing order, and data with the same text is the same
(`Sandbox.encode_canonical`). So tables of scripts with the same entries have the same text, as long
as no two keys of one table are read as the same text.
-/

namespace ScriptAgent

open Script

namespace Tool

variable {t : Tool} {d e : Datum} {text : String} {w : World}

/-- The tool that writes JSON on one line writes one argument in the layout that sorts members. -/
theorem run_encode (ht : t ∈ jsonTools) (hname : t.name = "json.encode") (d : Datum) (w : World) :
    t.run [d] w = (writeJson .compact [d], w) := by
  simp only [jsonTools, List.mem_cons, List.not_mem_nil, or_false] at ht
  rcases ht with rfl | rfl | rfl
  · exact absurd hname (by decide)
  · rfl
  · exact absurd hname (by decide)

/-- A text that can be read is read by the tool that reads JSON. -/
theorem execute_parse (ht : t ∈ jsonTools) (hname : t.name = "json.parse")
    (h : Json.parse text = .ok d) (w : World) :
    t.execute [.str text] w = (⟨true, d, none⟩, w) := by
  refine execute_of_value ?_
  rw [run_parse ht hname, parseJson_of_parse h]

/-- A value that can be written is written by a tool that writes JSON. -/
theorem execute_write {l : Json.Layout} (hrun : ∀ d w, t.run [d] w = (writeJson l [d], w))
    (h : Json.write l d = .ok text) (w : World) :
    t.execute [d] w = (⟨true, .str text, none⟩, w) := by
  refine execute_of_value ?_
  rw [hrun, writeJson_of_write h]

/-- The tool that writes JSON on one line gives a plain value the text of a value that is the same
data, has the keys of each dictionary in increasing order, and is written in its own order. -/
theorem execute_encode (ht : t ∈ jsonTools) (hname : t.name = "json.encode") (hd : d.Plain)
    (w : World) :
    ∃ s, Json.write .compact d = .ok s ∧ t.execute [d] w = (⟨true, .str s, none⟩, w) ∧
      ∃ c, Json.parse s = .ok c ∧ d.Same c ∧ c.Ascending ∧
        Json.write Json.Layout.compact.unsorted c = .ok s := by
  obtain ⟨s, hs, hread⟩ := Json.parse_write_arranged Json.Layout.legible_compact hd
  refine ⟨s, hs, execute_write (run_encode ht hname) hs w, d.sorted, hread, hd.same_sorted,
    hd.ascending_sorted, ?_⟩
  rw [← Json.write_sorted rfl hd, hs]

end Tool

/-- The answer that is a list or a dictionary has a text, and the text is read as the answer. -/
theorem Datum.parse_answer {d : Datum} (hd : d.Plain)
    (hparts : (∃ items, d = .list items) ∨ ∃ entries, d = .dict entries) :
    ∃ text, d.answer = .ok text ∧ Json.parse text = .ok d := by
  have hread := Json.parse_write_arranged Json.Layout.legible_spaced hd
  rcases hparts with ⟨items, rfl⟩ | ⟨entries, rfl⟩
  · exact hread
  · exact hread

namespace Sandbox

/-- A list or a dictionary has a text as an answer, and the text is read as it. Any data is written
by both tools that write JSON, and their texts are read as the same data, by the library and by the
tool that reads JSON. -/
theorem data_texts {d : Datum} (hd : d.Plain) (w : World) :
    ((∃ items, d = .list items) ∨ (∃ entries, d = .dict entries) →
      ∃ text, d.answer = .ok text ∧ Json.parse text = .ok d) ∧
    ∀ t ∈ Tool.jsonTools, t.name = "json.encode" ∨ t.name = "json.pretty" →
      ∃ text d', t.execute [d] w = (⟨true, .str text, none⟩, w) ∧ Json.parse text = .ok d' ∧
        d.Same d' ∧
        ∀ p ∈ Tool.jsonTools, p.name = "json.parse" →
          p.execute [.str text] w = (⟨true, d', none⟩, w) := by
  constructor
  · exact Datum.parse_answer hd
  · intro t ht hname
    obtain ⟨l, hl, hrun⟩ := Tool.run_write ht hname
    obtain ⟨text, d', hwritten, hread, same, -⟩ := Json.parse_write hl hd
    refine ⟨text, d', Tool.execute_write hrun hwritten w, hread, same, ?_⟩
    intro p hp hpname
    exact Tool.execute_parse hp hpname hread w

/-- A dictionary with a list of nothing and a float in it, and an empty dictionary. -/
def nestedData : Datum := .dict [(.str "b\n", .list [.none, .float 0.5]), (.str "a", .dict [])]

/-- `nestedData` is plain. -/
theorem plain_nestedData : nestedData.Plain := by
  have list : (Datum.list [.none, .float 0.5]).Plain := by
    refine .list ?_
    exact List.forall_mem_cons.2 ⟨.none, List.forall_mem_singleton.2 (.float _)⟩
  have empty : (Datum.dict []).Plain := by
    refine .dict ?_ ?_ ?_ <;> simp
  refine .dict (by simp) (by simp) ?_
  exact List.forall_mem_cons.2 ⟨list, List.forall_mem_singleton.2 empty⟩

/-- The texts of `nestedData` as an answer and as indented JSON. -/
theorem data_texts_nested :
    nestedData.Plain ∧
      (∃ text, nestedData.answer = .ok text ∧ Json.parse text = .ok nestedData) ∧
      ∃ t ∈ Tool.jsonTools, t.name = "json.pretty" ∧
        ∃ text d', t.execute [nestedData] default = (⟨true, .str text, none⟩, default) ∧
          Json.parse text = .ok d' ∧ nestedData.Same d' ∧
          ∀ p ∈ Tool.jsonTools, p.name = "json.parse" →
            p.execute [.str text] default = (⟨true, d', none⟩, default) := by
  obtain ⟨t, ht, hname⟩ : ∃ t ∈ Tool.jsonTools, t.name = "json.pretty" :=
    ⟨_, List.mem_cons_of_mem _ (List.mem_cons_of_mem _ List.mem_cons_self), rfl⟩
  refine ⟨plain_nestedData, ?_, t, ht, hname, ?_⟩
  · exact (data_texts plain_nestedData default).1 (.inr ⟨_, rfl⟩)
  · exact (data_texts plain_nestedData default).2 t ht (.inr hname)

/-- The tool that writes JSON on one line gives one text for two values exactly if they are the same
data. The text is that of a value in which the keys of each dictionary are in increasing order,
written in its own order. Tables with the same entries have the same text, in whichever orders their
entries are enumerated, if no two keys of one table are read as the same text. -/
theorem encode_canonical {t : Tool} (ht : t ∈ Tool.jsonTools) (hname : t.name = "json.encode")
    (w : World) :
    (∀ d e : Datum, d.Plain → e.Plain →
      ∃ s s', t.execute [d] w = (⟨true, .str s, none⟩, w) ∧
        t.execute [e] w = (⟨true, .str s', none⟩, w) ∧ (s = s' ↔ d.Same e) ∧
        ∃ c, Json.parse s = .ok c ∧ d.Same c ∧ c.Ascending ∧
          Json.write Json.Layout.compact.unsorted c = .ok s) ∧
    ∀ (h h' : Heap) (x y : Value), Exchange.SameEntries h h' [] x y →
      (∀ a, Exchange.Leads h (.table a) x → Exchange.KeysApart (h.table a)) →
      ∀ e e' : Exchange.Enumeration, ∃ s,
        t.execute [Exchange.decodeBy e h x] w = (⟨true, .str s, none⟩, w) ∧
        t.execute [Exchange.decodeBy e' h' y] w = (⟨true, .str s, none⟩, w) := by
  have hsame : ∀ {d e : Datum}, d.Plain → e.Plain →
      (Json.write .compact d = Json.write .compact e ↔ d.Same e) := fun hd he =>
    Json.write_eq_iff_same Json.Layout.legible_compact rfl hd he
  constructor
  · intro d e hd he
    obtain ⟨s, hs, hrun, hcanonical⟩ := Tool.execute_encode ht hname hd w
    obtain ⟨s', hs', hrun', -⟩ := Tool.execute_encode ht hname he w
    refine ⟨s, s', hrun, hrun', ?_, hcanonical⟩
    rw [← hsame hd he, hs, hs', Except.ok.injEq]
  · intro h h' x y hs apart e e'
    have hx := Exchange.decodeBy_plain e h x
    have hy := Exchange.decodeBy_plain e' h' y
    obtain ⟨s, hwritten, hrun, -⟩ := Tool.execute_encode ht hname hx w
    obtain ⟨s', hwritten', hrun', -⟩ := Tool.execute_encode ht hname hy w
    have heq := (hsame hx hy).2 (hs.same_decodeBy apart e e')
    rw [hwritten, hwritten', Except.ok.injEq] at heq
    subst heq
    exact ⟨s, hrun, hrun'⟩

/-- `nestedData` with its entries in the other order. -/
def swappedData : Datum := .dict [(.str "a", .dict []), (.str "b\n", .list [.none, .float 0.5])]

/-- Two dictionaries with the same entries in different orders, and a table that is enumerated in
two orders. -/
theorem encode_canonical_swapped :
    ∃ t ∈ Tool.jsonTools, t.name = "json.encode" ∧ nestedData.Plain ∧ swappedData.Plain ∧
      (∃ s s', t.execute [nestedData] default = (⟨true, .str s, none⟩, default) ∧
        t.execute [swappedData] default = (⟨true, .str s', none⟩, default) ∧
        (s = s' ↔ nestedData.Same swappedData) ∧
        ∃ c, Json.parse s = .ok c ∧ nestedData.Same c ∧ c.Ascending ∧
          Json.write Json.Layout.compact.unsorted c = .ok s) ∧
      (∀ a, Exchange.KeysApart (Exchange.mixedHeap.table a)) ∧
      ∃ s, t.execute [Exchange.decode Exchange.mixedHeap (.table 0)] default =
          (⟨true, .str s, none⟩, default) ∧
        t.execute [Exchange.decodeBy .reversed Exchange.mixedHeap (.table 0)] default =
          (⟨true, .str s, none⟩, default) := by
  have plain : swappedData.Plain := by
    cases plain_nestedData with
    | dict keys distinct values =>
      refine .dict (by simp) (by simp) fun e he => values e ?_
      simpa [or_comm] using he
  obtain ⟨t, ht, hname⟩ : ∃ t ∈ Tool.jsonTools, t.name = "json.encode" :=
    ⟨_, List.mem_cons_of_mem _ List.mem_cons_self, rfl⟩
  refine ⟨t, ht, hname, plain_nestedData, plain, ?_, Exchange.keysApart_mixedHeap, ?_⟩
  · exact (encode_canonical ht hname default).1 nestedData swappedData plain_nestedData plain
  · exact (encode_canonical ht hname default).2 Exchange.mixedHeap Exchange.mixedHeap (.table 0)
      (.table 0) (.refl _ _) (fun a _ => Exchange.keysApart_mixedHeap a) .byKey .reversed

end Sandbox

end ScriptAgent
