import ScriptAgent.Proofs.Exchange.Unfold

/-!
# What scripts give the host

`Exchange.decode_plain`: whatever a script hands over, and whatever its heap looks like, the host
reads plain data. Tables that lie in themselves or too deep do not stop the reading, and no integer
leaves 64 bits.
-/

namespace ScriptAgent.Exchange

open Script

/-- An integer of a script fits 64 bits. -/
theorem fits_toInt (i : Int64) : Num.fits i.toInt = true := by
  have hlo := Int64.le_toInt i
  have hhi := Int64.toInt_lt i
  simp only [Num.fits, Bool.and_eq_true, decide_eq_true_eq]
  omega

/-- What is no table is read as plain data. -/
theorem decodeScalar_plain (v : Value) : (decodeScalar v).Plain := by
  cases v with
  | bool b => exact .bool b
  | num n =>
    cases n with
    | int i => exact .int (fits_toInt i)
    | float x => exact .float x
  | str s => exact .str _
  | foreign t => exact .str _
  | _ => exact .none

/-- What a value unfolds to is plain data, whatever the heap. -/
theorem Unfolds.plain {e : Enumeration} {h : Heap} {path : List Address} {level : Nat} {v : Value}
    {d : Datum} (hd : Unfolds e h path level v d) : d.Plain := by
  induction hd with
  | scalar => exact decodeScalar_plain _
  | deep => exact .none
  | cyclic => exact .none
  | list _ _ _ _ ih =>
    refine .list fun d hd => ?_
    obtain ⟨i, hi, rfl⟩ := List.getElem_of_mem hd
    exact ih i hi
  | dict _ _ _ length _ ih =>
    refine Datum.ofEntries_plain (fun i hi => texts_of_mem_zip hi) fun i hi => ?_
    obtain ⟨j, hj, hij⟩ := List.getElem_of_mem (List.of_mem_zip hi).2
    exact hij ▸ ih j (length ▸ hj) hj

/-- A script value is read as plain data, in whichever order the entries of tables are
enumerated. -/
theorem decodeBy_plain (e : Enumeration) (h : Heap) (v : Value) : (decodeBy e h v).Plain :=
  (unfolds_decodeBy e h v).plain

/-- A script value is read as plain data. -/
theorem decode_plain (h : Heap) (v : Value) : (decode h v).Plain := decodeBy_plain .byKey h v

end ScriptAgent.Exchange
