import ScriptAgent.Proofs.Http.Redirects
import ScriptAgent.Proofs.Json.Encoded
import ScriptAgent.Proofs.Sandbox.JsonTools
import ScriptAgent.Tool.Web

/-!
# Requests of scripts

A script that calls a tool for requests gets the response as a table, or a text about the failure of
the exchange, unless the request is lost (`Demand.Lost`): nothing is left of a request that cannot
be made, of one that is led to what is no address, and of a response whose status is no integer of
scripts. A lost request gives nil, and the others never do (`Sandbox.web_call_answers_iff`).

The text of a response of JSON is read as the body of the response is (`Tool.bodyText_reads`), and
any other text is handed on (`Tool.bodyText_eq`).
-/

namespace ScriptAgent

open Script

namespace Http

/-! ## Names of headers -/

/-- The names of merged headers are distinct. -/
theorem Headers.nodup_merged (h : Headers) : (h.merged.map Prod.fst).Nodup := by
  unfold merged
  refine List.foldlRecOn h _ (motive := fun acc : Headers => (acc.map Prod.fst).Nodup) .nil ?_
  intro acc ih e _
  obtain ⟨name, value⟩ := e
  dsimp only
  split
  · exact ih
  · next hname =>
    rw [List.map_append, List.map_singleton, List.nodup_append]
    refine ⟨ih, List.nodup_singleton _, ?_⟩
    intro n hn m hm heq
    obtain ⟨e, he, rfl⟩ := List.mem_map.1 hn
    have hname' : e.1 = name := heq.trans (List.mem_singleton.1 hm)
    exact hname (has_iff.2 ⟨e.2, hname' ▸ he⟩)

end Http

namespace Tool

/-! ## What is asked for -/

/-- What a script asks for when it calls a tool for requests. -/
structure Demand where
  method : String
  url : String
  headers : Datum
  body : Datum

/-- A tool for requests asks for something with its arguments: an address, a body if the tool takes
one, and headers, which may be left out. -/
inductive Asks : Tool → List Datum → Demand → Prop where
  | plain (id : Nat) (name method url : String) :
      Asks (plainRequest id name method) [.str url] ⟨method, url, .none, .none⟩
  | plainHeaders (id : Nat) (name method url : String) (headers : Datum) :
      Asks (plainRequest id name method) [.str url, headers] ⟨method, url, headers, .none⟩
  | body (id : Nat) (name method url : String) (body : Datum) :
      Asks (bodyRequest id name method) [.str url, body] ⟨method, url, .none, body⟩
  | bodyHeaders (id : Nat) (name method url : String) (body headers : Datum) :
      Asks (bodyRequest id name method) [.str url, body, headers] ⟨method, url, headers, body⟩

/-- An argument names headers: it is nothing, an empty table, or a table of names with values. -/
inductive Names : Datum → Http.Headers → Prop where
  | nothing : Names .none []
  | empty : Names (.list []) []
  | pairs (entries : List (Datum × Datum)) : Names (.dict entries) (entryTexts entries)

section
variable {t : Tool} {args : List Datum} {d : Demand} {hs : Http.Headers} {w w' : World}

/-- What a tool is asked for is requested. -/
theorem Asks.run_eq (h : Asks t args d) (w : World) :
    t.run args w = request d.method (.str d.url) d.headers d.body w := by
  cases h <;> rfl

/-- Headers that are named are the headers of the request. -/
theorem Names.headersOf_eq {headers : Datum} (h : Names headers hs) :
    headersOf headers = .ok hs := by
  cases h with
  | nothing => rfl
  | empty => rfl
  | pairs entries =>
    cases entries with
    | nil => rfl
    | cons e rest => rfl

/-- Plain data can be sent as a body. -/
theorem readable_bodyOf {body : Datum} (hd : body.Plain) : (bodyOf body).Readable := by
  intro e he
  cases hd with
  | list h => cases he; exact Json.readable_of_plain (.list h)
  | dict keys distinct h => cases he; exact Json.readable_of_plain (.dict keys distinct h)
  | _ => cases he

/-- The requests that are sent for a demand. -/
def Demand.Sends (d : Demand) (hs : Http.Headers) (w : World) (p : Http.Prepared)
    (ps : List Http.Prepared) (last : Http.Prepared) (o : Http.Outcome) : Prop :=
  Http.Sends d.method d.url hs (bodyOf d.body) w p ps last o

/-- How a request is lost: it cannot be made, it is led to what is no address, or the status of its
response is no integer of scripts. -/
inductive Demand.Lost (d : Demand) (hs : Http.Headers) (w : World) : Prop where
  | unsendable (h : Http.Unsendable d.url hs (bodyOf d.body))
  | location {p : Http.Prepared} {ps : List Http.Prepared} {last : Http.Prepared}
      {o : Http.Outcome} {fault : Http.Url.Fault} (h : d.Sends hs w p ps last o)
      (astray : last.fate o = .error (.url fault))
  | status {p : Http.Prepared} {ps : List Http.Prepared} {last : Http.Prepared}
      {o : Http.Outcome} {r : Http.Response} (h : d.Sends hs w p ps last o)
      (received : last.fate o = .ok r) (beyond : Num.fits r.status = false)

/-! ## How the call of a tool ends -/

/-- A failure that is none of an exchange fails the call, and leaves the surroundings alone. -/
theorem failed_of_isFault {failure : Http.Failure} (h : failure.IsFault) (method url : String)
    (w : World) :
    ∃ outcome, failed method url failure w = (outcome, w) ∧
      ((∃ message, outcome = .mismatch message) ∨ ∃ message, outcome = .crashed message) := by
  cases failure with
  | url fault => exact ⟨_, rfl, .inr ⟨_, rfl⟩⟩
  | header text first last => exact ⟨_, rfl, .inr ⟨_, rfl⟩⟩
  | body refusal =>
    refine ⟨_, rfl, ?_⟩
    split
    · exact .inl ⟨_, rfl⟩
    · exact .inr ⟨_, rfl⟩
  | exchange kind message => exact absurd rfl (h kind message)

/-- The response to a request is the value of the call. -/
theorem request_of_ok {url : Http.Url} {r : Http.Response} (named : Names d.headers hs)
    (hsend : Http.send true d.method d.url hs (bodyOf d.body) w = (.ok (url, r), w')) :
    request d.method (.str d.url) d.headers d.body w = (.value (responseDatum r), w') := by
  rw [request, named.headersOf_eq]
  dsimp only
  rw [hsend]

/-- A request without a response fails. -/
theorem request_of_error {failure : Http.Failure} (named : Names d.headers hs)
    (hsend : Http.send true d.method d.url hs (bodyOf d.body) w = (.error failure, w')) :
    request d.method (.str d.url) d.headers d.body w = failed d.method d.url failure w' := by
  rw [request, named.headersOf_eq]
  dsimp only
  rw [hsend]

/-! ## Responses -/

/-- A dictionary with distinct names is plain data if its values are. -/
theorem plain_ofFields {fields : List (String × Datum)} (distinct : (fields.map Prod.fst).Nodup)
    (h : ∀ f ∈ fields, f.2.Plain) : (Datum.ofFields fields).Plain := by
  have hkeys : (fields.map fun f => (Datum.str f.1, f.2)).map Prod.fst =
      (fields.map Prod.fst).map Datum.str := by
    rw [List.map_map, List.map_map]
    rfl
  refine .dict (List.forall_mem_map.2 fun f _ => ⟨f.1, rfl⟩) ?_ (List.forall_mem_map.2 h)
  rw [hkeys]
  exact distinct.map fun _ _ h => Datum.str.inj h

/-- A response is plain data if its status is an integer of scripts. -/
theorem plain_responseDatum {r : Http.Response} (hfits : Num.fits r.status = true) :
    (responseDatum r).Plain := by
  refine .list (List.forall_mem_cons.2 ⟨.int hfits, List.forall_mem_cons.2 ⟨?_,
    List.forall_mem_singleton.2 (.str _)⟩⟩)
  refine plain_ofFields ?_ (List.forall_mem_map.2 fun e _ => .str e.2)
  rw [List.map_map]
  exact r.headers.nodup_merged

/-- The only list in a response is that of its parts. -/
theorem short_responseDatum (r : Http.Response) : Exchange.Short (responseDatum r) := by
  intro items hi
  cases hi with
  | refl => show 3 < Exchange.listBound; decide
  | item he hi =>
    rcases List.mem_cons.1 he with rfl | he
    · cases hi
    rcases List.mem_cons.1 he with rfl | he
    · cases hi with
      | value he hi =>
        obtain ⟨f, hf, rfl⟩ := List.mem_map.1 he
        obtain ⟨e, -, rfl⟩ := List.mem_map.1 hf
        cases hi
    · cases List.mem_singleton.1 he
      cases hi

/-- A response whose status is no integer of scripts cannot be held by them. -/
theorem isHoldable_responseDatum {r : Http.Response} (beyond : Num.fits r.status = false) :
    (responseDatum r).isHoldable = false := by
  rw [responseDatum, Datum.isHoldable, Datum.areHoldable, Datum.isHoldable, beyond, Bool.false_and]

/-- Bytes that can be read as JSON give their value. -/
theorem parseJson_bytes_iff {bs : Bytes} {e : Datum} :
    parseJson [.bytes bs] = .value e ↔ Json.parseBytes bs = .ok e := by
  rw [parseJson, argument, List.getD_cons_zero]
  dsimp only
  cases Json.parseBytes bs with
  | error f =>
    constructor
    · intro h
      cases h
    · intro h
      cases h
  | ok e' =>
    constructor
    · exact fun h => congrArg _ (Outcome.value.inj h)
    · exact fun h => congrArg _ (Except.ok.inj h)

/-- Only a text that can be read as JSON gives a value. -/
theorem parse_of_parseJson {text : String} {e : Datum} (h : parseJson [.str text] = .value e) :
    Json.parse text = .ok e := by
  rw [parseJson, argument, List.getD_cons_zero] at h
  dsimp only at h
  split at h
  · next hread => rw [hread, Outcome.value.inj h]
  · cases h

/-- The tool that reads JSON gives a value for the body of a response: for its bytes, or for the
text that these are the bytes of. -/
def ReadsBody (r : Http.Response) (e : Datum) : Prop :=
  parseJson [.bytes r.body] = .value e ∨
    ∃ text, r.body = Utf8.encode text ∧ parseJson [.str text] = .value e

/-- The body of a response is read as JSON by the tool as it is by the response. -/
theorem readsBody_iff {r : Http.Response} {e : Datum} : ReadsBody r e ↔ r.json = .ok e := by
  constructor
  · rintro (h | ⟨text, hbody, h⟩)
    · exact parseJson_bytes_iff.1 h
    · rw [Http.Response.json, hbody]
      exact Json.parseBytes_encode (parse_of_parseJson h)
  · exact fun h => .inl (parseJson_bytes_iff.2 h)

/-- The text of a response of JSON is read as its body is. -/
theorem bodyText_reads {r : Http.Response} {e : Datum} (hnames : namesJson r.contentType = true)
    (h : ReadsBody r e) : parseJson [.str (bodyText r)] = .value e := by
  have hjson := readsBody_iff.1 h
  obtain ⟨text, hwritten, hread⟩ :=
    (Json.readable_of_parseBytes hjson).parse_write Json.Layout.legible_spaced rfl
  rw [bodyText, if_pos hnames, hjson]
  dsimp only
  rw [hwritten]
  exact parseJson_of_parse hread

/-- The text of any other response is handed on. -/
theorem bodyText_eq {r : Http.Response}
    (h : namesJson r.contentType = false ∨ ∀ e, ¬ ReadsBody r e) : bodyText r = r.text := by
  unfold bodyText
  split
  · next hnames =>
    cases hjson : r.json with
    | error f => rfl
    | ok e =>
      rcases h with h | h
      · rw [hnames] at h
        cases h
      · exact absurd (readsBody_iff.2 hjson) (h e)
  · rfl

end

end Tool

namespace Sandbox

open Http (Carries Unsendable)
open Tool (Demand Asks Names bodyOf responseDatum)

/-! ## Calls -/

section
variable {t : Tool} {args : List Value} {h : Heap} {w w' : World} {e : Datum}

/-- A value that is plain data is taken to the script. -/
theorem callTool_of_plain (hrun : t.run (args.map (Exchange.decode h)) w = (.value e, w'))
    (he : e.Plain) (short : Exchange.Short e) :
    ∃ v h', callTool t args h w = (.value v, h', w') ∧ Exchange.Holds h' h.tables.size v e := by
  obtain ⟨v, h', hencode, holds⟩ := Exchange.encode_holds he short h
  refine ⟨v, h', ?_, holds⟩
  rw [callTool, Tool.execute_of_value hrun]
  dsimp only
  rw [if_pos rfl, answerOf, he.underlying]
  cases he with
  | int fits =>
    rw [Exchange.encode, if_pos fits] at hencode
    cases hencode
    exact if_pos fits
  | _ => dsimp only; rw [hencode]

/-- A list that scripts cannot hold gives nil. -/
theorem callTool_of_unholdable {items : List Datum}
    (hrun : t.run (args.map (Exchange.decode h)) w = (.value (.list items), w'))
    (he : (Datum.list items).isHoldable = false) :
    ∃ w'', callTool t args h w = (.value .nil, h, w'') ∧ w''.requests = w'.requests := by
  rw [callTool, Tool.execute_of_value hrun]
  dsimp only
  rw [if_pos rfl, answerOf]
  have hencode := Exchange.isOk_encode h (.list items)
  rw [he] at hencode
  cases hx : Exchange.encode h (.list items) with
  | ok r => rw [hx] at hencode; cases hencode
  | error f =>
    dsimp only [Datum.underlying]
    rw [hx]
    exact ⟨_, rfl, rfl⟩

/-- A call that fails gives nil. -/
theorem callTool_of_failure {outcome : Tool.Outcome}
    (hrun : t.run (args.map (Exchange.decode h)) w = (outcome, w'))
    (hfails : (∃ message, outcome = .mismatch message) ∨ ∃ message, outcome = .crashed message) :
    ∃ w'', callTool t args h w = (.value .nil, h, w'') ∧ w''.requests = w'.requests := by
  rw [callTool, Tool.execute, hrun]
  rcases hfails with ⟨message, rfl⟩ | ⟨message, rfl⟩
  · exact ⟨_, rfl, rfl⟩
  · exact ⟨_, rfl, rfl⟩

end

/-- What a script gets for what comes of its request, in a heap with new tables from `lo` on: the
parts of the response, or a text about the failure of the exchange. -/
inductive Delivers (h : Heap) (lo : Address) :
    Except Http.Failure Http.Response → Value → Prop where
  | parts {r : Http.Response} {v : Value} (fits : Num.fits r.status = true)
      (holds : Exchange.Holds h lo v (responseDatum r)) : Delivers h lo (.ok r) v
  | report (kind : Http.FailureKind) (message : String) :
      Delivers h lo (.error (.exchange kind message))
        (.str (Utf8.encode ("HTTP request failed: " ++ message)))
  | status {r : Http.Response} (beyond : Num.fits r.status = false) : Delivers h lo (.ok r) .nil
  | location (fault : Http.Url.Fault) : Delivers h lo (.error (.url fault)) .nil

/-- What becomes of a demand: nothing is sent, and the script gets nil; or the request carries the
body, it is sent with those that it is led on to, and the script gets what comes of the last one. -/
inductive Met (d : Demand) (hs : Http.Headers) (w w' : World) (h : Heap) (lo : Address)
    (v : Value) : Prop where
  | unsent (unsendable : Unsendable d.url hs (bodyOf d.body)) (requests : w'.requests = w.requests)
      (lost : v = .nil)
  | sent {p : Http.Prepared} {ps : List Http.Prepared} {last : Http.Prepared} {o : Http.Outcome}
      (sendable : ¬ Unsendable d.url hs (bodyOf d.body)) (method : p.method = d.method)
      (carries : Carries hs p (bodyOf d.body)) (sends : d.Sends hs w p ps last o)
      (requests : w'.requests = w.requests ++ (ps ++ [last]).map Http.Prepared.request)
      (delivers : Delivers h lo (last.fate o) v)

section
variable {t : Tool} {args : List Value} {h : Heap} {w w' : World} {d : Demand} {hs : Http.Headers}

/-- The body of a demand is one of the arguments, or nothing. -/
theorem plain_body {ds : List Datum} (asks : Asks t ds d) (hds : ∀ e ∈ ds, e.Plain) :
    d.body.Plain := by
  cases asks with
  | plain | plainHeaders => exact .none
  | body => exact hds _ (by simp)
  | bodyHeaders => exact hds _ (by simp)

/-- A call with a demand gives one value. -/
theorem callTool_met (asks : Asks t (args.map (Exchange.decode h)) d) (named : Names d.headers hs)
    (w : World) :
    ∃ v h' w', callTool t args h w = (.value v, h', w') ∧ Met d hs w w' h' h.tables.size v := by
  have hbody : d.body.Plain :=
    plain_body asks (List.forall_mem_map.2 fun v _ => Exchange.decode_plain h v)
  rcases Http.prepare_cases d.method d.url hs (Tool.readable_bodyOf hbody) with
    ⟨unsendable, failure, hfailure, hfault⟩ | ⟨sendable, p, ready, method, carries⟩
  · obtain ⟨outcome, hfailed, hfails⟩ := Tool.failed_of_isFault hfault d.method d.url w
    have hsend : Http.send true d.method d.url hs (bodyOf d.body) w = (.error failure, w) := by
      rw [Http.send, hfailure]
    have hrun := (asks.run_eq w).trans ((Tool.request_of_error named hsend).trans hfailed)
    obtain ⟨w', hcall, hrequests⟩ := callTool_of_failure hrun hfails
    exact ⟨_, _, w', hcall, .unsent unsendable hrequests rfl⟩
  · obtain ⟨ps, last, o, sends⟩ := Http.exists_sends w ready
    have hsend := sends.send_eq
    -- What comes of the last request decides.
    cases hfate : last.fate o with
    | ok r =>
      rw [hfate] at hsend
      have hrun := (asks.run_eq w).trans (Tool.request_of_ok named hsend)
      cases hfits : Num.fits r.status with
      | true =>
        obtain ⟨v, h', hcall, holds⟩ := callTool_of_plain hrun (Tool.plain_responseDatum hfits)
          (Tool.short_responseDatum r)
        exact ⟨v, h', _, hcall, .sent sendable method carries sends rfl
          (hfate ▸ .parts hfits holds)⟩
      | false =>
        obtain ⟨w', hcall, hrequests⟩ :=
          callTool_of_unholdable hrun (Tool.isHoldable_responseDatum hfits)
        exact ⟨_, _, w', hcall, .sent sendable method carries sends hrequests
          (hfate ▸ .status hfits)⟩
    | error failure =>
      rw [hfate] at hsend
      have hrun := (asks.run_eq w).trans (Tool.request_of_error named hsend)
      rcases Http.Prepared.fate_error hfate with ⟨fault, rfl⟩ | ⟨kind, message, rfl⟩
      · obtain ⟨w', hcall, hrequests⟩ := callTool_of_failure hrun (.inr ⟨_, rfl⟩)
        exact ⟨_, _, w', hcall, .sent sendable method carries sends hrequests
          (hfate ▸ .location fault)⟩
      · obtain ⟨v, h', hcall, holds⟩ := callTool_of_plain hrun (.str _) (fun _ hi => by cases hi)
        cases holds
        exact ⟨_, h', _, hcall, .sent sendable method carries sends rfl
          (hfate ▸ .report kind message)⟩

/-- A call gives nil exactly if its request is lost. -/
theorem Met.nil_iff {lo : Address} {v : Value} (met : Met d hs w w' h lo v) :
    v = .nil ↔ d.Lost hs w := by
  cases met with
  | unsent unsendable _ lost => exact iff_of_true lost (.unsendable unsendable)
  | @sent p ps last o sendable _ _ sends _ delivers =>
    constructor
    · rintro rfl
      cases hfate : last.fate o with
      | ok r =>
        rw [hfate] at delivers
        cases delivers with
        | parts _ holds => cases holds
        | status beyond => exact .status sends hfate beyond
      | error failure =>
        rw [hfate] at delivers
        cases delivers with
        | location fault => exact .location sends hfate
    · intro hlost
      cases hlost with
      | unsendable h => exact absurd h sendable
      | location sends' astray =>
        rw [sends.fate_unique sends', astray] at delivers
        cases delivers
        rfl
      | status sends' received beyond =>
        rw [sends.fate_unique sends', received] at delivers
        cases delivers with
        | parts fits _ => rw [fits] at beyond; cases beyond
        | status => rfl

end

end Sandbox

end ScriptAgent
