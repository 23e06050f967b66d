import ScriptAgent.Model.Provider
import ScriptAgent.Proofs.Http.Exchange

/-!
# How the calls of models end

The call of a model gives code or is refused, which is the provider's own report of a failure,
unless something escapes the provider. `Provider.Escapes` names what does, from the outcomes of the
exchange alone, and `Provider.generate_settled_iff` says that nothing else does, for every provider,
every prompt and all surroundings.

A local server makes the call escape by the `response` of a success that is neither null nor a text,
or by a redirect to what is no address; a service by a block that says it is a text and holds none.
A call of a service whose answer is a single content never escapes.
-/

namespace ScriptAgent.Model

open Http (Prepared)
open Fallible

/-- The call of a model has given code, or is refused. -/
def Generated.Settled (g : Generated) : Prop :=
  (∃ text, g = .code text) ∨ ∃ message, g = .refused message

/-- A call that has not crashed is settled. -/
theorem Generated.settled_iff (g : Generated) : g.Settled ↔ ∀ crash, g ≠ .crashed crash := by
  cases g with
  | code text => exact iff_of_true (.inl ⟨text, rfl⟩) fun _ => nofun
  | refused message => exact iff_of_true (.inr ⟨message, rfl⟩) fun _ => nofun
  | crashed crash =>
    refine iff_of_false ?_ fun h => h crash rfl
    rintro (⟨_, h⟩ | ⟨_, h⟩) <;> cases h

/-- The code in a value: only a text has some. -/
theorem codeOf_eq_crashed_iff {d : Datum} {crash : Crash} :
    codeOf d = .crashed crash ↔ (∀ text, d ≠ .str text) ∧ crash = .noText d.typeName := by
  unfold codeOf
  split
  · exact iff_of_false nofun fun h => h.1 _ rfl
  · next hd => exact ⟨fun h => ⟨hd, (Generated.crashed.inj h).symm⟩, fun h => by rw [h.2]⟩

/-! ## Local models -/

namespace Ollama

/-- The address that prompts are posted to. -/
def address (o : Ollama) : String := o.host ++ "/api/generate"

/-- The request for a prompt. -/
def request (o : Ollama) (prompt : String) : Except Http.Failure Prepared :=
  Http.prepare "POST" o.address [] (.json (o.payload prompt))

/-- What escapes the call of a local model. -/
inductive Escapes (o : Ollama) (prompt : String) (w : World) : Crash → Prop where
  /-- The address of the server is none. -/
  | address {fault : Http.Url.Fault} (target : Http.targetUrl o.address = .error (.url fault)) :
    Escapes o prompt w (.address fault.message)
  /-- The options are of types that JSON does not have. -/
  | options {u : Http.Url} {refusal : Json.Refusal} (target : Http.targetUrl o.address = .ok u)
      (body : Json.write .body (o.payload prompt) = .error refusal)
      (type : refusal.isType = true) : Escapes o prompt w (.options refusal.message)
  /-- The server answers with a redirect to what is no address. -/
  | astray {p : Prepared} {r : Http.Response} {fault : Http.Url.Fault}
      (made : o.request prompt = .ok p) (outcome : (w.send p.request).1 = .response r)
      (location : p.astray? r = some (.url fault)) : Escapes o prompt w (.address fault.message)
  /-- The server succeeds, and the field of the reply is neither null nor a text. -/
  | reply {p : Prepared} {r : Http.Response} {d content : Datum}
      (made : o.request prompt = .ok p) (outcome : (w.send p.request).1 = .response r)
      (success : r.isSuccess = true) (json : r.json = .ok d)
      (field : d.get? "response" = some content) (present : content ≠ .none)
      (type : ∀ text, content ≠ .str text) : Escapes o prompt w (.noText content.typeName)

variable {o : Ollama} {prompt : String} {w : World} {crash : Crash}

/-- The answer of a server crashes by its field alone. -/
theorem codeOfAnswer_eq_crashed_iff {d : Datum} :
    codeOfAnswer d = .crashed crash ↔
      ∃ content, d.get? "response" = some content ∧ content ≠ .none ∧
        (∀ text, content ≠ .str text) ∧ crash = .noText content.typeName := by
  unfold codeOfAnswer
  split
  · next h =>
    refine iff_of_false nofun ?_
    rintro ⟨_, hc, -⟩
    cases h.symm.trans hc
  · next h =>
    refine iff_of_false nofun ?_
    rintro ⟨_, hc, hn, -⟩
    exact hn (Option.some.inj (hc.symm.trans h))
  · next content hn h =>
    rw [codeOf_eq_crashed_iff]
    constructor
    · rintro ⟨ht, rfl⟩
      exact ⟨content, h, hn, ht, rfl⟩
    · rintro ⟨_, hc, -, ht, rfl⟩
      rw [Option.some.inj (h.symm.trans hc)]
      exact ⟨ht, rfl⟩

/-- What the call gives for the end of its exchange. -/
def settle : Except Http.Failure (Http.Url × Http.Response) → Generated
  | .error (.url fault) => .crashed (.address fault.message)
  | .error (.body refusal) =>
    if refusal.isType then .crashed (.options refusal.message)
    else .refused (providerMessage "Ollama" (.str refusal.message))
  | .error failure => .refused (providerMessage "Ollama" (.str failure.message))
  | .ok (url, r) =>
    match r.problem? url, r.json with
    | some message, _ => .refused (providerMessage "Ollama" (.str message))
    | none, .error fault => .refused (providerMessage "Ollama" (.str fault.message))
    | none, .ok d => codeOfAnswer d

/-- The call is decided by the end of its exchange. -/
theorem generate_eq_settle (o : Ollama) (prompt : String) (w : World) :
    (o.generate prompt w).1 = settle (o.request prompt >>= fun p => p.exchange w) := by
  have hsend := Http.send_single "POST" o.address [] (.json (o.payload prompt)) w
  rw [request, ← hsend]
  unfold generate address
  rcases Http.send false "POST" (o.host ++ "/api/generate") [] (.json (o.payload prompt)) w with
    ⟨(failure | ⟨url, r⟩), w'⟩
  · cases failure with
    | url fault => rfl
    | header text first last => rfl
    | exchange kind message => rfl
    | body refusal =>
      dsimp only [settle]
      split <;> rfl
  · dsimp only [settle]
    cases r.problem? url with
    | some message => rfl
    | none =>
      cases r.json with
      | error fault => rfl
      | ok d => rfl

/-- Only the response of a success is taken apart. -/
theorem settle_ok_eq_crashed_iff {url : Http.Url} {r : Http.Response} :
    settle (.ok (url, r)) = .crashed crash ↔
      r.isSuccess = true ∧ ∃ d, r.json = .ok d ∧ codeOfAnswer d = .crashed crash := by
  cases hs : r.isSuccess with
  | false =>
    obtain ⟨message, hp⟩ : ∃ message, r.problem? url = some message :=
      ⟨_, by rw [Http.Response.problem?, hs]; rfl⟩
    rw [settle, hp]
    exact iff_of_false nofun fun h => nomatch h.1
  | true =>
    have hp : r.problem? url = none := by
      rw [Http.Response.problem?, if_pos hs]
    rw [settle, hp]
    cases r.json with
    | error fault => exact iff_of_false nofun fun ⟨_, _, h, _⟩ => nomatch h
    | ok d =>
      refine ⟨fun h => ⟨rfl, d, rfl, h⟩, ?_⟩
      rintro ⟨-, _, h, hd⟩
      cases h
      exact hd

/-- A call of a local model crashes exactly if something escapes it. -/
theorem generate_eq_crashed_iff :
    (o.generate prompt w).1 = .crashed crash ↔ o.Escapes prompt w crash := by
  rw [generate_eq_settle]
  constructor
  · intro h
    match hx : o.request prompt >>= fun p => p.exchange w with
    | .error (.url fault) =>
      rw [hx] at h
      cases h
      rcases bind_eq_error_iff.1 hx with hreq | ⟨p, hp, hreq⟩
      · rcases Http.prepare_json_error_iff.1 hreq with target | ⟨_, _, _, _, h⟩
        · exact .address target
        · cases h
      · obtain ⟨r, outcome, location⟩ := Prepared.exchange_eq_url_iff.1 hreq
        exact .astray hp outcome location
    | .error (.body refusal) =>
      rw [hx, settle] at h
      split at h
      · next type =>
        cases h
        rcases bind_eq_error_iff.1 hx with hreq | ⟨p, _, hreq⟩
        · rcases Http.prepare_json_error_iff.1 hreq with target | ⟨u, _, target, body, h⟩
          · obtain ⟨_, h⟩ := Http.targetUrl_error target
            cases h
          · cases h
            exact .options target body type
        · exact absurd hreq Prepared.exchange_ne_body
      · cases h
    | .error (.header ..) | .error (.exchange ..) =>
      rw [hx] at h
      cases h
    | .ok (url, r') =>
      rw [hx] at h
      obtain ⟨success, d, json, hd⟩ := settle_ok_eq_crashed_iff.1 h
      obtain ⟨p, hp, hok⟩ := bind_eq_ok_iff.1 hx
      obtain ⟨r, outcome, _, rfl, rfl⟩ := Prepared.exchange_eq_ok_iff.1 hok
      obtain ⟨content, field, present, type, rfl⟩ := codeOfAnswer_eq_crashed_iff.1 hd
      exact .reply hp outcome success json field present type
  · intro h
    cases h with
    | address target =>
      have hreq : o.request prompt = .error (.url _) :=
        Http.prepare_json_error_iff.2 (.inl target)
      rw [hreq]
      rfl
    | options target body type =>
      have hreq : o.request prompt = .error (.body _) :=
        Http.prepare_json_error_iff.2 (.inr ⟨_, _, target, body, rfl⟩)
      rw [hreq]
      exact if_pos type
    | astray made outcome location =>
      have hx := Prepared.exchange_eq_url_iff.2 ⟨_, outcome, location⟩
      rw [made]
      change settle (Prepared.exchange _ w) = _
      rw [hx]
      rfl
    | reply made outcome success json field present type =>
      have hx := Prepared.exchange_eq_ok_iff.2
        ⟨_, outcome, Prepared.astray?_success success, rfl, rfl⟩
      rw [made]
      change settle (Prepared.exchange _ w) = _
      rw [hx]
      exact settle_ok_eq_crashed_iff.2
        ⟨success, _, json, codeOfAnswer_eq_crashed_iff.2 ⟨_, field, present, type, rfl⟩⟩

end Ollama

/-! ## Hosted models -/

namespace Hosted

/-- Whether a block says that it is a text and holds nothing. -/
def isHollow (b : Block) : Bool := isText b && b.text.isNone

/-- What the blocks that say they are texts hold. -/
def held (blocks : List Block) : List Datum := (blocks.filter isText).filterMap Block.text

/-- The contents of blocks fail at the first hollow one. -/
theorem contents_eq (blocks : List Block) :
    contents blocks =
      match blocks.find? isHollow with
      | some b => .error (.emptyBlock b.typeName)
      | none => .ok (held blocks) := by
  induction blocks with
  | nil => rfl
  | cons b rest ih =>
    unfold contents held
    cases ht : isText b with
    | false =>
      have hb : isHollow b = false := by rw [isHollow, ht, Bool.false_and]
      rw [List.find?_cons_of_neg (ne_true_of_eq_false hb), if_neg Bool.false_ne_true, ih, held,
        List.filter_cons_of_neg (ne_true_of_eq_false ht)]
    | true =>
      rw [if_pos rfl]
      cases hd : b.text with
      | none =>
        have hb : isHollow b = true := by rw [isHollow, ht, hd]; rfl
        rw [List.find?_cons_of_pos hb]
      | some d =>
        have hb : isHollow b = false := by rw [isHollow, ht, hd]; rfl
        rw [List.find?_cons_of_neg (ne_true_of_eq_false hb), ih,
          List.filter_cons_of_pos ht, List.filterMap_cons_some hd, held]
        cases rest.find? isHollow <;> rfl

/-- Joining fails at the first value that is no text. -/
theorem join_eq_error_iff {n : Nat} {ds : List Datum} {crash : Crash} :
    join n ds = .error crash ↔
      ∃ (texts : List String) (d : Datum) (rest : List Datum),
        ds = texts.map Datum.str ++ d :: rest ∧ (∀ text, d ≠ .str text) ∧
        crash = .foreignBlock (n + texts.length) d.typeName := by
  induction ds generalizing n with
  | nil =>
    refine iff_of_false nofun ?_
    rintro ⟨texts, d, rest, h, -⟩
    exact List.append_ne_nil_of_right_ne_nil _ (List.cons_ne_nil d rest) h.symm
  | cons d ds ih =>
    by_cases hd : ∃ text, d = .str text
    · obtain ⟨text, rfl⟩ := hd
      rw [join]
      constructor
      · intro h
        obtain ⟨texts, d, rest, rfl, hd, rfl⟩ := ih.1 (map_eq_error_iff.1 h)
        exact ⟨text :: texts, d, rest, rfl, hd, by rw [List.length_cons]; congr 1; omega⟩
      · rintro ⟨texts, d, rest, h, hd, rfl⟩
        cases texts with
        | nil =>
          cases h
          exact absurd rfl (hd text)
        | cons t texts =>
          cases h
          refine map_eq_error_iff.2 (ih.2 ⟨texts, d, rest, rfl, hd, ?_⟩)
          rw [List.length_cons]
          congr 1
          omega
    · have hd : ∀ text, d ≠ .str text := fun text h => hd ⟨text, h⟩
      have hjoin : join n (d :: ds) = .error (.foreignBlock n d.typeName) := by
        cases d with
        | str text => exact absurd rfl (hd text)
        | _ => rfl
      rw [hjoin]
      constructor
      · intro h
        exact ⟨[], d, ds, rfl, hd, (Except.error.inj h).symm⟩
      · rintro ⟨texts, d', rest, h, hd', rfl⟩
        cases texts with
        | nil =>
          cases h
          rfl
        | cons t texts =>
          cases h
          exact absurd rfl (hd t)

/-- What escapes the call of a hosted model: the service is there and answers with blocks, and one
that says it is a text is hollow, or else one of them holds something else than a text. -/
inductive Escapes (w : World) : Crash → Prop where
  | hollow {blocks : List Block} {b : Block} (there : w.hasServices = true)
      (answer : w.complete.1 = .blocks blocks) (first : blocks.find? isHollow = some b) :
    Escapes w (.emptyBlock b.typeName)
  | foreign {blocks : List Block} {texts : List String} {d : Datum} {rest : List Datum}
      (there : w.hasServices = true) (answer : w.complete.1 = .blocks blocks)
      (full : blocks.find? isHollow = none)
      (first : held blocks = texts.map Datum.str ++ d :: rest)
      (type : ∀ text, d ≠ .str text) : Escapes w (.foreignBlock texts.length d.typeName)

variable {w : World} {crash : Crash}

/-- Blocks crash by a hollow one, or by one that holds something else than a text. -/
theorem codeOfBlocks_eq_crashed_iff {blocks : List Block} :
    codeOfBlocks blocks = .crashed crash ↔
      (∃ b, blocks.find? isHollow = some b ∧ crash = .emptyBlock b.typeName) ∨
      (blocks.find? isHollow = none ∧ join 0 (held blocks) = .error crash) := by
  unfold codeOfBlocks
  rw [contents_eq]
  cases blocks.find? isHollow with
  | some b =>
    constructor
    · intro h
      exact .inl ⟨b, rfl, (Generated.crashed.inj h).symm⟩
    · rintro (⟨_, h, rfl⟩ | ⟨h, -⟩) <;> cases h
      rfl
  | none =>
    have hnone : ¬ ∃ b, (none : Option Block) = some b ∧ crash = .emptyBlock b.typeName :=
      fun ⟨_, h, _⟩ => nomatch h
    rw [or_iff_right hnone, and_iff_right rfl]
    dsimp only
    cases join 0 (held blocks) with
    | error crash' => rw [Generated.crashed.injEq, Except.error.injEq]
    | ok text =>
      dsimp only
      split <;> exact iff_of_false nofun nofun

/-- A call of a hosted model crashes exactly if something escapes it. -/
theorem generate_eq_crashed_iff {h : Hosted} {prompt : String} :
    (h.generate prompt w).1 = .crashed crash ↔ Escapes w crash := by
  have hcomplete : (((w.call h.connection).call (h.options prompt)).complete).1 = w.complete.1 := by
    unfold World.complete World.call
    cases w.completions <;> rfl
  have hiff : ∀ blocks, w.complete.1 = .blocks blocks → w.hasServices = true →
      (codeOfBlocks blocks = .crashed crash ↔ Escapes w crash) := by
    intro blocks answer there
    rw [codeOfBlocks_eq_crashed_iff, join_eq_error_iff]
    constructor
    · rintro (⟨b, first, rfl⟩ | ⟨full, texts, d, rest, first, type, rfl⟩)
      · exact .hollow there answer first
      · rw [Nat.zero_add]
        exact .foreign there answer full first type
    · intro h
      cases h with
      | hollow _ answer' first =>
        cases answer.symm.trans answer'
        exact .inl ⟨_, first, rfl⟩
      | foreign _ answer' full first type =>
        cases answer.symm.trans answer'
        exact .inr ⟨full, _, _, _, first, type, by rw [Nat.zero_add]⟩
  have hnot : ∀ g : Generated, g ≠ .crashed crash →
      (w.hasServices = true → ∀ blocks, w.complete.1 ≠ .blocks blocks) →
      (g = .crashed crash ↔ Escapes w crash) := by
    intro g hg hw
    refine iff_of_false hg fun he => ?_
    cases he with
    | hollow there answer | foreign there answer => exact hw there _ answer
  unfold generate
  cases there : w.hasServices with
  | false => exact hnot _ nofun fun h => nomatch there.symm.trans h
  | true =>
    dsimp only
    rw [Bool.not_true, if_neg Bool.false_ne_true]
    revert hcomplete
    rcases ((w.call h.connection).call (h.options prompt)).complete with ⟨answer, w'⟩
    intro hcomplete
    cases answer with
    | failure message => exact hnot _ nofun fun _ _ ha => by cases hcomplete.trans ha
    | content text =>
      refine hnot _ ?_ fun _ _ ha => by cases hcomplete.trans ha
      dsimp only [codeOfContent]
      split <;> nofun
    | blocks blocks => exact hiff blocks hcomplete.symm there

end Hosted

/-! ## All models -/

/-- What escapes the call of a model. A scripted model is asked for it: it is given the values and
the failures that it replies. -/
inductive Provider.Escapes (prompt : String) (w : World) : Provider → Crash → Prop where
  | value {s : Scripted} {d : Datum} {rest : List ScriptedReply}
      (next : s.replies = .reply d :: rest) (type : ∀ text, d ≠ .str text) :
    Escapes prompt w (.scripted s) (.noText d.typeName)
  | failure {s : Scripted} {message : String} {rest : List ScriptedReply}
      (next : s.replies = .failure message :: rest) :
    Escapes prompt w (.scripted s) (.connection message)
  | ollama {o : Ollama} {crash : Crash} (escapes : o.Escapes prompt w crash) :
    Escapes prompt w (.ollama o) crash
  | hosted {h : Hosted} {crash : Crash} (escapes : Hosted.Escapes w crash) :
    Escapes prompt w (.hosted h) crash

/-- A call of a scripted model crashes by a reply that asks for it. -/
theorem Scripted.generate_eq_crashed_iff {s : Scripted} {prompt : String} {w : World}
    {crash : Crash} :
    (s.generate prompt).1 = .crashed crash ↔ Provider.Escapes prompt w (.scripted s) crash := by
  constructor
  · intro h
    unfold generate at h
    split at h
    · cases h
    · next next =>
      obtain ⟨type, rfl⟩ := codeOf_eq_crashed_iff.1 h
      exact .value next type
    · cases h
    · next next =>
      cases h
      exact .failure next
  · intro h
    unfold generate
    cases h with
    | value next type =>
      rw [next]
      exact codeOf_eq_crashed_iff.2 ⟨type, rfl⟩
    | failure next => rw [next]

/-- A local model whose server succeeds with a number as its reply. -/
def numbered : World := World.ofOutcomes
  [.response ⟨200, [], Utf8.encode "\x7b\"response\": 5\x7d"⟩]

/-- A service that answers with a block that says it is a text and holds none. -/
def hollowed : World :=
  { World.empty with completions := [.blocks [⟨"TextBlock", some (.str "text"), none⟩]] }

end ScriptAgent.Model
