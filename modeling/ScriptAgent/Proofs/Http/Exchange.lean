import ScriptAgent.Http.Client
import ScriptAgent.Http.Content
import ScriptAgent.Proofs.Fallible

/-!
# A single exchange

What becomes of a request that is not led on (`Http.send` with `follow = false`). A request with a
JSON body is made unless its address cannot be read or its body cannot be written
(`prepare_json_error_iff`). Once it is made, one outcome decides the exchange: a failure of the
connection, or a response, which is handed on unless it leads on to what is no address
(`send_single`). A location is looked at even though it is not followed.
-/

namespace ScriptAgent.Http

open Fallible

/-! ## Making a request -/

/-- The target of a request fails for its address alone. -/
theorem targetUrl_error {url : String} {failure : Failure} (h : targetUrl url = .error failure) :
    ∃ fault, failure = .url fault := by
  unfold targetUrl at h
  split at h
  · exact ⟨_, (Except.error.inj h).symm⟩
  · split at h
    · cases h
    · split at h
      · exact ⟨_, (Except.error.inj h).symm⟩
      · cases h

/-- A JSON body fails where it cannot be written. -/
theorem describeBody_json_error_iff (headers : Headers) {d : Datum} {failure : Failure} :
    describeBody headers (.json d) = .error failure ↔
      ∃ refusal, Json.write .body d = .error refusal ∧ failure = .body refusal := by
  unfold describeBody
  dsimp only
  cases Json.write .body d with
  | error refusal =>
    exact ⟨fun h => ⟨refusal, rfl, (Except.error.inj h).symm⟩, by rintro ⟨_, h, rfl⟩; cases h; rfl⟩
  | ok s => exact ⟨nofun, by rintro ⟨_, h, _⟩; cases h⟩

/-- A request with a JSON body is made unless its address cannot be read or its body cannot be
written; the address is looked at first. -/
theorem prepare_json_error_iff {method url : String} {d : Datum} {failure : Failure} :
    prepare method url [] (.json d) = .error failure ↔
      targetUrl url = .error failure ∨
        ∃ u refusal, targetUrl url = .ok u ∧ Json.write .body d = .error refusal ∧
          failure = .body refusal := by
  have hheaders : asciiHeaders [] = .ok [] := rfl
  unfold prepare
  rw [bind_eq_error_iff, hheaders]
  refine or_congr Iff.rfl (exists_congr fun u => ?_)
  rw [exists_and_left]
  refine and_congr Iff.rfl ?_
  rw [← describeBody_json_error_iff [], bind_eq_error_iff]
  constructor
  · rintro (h | ⟨_, h, hrest⟩)
    · cases h
    · cases h
      rcases bind_eq_error_iff.1 hrest with h | ⟨_, _, h⟩
      · exact h
      · cases h
  · exact fun h => .inr ⟨[], rfl, bind_eq_error_iff.2 (.inl h)⟩

/-! ## Its outcome -/

/-- Why the location in a response to a request is no address, if it states one that is none. -/
def Prepared.astray? (p : Prepared) (r : Response) : Option Failure :=
  (received r).location?.bind fun location =>
    match p.next r.status location with
    | .error failure => some failure
    | .ok _ => none

/-- What comes of a request that is sent once. -/
def Prepared.exchange (p : Prepared) (w : World) : Except Failure (Url × Response) :=
  match (w.send p.request).1 with
  | .failure kind message => .error (.exchange kind message)
  | .response r =>
    match p.astray? r with
    | some failure => .error failure
    | none => .ok (p.url, received r)

/-- Without following, one request is sent, and its outcome decides. -/
theorem deliver_single (n : Nat) (p : Prepared) (w : World) :
    deliver false n p w = (p.exchange w, (w.send p.request).2) := by
  have hstatus : ∀ r, (received r).status = r.status := fun _ => rfl
  unfold deliver Prepared.exchange Prepared.astray?
  rcases w.send p.request with ⟨outcome, w'⟩
  cases outcome with
  | failure kind message => rfl
  | response r =>
    dsimp only
    cases (received r).location? with
    | none => rfl
    | some location =>
      rw [Option.bind_some]
      dsimp only
      rw [hstatus]
      cases p.next r.status location with
      | error failure => rfl
      | ok q => rfl

/-- Without following, a request fails before it is sent or by its one outcome. -/
theorem send_single (method url : String) (headers : Headers) (body : Body) (w : World) :
    (send false method url headers body w).1 =
      prepare method url headers body >>= fun p => p.exchange w := by
  unfold send
  cases prepare method url headers body with
  | error failure => rfl
  | ok p => exact congrArg Prod.fst (deliver_single maxRedirects p w)

/-- What a request that is sent once ends with: the failure of its outcome, that of a location which
leads astray, or the response. -/
theorem Prepared.exchange_cases (p : Prepared) (w : World) :
    (∃ kind message, (w.send p.request).1 = .failure kind message ∧
      p.exchange w = .error (.exchange kind message)) ∨
    (∃ r failure, (w.send p.request).1 = .response r ∧ p.astray? r = some failure ∧
      p.exchange w = .error failure) ∨
    ∃ r, (w.send p.request).1 = .response r ∧ p.astray? r = none ∧
      p.exchange w = .ok (p.url, received r) := by
  unfold exchange
  cases (w.send p.request).1 with
  | failure kind message => exact .inl ⟨kind, message, rfl, rfl⟩
  | response r =>
    dsimp only
    cases h : p.astray? r with
    | some failure => exact .inr (.inl ⟨r, failure, rfl, h, rfl⟩)
    | none => exact .inr (.inr ⟨r, rfl, h, rfl⟩)

section
variable {p : Prepared} {w : World}

/-- A request that is sent once gives its response, unless that leads astray. -/
theorem Prepared.exchange_eq_ok_iff {u : Url} {r' : Response} :
    p.exchange w = .ok (u, r') ↔
      ∃ r, (w.send p.request).1 = .response r ∧ p.astray? r = none ∧ u = p.url ∧
        r' = received r := by
  obtain ⟨kind, message, ho, hx⟩ | ⟨r, failure, ho, hr, hx⟩ | ⟨r, ho, hr, hx⟩ :=
    p.exchange_cases w
  · simp [ho, hx]
  · simp [ho, hr, hx]
  · simp [ho, hr, hx, eq_comm]

/-- A success leads nowhere. -/
theorem Prepared.astray?_success {r : Response} (h : r.isSuccess = true) :
    p.astray? r = none := by
  have hcode : [301, 302, 303, 307, 308].contains (received r).status = false := by
    have hs : r.status ≤ 299 := by
      simp only [Response.isSuccess, Bool.and_eq_true, decide_eq_true_eq] at h
      exact h.2
    refine Bool.eq_false_iff.2 fun hmem => ?_
    simp only [List.contains_iff_mem, List.mem_cons, List.not_mem_nil, or_false] at hmem
    have hr : (received r).status = r.status := rfl
    omega
  have hnone : (received r).location? = none := by
    unfold Response.location?
    rw [hcode]
    rfl
  rw [astray?, hnone, Option.bind_none]

/-- A computation of an address fails for the form of an address alone. -/
def FailsByForm {α : Type} (x : Except Failure α) : Prop :=
  ∀ failure, x = .error failure → ∃ fault, failure = .url fault

theorem FailsByForm.ok {α : Type} (a : α) : FailsByForm (.ok a) := nofun

theorem FailsByForm.lift (r : Except Url.Fault Url) :
    FailsByForm (match r with | .ok v => .ok v | .error fault => .error (.url fault)) := by
  intro failure h
  split at h
  · cases h
  · exact ⟨_, (Except.error.inj h).symm⟩

theorem FailsByForm.bind {α β : Type} {x : Except Failure α} {f : α → Except Failure β}
    (hx : FailsByForm x) (hf : ∀ a, FailsByForm (f a)) : FailsByForm (x >>= f) := by
  intro failure h
  rcases bind_eq_error_iff.1 h with h | ⟨a, -, h⟩
  · exact hx failure h
  · exact hf a failure h

theorem FailsByForm.ite {α : Type} {c : Prop} [Decidable c] {x y : Except Failure α}
    (hx : FailsByForm x) (hy : FailsByForm y) : FailsByForm (if c then x else y) := by
  split
  · exact hx
  · exact hy

/-- The address in a location fails for its form, or as an exchange. -/
theorem nextUrl_error {u : Url} {location : String} {failure : Failure}
    (h : nextUrl u location = .error failure) :
    (∃ fault, failure = .url fault) ∨ ∃ message, failure = .exchange .exchange message := by
  unfold nextUrl at h
  dsimp only at h
  split at h
  · exact .inr ⟨_, (Except.error.inj h).symm⟩
  · refine .inl (FailsByForm.ite (.bind (.lift _) fun v => .ite ?_ ?_)
      (.bind (.ok _) fun v => .ite ?_ ?_) failure h)
    -- The fragment that is taken over never fails.
    · exact .bind (.ok v) fun v => by split <;> exact .ok _
    · exact .bind (.lift _) fun v => by split <;> exact .ok _
    · exact .bind (.ok v) fun v => by split <;> exact .ok _
    · exact .bind (.lift _) fun v => by split <;> exact .ok _

/-- A location that is no address is refused for its form, or as an exchange that fails. -/
theorem Prepared.astray?_cases {r : Response} {failure : Failure}
    (h : p.astray? r = some failure) :
    (∃ fault, failure = .url fault) ∨ ∃ message, failure = .exchange .exchange message := by
  obtain ⟨location, -, h⟩ := Option.bind_eq_some_iff.1 h
  split at h
  · next hn =>
    cases h
    unfold Prepared.next at hn
    rcases bind_eq_error_iff.1 hn with hu | ⟨u, -, hn⟩
    · exact nextUrl_error hu
    · split at hn <;> cases hn
  · cases h

/-- A request that is sent once fails for an address only where its response leads astray. -/
theorem Prepared.exchange_eq_url_iff {fault : Url.Fault} :
    p.exchange w = .error (.url fault) ↔
      ∃ r, (w.send p.request).1 = .response r ∧ p.astray? r = some (.url fault) := by
  obtain ⟨kind, message, ho, hx⟩ | ⟨r, failure, ho, hr, hx⟩ | ⟨r, ho, hr, hx⟩ :=
    p.exchange_cases w
  · simp [ho, hx]
  · simp [ho, hr, hx]
  · simp [ho, hr, hx]

/-- A request that is sent once does not fail for its body. -/
theorem Prepared.exchange_ne_body {refusal : Json.Refusal} :
    p.exchange w ≠ .error (.body refusal) := by
  obtain ⟨kind, message, ho, hx⟩ | ⟨r, failure, ho, hr, hx⟩ | ⟨r, ho, hr, hx⟩ :=
    p.exchange_cases w
  · simp [hx]
  · obtain ⟨_, rfl⟩ | ⟨_, rfl⟩ := astray?_cases hr <;> simp [hx]
  · simp [hx]

/-- A request that is sent once finds no connection exactly if its outcome says so. -/
theorem Prepared.exchange_eq_connection_iff {message : String} :
    p.exchange w = .error (.exchange .connection message) ↔
      (w.send p.request).1 = .failure .connection message := by
  obtain ⟨kind, text, ho, hx⟩ | ⟨r, failure, ho, hr, hx⟩ | ⟨r, ho, hr, hx⟩ := p.exchange_cases w
  · simp [ho, hx]
  · obtain ⟨_, rfl⟩ | ⟨_, rfl⟩ := astray?_cases hr <;> simp [ho, hx]
  · simp [ho, hx]

end

end ScriptAgent.Http
