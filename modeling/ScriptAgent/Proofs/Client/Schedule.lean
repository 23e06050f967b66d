import ScriptAgent.Proofs.Client.Attempts
import ScriptAgent.Proofs.Http.Exchange

/-!
# The schedule of attempts

How often a client posts, and what it waits for (`post_attempts`): on every line, the record of a
call is the schedule up to the first attempt that finds a connection, or up to the last one that may
be made. On the line to the service, the outcomes of the requests decide which attempt that is, and
each attempt sends the one request that is made of the address and the data.
-/

namespace ScriptAgent.Client

open Http (Prepared)

variable {url : String} {data : Datum} {n : Int} {w : World} {p : Prepared} {k : Nat}

/-- The outcome of the request that is sent after `k` others. -/
def outcomeAt (w : World) (k : Nat) : Http.Outcome := w.outcomes.getD k World.unanswered

/-- The request that is sent after `k` others finds no connection. -/
def Unanswered (w : World) (k : Nat) : Prop :=
  ∃ message, outcomeAt w k = .failure .connection message

/-- What is logged at the end of a call neither sends nor pauses. -/
theorem settle_line (a : Attempt) (w : World) :
    (line.settle a w).2.requests = w.requests ∧ (line.settle a w).2.pauses = w.pauses := by
  unfold Line.settle
  split <;> exact ⟨rfl, rfl⟩

section
variable (made : Http.prepare "POST" url [] (.json data) = .ok p)
include made

/-- An attempt on the line to the service is one exchange. -/
theorem send_line (w : World) :
    line.send url data w = ((p.exchange w).map Prod.snd, (w.send p.request).2) := by
  unfold line Http.send
  simp only [made, Http.deliver_single]
  cases p.exchange w <;> rfl

/-- Before attempt `k` on the line to the service, the request has been sent and a pause been made
`k` times. -/
theorem before_line (n : Int) (w : World) (k : Nat) :
    (line.before url data n w k).outcomes = w.outcomes.drop k ∧
      (line.before url data n w k).requests = w.requests ++ List.replicate k p.request ∧
      (line.before url data n w k).pauses = w.pauses ++ (List.range k).map delay := by
  induction k with
  | zero => exact ⟨rfl, (List.append_nil _).symm, (List.append_nil _).symm⟩
  | succ k ih =>
    obtain ⟨houtcomes, hrequests, hpauses⟩ := ih
    have hwait : ∀ v : World, (line.wait n k v).outcomes = v.outcomes ∧
        (line.wait n k v).requests = v.requests ∧
        (line.wait n k v).pauses = v.pauses ++ [delay k] := fun _ => ⟨rfl, rfl, rfl⟩
    rw [Line.before, (hwait _).1, (hwait _).2.1, (hwait _).2.2, send_line made, World.send_snd]
    refine ⟨?_, ?_, ?_⟩
    · rw [houtcomes, List.tail_drop]
    · rw [hrequests, List.append_assoc, List.replicate_succ']
    · rw [hpauses, List.append_assoc, List.range_succ, List.map_append]
      rfl

/-- On the line to the service, the outcomes of requests say which attempts find a connection. -/
theorem unconnected_line (n : Int) (w : World) (k : Nat) :
    Unconnected (line.attempt url data n w k) ↔ Unanswered w k := by
  have houtcome : ((line.before url data n w k).send p.request).1 = outcomeAt w k := by
    rw [World.send_fst, (before_line made n w k).1, outcomeAt, List.headD_eq_head?_getD,
      List.head?_drop, List.getD_eq_getElem?_getD]
  rw [Line.attempt, send_line made]
  refine exists_congr fun message => ?_
  rw [← houtcome, ← Prepared.exchange_eq_connection_iff]
  exact Fallible.map_eq_error_iff

/-- Where attempt `k` on the line to the service is the last one, the request has been sent `k + 1`
times and a pause been made `k` times. -/
theorem post_line (last : Last n.toNat (line.attempt url data n w) k) :
    (line.post url data n w).2.requests = w.requests ++ List.replicate (k + 1) p.request ∧
      (line.post url data n w).2.pauses = w.pauses ++ (List.range k).map delay := by
  obtain ⟨-, hrequests, hpauses⟩ := before_line made n w k
  rw [Line.post_eq_settle last, (settle_line _ _).1, (settle_line _ _).2, send_line made,
    World.send_snd]
  refine ⟨?_, hpauses⟩
  rw [hrequests, List.append_assoc, List.replicate_succ']

end

/-- The attempts of a call. On every line, with `n` attempts at most:

* the record of a call is the schedule up to the first attempt that finds a connection;
* if none of `n` attempts finds one, it is the schedule up to the last of them, and the call gives
  data about the failure of that one;
* without attempts nothing is done, and the call gives data about that.

A schedule posts the same data to the same address, once more than it pauses, and its pauses are
half a second, doubled each time. On the line to the service, the posts are the request that is made
of the address and the data, and the outcomes of the requests say which of them find a
connection. -/
theorem post_attempts :
    (∀ (σ : Type) (l : Line σ) (url : String) (data : Datum) (n : Int) (s : σ),
      let call := l.recorded.post url data n (s, [])
      let attempt := l.attempt url data n s
      (call.1, call.2.1) = l.post url data n s ∧
      (∀ k < n.toNat, (∀ j < k, Unconnected (attempt j)) → ¬ Unconnected (attempt k) →
        call.2.2 = schedule url data attempt k) ∧
      (0 < n → (∀ j < n.toNat, Unconnected (attempt j)) →
        call.2.2 = schedule url data attempt (n.toNat - 1) ∧
        ∃ message, attempt (n.toNat - 1) = .error (.exchange .connection message) ∧
          call.1 = .ok (problem s!"Error connecting to API: {message}")) ∧
      (n ≤ 0 → call.2.2 = [] ∧
        call.1 = .ok (problem s!"Failed to connect to API after {n} attempts"))) ∧
    (∀ (url : String) (data : Datum) (attempt : Nat → Attempt) (k : Nat),
      posts (schedule url data attempt k) = List.replicate (k + 1) (url, data) ∧
      pauses (schedule url data attempt k) = (List.range k).map fun j => 1 / 2 * 2 ^ j) ∧
    ∀ (settings : Settings) (n : Int) (endpoint : String) (data : Datum) (w : World) (p : Prepared),
      Http.prepare "POST" (address settings endpoint) [] (.json data) = .ok p →
      let w' := (post settings n endpoint data w).2
      (∀ k < n.toNat, (∀ j < k, Unanswered w j) → ¬ Unanswered w k →
        w'.requests = w.requests ++ List.replicate (k + 1) p.request ∧
        w'.pauses = w.pauses ++ (List.range k).map delay) ∧
      ((∀ j < n.toNat, Unanswered w j) →
        w'.requests = w.requests ++ List.replicate n.toNat p.request ∧
        w'.pauses = w.pauses ++ (List.range (n.toNat - 1)).map delay) := by
  refine ⟨fun σ l url data n s => ⟨l.post_recorded url data n s [], ?_, ?_, ?_⟩,
    fun url data attempt k =>
      ⟨posts_schedule url data attempt k, pauses_schedule url data attempt k⟩,
    fun settings n endpoint data w p made => ⟨?_, ?_⟩⟩
  · intro k hk hbefore hconnected
    exact (Line.recorded_schedule ⟨hk, hbefore, fun h => absurd h hconnected⟩).2
  · intro hn hall
    have last : Last n.toNat (l.attempt url data n s) (n.toNat - 1) :=
      ⟨by omega, fun j hj => hall j (by omega), fun _ => by omega⟩
    obtain ⟨hreport, hdeeds⟩ := Line.recorded_schedule last
    obtain ⟨message, hmessage⟩ := hall _ last.lt
    rw [hmessage] at hreport
    exact ⟨hdeeds, message, hmessage, hreport⟩
  · intro hn
    rw [Line.post_of_nonpos hn]
    exact ⟨rfl, rfl⟩
  · intro k hk hbefore hconnected
    exact post_line made ⟨hk, fun j hj => (unconnected_line made n w j).2 (hbefore j hj),
      fun h => absurd ((unconnected_line made n w k).1 h) hconnected⟩
  · intro hall
    rcases Nat.eq_zero_or_pos n.toNat with hn | hn
    · rw [post, Line.post_of_nonpos (by omega), hn]
      exact ⟨(List.append_nil _).symm, (List.append_nil _).symm⟩
    · have last : Last n.toNat (line.attempt (address settings endpoint) data n w) (n.toNat - 1) :=
        ⟨by omega, fun j hj => (unconnected_line made n w j).2 (hall j (by omega)),
          fun _ => by omega⟩
      obtain ⟨hrequests, hpauses⟩ := post_line made last
      rw [Nat.sub_add_cancel hn] at hrequests
      exact ⟨hrequests, hpauses⟩

/-- A service that is not there at first and then answers. -/
def late : World :=
  World.ofOutcomes [.failure .connection "refused", .response ⟨200, [], Utf8.encode "\x7b\x7d"⟩]

/-- A call on a service that is late by one attempt posts twice, and pauses for half a second. -/
theorem post_attempts_late :
    ∃ p, Http.prepare "POST" (address default "/sessions") [] (.json (.dict [])) = .ok p ∧
      1 < (5 : Int).toNat ∧ (∀ j < 1, Unanswered late j) ∧ ¬ Unanswered late 1 ∧
      (post default 5 "/sessions" (.dict []) late).2.requests = [p.request, p.request] ∧
      (post default 5 "/sessions" (.dict []) late).2.pauses = [500] ∧
      (line.recorded.post (address default "/sessions") (.dict []) 5 (late, [])).2.2 =
        schedule (address default "/sessions") (.dict [])
          (line.attempt (address default "/sessions") (.dict []) 5 late) 1 := by
  have hsome : (Http.prepare "POST" (address default "/sessions") []
      (.json (.dict []))).toOption.isSome = true := by decide +kernel
  obtain ⟨p, hp⟩ := Option.isSome_iff_exists.1 hsome
  have made : Http.prepare "POST" (address default "/sessions") [] (.json (.dict [])) = .ok p := by
    cases hprepare : Http.prepare "POST" (address default "/sessions") [] (.json (.dict [])) with
    | error failure => rw [hprepare] at hp; cases hp
    | ok q => rw [hprepare] at hp; cases hp; rfl
  have hbefore : ∀ j < 1, Unanswered late j := by
    intro j hj
    obtain rfl : j = 0 := by omega
    exact ⟨"refused", rfl⟩
  have hconnected : ¬ Unanswered late 1 := fun ⟨_, h⟩ => nomatch h
  obtain ⟨hlines, -, hservice⟩ := post_attempts
  obtain ⟨hrequests, hpauses⟩ := (hservice default 5 "/sessions" (.dict []) late p made).1 1
    (by decide) hbefore hconnected
  refine ⟨p, made, by decide, hbefore, hconnected, hrequests, hpauses, ?_⟩
  refine (hlines World line _ _ 5 late).2.1 1 (by decide) (fun j hj => ?_) fun h => ?_
  · exact (unconnected_line made 5 late j).2 (hbefore j hj)
  · exact hconnected ((unconnected_line made 5 late 1).1 h)

end ScriptAgent.Client
