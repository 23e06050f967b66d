import ScriptAgent.Proofs.Http.Requests

/-!
# Requests that are led on

A request that is sent with `follow = true` is one of several: each of them but the last is
answered by a response that leads on to the next (`Led`). Which requests these are is decided by the
outcomes, and at most `maxRedirects` of them are followed (`Sends`). What comes of all of them is
what comes of the last one (`Sends.send_eq`), which may lead astray, or on to one request too many.
-/

namespace ScriptAgent.Http

open Fallible

/-! ## One request -/

/-- The request that an outcome leads a request on to. -/
def Prepared.led? (p : Prepared) : Outcome → Option Prepared
  | .failure .. => none
  | .response r =>
    (received r).location?.bind fun location => (p.next r.status location).toOption

/-- The message about one request too many. -/
def exceeded : String := "Exceeded maximum allowed redirects."

/-- What comes of a request that is the last one. -/
def Prepared.fate (p : Prepared) : Outcome → Except Failure Response
  | .failure kind message => .error (.exchange kind message)
  | .response r =>
    match p.astray? r with
    | some failure => .error failure
    | none =>
      if (received r).location?.isSome then .error (.exchange .exchange exceeded)
      else .ok (received r)

/-- The last request fails where its response leads astray, or as an exchange. -/
theorem Prepared.fate_error {p : Prepared} {o : Outcome} {failure : Failure}
    (h : p.fate o = .error failure) :
    (∃ fault, failure = .url fault) ∨ ∃ kind message, failure = .exchange kind message := by
  unfold fate at h
  split at h
  · exact .inr ⟨_, _, (Except.error.inj h).symm⟩
  · split at h
    · next hr =>
      cases h
      exact (astray?_cases hr).imp_right fun ⟨message, h⟩ => ⟨_, message, h⟩
    · split at h
      · exact .inr ⟨_, _, (Except.error.inj h).symm⟩
      · cases h

end ScriptAgent.Http

namespace ScriptAgent.World

open Http

/-- The surroundings after some requests: their outcomes are gone, and they are recorded. -/
def sent (w : World) (ps : List Prepared) : World :=
  { w with
    outcomes := w.outcomes.drop ps.length
    requests := w.requests ++ ps.map Prepared.request }

theorem sent_nil (w : World) : w.sent [] = w := by
  rw [sent, List.map_nil, List.append_nil]
  rfl

theorem sent_append (w : World) (ps qs : List Prepared) :
    w.sent (ps ++ qs) = (w.sent ps).sent qs := by
  simp only [sent, List.length_append, List.map_append, List.drop_drop, List.append_assoc]

theorem send_eq (w : World) (p : Prepared) :
    w.send p.request = (w.outcomes.headD unanswered, w.sent [p]) := by
  refine Prod.ext (send_fst w p.request) ?_
  rw [send_snd, sent, ← List.drop_one]
  rfl

end ScriptAgent.World

namespace ScriptAgent.Http

open Fallible

section
variable {p q : Prepared} {w : World} {n : Nat}

/-- A request that is led on is followed by the next one. -/
theorem deliver_on (h : p.led? (w.outcomes.headD World.unanswered) = some q) :
    deliver true (n + 1) p w = deliver true n q (w.sent [p]) := by
  rw [deliver, World.send_eq]
  revert h
  cases w.outcomes.headD World.unanswered with
  | failure kind message =>
    intro h
    cases h
  | response r =>
    intro h
    obtain ⟨location, hlocation, h⟩ := Option.bind_eq_some_iff.1 h
    dsimp only
    rw [hlocation]
    dsimp only
    rw [show (received r).status = r.status from rfl]
    cases hn : p.next r.status location with
    | error failure => rw [hn] at h; cases h
    | ok q' => rw [hn] at h; cases h; rfl

/-- A request that is not led on, or one too many, is the last one. -/
theorem deliver_last (h : n = 0 ∨ p.led? (w.outcomes.headD World.unanswered) = none) :
    deliver true n p w =
      ((p.fate (w.outcomes.headD World.unanswered)).map fun r => (p.url, r), w.sent [p]) := by
  rw [deliver, World.send_eq]
  revert h
  cases w.outcomes.headD World.unanswered with
  | failure kind message => exact fun _ => rfl
  | response r =>
    intro h
    have hstatus : (received r).status = r.status := rfl
    unfold Prepared.fate Prepared.astray?
    unfold Prepared.led? at h
    dsimp only at h ⊢
    cases hlocation : (received r).location? with
    | none => rfl
    | some location =>
      rw [hlocation] at h
      rw [Option.bind_some] at h ⊢
      dsimp only
      rw [hstatus]
      cases hn : p.next r.status location with
      | error failure => rfl
      | ok q =>
        rw [hn] at h
        rcases h with rfl | h
        · rfl
        · cases h

end

/-! ## All requests -/

/-- Requests are led on from the first one to the last one, each by the next of the outcomes. The
list is of all but the last one. -/
inductive Led : Prepared → List Outcome → List Prepared → Prepared → Prop where
  | last (p : Prepared) (os : List Outcome) : Led p os [] p
  | on {p q last : Prepared} {o : Outcome} {os : List Outcome} {ps : List Prepared}
      (next : p.led? o = some q) (rest : Led q os ps last) : Led p (o :: os) (p :: ps) last

/-- Requests that are led on are sent one after the other. -/
theorem Led.deliver_eq {p last : Prepared} {os : List Outcome} {ps : List Prepared}
    (h : Led p os ps last) (n : Nat) {w : World} (hw : w.outcomes = os) :
    deliver true (ps.length + n) p w = deliver true n last (w.sent ps) := by
  induction h generalizing w with
  | last p os => rw [World.sent_nil, List.length_nil, Nat.zero_add]
  | @on p q last o os ps next _ ih =>
    have hled : p.led? (w.outcomes.headD World.unanswered) = some q := by rw [hw]; exact next
    have hrest : (w.sent [p]).outcomes = os := by rw [World.sent, hw]; rfl
    rw [List.length_cons, Nat.add_right_comm, deliver_on hled, ih hrest, ← World.sent_append]
    rfl

/-- Requests are led on until one is the last, or as many are followed as may be. The induction is
on how many may still be followed. -/
theorem exists_led (n : Nat) (p : Prepared) (os : List Outcome) :
    ∃ ps last, Led p os ps last ∧ ps.length ≤ n ∧
      (ps.length = n ∨ last.led? ((os.drop ps.length).headD World.unanswered) = none) := by
  induction n generalizing p os with
  | zero => exact ⟨[], p, .last p os, Nat.le_refl _, .inl rfl⟩
  | succ n ih =>
    cases os with
    | nil => exact ⟨[], p, .last p [], Nat.zero_le _, .inr rfl⟩
    | cons o os =>
      cases hled : p.led? o with
      | none => exact ⟨[], p, .last p _, Nat.zero_le _, .inr hled⟩
      | some q =>
        obtain ⟨ps, last, h, hlength, hlast⟩ := ih q os
        exact ⟨p :: ps, last, .on hled h, Nat.succ_le_succ hlength,
          hlast.imp_left fun h => by rw [List.length_cons, h]⟩

/-- A request is made, and is led on over some others to a last one, which has an outcome. -/
structure Sends (method url : String) (hs : Headers) (body : Body) (w : World) (p : Prepared)
    (ps : List Prepared) (last : Prepared) (o : Outcome) : Prop where
  ready : prepare method url hs body = .ok p
  led : Led p w.outcomes ps last
  few : ps.length ≤ maxRedirects
  ends : ps.length = maxRedirects ∨ last.led? o = none
  outcome : o = (w.outcomes.drop ps.length).headD World.unanswered

section
variable {method url : String} {hs : Headers} {body : Body} {p : Prepared}

/-- A request that is made is led on to a last one. -/
theorem exists_sends (w : World) (ready : prepare method url hs body = .ok p) :
    ∃ ps last o, Sends method url hs body w p ps last o := by
  obtain ⟨ps, last, led, few, ends⟩ := exists_led maxRedirects p w.outcomes
  exact ⟨ps, last, _, ready, led, few, ends, rfl⟩

/-- What comes of a request is what comes of the last one that it is led on to, and all of them are
sent. -/
theorem Sends.send_eq {w : World} {ps : List Prepared} {last : Prepared} {o : Outcome}
    (h : Sends method url hs body w p ps last o) :
    send true method url hs body w =
      ((last.fate o).map fun r => (last.url, r), w.sent (ps ++ [last])) := by
  obtain ⟨n, hn⟩ := Nat.exists_eq_add_of_le h.few
  have hlast : n = 0 ∨ last.led? ((w.sent ps).outcomes.headD World.unanswered) = none :=
    h.ends.imp (fun hlength => by omega) fun hled => h.outcome ▸ hled
  rw [send, h.ready]
  dsimp only
  rw [hn, h.led.deliver_eq n rfl, deliver_last hlast, World.sent_append, h.outcome]
  rfl

/-- Nothing stands in the way of a request that is sent. -/
theorem Sends.sendable {w : World} {ps : List Prepared} {last : Prepared} {o : Outcome}
    (h : Sends method url hs body w p ps last o) (hbody : body.Readable) :
    ¬ Unsendable url hs body := by
  rcases prepare_cases method url hs hbody with ⟨-, failure, hfailure, -⟩ | ⟨sendable, -⟩
  · rw [h.ready] at hfailure
    cases hfailure
  · exact sendable

/-- What comes of a request is decided by what it is made of and by the outcomes. -/
theorem Sends.fate_unique {w : World} {p' last last' : Prepared} {ps ps' : List Prepared}
    {o o' : Outcome} (h : Sends method url hs body w p ps last o)
    (h' : Sends method url hs body w p' ps' last' o') : last.fate o = last'.fate o' := by
  have heq := congrArg Prod.fst (h.send_eq.symm.trans h'.send_eq)
  dsimp only at heq
  cases hfate : last.fate o with
  | error failure =>
    rw [hfate] at heq
    exact (map_eq_error_iff.1 heq.symm).symm
  | ok r =>
    rw [hfate] at heq
    cases hfate' : last'.fate o' with
    | error failure => rw [hfate'] at heq; cases heq
    | ok r' =>
      rw [hfate'] at heq
      exact congrArg Except.ok (congrArg Prod.snd (Except.ok.inj heq))

end

end ScriptAgent.Http
