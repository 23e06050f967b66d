import ScriptAgent.Proofs.Http.Exchange
import ScriptAgent.Proofs.Json.Readable

/-!
# Making requests

What stands in the way of a request is in what it is made of (`Unsendable`): an address that cannot
be read, a header that is not in ASCII, or a number that is not finite in a body that is sent as
JSON. Every other request is made, and carries its body (`prepare_cases`).
-/

namespace ScriptAgent.Http

open Fallible

/-! ## Headers -/

/-- All characters of a text are of ASCII. -/
def IsAscii (s : String) : Prop := ∀ c ∈ s.toList, isAscii c = true

/-- A text is taken over if it is of ASCII, and is at fault otherwise. -/
theorem asciiText_cases (s : String) :
    (IsAscii s ∧ asciiText s = .ok s) ∨
      (¬ IsAscii s ∧ ∃ first last, asciiText s = .error (.header s first last)) := by
  unfold asciiText
  dsimp only
  cases h : s.toList.findIdx? fun c => !isAscii c with
  | none =>
    refine .inl ⟨fun c hc => ?_, rfl⟩
    simpa using List.findIdx?_eq_none_iff.1 h c hc
  | some first =>
    refine .inr ⟨fun hs => ?_, _, _, rfl⟩
    have hnone : (s.toList.findIdx? fun c => !isAscii c) = none :=
      List.findIdx?_eq_none_iff.2 fun c hc => by rw [hs c hc]; rfl
    rw [hnone] at h
    cases h

/-- A header is in ASCII: its name and its value are. -/
def InAscii (e : String × String) : Prop := IsAscii e.1 ∧ IsAscii e.2

/-- Headers with their names in lower case. -/
def Headers.lowered (hs : Headers) : Headers := hs.map fun e => (e.1.toLower, e.2)

/-- Headers in ASCII are taken over with their names in lower case; otherwise a text is at fault. -/
theorem asciiHeaders_cases (hs : Headers) :
    ((∀ e ∈ hs, InAscii e) ∧ asciiHeaders hs = .ok hs.lowered) ∨
      ((∃ e ∈ hs, ¬ InAscii e) ∧
        ∃ text first last, asciiHeaders hs = .error (.header text first last)) := by
  unfold asciiHeaders
  induction hs with
  | nil => exact .inl ⟨List.forall_mem_nil _, rfl⟩
  | cons e rest ih =>
    obtain ⟨name, value⟩ := e
    rw [List.mapM_cons]
    dsimp only
    rcases asciiText_cases name with ⟨hname, hn⟩ | ⟨hname, first, last, hn⟩
    · rcases asciiText_cases value with ⟨hvalue, hv⟩ | ⟨hvalue, first, last, hv⟩
      · rw [hn, hv]
        rcases ih with ⟨hrest, h⟩ | ⟨⟨e, he, hrest⟩, text, first, last, h⟩
        · exact .inl ⟨List.forall_mem_cons.2 ⟨⟨hname, hvalue⟩, hrest⟩, by rw [h]; rfl⟩
        · exact .inr ⟨⟨e, List.mem_cons_of_mem _ he, hrest⟩, text, first, last, by rw [h]; rfl⟩
      · exact .inr ⟨⟨_, List.mem_cons_self, fun h => hvalue h.2⟩, value, first, last,
          by rw [hn, hv]; rfl⟩
    · exact .inr ⟨⟨_, List.mem_cons_self, fun h => hname h.1⟩, name, first, last, by rw [hn]; rfl⟩

section
variable {h : Headers} {name value : String}

/-- There is a header of a name if the name comes with a value. -/
theorem Headers.has_iff : h.has name = true ↔ ∃ value, (name, value) ∈ h := by
  rw [has, List.any_eq_true]
  constructor
  · rintro ⟨⟨n, value⟩, he, hn⟩
    exact ⟨value, eq_of_beq hn ▸ he⟩
  · rintro ⟨value, he⟩
    exact ⟨_, he, beq_self_eq_true name⟩

/-- With a default, a header has the default or a value that was there. -/
theorem Headers.exists_withDefault (h : Headers) (name value : String) :
    ∃ v, (name, v) ∈ h.withDefault name value ∧ (v = value ∨ (name, v) ∈ h) := by
  unfold withDefault
  split
  · next hname =>
    obtain ⟨v, hv⟩ := has_iff.1 hname
    exact ⟨v, hv, .inr hv⟩
  · exact ⟨value, List.mem_append_right _ List.mem_cons_self, .inl rfl⟩

/-- A default adds no header of another name. -/
theorem Headers.of_mem_withDefault {e : String × String} (hname : e.1 ≠ name)
    (he : e ∈ h.withDefault name value) : e ∈ h := by
  unfold withDefault at he
  split at he
  · exact he
  · rcases List.mem_append.1 he with he | he
    · exact he
    · exact absurd (congrArg Prod.fst (List.mem_singleton.1 he)) hname

/-- The headers for the body stay beside those that are added for the request as a whole. -/
theorem mem_authorize_frame {e : String × String} (he : e ∈ h) (hname : e.1 ≠ "authorization")
    (u : Url) (method : String) : e ∈ authorize u (frame method h) := by
  have hframe : e ∈ frame method h := by
    unfold frame
    split
    · exact List.mem_cons_of_mem _ he
    · exact he
  unfold authorize
  dsimp only
  split
  · exact hframe
  · exact List.mem_append_left _ (List.mem_filter.2 ⟨hframe, bne_iff_ne.2 hname⟩)

end

/-! ## Bodies -/

/-- What JSON can hold is all that is sent as JSON. -/
def Body.Readable (body : Body) : Prop := ∀ d, body = .json d → Json.Readable d

/-- A request that is made with some headers carries a body: nothing, the bytes of a text, or a text
of JSON that is read as the value. The type of JSON is stated unless the headers state another. -/
inductive Carries (hs : Headers) (p : Prepared) : Body → Prop where
  | none (bytes : p.body = []) : Carries hs p .none
  | text {s : String} (bytes : p.body = Utf8.encode s) : Carries hs p (.text s)
  | json {d : Datum} {text type : String} (bytes : p.body = Utf8.encode text)
      (reads : Json.parse text = .ok d) (stated : ("content-type", type) ∈ p.headers)
      (given : type = "application/json" ∨ ∃ e ∈ hs, e.1.toLower = "content-type" ∧ e.2 = type) :
      Carries hs p (.json d)

/-- What stands in the way of a request: its address cannot be read, a header is not in ASCII, or
a number in a body of JSON is not finite. -/
inductive Unsendable (url : String) (hs : Headers) : Body → Prop where
  | address {body : Body} {fault : Url.Fault} (h : targetUrl url = .error (.url fault)) :
      Unsendable url hs body
  | header {body : Body} {e : String × String} (he : e ∈ hs) (h : ¬ InAscii e) :
      Unsendable url hs body
  | number {d : Datum} (h : ¬ Json.AllFinite d) : Unsendable url hs (.json d)

/-- A failure that is none of an exchange. -/
def Failure.IsFault (failure : Failure) : Prop := ∀ kind message, failure ≠ .exchange kind message

/-- Headers are described, with the bytes of the body, unless JSON has a number that is not
finite. -/
theorem describeBody_cases {u : Url} {method : String} {body : Body} (hbody : body.Readable)
    (hs : Headers) :
    ((∀ d, body = .json d → Json.AllFinite d) ∧ ∃ headers bytes,
        describeBody hs.lowered body = .ok (headers, bytes) ∧
        Carries hs ⟨method, u, authorize u (frame method headers), bytes⟩ body) ∨
      ∃ d refusal, body = .json d ∧ ¬ Json.AllFinite d ∧
        describeBody hs.lowered body = .error (.body refusal) := by
  cases body with
  | none => exact .inl ⟨nofun, _, [], rfl, .none rfl⟩
  | text s =>
    unfold describeBody
    dsimp only
    split
    · exact .inl ⟨nofun, _, _, rfl, .text rfl⟩
    · exact .inl ⟨nofun, _, _, rfl, .text rfl⟩
  | json d =>
    unfold describeBody
    dsimp only
    rcases (hbody d rfl).write_body with ⟨hd, text, hwritten, hread⟩ | ⟨hd, refusal, hrefused⟩
    · rw [hwritten]
      obtain ⟨type, hmem, htype⟩ := Headers.exists_withDefault (hs.lowered.withDefault
        "content-length" (toString (Utf8.encode text).length)) "content-type" "application/json"
      have hname : "content-type" ≠ "authorization" := by decide
      refine .inl ⟨fun _ h => Body.json.inj h ▸ hd, _, _, rfl,
        .json rfl hread (mem_authorize_frame hmem hname u method) ?_⟩
      refine htype.imp_right fun hmem => ?_
      have hlength : "content-type" ≠ "content-length" := by decide
      obtain ⟨e, he, heq⟩ := List.mem_map.1 (Headers.of_mem_withDefault hlength hmem)
      exact ⟨e, he, congrArg Prod.fst heq, congrArg Prod.snd heq⟩
    · rw [hrefused]
      exact .inr ⟨d, refusal, rfl, hd, rfl⟩

/-! ## Requests -/

/-- A request is made, and carries its body, unless something stands in its way. -/
theorem prepare_cases (method url : String) (hs : Headers) {body : Body} (hbody : body.Readable) :
    (Unsendable url hs body ∧ ∃ failure, prepare method url hs body = .error failure ∧
        failure.IsFault) ∨
      (¬ Unsendable url hs body ∧ ∃ p, prepare method url hs body = .ok p ∧ p.method = method ∧
        Carries hs p body) := by
  unfold prepare
  cases hu : targetUrl url with
  | error failure =>
    obtain ⟨fault, rfl⟩ := targetUrl_error hu
    exact .inl ⟨.address hu, .url fault, rfl, nofun⟩
  | ok u =>
    rcases asciiHeaders_cases hs with ⟨hascii, hh⟩ | ⟨⟨e, he, hascii⟩, text, first, last, hh⟩
    · rw [hh]
      rcases describeBody_cases (u := u) hbody hs with
        ⟨hfinite, headers, bytes, hdescribed, hcarries⟩ | ⟨d, refusal, rfl, hd, hdescribed⟩
      · refine .inr ⟨fun hun => ?_, ⟨method, u, authorize u (frame method headers), bytes⟩, ?_, rfl,
          hcarries⟩
        · cases hun with
          | address h => rw [hu] at h; cases h
          | header he h => exact h (hascii _ he)
          | number h => exact h (hfinite _ rfl)
        · exact bind_eq_ok_iff.2 ⟨_, rfl, bind_eq_ok_iff.2 ⟨_, rfl,
            bind_eq_ok_iff.2 ⟨_, hdescribed, rfl⟩⟩⟩
      · refine .inl ⟨.number hd, .body refusal, ?_, nofun⟩
        exact bind_eq_error_iff.2 (.inr ⟨_, rfl, bind_eq_error_iff.2 (.inr ⟨_, rfl,
          bind_eq_error_iff.2 (.inl hdescribed)⟩)⟩)
    · rw [hh]
      exact .inl ⟨.header he hascii, .header text first last, rfl, nofun⟩

end ScriptAgent.Http
