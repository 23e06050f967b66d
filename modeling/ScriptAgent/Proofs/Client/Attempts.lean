import Mathlib.Tactic.Ring
import ScriptAgent.Client

/-!
# Attempts to post

The attempts of a client go on as long as none finds a connection, and the one that ends them
settles the call (`Line.post_eq_settle`). So a call has an attempt that it ends with, unless none
may be made (`exists_last`).

`Line.recorded` is a line that keeps a record of the posts and the pauses on it, in order. A record
changes nothing (`Line.post_recorded`), and where attempt `k` is the last one, it is `schedule`: a
post for each attempt and between two of them a pause, each twice as long as the one before
(`Line.recorded_schedule`).
-/

namespace ScriptAgent.Client

variable {σ : Type}

/-- What comes of posting data once. -/
abbrev Attempt := Except Http.Failure Http.Response

/-- An attempt has found no connection. -/
def Unconnected (a : Attempt) : Prop := ∃ message, a = .error (.exchange .connection message)

/-- What a client gives where an attempt is the last one. -/
def report : Attempt → Except Crash Datum
  | .ok r => answer r
  | .error (.exchange _ message) => .ok (problem s!"Error connecting to API: {message}")
  | .error failure => .error (.request failure)

/-- Ends with an attempt. -/
def Line.settle (l : Line σ) (a : Attempt) (s : σ) : Except Crash Datum × σ :=
  match a with
  | .ok r => (answer r, s)
  | .error (.exchange .connection message) => l.giveUp "connection" message s
  | .error (.exchange .exchange message) => l.giveUp "request" message s
  | .error failure => (.error (.request failure), s)

theorem Line.settle_fst (l : Line σ) (a : Attempt) (s : σ) : (l.settle a s).1 = report a := by
  cases a with
  | ok r => rfl
  | error failure =>
    cases failure with
    | exchange kind message => cases kind <;> rfl
    | url fault | header text first last | body refusal => rfl

/-! ## One attempt after the other -/

section
variable (l : Line σ) (url : String) (data : Datum) (n : Int) (s : σ)

/-- The state in which attempt `k` is made, where none before it has found a connection. -/
def Line.before : Nat → σ
  | 0 => s
  | k + 1 => l.wait n k (l.send url data (Line.before k)).2

/-- What comes of attempt `k`. -/
def Line.attempt (k : Nat) : Attempt := (l.send url data (l.before url data n s k)).1

end

section
variable {l : Line σ} {url : String} {data : Datum} {n : Int} {s : σ} {k left : Nat}

/-- Without a connection, the next attempt is made after a pause. -/
theorem Line.tryPost_of_unconnected (unconnected : Unconnected (l.send url data s).1)
    (more : (k : Int) < n - 1) :
    l.tryPost url data n k (left + 1) s =
      l.tryPost url data n (k + 1) left (l.wait n k (l.send url data s).2) := by
  rw [tryPost]
  generalize l.send url data s = sent at unconnected ⊢
  obtain ⟨a, t⟩ := sent
  obtain ⟨message, rfl⟩ := unconnected
  exact if_pos more

/-- An attempt that finds a connection, or after which there is no other one, settles the call. -/
theorem Line.tryPost_eq_settle (last : Unconnected (l.send url data s).1 → ¬ (k : Int) < n - 1) :
    l.tryPost url data n k (left + 1) s =
      l.settle (l.send url data s).1 (l.send url data s).2 := by
  rw [tryPost]
  generalize l.send url data s = sent at last ⊢
  obtain ⟨a, t⟩ := sent
  cases a with
  | ok r => rfl
  | error failure =>
    cases failure with
    | url fault | header text first last | body refusal => rfl
    | exchange kind message =>
      cases kind with
      | connection => exact if_neg (last ⟨message, rfl⟩)
      | exchange => rfl

/-- A call has come to attempt `k` if none before it has found a connection. -/
theorem Line.post_eq_tryPost (hk : k < n.toNat)
    (unconnected : ∀ j < k, Unconnected (l.attempt url data n s j)) :
    l.post url data n s =
      l.tryPost url data n k (n.toNat - k) (l.before url data n s k) := by
  induction k with
  | zero => rfl
  | succ k ih =>
    obtain ⟨left, hleft⟩ : ∃ left, n.toNat = k + 1 + left := ⟨n.toNat - k - 1, by omega⟩
    have hnow : n.toNat - k = left + 1 := by omega
    have hnext : n.toNat - (k + 1) = left := by omega
    rw [ih (by omega) fun j hj => unconnected j (by omega), hnow, hnext]
    exact tryPost_of_unconnected (unconnected k (by omega)) (by omega)

/-- A call without attempts does nothing. -/
theorem Line.post_of_nonpos (hn : n ≤ 0) :
    l.post url data n s = (.ok (problem s!"Failed to connect to API after {n} attempts"), s) := by
  rw [post, Int.toNat_of_nonpos hn, tryPost]

end

/-- Attempt `k` is the last one of at most `n`: none before it has found a connection, and if it
finds none either, no other one may be made. -/
structure Last (n : Nat) (attempt : Nat → Attempt) (k : Nat) : Prop where
  lt : k < n
  before : ∀ j < k, Unconnected (attempt j)
  ends : Unconnected (attempt k) → k + 1 = n

/-- If an attempt may be made, one is the last. -/
theorem exists_last {n : Nat} (hn : 0 < n) (attempt : Nat → Attempt) :
    ∃ k, Last n attempt k := by
  by_contra hnone
  rw [not_exists] at hnone
  -- Then none of the attempts finds a connection, so the last of them is one to end with.
  have hall : ∀ k < n, Unconnected (attempt k) := by
    intro k
    induction k using Nat.strongRecOn with
    | ind k ih =>
      intro hk
      by_contra hconnected
      exact hnone k ⟨hk, fun j hj => ih j hj (by omega), fun h => absurd h hconnected⟩
  exact hnone (n - 1) ⟨by omega, fun j hj => hall j (by omega), fun _ => by omega⟩

section
variable {l : Line σ} {url : String} {data : Datum} {n : Int} {s : σ} {k : Nat}

/-- The last attempt settles the call. -/
theorem Line.post_eq_settle (last : Last n.toNat (l.attempt url data n s) k) :
    l.post url data n s =
      l.settle (l.attempt url data n s k) (l.send url data (l.before url data n s k)).2 := by
  have hlt := last.lt
  obtain ⟨left, hleft⟩ : ∃ left, n.toNat - k = left + 1 := ⟨n.toNat - k - 1, by omega⟩
  rw [post_eq_tryPost hlt last.before, hleft]
  refine tryPost_eq_settle fun unconnected => ?_
  have hend := last.ends unconnected
  omega

end

/-! ## A record of what is done -/

/-- What a client does on a line. -/
inductive Deed where
  | posted (url : String) (data : Datum) (attempt : Attempt)
  | paused (seconds : ℚ)

/-- Milliseconds as seconds. -/
def seconds (milliseconds : Nat) : ℚ := milliseconds / 1000

/-- The pause after an attempt is half a second, doubled for each attempt before. -/
theorem seconds_delay (k : Nat) : seconds (delay k) = 1 / 2 * 2 ^ k := by
  rw [seconds, delay, Nat.shiftLeft_eq]
  push_cast
  ring

/-- A line that keeps a record of the posts and the pauses on it. -/
def Line.recorded (l : Line σ) : Line (σ × List Deed) where
  send url data s :=
    let (a, t) := l.send url data s.1
    (a, t, s.2 ++ [.posted url data a])
  pause milliseconds s := (l.pause milliseconds s.1, s.2 ++ [.paused (seconds milliseconds)])
  log level message s := (l.log level message s.1, s.2)

/-- The posts of a record. -/
def posts (ds : List Deed) : List (String × Datum) :=
  ds.filterMap fun
    | .posted url data _ => some (url, data)
    | .paused _ => none

/-- The pauses of a record, in seconds. -/
def pauses (ds : List Deed) : List ℚ :=
  ds.filterMap fun
    | .posted .. => none
    | .paused seconds => some seconds

/-- What comes of the posts of a record. -/
def attempts (ds : List Deed) : List Attempt :=
  ds.filterMap fun
    | .posted _ _ attempt => some attempt
    | .paused _ => none

/-- What is done before attempt `k`: for each attempt before it a post, and then a pause of half a
second, doubled for each attempt before. -/
def preceding (url : String) (data : Datum) (attempt : Nat → Attempt) (k : Nat) : List Deed :=
  (List.range k).flatMap fun j => [.posted url data (attempt j), .paused (1 / 2 * 2 ^ j)]

/-- What is done up to attempt `k`. -/
def schedule (url : String) (data : Datum) (attempt : Nat → Attempt) (k : Nat) : List Deed :=
  preceding url data attempt k ++ [.posted url data (attempt k)]

section
variable (url : String) (data : Datum) (attempt : Nat → Attempt) (k : Nat)

theorem preceding_succ : preceding url data attempt (k + 1) =
    preceding url data attempt k ++ [.posted url data (attempt k), .paused (1 / 2 * 2 ^ k)] := by
  simp [preceding, List.range_succ]

/-- The schedule posts the same data to the same address once for each attempt. -/
theorem posts_schedule :
    posts (schedule url data attempt k) = List.replicate (k + 1) (url, data) := by
  have hpreceding : posts (preceding url data attempt k) = List.replicate k (url, data) := by
    induction k with
    | zero => rfl
    | succ k ih =>
      rw [preceding_succ, posts, List.filterMap_append, List.replicate_succ', ← ih]
      rfl
  rw [schedule, posts, List.filterMap_append, List.replicate_succ', ← hpreceding]
  rfl

/-- The schedule pauses once for each attempt but the last. -/
theorem pauses_schedule :
    pauses (schedule url data attempt k) = (List.range k).map fun j => 1 / 2 * 2 ^ j := by
  have hpreceding : pauses (preceding url data attempt k) =
      (List.range k).map fun j => 1 / 2 * 2 ^ j := by
    induction k with
    | zero => rfl
    | succ k ih =>
      rw [preceding_succ, pauses, List.filterMap_append, List.range_succ, List.map_append, ← ih]
      rfl
  rw [schedule, pauses, List.filterMap_append, ← hpreceding]
  exact List.append_nil _

/-- The schedule ends with attempt `k`. -/
theorem getLast?_attempts_schedule :
    (attempts (schedule url data attempt k)).getLast? = some (attempt k) := by
  rw [schedule, attempts, List.filterMap_append]
  exact List.getLast?_concat

end

section
variable (l : Line σ) (url : String) (data : Datum) (n : Int) (s : σ)

theorem Line.settle_recorded (a : Attempt) (ds : List Deed) :
    l.recorded.settle a (s, ds) = ((l.settle a s).1, (l.settle a s).2, ds) := by
  cases a with
  | ok r => rfl
  | error failure =>
    cases failure with
    | url fault | header text first last | body refusal => rfl
    | exchange kind message => cases kind <;> rfl

theorem Line.tryPost_recorded (ds : List Deed) (k left : Nat) :
    ((l.recorded.tryPost url data n k left (s, ds)).1,
      (l.recorded.tryPost url data n k left (s, ds)).2.1) = l.tryPost url data n k left s := by
  induction left generalizing k s ds with
  | zero => rfl
  | succ left ih =>
    by_cases h : Unconnected (l.send url data s).1 ∧ (k : Int) < n - 1
    · rw [tryPost_of_unconnected h.1 h.2,
        tryPost_of_unconnected (l := l.recorded) (s := (s, ds)) h.1 h.2]
      exact ih _ _ _
    · rw [not_and] at h
      rw [tryPost_eq_settle h, tryPost_eq_settle (l := l.recorded) (s := (s, ds)) h]
      exact congrArg (fun r => (r.1, r.2.1)) (l.settle_recorded _ _ _)

/-- A record changes nothing. -/
theorem Line.post_recorded (ds : List Deed) :
    ((l.recorded.post url data n (s, ds)).1, (l.recorded.post url data n (s, ds)).2.1) =
      l.post url data n s :=
  l.tryPost_recorded url data n s ds 0 n.toNat

/-- The state with its record before attempt `k`. -/
theorem Line.before_recorded (k : Nat) :
    l.recorded.before url data n (s, []) k =
      (l.before url data n s k, preceding url data (l.attempt url data n s) k) := by
  induction k with
  | zero => rfl
  | succ k ih =>
    rw [before, ih, preceding_succ, ← seconds_delay]
    refine Prod.ext rfl ?_
    exact List.append_assoc _ [_] [_]

/-- Attempts on a line with a record come to the same. -/
theorem Line.attempt_recorded (k : Nat) :
    l.recorded.attempt url data n (s, []) k = l.attempt url data n s k := by
  rw [attempt, before_recorded]
  rfl

end

/-- Where attempt `k` is the last one, the call gives what is reported of it, and the record is the
schedule. -/
theorem Line.recorded_schedule {l : Line σ} {url : String} {data : Datum} {n : Int} {s : σ}
    {k : Nat} (last : Last n.toNat (l.attempt url data n s) k) :
    (l.recorded.post url data n (s, [])).1 = report (l.attempt url data n s k) ∧
      (l.recorded.post url data n (s, [])).2.2 =
        schedule url data (l.attempt url data n s) k := by
  have hattempt : l.recorded.attempt url data n (s, []) = l.attempt url data n s :=
    funext (l.attempt_recorded url data n s)
  have hpost := post_eq_settle (l := l.recorded) (s := (s, ([] : List Deed))) (hattempt ▸ last)
  rw [hpost, settle_fst, hattempt, settle_recorded, before_recorded]
  exact ⟨rfl, rfl⟩

end ScriptAgent.Client
