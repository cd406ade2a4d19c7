import PqcScan.Library.TokenBucket
import Mathlib.Logic.Function.Basic
import Mathlib.Data.Rat.Lemmas

/-!
# The ingest limiter

`_TokenBucket` of `daemon/fleet.py` in exact arithmetic: a token bucket for each host, and
the calls of a run in their order.  `INGEST_BURST` and `INGEST_MIN_INTERVAL_S` are read at
each call; here they stay as they are.
-/

namespace PqcScan
namespace Daemon

open Library

/-- `_state`: the tokens and the time of the last call, for each key that was called. -/
abbrev Buckets (κ : Type) := κ → Option (Stored ℚ)

/-- A call of `take` at a reading of the clock. -/
structure Take (κ : Type) where
  key : κ
  now : ℚ

section Limiter

variable {κ : Type} [DecidableEq κ] (rate : Rate ℚ)

/-- `take`. -/
def take (state : Buckets κ) (call : Take κ) : Bool × Buckets κ :=
  let stored := (state call.key).getD ⟨rate.burst, call.now⟩
  let tokens :=
    if 0 < rate.interval then
      min rate.burst (stored.tokens + (call.now - stored.time) / rate.interval)
    else rate.burst
  let ok := decide (1 ≤ tokens)
  (ok, Function.update state call.key
    (some ⟨if ok then tokens - 1 else tokens, call.now⟩))

/-- The state of a limiter that was never called. -/
def noBuckets : Buckets κ := fun _ => none

/-- The state after calls. -/
def takeAll (state : Buckets κ) (calls : List (Take κ)) : Buckets κ :=
  calls.foldl (fun state call => (take rate state call).2) state

/-- The calls with their answers. -/
def takeLog : Buckets κ → List (Take κ) → List (Take κ × Bool)
  | _, [] => []
  | state, call :: calls =>
      (call, (take rate state call).1) :: takeLog (take rate state call).2 calls

/-- The times of the calls on a key. -/
def timesOf (key : κ) (calls : List (Take κ)) : List ℚ :=
  (calls.filter fun call => call.key = key).map Take.now

/-- The number of calls on a key that succeed in a window. -/
def successesOf (key : κ) (first last : ℚ) (log : List (Take κ × Bool)) : Nat :=
  log.countP fun entry =>
    entry.1.key = key && (first ≤ entry.1.now && entry.1.now ≤ last && entry.2)

variable {rate}

theorem take_eq (state : Buckets κ) (call : Take κ) :
    take rate state call = ((rate.spend (state call.key) call.now).1,
      Function.update state call.key (some (rate.spend (state call.key) call.now).2)) :=
  rfl

/-- A call changes the bucket of its key. -/
theorem take_self (state : Buckets κ) (call : Take κ) :
    (take rate state call).2 call.key = some (rate.spend (state call.key) call.now).2 :=
  Function.update_self _ _ _

theorem take_other (state : Buckets κ) {call : Take κ} {key : κ}
    (other : call.key ≠ key) :
    (take rate state call).2 key = state key :=
  Function.update_of_ne (Ne.symm other) _ _

/-- The bucket of a key after calls is that of a limiter for the key alone. -/
theorem takeAll_apply (state : Buckets κ) (calls : List (Take κ)) (key : κ) :
    takeAll rate state calls key = rate.after (state key) (timesOf key calls) := by
  induction calls generalizing state with
  | nil => rfl
  | cons call calls inductionHypothesis =>
      rw [takeAll, List.foldl_cons, ← takeAll, inductionHypothesis, timesOf, timesOf,
        List.filter_cons]
      by_cases same : call.key = key
      · subst same
        simp [Rate.after, take_self]
      · simp [same, take_other]

/-- The answers for a key are those of a limiter for the key alone. -/
theorem takeLog_filter (state : Buckets κ) (calls : List (Take κ)) (key : κ) :
    ((takeLog rate state calls).filter fun entry => entry.1.key = key).map
        (fun entry => (entry.1.now, entry.2)) =
      rate.answers (state key) (timesOf key calls) := by
  induction calls generalizing state with
  | nil => rfl
  | cons call calls inductionHypothesis =>
      rw [takeLog, timesOf, List.filter_cons, List.filter_cons]
      have later := inductionHypothesis (take rate state call).2
      by_cases same : call.key = key
      · subst same
        rw [take_self] at later
        simp only [decide_true, if_true, List.map_cons, later]
        rfl
      · rw [take_other state same] at later
        simp only [same, decide_false, Bool.false_eq_true, if_false, later]
        rfl

theorem successesOf_eq (state : Buckets κ) (calls : List (Take κ)) (key : κ)
    (first last : ℚ) :
    successesOf key first last (takeLog rate state calls) =
      Rate.successes first last (rate.answers (state key) (timesOf key calls)) := by
  rw [← takeLog_filter, Rate.successes, List.countP_map, List.countP_filter, successesOf]
  congr 1
  funext entry
  simp [Bool.and_comm]

theorem timesOf_sorted {calls : List (Take κ)}
    (ordered : (calls.map Take.now).Pairwise (· ≤ ·))
    (key : κ) : (timesOf key calls).Pairwise (· ≤ ·) :=
  ordered.sublist (List.filter_sublist.map _)

/-- Calls on other keys change no answer for a key. -/
theorem takeLog_isolated {state other : Buckets κ} {key : κ}
    (same : state key = other key)
    (calls : List (Take κ)) :
    (takeLog rate state calls).filter (fun entry => entry.1.key = key) =
      takeLog rate other (calls.filter fun call => call.key = key) := by
  induction calls generalizing state other with
  | nil => rfl
  | cons call calls inductionHypothesis =>
      rw [takeLog, List.filter_cons, List.filter_cons]
      by_cases here : call.key = key
      · have answer : (take rate state call).1 = (take rate other call).1 := by
          rw [take_eq, take_eq, here, same]
        have next : (take rate state call).2 key = (take rate other call).2 key := by
          rw [← here, take_self, take_self, here, same]
        simp only [here, decide_true, if_true]
        rw [takeLog, inductionHypothesis next, answer]
      · have next : (take rate state call).2 key = other key := by
          rw [take_other state here, same]
        simp only [here, decide_false, Bool.false_eq_true, if_false]
        exact inductionHypothesis next

end Limiter

/-- In every run of calls in the order of their times: the tokens of a key lie between
zero and the burst; in no window do more calls on a key succeed than the burst and what is
refilled in it; a call on a key whose last calls, however many are looked at, were all
longer ago than a full bucket takes to fill succeeds; and the answers for a key are those
of the run that calls this key only. -/
theorem limiter_keeps_rate {κ : Type} [DecidableEq κ] (rate : Rate ℚ)
    (burst : 1 ≤ rate.burst)
    (positive : 0 < rate.interval) (calls : List (Take κ))
    (ordered : (calls.map Take.now).Pairwise (· ≤ ·)) (key : κ) :
    (∀ stored, takeAll rate noBuckets calls key = some stored →
      0 ≤ stored.tokens ∧ stored.tokens ≤ rate.burst) ∧
    (∀ first last, first ≤ last →
      (successesOf key first last (takeLog rate noBuckets calls) : ℚ) ≤
        rate.burst + (last - first) / rate.interval) ∧
    (∀ count now, 1 ≤ count →
      (∀ time ∈ (timesOf key calls).reverse.take count,
        rate.burst * rate.interval < now - time) →
      (take rate (takeAll rate noBuckets calls) ⟨key, now⟩).1 = true) ∧
    (takeLog rate noBuckets calls).filter (fun entry => entry.1.key = key) =
      takeLog rate noBuckets (calls.filter fun call => call.key = key) := by
  have sorted := timesOf_sorted ordered key
  refine ⟨?_, ?_, ?_, takeLog_isolated rfl calls⟩
  · intro stored reached
    rw [takeAll_apply] at reached
    obtain ⟨-, sound⟩ := Rate.after_sound burst positive sorted reached
    exact ⟨sound.nonneg, sound.le_burst⟩
  · intro first last window
    rw [successesOf_eq]
    exact Rate.successes_le_burst burst positive window sorted nofun
  · intro count now some_ rested
    rw [take_eq, takeAll_apply]
    apply Rate.spend_rested burst positive sorted
    intro time last
    have among : time ∈ (timesOf key calls).reverse.take count := by
      rw [← List.head?_reverse] at last
      obtain ⟨rest, reversed⟩ := List.head?_eq_some_iff.mp last
      obtain ⟨less, rfl⟩ := Nat.exists_eq_add_of_le some_
      rw [reversed, Nat.add_comm, List.take_succ_cons]
      exact List.mem_cons_self
    exact (rested time among).le

/-- Two hosts: the first spends its burst, is refused, and calls again when a token is
back; the second calls in between. -/
def twoCallers : List (Take Bool) :=
  [⟨true, 0⟩, ⟨true, 0⟩, ⟨true, 1⟩, ⟨false, 1⟩, ⟨true, 3⟩]

/-- With a burst of two and a token every two seconds the third call is refused and the
last one succeeds. -/
theorem limiter_keeps_rate_twoCallers :
    (takeLog ⟨2, 2⟩ noBuckets twoCallers).map Prod.snd = [true, true, false, true, true] ∧
    (∀ stored, takeAll ⟨2, 2⟩ noBuckets twoCallers true = some stored →
      0 ≤ stored.tokens ∧ stored.tokens ≤ 2) ∧
    (∀ first last : ℚ, first ≤ last →
      (successesOf true first last (takeLog ⟨2, 2⟩ noBuckets twoCallers) : ℚ) ≤
        2 + (last - first) / 2) ∧
    (∀ count now, 1 ≤ count →
      (∀ time ∈ (timesOf true twoCallers).reverse.take count, 2 * 2 < now - time) →
      (take ⟨2, 2⟩ (takeAll ⟨2, 2⟩ noBuckets twoCallers) ⟨true, now⟩).1 = true) ∧
    (takeLog ⟨2, 2⟩ noBuckets twoCallers).filter (fun entry => entry.1.key = true) =
      takeLog ⟨2, 2⟩ noBuckets (twoCallers.filter fun call => call.key = true) :=
  ⟨by decide +kernel,
    limiter_keeps_rate ⟨2, 2⟩ one_le_two two_pos twoCallers (by decide +kernel) true⟩

end Daemon
end PqcScan
