import Mathlib.Algebra.Order.Field.Basic
import Mathlib.Data.List.Induction
import Mathlib.Tactic.Linarith
import Mathlib.Tactic.Ring

/-!
# Token buckets

A bucket that holds at most `burst` tokens, gets one back every `interval`, and gives one
away for each call that finds one.  Over calls in the order of their times the level stays
between zero and the burst, and no window of time sees more calls succeed than the burst
and what comes back in it.
-/

namespace PqcScan
namespace Library

variable {K : Type} [Field K] [LinearOrder K]

/-- What a bucket holds, and how fast it fills. -/
structure Rate (K : Type) where
  burst : K
  interval : K

/-- What is kept of a bucket: its tokens at the time of the last call. -/
structure Stored (K : Type) where
  tokens : K
  time : K
  deriving DecidableEq

namespace Rate

variable (rate : Rate K)

/-- The tokens at a later time. -/
def refill (stored : Stored K) (now : K) : K :=
  if 0 < rate.interval then
    min rate.burst (stored.tokens + (now - stored.time) / rate.interval)
  else rate.burst

/-- A call: whether it succeeds, and what is kept of the bucket.  A bucket that was never
called is full. -/
def spend (stored : Option (Stored K)) (now : K) : Bool × Stored K :=
  let tokens := rate.refill (stored.getD ⟨rate.burst, now⟩) now
  let ok := decide (1 ≤ tokens)
  (ok, ⟨if ok then tokens - 1 else tokens, now⟩)

/-- The bucket after calls. -/
def after (stored : Option (Stored K)) (times : List K) : Option (Stored K) :=
  times.foldl (fun stored now => some (rate.spend stored now).2) stored

/-- The calls with their answers. -/
def answers : Option (Stored K) → List K → List (K × Bool)
  | _, [] => []
  | stored, now :: times =>
      (now, (rate.spend stored now).1) :: answers (some (rate.spend stored now).2) times

/-- How many calls of a window succeed. -/
def successes (first last : K) (log : List (K × Bool)) : Nat :=
  log.countP fun call => first ≤ call.1 && call.1 ≤ last && call.2

/-- A bucket between empty and full, last called no later than `now`. -/
structure Sound (stored : Stored K) (now : K) : Prop where
  nonneg : 0 ≤ stored.tokens
  le_burst : stored.tokens ≤ rate.burst
  past : stored.time ≤ now

variable {rate}

theorem refill_le (positive : 0 < rate.interval) (stored : Stored K) (now : K) :
    rate.refill stored now ≤ rate.burst ∧
      rate.refill stored now ≤ stored.tokens + (now - stored.time) / rate.interval := by
  rw [refill, if_pos positive]
  exact ⟨min_le_left _ _, min_le_right _ _⟩

variable [IsStrictOrderedRing K]

theorem refill_nonneg (positive : 0 < rate.interval) {stored : Stored K} {now : K}
    (sound : rate.Sound stored now) : 0 ≤ rate.refill stored now := by
  have elapsed : 0 ≤ (now - stored.time) / rate.interval :=
    div_nonneg (sub_nonneg.mpr sound.past) positive.le
  rw [refill, if_pos positive]
  exact le_min (sound.nonneg.trans sound.le_burst) (add_nonneg sound.nonneg elapsed)

/-- After a pause that fills the bucket it is full. -/
theorem refill_rested (positive : 0 < rate.interval) {stored : Stored K} {now : K}
    (nonneg : 0 ≤ stored.tokens)
    (rested : rate.burst * rate.interval ≤ now - stored.time) :
    rate.refill stored now = rate.burst := by
  have filled : rate.burst ≤ (now - stored.time) / rate.interval :=
    (le_div_iff₀ positive).mpr rested
  rw [refill, if_pos positive, min_eq_left]
  exact filled.trans (le_add_of_nonneg_left nonneg)

/-- A bucket that was never called counts as a full one. -/
theorem sound_getD (burst : 1 ≤ rate.burst) {stored : Option (Stored K)} {now : K}
    (sound : ∀ kept ∈ stored, rate.Sound kept now) :
    rate.Sound (stored.getD ⟨rate.burst, now⟩) now := by
  cases stored with
  | none => exact ⟨zero_le_one.trans burst, le_refl _, le_refl _⟩
  | some kept => exact sound kept rfl

omit [IsStrictOrderedRing K] in
theorem mem_answers {stored : Option (Stored K)} {times : List K} {call : K × Bool}
    (member : call ∈ rate.answers stored times) : call.1 ∈ times := by
  induction times generalizing stored with
  | nil => cases member
  | cons now times inductionHypothesis =>
      rcases List.mem_cons.mp member with rfl | later
      · exact List.mem_cons_self
      · exact List.mem_cons_of_mem _ (inductionHypothesis later)

omit [IsStrictOrderedRing K] in
/-- Behind the window nothing is counted. -/
theorem successes_late {first last : K} {stored : Option (Stored K)} {times : List K}
    (late : ∀ time ∈ times, last < time) :
    successes first last (rate.answers stored times) = 0 := by
  rw [successes, List.countP_eq_zero]
  intro call member
  simp [not_le.mpr (late call.1 (mem_answers member))]

omit [IsStrictOrderedRing K] in
/-- A call counts once if it succeeds in the window. -/
theorem successes_cons_le (first last : K) (stored : Option (Stored K)) (now : K)
    (times : List K) :
    successes first last (rate.answers stored (now :: times)) ≤
      successes first last (rate.answers (some (rate.spend stored now).2) times) +
        if (rate.spend stored now).1 then 1 else 0 := by
  rw [answers, successes, List.countP_cons]
  refine Nat.add_le_add_left ?_ _
  cases (rate.spend stored now).1 with
  | false => simp
  | true =>
      rw [if_pos rfl]
      split <;> omega

section Runs

variable (burst : 1 ≤ rate.burst) (positive : 0 < rate.interval)

include burst positive

/-- A call keeps the bucket sound, and takes what it gives away. -/
theorem spend_spec {stored : Option (Stored K)} {now : K}
    (sound : ∀ kept ∈ stored, rate.Sound kept now) :
    rate.Sound (rate.spend stored now).2 now ∧
      (rate.spend stored now).2.tokens + (if (rate.spend stored now).1 then 1 else 0) =
        rate.refill (stored.getD ⟨rate.burst, now⟩) now := by
  have level := refill_nonneg positive (sound_getD burst sound)
  have cap := (refill_le positive (stored.getD ⟨rate.burst, now⟩) now).1
  rw [spend]
  by_cases ok : 1 ≤ rate.refill (stored.getD ⟨rate.burst, now⟩) now
  · simp only [ok, decide_true, if_true]
    exact ⟨⟨sub_nonneg.mpr ok, (sub_le_self _ zero_le_one).trans cap, le_refl _⟩,
      sub_add_cancel _ _⟩
  · simp only [ok, decide_false, Bool.false_eq_true, if_false]
    exact ⟨⟨level, cap, le_refl _⟩, add_zero _⟩

/-- After calls in order the bucket is sound, and has the time of the last of them. -/
theorem after_sound {times : List K} (ordered : times.Pairwise (· ≤ ·)) {kept : Stored K}
    (reached : rate.after none times = some kept) :
    times.getLast? = some kept.time ∧ rate.Sound kept kept.time := by
  induction times using List.reverseRecOn generalizing kept with
  | nil => cases reached
  | append_singleton times now inductionHypothesis =>
      rw [List.pairwise_append] at ordered
      have before : ∀ kept ∈ rate.after none times, rate.Sound kept now := by
        intro kept reached
        obtain ⟨last, sound⟩ := inductionHypothesis ordered.1 reached
        have past := ordered.2.2 _ (List.mem_of_getLast? last) now List.mem_cons_self
        exact ⟨sound.nonneg, sound.le_burst, past⟩
      rw [after, List.foldl_append] at reached
      cases reached
      exact ⟨List.getLast?_concat, (spend_spec burst positive before).1⟩

/-- From a sound bucket no more calls succeed than its tokens and what comes back. -/
theorem successes_le_tokens (first : K) {last : K} {times : List K}
    (ordered : times.Pairwise (· ≤ ·)) {stored : Stored K}
    (sound : ∀ now ∈ times, rate.Sound stored now) (nonneg : 0 ≤ stored.tokens)
    (window : stored.time ≤ last) :
    (successes first last (rate.answers (some stored) times) : K) ≤
      stored.tokens + (last - stored.time) / rate.interval := by
  induction times generalizing stored with
  | nil =>
      have room : 0 ≤ (last - stored.time) / rate.interval :=
        div_nonneg (sub_nonneg.mpr window) positive.le
      simpa [successes, answers] using add_nonneg nonneg room
  | cons now times inductionHypothesis =>
      rw [List.pairwise_cons] at ordered
      have here := sound now List.mem_cons_self
      have stands : ∀ kept ∈ some stored, rate.Sound kept now := fun kept same =>
        Option.some.inj same ▸ here
      obtain ⟨next, balance⟩ := spend_spec burst positive stands
      rcases lt_or_ge last now with late | within
      · have all : ∀ time ∈ now :: times, last < time := List.forall_mem_cons.mpr
          ⟨late, fun time member => late.trans_le (ordered.1 time member)⟩
        have room : 0 ≤ (last - stored.time) / rate.interval :=
          div_nonneg (sub_nonneg.mpr window) positive.le
        rw [successes_late all, Nat.cast_zero]
        exact add_nonneg nonneg room
      · have sound' : ∀ time ∈ times, rate.Sound (rate.spend (some stored) now).2 time :=
          fun time member => ⟨next.nonneg, next.le_burst, ordered.1 time member⟩
        have later := inductionHypothesis ordered.2 sound' next.nonneg within
        have counted : (successes first last (rate.answers (some stored) (now :: times)) :
            K) ≤
            successes first last
              (rate.answers (some (rate.spend (some stored) now).2) times) +
              if (rate.spend (some stored) now).1 then 1 else 0 := by
          exact_mod_cast successes_cons_le first last (some stored) now times
        have filled := (refill_le positive stored now).2
        have sum : (last - stored.time) / rate.interval =
            (now - stored.time) / rate.interval + (last - now) / rate.interval := by
          ring
        have time : (rate.spend (some stored) now).2.time = now := rfl
        rw [time] at later
        rw [Option.getD_some] at balance
        rw [sum]
        linarith

/-- In no window do more calls succeed than the burst and what comes back in it. -/
theorem successes_le_burst {first last : K} (window : first ≤ last) {times : List K}
    (ordered : times.Pairwise (· ≤ ·)) {stored : Option (Stored K)}
    (sound : ∀ kept ∈ stored, ∀ now ∈ times, rate.Sound kept now) :
    (successes first last (rate.answers stored times) : K) ≤
      rate.burst + (last - first) / rate.interval := by
  induction times generalizing stored with
  | nil =>
      have room : 0 ≤ (last - first) / rate.interval :=
        div_nonneg (sub_nonneg.mpr window) positive.le
      simpa [successes, answers] using add_nonneg (zero_le_one.trans burst) room
  | cons now times inductionHypothesis =>
      rw [List.pairwise_cons] at ordered
      have stands : ∀ kept ∈ stored, rate.Sound kept now := fun kept same =>
        sound kept same now List.mem_cons_self
      obtain ⟨next, balance⟩ := spend_spec burst positive stands
      have sound' : ∀ time ∈ times, rate.Sound (rate.spend stored now).2 time :=
        fun time member => ⟨next.nonneg, next.le_burst, ordered.1 time member⟩
      rcases lt_or_ge now first with early | begun
      · have skipped : successes first last (rate.answers stored (now :: times)) =
            successes first last
              (rate.answers (some (rate.spend stored now).2) times) := by
          rw [answers, successes, List.countP_cons]
          simp [not_le.mpr early, successes]
        rw [skipped]
        apply inductionHypothesis ordered.2
        rintro kept ⟨⟩
        exact sound'
      · have counted : (successes first last (rate.answers stored (now :: times)) : K) ≤
            successes first last (rate.answers (some (rate.spend stored now).2) times) +
              if (rate.spend stored now).1 then 1 else 0 := by
          exact_mod_cast successes_cons_le first last stored now times
        rcases lt_or_ge last now with late | within
        · have all : ∀ time ∈ now :: times, last < time := List.forall_mem_cons.mpr
            ⟨late, fun time member => late.trans_le (ordered.1 time member)⟩
          have room : 0 ≤ (last - first) / rate.interval :=
            div_nonneg (sub_nonneg.mpr window) positive.le
          rw [successes_late all, Nat.cast_zero]
          exact add_nonneg (zero_le_one.trans burst) room
        · have later := successes_le_tokens burst positive first ordered.2 sound'
            next.nonneg within
          have time : (rate.spend stored now).2.time = now := rfl
          have cap := (refill_le positive (stored.getD ⟨rate.burst, now⟩) now).1
          have shorter : (last - now) / rate.interval ≤ (last - first) / rate.interval :=
            div_le_div_of_nonneg_right (sub_le_sub_left begun last) positive.le
          rw [time] at later
          linarith

/-- A call on a bucket that was left alone long enough succeeds. -/
theorem spend_rested {times : List K} (ordered : times.Pairwise (· ≤ ·)) {now : K}
    (rested : ∀ last ∈ times.getLast?, rate.burst * rate.interval ≤ now - last) :
    (rate.spend (rate.after none times) now).1 = true := by
  have full : rate.refill ((rate.after none times).getD ⟨rate.burst, now⟩) now =
      rate.burst := by
    cases reached : rate.after none times with
    | none => exact le_antisymm (refill_le positive _ now).1 (by
        rw [refill, if_pos positive]
        simp)
    | some kept =>
        obtain ⟨last, sound⟩ := after_sound burst positive ordered reached
        exact refill_rested positive sound.nonneg (rested _ last)
  rw [spend, full]
  exact decide_eq_true burst

end Runs

end Rate

end Library
end PqcScan
