import PqcScan.Library.Emission

/-!
# Loops with a limit for each source

A loop over sources, and within it over what each of them reports.  The inner loop ends at
a limit or at a failure; some of its endings end the loop over the sources too.  The
question is when the whole loop reports what the sources report one by one.
-/

namespace PqcScan
namespace Library

variable {α β : Type}

/-- How the loop over a source ends. -/
inductive Ending
  | finished
  | capped
  | failed
  deriving DecidableEq

/-- The loop over reports with a count: the reports that are let through, and the count
behind them, or nothing where the limit is met. -/
def emitEach (limit : Nat) : Nat → List β → List β × Option Nat
  | count, [] => ([], some count)
  | count, report :: reports =>
      if limit ≤ count then ([], none)
      else
        let later := emitEach limit (count + 1) reports
        (report :: later.1, later.2)

/-- The loop over what the items of a source report; no list stands for a failure. -/
def emitAll (limit : Nat) (report : α → Option (List β)) : Nat → List α → List β × Ending
  | _, [] => ([], .finished)
  | count, item :: rest =>
      match report item with
      | none => ([], .failed)
      | some reports =>
          match emitEach limit count reports with
          | (emitted, none) => (emitted, .capped)
          | (emitted, some next) =>
              let later := emitAll limit report next rest
              (emitted ++ later.1, later.2)

section Limits

variable {limit : Nat}

/-- The limit is met exactly when there are more reports than are left to it. -/
theorem emitEach_eq {count : Nat} (within : count ≤ limit) (reports : List β) :
    emitEach limit count reports = (reports.take (limit - count),
      if limit < count + reports.length then none
      else some (count + reports.length)) := by
  induction reports generalizing count with
  | nil => simp [emitEach, within]
  | cons report reports inductionHypothesis =>
      rw [emitEach]
      by_cases full : limit ≤ count
      · obtain rfl : count = limit := Nat.le_antisymm within full
        simp
      · obtain ⟨left, leftEq⟩ : ∃ left, limit - count = left + 1 :=
          ⟨limit - count - 1, by omega⟩
        have less : limit - (count + 1) = left := by omega
        have sum : count + 1 + reports.length = count + (reports.length + 1) := by omega
        rw [if_neg full, inductionHypothesis (by omega), leftEq, List.take_succ_cons,
          List.length_cons, less, sum]

/-- What a source reports up to the limit, and how its loop ends. -/
theorem emitAll_eq {report : α → Option (List β)} {count : Nat} (within : count ≤ limit)
    (items : List α) :
    emitAll limit report count items = ((reported report items).take (limit - count),
      if limit < count + (reported report items).length then .capped
      else if items.any fun item => (report item).isNone then .failed
        else .finished) := by
  induction items generalizing count with
  | nil =>
      rw [emitAll, reported_nil, List.take_nil, if_neg (by simpa using within)]
      rfl
  | cons item rest inductionHypothesis =>
      rw [emitAll]
      cases outcome : report item with
      | none =>
          rw [reported_failed outcome, List.take_nil, if_neg (by simpa using within),
            if_pos (by simp [outcome])]
      | some reports =>
          simp only []
          rw [reported_some outcome, emitEach_eq within, List.length_append]
          by_cases full : limit < count + reports.length
          · rw [if_pos full, if_pos (by omega), List.take_append_of_le_length (by omega)]
          · have least : limit - count - reports.length =
                limit - (count + reports.length) := by
              omega
            rw [if_neg full, List.take_append, List.take_of_length_le (by omega), least]
            simp only [inductionHypothesis (by omega : count + reports.length ≤ limit),
              Nat.add_assoc, List.any_cons, outcome, Option.isNone_some, Bool.false_or]

end Limits

/-! ## Loops over sources -/

/-- The loop over the sources, which ends behind a source that halts it. -/
def collected (halts : α → Bool) (reports : α → List β) : List α → List β
  | [] => []
  | source :: rest => reports source ++ if halts source then []
      else collected halts reports rest

/-- No source that halts the loop comes before one that reports something. -/
def NoneLost (halts : α → Bool) (reports : α → List β) (sources : List α) : Prop :=
  ∀ front source back, sources = front ++ source :: back → halts source = true →
    ∀ later ∈ back, reports later = []

section Sources

variable {halts : α → Bool} {reports : α → List β}

theorem noneLost_cons {source : α} {rest : List α} :
    NoneLost halts reports (source :: rest) ↔
      (halts source = true → ∀ later ∈ rest, reports later = []) ∧
        NoneLost halts reports rest := by
  constructor
  · intro kept
    refine ⟨kept [] source rest rfl, fun front other back split => ?_⟩
    exact kept (source :: front) other back (by rw [split, List.cons_append])
  · rintro ⟨here, later⟩ front other back split
    cases front with
    | nil =>
        obtain ⟨rfl, rfl⟩ := List.cons.inj split
        exact here
    | cons first front =>
        obtain ⟨-, rfl⟩ := List.cons.inj split
        exact later front other back rfl

/-- The loop reports what the sources report one by one exactly
when none of it is lost. -/
theorem collected_eq_flatMap_iff {sources : List α} :
    collected halts reports sources = sources.flatMap reports ↔
      NoneLost halts reports sources := by
  induction sources with
  | nil => exact iff_of_true rfl fun front _ _ split => by cases front <;> cases split
  | cons source rest inductionHypothesis =>
      rw [collected, List.flatMap_cons, List.append_cancel_left_eq, noneLost_cons]
      cases halted : halts source with
      | false => simpa using inductionHypothesis
      | true =>
          rw [if_pos rfl, eq_comm, List.flatMap_eq_nil_iff]
          refine ⟨fun silent => ⟨fun _ => silent, ?_⟩, fun kept => kept.1 rfl⟩
          intro front other back split _ later member
          refine silent later ?_
          rw [split]
          exact List.mem_append_right _ (List.mem_cons_of_mem _ member)

end Sources

end Library
end PqcScan
