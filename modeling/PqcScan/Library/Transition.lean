import Mathlib.Data.List.Induction

/-!
# Labelled runs

A run applies a step relation along a list of labels, newest label last.
Properties of runs come from two induction rules: an invariant of the states,
and a property of the labels so far together with the state they lead to.
-/

namespace PqcScan
namespace Library

/-- `Run step start labels finish`: the labels lead from `start` to `finish`. -/
inductive Run (step : σ → α → σ → Prop) (start : σ) : List α → σ → Prop
  | nil : Run step start [] start
  | snoc {labels : List α} {label : α} {middle finish : σ}
      (earlier : Run step start labels middle)
      (last : step middle label finish) :
      Run step start (labels ++ [label]) finish

namespace Run

variable {σ α : Type} {step : σ → α → σ → Prop} {start : σ}

/-- A run of one step. -/
theorem single {label : α} {finish : σ} (last : step start label finish) :
    Run step start [label] finish :=
  snoc nil last

/-- Runs compose. -/
theorem append {first second : List α} {middle finish : σ}
    (left : Run step start first middle)
    (right : Run step middle second finish) :
    Run step start (first ++ second) finish := by
  induction right with
  | nil => simpa using left
  | snoc _ last inductionHypothesis =>
      rw [← List.append_assoc]
      exact snoc inductionHypothesis last

/-- A run over a nonempty list of labels starts with a step. -/
theorem cons {label : α} {rest : List α} {middle finish : σ}
    (first : step start label middle) (later : Run step middle rest finish) :
    Run step start (label :: rest) finish :=
  (single first).append later

/-- The run over `[]` stays where it is. -/
theorem eq_of_nil {finish : σ} (run : Run step start [] finish) :
    finish = start := by
  generalize labels_eq : ([] : List α) = labels at run
  cases run with
  | nil => rfl
  | snoc _ _ => simp at labels_eq

/-- The last step of a run. -/
theorem of_snoc {labels : List α} {label : α} {finish : σ}
    (run : Run step start (labels ++ [label]) finish) :
    ∃ middle, Run step start labels middle ∧ step middle label finish := by
  generalize all_eq : labels ++ [label] = all at run
  cases run with
  | nil => simp at all_eq
  | snoc earlier last =>
      obtain ⟨rfl, rfl⟩ := List.append_inj' all_eq rfl |>.imp_right
        (fun equal => (List.cons.inj equal).1)
      exact ⟨_, earlier, last⟩

/-- Split a run where its label list is split. -/
theorem split {first second : List α} {finish : σ}
    (run : Run step start (first ++ second) finish) :
    ∃ middle, Run step start first middle ∧ Run step middle second finish := by
  induction second using List.reverseRecOn generalizing finish with
  | nil => exact ⟨finish, by simpa using run, nil⟩
  | append_singleton second label inductionHypothesis =>
      rw [← List.append_assoc] at run
      obtain ⟨middle, earlier, last⟩ := run.of_snoc
      obtain ⟨between, left, right⟩ := inductionHypothesis earlier
      exact ⟨between, left, snoc right last⟩

/-- The first step of a run over a nonempty list of labels. -/
theorem of_cons {label : α} {rest : List α} {finish : σ}
    (run : Run step start (label :: rest) finish) :
    ∃ middle, step start label middle ∧ Run step middle rest finish := by
  have cut : Run step start ([label] ++ rest) finish := run
  obtain ⟨middle, first, later⟩ := cut.split
  have whole : Run step start ([] ++ [label]) middle := first
  obtain ⟨before, empty, last⟩ := whole.of_snoc
  rw [eq_of_nil empty] at last
  exact ⟨middle, last, later⟩

/-- The step taken at a given position of a run. -/
theorem at_step {earlier later : List α} {label : α} {finish : σ}
    (run : Run step start (earlier ++ label :: later) finish) :
    ∃ before after, Run step start earlier before ∧ step before label after ∧
      Run step after later finish := by
  obtain ⟨before, first, rest⟩ := run.split
  obtain ⟨after, here, last⟩ := rest.of_cons
  exact ⟨before, after, first, here, last⟩

/-- An invariant that holds at the start and survives every step holds at the
end of every run. -/
theorem invariant (holds : σ → Prop) {labels : List α} {finish : σ}
    (run : Run step start labels finish) (initially : holds start)
    (preserved : ∀ before label after,
      holds before → step before label after → holds after) :
    holds finish := by
  induction run with
  | nil => exact initially
  | snoc _ last inductionHypothesis =>
      exact preserved _ _ _ inductionHypothesis last

/-- A property of the labels so far and the state they lead to. -/
theorem history (holds : List α → σ → Prop) {labels : List α} {finish : σ}
    (run : Run step start labels finish) (initially : holds [] start)
    (preserved : ∀ past before label after, Run step start past before →
      holds past before → step before label after →
      holds (past ++ [label]) after) :
    holds labels finish := by
  induction run with
  | nil => exact initially
  | snoc earlier last inductionHypothesis =>
      exact preserved _ _ _ _ earlier inductionHypothesis last

/-- Weaken the step relation of a run. -/
theorem mono {other : σ → α → σ → Prop} {labels : List α} {finish : σ}
    (run : Run step start labels finish)
    (weaker : ∀ before label after,
      step before label after → other before label after) :
    Run other start labels finish := by
  induction run with
  | nil => exact nil
  | snoc _ last inductionHypothesis =>
      exact snoc inductionHypothesis (weaker _ _ _ last)

/-- Executing a partial step function along the labels is a run. -/
theorem of_foldlM {step : σ → α → Option σ} {labels : List α} {start finish : σ}
    (executed : labels.foldlM step start = some finish) :
    Run (fun before label after => step before label =
      some after) start labels finish := by
  induction labels generalizing start with
  | nil =>
      cases executed
      exact nil
  | cons label rest inductionHypothesis =>
      rw [List.foldlM_cons] at executed
      obtain ⟨middle, first, later⟩ := Option.bind_eq_some_iff.mp executed
      exact cons first (inductionHypothesis later)

/-- Under a deterministic step relation the labels determine the end. -/
theorem deterministic
    (functional : ∀ before label left right,
      step before label left → step before label right → left = right)
    {labels : List α} {left right : σ}
    (leftRun : Run step start labels left)
    (rightRun : Run step start labels right) : left = right := by
  induction leftRun generalizing right with
  | nil => exact (eq_of_nil rightRun).symm
  | snoc _ last inductionHypothesis =>
      obtain ⟨middle, earlier, otherLast⟩ := rightRun.of_snoc
      rw [← inductionHypothesis earlier] at otherLast
      exact functional _ _ _ _ last otherLast

end Run

end Library
end PqcScan
