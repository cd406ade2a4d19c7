import Mathlib.Data.List.Sort

/-!
# Gapless coverage

Spans of positions, in any order and overlapping at will.  The gapless run from
a position ends at the first position no span covers; a scan over the spans
sorted by their first position finds that end.
-/

namespace PqcScan
namespace Library

/-- The positions `first`, …, `first + size - 1`. -/
structure Span where
  first : Nat
  size : Nat
  deriving DecidableEq, Repr

namespace Span

/-- The position after the last. -/
def stop (span : Span) : Nat := span.first + span.size

/-- Some span contains the position. -/
def Covers (spans : List Span) (position : Nat) : Prop :=
  ∃ span ∈ spans, span.first ≤ position ∧ position < span.stop

/-- Everything from `first` up to `last` is covered, and `last` is not. -/
structure RunEnds (spans : List Span) (first last : Nat) : Prop where
  start_le : first ≤ last
  covered : ∀ position, first ≤ position → position < last → Covers spans position
  ends : ¬ Covers spans last

/-- A run ends at one position only. -/
theorem RunEnds.unique {spans : List Span} {first left right : Nat}
    (leftEnds : RunEnds spans first left) (rightEnds : RunEnds spans first right) :
    left = right := by
  rcases Nat.lt_trichotomy left right with before | same | after
  · exact absurd (rightEnds.covered left leftEnds.start_le before) leftEnds.ends
  · exact same
  · exact absurd (leftEnds.covered right rightEnds.start_le after) rightEnds.ends

/-- Only the covered positions matter. -/
theorem RunEnds.congr {spans others : List Span} {first last : Nat}
    (runs : RunEnds spans first last)
    (same : ∀ position, Covers spans position ↔ Covers others position) :
    RunEnds others first last :=
  ⟨runs.start_le, fun position after before =>
    (same position).mp (runs.covered position after before),
    fun covers => runs.ends ((same last).mpr covers)⟩

/-- Scan spans sorted by their first position: up to where they cover without a
gap what lies before `next`. -/
def scan : List Span → Nat → Nat
  | [], next => next
  | span :: rest, next =>
      if next < span.first then next else scan rest (max next span.stop)

theorem scan_of_gap {span : Span} {rest : List Span} {next : Nat}
    (gap : next < span.first) : scan (span :: rest) next = next :=
  if_pos gap

theorem scan_of_reached {span : Span} {rest : List Span} {next : Nat}
    (reached : ¬ next < span.first) :
    scan (span :: rest) next = scan rest (max next span.stop) :=
  if_neg reached

theorem le_scan (spans : List Span) (next : Nat) : next ≤ scan spans next := by
  induction spans generalizing next with
  | nil => exact le_refl next
  | cons span rest inductionHypothesis =>
      unfold scan
      split
      · exact le_refl next
      · exact (le_max_left _ _).trans (inductionHypothesis _)

theorem covers_cons {span : Span} {rest : List Span} {position : Nat} :
    Covers (span :: rest) position ↔
      (span.first ≤ position ∧ position < span.stop) ∨ Covers rest position := by
  simp [Covers]

/-- The scan finds the end of the gapless run. -/
theorem runEnds_scan {spans : List Span} (next : Nat)
    (sorted : spans.Pairwise fun left right => left.first ≤ right.first) :
    RunEnds spans next (scan spans next) := by
  induction spans generalizing next with
  | nil =>
      refine ⟨le_refl next, fun position after before => ?_, by simp [Covers]⟩
      exact absurd (Nat.lt_of_le_of_lt after before) (Nat.lt_irrefl next)
  | cons span rest inductionHypothesis =>
      obtain ⟨least, sorted⟩ := List.pairwise_cons.mp sorted
      unfold scan
      split
      · next gap =>
          refine ⟨le_refl next, fun position after before => by omega, ?_⟩
          -- Every later span starts beyond the gap as well.
          rintro ⟨other, member, starts, _⟩
          rcases List.mem_cons.mp member with rfl | later
          · omega
          · have := least other later
            omega
      · next reached =>
          have tail := inductionHypothesis (max next span.stop) sorted
          have beyond := le_scan rest (max next span.stop)
          refine ⟨(le_max_left _ _).trans beyond, fun position after before => ?_, ?_⟩
          · rw [covers_cons]
            by_cases here : position < span.stop
            · exact Or.inl ⟨by omega, here⟩
            · exact Or.inr (tail.covered position (by omega) before)
          · rw [covers_cons]
            rintro (here | later)
            · omega
            · exact tail.ends later

end Span

end Library
end PqcScan
