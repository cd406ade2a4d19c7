import PqcScan.Library.Newest

/-!
# Insertions into a list

A list into which some elements were inserted, at any places, all of one kind.
What skips that kind gives the same on both lists; what keeps it tells them
apart.
-/

namespace PqcScan
namespace Library

variable {α β : Type}

/-- The second list is the first one with markers inserted. -/
inductive Inserted (marker : α → Prop) : List α → List α → Prop
  | nil : Inserted marker [] []
  | keep {rows rows' : List α} (row : α) (rest : Inserted marker rows rows') :
      Inserted marker (row :: rows) (row :: rows')
  | insert {rows rows' : List α} {row : α} (marks : marker row)
      (rest : Inserted marker rows rows') : Inserted marker rows (row :: rows')

namespace Inserted

variable {marker : α → Prop} {rows rows' : List α}

theorem refl (rows : List α) : Inserted marker rows rows := by
  induction rows with
  | nil => exact .nil
  | cons row rest inductionHypothesis => exact .keep row inductionHypothesis

/-- A list of markers is inserted into the empty list. -/
theorem of_all (all : ∀ row ∈ rows, marker row) : Inserted marker [] rows := by
  induction rows with
  | nil => exact .nil
  | cons row rest inductionHypothesis =>
      rw [List.forall_mem_cons] at all
      exact .insert all.1 (inductionHypothesis all.2)

theorem length_le (inserted : Inserted marker rows rows') :
    rows.length ≤ rows'.length := by
  induction inserted with
  | nil => exact le_rfl
  | keep row _ inductionHypothesis => exact Nat.succ_le_succ inductionHypothesis
  | insert _ _ inductionHypothesis => exact Nat.le_succ_of_le inductionHypothesis

/-- Nothing was inserted when the list has not grown. -/
theorem eq_of_length (inserted : Inserted marker rows rows')
    (same : rows'.length = rows.length) : rows' = rows := by
  induction inserted with
  | nil => rfl
  | keep row _ inductionHypothesis => rw [inductionHypothesis (Nat.succ.inj same)]
  | insert _ rest _ =>
      have longer := rest.length_le
      rw [List.length_cons] at same
      omega

theorem append {more more' : List α} (front : Inserted marker rows rows')
    (back : Inserted marker more more') :
    Inserted marker (rows ++ more) (rows' ++ more') := by
  induction front with
  | nil => exact back
  | keep row _ inductionHypothesis => exact .keep row inductionHypothesis
  | insert marks _ inductionHypothesis => exact .insert marks inductionHypothesis

theorem map {other : β → Prop} {change : α → β}
    (marks : ∀ row, marker row → other (change row))
    (inserted : Inserted marker rows rows') :
    Inserted other (rows.map change) (rows'.map change) := by
  induction inserted with
  | nil => exact .nil
  | keep row _ inductionHypothesis => exact .keep (change row) inductionHypothesis
  | insert here _ inductionHypothesis => exact .insert (marks _ here) inductionHypothesis

theorem filter (keep : α → Bool) (inserted : Inserted marker rows rows') :
    Inserted marker (rows.filter keep) (rows'.filter keep) := by
  induction inserted with
  | nil => exact .nil
  | keep row _ inductionHypothesis =>
      rw [List.filter_cons, List.filter_cons]
      split
      · exact .keep row inductionHypothesis
      · exact inductionHypothesis
  | insert marks _ inductionHypothesis =>
      rw [List.filter_cons]
      split
      · exact .insert marks inductionHypothesis
      · exact inductionHypothesis

/-- Without markers there is nothing that was inserted. -/
theorem eq_of_none (none : ∀ row ∈ rows', ¬ marker row)
    (inserted : Inserted marker rows rows') :
    rows = rows' := by
  induction inserted with
  | nil => rfl
  | keep row _ inductionHypothesis =>
      rw [inductionHypothesis fun other member =>
        none other (List.mem_cons_of_mem _ member)]
  | insert marked _ _ => exact absurd marked (none _ List.mem_cons_self)

/-! ## What skips markers -/

theorem foldl_eq {step : β → α → β}
    (skips : ∀ state row, marker row → step state row = state)
    (inserted : Inserted marker rows rows') (start : β) :
    rows'.foldl step start = rows.foldl step start := by
  induction inserted generalizing start with
  | nil => rfl
  | keep row _ inductionHypothesis => exact inductionHypothesis _
  | insert marks _ inductionHypothesis =>
      rw [List.foldl_cons, skips _ _ marks]
      exact inductionHypothesis start

theorem filter_eq {keep : α → Bool} (skips : ∀ row, marker row → keep row = false)
    (inserted : Inserted marker rows rows') : rows'.filter keep = rows.filter keep := by
  induction inserted with
  | nil => rfl
  | keep row _ inductionHypothesis =>
      rw [List.filter_cons, List.filter_cons, inductionHypothesis]
  | insert marks _ inductionHypothesis =>
      rw [List.filter_cons, skips _ marks]
      exact inductionHypothesis

/-! ## Sorting -/

section Sorting

variable {κ : Type} [LinearOrder κ] {key : α → κ}

theorem orderedInsert_marker {row : α} (marks : marker row)
    (inserted : Inserted marker rows rows') :
    Inserted marker rows (rows'.orderedInsert (key · ≤ key ·) row) := by
  induction inserted with
  | nil => exact .insert marks .nil
  | keep other rest inductionHypothesis =>
      rw [List.orderedInsert_cons]
      split
      · exact .insert marks (.keep other rest)
      · exact .keep other inductionHypothesis
  | insert here rest inductionHypothesis =>
      rw [List.orderedInsert_cons]
      split
      · exact .insert marks (.insert here rest)
      · exact .insert here inductionHypothesis

/-- An element below all others is inserted first. -/
theorem orderedInsert_first {row : α} (below : ∀ other ∈ rows, key row ≤ key other) :
    rows.orderedInsert (key · ≤ key ·) row = row :: rows := by
  cases rows with
  | nil => rfl
  | cons first rest =>
      exact List.orderedInsert_cons_of_le (r := (key · ≤ key ·)) rest
        (below first List.mem_cons_self)

theorem mem_of_mem (inserted : Inserted marker rows rows') {row : α}
    (member : row ∈ rows) :
    row ∈ rows' := by
  induction inserted with
  | nil => exact member
  | keep first _ inductionHypothesis =>
      exact List.mem_cons.mpr ((List.mem_cons.mp member).imp_right inductionHypothesis)
  | insert _ _ inductionHypothesis =>
      exact List.mem_cons_of_mem _ (inductionHypothesis member)

theorem orderedInsert (row : α) (inserted : Inserted marker rows rows')
    (sorted : rows'.Pairwise (key · ≤ key ·)) :
    Inserted marker (rows.orderedInsert (key · ≤ key ·) row)
      (rows'.orderedInsert (key · ≤ key ·) row) := by
  induction inserted with
  | nil => exact .keep row .nil
  | keep first rest inductionHypothesis =>
      rw [List.orderedInsert_cons, List.orderedInsert_cons]
      split
      · exact .keep row (.keep first rest)
      · exact .keep first (inductionHypothesis (List.pairwise_cons.mp sorted).2)
  | @insert rows rows' first marks rest inductionHypothesis =>
      obtain ⟨above, later⟩ := List.pairwise_cons.mp sorted
      rw [List.orderedInsert_cons (key · ≤ key ·) row first rows']
      split
      · next low =>
        rw [orderedInsert_first fun other member =>
          low.trans (above other (rest.mem_of_mem member))]
        exact .keep row (.insert marks rest)
      · exact .insert marks (inductionHypothesis later)

/-- Sorting keeps the other elements in their order. -/
theorem insertionSort (inserted : Inserted marker rows rows') :
    Inserted marker (rows.insertionSort (key · ≤ key ·))
      (rows'.insertionSort (key · ≤ key ·)) := by
  induction inserted with
  | nil => exact .nil
  | @keep rows rows' row rest inductionHypothesis =>
      rw [List.insertionSort_cons, List.insertionSort_cons]
      apply inductionHypothesis.orderedInsert
      have unordered : rows'.Pairwise fun _ _ => True :=
        List.pairwise_of_forall fun _ _ => trivial
      exact (pairwise_insertionSort unordered).imp fun ordered =>
        ordered.elim le_of_lt fun same => same.1.le
  | insert marks _ inductionHypothesis =>
      rw [List.insertionSort_cons]
      exact inductionHypothesis.orderedInsert_marker marks

end Sorting

/-! ## What keeps markers -/

end Inserted

end Library
end PqcScan
