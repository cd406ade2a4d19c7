import Mathlib.Data.List.Forall2

/-!
# Pairings of two lists

What follows when the elements of two lists are related one by one.
-/

namespace PqcScan
namespace Library

variable {α β : Type}

/-- Every element on the left of a pairing has a partner. -/
theorem exists_right {related : α → β → Prop} {left : List α} {right : List β}
    (pairing : List.Forall₂ related left right) {element : α}
    (member : element ∈ left) :
    ∃ partner ∈ right, related element partner := by
  induction pairing with
  | nil => simp at member
  | cons here _ inductionHypothesis =>
      rcases List.mem_cons.mp member with rfl | later
      · exact ⟨_, List.mem_cons_self, here⟩
      · obtain ⟨partner, partnerMember, relation⟩ := inductionHypothesis later
        exact ⟨partner, List.mem_cons_of_mem _ partnerMember, relation⟩

/-- Every element on the right of a pairing has a partner. -/
theorem exists_left {related : α → β → Prop} {left : List α} {right : List β}
    (pairing : List.Forall₂ related left right) {element : β}
    (member : element ∈ right) :
    ∃ partner ∈ left, related partner element :=
  exists_right pairing.flip member

/-- A pairing splits where its left list is split. -/
theorem forall₂_split {related : α → β → Prop} {front back : List α}
    {middle : α} {right : List β}
    (pairing : List.Forall₂ related (front ++ middle :: back) right) :
    ∃ front' middle' back', right = front' ++ middle' :: back' ∧
      related middle middle' ∧ List.Forall₂ related back back' := by
  induction front generalizing right with
  | nil =>
      cases pairing with
      | cons here rest => exact ⟨[], _, _, rfl, here, rest⟩
  | cons first front inductionHypothesis =>
      cases pairing with
      | cons here rest =>
          obtain ⟨front', middle', back', rfl, relation, later⟩ :=
            inductionHypothesis rest
          exact ⟨_ :: front', middle', back', rfl, relation, later⟩

/-- A pairing keeps the number of elements with corresponding properties. -/
theorem length_filter_of_forall₂ {related : α → β → Prop}
    {left : List α} {right : List β} {leftKeep : α → Bool} {rightKeep : β → Bool}
    (pairing : List.Forall₂ related left right)
    (agree : ∀ first second, related first second →
      leftKeep first = rightKeep second) :
    (left.filter leftKeep).length = (right.filter rightKeep).length := by
  induction pairing with
  | nil => rfl
  | cons here _ inductionHypothesis =>
      rw [List.filter_cons, List.filter_cons, agree _ _ here]
      split <;> simp [inductionHypothesis]

end Library
end PqcScan
