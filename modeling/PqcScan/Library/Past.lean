import Mathlib.Data.List.Induction

/-!
# What happened since

A property of a list of labels, newest last: at some label something held, and nothing has
broken it since.
-/

namespace PqcScan
namespace Library

variable {α : Type} {broken : α → Prop} {holds : List α → α → Prop}

/-- At some label `holds` was true of the labels before it and of it, and
no later label breaks it. -/
def Since (broken : α → Prop) (holds : List α → α → Prop) (labels : List α) : Prop :=
  ∃ past label later, labels = past ++ label :: later ∧
    (∀ other ∈ later, ¬ broken other) ∧ holds past label

theorem not_since_nil : ¬ Since broken holds [] := by
  rintro ⟨past, label, later, same, -⟩
  exact absurd same.symm
    (List.append_ne_nil_of_right_ne_nil past (List.cons_ne_nil label later))

/-- One more label. -/
theorem since_snoc {labels : List α} {label : α} :
    Since broken holds (labels ++ [label]) ↔
      holds labels label ∨ ¬ broken label ∧ Since broken holds labels := by
  constructor
  · rintro ⟨past, found, later, same, kept, held⟩
    induction later using List.reverseRecOn with
    | nil =>
        obtain ⟨rfl, last⟩ := List.append_inj' same rfl
        cases last
        exact Or.inl held
    | append_singleton later newest =>
        rw [← List.cons_append, ← List.append_assoc] at same
        obtain ⟨rfl, last⟩ := List.append_inj' same rfl
        cases last
        exact Or.inr ⟨kept label (by simp), past, found, later, rfl,
          fun other member => kept other (List.mem_append_left _ member), held⟩
  · rintro (held | ⟨unbroken, past, found, later, rfl, kept, held⟩)
    · exact ⟨labels, label, [], rfl, by simp, held⟩
    · refine ⟨past, found, later ++ [label], by simp, ?_, held⟩
      intro other member
      rcases List.mem_append.mp member with old | new
      · exact kept other old
      · exact List.mem_singleton.mp new ▸ unbroken

end Library
end PqcScan
