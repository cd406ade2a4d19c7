import Mathlib.Data.List.Infix

/-!
# Needles in joined texts

Where a needle lies in a text that is put together from parts, if the needle has none of
the items that hold the parts together.
-/

namespace PqcScan
namespace Library

variable {α : Type} {needle : List α}

/-- A needle without the separator lies on one side of it. -/
theorem infix_split {front rest : List α} {sep : α} (plain : sep ∉ needle)
    (within : needle <:+: front ++ sep :: rest) :
    needle <:+: front ∨ needle <:+: rest := by
  obtain ⟨before, after, whole⟩ := within
  rcases List.append_eq_append_iff.mp whole with ⟨gap, outside, -⟩ | ⟨gap, inside, later⟩
  · exact Or.inl ⟨before, gap, outside.symm⟩
  · cases gap with
    | nil =>
        rw [List.append_nil] at inside
        exact Or.inl ⟨before, [], by rw [List.append_nil, inside]⟩
    | cons item gap =>
        obtain ⟨rfl, ends⟩ := List.cons.inj later
        rcases List.append_eq_append_iff.mp inside with ⟨more, -,
          behind⟩ | ⟨more, -, behind⟩
        · apply absurd _ plain
          rw [behind]
          exact List.mem_append_right _ List.mem_cons_self
        · cases more with
          | nil =>
              rw [List.nil_append] at behind
              apply absurd _ plain
              rw [← behind]
              exact List.mem_cons_self
          | cons item more =>
              obtain ⟨-, behind⟩ := List.cons.inj behind
              exact Or.inr ⟨more, after,
                (congrArg (· ++ after) behind).symm.trans ends.symm⟩

/-- A needle without the separator is in joined parts if it is in one of them. -/
theorem infix_intercalate {sep : α} (plain : sep ∉ needle) (filled : needle ≠ [])
    (parts : List (List α)) :
    needle <:+: [sep].intercalate parts ↔ ∃ part ∈ parts, needle <:+: part := by
  induction parts with
  | nil => simp [filled]
  | cons part parts inductionHypothesis =>
      by_cases last : parts = []
      · rw [last, List.intercalate_singleton]
        simp
      · rw [List.exists_mem_cons_iff, ← inductionHypothesis,
          List.intercalate_cons_of_ne_nil last, List.append_assoc, List.singleton_append]
        constructor
        · exact infix_split plain
        · rintro (here | later)
          · exact here.trans (List.prefix_append _ _).isInfix
          · exact later.trans
              ((List.suffix_cons _ _).trans (List.suffix_append _ _)).isInfix

/-- A needle does not begin among items that it has not. -/
theorem infix_behind {front rest : List α} (filled : needle ≠ [])
    (apart : ∀ item ∈ front, item ∉ needle) :
    needle <:+: front ++ rest ↔ needle <:+: rest := by
  induction front with
  | nil => rfl
  | cons item front inductionHypothesis =>
      rw [List.forall_mem_cons] at apart
      rw [List.cons_append, List.infix_cons_iff, inductionHypothesis apart.2,
        or_iff_right]
      intro begins
      obtain ⟨first, others, rfl⟩ := List.exists_cons_of_ne_nil filled
      obtain ⟨rfl, -⟩ := List.cons_prefix_cons.mp begins
      exact apart.1 List.mem_cons_self

/-- A needle does not end among items that it has not. -/
theorem infix_before {rest back : List α} (filled : needle ≠ [])
    (apart : ∀ item ∈ back, item ∉ needle) :
    needle <:+: rest ++ back ↔ needle <:+: rest := by
  rw [← List.reverse_infix, List.reverse_append, infix_behind, List.reverse_infix]
  · simpa using filled
  · simpa using apart

end Library
end PqcScan
