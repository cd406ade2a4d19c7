import Mathlib.Data.List.Basic

/-!
# Fallible computations

What a successful computation in `Except` says about its parts.
-/

namespace PqcScan
namespace Library

variable {ε α β γ δ : Type}

/-- A sequence succeeds exactly when each of its two parts does. -/
theorem bind_eq_ok {first : Except ε α} {second : α → Except ε β}
    {result : β} :
    first >>= second = .ok result ↔
      ∃ value, first = .ok value ∧ second value = .ok result := by
  cases first <;> simp [bind, Except.bind]

theorem ok_bind (value : α) (next : α → Except ε β) :
    (Except.ok value >>= next) = next value :=
  rfl

theorem map_eq_ok {first : Except ε α} {change : α → β} {result : β} :
    first.map change = .ok result ↔
      ∃ value, first = .ok value ∧ change value = result := by
  cases first <;> simp [Except.map]

/-- Computations that all succeed. -/
theorem mapM_ok {items : List α} {compute : α → Except ε β} {value : α → β}
    (succeeds : ∀ item ∈ items, compute item = .ok (value item)) :
    items.mapM compute = .ok (items.map value) := by
  induction items with
  | nil => rfl
  | cons item rest inductionHypothesis =>
      rw [List.mapM_cons, succeeds item List.mem_cons_self,
        inductionHypothesis fun other member =>
          succeeds other (List.mem_cons_of_mem _ member)]
      rfl

/-- The results of successful computations, each with its item. -/
theorem mapM_keyed {items : List α} {compute : α → Except ε β} {results : List (α × β)}
    (succeeded : (items.mapM fun item => do
      let value ← compute item
      pure (item, value)) = .ok results) :
    results.map Prod.fst = items ∧
      ∀ entry ∈ results, compute entry.1 = .ok entry.2 := by
  induction items generalizing results with
  | nil =>
      injection succeeded with same
      rw [← same]
      exact ⟨rfl, nofun⟩
  | cons item items inductionHypothesis =>
      rw [List.mapM_cons, bind_eq_ok] at succeeded
      obtain ⟨entry, first, succeeded⟩ := succeeded
      rw [bind_eq_ok] at succeeded first
      obtain ⟨rest, later, succeeded⟩ := succeeded
      obtain ⟨value, computed, paired⟩ := first
      injection succeeded with same
      injection paired with pair
      obtain ⟨keys, values⟩ := inductionHypothesis later
      rw [← same, ← pair]
      refine ⟨by rw [List.map_cons, keys], ?_⟩
      intro other member
      rcases List.mem_cons.mp member with equal | later
      · rw [equal]
        exact computed
      · exact values other later

/-- A fold whose every step succeeds. -/
theorem foldlM_ok {items : List α} {visit : β → α → Except ε β}
    {next : β → α → β} {init : β}
    (succeeds : ∀ item ∈ items, ∀ state, visit state item = .ok (next state item)) :
    items.foldlM visit init = .ok (items.foldl next init) := by
  induction items generalizing init with
  | nil => rfl
  | cons item rest inductionHypothesis =>
      rw [List.foldlM_cons, succeeds item List.mem_cons_self]
      exact inductionHypothesis fun other member =>
        succeeds other (List.mem_cons_of_mem _ member)

/-- Two computations fail alike or succeed with related results. -/
def Agree (related : α → β → Prop) : Except ε α → Except ε β → Prop
  | .error left, .error right => left = right
  | .ok left, .ok right => related left right
  | _, _ => False

theorem Agree.refl (computation : Except ε α) : Agree Eq computation computation := by
  cases computation <;> rfl

theorem Agree.mono {related weaker : α → β → Prop} {left : Except ε α}
    {right : Except ε β}
    (agree : Agree related left right)
    (implied : ∀ leftValue rightValue, related leftValue rightValue →
      weaker leftValue rightValue) : Agree weaker left right := by
  cases left with
  | error leftError =>
      cases right with
      | error rightError => exact agree
      | ok rightValue => exact agree.elim
  | ok leftValue =>
      cases right with
      | error rightError => exact agree.elim
      | ok rightValue => exact implied leftValue rightValue agree

/-- Sequences agree when their first parts do and their second
parts do on related results. -/
theorem Agree.bind {related : α → β → Prop} {relatedAfter : γ → δ → Prop}
    {left : Except ε α} {right : Except ε β} {leftNext : α → Except ε γ}
    {rightNext : β → Except ε δ} (first : Agree related left right)
    (next : ∀ leftValue rightValue, related leftValue rightValue →
      Agree relatedAfter (leftNext leftValue) (rightNext rightValue)) :
    Agree relatedAfter (left >>= leftNext) (right >>= rightNext) := by
  cases left with
  | error leftError =>
      cases right with
      | error rightError => exact first
      | ok rightValue => exact first.elim
  | ok leftValue =>
      cases right with
      | error rightError => exact first.elim
      | ok rightValue => exact next leftValue rightValue first

/-- Evaluate a computation and a test of its result. -/
def succeedsWith (computation : Except ε α) (test : α → Bool) : Bool :=
  match computation with
  | .ok value => test value
  | .error _ => false

theorem succeedsWith_iff {computation : Except ε α} {test : α → Bool} :
    succeedsWith computation test = true ↔
      ∃ value, computation = .ok value ∧ test value = true := by
  cases computation <;> simp [succeedsWith]

end Library
end PqcScan
