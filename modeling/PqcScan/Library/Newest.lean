import Mathlib.Data.List.Pairwise
import Mathlib.Data.List.Sort

/-!
# The newest elements of a list

Facts about lists that grow at the end, where deletion is a filter: the last
element that has a property survives every filter that keeps it, and what a
cut beyond the newest `keep` elements removes has that many newer elements.
-/

namespace PqcScan
namespace Library

variable {α : Type}

/-- The last element survives a filter that keeps it. -/
theorem getLast?_filter_of_kept {list : List α} {last : α} {keep : α → Bool}
    (isLast : list.getLast? = some last) (kept : keep last = true) :
    (list.filter keep).getLast? = some last := by
  obtain ⟨init, rfl⟩ := List.getLast?_eq_some_iff.mp isLast
  simp [kept]

/-- An element that comes before no other is the last. -/
theorem getLast?_eq_of_greatest {list : List α} {before : α → α → Prop}
    (ordered : list.Pairwise before) {element : α} (member : element ∈ list)
    (greatest : ∀ other ∈ list, ¬ before element other) :
    list.getLast? = some element := by
  obtain ⟨front, back, rfl⟩ := List.append_of_mem member
  cases back with
  | nil => simp
  | cons next rest =>
      rw [List.pairwise_append, List.pairwise_cons] at ordered
      exact absurd (ordered.2.1.1 next List.mem_cons_self)
        (greatest next (by simp))

/-- Every other element comes before the last. -/
theorem eq_or_before_getLast? {list : List α} {before : α → α → Prop}
    (ordered : list.Pairwise before) {last : α} (isLast : list.getLast? = some last)
    {element : α} (member : element ∈ list) : element = last ∨ before element last := by
  obtain ⟨init, rfl⟩ := List.getLast?_eq_some_iff.mp isLast
  rw [List.pairwise_append] at ordered
  rcases List.mem_append.mp member with earlier | final
  · exact Or.inr (ordered.2.2 element earlier last (List.mem_singleton_self last))
  · exact Or.inl (List.mem_singleton.mp final)

section StableSort

variable {κ : Type} [LinearOrder κ] {key : α → κ} {before : α → α → Prop}

/-- Ordered by a key, and among equal keys by a relation. -/
def KeyOrder (key : α → κ) (before : α → α → Prop) (left right : α) : Prop :=
  key left < key right ∨ key left = key right ∧ before left right

theorem pairwise_orderedInsert {element : α} {list : List α}
    (first : ∀ other ∈ list, before element other)
    (ordered : list.Pairwise (KeyOrder key before)) :
    (list.orderedInsert (key · ≤ key ·) element).Pairwise (KeyOrder key before) := by
  induction list with
  | nil => exact List.pairwise_singleton _ _
  | cons head rest inductionHypothesis =>
      obtain ⟨ahead, later⟩ := List.pairwise_cons.mp ordered
      by_cases low : key element ≤ key head
      · rw [List.orderedInsert_cons_of_le (r := (key · ≤ key ·)) rest low]
        refine List.pairwise_cons.mpr ⟨fun other member => ?_, ordered⟩
        have below : key element ≤ key other := by
          rcases List.mem_cons.mp member with rfl | inRest
          · exact low
          · rcases ahead other inRest with less | ⟨same, _⟩
            · exact low.trans less.le
            · exact low.trans same.le
        exact (lt_or_eq_of_le below).imp_right fun same => ⟨same, first other member⟩
      · rw [List.orderedInsert_of_not_le (r := (key · ≤ key ·)) rest low]
        refine List.pairwise_cons.mpr ⟨fun other member => ?_,
          inductionHypothesis (fun other inRest =>
            first other (List.mem_cons_of_mem _ inRest))
            later⟩
        rcases List.mem_cons.mp ((List.perm_orderedInsert _ _ _).mem_iff.mp member) with
          rfl | inRest
        · exact .inl (not_le.mp low)
        · exact ahead other inRest

/-- Sorting by a key keeps the order of equal keys. -/
theorem pairwise_insertionSort {list : List α} (ordered : list.Pairwise before) :
    (list.insertionSort (key · ≤ key ·)).Pairwise (KeyOrder key before) := by
  induction list with
  | nil => exact .nil
  | cons head rest inductionHypothesis =>
      obtain ⟨ahead, later⟩ := List.pairwise_cons.mp ordered
      rw [List.insertionSort_cons]
      refine pairwise_orderedInsert (fun other member => ?_) (inductionHypothesis later)
      exact ahead other ((List.mem_insertionSort _).mp member)

end StableSort

/-- An element beyond the first `keep` of a list has
`keep` elements before it. -/
theorem le_length_filter_of_mem_drop {list : List α} {before : α → α → Prop}
    (ordered : list.Pairwise before) {element : α} {keep : Nat}
    (member : element ∈ list.drop keep) (ahead : α → Bool)
    (counts : ∀ other, before other element → ahead other = true) :
    keep ≤ (list.filter ahead).length := by
  have split := List.take_append_drop keep list
  rw [← split, List.pairwise_append] at ordered
  have long : keep < list.length := by
    by_contra short
    rw [List.drop_eq_nil_of_le (Nat.le_of_not_lt short)] at member
    simp at member
  have front : (list.take keep).filter ahead = list.take keep :=
    List.filter_eq_self.mpr fun other otherMember =>
      counts other (ordered.2.2 other otherMember element member)
  calc
    keep = ((list.take keep).filter ahead).length := by
      rw [front, List.length_take, Nat.min_eq_left (Nat.le_of_lt long)]
    _ ≤ (list.filter ahead).length :=
      ((List.take_sublist keep list).filter ahead).length_le

/-- The elements beyond the first `keep` are those with
`keep` elements before them. -/
theorem mem_drop_iff {list : List α} {before : α → α → Prop}
    (ordered : list.Pairwise before) (irreflexive : ∀ element, ¬ before element element)
    (asymmetric : ∀ left right, before left right → ¬ before right left)
    {element : α} (member : element ∈ list) (ahead : α → Bool)
    (counts : ∀ other, ahead other = true ↔ before other element) (keep : Nat) :
    element ∈ list.drop keep ↔ keep ≤ (list.filter ahead).length := by
  constructor
  · intro beyond
    exact le_length_filter_of_mem_drop ordered beyond ahead fun other =>
      (counts other).mpr
  · intro many
    by_contra within
    have split := List.take_append_drop keep list
    rw [← split, List.mem_append] at member
    have front : element ∈ list.take keep := member.resolve_right within
    rw [← split, List.pairwise_append] at ordered
    have later : (list.drop keep).filter ahead = [] := by
      rw [List.filter_eq_nil_iff]
      intro other otherMember isAhead
      exact asymmetric _ _ ((counts other).mp isAhead)
        (ordered.2.2 element front other otherMember)
    have fewer : ((list.take keep).filter ahead).length < (list.take keep).length :=
      List.length_filter_lt_length_iff_exists.mpr
        ⟨element, front, mt (counts element).mp (irreflexive element)⟩
    rw [← split, List.filter_append, later, List.append_nil] at many
    have short := List.length_take_le keep list
    omega

/-- Two places of a list with the same projection are one place when the
projections are distinct. -/
theorem place_unique {β : Type} {project : α → Option β}
    {left right : α} {value : β} {before after before' after' : List α}
    (same : before ++ left :: after = before' ++ right :: after')
    (nodup : ((before ++ left :: after).filterMap project).Nodup)
    (leftValue : project left = some value)
    (rightValue : project right = some value) :
    before = before' ∧ left = right ∧ after = after' := by
  have once : ∀ {first second : α} {front back : List α},
      project first = some value → project second = some value →
        second ∈ back →
          ¬ ((front ++ first :: back).filterMap project).Nodup := by
    intro first second front back firstValue secondValue member distinct
    rw [List.filterMap_append, List.filterMap_cons_some firstValue,
      List.nodup_append] at distinct
    exact (List.nodup_cons.mp distinct.2.1).1
      (List.mem_filterMap.mpr ⟨second, member, secondValue⟩)
  rcases List.append_eq_append_iff.mp same with
    ⟨between, frontEq, backEq⟩ | ⟨between, frontEq, backEq⟩
  · cases between with
    | nil =>
        obtain ⟨here, rest⟩ := List.cons.inj backEq
        exact ⟨by simpa using frontEq.symm, here, rest⟩
    | cons first rest =>
        obtain ⟨rfl, afterEq⟩ := List.cons.inj backEq
        exact absurd nodup (once leftValue rightValue (by simp [afterEq]))
  · cases between with
    | nil =>
        obtain ⟨here, rest⟩ := List.cons.inj backEq
        exact ⟨by simpa using frontEq, here.symm, rest.symm⟩
    | cons first rest =>
        obtain ⟨rfl, afterEq⟩ := List.cons.inj backEq
        rw [same] at nodup
        exact absurd nodup (once rightValue leftValue (by simp [afterEq]))

end Library
end PqcScan
