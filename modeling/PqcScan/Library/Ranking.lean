import Mathlib.Data.List.Basic
import Mathlib.Data.List.Count

/-!
# Places in a sorted list

An element is among the first of a sorted list exactly when few elements are ahead of it.
In a stable sort the elements ahead are the smaller ones and the equal ones that were
there before.
-/

namespace PqcScan
namespace Library

variable {α : Type}

/-- In a strictly ordered list the place of an element is the number of those below it. -/
theorem mem_take_iff_countP {below : α → α → Bool} {rows : List α}
    (ordered : rows.Pairwise fun left right => below left right = true ∧
      below right left = false)
    (irreflexive : ∀ row, below row row = false) {row : α} (member : row ∈ rows)
    (count : Nat) :
    row ∈ rows.take count ↔ rows.countP (below · row) < count := by
  induction rows generalizing count with
  | nil => cases member
  | cons first rest inductionHypothesis =>
      obtain ⟨above, later⟩ := List.pairwise_cons.mp ordered
      cases count with
      | zero => simp
      | succ count =>
          rw [List.take_succ_cons, List.mem_cons]
          by_cases same : row = first
          · have nothing : (first :: rest).countP (below · first) = 0 := by
              rw [List.countP_eq_zero]
              intro other among
              rcases List.mem_cons.mp among with equal | inside
              · rw [equal, irreflexive]
                exact Bool.false_ne_true
              · rw [(above other inside).2]
                exact Bool.false_ne_true
            rw [same, nothing]
            exact iff_of_true (Or.inl rfl) count.succ_pos
          · have inside : row ∈ rest := (List.mem_cons.mp member).resolve_left same
            have counted : (first :: rest).countP (below · row) =
                rest.countP (below · row) + 1 :=
              List.countP_cons_of_pos (above row inside).1
            rw [counted, Nat.add_lt_add_iff_right, ← inductionHypothesis later
              inside count]
            exact or_iff_right same

section Stable

variable (le : α → α → Bool)

/-- The entries that a stable sort puts before another; the
number is that of its place. -/
def ahead (other entry : α × Nat) : Bool := !List.zipIdxLE le entry other

variable {le}

theorem zipIdxLE_antisymm {left right : α × Nat}
    (low : List.zipIdxLE le left right = true)
    (high : List.zipIdxLE le right left = true) : left.2 = right.2 := by
  rw [List.zipIdxLE] at low high
  split at low
  · next lower =>
    split at low
    · next upper =>
      rw [if_pos upper, if_pos lower] at high
      rw [decide_eq_true_eq] at low high
      exact Nat.le_antisymm low high
    · next notUpper =>
      rw [if_neg notUpper] at high
      cases high
  · cases low

/-- The first elements of a stable sort are those with few entries ahead. -/
theorem mem_take_mergeSort
      (transitive : ∀ a b c, le a b = true → le b c = true → le a c = true)
    (total : ∀ a b, (le a b || le b a) = true) (rows : List α) (count : Nat) (row : α) :
    row ∈ (rows.mergeSort le).take count ↔
      ∃ entry ∈ rows.zipIdx, entry.1 = row ∧
        rows.zipIdx.countP (ahead le · entry) < count := by
  have sorted := List.pairwise_mergeSort (List.zipIdxLE_trans transitive)
    (List.zipIdxLE_total total) rows.zipIdx
  have perm := List.mergeSort_perm rows.zipIdx (List.zipIdxLE le)
  have distinct : (rows.zipIdx.mergeSort (List.zipIdxLE le)).Pairwise
      fun left right => left.2 ≠ right.2 := by
    refine (perm.pairwise_iff fun differs => differs.symm).mpr ?_
    rw [← List.pairwise_map]
    change (rows.zipIdx.map Prod.snd).Nodup
    rw [List.zipIdx_map_snd]
    exact List.nodup_range'
  have ordered : (rows.zipIdx.mergeSort (List.zipIdxLE le)).Pairwise fun left right =>
      ahead le left right = true ∧ ahead le right left = false := by
    refine (sorted.and distinct).imp ?_
    rintro left right ⟨low, differs⟩
    constructor
    · rw [ahead, Bool.not_eq_true']
      by_contra high
      rw [Bool.not_eq_false] at high
      exact differs (zipIdxLE_antisymm low high)
    · rw [ahead, low]
      rfl
  have irreflexive : ∀ entry : α × Nat, ahead le entry entry = false := by
    intro entry
    have both := List.zipIdxLE_total total entry entry
    rw [Bool.or_self] at both
    rw [ahead, both]
    rfl
  rw [← List.mergeSort_zipIdx, ← List.map_take, List.mem_map]
  constructor
  · rintro ⟨entry, taken, same⟩
    have member := List.mem_of_mem_take taken
    rw [mem_take_iff_countP ordered irreflexive member, perm.countP_eq] at taken
    exact ⟨entry, perm.mem_iff.mp member, same, taken⟩
  · rintro ⟨entry, member, same, few⟩
    refine ⟨entry, ?_, same⟩
    rw [mem_take_iff_countP ordered irreflexive (perm.mem_iff.mpr member), perm.countP_eq]
    exact few

/-- The first elements in the order, and the others, none of which
comes before one of them. -/
theorem exists_omitted
      (transitive : ∀ a b c, le a b = true → le b c = true → le a c = true)
    (total : ∀ a b, (le a b || le b a) = true) (rows : List α) (count : Nat) :
    ((rows.mergeSort le).take count).Pairwise (fun left right => le left right = true) ∧
      ∃ omitted, ((rows.mergeSort le).take count ++ omitted).Perm rows ∧
        omitted.length = rows.length - count ∧
        ∀ row ∈ (rows.mergeSort le).take count, ∀ other ∈ omitted,
          le row other = true := by
  have sorted := List.pairwise_mergeSort transitive total rows
  have perm := List.mergeSort_perm rows le
  refine ⟨sorted.sublist (List.take_sublist _ _),
    (rows.mergeSort le).drop count, ?_, ?_, ?_⟩
  · rwa [List.take_append_drop]
  · rw [List.length_drop, perm.length_eq]
  · rw [← List.take_append_drop count (rows.mergeSort le), List.pairwise_append] at sorted
    exact sorted.2.2

/-- Where elements that are equal in the order are the same, the sorted list does not
depend on how they came. -/
theorem mergeSort_eq_of_perm
    (transitive : ∀ a b c, le a b = true → le b c = true → le a c = true)
    (total : ∀ a b, (le a b || le b a) = true) {rows rows' : List α}
    (perm : rows.Perm rows')
    (same : ∀ left ∈ rows, ∀ right ∈ rows, le left right = true → le right left = true →
      left = right) : rows.mergeSort le = rows'.mergeSort le := by
  have first := List.mergeSort_perm rows le
  have second := List.mergeSort_perm rows' le
  refine List.Perm.eq_of_pairwise ?_ (List.pairwise_mergeSort transitive total rows)
    (List.pairwise_mergeSort transitive total rows')
    (first.trans (perm.trans second.symm))
  intro left right leftMember rightMember
  exact same left (first.mem_iff.mp leftMember) right
    (perm.mem_iff.mpr (second.mem_iff.mp rightMember))

end Stable

end Library
end PqcScan
