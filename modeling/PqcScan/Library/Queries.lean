import PqcScan.Library.Grouping
import Mathlib.Data.List.Sort

/-!
# Sorted and grouped queries

A selection from a sorted table, and what a dictionary holds that starts with one value
for every key or that is filled from a grouped count.
-/

namespace PqcScan
namespace Library

section Sorting

variable {α : Type} {r : α → α → Prop} [DecidableRel r]

theorem filter_orderedInsert [IsTrans α r] (keep : α → Bool) (item : α) {items : List α}
    (sorted : items.Pairwise r) :
    (items.orderedInsert r item).filter keep =
      if keep item then (items.filter keep).orderedInsert r item
      else items.filter keep := by
  induction items with
  | nil => by_cases kept : keep item = true <;> simp [kept]
  | cons first items inductionHypothesis =>
      obtain ⟨least, sorted⟩ := List.pairwise_cons.mp sorted
      by_cases before : r item first
      · rw [List.orderedInsert_cons_of_le r _ before, List.filter_cons]
        by_cases kept : keep item = true
        · rw [if_pos kept, if_pos kept]
          cases selected : (first :: items).filter keep with
          | nil => rfl
          | cons other others =>
              have listed : other ∈ first :: items :=
                (List.mem_filter.mp (selected ▸ List.mem_cons_self)).1
              have below : r item other := by
                rcases List.mem_cons.mp listed with same | later
                · rwa [same]
                · exact IsTrans.trans _ _ _ before (least other later)
              rw [List.orderedInsert_cons_of_le r _ below]
        · rw [if_neg kept, if_neg kept]
      · rw [List.orderedInsert_of_not_le r _ before, List.filter_cons, List.filter_cons,
          inductionHypothesis sorted]
        by_cases kept : keep first = true
        · rw [if_pos kept, if_pos kept]
          split
          · rw [List.orderedInsert_of_not_le r _ before]
          · rfl
        · rw [if_neg kept, if_neg kept]

/-- Selected rows of a sorted table are the sorted selection: the sort is stable. -/
theorem filter_insertionSort [IsTrans α r] [Std.Total r] (keep : α → Bool)
    (items : List α) :
    (items.insertionSort r).filter keep = (items.filter keep).insertionSort r := by
  induction items with
  | nil => rfl
  | cons item items inductionHypothesis =>
      rw [List.insertionSort_cons, filter_orderedInsert keep item
        (List.pairwise_insertionSort r items), inductionHypothesis, List.filter_cons]
      split
      · rw [List.insertionSort_cons]
      · rfl

end Sorting

/-! ## Dictionaries -/

section Dictionaries

variable {κ ν : Type} [DecidableEq κ]

/-- Every key starts with one value. -/
theorem get?_ofList_const (keys : List κ) (value : ν) (key : κ) :
    (Dict.ofList (keys.map fun key => (key, value))).get? key =
      if key ∈ keys then some value else none := by
  rw [Dict.get?_ofList]
  cases last : ((keys.map fun key => (key, value)).filter fun pair =>
    pair.1 = key).getLast? with
  | none =>
      have missing : key ∉ keys := by
        intro listed
        have inside : (key, value) ∈ (keys.map fun key => (key, value)).filter
            fun pair => pair.1 = key :=
          List.mem_filter.mpr ⟨List.mem_map_of_mem listed, decide_eq_true rfl⟩
        exact List.ne_nil_of_mem inside (List.getLast?_eq_none_iff.mp last)
      rw [if_neg missing, Option.map_none]
  | some pair =>
      obtain ⟨inside, same⟩ := List.mem_filter.mp (List.mem_of_getLast? last)
      obtain ⟨other, listed, rfl⟩ := List.mem_map.mp inside
      obtain rfl : other = key := of_decide_eq_true same
      rw [if_pos listed, Option.map_some]

/-- A grouped count has an entry for each key that occurs. -/
theorem get?_ofList_groupCount (keys : List κ) (key : κ) :
    (Dict.ofList (groupCount keys)).get? key =
      if 0 < keys.count key then some (keys.count key) else none := by
  by_cases listed : key ∈ keys
  · have distinct : ((groupCount keys).map Prod.fst).Nodup := by
      rw [groupCount, List.map_map]
      exact (List.map_id _).symm ▸ keys.nodup_dedup
    have member : (key, keys.count key) ∈ groupCount keys :=
      List.mem_map_of_mem (List.mem_dedup.mpr listed)
    rw [if_pos (List.count_pos_iff.mpr listed)]
    exact Dict.get?_ofList_of_mem distinct member
  · have missing : (groupCount keys).filter (fun pair => pair.1 = key) = [] := by
      refine List.filter_eq_nil_iff.mpr fun pair inside same => listed ?_
      obtain ⟨other, held, rfl⟩ := List.mem_map.mp inside
      obtain rfl : other = key := of_decide_eq_true same
      exact List.mem_dedup.mp held
    rw [Dict.get?_ofList, missing, if_neg (by simpa using listed)]
    rfl

end Dictionaries

end Library
end PqcScan
