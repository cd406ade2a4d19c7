import PqcScan.Library.Dict
import PqcScan.Library.Table
import Mathlib.Algebra.BigOperators.Group.Finset.Basic

/-!
# Grouped queries

`GROUP BY` with `count(*)` and with `max`, and dictionaries that accumulate one
value per key.  Totals over the groups, each weighted with its count, are totals
over the rows.
-/

namespace PqcScan
namespace Library

variable {α κ ν : Type} [DecidableEq κ]

/-! ## Counts -/

/-- `SELECT key, count(*) … GROUP BY key`. -/
def groupCount (keys : List κ) : List (κ × Nat) :=
  keys.dedup.map fun key => (key, keys.count key)

/-- Every selected group adds its value once per row. -/
theorem sum_filter_groupCount {M : Type} [AddCommMonoid M] (keys : List κ)
    (selected : κ → Bool) (value : κ → M) :
    (((groupCount keys).filter fun group => selected group.1).map
        fun group => group.2 • value group.1).sum =
      ((keys.filter selected).map value).sum := by
  have groups : ((groupCount keys).filter fun group => selected group.1).map
      (fun group => group.2 • value group.1) =
        (keys.dedup.filter selected).map fun key => keys.count key • value key := by
    rw [groupCount, List.filter_map, List.map_map]
    rfl
  have sameKeys : (keys.dedup.filter selected).toFinset =
      (keys.filter selected).toFinset := by
    ext key
    simp
  rw [groups, ← List.sum_toFinset _ (keys.nodup_dedup.filter selected), sameKeys,
    Finset.sum_list_map_count]
  apply Finset.sum_congr rfl
  intro key member
  rw [List.mem_toFinset, List.mem_filter] at member
  rw [List.count_filter member.2]

/-- A key that follows from another has as many values exactly when
the other follows from it. -/
theorem length_dedup_eq_iff [DecidableEq ν] {rows : List α} {coarse : α → κ}
    {fine : α → ν}
    (follows : ∀ row ∈ rows, ∀ other ∈ rows, fine row = fine other →
      coarse row = coarse other) :
    (rows.map coarse).dedup.length = (rows.map fine).dedup.length ↔
      ∀ row ∈ rows, ∀ other ∈ rows, coarse row = coarse other →
      fine row = fine other := by
  classical
  obtain ⟨through, same⟩ : ∃ through : ν → Option κ, ∀ row ∈ rows,
      some (coarse row) = through (fine row) := by
    refine ⟨fun value => (rows.find? fun row => fine row = value).map coarse,
      fun row member => ?_⟩
    have found : (rows.find? fun other => fine other = fine row).isSome = true :=
      List.find?_isSome.mpr ⟨row, member, by simp⟩
    obtain ⟨first, first_⟩ := Option.isSome_iff_exists.mp found
    have alike : fine first = fine row := by simpa using List.find?_some first_
    beta_reduce
    rw [first_, Option.map_some,
      follows first (List.mem_of_find?_eq_some first_) row member alike]
  have values : ((rows.map coarse).toFinset.image some) =
      (rows.map fine).toFinset.image through := by
    ext value
    simp only [Finset.mem_image, List.mem_toFinset, List.mem_map]
    constructor
    · rintro ⟨_, ⟨row, member, rfl⟩, rfl⟩
      exact ⟨_, ⟨row, member, rfl⟩, (same row member).symm⟩
    · rintro ⟨_, ⟨row, member, rfl⟩, rfl⟩
      exact ⟨_, ⟨row, member, rfl⟩, same row member⟩
  have count : (rows.map coarse).dedup.length =
      ((rows.map fine).toFinset.image through).card := by
    rw [← values, Finset.card_image_of_injective _ (Option.some_injective κ),
      List.card_toFinset]
  rw [count, ← List.card_toFinset, Finset.card_image_iff]
  constructor
  · intro injective row member other member' alike
    refine injective (by simpa using ⟨row, member, rfl⟩)
      (by simpa using ⟨other, member', rfl⟩) ?_
    rw [← same row member, ← same other member', alike]
  · intro apart value member value' member' alike
    obtain ⟨row, inside, rfl⟩ := List.mem_map.mp (List.mem_toFinset.mp member)
    obtain ⟨other, inside', rfl⟩ := List.mem_map.mp (List.mem_toFinset.mp member')
    rw [← same row inside, ← same other inside', Option.some.injEq] at alike
    exact apart row inside other inside' alike

/-! ## Greatest values -/

/-- `SELECT max(value) … GROUP BY key`. -/
def groupMax (key : α → κ) (value : α → Nat) (rows : List α) : List Nat :=
  (rows.map key).dedup.map fun group =>
    ((rows.filter fun row => key row = group).map value).foldr max 0

/-- A value is selected when it is the greatest of its group. -/
theorem mem_groupMax {key : α → κ} {value : α → Nat} {rows : List α} {greatest : Nat} :
    greatest ∈ groupMax key value rows ↔
      ∃ row ∈ rows, value row = greatest ∧
        ∀ other ∈ rows, key other = key row → value other ≤ greatest := by
  unfold groupMax
  rw [List.mem_map]
  constructor
  · rintro ⟨group, member, rfl⟩
    rw [List.mem_dedup, List.mem_map] at member
    obtain ⟨witness, stored, grouped⟩ := member
    have nonempty : (rows.filter fun row => key row = group) ≠ [] :=
      List.ne_nil_of_mem (List.mem_filter.mpr ⟨stored, by simpa using grouped⟩)
    obtain ⟨row, selected, same, least⟩ := Table.exists_foldr_max value nonempty
    rw [List.mem_filter, decide_eq_true_iff] at selected
    refine ⟨row, selected.1, same, fun other otherMember sameKey => ?_⟩
    rw [← same]
    apply least other
    exact List.mem_filter.mpr ⟨otherMember, by simpa using sameKey.trans selected.2⟩
  · rintro ⟨row, member, rfl, least⟩
    refine ⟨key row, by simpa using ⟨row, member, rfl⟩, ?_⟩
    have here : row ∈ rows.filter fun other => key other = key row :=
      List.mem_filter.mpr ⟨member, by simp⟩
    obtain ⟨top, selected, same, above⟩ :=
      Table.exists_foldr_max value (List.ne_nil_of_mem here)
    rw [List.mem_filter, decide_eq_true_iff] at selected
    rw [← same]
    exact le_antisymm (least top selected.1 selected.2) (above row here)

/-! ## Accumulation -/

/-- `for row in rows: table.setdefault(key(row), start) += row`. -/
def accumulate (key : α → κ) (add : ν → α → ν) (start : ν) (rows : List α)
    (table : Dict κ ν) : Dict κ ν :=
  rows.foldl
    (fun table row => table.set (key row) (add ((table.get? (key row)).getD start) row))
    table

/-- Each entry accumulates the rows of its key. -/
theorem get?_accumulate (key : α → κ) (add : ν → α → ν) (start : ν) (rows : List α)
    (table : Dict κ ν) (group : κ) :
    ((accumulate key add start rows table).get? group).getD start =
      (rows.filter fun row => key row = group).foldl add
        ((table.get? group).getD start) := by
  unfold accumulate
  induction rows generalizing table with
  | nil => rfl
  | cons row rest inductionHypothesis =>
      rw [List.foldl_cons, inductionHypothesis, Dict.get?_set]
      by_cases same : key row = group
      · rw [List.filter_cons_of_pos (by simpa using same), if_pos same.symm, same]
        rfl
      · rw [List.filter_cons_of_neg (by simpa using same), if_neg (Ne.symm same)]

/-- `groups[key(row)].append(row)`. -/
def groupRows (key : α → κ) (rows : List α) : Dict κ (List α) :=
  accumulate key (fun group row => group ++ [row]) [] rows Dict.empty

theorem perm_setEntry (key : κ) (row : α) (entries : List (κ × List α)) :
    ((setEntry key ((lookupEntry key entries).getD [] ++ [row]) entries).flatMap
      Prod.snd).Perm
      (entries.flatMap Prod.snd ++ [row]) := by
  induction entries with
  | nil => exact List.Perm.refl _
  | cons entry rest inductionHypothesis =>
      by_cases same : entry.1 = key
      · rw [setEntry, lookupEntry, if_pos same, if_pos same, Option.getD_some,
          List.flatMap_cons, List.flatMap_cons, List.append_assoc, List.append_assoc]
        exact List.Perm.append_left _ List.perm_append_comm
      · rw [setEntry, lookupEntry, if_neg same, if_neg same, List.flatMap_cons,
          List.flatMap_cons, List.append_assoc]
        exact List.Perm.append_left _ inductionHypothesis

/-- The groups hold the rows, each once. -/
theorem perm_groupRows (key : α → κ) (rows : List α) :
    ((groupRows key rows).entries.flatMap Prod.snd).Perm rows := by
  have accumulated (table : Dict κ (List α)) :
      ((accumulate key (fun group row => group ++ [row]) [] rows table).entries.flatMap
        Prod.snd).Perm (table.entries.flatMap Prod.snd ++ rows) := by
    induction rows generalizing table with
    | nil => simp [accumulate]
    | cons row rest inductionHypothesis =>
        refine (inductionHypothesis _).trans ?_
        have step := (perm_setEntry (key row) row table.entries).append_right rest
        rwa [List.append_assoc, List.singleton_append] at step
  exact accumulated Dict.empty

end Library
end PqcScan
