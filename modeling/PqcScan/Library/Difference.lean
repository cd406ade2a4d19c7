import PqcScan.Library.Dict
import Mathlib.Data.Finset.SymmDiff

/-!
# Differences of keyed lists

Two lists are compared by the sets of their keys.  The keys on exactly one side
do not depend on the order of either list, and are counted in the same way by a
difference of dictionaries, of lists without repetitions, and of rows.
-/

namespace PqcScan
namespace Library

variable {α κ : Type}

/-- Repetitions are erased. -/
theorem nodup_eraseDups [BEq κ] [LawfulBEq κ] (list : List κ) : list.eraseDups.Nodup := by
  cases list with
  | nil => exact List.nodup_nil
  | cons first rest =>
      rw [List.eraseDups_cons, List.nodup_cons]
      constructor
      · intro member
        have kept := (List.mem_filter.mp (List.mem_eraseDups.mp member)).2
        simp at kept
      · exact nodup_eraseDups _
termination_by list.length
decreasing_by
  exact Nat.lt_succ_of_le (List.length_filter_le _ _)

section KeySets

variable [DecidableEq κ]

/-- The keys of a list. -/
def keySet (key : α → κ) (rows : List α) : Finset κ := (rows.map key).toFinset

/-- The keys that one list has and the other lacks. -/
def onlyIn (key : α → κ) (rows other : List α) : Finset κ :=
  keySet key rows \ keySet key other

/-- The keys on exactly one side. -/
def changedKeys (key : α → κ) (before after : List α) : Finset κ :=
  symmDiff (keySet key before) (keySet key after)

variable {key : α → κ} {before after rows other : List α}

theorem mem_keySet {wanted : κ} : wanted ∈ keySet key rows ↔ ∃ row ∈ rows,
      key row = wanted := by
  rw [keySet, List.mem_toFinset, List.mem_map]

theorem keySet_perm (perm : rows.Perm other) : keySet key rows = keySet key other :=
  List.toFinset_eq_of_perm _ _ (perm.map key)

theorem changedKeys_comm : changedKeys key before after = changedKeys key after before :=
  symmDiff_comm _ _

theorem changedKeys_self : changedKeys key rows rows = ∅ :=
  symmDiff_self _

/-- What changed was added or removed, not both. -/
theorem card_changedKeys :
    (changedKeys key before after).card =
      (onlyIn key after before).card + (onlyIn key before after).card := by
  rw [changedKeys, Finset.symmDiff_def,
    Finset.card_union_of_disjoint disjoint_sdiff_sdiff, Nat.add_comm]
  rfl

end KeySets

/-! ## Lists without repetitions -/

section Lists

variable [DecidableEq κ] [BEq κ] [LawfulBEq κ]

/-- The elements of one list without repetitions that another one lacks. -/
theorem length_filter_eq_card {side other : List κ} (distinct : side.Nodup) :
    (side.filter (!other.contains ·)).length = (side.toFinset \ other.toFinset).card := by
  rw [← List.toFinset_card_of_nodup (distinct.filter _)]
  congr 1
  ext element
  simp

/-- The rows whose key the other side lacks have the keys of one side only. -/
theorem keySet_filter_absent (key : α → κ) (rows other : List α) :
    keySet key (rows.filter fun row => !(other.map key).eraseDups.contains (key row)) =
      onlyIn key rows other := by
  ext wanted
  simp only [onlyIn, Finset.mem_sdiff, mem_keySet, List.mem_filter, Bool.not_eq_true',
    List.contains_eq_mem, List.mem_eraseDups, decide_eq_false_iff_not, List.mem_map]
  constructor
  · rintro ⟨row, ⟨here, absent⟩, rfl⟩
    exact ⟨⟨row, here, rfl⟩, absent⟩
  · rintro ⟨⟨row, here, rfl⟩, absent⟩
    exact ⟨row, ⟨here, absent⟩, rfl⟩

/-- The number of keys on both sides. -/
theorem length_common (key : α → κ) (rows other : List α) :
    ((rows.map key).eraseDups.filter ((other.map key).eraseDups.contains ·)).length =
      (keySet key rows ∩ keySet key other).card := by
  rw [← List.toFinset_card_of_nodup ((nodup_eraseDups _).filter _)]
  congr 1
  ext wanted
  simp [keySet]

/-- The number of keys that one list has and the other lacks. -/
theorem length_absent (key : α → κ) (rows other : List α) :
    ((rows.map key).eraseDups.filter (!(other.map key).eraseDups.contains ·)).length =
      (onlyIn key rows other).card := by
  rw [length_filter_eq_card (nodup_eraseDups _)]
  congr 1
  ext wanted
  simp [onlyIn, keySet]

end Lists

end Library
end PqcScan
