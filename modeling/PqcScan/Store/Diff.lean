import PqcScan.Core.Drift
import PqcScan.Store.Ingest
import PqcScan.Store.Summary

/-!
# Drift rows and the parity diff

`diff_findings` compares two stored scans by sets of keys, `drift_rows` by
dictionaries with a cap and a threshold.  Both give the symmetric difference of
the keys.
-/

namespace PqcScan
namespace Store

open Library Python PqcScan.Core

/-- What `diff_findings` returns. -/
structure FindingsDiff (α : Type) where
  added : List α
  removed : List α
  common : Nat

/-- The comparison of `diff_findings`, on rows without drift. -/
def diffRows {α κ : Type} [DecidableEq κ] (key : α → κ) (current baseline : List α) :
    FindingsDiff α :=
  let baselineKeys := (baseline.map key).eraseDups
  let currentKeys := (current.map key).eraseDups
  { added := current.filter fun row => !baselineKeys.contains (key row)
    removed := baseline.filter fun row => !currentKeys.contains (key row)
    common := (currentKeys.filter (baselineKeys.contains ·)).length }

namespace Repo

/-- The key of a stored finding. -/
def diffKey (text : Text) (parity : Bool) (row : FindingRow) : ParityKey :=
  if parity then parityKey text (Repo.storedParityRow row)
  else (row.probeId, row.algorithm, row.title)

/-- `diff_findings`. -/
def diffFindings (text : Text) (db : Database) (currentScanId baselineScanId : Nat)
    (parity : Bool) : FindingsDiff FindingRow :=
  let current := (listFindings db currentScanId).filter (·.probeId != driftProbe)
  let baseline := (listFindings db baselineScanId).filter (·.probeId != driftProbe)
  diffRows (diffKey text parity) current baseline

end Repo

section Rows

variable {α κ : Type} [DecidableEq κ] (key : α → κ) (current baseline : List α)

theorem keySet_added :
    keySet key (diffRows key current baseline).added = onlyIn key current baseline :=
  keySet_filter_absent key current baseline

theorem keySet_removed :
    keySet key (diffRows key current baseline).removed = onlyIn key baseline current :=
  keySet_filter_absent key baseline current

/-- The unchanged findings are counted by their keys. -/
theorem diffRows_common : (diffRows key current baseline).common =
    (keySet key current ∩ keySet key baseline).card :=
  length_common key current baseline

end Rows

/-! ## The drift of two lists -/

/-- The keys that only the later list has. -/
def addedKeys (text : Text) (previous current : List ParityRow) : Finset ParityKey :=
  onlyIn (comparedKey text previous current) (findingsIn current) (findingsIn previous)

/-- The keys that only the earlier list has. -/
def removedKeys (text : Text) (previous current : List ParityRow) : Finset ParityKey :=
  onlyIn (comparedKey text previous current) (findingsIn previous) (findingsIn current)

/-- The rows of a drift that was normalised: one for each change while they fit,
and a summary of all of them when they do not. -/
structure RowsPerChange (text : Text) (now : Nat → DateTime)
    (previous current : List ParityRow) : Prop where
  distinct : (driftMarks text previous current).Nodup
  marked : ∀ label key, (label, key) ∈ driftMarks text previous current ↔
    label = "added" ∧ key ∈ addedKeys text previous current ∨
      label = "removed" ∧ key ∈ removedKeys text previous current
  carried : ∀ change ∈ driftChanges text previous current,
    parityKey text change.row = change.key ∧
      (change.change = "added" ∧ change.row ∈ findingsIn current ∨
        change.change = "removed" ∧ change.row ∈ findingsIn previous)
  whole : (driftRows text now previous current).2 ≤ maxDriftRows →
    (driftRows text now previous current).1 =
      (driftChanges text previous current).mapIdx fun index change =>
        driftRow (now index) change.change change.row
  capped : maxDriftRows < (driftRows text now previous current).2 →
    (driftRows text now previous current).1 =
      (((driftChanges text previous current).take maxDriftRows).mapIdx fun index change =>
        driftRow (now index) change.change change.row) ++
        [driftSummary (now maxDriftRows) (addedKeys text previous current).card
          (removedKeys text previous current).card]

/-- What a drift says of two lists of findings. -/
structure IsDrift (text : Text) (now : Nat → DateTime)
    (previous current : List ParityRow) :
    Prop where
  /-- The count is the number of keys on exactly one side. -/
  count : (driftRows text now previous current).2 =
    (changedKeys (comparedKey text previous current) (findingsIn previous)
      (findingsIn current)).card
  split : (addedKeys text previous current).card +
    (removedKeys text previous current).card =
    (driftRows text now previous current).2
  normalised : ¬ TooMany previous current → RowsPerChange text now previous current
  summed : TooMany previous current → (driftRows text now previous current).1 =
    if (driftRows text now previous current).2 = 0 then []
    else [driftSummary (now 0) (addedKeys text previous current).card
      (removedKeys text previous current).card]
  /-- `diff_findings` finds the same keys. -/
  added : keySet (comparedKey text previous current)
    (diffRows (comparedKey text previous current) (findingsIn current)
      (findingsIn previous)).added = addedKeys text previous current
  removed : keySet (comparedKey text previous current)
    (diffRows (comparedKey text previous current) (findingsIn current)
      (findingsIn previous)).removed = removedKeys text previous current

theorem isDrift (text : Text) (now : Nat → DateTime) (previous current : List ParityRow) :
    IsDrift text now previous current := by
  have count := @driftRows_count text now previous current
  have split : (addedKeys text previous current).card +
      (removedKeys text previous current).card =
      (driftRows text now previous current).2 := by
    rw [count, card_changedKeys]
    rfl
  refine ⟨count, split, fun few => ?_, fun many => ?_, keySet_added _ _ _,
    keySet_removed _ _ _⟩
  · have key : comparedKey text previous current = parityKey text := if_neg few
    have rest : (driftChanges text previous current).length -
        (addedKeys text previous current).card =
          (removedKeys text previous current).card := by
      rw [length_driftChanges, card_changedKeys, addedKeys, removedKeys, key,
        Nat.add_sub_cancel_left]
    refine ⟨driftMarks_perm.nodup_iff.mpr nodup_markList, fun label wanted => ?_,
      fun _ => carried_of_mem, fun fits => ?_, fun exceeds => ?_⟩
    · rw [driftMarks_perm.mem_iff, mem_markList, addedKeys, removedKeys, key]
    · rw [driftRows_of_few few] at fits ⊢
      dsimp only at fits ⊢
      rw [if_neg (not_lt.mpr fits), List.take_of_length_le fits]
    · rw [driftRows_of_few few] at exceeds ⊢
      dsimp only at exceeds ⊢
      rw [if_pos exceeds, length_added, ← rest, addedKeys, key]
  · have key : comparedKey text previous current = rawKey := if_pos many
    rw [driftRows_of_many many, addedKeys, removedKeys, key]

section Order

variable {text : Text} {previous current : List ParityRow}

/-- Looking back, what was added is removed. -/
theorem addedKeys_swap :
    addedKeys text current previous = removedKeys text previous current := by
  rw [addedKeys, removedKeys, comparedKey_comm]

theorem removedKeys_swap :
    removedKeys text current previous = addedKeys text previous current := by
  rw [addedKeys, removedKeys, comparedKey_comm]

theorem driftRows_count_swap (now : Nat → DateTime) :
    (driftRows text now current previous).2 =
      (driftRows text now previous current).2 := by
  rw [driftRows_count, driftRows_count, comparedKey_comm, changedKeys_comm]

theorem keys_of_perm {previous' current' : List ParityRow} (old : previous.Perm previous')
    (new : current.Perm current') :
    addedKeys text previous current = addedKeys text previous' current' ∧
      removedKeys text previous current = removedKeys text previous' current' := by
  have before := findingsIn_perm old
  have after := findingsIn_perm new
  have many : TooMany previous current ↔ TooMany previous' current' := by
    unfold TooMany
    rw [before.length_eq, after.length_eq]
  have key : comparedKey text previous current = comparedKey text previous' current' :=
    if_congr many rfl rfl
  unfold addedKeys removedKeys onlyIn
  rw [key, keySet_perm before, keySet_perm after]
  exact ⟨rfl, rfl⟩

theorem driftRows_self (text : Text) (now : Nat → DateTime) (rows : List ParityRow) :
    driftRows text now rows rows = ([], 0) := by
  have none : (driftRows text now rows rows).2 = 0 := by
    rw [driftRows_count, changedKeys_self, Finset.card_empty]
  have drift := isDrift text now rows rows
  apply Prod.ext _ none
  by_cases many : TooMany rows rows
  · rw [drift.summed many, if_pos none]
  · rw [(drift.normalised many).whole (none ▸ Nat.zero_le _)]
    have unchanged : (driftChanges text rows rows).length = 0 := by
      rw [length_driftChanges, changedKeys_self, Finset.card_empty]
    rw [List.length_eq_zero_iff.mp unchanged, List.mapIdx_nil]

end Order

/-! ## Stored scans -/

/-- `diff_findings` of two stored scans marks the keys that drift marks. -/
theorem diffFindings_keys (text : Text) (db : Database)
    (currentScanId baselineScanId : Nat) :
    let current := (Repo.listFindings db currentScanId).map Repo.storedParityRow
    let previous := (Repo.listFindings db baselineScanId).map Repo.storedParityRow
    let parity := !decide (TooMany previous current)
    let diff := Repo.diffFindings text db currentScanId baselineScanId parity
    keySet (Repo.diffKey text parity) diff.added = addedKeys text previous current ∧
      keySet (Repo.diffKey text parity) diff.removed =
        removedKeys text previous current := by
  intro current previous parity diff
  have key : Repo.diffKey text parity =
      comparedKey text previous current ∘ Repo.storedParityRow := by
    funext row
    unfold Repo.diffKey comparedKey parity
    by_cases many : TooMany previous current
    · rw [decide_eq_true many, if_pos many]
      rfl
    · rw [decide_eq_false many, if_neg many]
      rfl
  have stored : ∀ rows : List FindingRow,
      keySet (Repo.diffKey text parity) (rows.filter (·.probeId != driftProbe)) =
        keySet (comparedKey text previous current)
          (findingsIn (rows.map Repo.storedParityRow)) := by
    intro rows
    rw [findingsIn, List.filter_map, keySet, keySet, List.map_map, key]
    rfl
  constructor
  · refine (keySet_added _ _ _).trans ?_
    rw [onlyIn, stored, stored]
    rfl
  · refine (keySet_removed _ _ _).trans ?_
    rw [onlyIn, stored, stored]
    rfl

/-- Drift rows are the symmetric difference of the compared keys: they are
counted and marked once, in both directions, in any order of the rows, and
as `diff_findings` does. -/
theorem driftRows_symmDiff (text : Text) (now : Nat → DateTime) :
    (∀ previous current, IsDrift text now previous current) ∧
    (∀ previous current,
      (driftRows text now current previous).2 = (driftRows text now previous current).2 ∧
      addedKeys text current previous = removedKeys text previous current ∧
      removedKeys text current previous = addedKeys text previous current) ∧
    (∀ previous current previous' current', previous.Perm previous' →
      current.Perm current' →
      (driftRows text now previous current).2 =
        (driftRows text now previous' current').2 ∧
      driftMarks text previous current = driftMarks text previous' current' ∧
      addedKeys text previous current = addedKeys text previous' current' ∧
      removedKeys text previous current = removedKeys text previous' current') ∧
    (∀ rows, driftRows text now rows rows = ([], 0)) ∧
    (∀ db currentScanId baselineScanId,
      let current := (Repo.listFindings db currentScanId).map Repo.storedParityRow
      let previous := (Repo.listFindings db baselineScanId).map Repo.storedParityRow
      let parity := !decide (TooMany previous current)
      let diff := Repo.diffFindings text db currentScanId baselineScanId parity
      keySet (Repo.diffKey text parity) diff.added = addedKeys text previous current ∧
        keySet (Repo.diffKey text parity) diff.removed =
          removedKeys text previous current) := by
  refine ⟨isDrift text now, fun previous current => ?_, ?_, driftRows_self text now,
    diffFindings_keys text⟩
  · exact ⟨driftRows_count_swap now, addedKeys_swap, removedKeys_swap⟩
  · intro previous current previous' current' old new
    obtain ⟨added, removed⟩ := @keys_of_perm text _ _ _ _ old new
    refine ⟨?_, driftMarks_of_perm old new, added, removed⟩
    rw [← (isDrift text now previous current).split, added, removed,
      (isDrift text now previous' current').split]

end Store
end PqcScan
