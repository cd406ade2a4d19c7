import PqcScan.Core.Parity
import PqcScan.Library.Difference
import Mathlib.Data.List.Lex
import Mathlib.Data.String.Basic

/-!
# What drift rows say

Below the threshold `driftRows` marks each parity key that one side lacks, once;
above it, it counts the raw triples that one side lacks.  The marks come in an
order that depends on the keys only.
-/

namespace PqcScan
namespace Core

open Library Python

/-- The rows that are no drift markers. -/
def findingsIn (rows : List ParityRow) : List ParityRow :=
  rows.filter (·.probeId != driftProbe)

/-- There are more findings than `drift_rows` normalises. -/
def TooMany (previous current : List ParityRow) : Prop :=
  maxDriftNormalise < (findingsIn previous).length + (findingsIn current).length

instance (previous current : List ParityRow) : Decidable (TooMany previous current) :=
  inferInstanceAs (Decidable (_ < _))

/-- The triple that is compared above the threshold. -/
def rawKey (row : ParityRow) : ParityKey := (row.probeId, row.algorithm, row.title)

/-- The key by which two scans are compared. -/
def comparedKey (text : Text) (previous current : List ParityRow) :
    ParityRow → ParityKey :=
  if TooMany previous current then rawKey else parityKey text

/-- The changes of `drift_rows`, before they are cut. -/
def driftChanges (text : Text) (previous current : List ParityRow) : List Change :=
  let prev := rowsByKey text (findingsIn previous)
  let cur := rowsByKey text (findingsIn current)
  (changesOf "added" cur prev ++ changesOf "removed" prev cur).mergeSort
    fun left right => !decide (right.order < left.order)

/-- A change without the row that carries it. -/
def Change.mark (change : Change) : String × ParityKey := (change.change, change.key)

/-- The marks of a drift, in the order of its rows. -/
def driftMarks (text : Text) (previous current : List ParityRow) :
    List (String × ParityKey) :=
  (driftChanges text previous current).map Change.mark

variable {text : Text} {now : Nat → DateTime} {previous current : List ParityRow}

theorem driftRows_of_few (few : ¬ TooMany previous current) :
    driftRows text now previous current =
      (let changes := driftChanges text previous current
       let rows := (changes.take maxDriftRows).mapIdx fun index change =>
         driftRow (now index) change.change change.row
       let added := (changes.filter (·.change == "added")).length
       (if changes.length > maxDriftRows then
          rows ++ [driftSummary (now maxDriftRows) added (changes.length - added)]
        else rows,
        changes.length)) :=
  if_neg few

theorem driftRows_of_many (many : TooMany previous current) :
    driftRows text now previous current =
      (let added := (onlyIn rawKey (findingsIn current) (findingsIn previous)).card
       let removed := (onlyIn rawKey (findingsIn previous) (findingsIn current)).card
       (if added + removed = 0 then [] else [driftSummary (now 0) added removed],
        added + removed)) := by
  rw [← length_absent, ← length_absent]
  unfold driftRows
  exact (if_pos many).trans rfl

/-! ## Marks -/

theorem toFinset_keys_rowsByKey (rows : List ParityRow) :
    (rowsByKey text rows).keys.toFinset = keySet (parityKey text) rows := by
  ext key
  rw [List.mem_toFinset, rowsByKey, Dict.mem_keys_ofList, mem_keySet, List.map_map,
    List.mem_map]
  rfl

/-- The row of a key carries it. -/
theorem mem_rowsByKey {rows : List ParityRow} {entry : ParityKey × ParityRow}
    (member : entry ∈ (rowsByKey text rows).entries) :
    entry.2 ∈ rows ∧ parityKey text entry.2 = entry.1 := by
  obtain ⟨row, here, rfl⟩ := List.mem_map.mp (Dict.mem_entries_ofList member)
  exact ⟨here, rfl⟩

/-- The keys of one side that the other one lacks. -/
def absentKeys (side other : Dict ParityKey ParityRow) : List ParityKey :=
  side.keys.filter (!other.keys.contains ·)

theorem map_mark_changesOf (label : String) (side other : Dict ParityKey ParityRow) :
    (changesOf label side other).map Change.mark = (absentKeys side other).map
      (label, ·) := by
  unfold changesOf absentKeys Dict.keys
  rw [List.filter_map, List.map_map, List.map_map]
  rfl

theorem nodup_absentKeys (side other : Dict ParityKey ParityRow) :
    (absentKeys side other).Nodup :=
  side.nodup.filter _

theorem toFinset_absentKeys (rows other : List ParityRow) :
    (absentKeys (rowsByKey text rows) (rowsByKey text other)).toFinset =
      onlyIn (parityKey text) rows other := by
  rw [onlyIn, ← toFinset_keys_rowsByKey, ← toFinset_keys_rowsByKey, absentKeys]
  ext key
  simp

/-- The marks of both sides, unsorted. -/
def markList (text : Text) (previous current : List ParityRow) :
    List (String × ParityKey) :=
  let prev := rowsByKey text (findingsIn previous)
  let cur := rowsByKey text (findingsIn current)
  (absentKeys cur prev).map ("added", ·) ++ (absentKeys prev cur).map ("removed", ·)

theorem mem_markList {label : String} {key : ParityKey} :
    (label, key) ∈ markList text previous current ↔
      label = "added" ∧ key ∈ onlyIn (parityKey text) (findingsIn current)
      (findingsIn previous) ∨
      label = "removed" ∧
        key ∈ onlyIn (parityKey text) (findingsIn previous) (findingsIn current) := by
  simp only [markList, List.mem_append, List.mem_map,
    Prod.mk.injEq, ← toFinset_absentKeys, List.mem_toFinset]
  constructor
  · rintro (⟨_, member, rfl, rfl⟩ | ⟨_, member, rfl, rfl⟩)
    · exact .inl ⟨rfl, member⟩
    · exact .inr ⟨rfl, member⟩
  · rintro (⟨rfl, member⟩ | ⟨rfl, member⟩)
    · exact .inl ⟨key, member, rfl, rfl⟩
    · exact .inr ⟨key, member, rfl, rfl⟩

theorem nodup_markList : (markList text previous current).Nodup := by
  have labelled : ∀ (label : String) {keys : List ParityKey}, keys.Nodup →
      (keys.map (label, ·)).Nodup := fun label _ distinct =>
    distinct.map fun _ _ same => (Prod.mk.inj same).2
  refine (labelled _ (nodup_absentKeys _ _)).append (labelled _ (nodup_absentKeys _ _)) ?_
  rintro ⟨label, key⟩ added removed
  obtain ⟨_, _, first⟩ := List.mem_map.mp added
  obtain ⟨_, _, second⟩ := List.mem_map.mp removed
  exact absurd ((Prod.mk.inj first).1.trans (Prod.mk.inj second).1.symm) (by decide)

/-- The sort key of a mark. -/
def markOrder (mark : String × ParityKey) : List String :=
  [mark.1, mark.2.1, mark.2.2.1, mark.2.2.2]

theorem markOrder_injective : Function.Injective markOrder := by
  rintro ⟨label, first, second, third⟩ ⟨label', first', second', third'⟩ same
  simp only [markOrder, List.cons.injEq] at same
  obtain ⟨rfl, rfl, rfl, rfl, _⟩ := same
  rfl

/-- The order of the marks, as a comparison. -/
def markLe (left right : String × ParityKey) : Bool :=
  !decide (markOrder right < markOrder left)

theorem markLe_iff {left right : String × ParityKey} :
    markLe left right = true ↔ markOrder left ≤ markOrder right := by
  rw [markLe, Bool.not_eq_true', decide_eq_false_iff_not, not_lt]

theorem driftMarks_eq : driftMarks text previous current =
    (markList text previous current).mergeSort markLe := by
  unfold driftMarks driftChanges
  refine (List.map_mergeSort (s := markLe) fun _ _ _ _ => rfl).trans ?_
  rw [List.map_append, map_mark_changesOf, map_mark_changesOf]
  rfl

theorem driftMarks_perm :
    (driftMarks text previous current).Perm (markList text previous current) := by
  rw [driftMarks_eq]
  exact List.mergeSort_perm _ _

/-- Marks come in an order of their own. -/
theorem driftMarks_congr {previous' current' : List ParityRow}
    (same : (markList text previous current).Perm (markList text previous' current')) :
    driftMarks text previous current = driftMarks text previous' current' := by
  have sorted : ∀ marks : List (String × ParityKey),
      (marks.mergeSort markLe).Pairwise fun left right => markLe left right = true := by
    intro marks
    apply List.pairwise_mergeSort
    · intro first second third low high
      rw [markLe_iff] at low high ⊢
      exact low.trans high
    · intro first second
      rw [Bool.or_eq_true, markLe_iff, markLe_iff]
      exact le_total _ _
  rw [driftMarks_eq, driftMarks_eq]
  refine List.Perm.eq_of_pairwise (fun first second _ _ low high =>
    ?_) (sorted _) (sorted _) ?_
  · rw [markLe_iff] at low high
    exact markOrder_injective (low.antisymm high)
  · exact (List.mergeSort_perm _ _).trans (same.trans (List.mergeSort_perm _ _).symm)

theorem findingsIn_perm {rows rows' : List ParityRow} (perm : rows.Perm rows') :
    (findingsIn rows).Perm (findingsIn rows') :=
  perm.filter _

/-- The rows of either side may come in any order. -/
theorem driftMarks_of_perm {previous' current' : List ParityRow}
    (old : previous.Perm previous') (new : current.Perm current') :
    driftMarks text previous current = driftMarks text previous' current' := by
  apply driftMarks_congr
  apply (List.perm_ext_iff_of_nodup nodup_markList nodup_markList).mpr
  rintro ⟨label, key⟩
  rw [mem_markList, mem_markList, onlyIn, onlyIn, onlyIn, onlyIn,
    keySet_perm (findingsIn_perm old), keySet_perm (findingsIn_perm new)]

/-- A change is carried by a finding of its side. -/
theorem carried_of_mem {change : Change}
    (member : change ∈ driftChanges text previous current) :
    parityKey text change.row = change.key ∧
      (change.change = "added" ∧ change.row ∈ findingsIn current ∨
        change.change = "removed" ∧ change.row ∈ findingsIn previous) := by
  rw [driftChanges, (List.mergeSort_perm _ _).mem_iff, List.mem_append] at member
  have side : ∀ label rows (other : Dict ParityKey ParityRow),
      change ∈ changesOf label (rowsByKey text rows) other →
        change.change = label ∧ parityKey text change.row = change.key ∧
        change.row ∈ rows := by
    intro label rows other here
    obtain ⟨entry, listed, rfl⟩ := List.mem_map.mp here
    have carries := mem_rowsByKey (List.mem_filter.mp listed).1
    exact ⟨rfl, carries.2, carries.1⟩
  rcases member with added | removed
  · obtain ⟨label, key, row⟩ := side _ _ _ added
    exact ⟨key, .inl ⟨label, row⟩⟩
  · obtain ⟨label, key, row⟩ := side _ _ _ removed
    exact ⟨key, .inr ⟨label, row⟩⟩

/-! ## Counts -/

/-- The number of marks of one direction. -/
theorem countP_driftMarks :
    (driftMarks text previous current).countP (·.1 == "added") =
        (onlyIn (parityKey text) (findingsIn current) (findingsIn previous)).card ∧
      (driftMarks text previous current).length =
        (changedKeys (parityKey text) (findingsIn previous)
          (findingsIn current)).card := by
  have card : ∀ rows other : List ParityRow,
      (absentKeys (rowsByKey text rows) (rowsByKey text other)).length =
        (onlyIn (parityKey text) rows other).card := by
    intro rows other
    rw [← toFinset_absentKeys, List.toFinset_card_of_nodup (nodup_absentKeys _ _)]
  rw [driftMarks_perm.countP_eq, driftMarks_perm.length_eq, card_changedKeys, markList]
  constructor
  · rw [List.countP_append, List.countP_map, List.countP_map, ← card]
    simp [Function.comp_def]
  · rw [List.length_append, List.length_map, List.length_map, card, card]

/-- The changes of one direction. -/
theorem length_added :
    ((driftChanges text previous current).filter (·.change == "added")).length =
    (onlyIn (parityKey text) (findingsIn current) (findingsIn previous)).card := by
  rw [← countP_driftMarks.1, driftMarks, List.countP_map, ← List.countP_eq_length_filter]
  rfl

theorem length_driftChanges : (driftChanges text previous current).length =
    (changedKeys (parityKey text) (findingsIn previous) (findingsIn current)).card := by
  rw [← countP_driftMarks.2, driftMarks, List.length_map]

theorem TooMany.comm : TooMany previous current ↔ TooMany current previous := by
  unfold TooMany
  rw [Nat.add_comm]

theorem comparedKey_comm :
    comparedKey text previous current = comparedKey text current previous := by
  unfold comparedKey
  simp only [@TooMany.comm previous current]

/-- The number of changes is the number of keys on exactly one side. -/
theorem driftRows_count : (driftRows text now previous current).2 =
    (changedKeys (comparedKey text previous current) (findingsIn previous)
      (findingsIn current)).card := by
  unfold comparedKey
  by_cases many : TooMany previous current
  · rw [driftRows_of_many many, if_pos many, card_changedKeys]
  · rw [driftRows_of_few many, if_neg many]
    exact length_driftChanges

end Core
end PqcScan
