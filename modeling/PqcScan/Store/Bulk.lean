import PqcScan.Library.Queries
import PqcScan.Store.Summary

/-!
# Queries over several scans

`list_findings_bulk` and `drift_counts`: one query over several scans gives what a query
for each of them gives.
-/

namespace PqcScan
namespace Store

open Library Python PqcScan.Core

namespace Repo

variable (db : Database) (scanIds : List Nat)

/-! ## Findings -/

/-- The rows of the query of `list_findings_bulk`. -/
def bulkRows : List FindingRow :=
  (db.findings.rows.filter fun row => scanIds.contains row.scanId).insertionSort
    fun left right => left.createdAt ≤ right.createdAt

/-- `grouped[r.scan_id].append(r)`; nothing for a `KeyError`. -/
def appendRow (grouped : Dict Nat (List FindingRow)) (row : FindingRow) :
    Option (Dict Nat (List FindingRow)) :=
  (grouped.get? row.scanId).map fun group => grouped.set row.scanId (group ++ [row])

/-- `list_findings_bulk`. -/
def listFindingsBulk : Option (Dict Nat (List FindingRow)) :=
  let grouped := Dict.ofList (scanIds.map fun scanId => (scanId, []))
  if scanIds = [] then some grouped
  else (bulkRows db scanIds).foldlM appendRow grouped

/-- Rows of known scans are appended in their order. -/
theorem foldlM_appendRow {rows : List FindingRow} {grouped : Dict Nat (List FindingRow)}
    (known : ∀ row ∈ rows, (grouped.get? row.scanId).isSome = true) :
    ∃ result, rows.foldlM appendRow grouped = some result ∧
      ∀ scanId, result.get? scanId =
        (grouped.get? scanId).map (· ++ rows.filter fun row => row.scanId == scanId) := by
  induction rows generalizing grouped with
  | nil =>
      refine ⟨grouped, rfl, fun scanId => ?_⟩
      cases grouped.get? scanId <;> simp
  | cons row rows inductionHypothesis =>
      obtain ⟨group, held⟩ := Option.isSome_iff_exists.mp (known row List.mem_cons_self)
      have appended : appendRow grouped row =
          some (grouped.set row.scanId (group ++ [row])) := by
        rw [appendRow, held, Option.map_some]
      have still : ∀ later ∈ rows,
          ((grouped.set row.scanId (group ++ [row])).get? later.scanId).isSome =
            true := by
        intro later inside
        rw [Dict.get?_set]
        split
        · rfl
        · exact known later (List.mem_cons_of_mem _ inside)
      obtain ⟨result, folded, values⟩ := inductionHypothesis still
      refine ⟨result, ?_, fun scanId => ?_⟩
      · rw [List.foldlM_cons, appended]
        exact folded
      · rw [values, Dict.get?_set]
        by_cases same : scanId = row.scanId
        · rw [if_pos same, same, held, List.filter_cons_of_pos (by simp), Option.map_some,
            Option.map_some, List.append_assoc, List.singleton_append]
        · rw [if_neg same, List.filter_cons_of_neg (by simpa using Ne.symm same)]

/-- The rows of one of the scans, in the order of `list_findings`. -/
theorem filter_bulkRows {scanId : Nat} (asked : scanId ∈ scanIds) :
    (bulkRows db scanIds).filter
      (fun row => row.scanId == scanId) = listFindings db scanId := by
  have selected : (db.findings.rows.filter fun row => scanIds.contains row.scanId).filter
      (fun row => row.scanId == scanId) =
        db.findings.rows.filter fun row => row.scanId == scanId := by
    rw [List.filter_filter]
    refine List.filter_congr fun row _ => ?_
    by_cases same : row.scanId = scanId
    · simp [same, asked]
    · simp [same]
  have total : Std.Total fun left right : FindingRow =>
      left.createdAt ≤ right.createdAt :=
    ⟨fun left right => Int.le_total left.createdAt right.createdAt⟩
  have transitive : IsTrans FindingRow fun left right =>
      left.createdAt ≤ right.createdAt :=
    ⟨fun _ _ _ => Int.le_trans⟩
  rw [bulkRows, filter_insertionSort, selected]
  rfl

/-- The query over several scans always returns, with the requested scans as its keys and
for each of them what `list_findings` returns. -/
theorem listFindingsBulk_spec :
    ∃ grouped, listFindingsBulk db scanIds = some grouped ∧
      ∀ scanId, grouped.get? scanId =
        if scanId ∈ scanIds then some (listFindings db scanId) else none := by
  rw [listFindingsBulk]
  by_cases none : scanIds = []
  · subst none
    exact ⟨_, if_pos rfl, fun scanId => rfl⟩
  · rw [if_neg none]
    have known : ∀ row ∈ bulkRows db scanIds, ((Dict.ofList (scanIds.map fun scanId =>
        (scanId, ([] : List FindingRow)))).get? row.scanId).isSome = true := by
      intro row inside
      rw [bulkRows, List.mem_insertionSort, List.mem_filter,
        List.contains_iff_mem] at inside
      rw [get?_ofList_const, if_pos inside.2]
      rfl
    obtain ⟨grouped, folded, values⟩ := foldlM_appendRow known
    refine ⟨grouped, folded, fun scanId => ?_⟩
    rw [values, get?_ofList_const]
    by_cases asked : scanId ∈ scanIds
    · rw [if_pos asked, if_pos asked, Option.map_some, List.nil_append,
        filter_bulkRows db _ asked]
    · rw [if_neg asked, if_neg asked, Option.map_none]

/-! ## Drift -/

/-- `drift_counts`. -/
def driftCounts : Dict Nat Nat :=
  Dict.ofList (groupCount ((db.findings.rows.filter fun row =>
    scanIds.contains row.scanId && isDrift row).map FindingRow.scanId))

/-- The grouped rows of a scan are its drift rows. -/
theorem count_driftRows (scanId : Nat) :
    ((db.findings.rows.filter fun row =>
        scanIds.contains row.scanId && isDrift row).map FindingRow.scanId).count scanId =
      if scanId ∈ scanIds then (listFindings db scanId).countP isDrift else 0 := by
  have listed : (listFindings db scanId).Perm
      (db.findings.rows.filter (·.scanId == scanId)) :=
    List.perm_insertionSort _ _
  rw [listed.countP_eq, List.countP_filter, List.count, List.countP_map,
    List.countP_filter]
  by_cases asked : scanId ∈ scanIds
  · rw [if_pos asked]
    refine List.countP_congr fun row _ => ?_
    by_cases same : row.scanId = scanId
    · simp [same, asked]
    · simp [same]
  · rw [if_neg asked, List.countP_eq_zero]
    intro row _ counts
    simp only [Function.comp_apply, Bool.and_eq_true, beq_iff_eq,
      List.contains_iff_mem] at counts
    exact asked (counts.1 ▸ counts.2.1)

/-- A requested scan has the number of the drift rows that `list_findings` returns for it,
and no entry when there are none. -/
theorem driftCounts_spec (scanId : Nat) :
    (driftCounts db scanIds).get? scanId =
      if scanId ∈ scanIds ∧ 0 < (listFindings db scanId).countP isDrift then
        some ((listFindings db scanId).countP isDrift)
      else none := by
  rw [driftCounts, get?_ofList_groupCount, count_driftRows]
  by_cases asked : scanId ∈ scanIds
  · simp [asked]
  · simp [asked]

end Repo
end Store
end PqcScan
