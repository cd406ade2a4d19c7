import PqcScan.Library.Newest
import PqcScan.Store.Repo

/-!
# What retention deletes

`delete_scan` and `prune_host` only remove scans.  A scan that `prune_host`
selects has `keep` newer scans of its host and is not the newest done one, so
the newest scan of a host and its newest done scan always survive.
-/

namespace PqcScan
namespace Store
namespace Repo

open Library Python PqcScan.Core

/-! ## Deletion -/

/-- What deletion does to a table whose rows belong to scans. -/
theorem rows_deleteScans {ρ : Type} (rows : Database → List ρ) (scanOf : ρ → Nat)
    (one : ∀ db scanId, rows (deleteScan db scanId) =
      (rows db).filter fun row => scanOf row != scanId)
    (db : Database) (ids : List Nat) :
    rows (deleteScans db ids) = (rows db).filter fun row => !ids.contains
      (scanOf row) := by
  induction ids generalizing db with
  | nil => simp [deleteScans]
  | cons scanId rest inductionHypothesis =>
      rw [deleteScans, List.foldl_cons, ← deleteScans, inductionHypothesis, one,
        List.filter_filter]
      refine List.filter_congr fun row _ => ?_
      by_cases same : scanOf row = scanId <;> simp [same]

theorem scans_deleteScans (db : Database) (ids : List Nat) :
    (deleteScans db ids).scans.rows =
      db.scans.rows.filter fun scan => !ids.contains scan.id :=
  rows_deleteScans (·.scans.rows) Scan.id (fun _ _ => rfl) db ids

theorem findings_deleteScans (db : Database) (ids : List Nat) :
    (deleteScans db ids).findings.rows =
      db.findings.rows.filter fun row => !ids.contains row.scanId :=
  rows_deleteScans (·.findings.rows) FindingRow.scanId (fun _ _ => rfl) db ids

theorem baselines_deleteScans (db : Database) (ids : List Nat) :
    (deleteScans db ids).baselines.rows =
      db.baselines.rows.filter fun row => !ids.contains row.scanId :=
  rows_deleteScans (·.baselines.rows) Baseline.scanId (fun _ _ => rfl) db ids

@[simp] theorem hosts_deleteScans (db : Database) (ids : List Nat) :
    (deleteScans db ids).hosts = db.hosts := by
  induction ids generalizing db with
  | nil => rfl
  | cons scanId rest inductionHypothesis =>
      exact inductionHypothesis (deleteScan db scanId)

theorem mem_deleteScans {db : Database} {ids : List Nat} {scan : Scan} :
    scan ∈ (deleteScans db ids).scans ↔ scan ∈ db.scans ∧ scan.id ∉ ids := by
  rw [Table.mem_iff, scans_deleteScans, List.mem_filter]
  simp [Table.mem_iff]

theorem scansOf_deleteScans (db : Database) (ids : List Nat) (hostId : Nat) :
    scansOf (deleteScans db ids) hostId =
      (scansOf db hostId).filter fun scan => !ids.contains scan.id := by
  rw [scansOf, scansOf, scans_deleteScans, List.filter_filter, List.filter_filter]
  exact List.filter_congr fun scan _ => Bool.and_comm _ _

theorem mem_scansOf {db : Database} {hostId : Nat} {scan : Scan} :
    scan ∈ scansOf db hostId ↔ scan ∈ db.scans ∧ scan.hostId = some hostId := by
  simp [scansOf, Table.mem_iff]

theorem scansOf_ascending (db : Database) (hostId : Nat) :
    (scansOf db hostId).Pairwise fun left right => left.id < right.id :=
  List.Pairwise.filter _ db.scans.ascending

/-- A deletion that spares the newest done scan of a host does not change it. -/
theorem latestDone_of_filter {db after : Database} {keep : Scan → Bool} {hostId : Nat}
    (rows : after.scans.rows = db.scans.rows.filter keep)
    (spared : ∀ newest, latestDone db hostId = some newest → keep newest = true) :
    latestDone after hostId = latestDone db hostId := by
  have commuted : (scansOf after hostId).filter (fun scan => scan.status == "done") =
      ((scansOf db hostId).filter fun scan => scan.status == "done").filter keep := by
    rw [scansOf, scansOf, rows]
    simp only [List.filter_filter]
    exact List.filter_congr fun scan _ => by ac_rfl
  cases latest : latestDone db hostId with
  | none =>
      rw [latestDone, List.getLast?_eq_none_iff] at latest ⊢
      rw [commuted, latest, List.filter_nil]
  | some newest =>
      rw [latestDone, commuted]
      exact getLast?_filter_of_kept latest (spared newest latest)

theorem latestDone_mem {db : Database} {hostId : Nat} {newest : Scan}
    (latest : latestDone db hostId = some newest) :
    newest ∈ db.scans ∧ newest.hostId = some hostId ∧ newest.status = "done" := by
  have member := List.mem_of_getLast? latest
  rw [List.mem_filter, mem_scansOf] at member
  exact ⟨member.1.1, member.1.2, by simpa using member.2⟩

/-- No done scan of a host is newer than its newest done one. -/
theorem le_latestDone {db : Database} {hostId : Nat} {newest scan : Scan}
    (latest : latestDone db hostId = some newest) (member : scan ∈ db.scans)
    (owned : scan.hostId = some hostId) (done : scan.status = "done") :
    scan.id ≤ newest.id := by
  have listed : scan ∈ (scansOf db hostId).filter fun scan => scan.status == "done" :=
    List.mem_filter.mpr ⟨mem_scansOf.mpr ⟨member, owned⟩, by simpa using done⟩
  rcases eq_or_before_getLast? (List.Pairwise.filter _ (scansOf_ascending db hostId))
    latest listed with rfl | before
  · exact le_rfl
  · exact before.le

/-- A host without a newest done scan has no done scan. -/
theorem latestDone_eq_none_iff {db : Database} {hostId : Nat} :
    latestDone db hostId = none ↔
      ∀ scan ∈ db.scans, scan.hostId = some hostId → scan.status ≠ "done" := by
  rw [latestDone, List.getLast?_eq_none_iff, List.filter_eq_nil_iff]
  constructor
  · intro absent scan member owned done
    exact absent scan (mem_scansOf.mpr ⟨member, owned⟩) (by simpa using done)
  · intro absent scan listed done
    obtain ⟨member, owned⟩ := mem_scansOf.mp listed
    exact absent scan member owned (by simpa using done)

/-! ## Retention of one host -/

/-- The scans of a host that are newer than a given one. -/
def newerScans (db : Database) (hostId scanId : Nat) : List Scan :=
  (scansOf db hostId).filter fun scan => decide (scanId < scan.id)

/-- A selected scan belongs to the host, has `keep` newer scans and is not the
newest done one. -/
theorem mem_pruneVictims {db : Database} {hostId keep scanId : Nat}
    (selected : scanId ∈ pruneVictims db hostId keep) :
    (∃ scan ∈ db.scans, scan.id = scanId ∧ scan.hostId = some hostId) ∧
      keep ≤ (newerScans db hostId scanId).length ∧
      some scanId ≠ (latestDone db hostId).map Scan.id := by
  unfold pruneVictims at selected
  rw [List.mem_filter] at selected
  obtain ⟨beyond, notNewest⟩ := selected
  refine ⟨?_, ?_, by simpa using notNewest⟩
  · have listed := List.mem_of_mem_drop beyond
    rw [List.mem_reverse, List.mem_filter, List.mem_map] at listed
    obtain ⟨⟨scan, member, same⟩, _⟩ := listed
    obtain ⟨stored, owned⟩ := mem_scansOf.mp member
    exact ⟨scan, stored, same, owned⟩
  · have descending : ((((scansOf db hostId).map Scan.id).filter
        (!(db.baselines.rows.map Baseline.scanId).contains ·)).reverse).Pairwise
          fun left right => right < left :=
      List.pairwise_reverse.mpr (List.Pairwise.filter _
        (List.pairwise_map.mpr (scansOf_ascending db hostId)))
    have ranked := le_length_filter_of_mem_drop descending beyond
      (fun other => decide (scanId < other)) (by simp)
    rw [List.filter_reverse, List.length_reverse] at ranked
    refine ranked.trans ?_
    calc
      _ ≤ (((scansOf db hostId).map Scan.id).filter
            fun other => decide (scanId < other)).length :=
          (List.filter_sublist.filter _).length_le
      _ = (newerScans db hostId scanId).length := by
          rw [List.filter_map, List.length_map]
          rfl

/-- A done scan without a newer done scan is the newest done one. -/
theorem latestDone_eq_some {db : Database} {hostId : Nat} {scan : Scan}
    (member : scan ∈ db.scans) (owned : scan.hostId = some hostId)
    (done : scan.status = "done")
    (newest : ∀ newer ∈ newerScans db hostId scan.id, newer.status ≠ "done") :
    latestDone db hostId = some scan := by
  refine getLast?_eq_of_greatest
    (List.Pairwise.filter _ (scansOf_ascending db hostId))
    (List.mem_filter.mpr ⟨mem_scansOf.mpr ⟨member, owned⟩, by simp [done]⟩) ?_
  intro other otherMember newer
  rw [List.mem_filter] at otherMember
  exact newest other (List.mem_filter.mpr ⟨otherMember.1, by simpa using newer⟩)
    (by simpa using otherMember.2)

/-- The newer scans of a host are no more than a list that has them all. -/
theorem length_newerScans_le {db : Database} {hostId scanId : Nat}
    {listed : List Scan}
    (all : ∀ newer ∈ newerScans db hostId scanId, newer ∈ listed) :
    (newerScans db hostId scanId).length ≤ listed.length := by
  have distinct : (newerScans db hostId scanId).Nodup :=
    (List.Pairwise.filter _ (scansOf_ascending db hostId)).imp
      (fun {left right} below equal =>
        (Nat.ne_of_lt below) (congrArg Scan.id equal))
  exact (distinct.subperm all).length_le

/-- A successful prune deletes what it selects. -/
theorem pruneHost_ok {db after : Database} {hostId keep count : Nat}
    (pruned : pruneHost db hostId keep = .ok (after, count)) :
    1 ≤ keep ∧ after = deleteScans db (pruneVictims db hostId keep) := by
  unfold pruneHost at pruned
  split at pruned
  · cases pruned
  · next large =>
      cases pruned
      exact ⟨by omega, rfl⟩

/-- A stale rollup carries the rollup label. -/
theorem mem_staleRollups {now : DateTime} {db : Database} {scanId : Nat}
    (stale : scanId ∈ staleRollups now db) :
    ∃ scan ∈ db.scans, scan.id = scanId ∧ scan.label = some fleetRollupLabel := by
  unfold staleRollups at stale
  rw [List.mem_map] at stale
  obtain ⟨scan, member, same⟩ := stale
  rw [List.mem_filter, Bool.and_eq_true, Bool.and_eq_true] at member
  exact ⟨scan, member.1, same, by simpa using member.2.1.1⟩

end Repo
end Store
end PqcScan
