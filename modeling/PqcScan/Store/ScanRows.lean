import PqcScan.Store.Repo
import Mathlib.Data.List.Sort

/-!
# Local scans

The rows of the scans the collector runs itself: `create_scan`,
`begin_scan_if_idle`, `finish_scan` and `list_scans`.
-/

namespace PqcScan
namespace Store

open Library Python

/-- `UPDATE scans … WHERE id = key` that keeps the host and the uuid. -/
def Database.updateScan (db : Database) (key : Nat) (update : Scan → Scan)
    (sameId : ∀ scan, (update scan).id = scan.id)
    (sameHost : ∀ scan, (update scan).hostId = scan.hostId)
    (keepsApart : ∀ scan other, Row.clash scan other = false →
      Row.clash (update scan) other = false) : Database :=
  { db with
    scans := db.scans.modify key update sameId keepsApart
    hostStored := by
      intro scan member hostId refers
      rw [Table.rows_modify, Table.mem_modifyRows] at member
      rcases member with ⟨kept, _⟩ | ⟨old, before, _, rfl⟩
      · exact db.hostStored scan kept hostId refers
      · exact db.hostStored old before hostId ((sameHost old).symm.trans refers) }

@[simp] theorem rows_updateScan (db : Database) (key : Nat) (update : Scan → Scan)
    (sameId : ∀ scan, (update scan).id = scan.id)
    (sameHost : ∀ scan, (update scan).hostId = scan.hostId)
    (keepsApart : ∀ scan other, Row.clash scan other = false →
      Row.clash (update scan) other = false) :
    (db.updateScan key update sameId sameHost keepsApart).scans.rows =
      Table.modifyRows key update db.scans.rows := rfl

namespace Repo

/-- The arguments of `create_scan`, with the time and the uuid it draws. -/
structure ScanStart where
  startedAt : DateTime
  mode : String
  probeVersions : Dict String Json
  toolVersions : Dict String Json
  hostFingerprint : Option String
  scanUuid : String

/-- The row of a scan that begins. -/
def runningRow (start : ScanStart) : Scan where
  id := 0
  startedAt := start.startedAt
  finishedAt := none
  hostFingerprint := start.hostFingerprint
  mode := start.mode
  status := "running"
  label := none
  probeVersions := start.probeVersions
  toolVersions := start.toolVersions
  hostId := none
  scanUuid := some start.scanUuid

/-- `create_scan`: `none` when the uuid is taken. -/
def createScan (db : Database) (start : ScanStart) : Option (Database × Nat) :=
  (db.insertScan? (runningRow start)).map fun after => (after, db.scans.nextId)

/-- `begin_scan_if_idle`. -/
def beginScanIfIdle (db : Database) (start : ScanStart) :
    Option (Database × Option Nat) :=
  match db.scans.rows.find? (·.status == "running") with
  | some _ => some (db, none)
  | none => (createScan db start).map fun (after, scanId) => (after, some scanId)

/-- `finish_scan`. -/
def finishScan (now : DateTime) (db : Database) (scanId : Nat) (status : String) :
    Except PyError Database :=
  match db.scans.get? scanId with
  | none => .error (.valueError s!"scan {scanId} not found")
  | some _ =>
      .ok (db.updateScan scanId
        (fun scan => { scan with status, finishedAt := some now })
        (fun _ => rfl) (fun _ => rfl) (fun _ _ apart => apart))

/-- `list_scans`: the latest start first. -/
def listScans (db : Database) : List Scan :=
  db.scans.rows.insertionSort fun left right => right.startedAt ≤ left.startedAt

/-- How many rows have the status `running`. -/
def runningCount (db : Database) : Nat :=
  db.scans.rows.countP fun scan => scan.status == "running"

theorem mem_listScans {db : Database} {scan : Scan} :
    scan ∈ listScans db ↔ scan ∈ db.scans :=
  List.mem_insertionSort _

/-- A search for a running scan finds one if there is any. -/
theorem runningCount_eq_zero_iff {db : Database} {scans : List Scan}
    (same : ∀ scan, scan ∈ scans ↔ scan ∈ db.scans) :
    scans.find? (fun scan => scan.status == "running") = none ↔ runningCount db = 0 := by
  rw [List.find?_eq_none, runningCount, List.countP_eq_zero]
  exact forall_congr' fun scan => imp_congr_left (same scan)

theorem runningCount_createScan {db after : Database} {start : ScanStart} {scanId : Nat}
    (created : createScan db start = some (after, scanId)) :
    runningCount after = runningCount db + 1 := by
  unfold createScan at created
  rw [Option.map_eq_some_iff] at created
  obtain ⟨inserted, accepted, same⟩ := created
  obtain ⟨rfl, _⟩ := Prod.mk.inj same
  rw [runningCount, runningCount, (Database.scanInserted accepted).scans,
    List.countP_append]
  rfl

theorem runningCount_finishScan {now : DateTime} {db after : Database} {scanId : Nat}
    (finished : finishScan now db scanId "done" = .ok after) :
    runningCount after ≤ runningCount db := by
  unfold finishScan at finished
  split at finished
  · cases finished
  · cases finished
    rw [runningCount, runningCount, rows_updateScan, Table.modifyRows, List.countP_map]
    apply List.countP_mono_left
    intro scan _ running
    simp only [Function.comp_apply] at running
    split at running
    · simp at running
    · exact running

end Repo

end Store
end PqcScan
