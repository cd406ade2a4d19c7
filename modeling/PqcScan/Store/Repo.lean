import PqcScan.Store.Bundle

/-!
# Host rows, deletion and retention

The transactions of `store/repo.py` that do not read a bundle.  Each function
takes the database before the transaction and returns the one after it.
`now` lists the readings of `utcnow` during a call.
-/

namespace PqcScan
namespace Store

open Library Python PqcScan.Core

/-- `_INGEST_STATUSES`. -/
def ingestStatuses : List String := ["done", "failed", "interrupted"]

/-- `FLEET_ROLLUP_LABEL`. -/
def fleetRollupLabel : String := "fleet-rollup"

namespace Repo

/-! ## Host rows -/

/-- `_apply_identity`. -/
def applyIdentity (now : DateTime) (host : Host) (identity : HostIdentity) :
    Host :=
  { host with
    hostname := if identity.hostname = "" then host.hostname else identity.hostname
    os := if identity.os = "" then host.os else identity.os
    labels := host.labels.merge identity.labels
    agentVersion :=
      if identity.agentVersion = "" then host.agentVersion
      else identity.agentVersion
    lastSeen := now }

/-- The columns of a new host row before its identity is applied. -/
def newHost (now : DateTime) (machineId : String) : Host where
  id := 0
  machineId := machineId
  hostname := ""
  os := ""
  labels := Dict.empty
  agentVersion := ""
  firstSeen := now
  lastSeen := now
  tokenHash := none
  revoked := false

/-- `get_host`. -/
def getHost (db : Database) (hostId : Nat) : Option Host := db.hosts.get? hostId

/-- `get_host_by_machine_id`. -/
def getHostByMachineId (db : Database) (machineId : String) : Option Host :=
  db.hosts.rows.find? fun host => host.machineId == machineId

/-- `get_host_by_token_hash`. -/
def getHostByTokenHash (db : Database) (tokenHash : String) : Option Host :=
  db.hosts.rows.find? fun host => host.tokenHash == some tokenHash

/-- The host row `upsert_host` writes.  A given token hash replaces the stored
one; `revoked` is never touched. -/
def upsertRow (now : DateTime) (identity : HostIdentity)
    (tokenHash : Option String) (host : Host) : Host :=
  let host := applyIdentity now host identity
  match tokenHash with
  | some hash => { host with tokenHash := some hash }
  | none => host

theorem upsertRow_id (now : DateTime) (identity : HostIdentity)
    (tokenHash : Option String) (host : Host) :
    (upsertRow now identity tokenHash host).id = host.id := by
  cases tokenHash <;> rfl

/-- `upsert_host`: `none` when the commit violates a unique column. -/
def upsertHost (now : DateTime) (db : Database) (identity : HostIdentity)
    (tokenHash : Option String) : Option (Database × Host) :=
  match getHostByMachineId db identity.machineId with
  | some host =>
      (db.updateHost? host.id (upsertRow now identity tokenHash)
        (upsertRow_id now identity tokenHash)).map fun after =>
          (after, upsertRow now identity tokenHash host)
  | none =>
      let row := upsertRow now identity tokenHash (newHost now identity.machineId)
      (db.insertHost? row).map fun after =>
        (after, { row with id := db.hosts.nextId })

/-- The row `revoke_host` writes. -/
def revokeRow (host : Host) : Host :=
  { host with revoked := true, tokenHash := none }

theorem revokeRow_keepsApart (host other : Host)
    (apart : Row.clash host other = false) :
    Row.clash (revokeRow host) other = false := by
  simp_all [Row.clash, revokeRow]

/-- `revoke_host`. -/
def revokeHost (db : Database) (hostId : Nat) : Database × Bool :=
  match getHost db hostId with
  | none => (db, false)
  | some _ =>
      (db.updateHost hostId revokeRow (fun _ => rfl) revokeRow_keepsApart, true)

/-- The row `unrevoke_host` writes. -/
def unrevokeRow (host : Host) : Host := { host with revoked := false }

/-- `unrevoke_host`. -/
def unrevokeHost (db : Database) (hostId : Nat) : Database × Bool :=
  match getHost db hostId with
  | none => (db, false)
  | some _ =>
      (db.updateHost hostId unrevokeRow (fun _ => rfl) (fun _ _ apart => apart),
        true)

/-! ## Scan rows -/

/-- `get_scan_id_by_uuid`. -/
def getScanIdByUuid (db : Database) (scanUuid : String) : Option Nat :=
  (db.scans.rows.find? fun scan => scan.scanUuid == some scanUuid).map Scan.id

/-- The scans of one host, oldest first. -/
def scansOf (db : Database) (hostId : Nat) : List Scan :=
  db.scans.rows.filter fun scan => scan.hostId == some hostId

/-- The newest done scan of a host: what `_bundle_drift` compares with and
what `fleet_summary` reports. -/
def latestDone (db : Database) (hostId : Nat) : Option Scan :=
  ((scansOf db hostId).filter fun scan => scan.status == "done").getLast?

/-- `host_history`. -/
def hostHistory (db : Database) (hostId limit : Nat) : List Scan :=
  (scansOf db hostId).reverse.take limit

/-- `delete_scan`. -/
def deleteScan (db : Database) (scanId : Nat) : Database :=
  let doomed := (db.findings.rows.filter (·.scanId == scanId)).map FindingRow.id
  { db.filterScans fun scan => scan.id != scanId with
    views := db.views.filter fun view => !doomed.contains view.findingId
    findings := db.findings.filter fun row => row.scanId != scanId
    baselines := db.baselines.filter fun row => row.scanId != scanId
    edges := db.edges.filter fun row => row.scanId != scanId
    components := db.components.filter fun row => row.scanId != scanId }

/-- Delete several scans, each in its own transaction. -/
def deleteScans (db : Database) (scanIds : List Nat) : Database :=
  scanIds.foldl deleteScan db

/-- The scans `prune_host` selects: beyond the newest `keep` that are not
baselined, the newest done scan excepted. -/
def pruneVictims (db : Database) (hostId keep : Nat) : List Nat :=
  let newestDone := (latestDone db hostId).map Scan.id
  let baselined := db.baselines.rows.map Baseline.scanId
  let candidates :=
    ((scansOf db hostId).map Scan.id).filter (!baselined.contains ·)
  (candidates.reverse.drop keep).filter (some · != newestDone)

/-- `prune_host`. -/
def pruneHost (db : Database) (hostId keep : Nat) :
    Except PyError (Database × Nat) :=
  if keep < 1 then .error (.valueError "keep must be >= 1")
  else
    let old := pruneVictims db hostId keep
    .ok (deleteScans db old, old.length)

/-- Microseconds of an hour. -/
def hour : Int := 3600 * 1000000

/-- The temporary rollups `delete_stale_rollups` selects. -/
def staleRollups (now : DateTime) (db : Database) : List Nat :=
  (db.scans.rows.filter fun scan =>
    scan.label == some fleetRollupLabel && decide (scan.startedAt < now - hour) &&
      (match scan.toolVersions.get? "temporary" with
        | some (.bool true) => true
        | _ => false)).map Scan.id

/-- `delete_stale_rollups`. -/
def deleteStaleRollups (now : DateTime) (db : Database) : Database × Nat :=
  let stale := staleRollups now db
  (deleteScans db stale, stale.length)

end Repo

end Store
end PqcScan
