import PqcScan.Store.Repo

/-!
# Storing a bundle

`Repo.ingest_bundle` and the drift it computes beforehand.  The work is cut
where the source changes session or reaches a flush: the drift read, the
duplicate check, and the write, which ends in the one commit.
-/

namespace PqcScan
namespace Store

open Library Python PqcScan.Core

/-- What `ingest_bundle` reports. -/
structure IngestResult where
  scanId : Nat
  storedFindings : Nat
  storedViews : Nat
  duplicate : Bool
  drift : Nat
  deriving DecidableEq, Repr

/-- How the write can fail: an exception of the coercions, or a
constraint of the database. -/
inductive WriteError
  | python (error : PyError)
  | integrity
  deriving DecidableEq, Repr

namespace Repo

/-- `_parse_dt`. -/
def parseDt (py : Runtime) (value : Option Json) : Option DateTime :=
  match value with
  | some value =>
      if value.truthy then py.datetimeFromIso (value.toStr py.toText) else none
  | none => none

/-- `str(mapping.get(key, default))`. -/
def strOr (py : Runtime) (members : JsonObject) (key default : String) : String :=
  match members.get? key with
  | some value => value.toStr py.toText
  | none => default

/-- The status a bundle states. -/
def statedStatus (py : Runtime) (bundle : ScanBundle) : String :=
  strOr py bundle.scan "status" "done"

/-- The status its scan row gets. -/
def storedStatus (py : Runtime) (bundle : ScanBundle) : String :=
  if ingestStatuses.contains (statedStatus py bundle) then statedStatus py bundle
  else "done"

/-! ## The drift read -/

/-- A stored finding as the parity key reads it. -/
def storedParityRow (row : FindingRow) : ParityRow where
  probeId := row.probeId
  algorithm := row.algorithm
  title := row.title
  evidence := row.evidence

/-- A finding of a bundle as the parity key reads it. -/
def bundleParityRow (py : Runtime) (finding : JsonObject) :
    Except PyError ParityRow := do
  let probe ← Json.subscript (.object finding) "probe_id"
  let evidence ← dictOrEmpty py.toText (finding.get? "evidence")
  .ok
    { probeId := probe.toStr py.toText
      algorithm := strOr py finding "algorithm" "N/A"
      title := strOr py finding "title" ""
      evidence }

/-- `_bundle_drift`. -/
def bundleDrift (py : Runtime) (now : Nat → DateTime) (db : Database)
    (bundle : ScanBundle) (hostId : Nat) : Except PyError (List Finding × Nat) :=
  let status := statedStatus py bundle
  if ingestStatuses.contains status && status != "done" then .ok ([], 0)
  else if (getScanIdByUuid db bundle.scanUuid).isSome then .ok ([], 0)
  else
    match latestDone db hostId with
    | none => .ok ([], 0)
    | some previous => do
        let current ← (bundle.findings.filter (!claimsDrift ·)).mapM
          (bundleParityRow py)
        let stored := db.findings.rows.filter (·.scanId == previous.id)
        .ok (driftRows py.toText now (stored.map storedParityRow) current)

/-! ## The duplicate check -/

/-- The reads at the start of the write session: the host row, and the scan
that already carries the uuid for this host. -/
def duplicateCheck (db : Database) (bundle : ScanBundle) (hostId : Nat) :
    Except PyError (Host × Option Nat) :=
  match getHost db hostId with
  | none => .error (.valueError s!"host {hostId} not found")
  | some host =>
      match db.scans.rows.find? (·.scanUuid == some bundle.scanUuid) with
      | none => .ok (host, none)
      | some existing =>
          if existing.hostId = some hostId then .ok (host, some existing.id)
          else .error (.valueError "scan_uuid belongs to another host")

/-- The result for a bundle that is already stored. -/
def duplicateResult (scanId : Nat) : IngestResult where
  scanId := scanId
  storedFindings := 0
  storedViews := 0
  duplicate := true
  drift := 0

/-! ## The write -/

/-- The scan row of a bundle. -/
def scanRow (py : Runtime) (now : DateTime) (bundle : ScanBundle) (hostId : Nat) :
    Except PyError Scan := do
  let probeVersions ← dictOrEmpty py.toText (bundle.scan.get? "probe_versions")
  let toolVersions ← dictOrEmpty py.toText (bundle.scan.get? "tool_versions")
  .ok
    { id := 0
      startedAt := (parseDt py (bundle.scan.get? "started_at")).getD now
      finishedAt := parseDt py (bundle.scan.get? "finished_at")
      hostFingerprint := some bundle.host.hostname
      mode := strOr py bundle.scan "mode" "user"
      status := storedStatus py bundle
      label := none
      probeVersions
      toolVersions
      hostId := some hostId
      scanUuid := some bundle.scanUuid }

/-- The row of one finding of a bundle. -/
def findingRow (py : Runtime) (now : DateTime) (scanId : Nat)
    (finding : JsonObject) : Except PyError FindingRow := do
  let probe ← Json.subscript (.object finding) "probe_id"
  let evidence ← dictOrEmpty py.toText (finding.get? "evidence")
  let remediation ← dictOrEmpty py.toText (finding.get? "remediation")
  .ok
    { id := 0
      scanId
      componentId := none
      probeId := probe.toStr py.toText
      algorithm := strOr py finding "algorithm" "N/A"
      classification := strOr py finding "classification" "info"
      severity := strOr py finding "severity" "info"
      title := strOr py finding "title" ""
      evidence
      remediation
      createdAt := (parseDt py (finding.get? "created_at")).getD now }

/-- What `for v in finding.get("views") or []` visits. -/
def listedViews (finding : JsonObject) : Except PyError (List Json) :=
  match finding.get? "views" with
  | none => .ok []
  | some value =>
      if value.truthy then
        match value.iterate with
        | some items => .ok items
        | none =>
            .error (.typeError ("'" ++ value.typeName ++ "' object is not iterable"))
      else .ok []

/-- `date.fromisoformat(v["deadline"]) if v.get("deadline") else None`. -/
def viewDeadline (py : Runtime) (view : Json) : Except PyError (Option Date) :=
  match view with
  | .object members =>
      match JsonObject.get? members "deadline" with
      | none => .ok none
      | some value =>
          if value.truthy then
            match value with
            | .str content =>
                match py.dateFromIso content with
                | some date => .ok (some date)
                | none =>
                    .error (.valueError
                      ("Invalid isoformat string: " ++ reprStr py.toText content))
            | _ => .error (.typeError "fromisoformat: argument must be str")
          else .ok none
  | _ => .ok none

/-- The row of one framework view. -/
def viewRow (py : Runtime) (findingId : Nat) (view : Json) :
    Except PyError FrameworkView := do
  let framework ← view.subscript "framework"
  let clause ← view.subscript "clause"
  let verdict ← view.subscript "verdict"
  let deadline ← viewDeadline py view
  .ok
    { id := 0
      findingId
      framework := framework.toStr py.toText
      clause := clause.toStr py.toText
      verdict := verdict.toStr py.toText
      deadline }

/-- The inner loop: the views of one finding. -/
def storeViews (py : Runtime) (findingId : Nat) :
    List Json → Table FrameworkView → Except PyError (Table FrameworkView)
  | [], views => .ok views
  | view :: rest, views => do
      let row ← viewRow py findingId view
      storeViews py findingId rest (views.add row)

/-- The outer loop: each finding, flushed, and then its views.  The counts are
the source's `n_f` and `n_v`. -/
def storeFindings (py : Runtime) (now : Nat → DateTime) (scanId : Nat) :
    List JsonObject → Nat → Nat → Table FindingRow → Table FrameworkView →
      Except PyError (Table FindingRow × Table FrameworkView × Nat × Nat)
  | [], nF, nV, findings, views => .ok (findings, views, nF, nV)
  | finding :: rest, nF, nV, findings, views => do
      let row ← findingRow py (now (nF + 1)) scanId finding
      let listed ← listedViews finding
      let stored ← storeViews py findings.nextId listed views
      storeFindings py now scanId rest (nF + 1) (nV + listed.length)
        (findings.add row) stored

/-- The row of one drift finding. -/
def driftFindingRow (scanId : Nat) (finding : Finding) : FindingRow where
  id := 0
  scanId := scanId
  componentId := none
  probeId := finding.probeId
  algorithm := finding.algorithm
  classification := finding.classification.value
  severity := finding.severity.value
  title := finding.title
  evidence := finding.evidence
  remediation := finding.remediation
  createdAt := finding.createdAt

/-- The drift rows, after the bundle's own. -/
def storeDrift (scanId : Nat) (drift : List Finding) (findings : Table FindingRow) :
    Table FindingRow :=
  drift.foldl (fun table finding => table.add (driftFindingRow scanId finding))
    findings

/-- The flush of a changed host row: only columns that differ from what the
session loaded are written over the row as it is now. -/
def flushIdentity (loaded updated current : Host) : Host :=
  { current with
    hostname :=
      if updated.hostname = loaded.hostname then current.hostname
      else updated.hostname
    os := if updated.os = loaded.os then current.os else updated.os
    labels := if updated.labels = loaded.labels then current.labels else updated.labels
    agentVersion :=
      if updated.agentVersion = loaded.agentVersion then current.agentVersion
      else updated.agentVersion
    lastSeen :=
      if updated.lastSeen = loaded.lastSeen then current.lastSeen
      else updated.lastSeen }

/-- The host row after a bundle of the host has been stored. -/
def refreshHost (now : DateTime) (db : Database) (host : Host)
    (identity : HostIdentity) : Database :=
  db.updateHost host.id (flushIdentity host (applyIdentity now host identity))
    (fun _ => rfl) (fun _ _ apart => apart)

/-- Everything from the scan row to the commit. -/
def writeBundle (py : Runtime) (now : Nat → DateTime) (db : Database)
    (bundle : ScanBundle) (host : Host) (drift : List Finding) (changes : Nat) :
    Except WriteError (Database × IngestResult) :=
  match scanRow py (now 0) bundle host.id with
  | .error error => .error (.python error)
  | .ok scan =>
      match db.insertScan? scan with
      | none => .error .integrity
      | some inserted =>
          let scanId := db.scans.nextId
          match storeFindings py now scanId bundle.findings 0 0 db.findings
              db.views with
          | .error error => .error (.python error)
          | .ok (findings, views, nF, nV) =>
              let written :=
                { inserted with
                  findings := storeDrift scanId drift findings, views }
              .ok
                (refreshHost (now (nF + 1)) written host bundle.host,
                  { scanId, storedFindings := nF, storedViews := nV,
                    duplicate := false, drift := changes })

/-- `ingest_bundle`: the database after the call, and what it returns or
raises.  A session that is not committed rolls back. -/
def ingestBundle (py : Runtime) (now : Nat → DateTime) (db : Database)
    (bundle : ScanBundle) (hostId : Nat) :
    Database × Except WriteError IngestResult :=
  match bundleDrift py now db bundle hostId with
  | .error error => (db, .error (.python error))
  | .ok (drift, changes) =>
      match duplicateCheck db bundle hostId with
      | .error error => (db, .error (.python error))
      | .ok (_, some scanId) => (db, .ok (duplicateResult scanId))
      | .ok (host, none) =>
          match writeBundle py now db bundle host drift changes with
          | .error error => (db, .error error)
          | .ok (after, result) => (after, .ok result)

end Repo

end Store
end PqcScan
