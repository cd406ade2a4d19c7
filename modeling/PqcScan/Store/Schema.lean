import PqcScan.Core.Parity
import PqcScan.Library.Table

/-!
# The store

The rows of `store/schema.py` and the database as a whole.  Primary keys and
unique columns are kept by the tables; that a fleet scan refers to a stored
host (`ForeignKey("hosts.id")`) is a field of `Database`.
-/

namespace PqcScan
namespace Store

open Library Python PqcScan.Core

/-- An enrolled agent host: one row per machine id. -/
structure Host where
  id : Nat
  machineId : String
  hostname : String
  os : String
  labels : Dict String String
  agentVersion : String
  firstSeen : DateTime
  lastSeen : DateTime
  tokenHash : Option String
  revoked : Bool
  deriving DecidableEq

/-- One scan; `hostId` is set for the scans of the fleet. -/
structure Scan where
  id : Nat
  startedAt : DateTime
  finishedAt : Option DateTime
  hostFingerprint : Option String
  mode : String
  status : String
  label : Option String
  probeVersions : Dict String Json
  toolVersions : Dict String Json
  hostId : Option Nat
  scanUuid : Option String

/-- One stored finding. -/
structure FindingRow where
  id : Nat
  scanId : Nat
  componentId : Option Nat
  probeId : String
  algorithm : String
  classification : String
  severity : String
  title : String
  evidence : Dict String Json
  remediation : Dict String Json
  createdAt : DateTime

/-- The verdict of one framework on one finding. -/
structure FrameworkView where
  id : Nat
  findingId : Nat
  framework : String
  clause : String
  verdict : String
  deadline : Option Date
  deriving DecidableEq

/-- A scan saved as a baseline. -/
structure Baseline where
  id : Nat
  scanId : Nat
  label : String
  createdAt : DateTime
  notes : Option String
  deriving DecidableEq

/-- A component of a scan; only what deletion reads. -/
structure ComponentRow where
  id : Nat
  scanId : Nat
  deriving DecidableEq

/-- A dependency edge of a scan; only what deletion reads. -/
structure GraphEdge where
  id : Nat
  scanId : Nat
  deriving DecidableEq

/-! ## Primary keys and unique columns -/

/-- `machine_id` and `token_hash` are unique; several hosts may have no token. -/
instance : Row Host where
  id := Host.id
  withId key host := { host with id := key }
  clash left right :=
    left.machineId == right.machineId ||
      (left.tokenHash.isSome && left.tokenHash == right.tokenHash)
  id_withId _ _ := rfl
  clash_withId _ _ _ := rfl
  clash_comm left right := by
    rw [Bool.beq_comm (a := left.machineId)]
    cases left.tokenHash <;> cases right.tokenHash <;>
      simp [Bool.beq_comm, Bool.and_comm]

/-- `ix_scans_scan_uuid` is a unique index; scans without a uuid are exempt. -/
instance : Row Scan where
  id := Scan.id
  withId key scan := { scan with id := key }
  clash left right := left.scanUuid.isSome && left.scanUuid == right.scanUuid
  id_withId _ _ := rfl
  clash_withId _ _ _ := rfl
  clash_comm left right := by
    cases left.scanUuid <;> cases right.scanUuid <;> simp [Bool.beq_comm]

instance : Row FindingRow where
  id := FindingRow.id
  withId key row := { row with id := key }
  clash _ _ := false
  id_withId _ _ := rfl
  clash_withId _ _ _ := rfl
  clash_comm _ _ := rfl

instance : Unconstrained FindingRow := ⟨fun _ _ => rfl⟩

instance : Row FrameworkView where
  id := FrameworkView.id
  withId key row := { row with id := key }
  clash _ _ := false
  id_withId _ _ := rfl
  clash_withId _ _ _ := rfl
  clash_comm _ _ := rfl

instance : Unconstrained FrameworkView := ⟨fun _ _ => rfl⟩

instance : Row Baseline where
  id := Baseline.id
  withId key row := { row with id := key }
  clash _ _ := false
  id_withId _ _ := rfl
  clash_withId _ _ _ := rfl
  clash_comm _ _ := rfl

instance : Unconstrained Baseline := ⟨fun _ _ => rfl⟩

instance : Row ComponentRow where
  id := ComponentRow.id
  withId key row := { row with id := key }
  clash _ _ := false
  id_withId _ _ := rfl
  clash_withId _ _ _ := rfl
  clash_comm _ _ := rfl

instance : Unconstrained ComponentRow := ⟨fun _ _ => rfl⟩

instance : Row GraphEdge where
  id := GraphEdge.id
  withId key row := { row with id := key }
  clash _ _ := false
  id_withId _ _ := rfl
  clash_withId _ _ _ := rfl
  clash_comm _ _ := rfl

instance : Unconstrained GraphEdge := ⟨fun _ _ => rfl⟩

/-! ## The database -/

/-- The tables of one database. -/
structure Database where
  hosts : Table Host
  scans : Table Scan
  findings : Table FindingRow
  views : Table FrameworkView
  baselines : Table Baseline
  components : Table ComponentRow
  edges : Table GraphEdge
  /-- The host of every fleet scan is stored. -/
  hostStored : ∀ scan ∈ scans.rows, ∀ hostId, scan.hostId = some hostId →
    ∃ host ∈ hosts.rows, host.id = hostId

namespace Database

@[ext] theorem ext {left right : Database}
    (hosts : left.hosts = right.hosts) (scans : left.scans = right.scans)
    (findings : left.findings = right.findings)
    (views : left.views = right.views)
    (baselines : left.baselines = right.baselines)
    (components : left.components = right.components)
    (edges : left.edges = right.edges) : left = right := by
  cases left
  cases right
  simp_all

/-- The database `init_schema` creates. -/
def empty : Database where
  hosts := Table.empty
  scans := Table.empty
  findings := Table.empty
  views := Table.empty
  baselines := Table.empty
  components := Table.empty
  edges := Table.empty
  hostStored := by simp

instance : Inhabited Database := ⟨empty⟩

/-- At most one host row has a given machine id. -/
theorem host_eq_of_machineId {db : Database} {left right : Host}
    (leftMember : left ∈ db.hosts) (rightMember : right ∈ db.hosts)
    (same : left.machineId = right.machineId) : left = right :=
  Table.eq_of_clash leftMember rightMember (by simp [Row.clash, same])

/-- At most one host row has a given token hash. -/
theorem host_eq_of_tokenHash {db : Database} {left right : Host}
    {tokenHash : String}
    (leftMember : left ∈ db.hosts) (rightMember : right ∈ db.hosts)
    (leftHash : left.tokenHash = some tokenHash)
    (rightHash : right.tokenHash = some tokenHash) : left = right :=
  Table.eq_of_clash leftMember rightMember
    (by simp [Row.clash, leftHash, rightHash])

/-- At most one scan row has a given uuid. -/
theorem scan_eq_of_scanUuid {db : Database} {left right : Scan}
    {uuid : String}
    (leftMember : left ∈ db.scans) (rightMember : right ∈ db.scans)
    (leftUuid : left.scanUuid = some uuid)
    (rightUuid : right.scanUuid = some uuid) : left = right :=
  Table.eq_of_clash leftMember rightMember
    (by simp [Row.clash, leftUuid, rightUuid])

/-! ## Writes that keep the host reference -/

/-- `INSERT INTO hosts`: `none` when a unique column clashes. -/
def insertHost? (db : Database) (host : Host) : Option Database :=
  match inserted : db.hosts.insert? host with
  | none => none
  | some hosts => some
      { db with
        hosts
        hostStored := by
          obtain ⟨_, rows⟩ := Table.insert?_eq_some_iff.mp inserted
          intro scan member hostId refers
          obtain ⟨found, foundMember, same⟩ :=
            db.hostStored scan member hostId refers
          exact ⟨found, by rw [rows]; exact List.mem_append_left _ foundMember,
            same⟩ }

theorem hostStored_modifyRows (db : Database) (key : Nat) (update : Host → Host)
    (sameId : ∀ host, (update host).id = host.id) :
    ∀ scan ∈ db.scans.rows, ∀ hostId, scan.hostId = some hostId →
      ∃ host ∈ Table.modifyRows key update db.hosts.rows,
        host.id = hostId := by
  intro scan member hostId refers
  obtain ⟨found, foundMember, same⟩ :=
    db.hostStored scan member hostId refers
  by_cases updated : found.id = key
  · exact ⟨update found,
      Table.mem_modifyRows.mpr (Or.inr ⟨found, foundMember, updated, rfl⟩),
      (sameId found).trans same⟩
  · exact ⟨found, Table.mem_modifyRows.mpr (Or.inl ⟨foundMember, updated⟩),
      same⟩

/-- `UPDATE hosts … WHERE id = key`: `none` when a unique column clashes. -/
def updateHost? (db : Database) (key : Nat) (update : Host → Host)
    (sameId : ∀ host, (update host).id = host.id) : Option Database :=
  match modified : db.hosts.modify? key update sameId with
  | none => none
  | some hosts => some
      { db with
        hosts
        hostStored := by
          rw [Table.modify?_eq_some modified]
          exact db.hostStored_modifyRows key update sameId }

/-- `UPDATE hosts … WHERE id = key` that touches no
unique column, or frees one. -/
def updateHost (db : Database) (key : Nat) (update : Host → Host)
    (sameId : ∀ host, (update host).id = host.id)
    (keepsApart : ∀ host other, Row.clash host other = false →
      Row.clash (update host) other = false) : Database :=
  { db with
    hosts := db.hosts.modify key update sameId keepsApart
    hostStored := db.hostStored_modifyRows key update sameId }

/-- `INSERT INTO scans`: `none` when the uuid is taken or the host missing. -/
def insertScan? (db : Database) (scan : Scan) : Option Database :=
  if known : ∀ hostId, scan.hostId = some hostId →
      ∃ host ∈ db.hosts.rows, host.id = hostId then
    match inserted : db.scans.insert? scan with
    | none => none
    | some scans => some
        { db with
          scans
          hostStored := by
            obtain ⟨_, rows⟩ := Table.insert?_eq_some_iff.mp inserted
            intro other member hostId refers
            rw [rows, List.mem_append, List.mem_singleton] at member
            rcases member with member | rfl
            · exact db.hostStored other member hostId refers
            · exact known hostId refers }
  else none

/-- What an accepted `INSERT INTO hosts` does. -/
structure HostInserted (before after : Database) (host : Host) : Prop where
  fresh : ∀ other ∈ before.hosts.rows, Row.clash other host = false
  hosts : after.hosts.rows =
    before.hosts.rows ++ [{ host with id := before.hosts.nextId }]
  scans : after.scans = before.scans
  findings : after.findings = before.findings
  views : after.views = before.views
  baselines : after.baselines = before.baselines

theorem hostInserted {before after : Database} {host : Host}
    (inserted : before.insertHost? host = some after) :
    HostInserted before after host := by
  unfold insertHost? at inserted
  split at inserted
  · cases inserted
  · next hosts accepted =>
      cases inserted
      obtain ⟨fresh, rows⟩ := Table.insert?_eq_some_iff.mp accepted
      exact ⟨fresh, rows, rfl, rfl, rfl, rfl⟩

/-- What an accepted `UPDATE hosts` does. -/
structure HostUpdated (before after : Database) (key : Nat)
    (update : Host → Host) : Prop where
  hosts : after.hosts.rows = Table.modifyRows key update before.hosts.rows
  scans : after.scans = before.scans
  findings : after.findings = before.findings
  views : after.views = before.views
  baselines : after.baselines = before.baselines

theorem hostUpdated? {before after : Database} {key : Nat}
    {update : Host → Host} {sameId : ∀ host, (update host).id = host.id}
    (updated : before.updateHost? key update sameId = some after) :
    HostUpdated before after key update := by
  unfold updateHost? at updated
  split at updated
  · cases updated
  · next hosts accepted =>
      cases updated
      exact ⟨Table.modify?_eq_some accepted, rfl, rfl, rfl, rfl⟩

/-- What an accepted `INSERT INTO scans` does. -/
structure ScanInserted (before after : Database) (scan : Scan) : Prop where
  known : ∀ hostId, scan.hostId = some hostId →
    ∃ host ∈ before.hosts.rows, host.id = hostId
  fresh : ∀ other ∈ before.scans.rows, Row.clash other scan = false
  scans : after.scans.rows =
    before.scans.rows ++ [{ scan with id := before.scans.nextId }]
  hosts : after.hosts = before.hosts
  findings : after.findings = before.findings
  views : after.views = before.views
  baselines : after.baselines = before.baselines

theorem scanInserted {before after : Database} {scan : Scan}
    (inserted : before.insertScan? scan = some after) :
    ScanInserted before after scan := by
  unfold insertScan? at inserted
  split at inserted
  · next known =>
      split at inserted
      · cases inserted
      · next scans accepted =>
          cases inserted
          obtain ⟨fresh, rows⟩ := Table.insert?_eq_some_iff.mp accepted
          exact ⟨known, fresh, rows, rfl, rfl, rfl, rfl⟩
  · cases inserted

/-- Components and edges stay as well. -/
theorem insertScan?_graph {before after : Database} {scan : Scan}
    (inserted : before.insertScan? scan = some after) :
    after.components = before.components ∧ after.edges = before.edges := by
  unfold insertScan? at inserted
  split at inserted
  · split at inserted
    · cases inserted
    · cases inserted
      exact ⟨rfl, rfl⟩
  · cases inserted

/-- A scan of a stored host is refused only for its uuid. -/
theorem insertScan?_eq_none_iff {db : Database} {scan : Scan}
    (known : ∀ hostId, scan.hostId = some hostId →
      ∃ host ∈ db.hosts.rows, host.id = hostId) :
    db.insertScan? scan = none ↔ ∃ other ∈ db.scans, Row.clash other scan = true := by
  unfold insertScan?
  rw [dif_pos known, ← Table.insert?_eq_none_iff]
  split
  · next refused => simp [refused]
  · next scans accepted => simp [accepted]

/-- `DELETE FROM scans WHERE NOT keep`. -/
def filterScans (db : Database) (keep : Scan → Bool) : Database :=
  { db with
    scans := db.scans.filter keep
    hostStored := fun scan member =>
      db.hostStored scan (List.mem_of_mem_filter member) }

end Database

end Store
end PqcScan
