import PqcScan.Library.Pairing
import PqcScan.Store.Ingest

/-!
# What storing a bundle does to the database

`BundleWritten` lists every change of a completed write.  `ingestBundle_cases`
says that a call either leaves the database as it was or performs one such
write; later modules read the effect of a call from it and never unfold the
loops.
-/

namespace PqcScan
namespace Store
namespace Repo

open Library Python PqcScan.Core

/-! ## The loops -/

/-- The views a finding lists. -/
def listedOf (finding : JsonObject) : List Json :=
  match listedViews finding with
  | .ok listed => listed
  | .error _ => []

/-- How many views a finding lists. -/
def viewCount (finding : JsonObject) : Nat := (listedOf finding).length

/-- The row holds what the store makes of the finding. -/
def Carries (py : Runtime) (scanId : Nat) (finding : JsonObject)
    (row : FindingRow) : Prop :=
  ∃ created fresh, findingRow py created scanId finding = .ok fresh ∧
    row = { fresh with id := row.id }

/-- The row holds a drift finding of the collector. -/
def CarriesDrift (scanId : Nat) (finding : Finding) (row : FindingRow) : Prop :=
  row = { driftFindingRow scanId finding with id := row.id }

/-- The row holds a listed view, under the id of its finding. -/
def CarriesView (py : Runtime) (target : Nat × Json) (row : FrameworkView) : Prop :=
  ∃ fresh, viewRow py target.1 target.2 = .ok fresh ∧
    row = { fresh with id := row.id }

/-- The views several findings list, each with the id of its finding's row. -/
def viewTargets (findings : List JsonObject) (rows : List FindingRow) :
    List (Nat × Json) :=
  (List.zipWith (fun finding row => (listedOf finding).map fun view =>
    (FindingRow.id row, view)) findings rows).flatten

theorem storeViews_rows {py : Runtime} {findingId : Nat} {listed : List Json}
    {views after : Table FrameworkView}
    (stored : storeViews py findingId listed views = .ok after) :
    ∃ new, after.rows = views.rows ++ new ∧
      List.Forall₂ (CarriesView py) (listed.map (findingId, ·)) new := by
  induction listed generalizing views with
  | nil =>
      cases stored
      exact ⟨[], by simp, .nil⟩
  | cons view rest inductionHypothesis =>
      rw [storeViews, bind_eq_ok] at stored
      obtain ⟨row, made, later⟩ := stored
      obtain ⟨new, rows, carries⟩ := inductionHypothesis later
      refine ⟨{ row with id := views.nextId } :: new, ?_, ?_⟩
      · rw [rows, Table.rows_add, List.append_assoc, List.singleton_append]
        rfl
      · exact .cons ⟨row, made, rfl⟩ carries

/-- The rows one run of the outer loop adds. -/
structure FindingsStored (py : Runtime) (scanId : Nat) (listed : List JsonObject)
    (before after : Table FindingRow)
    (viewsBefore viewsAfter : Table FrameworkView)
    (newRows : List FindingRow) (newViews : List FrameworkView) : Prop where
  findings : after.rows = before.rows ++ newRows
  carries : List.Forall₂ (Carries py scanId) listed newRows
  views : viewsAfter.rows = viewsBefore.rows ++ newViews
  targets : List.Forall₂ (CarriesView py) (viewTargets listed newRows) newViews

theorem storeFindings_stored {py : Runtime} {now : Nat → DateTime} {scanId : Nat}
    {listed : List JsonObject} {nF nV nF' nV' : Nat}
    {findings findings' : Table FindingRow}
    {views views' : Table FrameworkView}
    (stored : storeFindings py now scanId listed nF nV findings views =
      .ok (findings', views', nF', nV')) :
    (∃ newRows newViews, FindingsStored py scanId listed findings findings'
      views views' newRows newViews) ∧
      nF' = nF + listed.length ∧ nV' = nV + (listed.map viewCount).sum := by
  induction listed generalizing nF nV findings views with
  | nil =>
      cases stored
      exact ⟨⟨[], [], by simp, .nil, by simp, .nil⟩, rfl, rfl⟩
  | cons finding rest inductionHypothesis =>
      simp only [storeFindings, bind_eq_ok] at stored
      obtain ⟨row, made, listedHere, found, viewsHere, storedHere, later⟩ := stored
      obtain ⟨⟨newRows, newViews, effect⟩, countF, countV⟩ :=
        inductionHypothesis later
      obtain ⟨ownViews, ownRows, ownTargets⟩ := storeViews_rows storedHere
      have visited : listedOf finding = listedHere := by
        rw [listedOf, found]
      have counted : viewCount finding = listedHere.length := by
        rw [viewCount, visited]
      refine ⟨⟨{ row with id := findings.nextId } :: newRows,
        ownViews ++ newViews, ?_, ?_, ?_, ?_⟩, ?_, ?_⟩
      · rw [effect.findings, Table.rows_add, List.append_assoc,
          List.singleton_append]
        rfl
      · exact .cons ⟨_, row, made, rfl⟩ effect.carries
      · rw [effect.views, ownRows, List.append_assoc]
      · rw [viewTargets, List.zipWith_cons_cons, List.flatten_cons, visited]
        exact List.rel_append ownTargets effect.targets
      · rw [countF, List.length_cons]
        omega
      · rw [countV, List.map_cons, List.sum_cons, counted]
        omega

theorem storeDrift_rows (scanId : Nat) (drift : List Finding)
    (findings : Table FindingRow) :
    ∃ new, (storeDrift scanId drift findings).rows = findings.rows ++ new ∧
      List.Forall₂ (CarriesDrift scanId) drift new := by
  induction drift generalizing findings with
  | nil => exact ⟨[], by simp [storeDrift], .nil⟩
  | cons finding rest inductionHypothesis =>
      obtain ⟨new, rows, carries⟩ :=
        inductionHypothesis (findings.add (driftFindingRow scanId finding))
      refine ⟨{ driftFindingRow scanId finding with id := findings.nextId } :: new,
        ?_, .cons rfl carries⟩
      rw [storeDrift, List.foldl_cons, ← storeDrift, rows, Table.rows_add,
        List.append_assoc, List.singleton_append]
      rfl

/-! ## The write -/

/-- Every change of a completed write: one scan, the rows of the agent's
findings and of the drift, their views, and the refreshed host row. -/
structure BundleWritten (py : Runtime) (before after : Database)
    (bundle : ScanBundle) (host : Host) (drift : List Finding) (time : DateTime)
    (scan : Scan) (agentRows driftRows : List FindingRow)
    (newViews : List FrameworkView) : Prop where
  known : ∃ current ∈ before.hosts, current.id = host.id
  fresh : ∀ other ∈ before.scans.rows, other.scanUuid ≠ some bundle.scanUuid
  scans : after.scans.rows = before.scans.rows ++ [scan]
  scanId : scan.id = before.scans.nextId
  scanHost : scan.hostId = some host.id
  scanUuid : scan.scanUuid = some bundle.scanUuid
  scanStatus : scan.status = storedStatus py bundle
  scanLabel : scan.label = none
  findings : after.findings.rows =
    before.findings.rows ++ (agentRows ++ driftRows)
  agent : List.Forall₂ (Carries py scan.id) bundle.findings agentRows
  derived : List.Forall₂ (CarriesDrift scan.id) drift driftRows
  views : after.views.rows = before.views.rows ++ newViews
  targets : List.Forall₂ (CarriesView py)
    (viewTargets bundle.findings agentRows) newViews
  hosts : after.hosts.rows =
    Table.modifyRows host.id
      (flushIdentity host (applyIdentity time host bundle.host))
      before.hosts.rows
  baselines : after.baselines = before.baselines

/-- What a completed write reports. -/
def writtenResult (bundle : ScanBundle) (scan : Scan) (changes : Nat) :
    IngestResult where
  scanId := scan.id
  storedFindings := bundle.findings.length
  storedViews := (bundle.findings.map viewCount).sum
  duplicate := false
  drift := changes

/-- The columns of a scan row that do not come from coerced metadata. -/
theorem scanRow_columns {py : Runtime} {now : DateTime} {bundle : ScanBundle}
    {hostId : Nat} {scan : Scan} (made : scanRow py now bundle hostId = .ok scan) :
    scan.hostId = some hostId ∧ scan.scanUuid = some bundle.scanUuid ∧
      scan.status = storedStatus py bundle ∧ scan.label = none := by
  simp only [scanRow, bind_eq_ok, Except.ok.injEq] at made
  obtain ⟨_, _, _, _, rfl⟩ := made
  exact ⟨rfl, rfl, rfl, rfl⟩

/-- Two scans clash exactly when they carry the same uuid. -/
theorem scan_clash_iff {other scan : Scan} {uuid : String}
    (carried : scan.scanUuid = some uuid) :
    Row.clash other scan = true ↔ other.scanUuid = some uuid := by
  cases stated : other.scanUuid <;> simp [Row.clash, stated, carried]

theorem writeBundle_written {py : Runtime} {now : Nat → DateTime}
    {before after : Database} {bundle : ScanBundle} {host : Host}
    {drift : List Finding} {changes : Nat} {result : IngestResult}
    (wrote : writeBundle py now before bundle host drift changes =
      .ok (after, result)) :
    ∃ time scan agentRows driftRows newViews,
      BundleWritten py before after bundle host drift time scan agentRows
        driftRows newViews ∧
      result = writtenResult bundle scan changes := by
  unfold writeBundle at wrote
  split at wrote
  · cases wrote
  next scan made =>
  split at wrote
  · cases wrote
  next inserted accepted =>
  dsimp only at wrote
  split at wrote
  · cases wrote
  next findings views nF nV stored =>
  cases wrote
  obtain ⟨hostEq, uuidEq, statusEq, labelEq⟩ := scanRow_columns made
  have insertion := Database.scanInserted accepted
  obtain ⟨⟨newRows, newViews, effect⟩, countF, countV⟩ :=
    storeFindings_stored stored
  obtain ⟨driftRows, driftEq, driftCarries⟩ :=
    storeDrift_rows before.scans.nextId drift findings
  refine ⟨now (nF + 1), { scan with id := before.scans.nextId }, newRows,
    driftRows, newViews,
    ⟨insertion.known host.id hostEq, ?_, ?_, rfl, hostEq, uuidEq, statusEq, labelEq, ?_,
      effect.carries, driftCarries, effect.views, effect.targets, ?_, ?_⟩, ?_⟩
  · intro other member carried
    have apart := insertion.fresh other member
    rw [(scan_clash_iff uuidEq).mpr carried] at apart
    cases apart
  · exact insertion.scans
  · change (storeDrift before.scans.nextId drift findings).rows = _
    rw [driftEq, effect.findings, List.append_assoc]
  · change Table.modifyRows _ _ inserted.hosts.rows = _
    rw [insertion.hosts]
  · exact insertion.baselines
  · rw [writtenResult, countF, countV, Nat.zero_add, Nat.zero_add]

/-- The refreshed row is the only host row that changes. -/
theorem BundleWritten.mem_hosts_iff {py : Runtime} {before after : Database}
    {bundle : ScanBundle} {host other : Host} {drift : List Finding}
    {time : DateTime} {scan : Scan} {agentRows driftRows : List FindingRow}
    {newViews : List FrameworkView}
    (written : BundleWritten py before after bundle host drift time scan
      agentRows driftRows newViews)
    (different : other.id ≠ host.id) :
    other ∈ after.hosts ↔ other ∈ before.hosts := by
  rw [Table.mem_iff, written.hosts, Table.mem_modifyRows]
  constructor
  · rintro (⟨member, _⟩ | ⟨old, _, same, rfl⟩)
    · exact member
    · exact absurd same different
  · exact fun member => Or.inl ⟨member, different⟩

/-! ## The whole call -/

/-- The duplicate check finds the stored scan of the same host, or the host and
no scan with the uuid. -/
theorem duplicateCheck_ok {db : Database} {bundle : ScanBundle} {hostId : Nat}
    {host : Host} {found : Option Nat}
    (checked : duplicateCheck db bundle hostId = .ok (host, found)) :
    (host ∈ db.hosts ∧ host.id = hostId) ∧
      match found with
      | some scanId => ∃ scan ∈ db.scans, scan.id = scanId ∧
          scan.scanUuid = some bundle.scanUuid ∧ scan.hostId = some hostId
      | none => ∀ scan ∈ db.scans, scan.scanUuid ≠ some bundle.scanUuid := by
  unfold duplicateCheck at checked
  split at checked
  · cases checked
  next stored present =>
  have located := Table.get?_eq_some_iff.mp present
  split at checked
  · next absent =>
      cases checked
      refine ⟨located, fun scan member => ?_⟩
      simpa using List.find?_eq_none.mp absent scan member
  · next existing hit =>
      split at checked
      · next owned =>
          cases checked
          exact ⟨located, existing, List.mem_of_find?_eq_some hit, rfl,
            by simpa using List.find?_some hit, owned⟩
      · cases checked

/-- One call of `ingest_bundle`: an error or a duplicate changes nothing, and
otherwise one write takes place. -/
theorem ingestBundle_cases {py : Runtime} {now : Nat → DateTime}
    {before after : Database} {bundle : ScanBundle} {hostId : Nat}
    {outcome : Except WriteError IngestResult}
    (call : ingestBundle py now before bundle hostId = (after, outcome)) :
    (after = before ∧ ∃ error, outcome = .error error) ∨
    (after = before ∧ ∃ scan ∈ before.scans,
      scan.scanUuid = some bundle.scanUuid ∧ scan.hostId = some hostId ∧
      outcome = .ok (duplicateResult scan.id)) ∨
    (∃ host ∈ before.hosts, host.id = hostId ∧
      ∃ drift changes time scan agentRows driftRows newViews,
        bundleDrift py now before bundle hostId = .ok (drift, changes) ∧
        BundleWritten py before after bundle host drift time scan agentRows
          driftRows newViews ∧
        outcome = .ok (writtenResult bundle scan changes)) := by
  unfold ingestBundle at call
  split at call
  · cases call
    exact Or.inl ⟨rfl, _, rfl⟩
  next drift changes driftRead =>
  split at call
  · cases call
    exact Or.inl ⟨rfl, _, rfl⟩
  · next scanId checked =>
      cases call
      obtain ⟨_, scan, member, rfl, uuidEq, hostEq⟩ := duplicateCheck_ok checked
      exact Or.inr (Or.inl ⟨rfl, scan, member, uuidEq, hostEq, rfl⟩)
  · next host checked =>
      obtain ⟨⟨member, hostEq⟩, _⟩ := duplicateCheck_ok checked
      split at call
      · cases call
        exact Or.inl ⟨rfl, _, rfl⟩
      · next written result wrote =>
          cases call
          obtain ⟨time, scan, agentRows, driftRows, newViews, effect, rfl⟩ :=
            writeBundle_written wrote
          exact Or.inr (Or.inr ⟨host, member, hostEq, drift, changes, time, scan,
            agentRows, driftRows, newViews, driftRead, effect, rfl⟩)

/-- The flush of a row that nobody else changed writes the row itself. -/
theorem flushIdentity_self (time : DateTime) (host : Host)
    (identity : HostIdentity) :
    flushIdentity host (applyIdentity time host identity) host =
      applyIdentity time host identity := by
  unfold flushIdentity applyIdentity
  simp only [Host.mk.injEq, true_and, and_true]
  refine ⟨?_, ?_, ?_, ?_, ?_⟩ <;> split <;> simp_all

/-- The database in which the given hosts have been stored in turn. -/
def storeOf (identities : List HostIdentity) : Database :=
  identities.foldl
    (fun db identity =>
      match upsertHost 0 db identity none with
      | some (after, _) => after
      | none => db)
    Database.empty

/-- An identity that states only a machine id. -/
def bareIdentity (machineId : String) : HostIdentity where
  machineId := machineId
  hostname := ""
  os := ""
  labels := Dict.empty
  agentVersion := ""

end Repo
end Store
end PqcScan
