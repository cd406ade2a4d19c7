import PqcScan.Python.Encoder
import PqcScan.Store.Repo

/-!
# Dumping a bundle

`dump_bundle` (`store/bundle.py`) writes one scan of the agent's database as
the document `load_bundle` reads.  The two enforce different caps: of the
collector's caps the agent checks only the raw size.
-/

namespace PqcScan
namespace Store

open Library Python PqcScan.Core

/-- What `dump_bundle` raises. -/
inductive DumpError
  | python (error : PyError)
  | tooLarge (message : String)
  deriving DecidableEq, Repr

namespace Repo

/-- `get_scan`. -/
def getScan (db : Database) (scanId : Nat) : Option Scan := db.scans.get? scanId

/-- The finding rows of a scan, by id. -/
def rowsOf (db : Database) (scanId : Nat) : List FindingRow :=
  db.findings.rows.filter (·.scanId == scanId)

/-- The views of a finding, by id. -/
def viewsOf (db : Database) (findingId : Nat) : List FrameworkView :=
  db.views.rows.filter (·.findingId == findingId)

end Repo

open Repo

/-! ## The document -/

variable (encoder : Encoder)

/-- One view of a finding. -/
def viewObject (view : FrameworkView) : JsonObject :=
  [("framework", .str view.framework), ("clause", .str view.clause),
    ("verdict", .str view.verdict), ("deadline", iso encoder.dateIso view.deadline)]

/-- One finding with its views. -/
def findingObject (views : List FrameworkView) (row : FindingRow) : JsonObject :=
  [("probe_id", .str row.probeId), ("algorithm", .str row.algorithm),
    ("classification", .str row.classification), ("severity", .str row.severity),
    ("title", .str row.title), ("evidence", .object row.evidence.entries),
    ("remediation", .object row.remediation.entries),
    ("created_at", iso encoder.datetimeIso (some row.createdAt)),
    ("views", .array (views.map fun view => .object (viewObject encoder view)))]

/-- The labels of a host. -/
def labelsObject (labels : Dict String String) : JsonObject :=
  labels.entries.map fun entry => (entry.1, .str entry.2)

/-- `asdict(host)`. -/
def hostObject (identity : HostIdentity) : JsonObject :=
  [("machine_id", .str identity.machineId), ("hostname", .str identity.hostname),
    ("os", .str identity.os), ("labels", .object (labelsObject identity.labels)),
    ("agent_version", .str identity.agentVersion)]

/-- The metadata of a scan. -/
def scanObject (scan : Scan) : JsonObject :=
  [("started_at", iso encoder.datetimeIso (some scan.startedAt)),
    ("finished_at", iso encoder.datetimeIso scan.finishedAt), ("mode", .str scan.mode),
    ("status", .str scan.status), ("probe_versions", .object scan.probeVersions.entries),
    ("tool_versions", .object scan.toolVersions.entries)]

/-- The findings of a scan, in row order. -/
def findingObjects (db : Database) (scan : Scan) : List JsonObject :=
  (rowsOf db scan.id).map fun row => findingObject encoder (viewsOf db row.id) row

/-- `doc`, for given findings. -/
def documentWith (scan : Scan) (identity : HostIdentity) (findings : List JsonObject) :
    JsonObject :=
  [("schema_version", .int bundleSchemaVersion), ("scan_uuid", iso id scan.scanUuid),
    ("host", .object (hostObject identity)), ("scan", .object (scanObject encoder scan)),
    ("findings", .array (findings.map .object))]

/-- `doc`. -/
def bundleDocument (db : Database) (scan : Scan) (identity : HostIdentity) : JsonObject :=
  documentWith encoder scan identity (findingObjects encoder db scan)

/-- `dump_bundle`. -/
def dumpBundle (db : Database) (scanId : Nat) (identity : HostIdentity) :
    Except DumpError Bytes :=
  match getScan db scanId with
  | none => .error (.python (.valueError s!"scan {scanId} not found"))
  | some scan =>
      match encoder.jsonDumps (.object (bundleDocument encoder db scan identity)) with
      | .error error => .error (.python error)
      | .ok raw =>
          if raw.length > maxRawBytes then
            .error (.tooLarge s!"bundle is {raw.length} bytes raw; cap {maxRawBytes}")
          else .ok (encoder.compress raw)

/-- `dump_bundle` writes the document: it can be encoded, within the raw cap. -/
def Dumpable (document : Json) : Prop :=
  ∃ raw, encoder.jsonDumps document = .ok raw ∧ raw.length ≤ maxRawBytes

/-- The caps of `load_bundle` that `dump_bundle` leaves unchecked. -/
structure WithinCaps (db : Database) (scan : Scan) (identity : HostIdentity) : Prop where
  findings : (rowsOf db scan.id).length ≤ maxFindings
  labels : identity.labels.length ≤ maxLabels
  bounded : LabelsBounded identity.labels
  compressed : ∀ raw,
    encoder.jsonDumps (.object (bundleDocument encoder db scan identity)) = .ok raw →
      (encoder.compress raw).length ≤ maxGzipBytes

/-- The bundle a dumped document should be read as. -/
def loadedBundle (db : Database) (scan : Scan) (identity : HostIdentity) (uuid : String) :
    ScanBundle :=
  let kept := acceptedFindings (findingObjects encoder db scan)
  { schemaVersion := bundleSchemaVersion
    scanUuid := uuid
    host := identity
    scan := scanObject encoder scan
    findings := kept
    droppedDrift := (findingObjects encoder db scan).length - kept.length }

/-! ## Reading the parts back -/

theorem objects_map_object (listed : List JsonObject) :
    objects (listed.map .object) = some listed := by
  induction listed with
  | nil => rfl
  | cons members rest inductionHypothesis =>
      rw [List.map_cons, objects, inductionHypothesis]
      rfl

theorem labelStrings_labelsObject (labels : Dict String String) :
    labelStrings (labelsObject labels) = labels := by
  rw [labelStrings, labelsObject, List.filterMap_map]
  exact (congrArg Dict.ofList List.filterMap_some).trans (Dict.ofList_entries labels)

theorem checkLabelEntries_eq_ok_iff (entries : List (String × String)) :
    checkLabelEntries (entries.map fun entry => (entry.1, .str entry.2)) = .ok () ↔
      ∀ entry ∈ entries,
        entry.1.length ≤ maxLabelKey ∧ entry.2.length ≤ maxLabelValue := by
  induction entries with
  | nil => simp [checkLabelEntries]
  | cons entry rest inductionHypothesis =>
      rw [List.map_cons, checkLabelEntries, List.forall_mem_cons, ← inductionHypothesis]
      by_cases beyond : entry.1.length > maxLabelKey ∨ entry.2.length > maxLabelValue
      · rw [if_pos beyond]
        have outside : ¬ (entry.1.length ≤ maxLabelKey ∧
            entry.2.length ≤ maxLabelValue) := by
          omega
        simp [outside]
      · rw [if_neg beyond]
        have within : entry.1.length ≤ maxLabelKey ∧ entry.2.length ≤ maxLabelValue := by
          omega
        simp [within]

theorem checkLabels_eq_ok_iff (labels : Dict String String) :
    checkLabels (labelsObject labels) = .ok () ↔
      labels.length ≤ maxLabels ∧ LabelsBounded labels := by
  have sameLength : (labelsObject labels).length = labels.length := by
    rw [labelsObject, List.length_map]
    rfl
  unfold checkLabels
  rw [sameLength]
  by_cases many : labels.length > maxLabels
  · rw [if_pos many]
    have outside : ¬ labels.length ≤ maxLabels := by omega
    simp [outside]
  · rw [if_neg many]
    have within : labels.length ≤ maxLabels := by omega
    simp only [within, true_and]
    exact checkLabelEntries_eq_ok_iff labels.entries

/-- A string member is read as it is, unless it has to be non-empty. -/
theorem reqStr_eq_ok_iff {members : JsonObject} {key value result : String}
    {nonempty : Bool}
    (present : members.get? key = some (.str value)) :
    reqStr members key nonempty = .ok result ↔
      (nonempty = true → value ≠ "") ∧ value = result := by
  unfold reqStr
  simp only [present]
  by_cases refused : (nonempty && value == "") = true
  · rw [if_pos refused]
    rw [Bool.and_eq_true, beq_iff_eq] at refused
    simp [refused]
  · rw [if_neg refused]
    rw [Bool.and_eq_true, beq_iff_eq, not_and] at refused
    rw [Except.ok.injEq]
    exact ⟨fun equal => ⟨refused, equal⟩, And.right⟩

/-- When the parts of a dumped document are accepted, and as what. -/
theorem readBundle_eq_ok_iff {db : Database} {scan : Scan} {identity : HostIdentity}
    {uuid : String} {bundle : ScanBundle} (carried : scan.scanUuid = some uuid) :
    readBundle (bundleDocument encoder db scan identity) (hostObject identity)
        (scanObject encoder scan) (labelsObject identity.labels)
        ((findingObjects encoder db scan).map .object) = .ok bundle ↔
      ((rowsOf db scan.id).length ≤ maxFindings ∧ identity.labels.length ≤ maxLabels ∧
        LabelsBounded identity.labels ∧ identity.machineId ≠ "" ∧ uuid ≠ "") ∧
        loadedBundle encoder db scan identity uuid = bundle := by
  have count : ((findingObjects encoder db scan).map Json.object).length =
      (rowsOf db scan.id).length := by
    rw [List.length_map, findingObjects, List.length_map]
  have uuidMember :
      JsonObject.get? (bundleDocument encoder db scan identity) "scan_uuid" =
      some (.str uuid) := by
    rw [bundleDocument, documentWith, carried]
    rfl
  unfold readBundle
  rw [count]
  by_cases many : (rowsOf db scan.id).length > maxFindings
  · rw [if_pos many]
    have outside : ¬ (rowsOf db scan.id).length ≤ maxFindings := by omega
    simp [outside]
  · rw [if_neg many]
    have within : (rowsOf db scan.id).length ≤ maxFindings := by omega
    have hostMember : ∀ key value, JsonObject.get? (hostObject identity) key =
        some (.str value) → ∀ nonempty result,
        reqStr (hostObject identity) key nonempty = .ok result ↔
          (nonempty = true → value ≠ "") ∧ value = result :=
      fun _ _ present _ _ => reqStr_eq_ok_iff present
    simp only [objects_map_object, bind_eq_ok, labelStrings_labelsObject,
      reqStr_eq_ok_iff uuidMember, hostMember "machine_id" identity.machineId rfl,
      hostMember "hostname" identity.hostname rfl, hostMember "os" identity.os rfl,
      hostMember "agent_version" identity.agentVersion rfl]
    constructor
    · rintro ⟨⟨⟩, checked, _, ⟨named, rfl⟩, _, ⟨-, rfl⟩, _, ⟨-, rfl⟩, _, ⟨-, rfl⟩,
        _, ⟨uuidGiven, rfl⟩, read⟩
      obtain ⟨few, bounded⟩ := (checkLabels_eq_ok_iff _).mp checked
      exact ⟨⟨within, few, bounded, named trivial, uuidGiven trivial⟩,
        Except.ok.inj read⟩
    · rintro ⟨⟨-, few, bounded, named, uuidGiven⟩, rfl⟩
      exact ⟨(), (checkLabels_eq_ok_iff _).mpr ⟨few, bounded⟩, _, ⟨fun _ => named, rfl⟩,
        _, ⟨Bool.false_ne_true.elim, rfl⟩, _, ⟨Bool.false_ne_true.elim, rfl⟩,
        _, ⟨Bool.false_ne_true.elim, rfl⟩, _, ⟨fun _ => uuidGiven, rfl⟩, rfl⟩

/-! ## Loading what was dumped -/

variable {encoder}

/-- Where the bytes of a dump come from. -/
theorem dumpBundle_eq_ok_iff {db : Database} {scanId : Nat} {scan : Scan}
    {identity : HostIdentity} {data : Bytes} (found : getScan db scanId = some scan) :
    dumpBundle encoder db scanId identity = .ok data ↔
      ∃ raw, encoder.jsonDumps
        (.object (bundleDocument encoder db scan identity)) = .ok raw ∧
        raw.length ≤ maxRawBytes ∧ encoder.compress raw = data := by
  unfold dumpBundle
  simp only [found]
  cases encoded : encoder.jsonDumps
    (.object (bundleDocument encoder db scan identity)) with
  | error error => simp
  | ok raw =>
      by_cases large : raw.length > maxRawBytes
      · have outside : ¬ raw.length ≤ maxRawBytes := by omega
        simp [large, outside]
      · have inside : raw.length ≤ maxRawBytes := by omega
        simp [large, inside]

/-- A dumped document reaches the checks of its parts. -/
theorem readDocument_bundleDocument (db : Database) (scan : Scan)
    (identity : HostIdentity) :
    readDocument (.object (bundleDocument encoder db scan identity)) =
      readBundle (bundleDocument encoder db scan identity) (hostObject identity)
        (scanObject encoder scan) (labelsObject identity.labels)
        ((findingObjects encoder db scan).map .object) :=
  rfl

/-- What the collector reads from a dump, and when it does. -/
theorem loadBundle_dumpBundle {py : Runtime} {db : Database} {scanId : Nat} {scan : Scan}
    {identity : HostIdentity} {uuid : String} {data : Bytes} {bundle : ScanBundle}
    (found : getScan db scanId = some scan) (carried : scan.scanUuid = some uuid)
    (named : identity.machineId ≠ "")
    (decodes : encoder.Decodes py (.object (bundleDocument encoder db scan identity)))
    (dumped : dumpBundle encoder db scanId identity = .ok data) :
    loadBundle py data = .ok bundle ↔
      (uuid ≠ "" ∧ WithinCaps encoder db scan identity) ∧
        loadedBundle encoder db scan identity uuid = bundle := by
  obtain ⟨raw, encoded, small, rfl⟩ := (dumpBundle_eq_ok_iff found).mp dumped
  have compressed : (∀ raw', encoder.jsonDumps
      (.object (bundleDocument encoder db scan identity)) = .ok raw' →
        (encoder.compress raw').length ≤ maxGzipBytes) ↔
      (encoder.compress raw).length ≤ maxGzipBytes := by
    constructor
    · intro every
      exact every raw encoded
    · intro fits raw' encoded'
      rw [← Except.ok.inj (encoded.symm.trans encoded')]
      exact fits
  have caps : WithinCaps encoder db scan identity ↔
      (rowsOf db scan.id).length ≤ maxFindings ∧ identity.labels.length ≤ maxLabels ∧
        LabelsBounded identity.labels ∧ (encoder.compress raw).length ≤ maxGzipBytes := by
    rw [← compressed]
    constructor
    · rintro ⟨findings, labels, bounded, fits⟩
      exact ⟨findings, labels, bounded, fits⟩
    · rintro ⟨findings, labels, bounded, fits⟩
      exact ⟨findings, labels, bounded, fits⟩
  unfold loadBundle
  by_cases large : (encoder.compress raw).length > maxGzipBytes
  · rw [if_pos large, caps]
    have outside : ¬ (encoder.compress raw).length ≤ maxGzipBytes := by omega
    simp [outside]
  · rw [if_neg large, decodes.gzip raw _ encoded (by omega)]
    have inside : (encoder.compress raw).length ≤ maxGzipBytes := by omega
    have whole : ¬ (raw.length > maxRawBytes ∨ ([] : Bytes) ≠ []) := by
      simpa using small
    simp only [if_neg whole, decodes.json raw encoded]
    rw [readDocument_bundleDocument, readBundle_eq_ok_iff encoder carried, caps]
    tauto

/-- What the agent dumps the collector loads, exactly when the scan keeps to the
caps that only the collector checks. -/
theorem dump_loads_iff {py : Runtime} {db : Database} {scanId : Nat} {scan : Scan}
    {identity : HostIdentity} {uuid : String}
    (found : getScan db scanId = some scan) (carried : scan.scanUuid = some uuid)
    (named : identity.machineId ≠ "")
    (decodes : encoder.Decodes py (.object (bundleDocument encoder db scan identity))) :
    (∀ data, dumpBundle encoder db scanId identity = .ok data →
      ∃ bundle, loadBundle py data = .ok bundle) ↔
      (Dumpable encoder (.object (bundleDocument encoder db scan identity)) →
        uuid ≠ "" ∧ WithinCaps encoder db scan identity) := by
  constructor
  · rintro loads ⟨raw, encoded, small⟩
    have dumped : dumpBundle encoder db scanId identity = .ok (encoder.compress raw) :=
      (dumpBundle_eq_ok_iff found).mpr ⟨raw, encoded, small, rfl⟩
    obtain ⟨bundle, loaded⟩ := loads _ dumped
    exact ((loadBundle_dumpBundle found carried named decodes dumped).mp loaded).1
  · intro fits data dumped
    obtain ⟨raw, encoded, small, -⟩ := (dumpBundle_eq_ok_iff found).mp dumped
    exact ⟨_, (loadBundle_dumpBundle found carried named decodes dumped).mpr
      ⟨fits ⟨raw, encoded, small⟩, rfl⟩⟩

/-- A done scan of an agent. -/
def dumpedScan : Scan where
  id := 1
  startedAt := 1767323045000000
  finishedAt := some 1767323046000123
  hostFingerprint := none
  mode := "root"
  status := "done"
  label := none
  probeVersions := Dict.ofList [("fs.cert", .str "1")]
  toolVersions := Dict.empty
  hostId := none
  scanUuid := some "u1"

/-- The scan with one finding and one view of it. -/
def dumpSample : Database :=
  { (Database.empty.insertScan? dumpedScan).getD Database.empty with
    findings := Table.empty.add
      { id := 0, scanId := 1, componentId := none, probeId := "fs.cert",
        algorithm := "RSA-2048", classification := "sangat-tinggi", severity := "crit",
        title := "weak cert", evidence := Dict.ofList [("path", .str "/etc/x.pem")],
        remediation := Dict.empty, createdAt := 1767323045500000 }
    views := Table.empty.add
      { id := 0, findingId := 1, framework := "cnsa2", clause := "CNSA2:RSA",
        verdict := "non-compliant", deadline := some 22279 } }

/-- A host with one label. -/
def labelledHost (key value : String) : HostIdentity where
  machineId := "m1"
  hostname := "web01"
  os := "linux"
  labels := Dict.ofList [(key, value)]
  agentVersion := "0.10.0"

/-- The document of the sample for a host. -/
def sampleDocument (identity : HostIdentity) : Json :=
  .object (bundleDocument Encoder.stored dumpSample dumpedScan identity)

/-- The sample is written. -/
theorem dumpable_sample (identity : HostIdentity)
    (small : (jsonBytes (sampleDocument identity)).length ≤ maxRawBytes) :
    dumpBundle Encoder.stored dumpSample 1 identity =
      .ok (Encoder.stored.compress (jsonBytes (sampleDocument identity))) :=
  (dumpBundle_eq_ok_iff rfl).mpr ⟨_, rfl, small, rfl⟩

theorem withinCaps_sample :
    WithinCaps Encoder.stored dumpSample dumpedScan (labelledHost "env" "prod") := by
  have labels : (labelledHost "env" "prod").labels.entries = [("env", "prod")] := by
    decide
  refine ⟨by decide, by decide, ?_, ?_⟩
  · rw [LabelsBounded, labels]
    decide
  · intro raw encoded
    cases encoded
    decide +kernel

theorem dump_loads_iff_sample :
    let identity := labelledHost "env" "prod"
    let py := Runtime.ofDocuments [Document.ofJson (sampleDocument identity)]
    ∀ data, dumpBundle Encoder.stored dumpSample 1 identity = .ok data →
      ∃ bundle, loadBundle py data = .ok bundle := by
  intro identity py
  have found : getScan dumpSample 1 = some dumpedScan := rfl
  apply (dump_loads_iff found rfl (by decide)
    (Encoder.stored_decodes (sampleDocument identity))).mpr
  intro
  exact ⟨by decide, withinCaps_sample⟩

/-- A label key of 65 characters is dumped and not loaded. -/
theorem dump_not_loaded :
    ¬ ∀ (encoder : Encoder) (py : Runtime) (db : Database) (scanId : Nat) (scan : Scan)
        (identity : HostIdentity) (uuid : String),
      getScan db scanId = some scan → scan.status = "done" → scan.scanUuid = some uuid →
      uuid ≠ "" → identity.machineId ≠ "" →
      encoder.Decodes py (.object (bundleDocument encoder db scan identity)) →
      ∀ data, dumpBundle encoder db scanId identity = .ok data →
        ∃ bundle, loadBundle py data = .ok bundle := by
  intro loads
  have decodes := Encoder.stored_decodes
    (sampleDocument (labelledHost (String.ofList (List.replicate 65 'k')) "v"))
  have dumped := dumpable_sample
    (labelledHost (String.ofList (List.replicate 65 'k')) "v") (by decide +kernel)
  obtain ⟨bundle, loaded⟩ := loads _ _ dumpSample 1 dumpedScan _ "u1" rfl (by decide) rfl
    (by decide) (by decide) decodes _ dumped
  have within := ((loadBundle_dumpBundle rfl rfl (by decide) decodes dumped).mp
    loaded).1.2
  have short := within.bounded (String.ofList (List.replicate 65 'k'), "v")
    List.mem_cons_self
  exact absurd short.1 (by decide +kernel)

end Store
end PqcScan
