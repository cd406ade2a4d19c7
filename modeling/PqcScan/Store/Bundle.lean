import PqcScan.Library.Fallible
import PqcScan.Store.Schema

/-!
# Scan bundles

One finished scan as an agent sends it (`store/bundle.py`): a gzip-compressed
JSON document.  `loadBundle` checks the document and removes what only the
collector may write.  The fields of a finding stay JSON values here; the
store coerces them when it writes the rows.
-/

namespace PqcScan
namespace Store

open Library Python PqcScan.Core

/-- `BUNDLE_SCHEMA_VERSION`. -/
def bundleSchemaVersion : Int := 1

/-- `MAX_GZIP_BYTES`. -/
def maxGzipBytes : Nat := 8 * 1024 * 1024

/-- `MAX_RAW_BYTES`. -/
def maxRawBytes : Nat := 50 * 1024 * 1024

/-- `MAX_FINDINGS`. -/
def maxFindings : Nat := 200000

/-- `MAX_LABELS`. -/
def maxLabels : Nat := 64

/-- `MAX_LABEL_KEY`. -/
def maxLabelKey : Nat := 64

/-- `MAX_LABEL_VALUE`. -/
def maxLabelValue : Nat := 256

/-- Evidence keys only the collector sets. -/
def serverEvidenceKeys : List String := ["_fleet"]

/-- Why a bundle is refused. -/
inductive BundleError
  | invalid (message : String)
  | tooLarge (message : String)
  deriving DecidableEq, Repr

/-- `str(error)`. -/
def BundleError.message : BundleError → String
  | .invalid message => message
  | .tooLarge message => message

/-- The identity an agent states for its host. -/
structure HostIdentity where
  machineId : String
  hostname : String
  os : String
  labels : Dict String String
  agentVersion : String

/-- A bundle after its structure has been checked. -/
structure ScanBundle where
  schemaVersion : Int
  scanUuid : String
  host : HostIdentity
  scan : JsonObject
  findings : List JsonObject
  droppedDrift : Nat

/-- `_req_str`. -/
def reqStr (members : JsonObject) (key : String) (nonempty : Bool) :
    Except BundleError String :=
  let refused : Except BundleError String :=
    .error (.invalid
      (key ++ " must be a " ++ (if nonempty then "non-empty " else "") ++ "string"))
  match members.get? key with
  | some (.str value) => if nonempty && value == "" then refused else .ok value
  | some _ => refused
  | none => if nonempty then refused else .ok ""

/-- The loop of `check_labels` over the entries. -/
def checkLabelEntries : JsonObject → Except BundleError Unit
  | [] => .ok ()
  | (key, value) :: rest =>
      match value with
      | .str content =>
          if key.length > maxLabelKey ∨ content.length > maxLabelValue then
            .error (.invalid
              (s!"host.labels keys are capped at {maxLabelKey} " ++
                s!"and values at {maxLabelValue} chars"))
          else checkLabelEntries rest
      | _ => .error (.invalid "host.labels values must be strings")

/-- `check_labels`. -/
def checkLabels (labels : JsonObject) : Except BundleError Unit :=
  if labels.length > maxLabels then
    .error (.invalid s!"host.labels has {labels.length} entries; cap {maxLabels}")
  else checkLabelEntries labels

/-- The labels of a checked dictionary. -/
def labelStrings (labels : JsonObject) : Dict String String :=
  Dict.ofList (labels.filterMap fun entry =>
    match entry.2 with
    | .str value => some (entry.1, value)
    | _ => none)

/-- `finding.get("probe_id") == DRIFT_PROBE`. -/
def claimsDrift (finding : JsonObject) : Bool :=
  match finding.get? "probe_id" with
  | some (.str probe) => probe == driftProbe
  | _ => false

/-- Evidence without the collector's keys; only an object is looked at. -/
def popKeys (evidence : Json) : Json :=
  match evidence with
  | .object members =>
      .object (members.filter fun member =>
        !serverEvidenceKeys.contains member.1)
  | other => other

/-- A finding with the collector's keys removed from its evidence. -/
def popServerKeys (finding : JsonObject) : JsonObject :=
  finding.map fun member =>
    if member.1 = "evidence" then (member.1, popKeys member.2) else member

/-- The findings of a document, when every one is an object. -/
def objects : List Json → Option (List JsonObject)
  | [] => some []
  | .object members :: rest => (objects rest).map (members :: ·)
  | _ :: _ => none

/-- The findings the collector takes from an agent. -/
def acceptedFindings (findings : List JsonObject) : List JsonObject :=
  (findings.filter fun finding => !claimsDrift finding).map popServerKeys

/-- `load_bundle` once host, labels, scan and findings have the right types. -/
def readBundle (doc host scan labels : JsonObject) (findings : List Json) :
    Except BundleError ScanBundle :=
  if findings.length > maxFindings then
    .error (.tooLarge s!"bundle has {findings.length} findings; cap {maxFindings}")
  else
    match objects findings with
    | none => .error (.invalid "every finding must be an object")
    | some listed => do
        let kept := acceptedFindings listed
        checkLabels labels
        let machineId ← reqStr host "machine_id" true
        let hostname ← reqStr host "hostname" false
        let os ← reqStr host "os" false
        let agentVersion ← reqStr host "agent_version" false
        let scanUuid ← reqStr doc "scan_uuid" true
        .ok
          { schemaVersion := bundleSchemaVersion
            scanUuid
            host :=
              { machineId, hostname, os, labels := labelStrings labels,
                agentVersion }
            scan
            findings := kept
            droppedDrift := listed.length - kept.length }

/-- `load_bundle` on the decoded document. -/
def readDocument (doc : Json) : Except BundleError ScanBundle :=
  let unsupported : Except BundleError ScanBundle :=
    .error (.invalid "unsupported or missing schema_version")
  match doc with
  | .object members =>
      match JsonObject.get? members "schema_version" with
      | some version =>
          if version.sameKey (.int bundleSchemaVersion) then readMembers members
          else unsupported
      | none => unsupported
  | _ => unsupported
where
  readMembers (members : JsonObject) : Except BundleError ScanBundle :=
    match members.get? "host", members.get? "scan",
        members.getOr "findings" (.array []) with
    | some (.object host), some (.object scan), .array findings =>
        match JsonObject.getOr host "labels" (.object []) with
        | .object labels => readBundle members host scan labels findings
        | _ => malformed
    | _, _, _ => malformed
  malformed : Except BundleError ScanBundle :=
    .error (.invalid
      "host, host.labels and scan must be objects and findings a list")

/-- `load_bundle`. -/
def loadBundle (py : Runtime) (data : Bytes) : Except BundleError ScanBundle :=
  if data.length > maxGzipBytes then
    .error (.tooLarge s!"bundle is {data.length} bytes gzip; cap {maxGzipBytes}")
  else
    match py.decompress data (maxRawBytes + 1) with
    | .error reason => .error (.invalid ("bad gzip: " ++ reason))
    | .ok (raw, unconsumedTail) =>
        if raw.length > maxRawBytes ∨ unconsumedTail ≠ [] then
          .error (.tooLarge s!"bundle decompresses past {maxRawBytes} bytes")
        else
          match py.jsonLoads raw with
          | .error reason => .error (.invalid ("bad json: " ++ reason))
          | .ok doc => readDocument doc

/-! ## What is accepted -/

/-- The object a compressed bundle decodes to. -/
def sentDocument (py : Runtime) (data : Bytes) : Option JsonObject :=
  match py.decompress data (maxRawBytes + 1) with
  | .error _ => none
  | .ok (raw, _) =>
      match py.jsonLoads raw with
      | .ok (.object members) => some members
      | _ => none

theorem readBundle_of_readMembers {members : JsonObject} {bundle : ScanBundle}
    (accepted : readDocument.readMembers members = .ok bundle) :
    ∃ host scan labels findings,
      members.getOr "findings" (.array []) = .array findings ∧
      readBundle members host scan labels findings = .ok bundle := by
  unfold readDocument.readMembers at accepted
  split at accepted
  · next host scan findings _ _ found =>
      split at accepted
      · next labels _ => exact ⟨host, scan, labels, findings, found, accepted⟩
      · cases accepted
  · cases accepted

/-- A document is accepted only as an object. -/
theorem members_of_readDocument {doc : Json} {bundle : ScanBundle}
    (accepted : readDocument doc = .ok bundle) :
    ∃ members, doc = .object members ∧
      readDocument.readMembers members = .ok bundle := by
  unfold readDocument at accepted
  dsimp only at accepted
  split at accepted
  · next members =>
      split at accepted
      · split at accepted
        · exact ⟨members, rfl, accepted⟩
        · cases accepted
      · cases accepted
  · cases accepted

/-- An accepted bundle is read from the parts of the document sent. -/
theorem readBundle_of_loadBundle {py : Runtime} {data : Bytes}
    {bundle : ScanBundle} (loaded : loadBundle py data = .ok bundle) :
    ∃ members host scan labels findings,
      sentDocument py data = some members ∧
      members.getOr "findings" (.array []) = .array findings ∧
      readBundle members host scan labels findings = .ok bundle := by
  unfold loadBundle at loaded
  split at loaded
  · cases loaded
  split at loaded
  · cases loaded
  next raw unconsumedTail decompressed =>
  split at loaded
  · cases loaded
  split at loaded
  · cases loaded
  next doc decoded =>
  obtain ⟨members, rfl, accepted⟩ := members_of_readDocument loaded
  obtain ⟨host, scan, labels, findings, found, read⟩ :=
    readBundle_of_readMembers accepted
  exact ⟨members, host, scan, labels, findings,
    by simp only [sentDocument, decompressed, decoded], found, read⟩

/-- What `readBundle` has checked, and what it returns. -/
theorem readBundle_ok {doc host scan labels : JsonObject} {findings : List Json}
    {bundle : ScanBundle}
    (accepted : readBundle doc host scan labels findings = .ok bundle) :
    (∃ listed, objects findings = some listed ∧
      bundle.findings = acceptedFindings listed) ∧
      checkLabels labels = .ok () ∧ bundle.host.labels = labelStrings labels ∧
      bundle.scan = scan := by
  unfold readBundle at accepted
  split at accepted
  · cases accepted
  split at accepted
  · cases accepted
  next listed found =>
  simp only [bind_eq_ok, Except.ok.injEq] at accepted
  obtain ⟨⟨⟩, checked, _, _, _, _, _, _, _, _, _, _, rfl⟩ := accepted
  exact ⟨⟨listed, found, rfl⟩, checked, rfl, rfl⟩

/-! ## Bounded labels -/

/-- Every key and every value keeps to its cap. -/
def LabelsBounded (labels : Dict String String) : Prop :=
  ∀ entry ∈ labels.entries,
    entry.1.length ≤ maxLabelKey ∧ entry.2.length ≤ maxLabelValue

theorem bounded_of_checkLabelEntries {labels : JsonObject}
    (checked : checkLabelEntries labels = .ok ()) {key value : String}
    (member : (key, .str value) ∈ labels) :
    key.length ≤ maxLabelKey ∧ value.length ≤ maxLabelValue := by
  induction labels with
  | nil => simp at member
  | cons entry rest inductionHypothesis =>
      obtain ⟨name, content⟩ := entry
      unfold checkLabelEntries at checked
      split at checked
      · next text =>
          split at checked
          · cases checked
          · next within =>
              rcases List.mem_cons.mp member with same | later
              · cases same
                simpa [not_or] using within
              · exact inductionHypothesis checked later
      · cases checked

/-- Labels that pass the check are bounded. -/
theorem labelsBounded_of_checkLabels {labels : JsonObject}
    (checked : checkLabels labels = .ok ()) :
    LabelsBounded (labelStrings labels) := by
  unfold checkLabels at checked
  split at checked
  · cases checked
  rintro ⟨key, value⟩ member
  have listed := Dict.mem_entries_ofList member
  rw [List.mem_filterMap] at listed
  obtain ⟨⟨name, content⟩, labelMember, taken⟩ := listed
  cases content with
  | str text =>
      cases taken
      exact bounded_of_checkLabelEntries checked labelMember
  | _ => cases taken

/-- The labels of an accepted bundle are bounded. -/
theorem labelsBounded_of_loadBundle {py : Runtime} {data : Bytes}
    {bundle : ScanBundle} (loaded : loadBundle py data = .ok bundle) :
    LabelsBounded bundle.host.labels := by
  obtain ⟨_, _, _, labels, _, _, _, read⟩ := readBundle_of_loadBundle loaded
  obtain ⟨_, checked, labelsEq, _⟩ := readBundle_ok read
  rw [labelsEq]
  exact labelsBounded_of_checkLabels checked

end Store
end PqcScan
