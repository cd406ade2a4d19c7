import PqcScan.Store.Effect

/-!
# Attribution that only the collector writes

`load_bundle` removes `_fleet` from evidence objects and drops findings that
claim to be drift; `ingest_bundle` later builds the stored evidence with
`dict()`, which also accepts a list of pairs.  The rows of an agent are free of
the collector's keys exactly when no finding sends such a list.
-/

namespace PqcScan
namespace Store
namespace Repo

open Library Python PqcScan.Core

/-! ## What an agent sends -/

/-- The findings in a compressed bundle, as the agent wrote them. -/
def sentFindings (py : Runtime) (data : Bytes) : List JsonObject :=
  match sentDocument py data with
  | none => []
  | some members =>
      match members.getOr "findings" (.array []) with
      | .array findings => (objects findings).getD []
      | _ => []

/-- The evidence is a list with a pair whose first part is
a key of the collector. -/
def ForgesAttribution (finding : JsonObject) : Prop :=
  ∃ items, finding.get? "evidence" = some (.array items) ∧
    ∃ key ∈ serverEvidenceKeys, ∃ item ∈ items, PairsKey key item

/-- The row says nothing that only the collector may say. -/
def ServerFree (row : FindingRow) : Prop :=
  (∀ key ∈ serverEvidenceKeys, key ∉ row.evidence.keys) ∧
    row.probeId ≠ driftProbe

/-- The rows a call stored from the findings of its bundle. -/
def agentRowsOf (before after : Database) (bundle : ScanBundle) :
    List FindingRow :=
  (after.findings.rows.drop before.findings.rows.length).take
    bundle.findings.length

/-! ## What `load_bundle` accepts -/

theorem get?_popServerKeys (finding : JsonObject) (key : String) :
    JsonObject.get? (popServerKeys finding) key =
      (finding.get? key).map (if key = "evidence" then popKeys else id) := by
  induction finding with
  | nil => rfl
  | cons member rest inductionHypothesis =>
      unfold JsonObject.get? popServerKeys at inductionHypothesis ⊢
      rw [List.map_cons, lookupEntry, lookupEntry, inductionHypothesis]
      by_cases evidence : member.1 = "evidence"
      · by_cases same : member.1 = key
        · have isEvidence : key = "evidence" := same.symm.trans evidence
          simp [evidence, isEvidence]
        · rw [if_pos evidence, if_neg same, if_neg same]
      · by_cases same : member.1 = key
        · have notEvidence : key ≠ "evidence" := same ▸ evidence
          simp [same, notEvidence]
        · rw [if_neg evidence, if_neg same, if_neg same]

/-- Removing the collector's keys keeps the probe. -/
theorem claimsDrift_popServerKeys (finding : JsonObject) :
    claimsDrift (popServerKeys finding) = claimsDrift finding := by
  rw [claimsDrift, claimsDrift, get?_popServerKeys]
  cases finding.get? "probe_id" <;> rfl

theorem mem_acceptedFindings {findings : List JsonObject} {accepted : JsonObject} :
    accepted ∈ acceptedFindings findings ↔
      ∃ finding ∈ findings, claimsDrift finding = false ∧
        accepted = popServerKeys finding := by
  simp only [acceptedFindings, List.mem_map, List.mem_filter,
    Bool.not_eq_eq_eq_not, Bool.not_true]
  exact ⟨fun ⟨finding, ⟨member, honest⟩, equal⟩ =>
      ⟨finding, member, honest, equal.symm⟩,
    fun ⟨finding, member, honest, equal⟩ =>
      ⟨finding, ⟨member, honest⟩, equal.symm⟩⟩

/-- An accepted bundle has the findings the agent sent, filtered. -/
theorem findings_of_loadBundle {py : Runtime} {data : Bytes} {bundle : ScanBundle}
    (loaded : loadBundle py data = .ok bundle) :
    bundle.findings = acceptedFindings (sentFindings py data) := by
  obtain ⟨members, host, scan, labels, findings, sent, found, read⟩ :=
    readBundle_of_loadBundle loaded
  obtain ⟨⟨listed, listedEq, findingsEq⟩, _⟩ := readBundle_ok read
  simp only [sentFindings, sent, found, listedEq, Option.getD_some, findingsEq]

/-! ## What `ingest_bundle` makes of it -/

/-- The collector's keys are stored only for the strings themselves. -/
theorem columnKey_serverKey (text : Text) {key : Json} {name : String}
    (server : name ∈ serverEvidenceKeys) :
    columnKey text key = name ↔ key = .str name := by
  rw [serverEvidenceKeys, List.mem_singleton] at server
  subst server
  have first : "_fleet".toList.head? = some '_' := by decide
  exact columnKey_eq_iff text first (by decide) (by decide) (by decide)

/-- A stored probe id is `fleet.drift` only for the string itself. -/
theorem toStr_driftProbe (text : Text) {probe : Json}
    (printed : probe.toStr text = driftProbe) : probe = .str driftProbe := by
  have first : driftProbe.toList.head? = some 'f' := by decide
  exact Json.eq_str_of_toStr text printed first (by decide) (by decide)

/-- A falsy list has no pairs. -/
theorem pairs_of_falsy {items : List Json} (falsy : ¬ (Json.array items).truthy = true)
    (name : String) : ¬ ∃ item ∈ items, PairsKey name item := by
  have empty : items = [] := by simpa [Json.truthy] using falsy
  simp [empty]

/-- Which of the collector's keys a row stored from filtered evidence has. -/
theorem serverKey_stored {text : Text} {finding : JsonObject} {name : String}
    {evidence : Dict String Json} (server : name ∈ serverEvidenceKeys)
    (stored : dictOrEmpty text
      (JsonObject.get? (popServerKeys finding) "evidence") = .ok evidence) :
    name ∈ evidence.keys ↔
      ∃ items, finding.get? "evidence" = some (.array items) ∧
        ∃ item ∈ items, PairsKey name item := by
  rw [get?_popServerKeys, if_pos rfl] at stored
  cases found : finding.get? "evidence" with
  | none =>
      rw [found] at stored
      cases stored
      simp
  | some value =>
      rw [found, Option.map_some, dictOrEmpty] at stored
      by_cases truthy : (popKeys value).truthy = true
      · rw [if_pos truthy, map_eq_ok] at stored
        obtain ⟨built, success, rfl⟩ := stored
        have keys : name ∈ (columnDict text built).keys ↔ HasKey name built := by
          rw [mem_keys_columnDict]
          exact exists_congr fun entry => and_congr_right fun _ =>
            columnKey_serverKey text server
        rw [keys, hasKey_dictOf success]
        cases value with
        | object members =>
            -- the filter has removed every member under a server key
            simp [popKeys, server]
        | array items => simp [popKeys]
        | _ => simp [popKeys]
      · rw [if_neg truthy] at stored
        cases stored
        cases value with
        | array items => simpa using pairs_of_falsy truthy name
        | _ => simp

/-- The row of an accepted finding is free of the collector's marks exactly
when the finding does not forge attribution. -/
theorem serverFree_iff {py : Runtime} {scanId : Nat} {finding : JsonObject}
    {row : FindingRow} (honest : claimsDrift finding = false)
    (carries : Carries py scanId (popServerKeys finding) row) :
    ServerFree row ↔ ¬ ForgesAttribution finding := by
  obtain ⟨created, fresh, made, equal⟩ := carries
  simp only [findingRow, bind_eq_ok, Except.ok.injEq] at made
  obtain ⟨probe, subscripted, evidence, stored, _, _, rfl⟩ := made
  have probeApart : row.probeId ≠ driftProbe := by
    intro isDrift
    rw [equal] at isDrift
    rw [toStr_driftProbe _ isDrift] at subscripted
    have lookup : JsonObject.get? (popServerKeys finding) "probe_id" =
        some (.str driftProbe) := by
      unfold Json.subscript at subscripted
      simp only at subscripted
      split at subscripted
      · next found there =>
          cases subscripted
          exact there
      · cases subscripted
    rw [← claimsDrift_popServerKeys, claimsDrift, lookup] at honest
    simp at honest
  have evidenceEq : row.evidence = evidence := by rw [equal]
  rw [ServerFree, evidenceEq, and_iff_left probeApart, ForgesAttribution]
  constructor
  · rintro clean ⟨items, found, name, server, item, member, pairs⟩
    exact clean name server ((serverKey_stored server stored).mpr
      ⟨items, found, item, member, pairs⟩)
  · intro noForgery name server present
    obtain ⟨items, found, item, member, pairs⟩ :=
      (serverKey_stored server stored).mp present
    exact noForgery ⟨items, found, name, server, item, member, pairs⟩

/-- For every accepted bundle that is stored: no row of an agent finding has a
key of the collector or the drift probe if and only if no finding that the
collector keeps sends its evidence as a list with such a pair. -/
theorem agentRows_serverFree_iff (py : Runtime) (now : Nat → DateTime)
    (before after : Database) (data : Bytes) (bundle : ScanBundle)
    (hostId : Nat) (result : IngestResult)
    (loaded : loadBundle py data = .ok bundle)
    (stored : ingestBundle py now before bundle hostId = (after, .ok result))
    (new : result.duplicate = false) :
    (∀ row ∈ agentRowsOf before after bundle, ServerFree row) ↔
      ∀ finding ∈ sentFindings py data, claimsDrift finding = false →
        ¬ ForgesAttribution finding := by
  rcases ingestBundle_cases stored with
    ⟨_, error, outcome⟩ | ⟨_, scan, _, _, _, outcome⟩ |
      ⟨host, _, _, drift, changes, time, scan, agentRows, driftRows, newViews, _,
        written, _⟩
  · cases outcome
  · cases outcome
    cases new
  · have rows : agentRowsOf before after bundle = agentRows := by
      rw [agentRowsOf, written.findings, List.drop_left,
        written.agent.length_eq, List.take_left]
    have findings := findings_of_loadBundle loaded
    have agent := written.agent
    rw [findings] at agent
    rw [rows]
    constructor
    · intro clean finding member honest
      obtain ⟨row, rowMember, carries⟩ := exists_right agent
        (mem_acceptedFindings.mpr ⟨finding, member, honest, rfl⟩)
      exact (serverFree_iff honest carries).mp (clean row rowMember)
    · intro noForgery row rowMember
      obtain ⟨accepted, acceptedMember, carries⟩ := exists_left agent rowMember
      obtain ⟨finding, member, honest, rfl⟩ :=
        mem_acceptedFindings.mp acceptedMember
      exact (serverFree_iff honest carries).mpr
        (noForgery finding member honest)

/-- A bundle document with one finding. -/
def documentOf (evidence : Json) (crc : Bytes) : Document where
  value := .object
    [("schema_version", .int 1), ("scan_uuid", .str "u1"),
      ("host", .object [("machine_id", .str "m1")]),
      ("scan", .object [("status", .str "done")]),
      ("findings", .array
        [.object [("probe_id", .str "net.tls"), ("evidence", evidence)]])]
  crc := crc

/-- Evidence as an object that claims attribution. -/
def plainDocument : Document :=
  documentOf (.object [("_fleet", .object [("host_id", .int 9)])])
    [247, 235, 215, 190]

/-- The same evidence as a list of pairs. -/
def pairsDocument : Document :=
  documentOf (.array [.array [.str "_fleet", .object [("host_id", .int 9)]]])
    [117, 245, 84, 120]

/-- A runtime that reads the two documents of the samples. -/
def sampleRuntime : Runtime := Runtime.ofDocuments [plainDocument, pairsDocument]

/-- What storing a bundle document for the only host yields. -/
def storedFrom (document : Document) :
    Except BundleError (ScanBundle × Database × Except WriteError IngestResult) :=
  (loadBundle sampleRuntime document.data).map fun bundle =>
    (bundle, ingestBundle sampleRuntime (fun _ => 0)
      (storeOf [bareIdentity "m1"]) bundle 1)

theorem agentRows_serverFree_plain :
    ∃ bundle after result,
      loadBundle sampleRuntime plainDocument.data = .ok bundle ∧
      ingestBundle sampleRuntime (fun _ => 0) (storeOf [bareIdentity "m1"])
        bundle 1 = (after, .ok result) ∧
      ((∀ row ∈ agentRowsOf (storeOf [bareIdentity "m1"]) after bundle,
          ServerFree row) ↔
        ∀ finding ∈ sentFindings sampleRuntime plainDocument.data,
          claimsDrift finding = false → ¬ ForgesAttribution finding) := by
  have evaluated : succeedsWith (storedFrom plainDocument) (fun stored =>
      succeedsWith stored.2.2 (!·.duplicate)) = true := by
    decide +kernel
  obtain ⟨stored, storedEq, accepted⟩ := succeedsWith_iff.mp evaluated
  obtain ⟨result, outcome, fresh⟩ := succeedsWith_iff.mp accepted
  obtain ⟨bundle, loaded, rfl⟩ := map_eq_ok.mp storedEq
  have call : ingestBundle sampleRuntime (fun _ => 0)
      (storeOf [bareIdentity "m1"]) bundle 1 = (_, .ok result) :=
    Prod.ext rfl outcome
  exact ⟨bundle, _, result, loaded, call,
    agentRows_serverFree_iff sampleRuntime _ _ _ plainDocument.data bundle 1
      result loaded call (by simpa using fresh)⟩

/-- A list of pairs passes the filter and is stored
under the collector's key. -/
theorem forged_attribution_stored :
    ∃ bundle after result,
      loadBundle sampleRuntime pairsDocument.data = .ok bundle ∧
      ingestBundle sampleRuntime (fun _ => 0) (storeOf [bareIdentity "m1"])
        bundle 1 = (after, .ok result) ∧
      result.duplicate = false ∧
      ∃ row ∈ agentRowsOf (storeOf [bareIdentity "m1"]) after bundle,
        "_fleet" ∈ row.evidence.keys := by
  have evaluated : succeedsWith (storedFrom pairsDocument) (fun stored =>
      succeedsWith stored.2.2 (fun result => !result.duplicate &&
        (agentRowsOf (storeOf [bareIdentity "m1"]) stored.2.1 stored.1).any
          fun row => row.evidence.keys.contains "_fleet")) = true := by
    decide +kernel
  obtain ⟨stored, storedEq, accepted⟩ := succeedsWith_iff.mp evaluated
  obtain ⟨result, outcome, tested⟩ := succeedsWith_iff.mp accepted
  obtain ⟨bundle, loaded, rfl⟩ := map_eq_ok.mp storedEq
  rw [Bool.and_eq_true, List.any_eq_true] at tested
  obtain ⟨fresh, row, member, forged⟩ := tested
  exact ⟨bundle, _, result, loaded, Prod.ext rfl outcome, by simpa using fresh,
    row, member, by simpa using forged⟩

end Repo
end Store
end PqcScan
