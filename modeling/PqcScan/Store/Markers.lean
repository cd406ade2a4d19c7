import PqcScan.Core.Scores
import PqcScan.Renderers.Cbom
import PqcScan.Renderers.Sarif
import PqcScan.Store.Merge

/-!
# Drift markers among findings

A store and the same store with `fleet.drift` rows inserted among its findings.  The
scores, the bill of materials and the rollup of the fleet skip them; the SARIF log and the
rollup of a merge do not.
-/

namespace PqcScan
namespace Store
namespace Markers

open Library Python PqcScan.Core Repo

/-- What the scores read of a stored finding. -/
def scored (row : FindingRow) : Scored :=
  ⟨row.probeId, row.algorithm, row.classification, row.severity, row.evidence⟩

/-- A row as `drift_rows` builds it. -/
structure IsMarker (row : FindingRow) : Prop where
  probeId : row.probeId = driftProbe
  algorithm : row.algorithm = "N/A"
  classification : row.classification = "info"
  severity : row.severity = "info"

/-- The second store is the first one with markers inserted among its findings. -/
structure Marked (before after : Database) : Prop where
  hosts : after.hosts = before.hosts
  scans : after.scans = before.scans
  views : after.views = before.views
  findings : Inserted IsMarker before.findings.rows after.findings.rows

/-- What the interpreter and a merge are given. -/
structure Setting where
  py : Renderers.Sarif.Interpreter
  tables : CaseTables
  lower : String → String
  percent : Nat → Nat → ℚ

/-- The scores of a scan, and its inventory. -/
structure Unscored (setting : Setting) (scanId : Nat)
    (before after : Database) : Prop where
  bands : countBands setting.lower ((listFindings after scanId).map FindingRow.rated) =
    countBands setting.lower ((listFindings before scanId).map FindingRow.rated)
  surfaces : surfaceBreakdown setting.lower
    ((listFindings after scanId).map FindingRow.rated) =
    surfaceBreakdown setting.lower ((listFindings before scanId).map FindingRow.rated)
  readiness :
    readinessScore (countBands setting.lower
      ((listFindings after scanId).map FindingRow.rated)) =
    readinessScore (countBands setting.lower
      ((listFindings before scanId).map FindingRow.rated))
  migration :
    MigrationScore.scoreFindings setting.lower setting.percent
      ((listFindings after scanId).map scored) =
    MigrationScore.scoreFindings setting.lower setting.percent
      ((listFindings before scanId).map scored)
  agility : Agility.scoreFindings ((listFindings after scanId).map scored) =
    Agility.scoreFindings ((listFindings before scanId).map scored)
  exposure :
    Exposure.buildRegister setting.py.text setting.lower
      ((listFindings after scanId).map scored) =
    Exposure.buildRegister setting.py.text setting.lower
      ((listFindings before scanId).map scored)
  components : Renderers.Cbom.componentsOf setting.tables (listFindings after scanId) =
    Renderers.Cbom.componentsOf setting.tables (listFindings before scanId)

/-- The findings that a merge of the store copies into its rollup. -/
def mergedFindings (rollId : Nat) (stem : String) (db : Database) : List FindingRow :=
  (Merge.rollupPieces rollId ([⟨stem, db⟩].filterMap Merge.latestOf)).map Merge.Piece.row

/-- No consumer sees that rows were inserted. -/
structure Unseen (setting : Setting) (scanId rollId : Nat) (stem : String)
    (before after : Database) : Prop where
  unscored : Unscored setting scanId before after
  results : (Renderers.Sarif.buildSarif setting.py after scanId).results =
    (Renderers.Sarif.buildSarif setting.py before scanId).results
  rules : (Renderers.Sarif.buildSarif setting.py after scanId).rules =
    (Renderers.Sarif.buildSarif setting.py before scanId).rules
  fleet : sourcesOf after.findings (latestPairs setting.lower after) =
    sourcesOf before.findings (latestPairs setting.lower before)
  merged : mergedFindings rollId stem after = mergedFindings rollId stem before

/-- What is stored of `drift_rows` are markers. -/
theorem isMarker_of_carriesDrift {text : Text} {now : Nat → DateTime}
    {previous current : List ParityRow} {finding : Finding}
    (member : finding ∈ (driftRows text now previous current).1) {scanId : Nat}
    {row : FindingRow} (carries : CarriesDrift scanId finding row) : IsMarker row := by
  have built : finding.probeId = driftProbe ∧ finding.algorithm = "N/A" ∧
      finding.classification = .info ∧ finding.severity = .info := by
    unfold driftRows at member
    dsimp only at member
    split at member
    · split at member
      · cases member
      · rw [List.mem_singleton.mp member]
        exact ⟨rfl, rfl, rfl, rfl⟩
    · split at member
      · rcases List.mem_append.mp member with change | summary
        · obtain ⟨index, within, rfl⟩ := List.mem_mapIdx.mp change
          exact ⟨rfl, rfl, rfl, rfl⟩
        · rw [List.mem_singleton.mp summary]
          exact ⟨rfl, rfl, rfl, rfl⟩
      · obtain ⟨index, within, rfl⟩ := List.mem_mapIdx.mp member
        exact ⟨rfl, rfl, rfl, rfl⟩
  obtain ⟨probeId, algorithm, classification, severity⟩ := built
  rw [CarriesDrift] at carries
  rw [carries]
  refine ⟨probeId, algorithm, ?_, ?_⟩
  · change finding.classification.value = "info"
    rw [classification]
    rfl
  · change finding.severity.value = "info"
    rw [severity]
    rfl

/-- Storing drift rows inserts markers. -/
theorem marked_storeDrift {before : Database} {text : Text} {now : Nat → DateTime}
    {previous current : List ParityRow} (scanId : Nat) :
    Marked before { before with
      findings := storeDrift scanId
        (driftRows text now previous current).1 before.findings } := by
  refine ⟨rfl, rfl, rfl, ?_⟩
  obtain ⟨new, rows, carries⟩ :=
    storeDrift_rows scanId (driftRows text now previous current).1 before.findings
  have all : ∀ row ∈ new, IsMarker row := by
    intro row member
    obtain ⟨finding, listed, carried⟩ := exists_left carries member
    exact isMarker_of_carriesDrift listed carried
  have back := (Inserted.refl before.findings.rows).append (Inserted.of_all all)
  rw [List.append_nil] at back
  rw [rows]
  exact back

section Marked

variable {before after : Database} (marked : Marked before after)

include marked

theorem listFindings_inserted (scanId : Nat) :
    Inserted IsMarker (listFindings before scanId) (listFindings after scanId) :=
  (marked.findings.filter _).insertionSort

/-- The scores and the inventory skip markers. -/
theorem unscored (setting : Setting) (scanId : Nat) :
    Unscored setting scanId before after := by
  have listed := listFindings_inserted marked scanId
  have rated : Inserted (fun finding : Rated => finding.probeId = driftProbe)
      ((listFindings before scanId).map FindingRow.rated)
      ((listFindings after scanId).map FindingRow.rated) :=
    listed.map fun _ marker => marker.probeId
  have seen : Inserted Scored.IsMarker ((listFindings before scanId).map scored)
      ((listFindings after scanId).map scored) :=
    listed.map fun _ marker => ⟨marker.probeId, marker.classification⟩
  have bands := countBands_inserted rated setting.lower
  refine ⟨bands, surfaceBreakdown_inserted rated setting.lower, by rw [bands],
    migrationScore_inserted seen _ _, agility_inserted seen,
    buildRegister_inserted seen _ _, ?_⟩
  unfold Renderers.Cbom.componentsOf
  rw [listed.filter_eq fun row marker => ?_]
  rw [Renderers.Cbom.inventoried, marker.algorithm]
  rfl

/-- The rollup of the fleet skips markers. -/
theorem fleet_marked (lower : String → String) :
    sourcesOf after.findings (latestPairs lower after) =
      sourcesOf before.findings (latestPairs lower before) := by
  have pairs : latestPairs lower after = latestPairs lower before := by
    rw [latestPairs_eq, latestPairs_eq]
    unfold hostsByName latestDone scansOf
    rw [marked.hosts, marked.scans]
  have own : ∀ scanId,
      ownFindings after.findings scanId = ownFindings before.findings scanId := by
    intro scanId
    apply marked.findings.filter_eq
    intro row marker
    rw [marker.probeId]
    exact Bool.and_false _
  rw [pairs, sourcesOf, sourcesOf]
  simp only [own]

/-- The SARIF log has a result for every finding, markers among them. -/
theorem results_iff (py : Renderers.Sarif.Interpreter) (scanId : Nat) :
    (Renderers.Sarif.buildSarif py after scanId).results =
      (Renderers.Sarif.buildSarif py before scanId).results ↔
    listFindings after scanId = listFindings before scanId := by
  constructor
  · intro same
    apply (listFindings_inserted marked scanId).eq_of_length
    have ids := congrArg (List.map Renderers.Sarif.Result.ruleId) same
    rw [Renderers.Sarif.results_ruleIds, Renderers.Sarif.results_ruleIds] at ids
    simpa using congrArg List.length ids
  · intro same
    unfold Renderers.Sarif.buildSarif
    rw [same]

end Marked

theorem rules_of_listFindings {before after : Database} {py : Renderers.Sarif.Interpreter}
    {scanId : Nat}
    (same : listFindings after scanId = listFindings before scanId) :
    (Renderers.Sarif.buildSarif py after scanId).rules =
      (Renderers.Sarif.buildSarif py before scanId).rules := by
  unfold Renderers.Sarif.buildSarif
  rw [same]

/-- The findings of a scan, in the order of the store. -/
def findingsIn (db : Database) (scanId : Nat) : List FindingRow :=
  db.findings.rows.filter (·.scanId == scanId)

/-- The newest finished scan that is no rollup. -/
def newestFinished (db : Database) : Option Scan := Merge.lastDone (Merge.scansByStart db)

theorem mergedFindings_eq (rollId : Nat) (stem : String) (db : Database) :
    mergedFindings rollId stem db =
      match newestFinished db with
      | none => []
      | some scan => (findingsIn db scan.id).map
          (Merge.rollupCopy rollId (Merge.hostOf ⟨stem, db⟩ scan)) := by
  unfold mergedFindings newestFinished
  rw [List.filterMap_cons, Merge.latestOf]
  cases Merge.lastDone (Merge.scansByStart db) with
  | none => rfl
  | some scan =>
      simp [Merge.rollupPieces, Merge.piecesOf, findingsIn, Function.comp_def]

/-- A merge copies the markers of the newest finished scan. -/
theorem merged_iff {before after : Database} (marked : Marked before after) (rollId : Nat)
    (stem : String) :
    mergedFindings rollId stem after = mergedFindings rollId stem before ↔
      ∀ scan, newestFinished before = some scan →
        findingsIn after scan.id = findingsIn before scan.id := by
  have newest : newestFinished after = newestFinished before := by
    unfold newestFinished Merge.scansByStart
    rw [marked.scans]
  rw [mergedFindings_eq, mergedFindings_eq, newest]
  cases newestFinished before with
  | none => simp
  | some scan =>
      have inserted := marked.findings.filter (·.scanId == scan.id)
      constructor
      · rintro same _ ⟨⟩
        apply inserted.eq_of_length
        simpa [findingsIn] using congrArg List.length same
      · intro same
        simp only [same scan rfl]
        rfl

theorem listFindings_iff {before after : Database} (marked : Marked before after)
    (scanId : Nat) :
    listFindings after scanId = listFindings before scanId ↔
      findingsIn after scanId = findingsIn before scanId := by
  constructor
  · intro same
    apply (marked.findings.filter (·.scanId == scanId)).eq_of_length
    simpa [listFindings] using congrArg List.length same
  · intro same
    exact congrArg (List.insertionSort _) same

/-- Drift markers go unseen exactly when none stands in the scan or in the newest finished
scan of the store. -/
theorem markers_unseen_iff (setting : Setting) (scanId rollId : Nat) (stem : String)
    {before after : Database} (marked : Marked before after) :
    Unseen setting scanId rollId stem before after ↔
      findingsIn after scanId = findingsIn before scanId ∧
        ∀ scan, newestFinished before = some scan →
          findingsIn after scan.id = findingsIn before scan.id := by
  rw [← listFindings_iff marked, ← merged_iff marked rollId stem]
  constructor
  · intro unseen
    exact ⟨(results_iff marked setting.py scanId).mp unseen.results, unseen.merged⟩
  · rintro ⟨same, merged⟩
    exact ⟨unscored marked setting scanId,
      (results_iff marked setting.py scanId).mpr same, rules_of_listFindings same,
      fleet_marked marked setting.lower, merged⟩

/-! ## A scan with one drift row -/

theorem quietScans_ascending :
    [{ Merge.rollupScan 0 0 0 with id := 1, label := none }].Pairwise
    fun left right => Row.id left < Row.id right := by simp

theorem quietScans_distinct :
    [{ Merge.rollupScan 0 0 0 with id := 1, label := none }].Pairwise
    fun left right => Row.clash left right = false := by simp

/-- A store with one finished scan that found nothing. -/
def quietStore : Database where
  hosts := Table.empty
  scans := ⟨[{ Merge.rollupScan 0 0 0 with id := 1, label := none }],
    quietScans_ascending, quietScans_distinct⟩
  findings := Table.empty
  views := Table.empty
  baselines := Table.empty
  components := Table.empty
  edges := Table.empty
  hostStored := by simp [Merge.rollupScan]

/-- The same scan with the marker of one new finding. -/
def driftedStore : Database :=
  { quietStore with
    findings := storeDrift 1 (driftRows asciiText (fun _ => 0) []
      [⟨"net.tls.https", "RSA-2048", "RSA-2048 key", Dict.empty⟩]).1 Table.empty }

/-- Consumers that compute, on US-ASCII text. -/
def plainSetting : Setting where
  py := ⟨asciiText, id, "1.0.0"⟩
  tables := plainTables
  lower := id
  percent := fun weighted total => weighted / total

theorem marked_quietStore : Marked quietStore driftedStore := marked_storeDrift 1

theorem drifted_findings :
    (findingsIn driftedStore 1).length = 1 := by
  decide +kernel

/-- The SARIF log of the scan has a result for its drift marker. -/
theorem drift_in_sarif :
    Marked quietStore driftedStore ∧
    ¬ Unseen plainSetting 1 2 "out" quietStore driftedStore := by
  refine ⟨marked_quietStore, fun unseen => ?_⟩
  have same := (results_iff marked_quietStore plainSetting.py 1).mp unseen.results
  rw [listFindings_iff marked_quietStore] at same
  have counted := drifted_findings
  rw [same] at counted
  cases counted

/-- Both sides say that the marker is seen. -/
theorem drifted_unseen_iff :
    Marked quietStore driftedStore ∧
      (Unseen plainSetting 1 2 "out" quietStore driftedStore ↔
        findingsIn driftedStore 1 = findingsIn quietStore 1 ∧
          ∀ scan, newestFinished quietStore = some scan →
            findingsIn driftedStore scan.id = findingsIn quietStore scan.id) :=
  ⟨marked_quietStore, markers_unseen_iff plainSetting 1 2 "out" marked_quietStore⟩

end Markers
end Store
end PqcScan
