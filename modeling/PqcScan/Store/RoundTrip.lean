import PqcScan.Store.Dump
import PqcScan.Store.HostRows
import PqcScan.Store.LatestView

/-!
# A bundle keeps its scan

What `dump_bundle` writes, `load_bundle` reads back: the uuid, the identity, the
metadata and, in row order, the findings with their views.  Only what the
collector writes itself is left out.  Stored as the first scan of a host, the
bundle gives rows that are dumped as the same document.
-/

namespace PqcScan
namespace Store

open Library Python PqcScan.Core Repo

variable {encoder : Encoder} {py : Runtime}

/-! ## What load_bundle leaves out -/

/-- The row without the collector's evidence. -/
def withoutServerKeys (row : FindingRow) : FindingRow :=
  { row with evidence := row.evidence.filterKeys (!serverEvidenceKeys.contains ·) }

/-- The rows of a scan that are not drift findings. -/
def agentRows (db : Database) (scan : Scan) : List FindingRow :=
  (rowsOf db scan.id).filter (·.probeId != driftProbe)

/-- The findings the collector keeps, in row order and with their views. -/
def keptObjects (encoder : Encoder) (db : Database) (scan : Scan) : List JsonObject :=
  (agentRows db scan).map fun row =>
    findingObject encoder (viewsOf db row.id) (withoutServerKeys row)

theorem acceptedFindings_findingObjects (db : Database) (scan : Scan) :
    acceptedFindings (findingObjects encoder db scan) = keptObjects encoder db scan := by
  rw [acceptedFindings, findingObjects, List.filter_map, List.map_map]
  rfl

/-- A scan without drift rows and `_fleet` evidence loses nothing. -/
theorem keptObjects_eq {db : Database} {scan : Scan}
    (plain : ∀ row ∈ rowsOf db scan.id,
      row.probeId ≠ driftProbe ∧ ∀ key ∈ serverEvidenceKeys, key ∉ row.evidence.keys) :
    keptObjects encoder db scan = findingObjects encoder db scan := by
  have all : agentRows db scan = rowsOf db scan.id := by
    rw [agentRows, List.filter_eq_self]
    intro row member
    simpa using (plain row member).1
  rw [keptObjects, findingObjects, all]
  apply List.map_congr_left
  intro row member
  have untouched : withoutServerKeys row = row := by
    rw [withoutServerKeys, Dict.filterKeys_of_all]
    intro key present
    have foreign : key ∉ serverEvidenceKeys :=
      fun server => (plain row member).2 key server present
    simpa using foreign
  rw [untouched]

/-! ## The coercions of the store -/

theorem dictOrEmpty_object (text : Text) (dict : Dict String Json) :
    dictOrEmpty text (some (.object dict.entries)) = .ok dict := by
  have keys : (fun entry : String × Json => (columnKey text (.str entry.1), entry.2)) =
      id := by
    funext entry
    rfl
  unfold dictOrEmpty
  by_cases none : dict.entries = []
  · have isEmpty : dict = Dict.empty := Dict.ext none
    rw [isEmpty]
    rfl
  · have truthy : (Json.object dict.entries).truthy = true := by
      simpa [Json.truthy] using none
    simp only [if_pos truthy]
    rw [dictOf, Except.map, columnDict, List.map_map]
    simp only [Function.comp_def]
    rw [keys, List.map_id, Dict.ofList_entries]

theorem parseDt_iso {times : List DateTime} {dates : List Date}
    (reads : encoder.ReadsIso py times dates) {time : DateTime} (member : time ∈ times) :
    parseDt py (some (iso encoder.datetimeIso (some time))) = some time := by
  obtain ⟨nonempty, read⟩ := reads.datetime time member
  have truthy : (Json.str (encoder.datetimeIso time)).truthy = true := by
    simpa [Json.truthy] using nonempty
  rw [iso, parseDt]
  simp only [if_pos truthy]
  exact read

/-- The times of a scan. -/
def storedTimes (db : Database) (scan : Scan) : List DateTime :=
  scan.startedAt :: scan.finishedAt.toList ++ (rowsOf db scan.id).map FindingRow.createdAt

/-- The deadlines of its views. -/
def storedDates (db : Database) (scan : Scan) : List Date :=
  (rowsOf db scan.id).flatMap fun row =>
    (viewsOf db row.id).filterMap FrameworkView.deadline

/-- The scan row made from dumped metadata. -/
theorem scanRow_loadedBundle {db : Database} {scan : Scan} (identity : HostIdentity)
    (uuid : String) {dates : List Date} (now : DateTime) (hostId : Nat)
    (terminal : ingestStatuses.contains scan.status = true)
    (reads : encoder.ReadsIso py (storedTimes db scan) dates) :
    scanRow py now (loadedBundle encoder db scan identity uuid) hostId =
      .ok
        { scan with
          id := 0
          hostFingerprint := some identity.hostname
          label := none
          hostId := some hostId
          scanUuid := some uuid } := by
  have started : parseDt py (some (iso encoder.datetimeIso (some scan.startedAt))) =
      some scan.startedAt :=
    parseDt_iso reads List.mem_cons_self
  have finished : parseDt py (some (iso encoder.datetimeIso scan.finishedAt)) =
      scan.finishedAt := by
    cases ended : scan.finishedAt with
    | none => rfl
    | some time =>
        apply parseDt_iso reads
        simp [storedTimes, ended]
  have status : storedStatus py (loadedBundle encoder db scan identity uuid) =
      scan.status :=
    if_pos terminal
  have stamps : JsonObject.get? (scanObject encoder scan) "started_at" =
      some (iso encoder.datetimeIso (some scan.startedAt)) ∧
      JsonObject.get? (scanObject encoder scan) "finished_at" =
        some (iso encoder.datetimeIso scan.finishedAt) := ⟨rfl, rfl⟩
  have versions : JsonObject.get? (scanObject encoder scan) "probe_versions" =
      some (.object scan.probeVersions.entries) ∧
      JsonObject.get? (scanObject encoder scan) "tool_versions" =
        some (.object scan.toolVersions.entries) := ⟨rfl, rfl⟩
  have mode : strOr py (scanObject encoder scan) "mode" "user" = scan.mode := rfl
  have metadata : (loadedBundle encoder db scan identity uuid).scan =
      scanObject encoder scan :=
    rfl
  rw [scanRow, status, metadata, stamps.1, stamps.2, versions.1, versions.2, mode,
    dictOrEmpty_object, dictOrEmpty_object, started, finished]
  rfl

/-- The finding row made from a dumped finding. -/
theorem findingRow_findingObject {times : List DateTime} {dates : List Date}
    (reads : encoder.ReadsIso py times dates) (now : DateTime) (scanId : Nat)
    (views : List FrameworkView) {row : FindingRow} (member : row.createdAt ∈ times) :
    findingRow py now scanId (findingObject encoder views row) =
      .ok { row with id := 0, scanId, componentId := none } := by
  have created := parseDt_iso reads member
  have objects : JsonObject.get? (findingObject encoder views row) "evidence" =
      some (.object row.evidence.entries) ∧
      JsonObject.get? (findingObject encoder views row) "remediation" =
        some (.object row.remediation.entries) ∧
      JsonObject.get? (findingObject encoder views row) "created_at" =
        some (iso encoder.datetimeIso (some row.createdAt)) := ⟨rfl, rfl, rfl⟩
  rw [findingRow, objects.1, objects.2.1, objects.2.2, dictOrEmpty_object,
    dictOrEmpty_object, created]
  rfl

/-- The view row made from a dumped view. -/
theorem viewRow_viewObject {times : List DateTime} {dates : List Date}
    (reads : encoder.ReadsIso py times dates) (findingId : Nat) {view : FrameworkView}
    (member : ∀ date, view.deadline = some date → date ∈ dates) :
    viewRow py findingId (.object (viewObject encoder view)) =
      .ok { view with id := 0, findingId } := by
  have deadline : viewDeadline py (.object (viewObject encoder view)) =
      .ok view.deadline := by
    have found : JsonObject.get? (viewObject encoder view) "deadline" =
        some (iso encoder.dateIso view.deadline) := rfl
    unfold viewDeadline
    simp only [found]
    cases due : view.deadline with
    | none => rfl
    | some date =>
        obtain ⟨nonempty, read⟩ := reads.date date (member date due)
        have truthy : (Json.str (encoder.dateIso date)).truthy = true := by
          simpa [Json.truthy] using nonempty
        simp only [iso, if_pos truthy, read]
  rw [viewRow, deadline]
  rfl

theorem listedViews_findingObject (views : List FrameworkView) (row : FindingRow) :
    listedViews (findingObject encoder views row) =
      .ok (views.map fun view => .object (viewObject encoder view)) := by
  have found : JsonObject.get? (findingObject encoder views row) "views" =
      some (.array (views.map fun view => .object (viewObject encoder view))) := rfl
  unfold listedViews
  simp only [found]
  cases views with
  | nil => rfl
  | cons view rest => rfl

/-! ## The loops of the store -/

/-- The inner loop stores dumped views one by one. -/
theorem storeViews_viewObjects {times : List DateTime} {dates : List Date}
    (reads : encoder.ReadsIso py times dates) (findingId : Nat)
    {listed : List FrameworkView}
    (members : ∀ view ∈ listed, ∀ date, view.deadline = some date → date ∈ dates)
    (views : Table FrameworkView) :
    ∃ after new,
      storeViews py findingId (listed.map fun view => .object (viewObject encoder view))
        views = .ok after ∧
      after.rows = views.rows ++ new ∧ (∀ view ∈ new, view.findingId = findingId) ∧
      new.map (viewObject encoder) = listed.map (viewObject encoder) := by
  induction listed generalizing views with
  | nil => exact ⟨views, [], rfl, by simp, by simp, rfl⟩
  | cons view rest inductionHypothesis =>
      obtain ⟨here, later⟩ := List.forall_mem_cons.mp members
      obtain ⟨after, new, stored, rows, owned, objects⟩ :=
        inductionHypothesis later (views.add { view with id := 0, findingId })
      refine ⟨after, { view with id := views.nextId, findingId } :: new, ?_, ?_, ?_, ?_⟩
      · rw [List.map_cons, storeViews, viewRow_viewObject reads findingId here]
        exact stored
      · rw [rows, Table.rows_add, List.append_assoc, List.singleton_append]
        rfl
      · exact List.forall_mem_cons.mpr ⟨rfl, owned⟩
      · rw [List.map_cons, List.map_cons, objects]
        rfl

/-- The views of one finding among those stored with and after it. -/
theorem filter_views_left {key : Nat} {own later : List FrameworkView}
    (mine : ∀ view ∈ own, view.findingId = key)
    (above : ∀ view ∈ later, key < view.findingId) :
    (own ++ later).filter (·.findingId == key) = own := by
  have all : own.filter (·.findingId == key) = own := by
    rw [List.filter_eq_self]
    intro view member
    simpa using mine view member
  have none : later.filter (·.findingId == key) = [] := by
    rw [List.filter_eq_nil_iff]
    intro view member
    simpa using (above view member).ne'
  rw [List.filter_append, all, none, List.append_nil]

/-- A later finding has none of its views. -/
theorem filter_views_right {key other : Nat} {own later : List FrameworkView}
    (mine : ∀ view ∈ own, view.findingId = key) (greater : key < other) :
    (own ++ later).filter (·.findingId == other) = later.filter
      (·.findingId == other) := by
  have none : own.filter (·.findingId == other) = [] := by
    rw [List.filter_eq_nil_iff]
    intro view member
    simpa [mine view member] using greater.ne
  rw [List.filter_append, none, List.nil_append]

/-- What the outer loop leaves for a later dump. -/
structure StoredObjects (encoder : Encoder) (scanId : Nat) (findings : Table FindingRow)
    (views : Table FrameworkView)
    (stored : Table FindingRow × Table FrameworkView × Nat × Nat)
    (rows : List FindingRow) (added : List FrameworkView) (objects : List JsonObject) :
    Prop where
  findingRows : stored.1.rows = findings.rows ++ rows
  owned : ∀ row ∈ rows, row.scanId = scanId
  viewRows : stored.2.1.rows = views.rows ++ added
  later : ∀ view ∈ added, findings.nextId ≤ view.findingId
  objects : (rows.map fun row =>
    findingObject encoder (added.filter (·.findingId == row.id)) row) = objects

/-- The outer loop stores dumped findings one by one, each with its views. -/
theorem storeFindings_findingObjects {times : List DateTime} {dates : List Date}
    (reads : encoder.ReadsIso py times dates) (now : Nat → DateTime) (scanId : Nat)
    (listed : List (FindingRow × List FrameworkView))
    (created : ∀ entry ∈ listed, entry.1.createdAt ∈ times)
    (due : ∀ entry ∈ listed, ∀ view ∈ entry.2, ∀ date,
      view.deadline = some date → date ∈ dates)
    (nF nV : Nat) (findings : Table FindingRow) (views : Table FrameworkView) :
    ∃ stored rows added,
      storeFindings py now scanId
        (listed.map fun entry =>
          findingObject encoder entry.2 entry.1) nF nV findings views =
          .ok stored ∧
      StoredObjects encoder scanId findings views stored rows added
        (listed.map fun entry => findingObject encoder entry.2 entry.1) := by
  induction listed generalizing nF nV findings views with
  | nil =>
      exact ⟨_, [], [], rfl, by simp, by simp, by simp, by simp, rfl⟩
  | cons entry rest inductionHypothesis =>
      obtain ⟨row, own⟩ := entry
      obtain ⟨createdHere, createdLater⟩ := List.forall_mem_cons.mp created
      obtain ⟨dueHere, dueLater⟩ := List.forall_mem_cons.mp due
      obtain ⟨after, ownRows, storedHere, afterRows, ownOwned, ownObjects⟩ :=
        storeViews_viewObjects reads findings.nextId dueHere views
      let copied : FindingRow := { row with id := 0, scanId, componentId := none }
      let first : FindingRow := { copied with id := findings.nextId }
      obtain ⟨stored, rows, laterViews, ran, effect⟩ :=
        inductionHypothesis createdLater dueLater (nF + 1) (nV + own.length)
          (findings.add copied) after
      have next : (findings.add copied).nextId = findings.nextId + 1 :=
        @Table.nextId_of_insertion _ _ findings _ first rfl rfl
      have above : ∀ view ∈ laterViews, findings.nextId < view.findingId := by
        intro view member
        have later := effect.later view member
        omega
      have greater : ∀ other ∈ rows, findings.nextId < other.id := by
        intro other member
        have firstStored : first ∈ findings.add copied :=
          List.mem_append_right _ (List.mem_singleton_self first)
        exact Table.id_lt_of_append effect.findingRows firstStored member
      refine ⟨stored, first :: rows, ownRows ++ laterViews, ?_, ?_, ?_, ?_, ?_, ?_⟩
      · rw [List.map_cons, storeFindings,
          findingRow_findingObject reads _ _ _ createdHere, listedViews_findingObject]
        change (do
          let stored ← storeViews py findings.nextId
            (own.map fun view => .object (viewObject encoder view)) views
          storeFindings py now scanId _ (nF + 1) (nV + (own.map _).length)
            (findings.add copied) stored) = _
        rw [storedHere, List.length_map]
        exact ran
      · rw [effect.findingRows, Table.rows_add, List.append_assoc, List.singleton_append]
        rfl
      · exact List.forall_mem_cons.mpr ⟨rfl, effect.owned⟩
      · rw [effect.viewRows, afterRows, List.append_assoc]
      · intro view member
        rcases List.mem_append.mp member with mine | later
        · exact (ownOwned view mine).ge
        · exact (above view later).le
      · have sameViews : (ownRows.map fun view => Json.object (viewObject encoder view)) =
            own.map fun view => Json.object (viewObject encoder view) := by
          have lifted := congrArg (List.map Json.object) ownObjects
          rw [List.map_map, List.map_map] at lifted
          exact lifted
        have head : findingObject encoder ownRows first =
            findingObject encoder own row := by
          rw [findingObject, sameViews]
          rfl
        rw [List.map_cons, filter_views_left ownOwned above, head, List.map_cons,
          ← effect.objects]
        congr 1
        apply List.map_congr_left
        intro other member
        rw [filter_views_right ownOwned (greater other member)]

/-! ## The first scan of a host -/

/-- A store that has hosts and nothing else. -/
structure OnlyEnrolled (db : Database) : Prop where
  scans : db.scans.rows = []
  findings : db.findings.rows = []
  views : db.views.rows = []

theorem OnlyEnrolled.latestDone {db : Database} (only : OnlyEnrolled db) (hostId : Nat) :
    latestDone db hostId = none := by
  simp [Repo.latestDone, scansOf, only.scans]

theorem OnlyEnrolled.fresh {db : Database} (only : OnlyEnrolled db) (scanUuid : String) :
    Fresh db scanUuid := by
  simp [Fresh, Table.mem_iff, only.scans]

/-- Nothing has drifted from no scan. -/
theorem OnlyEnrolled.bundleDrift {db : Database} (only : OnlyEnrolled db)
    (now : Nat → DateTime) (bundle : ScanBundle) (hostId : Nat) :
    bundleDrift py now db bundle hostId = .ok ([], 0) := by
  unfold Repo.bundleDrift
  simp only [getScanIdByUuid_of_fresh (only.fresh bundle.scanUuid), only.latestDone]
  simp

/-- The loaded bundle is stored, and its rows are dumped as they were. -/
theorem ingestBundle_loadedBundle {db enrolled : Database} {host : Host} {scan : Scan}
    (identity : HostIdentity) (uuid : String) (only : OnlyEnrolled enrolled)
    (stored : getHost enrolled host.id = some host)
    (terminal : ingestStatuses.contains scan.status = true)
    (reads : encoder.ReadsIso py (storedTimes db scan) (storedDates db scan))
    (now : Nat → DateTime) :
    ∃ after result copy,
      ingestBundle py now enrolled (loadedBundle encoder db scan identity uuid) host.id =
        (after, .ok result) ∧
      result.duplicate = false ∧ getScan after result.scanId = some copy ∧
      copy.scanUuid = some uuid ∧ scanObject encoder copy = scanObject encoder scan ∧
      findingObjects encoder after copy = keptObjects encoder db scan := by
  have fresh := only.fresh uuid
  have checked : duplicateCheck enrolled
      (loadedBundle encoder db scan identity uuid) host.id =
      .ok (host, none) := by
    simp [duplicateCheck, stored, only.scans]
  have made := scanRow_loadedBundle identity uuid (now 0) host.id
    terminal reads
  obtain ⟨inserted, accepted⟩ : ∃ inserted, enrolled.insertScan?
      { scan with
        id := 0
        hostFingerprint := some identity.hostname
        label := none
        hostId := some host.id
        scanUuid := some uuid } = some inserted :=
    insertScan?_of_fresh fresh (Table.get?_eq_some_iff.mp stored).1 rfl rfl
  have insertion := Database.scanInserted accepted
  have created : ∀ row ∈ agentRows db scan, row.createdAt ∈ storedTimes db scan := by
    intro row member
    have listed := (List.mem_filter.mp member).1
    exact List.mem_append_right _ (List.mem_map_of_mem listed)
  have due : ∀ row ∈ agentRows db scan, ∀ view ∈ viewsOf db row.id, ∀ date,
      view.deadline = some date → date ∈ storedDates db scan := by
    intro row member view viewMember date given
    exact List.mem_flatMap.mpr ⟨row, (List.mem_filter.mp member).1,
      List.mem_filterMap.mpr ⟨view, viewMember, given⟩⟩
  obtain ⟨⟨findings, views, nF, nV⟩, rows, added, ran, effect⟩ :=
    storeFindings_findingObjects reads now enrolled.scans.nextId
      ((agentRows db scan).map fun row => (withoutServerKeys row, viewsOf db row.id))
      (List.forall_mem_map.mpr created) (List.forall_mem_map.mpr due) 0 0
      enrolled.findings enrolled.views
  rw [List.map_map] at ran
  have kept := effect.objects
  rw [List.map_map] at kept
  have bundled : (loadedBundle encoder db scan identity uuid).findings =
      (agentRows db scan).map ((fun entry : FindingRow × List FrameworkView =>
        findingObject encoder entry.2 entry.1) ∘
          fun row => (withoutServerKeys row, viewsOf db row.id)) :=
    acceptedFindings_findingObjects db scan
  let scanId := enrolled.scans.nextId
  let copy : Scan :=
    { scan with
      id := scanId
      hostFingerprint := some identity.hostname
      label := none
      hostId := some host.id
      scanUuid := some uuid }
  let written : Database :=
    { inserted with findings := storeDrift scanId [] findings, views }
  have findingRows : findings.rows = rows := by
    simpa [only.findings] using effect.findingRows
  have viewRows : views.rows = added := by
    simpa [only.views] using effect.viewRows
  refine ⟨refreshHost (now (nF + 1)) written host identity,
    { scanId, storedFindings := nF, storedViews := nV, duplicate := false, drift := 0 },
    copy, ?_, rfl, ?_, rfl, rfl, ?_⟩
  · simp only [ingestBundle, only.bundleDrift, checked, writeBundle, made,
      accepted, bundled, ran]
    rfl
  · have member : copy ∈ inserted.scans := by
      rw [Table.mem_iff, insertion.scans]
      exact List.mem_append_right _ (List.mem_singleton_self copy)
    exact Table.get?_eq_some_iff.mpr ⟨member, rfl⟩
  · have all : findings.rows.filter (·.scanId == scanId) = rows := by
      rw [findingRows, List.filter_eq_self]
      intro row member
      simpa using effect.owned row member
    change (findings.rows.filter (·.scanId == scanId)).map (fun row =>
      findingObject encoder (views.rows.filter (·.findingId == row.id)) row) = _
    rw [all, viewRows]
    exact kept

/-- A table without rows refuses none. -/
theorem insertHost?_empty (host : Host) :
    ∃ after, Database.empty.insertHost? host = some after := by
  unfold Database.insertHost?
  split
  · next refused =>
      obtain ⟨other, member, -⟩ := Table.insert?_eq_none_iff.mp refused
      cases member
  · exact ⟨_, rfl⟩

/-- Enrolling a host in an empty store. -/
theorem upsertHost_empty (time : DateTime) (identity : HostIdentity)
    (tokenHash : Option String) :
    ∃ enrolled host, upsertHost time Database.empty identity tokenHash =
      some (enrolled, host) ∧
      OnlyEnrolled enrolled ∧ getHost enrolled host.id = some host := by
  obtain ⟨enrolled, inserted⟩ :=
    insertHost?_empty
      (upsertRow time identity tokenHash (newHost time identity.machineId))
  have success : upsertHost time Database.empty identity tokenHash = some (enrolled,
      { upsertRow time identity tokenHash (newHost time identity.machineId) with
        id := Database.empty.hosts.nextId }) := by
    unfold upsertHost
    have unknown : getHostByMachineId Database.empty identity.machineId = none := rfl
    simp only [unknown, inserted, Option.map_some]
  have effect := upserted success
  refine ⟨enrolled, _, success, ⟨?_, ?_, ?_⟩, ?_⟩
  · rw [effect.others.scans]
    rfl
  · rw [effect.others.findings]
    rfl
  · rw [effect.others.views]
    rfl
  · exact effect.writes.get?_written

/-- A bundle within the caps keeps its scan: loaded, it has the same uuid,
identity, metadata and findings, and stored in an empty store it is dumped as
the same document. -/
theorem bundle_round_trip {db : Database} {scanId : Nat} {scan : Scan}
    {identity : HostIdentity} {uuid : String} {data : Bytes}
    (found : getScan db scanId = some scan)
    (terminal : ingestStatuses.contains scan.status = true)
    (carried : scan.scanUuid = some uuid) (uuidGiven : uuid ≠ "")
    (named : identity.machineId ≠ "") (within : WithinCaps encoder db scan identity)
    (decodes : encoder.Decodes py (.object (bundleDocument encoder db scan identity)))
    (reads : encoder.ReadsIso py (storedTimes db scan) (storedDates db scan))
    (dumped : dumpBundle encoder db scanId identity = .ok data) :
    ∃ bundle, loadBundle py data = .ok bundle ∧ bundle.scanUuid = uuid ∧
      bundle.host = identity ∧ bundle.scan = scanObject encoder scan ∧
      bundle.findings = keptObjects encoder db scan ∧
      ∀ time tokenHash now, ∃ enrolled host after result copy,
        upsertHost time Database.empty identity tokenHash = some (enrolled, host) ∧
        ingestBundle py now enrolled bundle host.id = (after, .ok result) ∧
        result.duplicate = false ∧ getScan after result.scanId = some copy ∧
        bundleDocument encoder after copy identity =
          documentWith encoder scan identity (keptObjects encoder db scan) ∧
        ((∀ row ∈ rowsOf db scan.id, row.probeId ≠ driftProbe ∧
            ∀ key ∈ serverEvidenceKeys, key ∉ row.evidence.keys) →
          bundleDocument encoder after copy identity =
            bundleDocument encoder db scan identity) := by
  have loaded := (loadBundle_dumpBundle found carried named decodes dumped).mpr
    ⟨⟨uuidGiven, within⟩, rfl⟩
  refine ⟨_, loaded, rfl, rfl, rfl, acceptedFindings_findingObjects db scan, ?_⟩
  intro time tokenHash now
  obtain ⟨enrolled, host, upserted, only, stored⟩ :=
    upsertHost_empty time identity tokenHash
  obtain ⟨after, result, copy, ran, new, copied, copyUuid, metadata, objects⟩ :=
    ingestBundle_loadedBundle identity uuid only stored terminal reads now
  have same : bundleDocument encoder after copy identity =
      documentWith encoder scan identity (keptObjects encoder db scan) := by
    rw [bundleDocument, documentWith, copyUuid, metadata, objects, documentWith, carried]
  refine ⟨enrolled, host, after, result, copy, upserted, ran, new, copied, same, ?_⟩
  intro plain
  rw [same, keptObjects_eq plain]
  rfl

/-- A runtime that reads the document of the sample and its times. -/
def sampleRuntime (identity : HostIdentity) : Runtime :=
  { Runtime.ofDocuments [Document.ofJson (sampleDocument identity)] with
    datetimeFromIso := fun text =>
      (storedTimes dumpSample dumpedScan).find? fun time => isoDateTime time == text
    dateFromIso := fun text =>
      (storedDates dumpSample dumpedScan).find? fun date => isoDate date == text }

theorem bundle_round_trip_sample :
    let identity := labelledHost "env" "prod"
    ∃ bundle, loadBundle (sampleRuntime identity)
        (Encoder.stored.compress (jsonBytes (sampleDocument identity))) = .ok bundle ∧
      bundle.scanUuid = "u1" ∧ bundle.host = identity ∧
      bundle.scan = scanObject Encoder.stored dumpedScan ∧
      bundle.findings = keptObjects Encoder.stored dumpSample dumpedScan ∧
      ∀ time tokenHash now, ∃ enrolled host after result copy,
        upsertHost time Database.empty identity tokenHash = some (enrolled, host) ∧
        ingestBundle (sampleRuntime identity) now enrolled bundle host.id =
          (after, .ok result) ∧
        result.duplicate = false ∧ getScan after result.scanId = some copy ∧
        bundleDocument Encoder.stored after copy identity =
          documentWith Encoder.stored dumpedScan identity
            (keptObjects Encoder.stored dumpSample dumpedScan) ∧
        ((∀ row ∈ rowsOf dumpSample dumpedScan.id, row.probeId ≠ driftProbe ∧
            ∀ key ∈ serverEvidenceKeys, key ∉ row.evidence.keys) →
          bundleDocument Encoder.stored after copy identity =
            bundleDocument Encoder.stored dumpSample dumpedScan identity) := by
  intro identity
  have decodes : Encoder.stored.Decodes (sampleRuntime identity)
      (sampleDocument identity) :=
    (Encoder.stored_decodes (sampleDocument identity)).congr rfl rfl
  have reads : Encoder.stored.ReadsIso (sampleRuntime identity)
      (storedTimes dumpSample dumpedScan) (storedDates dumpSample dumpedScan) := by
    constructor <;> decide
  have dumped := dumpable_sample identity (by decide +kernel)
  exact @bundle_round_trip Encoder.stored (sampleRuntime identity) dumpSample 1 dumpedScan
    identity "u1" _ rfl (by decide) rfl (by decide)
      (by decide) withinCaps_sample decodes reads
    dumped

end Store
end PqcScan
