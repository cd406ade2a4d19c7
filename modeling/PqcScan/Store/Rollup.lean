import PqcScan.Library.Pairing
import PqcScan.Store.LatestView
import Mathlib.Data.List.Zip

/-!
# The fleet rollup

`materialize_fleet_rollup` copies the findings of the latest done scan of every
host, and their views, into one temporary scan.  The copies are exact, nothing
else changes, and `delete_scan` removes every trace of them.
-/

namespace PqcScan
namespace Store
namespace Repo

open Library Python PqcScan.Core

/-! ## The model -/

/-- `evidence['_fleet']`. -/
def attribution (host : Host) : Json :=
  .object [("host", .str host.hostname), ("host_id", .int host.id),
    ("machine_id", .str host.machineId)]

/-- The copy of a finding. -/
def copyFinding (rollId : Nat) (host : Host) (row : FindingRow) : FindingRow where
  id := 0
  scanId := rollId
  componentId := none
  probeId := row.probeId
  algorithm := row.algorithm
  classification := row.classification
  severity := row.severity
  title := row.title
  evidence := row.evidence.set "_fleet" (attribution host)
  remediation := row.remediation
  createdAt := row.createdAt

/-- The copy of a view, under the copy of its finding. -/
def copyView (findingId : Nat) (view : FrameworkView) : FrameworkView where
  id := 0
  findingId := findingId
  framework := view.framework
  clause := view.clause
  verdict := view.verdict
  deadline := view.deadline

/-- The findings of a scan, drift apart. -/
def ownFindings (findings : Table FindingRow) (scanId : Nat) : List FindingRow :=
  findings.rows.filter fun row => row.scanId == scanId && row.probeId != driftProbe

/-- Look up `new_id` for every view. -/
def linkViews (newId : Dict Nat Nat) :
    List FrameworkView → Except PyError (List FrameworkView)
  | [] => .ok []
  | view :: rest =>
      match newId.get? view.findingId with
      | none => .error (.keyError s!"{view.findingId}")
      | some findingId => (linkViews newId rest).map (copyView findingId view :: ·)

/-- The copies of one host's findings and views. -/
def rollupHost (rollId : Nat) (tables : Table FindingRow × Table FrameworkView)
    (latest : Host × Nat) : Except PyError (Table FindingRow × Table FrameworkView) :=
  let (findings, views) := tables
  let (host, scanId) := latest
  let src := ownFindings findings scanId
  let stored := findings.addAll (src.map (copyFinding rollId host))
  let new := stored.rows.drop findings.rows.length
  let newId := Dict.ofList ((src.map FindingRow.id).zip (new.map FindingRow.id))
  let joined := views.rows.filter fun view =>
    (ownFindings stored scanId).any (·.id == view.findingId)
  (linkViews newId joined).map fun linked => (stored, views.addAll linked)

/-- The row of the temporary scan. -/
def rollupRow (started finished : DateTime) (scanUuid : String) (hosts : Nat) : Scan where
  id := 0
  startedAt := started
  finishedAt := some finished
  hostFingerprint := some "fleet"
  mode := "user"
  status := "done"
  label := some fleetRollupLabel
  probeVersions := Dict.empty
  toolVersions := Dict.ofList [("hosts", .int hosts), ("temporary", .bool true)]
  hostId := none
  scanUuid := some scanUuid

/-- The hosts that have a done scan, each with the latest one. -/
def latestPairs (lower : String → String) (db : Database) : List (Host × Nat) :=
  (fleetSummary lower db).filterMap fun summary =>
    summary.scanId.map fun scanId => (summary.host, scanId)

/-- `materialize_fleet_rollup`, with the uuid it draws. -/
def materializeFleetRollup (lower : String → String) (started finished : DateTime)
    (scanUuid : String) (db : Database) :
    Except WriteError (Option (Database × Nat)) :=
  let summary := latestPairs lower db
  if summary = [] then .ok none
  else
    match db.insertScan? (rollupRow started finished scanUuid summary.length) with
    | none => .error .integrity
    | some inserted =>
        match summary.foldlM (rollupHost db.scans.nextId)
            (inserted.findings, inserted.views) with
        | .error error => .error (.python error)
        | .ok (findings, views) =>
            .ok (some ({ inserted with findings, views }, db.scans.nextId))

/-! ## References -/

/-- The foreign keys of the schema hold, and no finding refers to a component. -/
structure Consistent (db : Database) : Prop where
  findings : ∀ row ∈ db.findings, ∃ scan ∈ db.scans, scan.id = row.scanId
  views : ∀ view ∈ db.views, ∃ row ∈ db.findings, row.id = view.findingId
  baselines : ∀ row ∈ db.baselines, ∃ scan ∈ db.scans, scan.id = row.scanId
  components : ∀ row ∈ db.components, ∃ scan ∈ db.scans, scan.id = row.scanId
  edges : ∀ row ∈ db.edges, ∃ scan ∈ db.scans, scan.id = row.scanId
  unlinked : ∀ row ∈ db.findings, row.componentId = none

/-- Without references there is nothing to resolve. -/
theorem consistent_of_hosts {db : Database} (findings : db.findings.rows = [])
    (views : db.views.rows = []) (baselines : db.baselines.rows = [])
    (components : db.components.rows = []) (edges : db.edges.rows = []) :
    Consistent db := by
  constructor <;> intro row member <;> rw [Table.mem_iff] at member
  · rw [findings] at member
    cases member
  · rw [views] at member
    cases member
  · rw [baselines] at member
    cases member
  · rw [components] at member
    cases member
  · rw [edges] at member
    cases member
  · rw [findings] at member
    cases member

/-- Deletion takes every row that refers to the scan. -/
theorem consistent_deleteScan {db : Database} (consistent : Consistent db)
    (scanId : Nat) :
    Consistent (deleteScan db scanId) := by
  have kept : ∀ {owner : Nat}, owner ≠ scanId →
      (∃ scan ∈ db.scans, scan.id = owner) →
      ∃ scan ∈ (deleteScan db scanId).scans, scan.id = owner := by
    rintro owner different ⟨scan, member, rfl⟩
    exact ⟨scan, Table.mem_filter.mpr ⟨member, by simpa using different⟩, rfl⟩
  constructor
  · intro row member
    obtain ⟨stored, different⟩ := Table.mem_filter.mp member
    exact kept (by simpa using different) (consistent.findings row stored)
  · intro view member
    obtain ⟨stored, spared⟩ := Table.mem_filter.mp member
    obtain ⟨row, rowStored, same⟩ := consistent.views view stored
    refine ⟨row, Table.mem_filter.mpr ⟨rowStored, ?_⟩, same⟩
    by_contra doomed
    have owned : row.scanId = scanId := by simpa using doomed
    have listed : view.findingId ∈
        (db.findings.rows.filter (·.scanId == scanId)).map FindingRow.id :=
      List.mem_map.mpr ⟨row, List.mem_filter.mpr ⟨rowStored, by simpa using owned⟩, same⟩
    simp [listed] at spared
  · intro row member
    obtain ⟨stored, different⟩ := Table.mem_filter.mp member
    exact kept (by simpa using different) (consistent.baselines row stored)
  · intro row member
    obtain ⟨stored, different⟩ := Table.mem_filter.mp member
    exact kept (by simpa using different) (consistent.components row stored)
  · intro row member
    obtain ⟨stored, different⟩ := Table.mem_filter.mp member
    exact kept (by simpa using different) (consistent.edges row stored)
  · intro row member
    exact consistent.unlinked row (Table.mem_filter.mp member).1

/-- A baseline refers to a stored scan. -/
theorem consistent_createBaseline {now : DateTime} {db after : Database}
    {scanId baselineId : Nat} {label : String} {notes : Option String}
    (consistent : Consistent db)
    (created : createBaseline now db scanId label notes = .ok (after, baselineId)) :
    Consistent after := by
  unfold createBaseline at created
  split at created
  · cases created
  · next scan found =>
      cases created
      obtain ⟨stored, same⟩ := Table.get?_eq_some_iff.mp found
      refine ⟨consistent.findings, consistent.views, ?_, consistent.components,
        consistent.edges, consistent.unlinked⟩
      intro row member
      rw [Table.mem_iff, Table.rows_add, List.mem_append, List.mem_singleton] at member
      rcases member with old | rfl
      · exact consistent.baselines row old
      · exact ⟨scan, stored, same⟩

/-- An ingest touches no component and no edge. -/
theorem ingestBundle_graph (py : Runtime) (now : Nat → DateTime) (db : Database)
    (bundle : ScanBundle) (hostId : Nat) :
    (ingestBundle py now db bundle hostId).1.components = db.components ∧
      (ingestBundle py now db bundle hostId).1.edges = db.edges := by
  unfold ingestBundle
  split
  · exact ⟨rfl, rfl⟩
  split
  · exact ⟨rfl, rfl⟩
  · exact ⟨rfl, rfl⟩
  split
  · exact ⟨rfl, rfl⟩
  next wrote =>
  unfold writeBundle at wrote
  split at wrote
  · cases wrote
  split at wrote
  · cases wrote
  next accepted =>
  dsimp only at wrote
  split at wrote
  · cases wrote
  cases wrote
  obtain ⟨components, edges⟩ := Database.insertScan?_graph accepted
  exact ⟨components, edges⟩

theorem mem_viewTargets {findings : List JsonObject} {rows : List FindingRow}
    {target : Nat × Json} (member : target ∈ viewTargets findings rows) :
    ∃ row ∈ rows, target.1 = row.id := by
  induction findings generalizing rows with
  | nil => cases member
  | cons finding findings inductionHypothesis =>
      cases rows with
      | nil => cases member
      | cons row rows =>
          rw [viewTargets, List.zipWith_cons_cons, List.flatten_cons,
            List.mem_append] at member
          rcases member with here | later
          · obtain ⟨view, _, rfl⟩ := List.mem_map.mp here
            exact ⟨row, List.mem_cons_self, rfl⟩
          · obtain ⟨other, otherMember, same⟩ := inductionHypothesis later
            exact ⟨other, List.mem_cons_of_mem _ otherMember, same⟩

/-- An ingest adds findings of its scan and views of its findings. -/
theorem consistent_ingestBundle {db : Database} (consistent : Consistent db)
    (py : Runtime) (now : Nat → DateTime) (bundle : ScanBundle) (hostId : Nat) :
    Consistent (ingestBundle py now db bundle hostId).1 := by
  obtain ⟨components, edges⟩ := ingestBundle_graph py now db bundle hostId
  rcases ingestBundle_cases (Prod.mk.eta.symm : ingestBundle py now db bundle hostId = _)
    with ⟨same, _⟩ | ⟨same, _⟩ |
      ⟨_, _, _, _, _, _, scan, agentRows, driftRows, newViews, _, written, _⟩
  · rwa [same]
  · rwa [same]
  · have scanStored : scan ∈ (ingestBundle py now db bundle hostId).1.scans := by
      rw [Table.mem_iff, written.scans]
      exact List.mem_append_right _ (List.mem_singleton_self scan)
    have kept : ∀ {scanId : Nat}, (∃ old ∈ db.scans, old.id = scanId) →
        ∃ old ∈ (ingestBundle py now db bundle hostId).1.scans, old.id = scanId := by
      rintro scanId ⟨old, stored, same⟩
      refine ⟨old, ?_, same⟩
      rw [Table.mem_iff, written.scans]
      exact List.mem_append_left _ stored
    have newRows : ∀ row ∈ agentRows ++ driftRows,
        row.scanId = scan.id ∧ row.componentId = none := by
      intro row member
      rcases List.mem_append.mp member with agent | derived
      · obtain ⟨finding, _, created, fresh, made, same⟩ := exists_left written.agent agent
        simp only [findingRow, bind_eq_ok, Except.ok.injEq] at made
        obtain ⟨_, _, _, _, _, _, rfl⟩ := made
        rw [same]
        exact ⟨rfl, rfl⟩
      · obtain ⟨finding, _, same⟩ := exists_left written.derived derived
        rw [CarriesDrift] at same
        rw [same]
        exact ⟨rfl, rfl⟩
    constructor
    · intro row member
      rw [Table.mem_iff, written.findings, List.mem_append] at member
      rcases member with old | new
      · exact kept (consistent.findings row old)
      · exact ⟨scan, scanStored, (newRows row new).1.symm⟩
    · intro view member
      rw [Table.mem_iff, written.views, List.mem_append] at member
      rcases member with old | new
      · obtain ⟨row, stored, same⟩ := consistent.views view old
        refine ⟨row, ?_, same⟩
        rw [Table.mem_iff, written.findings]
        exact List.mem_append_left _ stored
      · obtain ⟨target, targeted, fresh, made, same⟩ := exists_left written.targets new
        simp only [viewRow, bind_eq_ok, Except.ok.injEq] at made
        obtain ⟨_, _, _, _, _, _, _, _, rfl⟩ := made
        obtain ⟨row, rowMember, owned⟩ := mem_viewTargets targeted
        refine ⟨row, ?_, by rw [same, owned]⟩
        rw [Table.mem_iff, written.findings]
        exact List.mem_append_right _ (List.mem_append_left _ rowMember)
    · intro row member
      rw [written.baselines] at member
      exact kept (consistent.baselines row member)
    · intro row member
      rw [components] at member
      exact kept (consistent.components row member)
    · intro row member
      rw [edges] at member
      exact kept (consistent.edges row member)
    · intro row member
      rw [Table.mem_iff, written.findings, List.mem_append] at member
      rcases member with old | new
      · exact consistent.unlinked row old
      · exact (newRows row new).2

/-! ## The copies -/

/-- What a view says of its finding. -/
abbrev Verdict := String × String × String × Option Date

/-- What a view says. -/
def viewContent (view : FrameworkView) : Verdict :=
  (view.framework, view.clause, view.verdict, view.deadline)

/-- What the listed views say of one finding. -/
def verdictsOn (views : List FrameworkView) (findingId : Nat) : List Verdict :=
  (views.filter (·.findingId == findingId)).map viewContent

/-- The findings to copy, each with its host. -/
def sourcesOf (findings : Table FindingRow) (pairs : List (Host × Nat)) :
    List (Host × FindingRow) :=
  pairs.flatMap fun pair => (ownFindings findings pair.2).map (pair.1, ·)

/-- The copy has the fields of its source, with the attribution of the host. -/
def CopyOf (rollId : Nat) (source : Host × FindingRow) (copy : FindingRow) : Prop :=
  copy = { copyFinding rollId source.1 source.2 with id := copy.id }

/-- The tables after some hosts have been rolled up. -/
structure RolledUp (rollId : Nat) (before : Table FindingRow × Table FrameworkView)
    (sources : List (Host × FindingRow)) (after : Table FindingRow × Table FrameworkView)
    (copies : List FindingRow) (linked : List FrameworkView) : Prop where
  findings : after.1.rows = before.1.rows ++ copies
  copied : List.Forall₂ (CopyOf rollId) sources copies
  views : after.2.rows = before.2.rows ++ linked
  targets : ∀ view ∈ linked, ∃ copy ∈ copies, view.findingId = copy.id
  verdicts : ∀ pair ∈ sources.zip copies,
    verdictsOn linked pair.2.id = verdictsOn before.2.rows pair.1.2.id

theorem linkViews_ok {newId : Dict Nat Nat} {views : List FrameworkView}
    {target : Nat → Nat}
    (known : ∀ view ∈ views, newId.get? view.findingId = some (target view.findingId)) :
    linkViews newId views =
      .ok (views.map fun view => copyView (target view.findingId) view) := by
  induction views with
  | nil => rfl
  | cons view rest inductionHypothesis =>
      rw [linkViews, known view List.mem_cons_self,
        inductionHypothesis fun other member =>
          known other (List.mem_cons_of_mem _ member)]
      rfl

/-- No copy is among the findings of another scan. -/
theorem ownFindings_append {findings after : Table FindingRow} {new : List FindingRow}
    {rollId scanId : Nat} (rows : after.rows = findings.rows ++ new)
    (copies : ∀ row ∈ new, row.scanId = rollId) (different : scanId ≠ rollId) :
    ownFindings after scanId = ownFindings findings scanId := by
  have none : new.filter (fun row => row.scanId == scanId && row.probeId != driftProbe) =
      [] := by
    rw [List.filter_eq_nil_iff]
    intro row member
    simp [copies row member, different.symm]
  rw [ownFindings, ownFindings, rows, List.filter_append, none, List.append_nil]

theorem mem_copies_scanId {rollId : Nat} {sources : List (Host × FindingRow)}
    {copies : List FindingRow} (copied : List.Forall₂ (CopyOf rollId) sources copies)
    {copy : FindingRow} (member : copy ∈ copies) : copy.scanId = rollId := by
  obtain ⟨source, _, same⟩ := exists_left copied member
  rw [same]
  rfl

/-- The verdicts on a finding do not depend on the ids of the views. -/
theorem verdictsOn_of_storedAs {given stored : List FrameworkView}
    (same : List.Forall₂ Table.StoredAs given stored) (findingId : Nat) :
    verdictsOn stored findingId = verdictsOn given findingId := by
  let read (view : FrameworkView) : Nat × Verdict := (view.findingId, viewContent view)
  have reads : stored.map read = given.map read :=
    Table.map_eq_of_storedAs (fun _ _ => rfl) same
  have asPairs : ∀ views : List FrameworkView, verdictsOn views findingId =
      ((views.map read).filter (·.1 == findingId)).map Prod.snd := by
    intro views
    rw [verdictsOn, List.filter_map, List.map_map]
    rfl
  rw [asPairs, asPairs, reads]

/-- The id map links the views of each finding to the finding with the same place
in the other list. -/
theorem linkViews_exact {srcIds newIds : List Nat}
    (sameLength : srcIds.length = newIds.length)
    (srcDistinct : srcIds.Nodup) (newDistinct : newIds.Nodup)
    (views : List FrameworkView) :
    ∃ given, linkViews (Dict.ofList (srcIds.zip newIds))
        (views.filter fun view => srcIds.contains view.findingId) = .ok given ∧
      (∀ view ∈ given, view.findingId ∈ newIds) ∧
      ∀ pair ∈ srcIds.zip newIds, verdictsOn given pair.2 = verdictsOn views pair.1 := by
  have keys : ((srcIds.zip newIds).map Prod.fst).Nodup := by
    rwa [List.map_fst_zip sameLength.le]
  have values : ((newIds.zip srcIds).map Prod.fst).Nodup := by
    rwa [List.map_fst_zip sameLength.ge]
  have forward : ∀ pair ∈ srcIds.zip newIds,
      (Dict.ofList (srcIds.zip newIds)).get? pair.1 = some pair.2 :=
    fun pair => Dict.get?_ofList_of_mem keys
  have backward : ∀ pair ∈ srcIds.zip newIds,
      (Dict.ofList (newIds.zip srcIds)).get? pair.2 = some pair.1 := by
    intro pair member
    have swapped : pair.swap ∈ newIds.zip srcIds := by
      rw [← List.zip_swap]
      exact List.mem_map_of_mem member
    exact Dict.get?_ofList_of_mem values swapped
  have partner : ∀ srcId ∈ srcIds, ∃ newId, (srcId, newId) ∈ srcIds.zip newIds := by
    intro srcId member
    rw [← List.map_fst_zip sameLength.le, List.mem_map] at member
    obtain ⟨⟨_, newId⟩, paired, rfl⟩ := member
    exact ⟨newId, paired⟩
  let target (srcId : Nat) := ((Dict.ofList (srcIds.zip newIds)).get? srcId).getD 0
  have targets : ∀ pair ∈ srcIds.zip newIds, target pair.1 = pair.2 := by
    intro pair member
    simp only [target, forward pair member, Option.getD_some]
  have linked : ∀ view ∈ views.filter fun view => srcIds.contains view.findingId,
      (Dict.ofList (srcIds.zip newIds)).get? view.findingId =
        some (target view.findingId) := by
    intro view member
    rw [List.mem_filter, List.contains_iff_mem] at member
    obtain ⟨newId, paired⟩ := partner _ member.2
    rw [targets _ paired]
    exact forward _ paired
  refine ⟨_, linkViews_ok linked, ?_, ?_⟩
  · intro view member
    obtain ⟨source, sourceMember, rfl⟩ := List.mem_map.mp member
    rw [List.mem_filter, List.contains_iff_mem] at sourceMember
    obtain ⟨newId, paired⟩ := partner _ sourceMember.2
    change target source.findingId ∈ newIds
    rw [targets _ paired]
    exact (List.of_mem_zip paired).2
  · rintro ⟨srcId, newId⟩ paired
    have known : srcId ∈ srcIds := (List.of_mem_zip paired).1
    rw [verdictsOn, verdictsOn, List.filter_map, List.map_map, List.filter_filter]
    congr 1
    apply List.filter_congr
    intro view _
    by_cases here : view.findingId = srcId
    · have reached : target srcId = newId := targets _ paired
      simp [here, known, copyView, reached]
    · by_cases listed : view.findingId ∈ srcIds
      · obtain ⟨other, otherPaired⟩ := partner _ listed
        have different : other ≠ newId := by
          rintro rfl
          have left := backward _ otherPaired
          rw [backward _ paired] at left
          exact here (Option.some_inj.mp left).symm
        have reached : target view.findingId = other := targets _ otherPaired
        have apart : (other == newId) = (view.findingId == srcId) := by
          simp [here, different]
        simpa [copyView, reached, listed] using apart
      · simp [here, listed]

theorem verdictsOn_append (left right : List FrameworkView) (findingId : Nat) :
    verdictsOn (left ++ right) findingId =
      verdictsOn left findingId ++ verdictsOn right findingId := by
  rw [verdictsOn, List.filter_append, List.map_append]
  rfl

theorem verdictsOn_eq_nil (views : List FrameworkView) {findingId : Nat}
    (absent : ∀ view ∈ views, view.findingId ≠ findingId) :
    verdictsOn views findingId = [] := by
  rw [verdictsOn, List.filter_eq_nil_iff.mpr, List.map_nil]
  intro view member
  simpa using absent view member

theorem nodup_ids (findings : Table FindingRow) {rows : List FindingRow}
    (sub : rows.Sublist findings.rows) : (rows.map FindingRow.id).Nodup :=
  List.pairwise_map.mpr ((findings.ascending.sublist sub).imp fun below => below.ne)

namespace RolledUp

variable {rollId : Nat} {before after : Table FindingRow × Table FrameworkView}
  {sources : List (Host × FindingRow)} {copies : List FindingRow}
  {linked : List FrameworkView}

theorem start (before : Table FindingRow × Table FrameworkView) :
    RolledUp rollId before [] before [] [] :=
  ⟨by simp, .nil, by simp, by simp, by simp⟩

/-- Rolling up one more host. -/
theorem step (rolled : RolledUp rollId before sources after copies linked) (host : Host)
    {scanId : Nat} (different : scanId ≠ rollId) :
    ∃ next newCopies newLinked, rollupHost rollId after (host, scanId) = .ok next ∧
      RolledUp rollId before
        (sources ++ (ownFindings before.1 scanId).map (host, ·)) next
        (copies ++ newCopies) (linked ++ newLinked) := by
  have srcEq : ownFindings after.1 scanId = ownFindings before.1 scanId :=
    ownFindings_append rolled.findings
      (fun row member => mem_copies_scanId rolled.copied member) different
  obtain ⟨new, added⟩ := Table.addAll_addedRows after.1
    ((ownFindings before.1 scanId).map (copyFinding rollId host))
  have copied : List.Forall₂ (CopyOf rollId) ((ownFindings before.1 scanId).map (host, ·))
      new := by
    have stored := added.stored
    rw [List.forall₂_map_left_iff] at stored ⊢
    exact stored
  have storedEq : ownFindings (after.1.addAll ((ownFindings before.1 scanId).map
      (copyFinding rollId host))) scanId = ownFindings before.1 scanId := by
    rw [ownFindings_append added.rows (fun row member => mem_copies_scanId copied member)
      different, srcEq]
  have srcDistinct : ((ownFindings before.1 scanId).map FindingRow.id).Nodup :=
    nodup_ids before.1 List.filter_sublist
  have newDistinct : (new.map FindingRow.id).Nodup := by
    apply nodup_ids (after.1.addAll ((ownFindings before.1 scanId).map
      (copyFinding rollId host)))
    rw [added.rows]
    exact List.sublist_append_right _ _
  have sameLength : ((ownFindings before.1 scanId).map FindingRow.id).length =
      (new.map FindingRow.id).length := by
    simpa using copied.length_eq
  -- The views join the findings of the scan only: no copy has one of their ids.
  have joined : (after.2.rows.filter fun view =>
      (ownFindings (after.1.addAll ((ownFindings before.1 scanId).map
        (copyFinding rollId host))) scanId).any (·.id == view.findingId)) =
      before.2.rows.filter fun view =>
        ((ownFindings before.1 scanId).map FindingRow.id).contains view.findingId := by
    have listed : ∀ view : FrameworkView,
        (ownFindings before.1 scanId).any (·.id == view.findingId) =
          ((ownFindings before.1 scanId).map FindingRow.id).contains view.findingId := by
      intro view
      rw [Bool.eq_iff_iff, List.any_eq_true, List.contains_iff_mem, List.mem_map]
      simp only [beq_iff_eq]
    have nothing : linked.filter (fun view =>
        ((ownFindings before.1 scanId).map FindingRow.id).contains view.findingId) =
          [] := by
      rw [List.filter_eq_nil_iff]
      intro view member
      obtain ⟨copy, copyMember, target⟩ := rolled.targets view member
      rw [List.contains_iff_mem, List.mem_map]
      rintro ⟨row, rowMember, same⟩
      have below : row.id < copy.id := Table.id_lt_of_append rolled.findings
        (Table.mem_iff.mpr (List.mem_of_mem_filter rowMember)) copyMember
      omega
    rw [storedEq, rolled.views, List.filter_append]
    simp only [listed]
    rw [nothing, List.append_nil]
  obtain ⟨given, linkedOk, onNew, exact⟩ := linkViews_exact sameLength srcDistinct
    newDistinct before.2.rows
  obtain ⟨newLinked, addedViews⟩ := Table.addAll_addedRows after.2 given
  have dropped : (after.1.addAll ((ownFindings before.1 scanId).map
      (copyFinding rollId host))).rows.drop after.1.rows.length = new := by
    rw [added.rows, List.drop_left]
  have newTargets : ∀ view ∈ newLinked, ∃ copy ∈ new, view.findingId = copy.id := by
    intro view member
    obtain ⟨source, sourceMember, same⟩ := exists_left addedViews.stored member
    obtain ⟨copy, copyMember, target⟩ := List.mem_map.mp (onNew source sourceMember)
    refine ⟨copy, copyMember, ?_⟩
    rw [target, same]
    rfl
  refine ⟨(after.1.addAll ((ownFindings before.1 scanId).map (copyFinding rollId host)),
    after.2.addAll given), new, newLinked, ?_, ?_⟩
  · unfold rollupHost
    dsimp only
    rw [srcEq, dropped, joined, linkedOk]
    rfl
  · constructor
    · rw [added.rows, rolled.findings, List.append_assoc]
    · exact List.rel_append rolled.copied copied
    · rw [addedViews.rows, rolled.views, List.append_assoc]
    · intro view member
      rcases List.mem_append.mp member with old | fresh
      · obtain ⟨copy, copyMember, target⟩ := rolled.targets view old
        exact ⟨copy, List.mem_append_left _ copyMember, target⟩
      · obtain ⟨copy, copyMember, target⟩ := newTargets view fresh
        exact ⟨copy, List.mem_append_right _ copyMember, target⟩
    · have apart : ∀ old ∈ copies, ∀ fresh ∈ new, old.id < fresh.id := by
        intro old oldMember fresh freshMember
        have stored : old ∈ after.1 := by
          rw [Table.mem_iff, rolled.findings]
          exact List.mem_append_right _ oldMember
        exact Table.id_lt_of_append added.rows stored freshMember
      rw [List.zip_append rolled.copied.length_eq]
      rintro ⟨source, copy⟩ member
      rw [verdictsOn_append]
      rcases List.mem_append.mp member with old | fresh
      · rw [verdictsOn_eq_nil newLinked, List.append_nil]
        · exact rolled.verdicts _ old
        · intro view viewMember
          obtain ⟨target, targetMember, same⟩ := newTargets view viewMember
          have below := apart copy (List.of_mem_zip old).2 target targetMember
          change view.findingId ≠ copy.id
          omega
      · rw [verdictsOn_eq_nil linked, List.nil_append,
          verdictsOn_of_storedAs addedViews.stored]
        · rw [List.zip_map_left, List.mem_map] at fresh
          obtain ⟨⟨row, partner⟩, paired, same⟩ := fresh
          obtain ⟨rfl, rfl⟩ := Prod.mk.inj same
          apply exact (row.id, partner.id)
          rw [List.zip_map]
          exact List.mem_map_of_mem paired
        · intro view viewMember
          obtain ⟨target, targetMember, same⟩ := rolled.targets view viewMember
          have below := apart target targetMember copy (List.of_mem_zip fresh).2
          change view.findingId ≠ copy.id
          omega

/-- Rolling up several hosts. -/
theorem loop (rolled : RolledUp rollId before sources after copies linked)
    {pairs : List (Host × Nat)} (others : ∀ pair ∈ pairs, pair.2 ≠ rollId) :
    ∃ finish allCopies allLinked, pairs.foldlM (rollupHost rollId) after = .ok finish ∧
      RolledUp rollId before (sources ++ sourcesOf before.1 pairs) finish allCopies
        allLinked := by
  induction pairs generalizing sources after copies linked with
  | nil => exact ⟨after, copies, linked, rfl, by simpa [sourcesOf] using rolled⟩
  | cons pair rest inductionHypothesis =>
      obtain ⟨next, newCopies, newLinked, stepOk, stepped⟩ :=
        rolled.step pair.1 (others pair List.mem_cons_self)
      obtain ⟨finish, allCopies, allLinked, finished, whole⟩ :=
        inductionHypothesis stepped fun other member =>
          others other (List.mem_cons_of_mem _ member)
      refine ⟨finish, allCopies, allLinked, ?_, ?_⟩
      · rw [List.foldlM_cons, stepOk]
        exact finished
      · rw [List.append_assoc] at whole
        exact whole

end RolledUp

/-! ## The hosts that are rolled up -/

theorem latestPairs_eq (lower : String → String) (db : Database) :
    latestPairs lower db = (hostsByName db).filterMap fun host =>
      (latestDone db host.id).map fun scan => (host, scan.id) := by
  rw [latestPairs, fleetSummary, List.filterMap_map]
  congr 1
  funext host
  simp only [Function.comp_apply, get?_latestScans]
  cases latestDone db host.id <;> rfl

theorem mem_latestPairs {lower : String → String} {db : Database} {host : Host}
    {scanId : Nat} :
    (host, scanId) ∈ latestPairs lower db ↔
      host ∈ db.hosts ∧ ∃ scan, latestDone db host.id = some scan ∧ scan.id = scanId := by
  rw [latestPairs_eq, List.mem_filterMap]
  constructor
  · rintro ⟨other, member, same⟩
    obtain ⟨scan, latest, paired⟩ := Option.map_eq_some_iff.mp same
    obtain ⟨rfl, rfl⟩ := Prod.mk.inj paired
    exact ⟨(List.mem_insertionSort _).mp member, scan, latest, rfl⟩
  · rintro ⟨member, scan, latest, rfl⟩
    exact ⟨host, (List.mem_insertionSort _).mpr member, by rw [latest]; rfl⟩

theorem mem_ownFindings {db : Database} {scanId : Nat} {row : FindingRow} :
    row ∈ ownFindings db.findings scanId ↔
      row ∈ db.findings ∧ isDrift row = false ∧ row.scanId = scanId := by
  rw [ownFindings, List.mem_filter, Table.mem_iff, isDrift]
  simp [and_comm]

/-- The sources are the findings of the newest done scans, drift apart. -/
theorem mem_sourcesOf {lower : String → String} {db : Database} {host : Host}
    {row : FindingRow} :
    (host, row) ∈ sourcesOf db.findings (latestPairs lower db) ↔
      host ∈ db.hosts ∧ row ∈ db.findings ∧ isDrift row = false ∧
        ∃ scan, NewestDone db host scan ∧ row.scanId = scan.id := by
  rw [sourcesOf, List.mem_flatMap]
  constructor
  · rintro ⟨⟨other, scanId⟩, paired, listed⟩
    obtain ⟨source, own, same⟩ := List.mem_map.mp listed
    obtain ⟨rfl, rfl⟩ := Prod.mk.inj same
    obtain ⟨member, scan, latest, rfl⟩ := mem_latestPairs.mp paired
    obtain ⟨stored, kept, owned⟩ := mem_ownFindings.mp own
    exact ⟨member, stored, kept, scan, newestDone_iff.mpr latest, owned⟩
  · rintro ⟨member, stored, kept, scan, newest, owned⟩
    refine ⟨(host, scan.id), mem_latestPairs.mpr
      ⟨member, scan, newestDone_iff.mp newest, rfl⟩, ?_⟩
    exact List.mem_map.mpr ⟨row, mem_ownFindings.mpr ⟨stored, kept, owned⟩, rfl⟩

theorem nodup_sourcesOf (lower : String → String) (db : Database) :
    (sourcesOf db.findings (latestPairs lower db)).Nodup := by
  have hosts : (hostsByName db).Nodup := by
    apply (List.perm_insertionSort _ db.hosts.rows).nodup_iff.mpr
    exact db.hosts.ascending.imp fun below equal => by
      rw [equal] at below
      exact Nat.lt_irrefl _ below
  rw [sourcesOf, List.nodup_flatMap]
  constructor
  · intro pair _
    apply List.Nodup.map fun _ _ equal => (Prod.mk.inj equal).2
    exact (db.findings.ascending.imp fun below equal => by
      rw [equal] at below
      exact Nat.lt_irrefl _ below).filter _
  · rw [latestPairs_eq, List.pairwise_filterMap]
    apply hosts.imp
    intro left right different leftPair leftEq rightPair rightEq
    obtain ⟨_, _, rfl⟩ := Option.map_eq_some_iff.mp leftEq
    obtain ⟨_, _, rfl⟩ := Option.map_eq_some_iff.mp rightEq
    intro source leftMember rightMember
    obtain ⟨_, _, rfl⟩ := List.mem_map.mp leftMember
    obtain ⟨_, _, same⟩ := List.mem_map.mp rightMember
    exact different (Prod.mk.inj same).1.symm

/-- The total of a summary is the number of findings a rollup copies. -/
theorem total_eq_length (lower : String → String) {db : Database} {host : Host}
    {scan : Scan} (latest : latestDone db host.id = some scan) :
    (((fleetTally lower db).get? scan.id).getD emptyBandCounts) .total =
      (ownFindings db.findings scan.id).length := by
  obtain ⟨member, owned, _⟩ := latestDone_mem latest
  rw [fleetTally_eq ((mem_latestIds member owned).mpr latest), ← walked,
    walked_listFindings, walked_apply, findingsOf, List.countP_map, ownFindings,
    List.countP_filter, List.countP_eq_length_filter]
  congr 1
  exact List.filter_congr fun row _ => Bool.and_comm _ _

theorem length_sourcesOf (lower : String → String) (db : Database) :
    (sourcesOf db.findings (latestPairs lower db)).length =
      ((fleetSummary lower db).map HostSummary.total).sum := by
  rw [latestPairs_eq, fleetSummary]
  induction hostsByName db with
  | nil => rfl
  | cons host rest inductionHypothesis =>
      rw [List.map_cons, List.map_cons, List.sum_cons, ← inductionHypothesis,
        get?_latestScans]
      cases latest : latestDone db host.id with
      | none =>
          rw [List.filterMap_cons_none (by rw [latest]; rfl)]
          simp [hostSummary]
      | some scan =>
          rw [List.filterMap_cons_some (by rw [latest]; rfl), sourcesOf,
            List.flatMap_cons, List.length_append, List.length_map]
          congr 1
          exact (total_eq_length lower latest).symm

/-! ## The whole rollup -/

/-- The copies are in bijection with the findings of the newest done scans: the
fields are the same but for the attribution, and so are the verdicts. -/
structure Copies (lower : String → String) (db after : Database) (rollId : Nat)
    (sources : List (Host × FindingRow)) (copies : List FindingRow)
    (linked : List FrameworkView) : Prop where
  distinct : sources.Nodup
  complete : ∀ host row, (host, row) ∈ sources ↔
    host ∈ db.hosts ∧ row ∈ db.findings ∧ isDrift row = false ∧
      ∃ scan, NewestDone db host scan ∧ row.scanId = scan.id
  findings : after.findings.rows = db.findings.rows ++ copies
  fields : List.Forall₂ (fun source copy => copy =
    { source.2 with
      id := copy.id
      scanId := rollId
      evidence := source.2.evidence.set "_fleet" (attribution source.1) }) sources copies
  views : after.views.rows = db.views.rows ++ linked
  targets : ∀ view ∈ linked, ∃ copy ∈ copies, view.findingId = copy.id
  verdicts : ∀ pair ∈ sources.zip copies,
    verdictsOn after.views.rows pair.2.id = verdictsOn db.views.rows pair.1.2.id
  total : copies.length = ((fleetSummary lower db).map HostSummary.total).sum

theorem copies_of_rolledUp (lower : String → String) {db after : Database}
    (consistent : Consistent db) {rollId : Nat}
    {tables : Table FindingRow × Table FrameworkView}
    {copies : List FindingRow} {linked : List FrameworkView}
    (rolled : RolledUp rollId (db.findings, db.views)
      (sourcesOf db.findings (latestPairs lower db)) tables copies linked)
    (findings : after.findings = tables.1) (views : after.views = tables.2) :
    Copies lower db after rollId (sourcesOf db.findings (latestPairs lower db)) copies
      linked where
  distinct := nodup_sourcesOf lower db
  complete host row := mem_sourcesOf
  findings := by rw [findings, rolled.findings]
  fields := by
    rw [List.forall₂_iff_zip]
    refine ⟨rolled.copied.length_eq, fun {source copy} paired => ?_⟩
    obtain ⟨host, row⟩ := source
    have stored := (mem_sourcesOf.mp (List.of_mem_zip paired).1).2.1
    have copied : CopyOf rollId (host, row) copy := List.forall₂_zip rolled.copied paired
    rw [CopyOf, copyFinding] at copied
    rw [copied]
    simp only [consistent.unlinked row stored]
  views := by rw [views, rolled.views]
  targets := rolled.targets
  verdicts := by
    rintro ⟨source, copy⟩ paired
    have old : verdictsOn db.views.rows copy.id = [] := by
      apply verdictsOn_eq_nil
      intro view member
      obtain ⟨row, stored, same⟩ := consistent.views view member
      have below : row.id < copy.id :=
        Table.id_lt_of_append rolled.findings stored (List.of_mem_zip paired).2
      omega
    rw [views, rolled.views, verdictsOn_append]
    change verdictsOn db.views.rows copy.id ++ verdictsOn linked copy.id = _
    rw [old, List.nil_append]
    exact rolled.verdicts _ paired
  total := by rw [← rolled.copied.length_eq, length_sourcesOf]

/-- Nothing that is read of the hosts changes, and deletion restores the store. -/
structure LeavesNoTrace (lower : String → String) (scanUuid : String)
    (db after : Database) (rollId : Nat) : Prop where
  summary : fleetSummary lower after = fleetSummary lower db
  history : ∀ hostId limit, hostHistory after hostId limit = hostHistory db hostId limit
  drift : ∀ py now (bundle : ScanBundle) hostId, bundle.scanUuid ≠ scanUuid →
    bundleDrift py now after bundle hostId = bundleDrift py now db bundle hostId
  restored : deleteScan after rollId = db

/-- The tables before and after a rollup. -/
structure RollupStored (db after : Database) (roll : Scan)
    (copies : List FindingRow) (linked : List FrameworkView) : Prop where
  newId : roll.id = db.scans.nextId
  hostless : roll.hostId = none
  scans : after.scans.rows = db.scans.rows ++ [roll]
  hosts : after.hosts = db.hosts
  findings : after.findings.rows = db.findings.rows ++ copies
  attached : ∀ row ∈ copies, row.scanId = roll.id
  views : after.views.rows = db.views.rows ++ linked
  targets : ∀ view ∈ linked, ∃ copy ∈ copies, view.findingId = copy.id
  baselines : after.baselines = db.baselines
  components : after.components = db.components
  edges : after.edges = db.edges

namespace RollupStored

variable {db after : Database} {roll : Scan} {copies : List FindingRow}
  {linked : List FrameworkView}

/-- The rollup has a new id. -/
theorem id_ne (stored : RollupStored db after roll copies linked) {scanId : Nat}
    (known : ∃ scan ∈ db.scans, scan.id = scanId) : scanId ≠ roll.id := by
  obtain ⟨scan, member, rfl⟩ := known
  have below : scan.id < db.scans.nextId := Table.id_lt_nextId member
  rw [stored.newId]
  omega

theorem scansOf_eq (stored : RollupStored db after roll copies linked) (hostId : Nat) :
    scansOf after hostId = scansOf db hostId := by
  have foreign : (roll.hostId == some hostId) = false := by
    rw [stored.hostless]
    rfl
  rw [scansOf, scansOf, stored.scans, List.filter_append]
  simp [foreign]

theorem latestDone_eq (stored : RollupStored db after roll copies linked) (hostId : Nat) :
    latestDone after hostId = latestDone db hostId := by
  rw [latestDone, latestDone, stored.scansOf_eq]

theorem findingsOf_eq (stored : RollupStored db after roll copies linked) {scanId : Nat}
    (known : ∃ scan ∈ db.scans, scan.id = scanId) :
    findingsOf after scanId = findingsOf db scanId := by
  have none : copies.filter (·.scanId == scanId) = [] := by
    rw [List.filter_eq_nil_iff]
    intro row member
    simpa [stored.attached row member] using (stored.id_ne known).symm
  rw [findingsOf, findingsOf, stored.findings, List.filter_append, none, List.append_nil]

/-- The deletion of the rollup restores every table. -/
theorem restored (stored : RollupStored db after roll copies linked)
    (consistent : Consistent db) : deleteScan after roll.id = db := by
  apply Database.ext
  · exact stored.hosts
  · apply Table.ext
    change after.scans.rows.filter (fun scan => scan.id != roll.id) = _
    rw [stored.scans, List.filter_append]
    have kept : db.scans.rows.filter (fun scan => scan.id != roll.id) =
        db.scans.rows := by
      rw [List.filter_eq_self]
      intro scan member
      simpa using stored.id_ne ⟨scan, member, rfl⟩
    simp [kept]
  · apply Table.ext
    change after.findings.rows.filter (fun row => row.scanId != roll.id) = _
    rw [stored.findings, List.filter_append]
    have kept : db.findings.rows.filter (fun row => row.scanId != roll.id) =
        db.findings.rows := by
      rw [List.filter_eq_self]
      intro row member
      simpa using stored.id_ne (consistent.findings row member)
    have gone : copies.filter (fun row => row.scanId != roll.id) = [] := by
      rw [List.filter_eq_nil_iff]
      intro row member
      simp [stored.attached row member]
    rw [kept, gone, List.append_nil]
  · apply Table.ext
    have doomed : (after.findings.rows.filter (·.scanId == roll.id)).map FindingRow.id =
        copies.map FindingRow.id := by
      have old : db.findings.rows.filter (·.scanId == roll.id) = [] := by
        rw [List.filter_eq_nil_iff]
        intro row member
        simpa using stored.id_ne (consistent.findings row member)
      have new : copies.filter (·.scanId == roll.id) = copies := by
        rw [List.filter_eq_self]
        intro row member
        simp [stored.attached row member]
      rw [stored.findings, List.filter_append, old, new, List.nil_append]
    change after.views.rows.filter (fun view => !((after.findings.rows.filter
      (·.scanId == roll.id)).map FindingRow.id).contains view.findingId) = _
    have kept : db.views.rows.filter (fun view =>
        !(copies.map FindingRow.id).contains view.findingId) = db.views.rows := by
      rw [List.filter_eq_self]
      intro view member
      obtain ⟨row, rowStored, same⟩ := consistent.views view member
      rw [Bool.not_eq_true', List.contains_eq_mem, decide_eq_false_iff_not, List.mem_map]
      rintro ⟨copy, copyMember, equal⟩
      have below : row.id < copy.id :=
        Table.id_lt_of_append stored.findings rowStored copyMember
      omega
    have gone : linked.filter (fun view =>
        !(copies.map FindingRow.id).contains view.findingId) = [] := by
      rw [List.filter_eq_nil_iff]
      intro view member
      obtain ⟨copy, copyMember, same⟩ := stored.targets view member
      have listed : view.findingId ∈ copies.map FindingRow.id :=
        List.mem_map.mpr ⟨copy, copyMember, same.symm⟩
      simp [listed]
    rw [doomed, stored.views, List.filter_append, kept, gone, List.append_nil]
  · apply Table.ext
    change after.baselines.rows.filter (fun row => row.scanId != roll.id) = _
    rw [stored.baselines, List.filter_eq_self]
    intro row member
    simpa using stored.id_ne (consistent.baselines row member)
  · apply Table.ext
    change after.components.rows.filter (fun row => row.scanId != roll.id) = _
    rw [stored.components, List.filter_eq_self]
    intro row member
    simpa using stored.id_ne (consistent.components row member)
  · apply Table.ext
    change after.edges.rows.filter (fun row => row.scanId != roll.id) = _
    rw [stored.edges, List.filter_eq_self]
    intro row member
    simpa using stored.id_ne (consistent.edges row member)

/-- Nothing that is read of the hosts has changed. -/
theorem leavesNoTrace (stored : RollupStored db after roll copies linked)
    (consistent : Consistent db) (lower : String → String) {scanUuid : String}
    (named : roll.scanUuid = some scanUuid) :
    LeavesNoTrace lower scanUuid db after roll.id := by
  have latestFindings : ∀ hostId scan, latestDone db hostId = some scan →
      findingsOf after scan.id = findingsOf db scan.id :=
    fun _ scan latest => stored.findingsOf_eq ⟨scan, (latestDone_mem latest).1, rfl⟩
  refine ⟨?_, ?_, ?_, stored.restored consistent⟩
  · exact fleetSummary_congr lower stored.hosts stored.latestDone_eq latestFindings
  · intro hostId limit
    rw [hostHistory, hostHistory, stored.scansOf_eq]
  · intro py now bundle hostId different
    apply bundleDrift_congr py now _ (stored.latestDone_eq hostId) (latestFindings hostId)
    have foreign : (roll.scanUuid == some bundle.scanUuid) = false := by
      rw [named]
      simpa using Ne.symm different
    rw [getScanIdByUuid, getScanIdByUuid, stored.scans, List.find?_append]
    simp [foreign]

end RollupStored

/-- A rollup is exact and leaves no trace; without a done scan there is none. -/
theorem rollup_exact (lower : String → String) (started finished : DateTime)
    {scanUuid : String} {db : Database} (consistent : Consistent db)
    (fresh : Fresh db scanUuid) :
    ((∃ host ∈ db.hosts, ∃ scan, NewestDone db host scan) →
      ∃ after roll sources copies linked,
        materializeFleetRollup lower started finished scanUuid db =
          .ok (some (after, roll.id)) ∧
        after.scans.rows = db.scans.rows ++ [roll] ∧
        Copies lower db after roll.id sources copies linked ∧
        LeavesNoTrace lower scanUuid db after roll.id) ∧
    ((∀ host ∈ db.hosts, ∀ scan, ¬ NewestDone db host scan) →
      materializeFleetRollup lower started finished scanUuid db = .ok none) := by
  constructor
  · rintro ⟨host, member, scan, newest⟩
    have nonempty : latestPairs lower db ≠ [] := List.ne_nil_of_mem
      (mem_latestPairs.mpr ⟨member, scan, newestDone_iff.mp newest, rfl⟩)
    obtain ⟨inserted, accepted⟩ : ∃ inserted, db.insertScan? (rollupRow started finished
        scanUuid (latestPairs lower db).length) = some inserted := by
      rw [← Option.isSome_iff_exists, ← Option.ne_none_iff_isSome, Ne,
        Database.insertScan?_eq_none_iff (by nofun)]
      rintro ⟨other, stored, clash⟩
      exact fresh other stored ((scan_clash_iff rfl).mp clash)
    have effect := Database.scanInserted accepted
    obtain ⟨components, edges⟩ := Database.insertScan?_graph accepted
    have others : ∀ pair ∈ latestPairs lower db, pair.2 ≠ db.scans.nextId := by
      rintro ⟨other, scanId⟩ paired
      obtain ⟨_, latest, isLatest, rfl⟩ := mem_latestPairs.mp paired
      have below : latest.id < db.scans.nextId :=
        Table.id_lt_nextId (latestDone_mem isLatest).1
      exact below.ne
    obtain ⟨after, copies, linked, ran, rolled⟩ :=
      (RolledUp.start (db.findings, db.views)).loop others
    rw [List.nil_append] at rolled
    have stored : RollupStored db { inserted with findings := after.1, views := after.2 }
        { rollupRow started finished scanUuid (latestPairs lower db).length with
          id := db.scans.nextId } copies linked :=
      ⟨rfl, rfl, effect.scans, effect.hosts, rolled.findings,
        fun row copied => mem_copies_scanId rolled.copied copied, rolled.views,
        rolled.targets, effect.baselines, components, edges⟩
    refine ⟨_, _, sourcesOf db.findings (latestPairs lower db), copies, linked, ?_,
      stored.scans, ?_, stored.leavesNoTrace consistent lower rfl⟩
    · unfold materializeFleetRollup
      dsimp only
      rw [if_neg nonempty, accepted]
      dsimp only
      rw [effect.findings, effect.views, ran]
    · exact copies_of_rolledUp lower consistent rolled rfl rfl
  · intro none
    have empty : latestPairs lower db = [] := by
      rw [List.eq_nil_iff_forall_not_mem]
      rintro ⟨host, scanId⟩ paired
      obtain ⟨member, scan, latest, _⟩ := mem_latestPairs.mp paired
      exact none host member scan (newestDone_iff.mpr latest)
    unfold materializeFleetRollup
    dsimp only
    rw [if_pos empty]

/-- Host 1 with a done scan that has one finding. -/
def rollupSample : Database :=
  (ingestBundle (Runtime.ofDocuments []) (fun _ => 0) (storeOf [bareIdentity "m1"])
    { statusBundle "m1" "u1" "done" with findings := [[("probe_id", .str "net.tls")]] }
      1).1

theorem rollup_exact_sample :
    ∃ after roll sources copies linked,
      materializeFleetRollup id 0 0 "r1" rollupSample = .ok (some (after, roll.id)) ∧
      after.scans.rows = rollupSample.scans.rows ++ [roll] ∧
      Copies id rollupSample after roll.id sources copies linked ∧
      LeavesNoTrace id "r1" rollupSample after roll.id := by
  have start : Consistent (storeOf [bareIdentity "m1"]) := by
    apply consistent_of_hosts <;> decide
  have consistent : Consistent rollupSample := consistent_ingestBundle start _ _ _ _
  have fresh : Fresh rollupSample "r1" := by
    have uuids : rollupSample.scans.rows.all fun scan => scan.scanUuid != some "r1" := by
      decide
    rw [List.all_eq_true] at uuids
    intro scan member
    simpa using uuids scan member
  apply (rollup_exact id 0 0 consistent fresh).1
  have paired : (rollupSample.hosts.rows.filterMap fun host =>
      (latestDone rollupSample host.id).map Scan.id) = [1] := by
    decide
  have member : 1 ∈ rollupSample.hosts.rows.filterMap fun host =>
      (latestDone rollupSample host.id).map Scan.id := by
    rw [paired]
    exact List.mem_singleton_self 1
  obtain ⟨host, stored, latest⟩ := List.mem_filterMap.mp member
  obtain ⟨scan, isLatest, _⟩ := Option.map_eq_some_iff.mp latest
  exact ⟨host, stored, scan, newestDone_iff.mpr isLatest⟩

/-- Without a done scan no rollup is made. -/
theorem no_rollup_of_empty :
    ¬ ∀ db, Consistent db → ∃ after rollId,
      materializeFleetRollup id 0 0 "r1" db = .ok (some (after, rollId)) := by
  intro always
  obtain ⟨after, rollId, made⟩ :=
    always Database.empty (consistent_of_hosts rfl rfl rfl rfl rfl)
  cases made

end Repo
end Store
end PqcScan
