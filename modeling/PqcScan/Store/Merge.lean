import PqcScan.Library.Newest
import PqcScan.Library.Program
import PqcScan.Store.Rollup

/-!
# Merging stores

`merge_dbs` copies the scans of several source stores into one output store, in
one transaction, and adds a scan that unions the newest finished scan of each
source.  Every operation on a database may fail; a merge that fails is rolled
back.
-/

namespace PqcScan
namespace Store

open Library Python PqcScan.Core

/-! ## The session -/

/-- A source: the stem of its path and the store at the path. -/
structure MergeSource where
  stem : String
  db : Database

/-- `MergeReport`. -/
structure MergeReport where
  sources : Nat
  scansCopied : Nat
  findingsCopied : Nat
  rollupScanId : Option Nat
  rollupHosts : List String

/-- What is committed to the output, what the session sees of it, and how many
operations there were. -/
structure MergeState where
  stored : Database
  session : Database
  operations : Nat

/-- What a merge may raise. -/
inductive MergeError
  | integrity
  | operational (message : String)

/-- The failure of each operation on a database, if it fails. -/
abbrev Faults := Nat → Option String

/-- A program of the merge. -/
abbrev Merge := Library.Program MergeState MergeError

namespace Merge

section Model

variable (faults : Faults)

/-- An operation on a database. -/
def operation : Merge Unit := do
  let failure ← Program.update fun state =>
    (faults state.operations, { state with operations := state.operations + 1 })
  match failure with
  | none => pure ()
  | some message => throw (.operational message)

/-- Add a scan and flush; its id. -/
def addScan (scan : Scan) : Merge Nat := do
  operation faults
  let inserted ← Program.update fun state =>
    match state.session.insertScan? scan with
    | none => (none, state)
    | some session => (some state.session.scans.nextId, { state with session })
  match inserted with
  | none => throw .integrity
  | some scanId => pure scanId

/-- Add a finding and flush; its id. -/
def addFinding (row : FindingRow) : Merge Nat := do
  operation faults
  Program.update fun state =>
    (state.session.findings.nextId,
      { state with
        session := { state.session with findings := state.session.findings.add row } })

/-- Add views. -/
def addViews (views : List FrameworkView) : Merge Unit :=
  Program.update fun state =>
    ((), { state with
      session := { state.session with views := state.session.views.addAll views } })

/-- `commit`. -/
def commit : Merge Unit := do
  operation faults
  Program.update fun state => ((), { state with stored := state.session })

/-! ## Copies -/

/-- The copy of a finding under another scan, with its own evidence. -/
def copyRow (scanId : Nat) (evidence : Dict String Json) (row : FindingRow) :
    FindingRow where
  id := 0
  scanId := scanId
  componentId := none
  probeId := row.probeId
  algorithm := row.algorithm
  classification := row.classification
  severity := row.severity
  title := row.title
  evidence := evidence
  remediation := row.remediation
  createdAt := row.createdAt

/-- Copy findings, each with its views. -/
def copyFindings (src : Database) (copy : FindingRow → FindingRow) :
    List FindingRow → Merge Nat
  | [] => pure 0
  | row :: rest => do
      let findingId ← addFinding faults (copy row)
      operation faults
      addViews ((src.views.rows.filter (·.findingId == row.id)).map
        (Repo.copyView findingId))
      let count ← copyFindings src copy rest
      pure (count + 1)

/-- The copy of a scan. -/
def copyScanRow (host : String) (label : Option String) (scan : Scan) : Scan where
  id := 0
  startedAt := scan.startedAt
  finishedAt := scan.finishedAt
  hostFingerprint := some host
  mode := scan.mode
  status := scan.status
  label := label.or scan.label
  probeVersions := scan.probeVersions
  toolVersions := scan.toolVersions
  hostId := none
  scanUuid := none

/-- `_copy_scan`. -/
def copyScan (src : Database) (scan : Scan) (host : String) (label : Option String)
    (extraEvidence : Option (Dict String Json)) : Merge (Nat × Nat) := do
  let newId ← addScan faults (copyScanRow host label scan)
  operation faults
  let count ← copyFindings faults src
    (fun row => copyRow newId (row.evidence.merge (extraEvidence.getD Dict.empty)) row)
    (Repo.listFindings src scan.id)
  pure (newId, count)

/-! ## The merge -/

/-- `scan.host_fingerprint or path.stem`. -/
def hostOf (source : MergeSource) (scan : Scan) : String :=
  match scan.hostFingerprint with
  | none => source.stem
  | some host => if host = "" then source.stem else host

/-- `select(Scan).order_by(Scan.started_at)`. -/
def scansByStart (db : Database) : List Scan :=
  db.scans.rows.insertionSort fun left right => left.startedAt ≤ right.startedAt

/-- The last done scan that is no rollup. -/
def lastDone (scans : List Scan) : Option Scan :=
  (scans.filter fun scan =>
    scan.status == "done" && scan.label != some fleetRollupLabel).getLast?

/-- The newest done scan of a source and its host. -/
structure Latest where
  source : MergeSource
  host : String
  scan : Scan

/-- The loop over the scans of a source. -/
def copyScans (source : MergeSource) : List Scan → MergeReport → Merge MergeReport
  | [], report => pure report
  | scan :: rest, report => do
      let (_, count) ← copyScan faults source.db scan (hostOf source scan) none none
      copyScans source rest
        { report with
          scansCopied := report.scansCopied + 1
          findingsCopied := report.findingsCopied + count }

/-- What a source gives to the rollup. -/
def latestOf (source : MergeSource) : Option Latest :=
  (lastDone (scansByStart source.db)).map fun scan => ⟨source, hostOf source scan, scan⟩

/-- The loop over the sources. -/
def mergeSources : List MergeSource → MergeReport → List Latest →
    Merge (MergeReport × List Latest)
  | [], report, latest => pure (report, latest)
  | source :: rest, report, latest => do
      operation faults
      operation faults
      let report ← copyScans faults source (scansByStart source.db)
        { report with sources := report.sources + 1 }
      mergeSources rest report (latest ++ (latestOf source).toList)

/-- The row of the rollup. -/
def rollupScan (started finished : DateTime) (hosts : Nat) : Scan where
  id := 0
  startedAt := started
  finishedAt := some finished
  hostFingerprint := some "fleet"
  mode := "user"
  status := "done"
  label := some fleetRollupLabel
  probeVersions := Dict.empty
  toolVersions := Dict.ofList [("hosts", .int hosts)]
  hostId := none
  scanUuid := none

/-- `evidence["_fleet"]`. -/
def fleetHost (host : String) : Json :=
  .object [("host", .str host), ("host_id", .null), ("machine_id", .null)]

/-- The copy of a finding in the rollup. -/
def rollupCopy (rollId : Nat) (host : String) (row : FindingRow) : FindingRow :=
  copyRow rollId (row.evidence.set "_fleet" (fleetHost host)) row

/-- The loop over the newest scans. -/
def rollupSources (rollId : Nat) : List Latest → MergeReport → Merge MergeReport
  | [], report => pure report
  | latest :: rest, report => do
      operation faults
      let _ ← copyFindings faults latest.source.db (rollupCopy rollId latest.host)
        (latest.source.db.findings.rows.filter (·.scanId == latest.scan.id))
      rollupSources rollId rest
        { report with rollupHosts := report.rollupHosts ++ [latest.host] }

/-- `merge_dbs`, with the two readings of the clock. -/
def mergeDbs (started finished : DateTime) (sources : List MergeSource) (rollup : Bool) :
    Merge MergeReport := do
  let (report, latest) ← mergeSources faults sources ⟨0, 0, 0, none, []⟩ []
  let report ←
    if rollup && !latest.isEmpty then do
      let rollId ← addScan faults (rollupScan started finished latest.length)
      let report ← rollupSources faults rollId latest report
      pure { report with rollupScanId := some rollId }
    else pure report
  commit faults
  pure report

/-- The outcome of a merge and the store it leaves. -/
def mergeInto (out : Database) (started finished : DateTime) (sources : List MergeSource)
    (rollup : Bool) : Except MergeError MergeReport × Database :=
  let (outcome, state) :=
    (mergeDbs faults started finished sources rollup).execute ⟨out, out, 0⟩
  (outcome, state.stored)

end Model

variable {faults : Faults} {state after : MergeState}

/-! ## What the session writes -/

theorem operation_ok {value : Unit}
    (ran : (operation faults).execute state = (.ok value, after)) :
    after = { state with operations := state.operations + 1 } := by
  unfold operation at ran
  obtain ⟨failure, middle, counted, rest⟩ := Program.execute_bind_eq_ok.mp ran
  cases counted
  dsimp only at rest
  cases fails : faults state.operations with
  | none =>
      rw [fails] at rest
      cases rest
      rfl
  | some message =>
      rw [fails] at rest
      cases rest

theorem addFinding_ok {row : FindingRow} {findingId : Nat}
    (ran : (addFinding faults row).execute state = (.ok findingId, after)) :
    findingId = state.session.findings.nextId ∧
      after.session =
        { state.session with findings := state.session.findings.add row } := by
  unfold addFinding at ran
  obtain ⟨_, middle, counted, rest⟩ := Program.execute_bind_eq_ok.mp ran
  cases operation_ok counted
  cases rest
  exact ⟨rfl, rfl⟩

/-- What adding a scan changes. -/
structure ScanAdded (before : Database) (scan : Scan) (scanId : Nat) (after : Database) :
    Prop where
  scans : after.scans.rows = before.scans.rows ++ [{ scan with id := scanId }]
  hosts : after.hosts = before.hosts
  findings : after.findings = before.findings
  views : after.views = before.views
  baselines : after.baselines = before.baselines
  components : after.components = before.components
  edges : after.edges = before.edges

theorem scanAdded {before after : Database} {scan : Scan}
    (inserted : before.insertScan? scan = some after) :
    ScanAdded before scan before.scans.nextId after := by
  unfold Database.insertScan? at inserted
  split at inserted
  · split at inserted
    · cases inserted
    · next scans stored =>
      cases inserted
      exact ⟨(Table.insert?_eq_some_iff.mp stored).2, rfl, rfl, rfl, rfl, rfl, rfl⟩
  · cases inserted

theorem addScan_ok {scan : Scan} {scanId : Nat}
    (ran : (addScan faults scan).execute state = (.ok scanId, after)) :
    ScanAdded state.session scan scanId after.session := by
  unfold addScan at ran
  obtain ⟨_, middle, counted, rest⟩ := Program.execute_bind_eq_ok.mp ran
  cases operation_ok counted
  obtain ⟨outcome, last, wrote, returned⟩ := Program.execute_bind_eq_ok.mp rest
  dsimp only [Program.execute_update] at wrote
  cases inserted : state.session.insertScan? scan with
  | none =>
      rw [inserted] at wrote
      cases wrote
      cases returned
  | some session =>
      rw [inserted] at wrote
      cases wrote
      cases returned
      exact scanAdded inserted

/-! ## Copies of findings -/

/-- A finding to be stored and what the frameworks say of it. -/
structure Piece where
  row : FindingRow
  verdicts : List Repo.Verdict

/-- The tables after some findings have been stored with their views. -/
structure Transferred (before : Table FindingRow × Table FrameworkView)
    (pieces : List Piece)
    (after : Table FindingRow × Table FrameworkView) (copies : List FindingRow)
    (linked : List FrameworkView) : Prop where
  findings : after.1.rows = before.1.rows ++ copies
  copied : List.Forall₂ (fun piece copy =>
    copy = { piece.row with id := copy.id }) pieces copies
  views : after.2.rows = before.2.rows ++ linked
  targets : ∀ view ∈ linked, ∃ copy ∈ copies, view.findingId = copy.id
  verdicts : ∀ pair ∈ pieces.zip copies,
    Repo.verdictsOn linked pair.2.id = pair.1.verdicts

theorem Transferred.start (tables : Table FindingRow × Table FrameworkView) :
    Transferred tables [] tables [] [] :=
  ⟨by simp, .nil, by simp, by simp, by simp⟩

/-- Store one more finding and views of it. -/
theorem Transferred.add {before tables : Table FindingRow × Table FrameworkView}
    {pieces : List Piece} {copies : List FindingRow} {linked : List FrameworkView}
    (transferred : Transferred before pieces tables copies linked) (row : FindingRow)
    {views : List FrameworkView}
    (own : ∀ view ∈ views, view.findingId = tables.1.nextId) :
    ∃ copies linked, Transferred before (pieces ++ [⟨row, views.map Repo.viewContent⟩])
      (tables.1.add row, tables.2.addAll views) copies linked := by
  obtain ⟨newLinked, added⟩ := Table.addAll_addedRows tables.2 views
  have ownLinked : ∀ view ∈ newLinked, view.findingId = tables.1.nextId := by
    intro view member
    obtain ⟨source, sourceMember, same⟩ := exists_left added.stored member
    rw [same]
    exact own source sourceMember
  have earlier : ∀ copy ∈ copies, copy.id < tables.1.nextId := by
    intro copy member
    have stored : copy ∈ tables.1 := by
      rw [Table.mem_iff, transferred.findings]
      exact List.mem_append_right _ member
    exact Table.id_lt_nextId stored
  refine ⟨copies ++ [{ row with id := tables.1.nextId }], linked ++ newLinked, ?_,
    ?_, ?_, ?_, ?_⟩
  · change tables.1.rows ++ [_] = _
    rw [transferred.findings, List.append_assoc]
    rfl
  · exact List.rel_append transferred.copied (.cons rfl .nil)
  · rw [added.rows, transferred.views, List.append_assoc]
  · intro view member
    rcases List.mem_append.mp member with old | fresh
    · obtain ⟨copy, copyMember, same⟩ := transferred.targets view old
      exact ⟨copy, List.mem_append_left _ copyMember, same⟩
    · exact ⟨_, List.mem_append_right _ (List.mem_singleton_self _), ownLinked view fresh⟩
  · rw [List.zip_append transferred.copied.length_eq]
    intro pair member
    rw [Repo.verdictsOn_append]
    rcases List.mem_append.mp member with old | fresh
    · rw [Repo.verdictsOn_eq_nil newLinked, List.append_nil,
        transferred.verdicts pair old]
      intro view viewMember
      have below := earlier pair.2 (List.of_mem_zip old).2
      rw [ownLinked view viewMember]
      exact below.ne'
    · cases List.mem_singleton.mp fresh
      rw [Repo.verdictsOn_eq_nil linked, List.nil_append,
        Repo.verdictsOn_of_storedAs added.stored, Repo.verdictsOn,
        List.filter_eq_self.mpr]
      · intro view viewMember
        simpa using own view viewMember
      · intro view viewMember
        obtain ⟨copy, copyMember, same⟩ := transferred.targets view viewMember
        rw [same]
        exact (earlier copy copyMember).ne

/-- How far a merge has come: the scans and findings it has stored. -/
structure Progress (before : Database) (given : List Scan) (pieces : List Piece)
    (session : Database) (stored : List Scan) (copies : List FindingRow)
    (linked : List FrameworkView) : Prop where
  scans : session.scans.rows = before.scans.rows ++ stored
  copied : List.Forall₂ (fun (scan copy : Scan) => copy = { scan with id := copy.id })
    given stored
  transferred : Transferred (before.findings, before.views) pieces
    (session.findings, session.views) copies linked
  hosts : session.hosts = before.hosts
  baselines : session.baselines = before.baselines
  components : session.components = before.components
  edges : session.edges = before.edges

section Steps

variable {before : Database} {given : List Scan} {pieces : List Piece} {scans : List Scan}
  {copies : List FindingRow} {linked : List FrameworkView}

theorem Progress.start (before : Database) : Progress before [] [] before [] [] [] :=
  ⟨by simp, .nil, .start _, rfl, rfl, rfl, rfl⟩

theorem Progress.addScan
    (progress : Progress before given pieces state.session scans copies linked)
    {scan : Scan}
    {scanId : Nat} (ran : (addScan faults scan).execute state = (.ok scanId, after)) :
    Progress before (given ++ [scan]) pieces after.session
      (scans ++ [{ scan with id := scanId }]) copies linked := by
  have added := addScan_ok ran
  constructor
  · rw [added.scans, progress.scans, List.append_assoc]
  · exact List.rel_append progress.copied (.cons rfl .nil)
  · rw [added.findings, added.views]
    exact progress.transferred
  · rw [added.hosts, progress.hosts]
  · rw [added.baselines, progress.baselines]
  · rw [added.components, progress.components]
  · rw [added.edges, progress.edges]

theorem Progress.operation {value : Unit}
    (progress : Progress before given pieces state.session scans copies linked)
    (ran : (operation faults).execute state = (.ok value, after)) :
    Progress before given pieces after.session scans copies linked := by
  cases operation_ok ran
  exact progress

/-- The findings of a scan, as they are stored. -/
def piecesOf (src : Database) (copy : FindingRow → FindingRow) (rows : List FindingRow) :
    List Piece :=
  rows.map fun row => ⟨copy row, Repo.verdictsOn src.views.rows row.id⟩

/-- The views of a finding say the same of its copy. -/
theorem viewContent_copies (src : Database) (row : FindingRow) (findingId : Nat) :
    ((src.views.rows.filter (·.findingId == row.id)).map (Repo.copyView findingId)).map
      Repo.viewContent = Repo.verdictsOn src.views.rows row.id := by
  rw [List.map_map, Repo.verdictsOn]
  rfl

theorem Progress.copyFindings {src : Database} {copy : FindingRow → FindingRow}
    {rows : List FindingRow} {count : Nat}
    (progress : Progress before given pieces state.session scans copies linked)
    (ran : (copyFindings faults src copy rows).execute state = (.ok count, after)) :
    ∃ copies linked, Progress before given
      (pieces ++ piecesOf src copy rows) after.session
      scans copies linked := by
  induction rows generalizing state pieces copies linked count with
  | nil =>
      cases ran
      exact ⟨copies, linked, by simpa [piecesOf] using progress⟩
  | cons row rest inductionHypothesis =>
      unfold Merge.copyFindings at ran
      obtain ⟨findingId, stored, added, afterAdd⟩ := Program.execute_bind_eq_ok.mp ran
      obtain ⟨_, selected, counted, afterSelect⟩ := Program.execute_bind_eq_ok.mp afterAdd
      obtain ⟨_, viewed, wrote, afterViews⟩ := Program.execute_bind_eq_ok.mp afterSelect
      obtain ⟨restCount, final, copied, finish⟩ :=
        Program.execute_bind_eq_ok.mp afterViews
      obtain ⟨rfl, session⟩ := addFinding_ok added
      cases operation_ok counted
      cases wrote
      cases finish
      have own : ∀ view ∈ (src.views.rows.filter (·.findingId == row.id)).map
          (Repo.copyView state.session.findings.nextId),
          view.findingId = state.session.findings.nextId := by
        intro view member
        obtain ⟨source, _, rfl⟩ := List.mem_map.mp member
        rfl
      obtain ⟨newCopies, newLinked, transferred⟩ :=
        progress.transferred.add (copy row) own
      rw [viewContent_copies] at transferred
      have next : Progress before given
          (pieces ++ [⟨copy row, Repo.verdictsOn src.views.rows row.id⟩])
          { stored.session with
            views := stored.session.views.addAll
              ((src.views.rows.filter (·.findingId == row.id)).map
                (Repo.copyView state.session.findings.nextId)) } scans newCopies
                  newLinked := by
        rw [session]
        exact { progress with transferred }
      obtain ⟨allCopies, allLinked, done⟩ := inductionHypothesis next copied
      refine ⟨allCopies, allLinked, ?_⟩
      rw [List.append_assoc] at done
      exact done

/-! ## The loops -/

/-- The findings of a source scan, under the id of its copy. -/
def scanPieces (source : MergeSource) (scan : Scan) (scanId : Nat) : List Piece :=
  piecesOf source.db (fun row => copyRow scanId row.evidence row)
    (Repo.listFindings source.db scan.id)

/-- The copy of a source scan, before it has an id. -/
def givenScan (entry : MergeSource × Scan) : Scan :=
  copyScanRow (hostOf entry.1 entry.2) none entry.2

/-- The findings of several source scans. -/
def copiedPieces (entries : List (MergeSource × Scan)) (stored : List Scan) :
    List Piece :=
  (entries.zip stored).flatMap fun pair => scanPieces pair.1.1 pair.1.2 pair.2.id

theorem copiedPieces_append {front back : List (MergeSource × Scan)}
    {first last : List Scan}
    (same : front.length = first.length) :
    copiedPieces (front ++ back) (first ++ last) =
      copiedPieces front first ++ copiedPieces back last := by
  unfold copiedPieces
  rw [List.zip_append same, List.flatMap_append]

theorem Progress.copyScan {source : MergeSource} {scan : Scan} {result : Nat × Nat}
    (progress : Progress before given pieces state.session scans copies linked)
    (ran : (copyScan faults source.db scan (hostOf source scan) none none).execute state =
      (.ok result, after)) :
    ∃ copies linked, Progress before (given ++ [givenScan (source, scan)])
      (pieces ++ scanPieces source scan result.1) after.session
      (scans ++ [{ givenScan (source, scan) with id := result.1 }]) copies linked := by
  unfold Merge.copyScan at ran
  obtain ⟨scanId, stored, added, afterAdd⟩ := Program.execute_bind_eq_ok.mp ran
  obtain ⟨_, selected, counted, afterSelect⟩ := Program.execute_bind_eq_ok.mp afterAdd
  obtain ⟨count, final, copied, finish⟩ := Program.execute_bind_eq_ok.mp afterSelect
  cases finish
  exact ((progress.addScan added).operation counted).copyFindings copied

theorem Progress.copyScans {source : MergeSource} {rest : List Scan}
    {report result : MergeReport}
    (progress : Progress before given pieces state.session scans copies linked)
    (ran : (copyScans faults source rest report).execute state = (.ok result, after)) :
    ∃ new copies linked, new.length = rest.length ∧
      Progress before (given ++ (rest.map (source, ·)).map givenScan)
        (pieces ++ copiedPieces (rest.map (source, ·)) new) after.session (scans ++ new)
        copies linked := by
  induction rest generalizing state report given pieces scans copies linked with
  | nil =>
      cases ran
      exact ⟨[], copies, linked, rfl, by simpa [copiedPieces] using progress⟩
  | cons scan rest inductionHypothesis =>
      unfold Merge.copyScans at ran
      obtain ⟨copied, middle, first, others⟩ := Program.execute_bind_eq_ok.mp ran
      obtain ⟨newCopies, newLinked, next⟩ := progress.copyScan first
      obtain ⟨new, allCopies, allLinked, length, done⟩ := inductionHypothesis next others
      refine ⟨{ givenScan (source, scan) with id := copied.1 } :: new,
        allCopies, allLinked, congrArg Nat.succ length, ?_⟩
      rw [List.append_assoc, List.append_assoc, List.append_assoc] at done
      exact done

/-- The scans of the sources, in the order in which they are copied. -/
def sourceScans (sources : List MergeSource) : List (MergeSource × Scan) :=
  sources.flatMap fun source => (scansByStart source.db).map (source, ·)

theorem Progress.mergeSources {sources : List MergeSource} {report : MergeReport}
    {latest : List Latest} {result : MergeReport × List Latest}
    (progress : Progress before given pieces state.session scans copies linked)
    (ran : (mergeSources faults sources report latest).execute state =
      (.ok result, after)) :
    result.2 = latest ++ sources.filterMap latestOf ∧
      ∃ new copies linked, new.length = (sourceScans sources).length ∧
        Progress before (given ++ (sourceScans sources).map givenScan)
          (pieces ++ copiedPieces (sourceScans sources) new) after.session (scans ++ new)
          copies linked := by
  induction sources generalizing state report latest given pieces scans copies linked with
  | nil =>
      cases ran
      refine ⟨(List.append_nil _).symm, [], copies, linked, rfl, ?_⟩
      simpa [sourceScans, copiedPieces] using progress
  | cons source rest inductionHypothesis =>
      unfold Merge.mergeSources at ran
      obtain ⟨_, opened, opens, afterOpen⟩ := Program.execute_bind_eq_ok.mp ran
      obtain ⟨_, selected, selects, afterSelect⟩ :=
        Program.execute_bind_eq_ok.mp afterOpen
      obtain ⟨_, middle, copied, others⟩ := Program.execute_bind_eq_ok.mp afterSelect
      obtain ⟨new, _, _, length, next⟩ :=
        ((progress.operation opens).operation selects).copyScans copied
      obtain ⟨same, more, allCopies, allLinked, moreLength, done⟩ :=
        inductionHypothesis next others
      constructor
      · rw [same, List.append_assoc, List.filterMap_cons]
        cases latestOf source <;> rfl
      · refine ⟨new ++ more, allCopies, allLinked, ?_, ?_⟩
        · simp [sourceScans, length, moreLength]
        · rw [List.append_assoc, List.append_assoc, List.append_assoc, ← List.map_append,
            ← copiedPieces_append (by simpa using length.symm)] at done
          exact done

/-- The findings of the newest scans, under the id of the rollup. -/
def rollupPieces (rollId : Nat) (latest : List Latest) : List Piece :=
  latest.flatMap fun entry => piecesOf entry.source.db (rollupCopy rollId entry.host)
    (entry.source.db.findings.rows.filter (·.scanId == entry.scan.id))

theorem Progress.rollupSources {rollId : Nat} {latest : List Latest}
    {report result : MergeReport}
    (progress : Progress before given pieces state.session scans copies linked)
    (ran : (rollupSources faults rollId latest report).execute state =
      (.ok result, after)) :
    ∃ copies linked, Progress before given (pieces ++ rollupPieces rollId latest)
      after.session scans copies linked := by
  induction latest generalizing state report pieces copies linked with
  | nil =>
      cases ran
      exact ⟨copies, linked, by simpa [rollupPieces] using progress⟩
  | cons entry rest inductionHypothesis =>
      unfold Merge.rollupSources at ran
      obtain ⟨_, opened, opens, afterOpen⟩ := Program.execute_bind_eq_ok.mp ran
      obtain ⟨_, middle, copied, others⟩ := Program.execute_bind_eq_ok.mp afterOpen
      obtain ⟨_, _, next⟩ := (progress.operation opens).copyFindings copied
      obtain ⟨allCopies, allLinked, done⟩ := inductionHypothesis next others
      refine ⟨allCopies, allLinked, ?_⟩
      rw [List.append_assoc] at done
      exact done

/-! ## The whole merge -/

/-- What a merge that succeeds has stored: `new` are the copies of the source scans,
`roll` is the rollup. -/
structure Merged (started finished : DateTime) (sources : List MergeSource)
    (rollup : Bool)
    (out after : Database) (new : List Scan) (roll : Option Scan)
    (copies : List FindingRow)
    (linked : List FrameworkView) : Prop where
  scans : after.scans.rows = out.scans.rows ++ (new ++ roll.toList)
  /-- Every source scan is copied once. -/
  copied : List.Forall₂ (fun entry copy => copy = { givenScan entry with id := copy.id })
    (sourceScans sources) new
  rolled : if rollup ∧ sources.filterMap latestOf ≠ [] then
      ∃ rollId, roll = some { rollupScan started finished
        (sources.filterMap latestOf).length with
        id := rollId }
    else roll = none
  /-- Every finding is stored once under its scan, and once more in the rollup. -/
  findings : Transferred (out.findings, out.views)
    (copiedPieces (sourceScans sources) new ++
      roll.elim [] fun scan => rollupPieces scan.id (sources.filterMap latestOf))
    (after.findings, after.views) copies linked
  hosts : after.hosts = out.hosts
  baselines : after.baselines = out.baselines
  components : after.components = out.components
  edges : after.edges = out.edges

theorem commit_ok {value : Unit}
    (ran : (commit faults).execute state = (.ok value, after)) :
    after.stored = state.session := by
  unfold commit at ran
  obtain ⟨_, middle, counted, rest⟩ := Program.execute_bind_eq_ok.mp ran
  cases operation_ok counted
  cases rest
  rfl

theorem forall₂_of_map {α β γ : Type} {related : β → γ → Prop} {change : α → β}
    {left : List α} {right : List γ}
    (pairing : List.Forall₂ related (left.map change) right) :
    List.Forall₂ (fun first second => related (change first) second) left right :=
  List.forall₂_map_left_iff.mp pairing

theorem merged {out : Database} {started finished : DateTime} {sources : List MergeSource}
    {rollup : Bool} {report : MergeReport} {result : Database}
    (ran : mergeInto faults out started finished sources rollup = (.ok report, result)) :
    ∃ new roll copies linked,
      Merged started finished sources rollup out result new roll copies linked ∧
        ∀ scan, roll = some scan → report.rollupScanId = some scan.id := by
  unfold mergeInto at ran
  rcases whole : (mergeDbs faults started finished sources rollup).execute ⟨out,
    out, 0⟩ with
    ⟨outcome, final⟩
  rw [whole] at ran
  cases ran
  unfold mergeDbs at whole
  obtain ⟨⟨summary, latest⟩, copiedState, copied, afterCopies⟩ :=
    Program.execute_bind_eq_ok.mp whole
  obtain ⟨newest, new, newCopies, newLinked, length, progress⟩ :=
    (Progress.start out).mergeSources copied
  dsimp only at newest afterCopies
  rw [List.nil_append] at newest
  subst newest
  simp only [List.nil_append] at progress
  have stored := forall₂_of_map progress.copied
  by_cases rolls : rollup ∧ sources.filterMap latestOf ≠ []
  · have chosen : (rollup && !(sources.filterMap latestOf).isEmpty) = true := by
      simpa [List.isEmpty_iff] using rolls
    rw [if_pos chosen] at afterCopies
    obtain ⟨rollId, addedState, added, afterAdd⟩ :=
      Program.execute_bind_eq_ok.mp afterCopies
    obtain ⟨_, listedState, listed, afterList⟩ := Program.execute_bind_eq_ok.mp afterAdd
    obtain ⟨_, _, same, afterRollup⟩ := Program.execute_bind_eq_ok.mp afterList
    obtain ⟨_, committed, commits, returned⟩ := Program.execute_bind_eq_ok.mp afterRollup
    cases same
    cases returned
    obtain ⟨copies, linked, done⟩ := (progress.addScan added).rollupSources listed
    refine ⟨new, some { rollupScan started finished
      (sources.filterMap latestOf).length with
      id := rollId }, copies, linked, ?_, ?_⟩
    · rw [commit_ok commits]
      exact
        { scans := done.scans
          copied := stored
          rolled := by
            rw [if_pos rolls]
            exact ⟨rollId, rfl⟩
          findings := done.transferred
          hosts := done.hosts
          baselines := done.baselines
          components := done.components
          edges := done.edges }
    · rintro _ ⟨⟩
      rfl
  · have skipped : ¬ (rollup && !(sources.filterMap latestOf).isEmpty) = true := by
      simpa [List.isEmpty_iff] using rolls
    rw [if_neg skipped] at afterCopies
    obtain ⟨_, _, same, afterRollup⟩ := Program.execute_bind_eq_ok.mp afterCopies
    obtain ⟨_, committed, commits, returned⟩ := Program.execute_bind_eq_ok.mp afterRollup
    cases same
    cases returned
    refine ⟨new, none, newCopies, newLinked, ?_, nofun⟩
    rw [commit_ok commits]
    exact
      { scans := by rw [Option.toList_none, List.append_nil]; exact progress.scans
        copied := stored
        rolled := by rw [if_neg rolls]
        findings := by
          rw [Option.elim_none, List.append_nil]
          exact progress.transferred
        hosts := progress.hosts
        baselines := progress.baselines
        components := progress.components
        edges := progress.edges }

end Steps

/-! ## The newest scan of a source -/

/-- The newest finished scan that is no rollup; of two that started
together, the later row. -/
structure NewestFinished (db : Database) (scan : Scan) : Prop where
  stored : scan ∈ db.scans
  finished : scan.status = "done"
  own : scan.label ≠ some fleetRollupLabel
  newest : ∀ other ∈ db.scans, other.status = "done" →
    other.label ≠ some fleetRollupLabel →
    other.startedAt < scan.startedAt ∨
      other.startedAt = scan.startedAt ∧ other.id ≤ scan.id

theorem lastDone_iff {db : Database} {scan : Scan} :
    lastDone (scansByStart db) = some scan ↔ NewestFinished db scan := by
  let done (scan : Scan) : Bool :=
    scan.status == "done" && scan.label != some fleetRollupLabel
  have doneIff : ∀ other, done other = true ↔
      other.status = "done" ∧ other.label ≠ some fleetRollupLabel := by
    intro other
    simp [done]
  have ordered : ((scansByStart db).filter done).Pairwise
      (KeyOrder Scan.startedAt fun left right => left.id < right.id) :=
    (pairwise_insertionSort db.scans.ascending).filter _
  have listed : ∀ other, other ∈ (scansByStart db).filter done ↔
      other ∈ db.scans ∧ done other = true := by
    intro other
    rw [List.mem_filter, scansByStart, List.mem_insertionSort, Table.mem_iff]
  constructor
  · intro last
    obtain ⟨stored, isDone⟩ := (listed scan).mp (List.mem_of_getLast? last)
    obtain ⟨finished, own⟩ := (doneIff scan).mp isDone
    refine ⟨stored, finished, own, fun other member otherDone otherOwn => ?_⟩
    have among := (listed other).mpr ⟨member, (doneIff other).mpr ⟨otherDone, otherOwn⟩⟩
    rcases eq_or_before_getLast? ordered last among with rfl | less | ⟨same, below⟩
    · exact .inr ⟨rfl, le_rfl⟩
    · exact .inl less
    · exact .inr ⟨same, below.le⟩
  · intro newest
    have among := (listed scan).mpr
      ⟨newest.stored, (doneIff scan).mpr ⟨newest.finished, newest.own⟩⟩
    refine getLast?_eq_of_greatest ordered among fun other member later => ?_
    obtain ⟨stored, isDone⟩ := (listed other).mp member
    obtain ⟨otherDone, otherOwn⟩ := (doneIff other).mp isDone
    rcases newest.newest other stored otherDone otherOwn with less | ⟨same, below⟩
    · rcases later with more | ⟨equal, _⟩
      · exact absurd less more.asymm
      · exact absurd less equal.not_gt
    · rcases later with more | ⟨_, above⟩
      · exact absurd same more.ne'
      · omega

/-! ## Rollback -/

section Rollback

variable (faults) {out : Database}

/-- The committed store stays. -/
abbrev Uncommitted (out : Database) (program : Merge α) : Prop :=
  Program.Keeps (fun _ => True) (fun state => state.stored = out) program

theorem uncommitted_update {change : MergeState → α × MergeState}
    (keeps : ∀ state, (change state).2.stored = state.stored) :
    Uncommitted out (Program.update change) :=
  Program.ensures_update (fun _ _ => trivial) fun state _ same => (keeps state).trans same

theorem uncommitted_operation : Uncommitted out (operation faults) := by
  refine (uncommitted_update fun _ => rfl).bind fun failure => ?_
  cases failure with
  | none => exact Program.keeps_pure ()
  | some message => exact Program.keeps_throw _

theorem uncommitted_addScan (scan : Scan) : Uncommitted out (addScan faults scan) := by
  refine (uncommitted_operation faults).bind fun _ =>
    Program.Keeps.bind ?_ fun inserted => ?_
  · apply uncommitted_update
    intro state
    split <;> rfl
  · cases inserted with
    | none => exact Program.keeps_throw _
    | some scanId => exact Program.keeps_pure scanId

theorem uncommitted_addFinding (row : FindingRow) :
    Uncommitted out (addFinding faults row) :=
  (uncommitted_operation faults).bind fun _ => uncommitted_update fun _ => rfl

theorem uncommitted_copyFindings (src : Database) (copy : FindingRow → FindingRow)
    (rows : List FindingRow) : Uncommitted out (copyFindings faults src copy rows) := by
  induction rows with
  | nil => exact Program.keeps_pure 0
  | cons row rest inductionHypothesis =>
      refine (uncommitted_addFinding faults _).bind fun findingId => ?_
      refine (uncommitted_operation faults).bind fun _ => ?_
      refine (uncommitted_update fun _ => rfl).bind fun _ => ?_
      exact inductionHypothesis.bind fun count => Program.keeps_pure _

theorem uncommitted_copyScans (source : MergeSource) (scans : List Scan)
    (report : MergeReport) : Uncommitted out (copyScans faults source scans report) := by
  induction scans generalizing report with
  | nil => exact Program.keeps_pure report
  | cons scan rest inductionHypothesis =>
      refine Program.Keeps.bind ?_ fun copied => inductionHypothesis _
      refine (uncommitted_addScan faults _).bind fun newId => ?_
      refine (uncommitted_operation faults).bind fun _ => ?_
      exact (uncommitted_copyFindings faults _ _ _).bind fun count => Program.keeps_pure _

theorem uncommitted_mergeSources (sources : List MergeSource) (report : MergeReport)
    (latest : List Latest) :
    Uncommitted out (mergeSources faults sources report latest) := by
  induction sources generalizing report latest with
  | nil => exact Program.keeps_pure _
  | cons source rest inductionHypothesis =>
      refine (uncommitted_operation faults).bind fun _ => ?_
      refine (uncommitted_operation faults).bind fun _ => ?_
      exact (uncommitted_copyScans faults _ _ _).bind fun _ => inductionHypothesis _ _

theorem uncommitted_rollupSources (rollId : Nat) (latest : List Latest)
    (report : MergeReport) :
    Uncommitted out (rollupSources faults rollId latest report) := by
  induction latest generalizing report with
  | nil => exact Program.keeps_pure report
  | cons entry rest inductionHypothesis =>
      refine (uncommitted_operation faults).bind fun _ => ?_
      exact (uncommitted_copyFindings faults _ _ _).bind fun _ => inductionHypothesis _

/-- A program that fails leaves the committed store as it was. -/
abbrev RollsBack (out : Database) (program : Merge α) : Prop :=
  Program.Ensures (fun _ => True) (fun state => state.stored = out) program
    fun outcome state => ∀ error, outcome = .error error → state.stored = out

theorem Uncommitted.followedBy {program : Merge α} {next : α → Merge β}
    (first : Uncommitted out program) (rest : ∀ value, RollsBack out (next value)) :
    RollsBack out (program >>= next) :=
  Program.Ensures.bind first rest fun _ _ _ same _ _ => same

theorem rollsBack_commit (report : MergeReport) :
    RollsBack out (do commit faults; pure report) := by
  have commits : RollsBack out (commit faults) :=
    (uncommitted_operation faults).followedBy fun _ =>
      Program.ensures_update (fun _ _ => trivial) fun _ _ _ _ => nofun
  refine Program.Ensures.bind commits (fun _ => ?_) ?_
  · exact Program.ensures_pure fun _ _ _ _ => nofun
  · exact fun error _ _ meets _ _ => meets error rfl

/-- A merge that fails has committed nothing. -/
theorem rollsBack_mergeDbs (started finished : DateTime) (sources : List MergeSource)
    (rollup : Bool) :
    RollsBack out (mergeDbs faults started finished sources rollup) := by
  refine (uncommitted_mergeSources faults sources _ _).followedBy fun merged => ?_
  obtain ⟨report, latest⟩ := merged
  dsimp only
  split
  · refine (uncommitted_addScan faults _).followedBy fun rollId => ?_
    refine (uncommitted_rollupSources faults _ _ _).followedBy fun report => ?_
    exact rollsBack_commit faults _
  · exact rollsBack_commit faults _

end Rollback

/-! ## A merge without failures -/

section Total

variable (never : ∀ index, faults index = none)

include never

/-- The program returns, whatever the session holds. -/
def Returns (program : Merge α) : Prop :=
  ∀ state, ∃ value after, program.execute state = (.ok value, after)

omit never in
theorem returns_pure (value : α) : Returns (pure value : Merge α) :=
  fun state => ⟨value, state, rfl⟩

omit never in
theorem returns_update (change : MergeState → α × MergeState) :
    Returns (Program.update change : Merge α) :=
  fun state => ⟨_, _, Program.execute_update change state⟩

omit never in
theorem Returns.bind {program : Merge α} {next : α → Merge β} (first : Returns program)
    (rest : ∀ value, Returns (next value)) : Returns (program >>= next) := by
  intro state
  obtain ⟨value, middle, ran⟩ := first state
  obtain ⟨result, after, finished⟩ := rest value middle
  exact ⟨result, after, Program.execute_bind_eq_ok.mpr ⟨value, middle, ran, finished⟩⟩

theorem returns_operation : Returns (operation faults) := by
  intro state
  refine ⟨(), { state with operations := state.operations + 1 },
    Program.execute_bind_eq_ok.mpr ⟨none,
      { state with operations := state.operations + 1 }, ?_, rfl⟩⟩
  rw [Program.execute_update, never]

/-- A scan without a uuid and without a host can always be added. -/
theorem returns_addScan {scan : Scan} (anonymous : scan.scanUuid = none)
    (unowned : scan.hostId = none) : Returns (addScan faults scan) := by
  have accepted : ∀ db : Database, ∃ after, db.insertScan? scan = some after := by
    intro db
    unfold Database.insertScan?
    have known : ∀ hostId, scan.hostId = some hostId →
        ∃ host ∈ db.hosts.rows, host.id = hostId := by
      intro hostId refers
      rw [unowned] at refers
      cases refers
    rw [dif_pos known]
    split
    · next refused =>
      obtain ⟨other, _, clash⟩ := Table.insert?_eq_none_iff.mp refused
      change (other.scanUuid.isSome && other.scanUuid == scan.scanUuid) = true at clash
      rw [anonymous] at clash
      cases stated : other.scanUuid <;> simp [stated] at clash
    · exact ⟨_, rfl⟩
  intro state
  obtain ⟨_, middle, counted⟩ := returns_operation never state
  obtain ⟨session, inserted⟩ := accepted middle.session
  refine ⟨middle.session.scans.nextId, { middle with session }, ?_⟩
  refine Program.execute_bind_eq_ok.mpr ⟨_, middle, counted, ?_⟩
  refine Program.execute_bind_eq_ok.mpr
    ⟨some middle.session.scans.nextId, { middle with session }, ?_, rfl⟩
  rw [Program.execute_update, inserted]

theorem returns_copyFindings (src : Database) (copy : FindingRow → FindingRow)
    (rows : List FindingRow) : Returns (copyFindings faults src copy rows) := by
  induction rows with
  | nil => exact returns_pure 0
  | cons row rest inductionHypothesis =>
      have adds : Returns (addFinding faults (copy row)) :=
        (returns_operation never).bind fun _ => returns_update _
      refine adds.bind fun findingId => (returns_operation never).bind fun _ => ?_
      exact (returns_update _).bind fun _ =>
        inductionHypothesis.bind fun count => returns_pure _

theorem returns_copyScans (source : MergeSource) (scans : List Scan)
    (report : MergeReport) :
    Returns (copyScans faults source scans report) := by
  induction scans generalizing report with
  | nil => exact returns_pure report
  | cons scan rest inductionHypothesis =>
      refine Returns.bind ?_ fun copied => inductionHypothesis _
      refine (returns_addScan never rfl rfl).bind fun newId => ?_
      refine (returns_operation never).bind fun _ => ?_
      exact (returns_copyFindings never _ _ _).bind fun count => returns_pure _

theorem returns_mergeSources (sources : List MergeSource) (report : MergeReport)
    (latest : List Latest) : Returns (mergeSources faults sources report latest) := by
  induction sources generalizing report latest with
  | nil => exact returns_pure _
  | cons source rest inductionHypothesis =>
      refine (returns_operation never).bind fun _ =>
        (returns_operation never).bind fun _ => ?_
      exact (returns_copyScans never _ _ _).bind fun _ => inductionHypothesis _ _

theorem returns_rollupSources (rollId : Nat) (latest : List Latest)
    (report : MergeReport) :
    Returns (rollupSources faults rollId latest report) := by
  induction latest generalizing report with
  | nil => exact returns_pure report
  | cons entry rest inductionHypothesis =>
      refine (returns_operation never).bind fun _ => ?_
      exact (returns_copyFindings never _ _ _).bind fun _ => inductionHypothesis _

theorem returns_mergeDbs (started finished : DateTime) (sources : List MergeSource)
    (rollup : Bool) : Returns (mergeDbs faults started finished sources rollup) := by
  have commits : ∀ report : MergeReport, Returns (do commit faults; pure report) := by
    intro report
    have commits : Returns (commit faults) :=
      (returns_operation never).bind fun _ => returns_update _
    exact commits.bind fun _ => returns_pure report
  refine (returns_mergeSources never sources _ _).bind fun merged => ?_
  obtain ⟨report, latest⟩ := merged
  dsimp only
  split
  · refine (returns_addScan never rfl rfl).bind fun rollId => ?_
    exact (returns_rollupSources never _ _ _).bind fun report => commits _
  · exact commits _

end Total

/-! ## The result -/

/-- A merge that succeeds stores each scan of each source once, with its findings
and the views of each, and the rollup of the newest ones; a merge that fails
stores nothing, and only a failed operation makes it fail. -/
theorem merge_exact (faults : Faults) (out : Database) (started finished : DateTime)
    (sources : List MergeSource) (rollup : Bool) :
    (∀ report after,
      mergeInto faults out started finished sources rollup = (.ok report, after) →
        ∃ new roll copies linked,
          Merged started finished sources rollup out after new roll copies linked ∧
            ∀ scan, roll = some scan → report.rollupScanId = some scan.id) ∧
    (∀ (source : MergeSource) scan, lastDone (scansByStart source.db) = some scan ↔
      NewestFinished source.db scan) ∧
    (∀ error after,
      mergeInto faults out started finished sources rollup = (.error error, after) →
        after = out) ∧
    ((∀ index, faults index = none) → ∃ report after,
      mergeInto faults out started finished sources rollup = (.ok report, after)) := by
  refine ⟨fun _ _ => merged, fun _ _ => lastDone_iff, fun error after ran =>
    ?_, fun never => ?_⟩
  · unfold mergeInto at ran
    have rolled := (@rollsBack_mergeDbs faults out started finished sources rollup).holds
      ⟨out, out, 0⟩ trivial rfl
    exact Prod.mk.inj ran |>.2 ▸ rolled error (Prod.mk.inj ran).1
  · obtain ⟨report, state, ran⟩ :=
      returns_mergeDbs never started finished sources rollup ⟨out, out, 0⟩
    refine ⟨report, state.stored, ?_⟩
    unfold mergeInto
    rw [ran]

/-- A store whose one finding refers to a component. -/
def componentStore : Database where
  hosts := Table.empty
  scans := ⟨[{ rollupScan 0 0 0 with id := 1, label := none }], by simp, by simp⟩
  findings := Table.empty.add
    { copyRow 1 Dict.empty ⟨0, 1, none, "sbom", "RSA-2048", "tinggi", "high",
      "", Dict.empty,
        Dict.empty, 0⟩ with componentId := some 1 }
  views := Table.empty
  baselines := Table.empty
  components := Table.empty.add ⟨0, 1⟩
  edges := Table.empty
  hostStored := by simp [rollupScan]

/-- The copy of a finding refers to no component. -/
theorem component_not_copied :
    ¬ ∀ (faults : Faults) out started finished sources rollup report after,
      mergeInto faults out started finished sources rollup = (.ok report, after) →
        ∀ source ∈ sources, ∀ row ∈ source.db.findings, ∃ copy ∈ after.findings,
          copy = { row with id := copy.id, scanId := copy.scanId } := by
  intro always
  obtain ⟨report, state, ran⟩ := @returns_mergeDbs (fun _ => none) (fun _ => rfl) 0 0
    [⟨"web01", componentStore⟩] true ⟨Database.empty, Database.empty, 0⟩
  have copied := always (fun _ =>
    none) Database.empty 0 0 [⟨"web01", componentStore⟩] true report
    state.stored (by unfold mergeInto; rw [ran]) _ (List.mem_singleton_self _)
  have unlinked : ((mergeInto (fun _ =>
      none) Database.empty 0 0 [⟨"web01", componentStore⟩]
      true).2.findings.rows.all fun row => row.componentId == none) = true := by
    decide
  unfold mergeInto at unlinked
  rw [ran] at unlinked
  obtain ⟨copy, member, same⟩ := copied _ (List.mem_singleton_self _)
  have none := List.all_eq_true.mp unlinked copy member
  rw [same] at none
  cases none

end Merge
end Store
end PqcScan
