import PqcScan.Store.Baselines
import PqcScan.Store.Effect
import PqcScan.Store.Summary

/-!
# Retention and the latest view

A store that prunes a host after each ingest and one that never prunes go through
the same bundles.  The pruned store is the other one without the deleted scans,
among which there is never the newest done scan of a host, so both compute the
same drift and the same fleet summary.
-/

namespace PqcScan
namespace Store
namespace Repo

open Library Python PqcScan.Core

/-! ## What a prune keeps -/

/-- The newer scans of a host that are not baselined. -/
def newerUnmarked (db : Database) (hostId scanId : Nat) : List Scan :=
  (newerScans db hostId scanId).filter fun scan =>
    !(db.baselines.rows.map Baseline.scanId).contains scan.id

/-- The scan is baselined, among the newest `keep` scans that are not, or the
newest done one. -/
def Kept (keep : Nat) (db : Database) (hostId : Nat) (scan : Scan) : Prop :=
  Baselined db scan.id ∨ (newerUnmarked db hostId scan.id).length < keep ∨
    latestDone db hostId = some scan

theorem baselined_iff {db : Database} {scanId : Nat} :
    Baselined db scanId ↔ scanId ∈ db.baselines.rows.map Baseline.scanId := by
  rw [List.mem_map]
  rfl

/-- A prune selects the scans of the host it does not have to keep. -/
theorem mem_pruneVictims_iff {db : Database} {hostId keep : Nat} {scan : Scan}
    (member : scan ∈ db.scans) (owned : scan.hostId = some hostId) :
    scan.id ∈ pruneVictims db hostId keep ↔ ¬ Kept keep db hostId scan := by
  have listed : scan ∈ scansOf db hostId := mem_scansOf.mpr ⟨member, owned⟩
  have newest : some scan.id ≠ (latestDone db hostId).map Scan.id ↔
      latestDone db hostId ≠ some scan := by
    rw [not_iff_not, eq_comm, Option.map_eq_some_iff]
    constructor
    · rintro ⟨other, latest, same⟩
      rw [latest, Table.eq_of_id_eq (latestDone_mem latest).1 member same]
    · exact fun latest => ⟨scan, latest, rfl⟩
  by_cases marked : Baselined db scan.id
  · have spared := baselined_not_mem_pruneVictims marked hostId keep
    simp [Kept, marked, spared]
  · have unmarked : (db.baselines.rows.map Baseline.scanId).contains scan.id = false := by
      simpa using mt baselined_iff.mpr marked
    have descending : ((((scansOf db hostId).map Scan.id).filter
        (!(db.baselines.rows.map Baseline.scanId).contains ·)).reverse).Pairwise
          fun left right => right < left :=
      List.pairwise_reverse.mpr (List.Pairwise.filter _
        (List.pairwise_map.mpr (scansOf_ascending db hostId)))
    have candidate : scan.id ∈ (((scansOf db hostId).map Scan.id).filter
        (!(db.baselines.rows.map Baseline.scanId).contains ·)).reverse := by
      rw [List.mem_reverse, List.mem_filter]
      exact ⟨List.mem_map_of_mem listed, by rw [unmarked]; rfl⟩
    have ranked := mem_drop_iff descending (fun _ => Nat.lt_irrefl _)
      (fun _ _ below above => Nat.lt_asymm below above) candidate
      (fun other => decide (scan.id < other)) (fun _ => decide_eq_true_iff) keep
    have counted : ((((scansOf db hostId).map Scan.id).filter
        (!(db.baselines.rows.map Baseline.scanId).contains ·)).reverse.filter
          fun other => decide (scan.id < other)).length =
            (newerUnmarked db hostId scan.id).length := by
      rw [List.filter_reverse, List.length_reverse, newerUnmarked, newerScans,
        List.filter_map, List.filter_map, List.length_map, List.filter_filter,
        List.filter_filter]
      congr 1
      exact List.filter_congr fun other _ => Bool.and_comm _ _
    rw [counted] at ranked
    unfold pruneVictims
    dsimp only
    rw [List.mem_filter, ranked, bne_iff_ne, newest]
    simp [Kept, marked]

/-- What a prune of a host down to `keep` scans leaves. -/
structure PrunedTo (keep hostId : Nat) (before after : Database) : Prop where
  own : ∀ scan, scan.hostId = some hostId →
    (scan ∈ after.scans ↔ scan ∈ before.scans ∧ Kept keep before hostId scan)
  others : ∀ scan, scan.hostId ≠ some hostId →
    (scan ∈ after.scans ↔ scan ∈ before.scans)

theorem prunedTo_deleteScans (db : Database) (hostId keep : Nat) :
    PrunedTo keep hostId db (deleteScans db (pruneVictims db hostId keep)) := by
  refine ⟨fun scan owned => ?_, fun scan foreign => ?_⟩
  · rw [mem_deleteScans]
    exact and_congr_right fun member => by
      rw [mem_pruneVictims_iff member owned, not_not]
  · rw [mem_deleteScans]
    refine and_iff_left_of_imp fun member victim => ?_
    obtain ⟨⟨other, stored, same, owned⟩, _⟩ := mem_pruneVictims victim
    rw [Table.eq_of_id_eq stored member same] at owned
    exact foreign owned

/-! ## A store without its deleted scans -/

/-- `thin` is `full` without the deleted scans and their findings; no newest done
scan and not the newest scan of all is deleted. -/
structure Thinned (deleted : List Nat) (full thin : Database) : Prop where
  hosts : thin.hosts = full.hosts
  scans : thin.scans.rows = full.scans.rows.filter fun scan => !deleted.contains scan.id
  findings : thin.findings.rows.map forgetId =
    (full.findings.rows.map forgetId).filter fun row => !deleted.contains row.scanId
  spared : ∀ hostId newest, latestDone full hostId = some newest → newest.id ∉ deleted
  nextId : thin.scans.nextId = full.scans.nextId
  past : ∀ scanId ∈ deleted, scanId < full.scans.nextId

/-- No scan of the store has the uuid. -/
def Fresh (db : Database) (scanUuid : String) : Prop :=
  ∀ scan ∈ db.scans, scan.scanUuid ≠ some scanUuid

theorem thinned_nil (db : Database) : Thinned [] db db where
  hosts := rfl
  scans := by simp
  findings := by simp
  spared := by simp
  nextId := rfl
  past := by simp

theorem getScanIdByUuid_of_fresh {db : Database} {scanUuid : String}
    (fresh : Fresh db scanUuid) : getScanIdByUuid db scanUuid = none := by
  rw [getScanIdByUuid, Option.map_eq_none_iff, List.find?_eq_none]
  intro scan member
  simpa using fresh scan member

/-- Drift depends on whether the uuid is stored and on the findings
of the newest done scan. -/
theorem bundleDrift_congr {left right : Database} {hostId : Nat} (py : Runtime)
    (now : Nat → DateTime) {bundle : ScanBundle}
    (known : (getScanIdByUuid left bundle.scanUuid).isSome =
      (getScanIdByUuid right bundle.scanUuid).isSome)
    (latestEq : latestDone left hostId = latestDone right hostId)
    (findings : ∀ scan, latestDone right hostId = some scan →
      findingsOf left scan.id = findingsOf right scan.id) :
    bundleDrift py now left bundle hostId = bundleDrift py now right bundle hostId := by
  have parity : ∀ db scanId, (db.findings.rows.filter (·.scanId == scanId)).map
      storedParityRow = (findingsOf db scanId).map storedParityRow := by
    intro db scanId
    rw [findingsOf, List.map_map]
    rfl
  unfold bundleDrift
  rw [known, latestEq]
  dsimp only
  split
  · rfl
  · split
    · rfl
    · cases latest : latestDone right hostId with
      | none => rfl
      | some previous => simp only [parity, findings previous latest]

namespace Thinned

variable {deleted : List Nat} {full thin : Database}

theorem latestDone_eq (thinned : Thinned deleted full thin) (hostId : Nat) :
    latestDone thin hostId = latestDone full hostId := by
  apply latestDone_of_filter thinned.scans
  intro newest latest
  simpa using thinned.spared hostId newest latest

theorem findingsOf_eq (thinned : Thinned deleted full thin) {scanId : Nat}
    (spared : scanId ∉ deleted) : findingsOf thin scanId = findingsOf full scanId := by
  rw [Repo.findingsOf_eq, Repo.findingsOf_eq, thinned.findings, List.filter_filter]
  apply List.filter_congr
  intro row _
  by_cases same : row.scanId = scanId
  · simp [same, spared]
  · simp [same]

theorem fresh (thinned : Thinned deleted full thin) {scanUuid : String}
    (fresh : Fresh full scanUuid) : Fresh thin scanUuid := by
  intro scan member
  rw [Table.mem_iff, thinned.scans] at member
  exact fresh scan (List.mem_of_mem_filter member)

/-! ### The reads -/

/-- Both stores have one fleet summary. -/
theorem fleetSummary_eq (thinned : Thinned deleted full thin) (lower : String → String) :
    fleetSummary lower thin = fleetSummary lower full :=
  fleetSummary_congr lower thinned.hosts thinned.latestDone_eq fun hostId scan latest =>
    thinned.findingsOf_eq (thinned.spared hostId scan latest)

/-- Both stores compute one drift for a bundle. -/
theorem bundleDrift_eq (thinned : Thinned deleted full thin) (py : Runtime)
    (now : Nat → DateTime) {bundle : ScanBundle} (fresh : Fresh full bundle.scanUuid)
    (hostId : Nat) :
    bundleDrift py now thin bundle hostId = bundleDrift py now full bundle hostId :=
  bundleDrift_congr py now
    (by rw [getScanIdByUuid_of_fresh (thinned.fresh fresh), getScanIdByUuid_of_fresh fresh])
    (thinned.latestDone_eq hostId)
    fun scan latest => thinned.findingsOf_eq (thinned.spared hostId scan latest)

/-- Both stores pass or refuse a new uuid alike. -/
theorem duplicateCheck_eq (thinned : Thinned deleted full thin) {bundle : ScanBundle}
    (fresh : Fresh full bundle.scanUuid) (hostId : Nat) :
    duplicateCheck thin bundle hostId = duplicateCheck full bundle hostId := by
  have unknown : ∀ db, Fresh db bundle.scanUuid →
      db.scans.rows.find? (·.scanUuid == some bundle.scanUuid) = none := by
    intro db fresh
    rw [List.find?_eq_none]
    intro scan member
    simpa using fresh scan member
  unfold duplicateCheck getHost
  rw [thinned.hosts, unknown thin (thinned.fresh fresh), unknown full fresh]

end Thinned

/-! ### The write -/

theorem storeViews_agree (py : Runtime) (listed : List Json) (left right : Nat)
    (leftViews rightViews : Table FrameworkView) :
    Agree (fun _ _ => True) (storeViews py left listed leftViews)
      (storeViews py right listed rightViews) := by
  induction listed generalizing leftViews rightViews with
  | nil => trivial
  | cons view rest inductionHypothesis =>
      have rows : Agree (fun _ _ => True) (viewRow py left view)
          (viewRow py right view) := by
        unfold viewRow
        refine (Agree.refl (view.subscript "framework")).bind fun _ framework same => ?_
        refine (Agree.refl (view.subscript "clause")).bind fun _ clause same => ?_
        refine (Agree.refl (view.subscript "verdict")).bind fun _ verdict same => ?_
        refine (Agree.refl (viewDeadline py view)).bind fun _ deadline same => ?_
        trivial
      exact rows.bind fun _ _ _ => inductionHypothesis _ _

theorem scanId_findingRow {py : Runtime} {now : DateTime} {scanId : Nat}
    {finding : JsonObject} {row : FindingRow}
    (made : findingRow py now scanId finding = .ok row) : row.scanId = scanId := by
  simp only [findingRow, bind_eq_ok, Except.ok.injEq] at made
  obtain ⟨_, _, _, _, _, _, rfl⟩ := made
  rfl

/-- The outer loop adds the same rows to any tables. -/
theorem storeFindings_agree (py : Runtime) (now : Nat → DateTime) (scanId : Nat)
    (listed : List JsonObject) (nF nV : Nat) (left right : Table FindingRow)
    (leftViews rightViews : Table FrameworkView) :
    Agree
      (fun leftStored rightStored => leftStored.2.2 = rightStored.2.2 ∧
        ∃ new : List FindingRow, (∀ row ∈ new, row.scanId = scanId) ∧
          leftStored.1.rows.map forgetId = left.rows.map forgetId ++ new ∧
          rightStored.1.rows.map forgetId = right.rows.map forgetId ++ new)
      (storeFindings py now scanId listed nF nV left leftViews)
      (storeFindings py now scanId listed nF nV right rightViews) := by
  induction listed generalizing nF nV left right leftViews rightViews with
  | nil => exact ⟨rfl, [], by simp, by simp, by simp⟩
  | cons finding rest inductionHypothesis =>
      have rows : Agree (fun left right => left = right ∧ left.scanId = scanId)
          (findingRow py (now (nF + 1)) scanId finding)
          (findingRow py (now (nF + 1)) scanId finding) := by
        cases made : findingRow py (now (nF + 1)) scanId finding with
        | error error => rfl
        | ok row => exact ⟨rfl, scanId_findingRow made⟩
      unfold storeFindings
      refine rows.bind fun row _ made => ?_
      obtain ⟨rfl, owned⟩ := made
      refine (Agree.refl (listedViews finding)).bind fun views _ same => ?_
      subst same
      refine (storeViews_agree py views _ _ _ _).bind fun leftAfter rightAfter _ => ?_
      have later := inductionHypothesis (nF + 1) (nV + views.length) (left.add row)
        (right.add row) leftAfter rightAfter
      refine later.mono fun leftStored rightStored stored => ?_
      obtain ⟨counts, new, ownedNew, leftRows, rightRows⟩ := stored
      refine ⟨counts, forgetId row :: new, ?_, ?_, ?_⟩
      · rintro other (_ | ⟨_, later⟩)
        · exact owned
        · exact ownedNew other later
      · rw [leftRows, Table.rows_add, List.map_append, List.append_assoc]
        rfl
      · rw [rightRows, Table.rows_add, List.map_append, List.append_assoc]
        rfl

/-- The drift rows are the same in any table. -/
theorem storeDrift_forgetId (scanId : Nat) (drift : List Finding)
    (findings : Table FindingRow) :
    (storeDrift scanId drift findings).rows.map forgetId =
      findings.rows.map forgetId ++ drift.map (driftFindingRow scanId) := by
  induction drift generalizing findings with
  | nil => simp [storeDrift]
  | cons finding rest inductionHypothesis =>
      rw [storeDrift, List.foldl_cons, ← storeDrift, inductionHypothesis, Table.rows_add,
        List.map_append, List.append_assoc]
      rfl

/-- A scan with a new uuid and a stored host is accepted. -/
theorem insertScan?_of_fresh {db : Database} {scan : Scan} {scanUuid : String}
    {host : Host}
    (fresh : Fresh db scanUuid) (stored : host ∈ db.hosts)
    (owned : scan.hostId = some host.id) (named : scan.scanUuid = some scanUuid) :
    ∃ after, db.insertScan? scan = some after := by
  rw [← Option.isSome_iff_exists, ← Option.ne_none_iff_isSome, Ne,
    Database.insertScan?_eq_none_iff]
  · rintro ⟨other, member, clash⟩
    exact fresh other member ((scan_clash_iff named).mp clash)
  · intro hostId refers
    exact ⟨host, stored, Option.some_inj.mp (owned.symm.trans refers)⟩

/-- A new scan is the newest done one of its host, or changes none. -/
theorem latestDone_of_append {before after : Database} {scan newest : Scan} {hostId : Nat}
    (rows : after.scans.rows = before.scans.rows ++ [scan])
    (latest : latestDone after hostId = some newest) :
    newest = scan ∨ latestDone before hostId = some newest := by
  obtain ⟨member, owned, done⟩ := latestDone_mem latest
  rw [Table.mem_iff, rows, List.mem_append, List.mem_singleton] at member
  refine member.symm.imp_right fun earlier => ?_
  apply latestDone_eq_some earlier owned done
  intro newer later newerDone
  rw [newerScans, List.mem_filter, mem_scansOf, decide_eq_true_iff] at later
  have stored : newer ∈ after.scans := by
    rw [Table.mem_iff, rows]
    exact List.mem_append_left _ later.1.1
  have bounded := le_latestDone latest stored later.1.2 newerDone
  omega

/-- Both stores get the same scan with the same findings. -/
theorem Thinned.append {deleted : List Nat} {full thin fullAfter thinAfter : Database}
    (thinned : Thinned deleted full thin) (scan : Scan) (new : List FindingRow)
    (next : scan.id = full.scans.nextId) (owned : ∀ row ∈ new, row.scanId = scan.id)
    (hosts : thinAfter.hosts = fullAfter.hosts)
    (fullScans : fullAfter.scans.rows = full.scans.rows ++ [scan])
    (thinScans : thinAfter.scans.rows = thin.scans.rows ++ [scan])
    (fullFindings : fullAfter.findings.rows.map forgetId =
      full.findings.rows.map forgetId ++ new)
    (thinFindings : thinAfter.findings.rows.map forgetId =
      thin.findings.rows.map forgetId ++ new) :
    Thinned deleted fullAfter thinAfter := by
  have kept : scan.id ∉ deleted := fun member =>
    absurd (thinned.past scan.id member) (by omega)
  have fullNext := Table.nextId_of_insertion fullScans next
  have thinNext := Table.nextId_of_insertion thinScans (next.trans thinned.nextId.symm)
  constructor
  · exact hosts
  · rw [thinScans, fullScans, thinned.scans, List.filter_append]
    simp [kept]
  · have newKept : new.filter (fun row => !deleted.contains row.scanId) = new := by
      rw [List.filter_eq_self]
      intro row member
      simpa [owned row member] using kept
    rw [thinFindings, fullFindings, thinned.findings, List.filter_append, newKept]
  · intro hostId newest latest
    rcases latestDone_of_append fullScans latest with rfl | earlier
    · exact kept
    · exact thinned.spared hostId newest earlier
  · rw [fullNext, thinNext]
  · intro scanId member
    have before := thinned.past scanId member
    rw [fullNext]
    change scanId < scan.id + 1
    omega

/-- What the write of one bundle does to two stores that differ in deleted scans. -/
structure WrittenAlike (deleted : List Nat) (hostId : Nat)
    (full thin : Database × IngestResult) : Prop where
  result : thin.2 = full.2
  thinned : Thinned deleted full.1 thin.1

theorem Thinned.writeBundle {deleted : List Nat} {full thin : Database}
    (thinned : Thinned deleted full thin) (py : Runtime) (now : Nat → DateTime)
    {bundle : ScanBundle} (fresh : Fresh full bundle.scanUuid) {host : Host}
    (stored : host ∈ full.hosts) (drift : List Finding) (changes : Nat) :
    Agree (WrittenAlike deleted host.id)
      (writeBundle py now full bundle host drift changes)
      (writeBundle py now thin bundle host drift changes) := by
  unfold Repo.writeBundle
  cases made : scanRow py (now 0) bundle host.id with
  | error error => rfl
  | ok scan =>
      obtain ⟨owned, named, _, _⟩ := scanRow_columns made
      have thinStored : host ∈ thin.hosts := by rwa [thinned.hosts]
      obtain ⟨fullInserted, fullAccepted⟩ := insertScan?_of_fresh fresh stored owned named
      obtain ⟨thinInserted, thinAccepted⟩ :=
        insertScan?_of_fresh (thinned.fresh fresh) thinStored owned named
      have fullEffect := Database.scanInserted fullAccepted
      have thinEffect := Database.scanInserted thinAccepted
      have agree := storeFindings_agree py now full.scans.nextId bundle.findings 0 0
        full.findings thin.findings full.views thin.views
      dsimp only
      rw [fullAccepted, thinAccepted, thinned.nextId]
      dsimp only
      revert agree
      rcases storeFindings py now full.scans.nextId bundle.findings 0 0 full.findings
        full.views with error | ⟨fullFindings, fullViews, fullF, fullV⟩ <;>
      rcases storeFindings py now full.scans.nextId bundle.findings 0 0 thin.findings
        thin.views with thinError | ⟨thinFindings, thinViews, thinF, thinV⟩ <;>
      intro agree
      · obtain rfl := agree
        rfl
      · exact agree.elim
      · exact agree.elim
      · obtain ⟨counts, new, ownedNew, fullRows, thinRows⟩ := agree
        obtain ⟨rfl, rfl⟩ := Prod.mk.inj counts
        refine ⟨rfl, thinned.append { scan with id := full.scans.nextId }
          (new ++ drift.map (driftFindingRow full.scans.nextId)) rfl ?_ ?_
          fullEffect.scans ?_ ?_ ?_⟩
        · intro row member
          rcases List.mem_append.mp member with agent | derived
          · exact ownedNew row agent
          · obtain ⟨finding, _, rfl⟩ := List.mem_map.mp derived
            rfl
        · simp only [refreshHost, Database.updateHost, thinEffect.hosts, fullEffect.hosts,
            thinned.hosts]
        · have rows := thinEffect.scans
          rw [thinned.nextId] at rows
          exact rows
        · change (storeDrift full.scans.nextId drift fullFindings).rows.map forgetId = _
          rw [storeDrift_forgetId, fullRows, List.append_assoc]
        · change (storeDrift full.scans.nextId drift thinFindings).rows.map forgetId = _
          rw [storeDrift_forgetId, thinRows, List.append_assoc]

/-! ### Whole calls -/

namespace Thinned

variable {deleted : List Nat} {full thin : Database}

/-- An ingest answers alike and leaves the stores alike. -/
theorem ingestBundle (thinned : Thinned deleted full thin) (py : Runtime)
    (now : Nat → DateTime) {bundle : ScanBundle} (fresh : Fresh full bundle.scanUuid)
    (hostId : Nat) :
    (Repo.ingestBundle py now thin bundle hostId).2 =
        (Repo.ingestBundle py now full bundle hostId).2 ∧
      Thinned deleted (Repo.ingestBundle py now full bundle hostId).1
        (Repo.ingestBundle py now thin bundle hostId).1 := by
  unfold Repo.ingestBundle
  rw [thinned.bundleDrift_eq py now fresh, thinned.duplicateCheck_eq fresh]
  rcases bundleDrift py now full bundle hostId with error | ⟨drift, changes⟩
  · exact ⟨rfl, thinned⟩
  · dsimp only
    rcases checked : duplicateCheck full bundle hostId with error | ⟨host, found⟩
    · exact ⟨rfl, thinned⟩
    · cases found with
      | some scanId => exact ⟨rfl, thinned⟩
      | none =>
          have stored := (duplicateCheck_ok checked).1.1
          have agree := thinned.writeBundle py now fresh stored drift changes
          dsimp only
          revert agree
          rcases Repo.writeBundle py now full bundle host drift changes
            with error | ⟨fullAfter, fullResult⟩ <;>
          rcases Repo.writeBundle py now thin bundle host drift changes
            with thinError | ⟨thinAfter, thinResult⟩ <;>
          intro agree
          · exact ⟨congrArg Except.error agree.symm, thinned⟩
          · exact agree.elim
          · exact agree.elim
          · exact ⟨congrArg Except.ok agree.result, agree.thinned⟩

/-- A prune only deletes more scans. -/
theorem prune (thinned : Thinned deleted full thin) (hostId : Nat) {keep : Nat}
    (large : 1 ≤ keep) :
    Thinned (deleted ++ pruneVictims thin hostId keep) full
      (deleteScans thin (pruneVictims thin hostId keep)) := by
  constructor
  · rw [hosts_deleteScans, thinned.hosts]
  · rw [scans_deleteScans, thinned.scans, List.filter_filter]
    apply List.filter_congr
    intro scan _
    simp [Bool.and_comm]
  · have commuted : ((thin.findings.rows.filter fun row =>
        !(pruneVictims thin hostId keep).contains row.scanId).map forgetId) =
          (thin.findings.rows.map forgetId).filter fun row =>
            !(pruneVictims thin hostId keep).contains row.scanId := by
      rw [List.filter_map]
      rfl
    rw [findings_deleteScans, commuted, thinned.findings, List.filter_filter]
    apply List.filter_congr
    intro row _
    simp [Bool.and_comm]
  · intro other newest latest member
    rcases List.mem_append.mp member with earlier | victim
    · exact thinned.spared other newest latest earlier
    · have thinLatest := (thinned.latestDone_eq other).trans latest
      obtain ⟨stored, owned, _⟩ := latestDone_mem thinLatest
      obtain ⟨⟨scan, scanStored, same, scanOwned⟩, _, notNewest⟩ :=
        mem_pruneVictims victim
      obtain rfl := Table.eq_of_id_eq scanStored stored same
      rw [owned, Option.some_inj] at scanOwned
      subst scanOwned
      rw [thinLatest] at notNewest
      exact notNewest rfl
  · have filtered : (deleteScans thin (pruneVictims thin hostId keep)).scans =
        thin.scans.filter fun scan => !(pruneVictims thin hostId keep).contains scan.id :=
      Table.ext (scans_deleteScans _ _)
    rw [filtered, Table.nextId_filter, thinned.nextId]
    intro scan member dropped
    have victim : scan.id ∈ pruneVictims thin hostId keep := by simpa using dropped
    obtain ⟨_, many, _⟩ := mem_pruneVictims victim
    obtain ⟨newer, later⟩ := List.exists_mem_of_length_pos (large.trans many)
    rw [newerScans, List.mem_filter, mem_scansOf, decide_eq_true_iff] at later
    exact ⟨newer, later.1.1, later.2⟩
  · intro scanId member
    rcases List.mem_append.mp member with earlier | victim
    · exact thinned.past scanId earlier
    · obtain ⟨⟨scan, stored, rfl, _⟩, _⟩ := mem_pruneVictims victim
      rw [← thinned.nextId]
      exact Table.id_lt_nextId stored

/-- Only hosts, scans and findings matter. -/
theorem congr {fullAfter thinAfter : Database} (thinned : Thinned deleted full thin)
    (fullHosts : fullAfter.hosts = full.hosts) (fullScans : fullAfter.scans = full.scans)
    (fullFindings : fullAfter.findings = full.findings)
    (thinHosts : thinAfter.hosts = thin.hosts) (thinScans : thinAfter.scans = thin.scans)
    (thinFindings : thinAfter.findings = thin.findings) :
    Thinned deleted fullAfter thinAfter where
  hosts := by rw [thinHosts, fullHosts, thinned.hosts]
  scans := by rw [thinScans, fullScans, thinned.scans]
  findings := by rw [thinFindings, fullFindings, thinned.findings]
  spared hostId newest latest := by
    unfold latestDone scansOf at latest
    rw [fullScans] at latest
    exact thinned.spared hostId newest latest
  nextId := by rw [thinScans, fullScans, thinned.nextId]
  past := by rw [fullScans]; exact thinned.past

end Thinned

/-! ## Sequences of bundles and baselines -/

/-- A bundle of a host, or a baseline. -/
inductive ViewEvent
  | ingest (now : Nat → DateTime) (bundle : ScanBundle) (hostId : Nat)
  | baseline (now : DateTime) (scanId : Nat) (label : String) (notes : Option String)

/-- The uuid of a bundle. -/
def ViewEvent.scanUuid? : ViewEvent → Option String
  | .ingest _ bundle _ => some bundle.scanUuid
  | .baseline .. => none

/-- A call of `create_baseline` that may fail. -/
def withBaseline (now : DateTime) (db : Database) (scanId : Nat) (label : String)
    (notes : Option String) : Database :=
  match createBaseline now db scanId label notes with
  | .error _ => db
  | .ok (after, _) => after

/-- A call of `prune_host` that may fail. -/
def withPrune (db : Database) (hostId keep : Nat) : Database :=
  match pruneHost db hostId keep with
  | .error _ => db
  | .ok (after, _) => after

/-- One event without retention. -/
def unpruned (py : Runtime) (db : Database) : ViewEvent → Database
  | .ingest now bundle hostId => (ingestBundle py now db bundle hostId).1
  | .baseline now scanId label notes => withBaseline now db scanId label notes

/-- One event, with `prune_host` after each ingest. -/
def pruned (py : Runtime) (keep : Nat) (db : Database) : ViewEvent → Database
  | .ingest now bundle hostId =>
      withPrune (ingestBundle py now db bundle hostId).1 hostId keep
  | .baseline now scanId label notes => withBaseline now db scanId label notes

theorem withPrune_eq {keep : Nat} (large : 1 ≤ keep) (db : Database) (hostId : Nat) :
    withPrune db hostId keep = deleteScans db (pruneVictims db hostId keep) := by
  rw [withPrune, pruneHost, if_neg (Nat.not_lt.mpr large)]

/-- A baseline touches one table. -/
theorem withBaseline_only (now : DateTime) (db : Database) (scanId : Nat) (label : String)
    (notes : Option String) :
    (withBaseline now db scanId label notes).hosts = db.hosts ∧
      (withBaseline now db scanId label notes).scans = db.scans ∧
      (withBaseline now db scanId label notes).findings = db.findings := by
  unfold withBaseline createBaseline
  cases db.scans.get? scanId <;> exact ⟨rfl, rfl, rfl⟩

/-- The two stores stay alike. -/
theorem Thinned.step {deleted : List Nat} {full thin : Database}
    (thinned : Thinned deleted full thin) (py : Runtime) {keep : Nat} (large : 1 ≤ keep)
    (event : ViewEvent)
    (fresh : ∀ scanUuid, event.scanUuid? = some scanUuid → Fresh full scanUuid) :
    ∃ deletedAfter, Thinned deletedAfter (unpruned py full event)
    (pruned py keep thin event) := by
  cases event with
  | ingest now bundle hostId =>
      have alike := (thinned.ingestBundle py now (fresh _ rfl) hostId).2
      have after := alike.prune hostId large
      rw [← withPrune_eq large] at after
      exact ⟨_, after⟩
  | baseline now scanId label notes =>
      obtain ⟨fullHosts, fullScans, fullFindings⟩ :=
        withBaseline_only now full scanId label notes
      obtain ⟨thinHosts, thinScans, thinFindings⟩ :=
        withBaseline_only now thin scanId label notes
      exact ⟨deleted, thinned.congr fullHosts fullScans fullFindings thinHosts thinScans
        thinFindings⟩

/-- A uuid that no bundle carries stays fresh. -/
theorem fresh_unpruned {py : Runtime} {db : Database} {scanUuid : String}
    (fresh : Fresh db scanUuid) {event : ViewEvent}
    (different : event.scanUuid? ≠ some scanUuid) :
    Fresh (unpruned py db event) scanUuid := by
  cases event with
  | ingest now bundle hostId =>
      rcases ingestBundle_cases (Prod.mk.eta.symm :
        Repo.ingestBundle py now db bundle hostId = _)
        with ⟨same, _⟩ | ⟨same, _⟩ | ⟨host, _, _, _, _, _, scan, _, _, _, _, written, _⟩
      · simpa only [unpruned, same] using fresh
      · simpa only [unpruned, same] using fresh
      · intro other member carried
        rw [Table.mem_iff, unpruned, written.scans, List.mem_append,
          List.mem_singleton] at member
        rcases member with earlier | rfl
        · exact fresh other earlier carried
        · rw [written.scanUuid] at carried
          exact different carried
  | baseline now scanId label notes =>
      intro scan member
      rw [unpruned, Table.mem_iff,
        (withBaseline_only now db scanId label notes).2.1] at member
      exact fresh scan member

/-- The two runs, and the uuids that are still fresh. -/
theorem thinned_run (py : Runtime) {keep : Nat} (large : 1 ≤ keep) {start : Database}
    {past : List ViewEvent} {later : List String}
    (distinct : (past.filterMap ViewEvent.scanUuid? ++ later).Nodup)
    (fresh : ∀ scanUuid ∈ past.filterMap ViewEvent.scanUuid? ++ later,
      Fresh start scanUuid) :
    (∃ deleted, Thinned deleted (past.foldl (unpruned py) start)
        (past.foldl (pruned py keep) start)) ∧
      ∀ scanUuid ∈ later, Fresh (past.foldl (unpruned py) start) scanUuid := by
  induction past using List.reverseRecOn generalizing later with
  | nil => exact ⟨⟨[], thinned_nil start⟩, by simpa using fresh⟩
  | append_singleton past event inductionHypothesis =>
      have split : (past ++ [event]).filterMap ViewEvent.scanUuid? ++ later =
          past.filterMap ViewEvent.scanUuid? ++ (event.scanUuid?.toList ++ later) := by
        cases named : event.scanUuid? <;> simp [named]
      rw [split] at distinct fresh
      obtain ⟨⟨deleted, thinned⟩, still⟩ := inductionHypothesis distinct fresh
      rw [List.foldl_append, List.foldl_append]
      constructor
      · apply thinned.step py large event
        intro scanUuid named
        exact still scanUuid (by simp [named])
      · intro scanUuid member
        apply fresh_unpruned (still scanUuid (List.mem_append_right _ member))
        intro named
        have own := (List.nodup_append.mp distinct).2.1
        rw [named] at own
        exact (List.nodup_cons.mp own).1 member

/-! ## Every host keeps what it should -/

/-- Every host has only scans it has to keep. -/
def Trimmed (keep : Nat) (db : Database) : Prop :=
  ∀ scan ∈ db.scans, ∀ hostId, scan.hostId = some hostId → Kept keep db hostId scan

/-- A scan is kept as long as its mark, the newer scans and the
newest done scan allow it. -/
theorem Kept.mono {keep hostId : Nat} {before after : Database} {scan : Scan}
    (kept : Kept keep before hostId scan)
    (marks : Baselined before scan.id → Baselined after scan.id)
    (newer : (newerUnmarked after hostId scan.id).length ≤
      (newerUnmarked before hostId scan.id).length)
    (latest : latestDone before hostId = some scan →
      latestDone after hostId = some scan) :
    Kept keep after hostId scan := by
  rcases kept with marked | ranked | newest
  · exact Or.inl (marks marked)
  · exact Or.inr (Or.inl (newer.trans_lt ranked))
  · exact Or.inr (Or.inr (latest newest))

theorem trimmed_withBaseline {keep : Nat} {db : Database} (trimmed : Trimmed keep db)
    (now : DateTime) (scanId : Nat) (label : String) (notes : Option String) :
    Trimmed keep (withBaseline now db scanId label notes) := by
  unfold withBaseline createBaseline
  cases db.scans.get? scanId with
  | none => exact trimmed
  | some stored =>
      intro scan member hostId owned
      refine (trimmed scan member hostId owned).mono ?_ ?_ id
      · rintro ⟨row, marked, same⟩
        exact ⟨row, List.mem_append_left _ marked, same⟩
      · apply (List.monotone_filter_right _ _).length_le
        intro newer
        simp only [Table.rows_add, List.map_append, Bool.not_eq_true',
          List.contains_eq_mem, decide_eq_false_iff_not, List.mem_append, not_or]
        exact And.left

/-- Every host but one has only scans it has to keep. -/
def TrimmedExcept (keep hostId : Nat) (db : Database) : Prop :=
  ∀ scan ∈ db.scans, ∀ other, scan.hostId = some other → other ≠ hostId →
    Kept keep db other scan

/-- An ingest of one host leaves the other hosts trimmed. -/
theorem trimmedExcept_ingestBundle {keep : Nat} {db : Database}
    (trimmed : Trimmed keep db) (py : Runtime) (now : Nat → DateTime)
    (bundle : ScanBundle) (hostId : Nat) :
    TrimmedExcept keep hostId (ingestBundle py now db bundle hostId).1 := by
  intro scan member other owned different
  rcases ingestBundle_cases (Prod.mk.eta.symm : ingestBundle py now db bundle hostId = _)
    with ⟨same, _⟩ | ⟨same, _⟩ |
      ⟨host, _, rfl, _, _, _, added, _, _, _, _, written, _⟩
  · rw [same] at member ⊢
    exact trimmed scan member other owned
  · rw [same] at member ⊢
    exact trimmed scan member other owned
  · have scansEq : scansOf (ingestBundle py now db bundle host.id).1 other =
        scansOf db other := by
      have foreign : (added.hostId == some other) = false := by
        rw [written.scanHost]
        simpa using different.symm
      rw [scansOf, scansOf, written.scans, List.filter_append]
      simp [foreign]
    rw [Table.mem_iff, written.scans, List.mem_append, List.mem_singleton] at member
    rcases member with earlier | rfl
    · refine (trimmed scan earlier other owned).mono ?_ ?_ ?_
      · unfold Baselined
        rw [written.baselines]
        exact id
      · rw [newerUnmarked, newerUnmarked, newerScans, newerScans, scansEq,
          written.baselines]
      · rw [latestDone, latestDone, scansEq]
        exact id
    · rw [written.scanHost, Option.some_inj] at owned
      exact absurd owned.symm different

/-- A prune trims its host and leaves the others trimmed. -/
theorem trimmed_prune {keep hostId : Nat} {db : Database}
    (trimmed : TrimmedExcept keep hostId db) :
    Trimmed keep (deleteScans db (pruneVictims db hostId keep)) := by
  intro scan member other owned
  have before : Kept keep db other scan := by
    by_cases same : other = hostId
    · subst same
      exact (((prunedTo_deleteScans db other keep).own scan owned).mp member).2
    · exact trimmed scan (mem_deleteScans.mp member).1 other owned same
  obtain ⟨stored, spared⟩ := mem_deleteScans.mp member
  refine before.mono ?_ ?_ ?_
  · rintro ⟨row, marked, same⟩
    refine ⟨row, ?_, same⟩
    rw [Table.mem_iff, baselines_deleteScans, List.mem_filter]
    exact ⟨marked, by simpa [same] using spared⟩
  · have sub : (newerUnmarked (deleteScans db (pruneVictims db hostId keep)) other
        scan.id).Sublist (newerUnmarked db other scan.id) := by
      unfold newerUnmarked newerScans
      rw [scansOf_deleteScans, List.filter_filter, List.filter_filter, List.filter_filter]
      apply List.monotone_filter_right
      intro newer
      rw [baselines_deleteScans]
      simp only [Bool.and_eq_true, Bool.not_eq_true', List.contains_eq_mem,
        decide_eq_false_iff_not, List.mem_map, List.mem_filter, not_exists, not_and]
      rintro ⟨⟨unmarked, later⟩, survives⟩
      refine ⟨fun row marked same => ?_, later⟩
      exact unmarked row ⟨marked, by simpa [same] using survives⟩ same
    exact sub.length_le
  · intro latest
    rw [latestDone_of_filter (scans_deleteScans db _), latest]
    intro newest isNewest
    rw [latest, Option.some_inj] at isNewest
    subst isNewest
    simpa using spared

theorem trimmed_pruned {keep : Nat} (large : 1 ≤ keep) {db : Database}
    (trimmed : Trimmed keep db) (py : Runtime) (event : ViewEvent) :
    Trimmed keep (pruned py keep db event) := by
  cases event with
  | ingest now bundle hostId =>
      rw [pruned, withPrune_eq large]
      exact trimmed_prune (trimmedExcept_ingestBundle trimmed py now bundle hostId)
  | baseline now scanId label notes =>
      exact trimmed_withBaseline trimmed now scanId label notes

/-! ## Retention is invisible -/

/-- One ingest into the two stores: the answers, the drift and the stored drift rows
are the same, and the prune leaves what it should. -/
structure SameIngest (py : Runtime) (keep : Nat) (full thin : Database)
    (now : Nat → DateTime) (bundle : ScanBundle) (hostId : Nat) : Prop where
  drift : bundleDrift py now thin bundle hostId = bundleDrift py now full bundle hostId
  answer : (ingestBundle py now thin bundle hostId).2 =
    (ingestBundle py now full bundle hostId).2
  stored : ∀ result, (ingestBundle py now full bundle hostId).2 = .ok result →
    findingsOf (pruned py keep thin (.ingest now bundle hostId)) result.scanId =
      findingsOf (unpruned py full (.ingest now bundle hostId)) result.scanId
  kept : PrunedTo keep hostId (ingestBundle py now thin bundle hostId).1
    (pruned py keep thin (.ingest now bundle hostId))

/-- The scan of a new bundle gets the greatest id. -/
theorem nextId_of_stored {py : Runtime} {now : Nat → DateTime} {db : Database}
    {bundle : ScanBundle} {hostId : Nat} {result : IngestResult}
    (fresh : Fresh db bundle.scanUuid)
    (stored : (ingestBundle py now db bundle hostId).2 = .ok result) :
    result.scanId = db.scans.nextId ∧
      (ingestBundle py now db bundle hostId).1.scans.nextId = result.scanId + 1 := by
  rcases ingestBundle_cases (Prod.mk.eta.symm : ingestBundle py now db bundle hostId = _)
    with ⟨_, _, failed⟩ | ⟨_, scan, member, carried, _⟩ |
      ⟨_, _, _, _, _, _, scan, _, _, _, _, written, answer⟩
  · rw [stored] at failed
    cases failed
  · exact absurd carried (fresh scan member)
  · rw [stored, Except.ok.injEq] at answer
    subst answer
    exact ⟨written.scanId, Table.nextId_of_insertion written.scans written.scanId⟩

theorem Thinned.sameIngest {deleted : List Nat} {full thin : Database}
    (thinned : Thinned deleted full thin) (py : Runtime) {keep : Nat} (large : 1 ≤ keep)
    (now : Nat → DateTime) {bundle : ScanBundle} (fresh : Fresh full bundle.scanUuid)
    (hostId : Nat) : SameIngest py keep full thin now bundle hostId := by
  obtain ⟨answer, alike⟩ := thinned.ingestBundle py now fresh hostId
  refine ⟨thinned.bundleDrift_eq py now fresh hostId, answer, ?_, ?_⟩
  · intro result stored
    obtain ⟨next, last⟩ := nextId_of_stored fresh stored
    rw [pruned, unpruned, withPrune_eq large]
    apply (alike.prune hostId large).findingsOf_eq
    rw [List.mem_append, not_or]
    constructor
    · intro member
      have before := thinned.past _ member
      omega
    · intro victim
      obtain ⟨_, many, _⟩ := mem_pruneVictims victim
      obtain ⟨newer, later⟩ := List.exists_mem_of_length_pos (large.trans many)
      rw [newerScans, List.mem_filter, mem_scansOf, decide_eq_true_iff] at later
      have bounded := Table.id_lt_nextId later.1.1
      rw [alike.nextId, last] at bounded
      change newer.id < result.scanId + 1 at bounded
      omega
  · rw [pruned, withPrune_eq large]
    exact prunedTo_deleteScans _ hostId keep

/-- Pruning after each ingest changes no drift and no fleet summary, and leaves each
host its baselined scans, its newest `keep` others and its newest done scan. -/
theorem retention_invisible (py : Runtime) (lower : String → String) {keep : Nat}
    (large : 1 ≤ keep) (start : Database) (events : List ViewEvent)
    (distinct : (events.filterMap ViewEvent.scanUuid?).Nodup)
    (fresh : ∀ scanUuid ∈ events.filterMap ViewEvent.scanUuid?, Fresh start scanUuid) :
    (∀ past future, events = past ++ future →
      fleetSummary lower (past.foldl (pruned py keep) start) =
        fleetSummary lower (past.foldl (unpruned py) start)) ∧
    (∀ past now bundle hostId future,
      events = past ++ .ingest now bundle hostId :: future →
      SameIngest py keep (past.foldl (unpruned py) start)
        (past.foldl (pruned py keep) start) now bundle hostId) ∧
    (Trimmed keep start → ∀ past future, events = past ++ future →
      Trimmed keep (past.foldl (pruned py keep) start)) := by
  refine ⟨fun past future split => ?_, fun past now bundle hostId future split => ?_,
    fun trimmed past future split => ?_⟩
  · subst split
    rw [List.filterMap_append] at distinct fresh
    obtain ⟨⟨deleted, thinned⟩, _⟩ := thinned_run py large distinct fresh
    exact thinned.fleetSummary_eq lower
  · subst split
    rw [List.filterMap_append] at distinct fresh
    obtain ⟨⟨deleted, thinned⟩, still⟩ := thinned_run py large distinct fresh
    exact thinned.sameIngest py large now (still _ (by simp [ViewEvent.scanUuid?])) hostId
  · clear split
    induction past using List.reverseRecOn with
    | nil => exact trimmed
    | append_singleton past event inductionHypothesis =>
        rw [List.foldl_append]
        exact trimmed_pruned large inductionHypothesis py event

/-- A bundle of a machine without findings. -/
def statusBundle (machineId scanUuid status : String) : ScanBundle where
  schemaVersion := 1
  scanUuid := scanUuid
  host := bareIdentity machineId
  scan := [("status", .str status)]
  findings := []
  droppedDrift := 0

/-- A baseline of the first scan among good and failed bundles of two hosts. -/
def sampleEvents : List ViewEvent :=
  [.ingest (fun _ => 0) (statusBundle "m1" "u1" "done") 1,
    .ingest (fun _ => 1) (statusBundle "m2" "u2" "failed") 2,
    .baseline 2 1 "golden" none,
    .ingest (fun _ => 3) (statusBundle "m1" "u3" "done") 1,
    .ingest (fun _ => 4) (statusBundle "m1" "u4" "done") 1,
    .ingest (fun _ => 5) (statusBundle "m1" "u5" "interrupted") 1]

theorem retention_invisible_sample :
    let start := storeOf [bareIdentity "m1", bareIdentity "m2"]
    let full := sampleEvents.foldl (unpruned (Runtime.ofDocuments [])) start
    let thin := sampleEvents.foldl (pruned (Runtime.ofDocuments []) 1) start
    full.scans.rows.map Scan.id = [1, 2, 3, 4, 5] ∧
      thin.scans.rows.map Scan.id = [1, 2, 4, 5] ∧
      fleetSummary id thin = fleetSummary id full ∧ Trimmed 1 thin := by
  intro start full thin
  have invisible := retention_invisible (Runtime.ofDocuments []) id (le_refl 1) start
    sampleEvents (by decide) fun scanUuid _ scan member => by
      have empty : start.scans.rows = [] := by decide
      rw [Table.mem_iff, empty] at member
      cases member
  refine ⟨by decide, by decide,
    invisible.1 sampleEvents [] (by simp), invisible.2.2 ?_ sampleEvents [] (by simp)⟩
  intro scan member
  have empty : start.scans.rows = [] := by decide
  rw [Table.mem_iff, empty] at member
  cases member

end Repo
end Store
end PqcScan
