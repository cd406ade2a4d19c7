import PqcScan.Library.Transition
import PqcScan.Store.Effect

/-!
# Ingest is atomic and exactly-once

A sequence of `ingest_bundle` calls on one database.  Every call falls under
one of three cases: it raises and changes nothing, it repeats a stored bundle
and changes nothing, or it adds one scan with its findings, drift rows and
views.
-/

namespace PqcScan
namespace Store
namespace Repo

open Library Python PqcScan.Core

/-- One call of `ingest_bundle`: its arguments, the clock readings during the
call, and what it returned or raised. -/
structure IngestCall where
  now : Nat → DateTime
  bundle : ScanBundle
  hostId : Nat
  outcome : Except WriteError IngestResult

/-- The call leads from one database to the next. -/
def Called (py : Runtime) (before : Database) (call : IngestCall)
    (after : Database) : Prop :=
  ingestBundle py call.now before call.bundle call.hostId =
    (after, call.outcome)

/-- The scan already carries the uuid of the call, for the host of the call. -/
def IngestCall.Repeats (call : IngestCall) (scan : Scan) : Prop :=
  scan.scanUuid = some call.bundle.scanUuid ∧ scan.hostId = some call.hostId

/-- What a call that stores its bundle adds, and that nothing else changes. -/
structure Added (py : Runtime) (before after : Database) (call : IngestCall)
    (result : IngestResult) : Prop where
  fresh : ∀ scan ∈ before.scans, scan.scanUuid ≠ some call.bundle.scanUuid
  scan : ∃ scan, after.scans.rows = before.scans.rows ++ [scan] ∧
    scan.id = result.scanId ∧ call.Repeats scan
  findings : ∃ agentRows driftRows drift newViews,
    after.findings.rows = before.findings.rows ++ (agentRows ++ driftRows) ∧
    List.Forall₂ (Carries py result.scanId) call.bundle.findings agentRows ∧
    bundleDrift py call.now before call.bundle call.hostId =
      .ok (drift, result.drift) ∧
    List.Forall₂ (CarriesDrift result.scanId) drift driftRows ∧
    after.views.rows = before.views.rows ++ newViews ∧
    List.Forall₂ (CarriesView py)
      (viewTargets call.bundle.findings agentRows) newViews
  reported : result.duplicate = false ∧
    result.storedFindings = call.bundle.findings.length ∧
    result.storedViews = (call.bundle.findings.map viewCount).sum
  otherHosts : ∀ host, host.id ≠ call.hostId →
    (host ∈ after.hosts ↔ host ∈ before.hosts)
  baselines : after.baselines = before.baselines

/-- The three cases of one call. -/
structure CallEffect (py : Runtime) (before : Database) (call : IngestCall)
    (after : Database) : Prop where
  raised : ∀ error, call.outcome = .error error → after = before
  repeated : ∀ scan ∈ before.scans, call.Repeats scan →
    after = before ∧ call.outcome = .ok (duplicateResult scan.id)
  stored : ∀ result, call.outcome = .ok result →
    (∀ scan ∈ before.scans, ¬ call.Repeats scan) →
    Added py before after call result

/-- No two scans carry one uuid. -/
def UuidsDistinct (db : Database) : Prop :=
  ∀ left ∈ db.scans, ∀ right ∈ db.scans, ∀ uuid,
    left.scanUuid = some uuid → right.scanUuid = some uuid → left = right

theorem uuidsDistinct (db : Database) : UuidsDistinct db :=
  fun _ leftMember _ rightMember _ leftUuid rightUuid =>
    Database.scan_eq_of_scanUuid leftMember rightMember leftUuid rightUuid

/-- The lookup by uuid finds the one scan that carries it. -/
theorem find_scanUuid {db : Database} {scan : Scan} {uuid : String}
    (member : scan ∈ db.scans) (carried : scan.scanUuid = some uuid) :
    db.scans.rows.find? (·.scanUuid == some uuid) = some scan := by
  cases found : db.scans.rows.find? (·.scanUuid == some uuid) with
  | none => simpa [carried] using List.find?_eq_none.mp found scan member
  | some other =>
      rw [Database.scan_eq_of_scanUuid (List.mem_of_find?_eq_some found) member
        (by simpa using List.find?_some found) carried]

/-- With its uuid stored, a bundle has no drift to compute. -/
theorem bundleDrift_of_stored {py : Runtime} {now : Nat → DateTime}
    {db : Database} {bundle : ScanBundle} {hostId : Nat} {scan : Scan}
    (member : scan ∈ db.scans) (carried : scan.scanUuid = some bundle.scanUuid) :
    bundleDrift py now db bundle hostId = .ok ([], 0) := by
  have known : (getScanIdByUuid db bundle.scanUuid).isSome = true := by
    rw [getScanIdByUuid, find_scanUuid member carried]
    rfl
  simp only [bundleDrift, if_pos known, ite_self]

/-- A stored bundle of the same host is answered as a duplicate. -/
theorem ingestBundle_of_stored {py : Runtime} {now : Nat → DateTime}
    {db : Database} {bundle : ScanBundle} {hostId : Nat} {scan : Scan}
    (member : scan ∈ db.scans) (carried : scan.scanUuid = some bundle.scanUuid)
    (owned : scan.hostId = some hostId) :
    ingestBundle py now db bundle hostId = (db, .ok (duplicateResult scan.id)) := by
  obtain ⟨host, hostMember, hostEq⟩ := db.hostStored scan member hostId owned
  have located : getHost db hostId = some host :=
    Table.get?_eq_some_iff.mpr ⟨hostMember, hostEq⟩
  have checked : duplicateCheck db bundle hostId = .ok (host, some scan.id) := by
    simp only [duplicateCheck, located, find_scanUuid member carried, if_pos owned]
  simp only [ingestBundle, bundleDrift_of_stored member carried, checked]

/-- Every call falls under the three cases. -/
theorem callEffect {py : Runtime} {before after : Database} {call : IngestCall}
    (called : Called py before call after) : CallEffect py before call after := by
  refine ⟨?_, ?_, ?_⟩
  · intro error raised
    rcases ingestBundle_cases called with
      ⟨same, _⟩ | ⟨same, _⟩ | ⟨_, _, _, _, _, _, _, _, _, _, _, _, outcome⟩
    · exact same
    · exact same
    · rw [raised] at outcome
      cases outcome
  · rintro scan member ⟨carried, owned⟩
    unfold Called at called
    rw [ingestBundle_of_stored member carried owned] at called
    obtain ⟨same, outcome⟩ := Prod.mk.inj called
    exact ⟨same.symm, outcome.symm⟩
  · intro result returned unknown
    rcases ingestBundle_cases called with
      ⟨_, error, outcome⟩ | ⟨_, scan, member, carried, owned, _⟩ |
        ⟨host, member, hostEq, drift, changes, time, scan, agentRows, driftRows,
          newViews, driftRead, written, outcome⟩
    · rw [returned] at outcome
      cases outcome
    · exact absurd ⟨carried, owned⟩ (unknown scan member)
    · rw [returned] at outcome
      cases outcome
      refine ⟨written.fresh, ⟨scan, written.scans, rfl, written.scanUuid, ?_⟩,
        ⟨agentRows, driftRows, drift, newViews, written.findings, written.agent,
          driftRead, written.derived, written.views, written.targets⟩,
        ⟨rfl, rfl, rfl⟩, ?_, written.baselines⟩
      · rw [written.scanHost, hostEq]
      · exact fun other different =>
          written.mem_hosts_iff (hostEq ▸ different)

/-- In every sequence of calls each call is atomic and stores its bundle at
most once, and every database reached has distinct uuids. -/
theorem ingest_atomic_exactlyOnce (py : Runtime) {start finish : Database}
    {calls : List IngestCall} (run : Run (Called py) start calls finish) :
    UuidsDistinct finish ∧
      ∀ earlier call later, calls = earlier ++ call :: later →
        ∃ before after, Run (Called py) start earlier before ∧
          Run (Called py) after later finish ∧
          UuidsDistinct before ∧ UuidsDistinct after ∧
          CallEffect py before call after := by
  refine ⟨uuidsDistinct finish, ?_⟩
  rintro earlier call later rfl
  obtain ⟨before, after, first, called, rest⟩ := run.at_step
  exact ⟨before, after, first, rest, uuidsDistinct before, uuidsDistinct after,
    callEffect called⟩

/-- A bundle with one finding. -/
def sampleBundle : ScanBundle where
  schemaVersion := 1
  scanUuid := "u1"
  host := bareIdentity "m1"
  scan := [("status", .str "done")]
  findings := [[("probe_id", .str "net.tls")]]
  droppedDrift := 0

/-- What `ingest_bundle` does with the sample bundle for host 1. -/
def sampleIngest (before : Database) : Database × Except WriteError IngestResult :=
  ingestBundle (Runtime.ofDocuments []) (fun _ => 0) before sampleBundle 1

/-- The call that `sampleIngest` is. -/
def sampleCall (before : Database) : IngestCall where
  now _ := 0
  bundle := sampleBundle
  hostId := 1
  outcome := (sampleIngest before).2

theorem ingest_atomic_exactlyOnce_twice :
    let start := storeOf [bareIdentity "m1"]
    let middle := (sampleIngest start).1
    let finish := (sampleIngest middle).1
    UuidsDistinct finish ∧
      ∀ earlier call later,
        [sampleCall start, sampleCall middle] = earlier ++ call :: later →
        ∃ before after, Run (Called (Runtime.ofDocuments [])) start earlier before ∧
          Run (Called (Runtime.ofDocuments [])) after later finish ∧
          UuidsDistinct before ∧ UuidsDistinct after ∧
          CallEffect (Runtime.ofDocuments []) before call after := by
  intro start middle finish
  have first : Called (Runtime.ofDocuments []) start (sampleCall start) middle :=
    rfl
  have second : Called (Runtime.ofDocuments []) middle (sampleCall middle) finish :=
    rfl
  exact ingest_atomic_exactlyOnce (Runtime.ofDocuments [])
    ((Run.single first).snoc second)

end Repo
end Store
end PqcScan
