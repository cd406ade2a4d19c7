import PqcScan.Compliance.Engine
import PqcScan.Library.Grouping
import PqcScan.Library.Staging
import PqcScan.Runner.Targets

/-!
# A scan

`ProbeRunner.run` of `runner/runner.py`: the probes of a family run concurrently, one
family after the other, and each is kept in an envelope that turns whatever goes wrong
into a row. The awaits of a probe end as the probe makes them end; the clock is not
modelled.
-/

namespace PqcScan
namespace Runner

open Library Python PqcScan.Core Compliance

/-! ## Probes -/

/-- What the runner sees of an exception: whether it is a `TimeoutError`, and its text. -/
structure Raised where
  isTimeout : Bool
  text : String

/-- How `asyncio.wait_for` ends. -/
inductive Awaited (α : Type)
  | returned (value : α)
  | raised (error : Raised)
  | expired

/-- The context of a run. -/
structure RunContext extends ScanContext where
  availableCapabilities : List String

/-- A probe of the registry.  What it does depends on its settings, which `bind_context`
replaces, and on the context. -/
structure RegisteredProbe where
  id : String
  family : String
  requires : List String
  settings : Probe
  applies : Probe → RunContext → Awaited Bool
  run : Probe → RunContext → List Finding × Awaited Unit

/-- `Registry`: no two probes have one identifier. -/
structure Registry where
  probes : List RegisteredProbe
  distinct : (probes.map RegisteredProbe.id).Nodup

/-- The registry without a probe. -/
def Registry.without (registry : Registry) (id : String) : Registry where
  probes := registry.probes.filter fun probe => decide (probe.id ≠ id)
  distinct := registry.distinct.sublist (List.filter_sublist.map _)

/-! ## Rows -/

/-- A row of `findings` as the runner writes it, with its framework views. -/
structure Entry where
  probeId : String
  algorithm : String
  classification : String
  severity : String
  title : String
  evidence : Dict String Json
  remediation : Dict String Json
  views : List FrameworkVerdict

/-- What `emit` calls: `enrich_remediation`, `assess_confidence`
and the compliance engine. -/
structure ProbeRunner where
  enrich : Finding → Finding
  assess : String → Dict String Json → String
  evaluate : Finding → List FrameworkVerdict

/-- `Repo.record_finding`, with the views that are recorded for the row. -/
def recordFinding (finding : Finding) (views : List FrameworkVerdict) : Entry where
  probeId := finding.probeId
  algorithm := finding.algorithm
  classification := finding.classification.value
  severity := finding.severity.value
  title := finding.title
  evidence := finding.evidence
  remediation := finding.remediation
  views := views

/-- `Repo.record_probe_error`. -/
def recordProbeError (probeId message : String) : Entry where
  probeId := probeId
  algorithm := "N/A"
  classification := "error"
  severity := "info"
  title := "probe error: " ++ message
  evidence := Dict.ofList [("error", .str message)]
  remediation := Dict.empty
  views := []

/-- The row of a probe that lacks a capability. -/
def recordSkipped (probe : RegisteredProbe) : Entry where
  probeId := probe.id
  algorithm := "N/A"
  classification := Classification.info.value
  severity := Severity.info.value
  title := "skipped: probe requires [" ++
    String.intercalate ", " ((probe.requires.mergeSort (· ≤ ·)).map fun capability =>
      "'" ++ capability ++ "'") ++ "]"
  evidence := Dict.ofList [("reason", .str "skipped_privilege"),
    ("confidence", .str "high")]
  remediation := Dict.empty
  views := []

/-- `emit`. -/
def ProbeRunner.emit (runner : ProbeRunner) (f : Finding) : Entry :=
  let f := runner.enrich f
  let confidence := runner.assess f.probeId f.evidence
  let f := { f with evidence := f.evidence.set "confidence" (.str confidence) }
  recordFinding f (runner.evaluate f)

/-! ## One probe -/

/-- Where `_run_one` is. -/
inductive Task
  | ready (probe : RegisteredProbe)
  | applying (probe : RegisteredProbe)
  | running (probe : RegisteredProbe) (left : List Finding) (ending : Awaited Unit)
  | finished

section Run

variable (runner : ProbeRunner) (ctx : RunContext)

/-- `probe.requires.issubset(ctx.available_capabilities)`. -/
def Privileged (probe : RegisteredProbe) : Prop :=
  ∀ capability ∈ probe.requires, capability ∈ ctx.availableCapabilities

instance (probe : RegisteredProbe) : Decidable (Privileged ctx probe) :=
  inferInstanceAs (Decidable (∀ capability ∈ probe.requires, _))

/-- The probe's `applies` on its bound copy. -/
def appliesOf (probe : RegisteredProbe) : Awaited Bool :=
  probe.applies (bindContext probe.settings ctx.toScanContext) ctx

/-- The probe's `run` on its bound copy. -/
def runOf (probe : RegisteredProbe) : List Finding × Awaited Unit :=
  probe.run (bindContext probe.settings ctx.toScanContext) ctx

/-- What is recorded when `run` has ended. -/
def endingRows (probe : RegisteredProbe) : Awaited Unit → List Entry
  | .returned _ => []
  | .raised error =>
      [recordProbeError probe.id (if error.isTimeout then "timeout" else error.text)]
  | .expired => [recordProbeError probe.id "timeout"]

/-- `_run_one`, from one point to the next at which another probe may have its turn. -/
def turn : Task → Option (List Entry × Task)
  | .ready probe =>
      if Privileged ctx probe then some ([], .applying probe)
      else some ([recordSkipped probe], .finished)
  | .applying probe =>
      match appliesOf ctx probe with
      | .returned true =>
          some ([], .running probe (runOf ctx probe).1 (runOf ctx probe).2)
      | .returned false => some ([], .finished)
      | .raised error => some ([recordProbeError probe.id
          (if error.isTimeout then "applies() timeout"
            else "applies() failed: " ++ error.text)],
          .finished)
      | .expired => some ([recordProbeError probe.id "applies() timeout"], .finished)
  | .running probe (f :: left) ending =>
      some ([runner.emit f], .running probe left ending)
  | .running probe [] ending => some (endingRows probe ending, .finished)
  | .finished => none

/-- What `applies` and `run` have yet to record. -/
def appliesRows (probe : RegisteredProbe) : List Entry :=
  match appliesOf ctx probe with
  | .returned true =>
      (runOf ctx probe).1.map runner.emit ++ endingRows probe (runOf ctx probe).2
  | .returned false => []
  | .raised error => [recordProbeError probe.id
      (if error.isTimeout then "applies() timeout"
        else "applies() failed: " ++ error.text)]
  | .expired => [recordProbeError probe.id "applies() timeout"]

/-- What a probe records in all. -/
def probeRows (probe : RegisteredProbe) : List Entry :=
  if Privileged ctx probe then appliesRows runner ctx probe else [recordSkipped probe]

/-- The rows a task has yet to record. -/
def taskRows : Task → List Entry
  | .ready probe => probeRows runner ctx probe
  | .applying probe => appliesRows runner ctx probe
  | .running probe left ending => left.map runner.emit ++ endingRows probe ending
  | .finished => []

/-- The turns a task has left at most. -/
def turnsLeft : Task → Nat
  | .ready probe => (runOf ctx probe).1.length + 3
  | .applying probe => (runOf ctx probe).1.length + 2
  | .running _ left _ => left.length + 1
  | .finished => 0

theorem turn_writes {task next : Task} {written : List Entry}
    (writes : turn runner ctx task = some (written, next)) :
    taskRows runner ctx task = written ++ taskRows runner ctx next ∧
      turnsLeft ctx next < turnsLeft ctx task := by
  cases task with
  | ready probe =>
      rw [turn] at writes
      split at writes
      · next privileged =>
        cases writes
        rw [taskRows, probeRows, if_pos privileged]
        exact ⟨rfl, Nat.lt_succ_self _⟩
      · next lacking =>
        cases writes
        rw [taskRows, probeRows, if_neg lacking]
        exact ⟨rfl, Nat.succ_pos _⟩
  | applying probe =>
      rw [turn] at writes
      rw [taskRows, appliesRows]
      split at writes
      · cases writes
        exact ⟨rfl, Nat.lt_succ_self _⟩
      · cases writes
        exact ⟨rfl, Nat.succ_pos _⟩
      · cases writes
        exact ⟨rfl, Nat.succ_pos _⟩
      · cases writes
        exact ⟨rfl, Nat.succ_pos _⟩
  | running probe left ending =>
      cases left with
      | nil =>
          cases writes
          exact ⟨(List.append_nil _).symm, Nat.succ_pos _⟩
      | cons f left =>
          cases writes
          exact ⟨rfl, Nat.lt_succ_self _⟩
  | finished => cases writes

/-- The tasks as workers of the scan. -/
def probeWork : Work Task Entry where
  turn := turn runner ctx
  script := taskRows runner ctx
  size := turnsLeft ctx
  turn_writes := turn_writes runner ctx
  script_finished := by
    intro task finished
    cases task with
    | ready probe => rw [turn] at finished; split at finished <;> cases finished
    | applying probe => rw [turn] at finished; split at finished <;> cases finished
    | running probe left ending => cases left <;> cases finished
    | finished => rfl

end Run

/-! ## The scan -/

/-- `by_family`: the probes of each family, in the order of the registry. -/
def byFamily (registry : Registry) : Dict String (List RegisteredProbe) :=
  groupRows RegisteredProbe.family registry.probes

/-- The families as stages. -/
def stages (registry : Registry) : List (List (String × Task)) :=
  (byFamily registry).entries.map fun family =>
    family.2.map fun probe => (probe.id, .ready probe)

/-- The state of a scan. -/
abbrev ScanState := Staging String Task Entry

/-- The status of the scan. -/
def ScanState.status (state : ScanState) : String :=
  if state.closed then "done" else "running"

/-- An execution of `run`: whichever probe of the family has its turn, and then the next
family; `finish_scan` is the last step. -/
abbrev Execution (runner : ProbeRunner) (ctx : RunContext) (registry : Registry) :=
  Staging.Schedule (probeWork runner ctx) (Staging.initial (stages registry))

theorem flatten_stages (registry : Registry) :
    (stages registry).flatten.Perm
      (registry.probes.map fun probe => (probe.id, .ready probe)) := by
  have families : (stages registry).flatten =
      ((byFamily registry).entries.flatMap Prod.snd).map fun probe =>
        (probe.id, .ready probe) := by
    rw [stages, List.map_flatMap, List.flatMap_def]
  rw [families]
  exact (perm_groupRows _ _).map _

end Runner
end PqcScan
