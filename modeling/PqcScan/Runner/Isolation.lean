import PqcScan.Runner.Scan

/-!
# Probes do not disturb each other

What a probe records in a scan is settled by the probe alone: by what it emits, and by how
its awaits end.  Neither the order in which the probes of a family have their turns nor
what becomes of another probe changes it.
-/

namespace PqcScan
namespace Runner

open Library Python PqcScan.Core Compliance

section Fates

variable (ctx : RunContext) (probe : RegisteredProbe)

/-- The await ended in an exception or a timeout. -/
def Awaited.Failed : Awaited α → Prop
  | .returned _ => False
  | .raised _ => True
  | .expired => True

/-- `applies` or `run` of the probe fails. -/
def Fails : Prop :=
  Privileged ctx probe ∧
    ((appliesOf ctx probe).Failed ∨
      appliesOf ctx probe = .returned true ∧ (runOf ctx probe).2.Failed)

/-- The findings the probe emits before it ends. -/
def emitted : List Finding :=
  if Privileged ctx probe then
    match appliesOf ctx probe with
    | .returned true => (runOf ctx probe).1
    | _ => []
  else []

end Fates

section Rows

variable {runner : ProbeRunner} {ctx : RunContext} {probe : RegisteredProbe}

/-- A probe that lacks a capability records one row. -/
theorem probeRows_of_not_privileged (lacking : ¬ Privileged ctx probe) :
    probeRows runner ctx probe = [recordSkipped probe] := by
  rw [probeRows, if_neg lacking]

/-- A probe that fails records what it emitted, and one error. -/
theorem probeRows_of_fails (fails : Fails ctx probe) :
    ∃ message, probeRows runner ctx probe =
      (emitted ctx probe).map runner.emit ++ [recordProbeError probe.id message] := by
  obtain ⟨privileged, failed⟩ := fails
  rw [probeRows, emitted, if_pos privileged, if_pos privileged, appliesRows]
  cases applied : appliesOf ctx probe with
  | returned value =>
      rw [applied] at failed
      obtain ⟨answer, ended⟩ := failed.resolve_left id
      cases answer
      cases ending : (runOf ctx probe).2 with
      | returned _ => rw [ending] at ended; exact absurd ended id
      | raised error => exact ⟨_, rfl⟩
      | expired => exact ⟨_, rfl⟩
  | raised error => exact ⟨_, rfl⟩
  | expired => exact ⟨_, rfl⟩

/-- A probe that neither lacks a capability nor fails records what it emitted. -/
theorem probeRows_of_not_fails (privileged : Privileged ctx probe)
    (well : ¬ Fails ctx probe) :
    probeRows runner ctx probe = (emitted ctx probe).map runner.emit := by
  rw [probeRows, emitted, if_pos privileged, if_pos privileged, appliesRows]
  cases applied : appliesOf ctx probe with
  | returned value =>
      cases value with
      | false => rfl
      | true =>
          cases ending : (runOf ctx probe).2 with
          | returned _ => exact List.append_nil _
          | raised error =>
              exact absurd ⟨privileged, Or.inr ⟨applied, by rw [ending]; trivial⟩⟩ well
          | expired =>
              exact absurd ⟨privileged, Or.inr ⟨applied, by rw [ending]; trivial⟩⟩ well
  | raised error => exact absurd ⟨privileged, Or.inl (by rw [applied]; trivial)⟩ well
  | expired => exact absurd ⟨privileged, Or.inl (by rw [applied]; trivial)⟩ well

end Rows

section Executions

variable {runner : ProbeRunner} {ctx : RunContext} {registry : Registry}
  {events : List (StageEvent String Entry)} {state : ScanState}

theorem status_done {state : ScanState} :
    ScanState.status state = "done" ↔ state.closed = true := by
  rw [ScanState.status]
  cases state.closed <;> decide

theorem mem_stages {probe : RegisteredProbe} (member : probe ∈ registry.probes) :
    (probe.id, Task.ready probe) ∈ (stages registry).flatten :=
  (flatten_stages registry).mem_iff.mpr (List.mem_map_of_mem member)

theorem distinct_stages (registry : Registry) :
    ((stages registry).flatten.map Prod.fst).Nodup := by
  rw [((flatten_stages registry).map Prod.fst).nodup_iff, List.map_map]
  exact registry.distinct

/-- A finished execution has recorded of a probe what the probe records. -/
theorem written_probeRows (execution : Execution runner ctx registry events state)
    (done : ScanState.status state = "done") {probe : RegisteredProbe}
    (member : probe ∈ registry.probes) :
    Staging.written probe.id events = probeRows runner ctx probe :=
  Staging.written_eq execution (status_done.mp done) (distinct_stages registry)
    (mem_stages member)

/-- A finished execution has recorded what its probes record, in some order. -/
theorem log_probeRows (execution : Execution runner ctx registry events state)
    (done : ScanState.status state = "done") :
    state.log.Perm (registry.probes.flatMap (probeRows runner ctx)) := by
  have scripts := (flatten_stages registry).flatMap_right
    fun worker => (probeWork runner ctx).script worker.2
  rw [List.flatMap_map] at scripts
  exact (Staging.log_perm execution (status_done.mp done)).trans scripts

/-- The rows of a registry are those of a probe and those of the others. -/
theorem rows_without {culprit : RegisteredProbe} (member : culprit ∈ registry.probes) :
    (registry.probes.flatMap (probeRows runner ctx)).Perm
      (probeRows runner ctx culprit ++
        (registry.without culprit.id).probes.flatMap (probeRows runner ctx)) := by
  obtain ⟨front, back, split⟩ := List.append_of_mem member
  have distinct := registry.distinct
  rw [split, List.map_append, List.map_cons, List.nodup_append] at distinct
  obtain ⟨-, rest, apart⟩ := distinct
  have others : (registry.without culprit.id).probes = front ++ back := by
    change registry.probes.filter _ = _
    rw [split, List.filter_append, List.filter_cons_of_neg (by simp),
      List.filter_eq_self.mpr, List.filter_eq_self.mpr]
    · intro probe inside
      simpa using fun same =>
        (List.nodup_cons.mp rest).1 (List.mem_map.mpr ⟨probe, inside, same⟩)
    · intro probe inside
      simpa using apart _ (List.mem_map_of_mem inside) _ List.mem_cons_self
  rw [others, split]
  exact List.perm_middle.flatMap_right _

end Executions

/-- Every execution of a scan ends, and ends as done.  Then each probe has left its own
rows in the order it wrote them: the note of a skipped one, the emitted findings of any
other, and an error after those of one that failed.  Without any one of the probes the
rows of the others are the same. -/
theorem scan_isolated (runner : ProbeRunner) (ctx : RunContext) (registry : Registry) :
    (∀ events state, Execution runner ctx registry events state →
      events.length ≤ (Staging.initial (stages registry)).remaining
        (probeWork runner ctx) ∧
        ∃ later finish, Execution runner ctx registry (events ++ later) finish ∧
          ScanState.status finish = "done") ∧
    ∀ events state, Execution runner ctx registry events state →
      ScanState.status state = "done" →
      (∀ probe ∈ registry.probes,
        (Staging.written probe.id events).Sublist state.log ∧
        (¬ Privileged ctx probe →
          Staging.written probe.id events = [recordSkipped probe]) ∧
        (Fails ctx probe → ∃ message, Staging.written probe.id events =
          (emitted ctx probe).map runner.emit ++ [recordProbeError probe.id message]) ∧
        (Privileged ctx probe → ¬ Fails ctx probe → Staging.written probe.id events =
          (emitted ctx probe).map runner.emit)) ∧
      ∀ culprit ∈ registry.probes, ∀ events' state',
        Execution runner ctx (registry.without culprit.id) events' state' →
        ScanState.status state' = "done" →
          (∀ other ∈ registry.probes, other.id ≠ culprit.id →
            Staging.written other.id events = Staging.written other.id events') ∧
          state.log.Perm (probeRows runner ctx culprit ++ state'.log) := by
  refine ⟨fun events state execution => ⟨?_, ?_⟩, ?_⟩
  · have bounded := Staging.schedule_bounded execution
    omega
  · obtain ⟨later, finish, schedule, closed⟩ :=
      @Staging.exists_closed _ _ _ (probeWork runner ctx) state
    exact ⟨later, finish, execution.append schedule, status_done.mpr closed⟩
  · intro events state execution done
    refine ⟨fun probe member => ?_, fun culprit member events' state' execution' done' =>
      ?_⟩
    · rw [written_probeRows execution done member]
      refine ⟨?_, probeRows_of_not_privileged, probeRows_of_fails, probeRows_of_not_fails⟩
      rw [← written_probeRows execution done member]
      exact Staging.written_sublist execution probe.id
    · refine ⟨fun other otherMember differs => ?_, ?_⟩
      · have remains : other ∈ (registry.without culprit.id).probes :=
          List.mem_filter.mpr ⟨otherMember, by simpa using differs⟩
        rw [written_probeRows execution done otherMember,
          written_probeRows execution' done' remains]
      · exact (log_probeRows execution done).trans
          ((rows_without member).trans
            ((log_probeRows execution' done').symm.append_left _))

end Runner
end PqcScan
