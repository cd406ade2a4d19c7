import PqcScan.Store.Effect

/-!
# Writes to the host table

Every transaction that touches `hosts` writes one row: enrollment a new or an
existing one, the others the row of a known host.
-/

namespace PqcScan
namespace Store
namespace Repo

open Library Python PqcScan.Core

/-- The other tables, as they were. -/
structure OnlyHosts (before after : Database) : Prop where
  scans : after.scans = before.scans
  findings : after.findings = before.findings
  views : after.views = before.views
  baselines : after.baselines = before.baselines

theorem getHost_eq_some_iff {db : Database} {hostId : Nat} {host : Host} :
    getHost db hostId = some host ↔ host ∈ db.hosts ∧ host.id = hostId :=
  Table.get?_eq_some_iff

theorem getHostByMachineId_eq_some_iff {db : Database} {machineId : String}
    {host : Host} :
    getHostByMachineId db machineId = some host ↔
      host ∈ db.hosts ∧ host.machineId = machineId := by
  constructor
  · intro found
    exact ⟨List.mem_of_find?_eq_some found, by simpa using List.find?_some found⟩
  · rintro ⟨member, same⟩
    cases found : getHostByMachineId db machineId with
    | none => simpa [same] using List.find?_eq_none.mp found host member
    | some other =>
        rw [Database.host_eq_of_machineId (List.mem_of_find?_eq_some found)
          member ((by simpa using List.find?_some found :
            other.machineId = machineId).trans same.symm)]

theorem getHostByMachineId_eq_none_iff {db : Database} {machineId : String} :
    getHostByMachineId db machineId = none ↔
      ∀ host ∈ db.hosts, host.machineId ≠ machineId := by
  simp [getHostByMachineId, List.find?_eq_none, Table.mem_iff]

theorem getHostByTokenHash_eq_some_iff {db : Database} {tokenHash : String}
    {host : Host} :
    getHostByTokenHash db tokenHash = some host ↔
      host ∈ db.hosts ∧ host.tokenHash = some tokenHash := by
  constructor
  · intro found
    exact ⟨List.mem_of_find?_eq_some found, by simpa using List.find?_some found⟩
  · rintro ⟨member, same⟩
    cases found : getHostByTokenHash db tokenHash with
    | none => simpa [same] using List.find?_eq_none.mp found host member
    | some other =>
        rw [Database.host_eq_of_tokenHash (List.mem_of_find?_eq_some found)
          member (by simpa using List.find?_some found) same]

theorem getHostByTokenHash_eq_none_iff {db : Database} {tokenHash : String} :
    getHostByTokenHash db tokenHash = none ↔
      ∀ host ∈ db.hosts, host.tokenHash ≠ some tokenHash := by
  simp [getHostByTokenHash, List.find?_eq_none, Table.mem_iff]

/-! ## Enrollment -/

@[simp] theorem upsertRow_machineId (now : DateTime) (identity : HostIdentity)
    (tokenHash : Option String) (host : Host) :
    (upsertRow now identity tokenHash host).machineId = host.machineId := by
  cases tokenHash <;> rfl

@[simp] theorem upsertRow_revoked (now : DateTime) (identity : HostIdentity)
    (tokenHash : Option String) (host : Host) :
    (upsertRow now identity tokenHash host).revoked = host.revoked := by
  cases tokenHash <;> rfl

@[simp] theorem upsertRow_labels (now : DateTime) (identity : HostIdentity)
    (tokenHash : Option String) (host : Host) :
    (upsertRow now identity tokenHash host).labels =
      host.labels.merge identity.labels := by
  cases tokenHash <;> rfl

/-- The row `upsert_host` writes: the row of the machine
id, or a new one, updated. -/
structure Upserted (now : DateTime) (identity : HostIdentity)
    (tokenHash : Option String) (before after : Database) (row : Host) :
    Prop where
  writes : Table.Writes before.hosts after.hosts
    (getHostByMachineId before identity.machineId) row
  updated : row =
    { upsertRow now identity tokenHash
        ((getHostByMachineId before identity.machineId).getD
          (newHost now identity.machineId)) with id := row.id }
  others : OnlyHosts before after

theorem upserted {now : DateTime} {identity : HostIdentity}
    {tokenHash : Option String} {before after : Database} {row : Host}
    (success : upsertHost now before identity tokenHash = some (after, row)) :
    Upserted now identity tokenHash before after row := by
  unfold upsertHost at success
  cases found : getHostByMachineId before identity.machineId with
  | some host =>
      simp only [found, Option.map_eq_some_iff, Prod.mk.injEq] at success
      obtain ⟨written, accepted, rfl, rfl⟩ := success
      have update := Database.hostUpdated? accepted
      obtain ⟨member, _⟩ := getHostByMachineId_eq_some_iff.mp found
      refine ⟨?_, by rw [found]; rfl,
        ⟨update.scans, update.findings, update.views, update.baselines⟩⟩
      rw [found]
      exact Table.writes_of_modification update.hosts
        (upsertRow_id now identity tokenHash)
        (Table.get?_eq_some_iff.mpr ⟨member, rfl⟩)
  | none =>
      simp only [found, Option.map_eq_some_iff, Prod.mk.injEq] at success
      obtain ⟨written, accepted, rfl, rfl⟩ := success
      have insertion := Database.hostInserted accepted
      refine ⟨?_, by rw [found]; rfl,
        ⟨insertion.scans, insertion.findings, insertion.views,
          insertion.baselines⟩⟩
      rw [found]
      exact Table.writes_of_insertion insertion.hosts rfl

namespace Upserted

variable {now : DateTime} {identity : HostIdentity} {tokenHash : Option String}
  {before after : Database} {row : Host}

theorem machineId (upserted : Upserted now identity tokenHash before after row) :
    row.machineId = identity.machineId := by
  rw [upserted.updated]
  change (upsertRow _ _ _ _).machineId = _
  rw [upsertRow_machineId]
  cases found : getHostByMachineId before identity.machineId with
  | none => rfl
  | some host => exact (getHostByMachineId_eq_some_iff.mp found).2

theorem tokenHash_eq {hash : String}
    (upserted : Upserted now identity (some hash) before after row) :
    row.tokenHash = some hash := by
  rw [upserted.updated]
  rfl

/-- The row of a known host stays revoked or not as it was. -/
theorem revoked_eq (upserted : Upserted now identity tokenHash before after row)
    {host : Host} (found : getHostByMachineId before identity.machineId = some host) :
    row.revoked = host.revoked := by
  rw [upserted.updated, found]
  exact upsertRow_revoked now identity tokenHash host

/-- A host of another machine is neither added nor removed. -/
theorem mem_iff_of_machineId_ne
    (upserted : Upserted now identity tokenHash before after row) {host : Host}
    (different : host.machineId ≠ identity.machineId) :
    host ∈ after.hosts ↔ host ∈ before.hosts := by
  constructor
  · intro member
    rcases upserted.writes.eq_or_mem member with rfl | earlier
    · exact absurd upserted.machineId different
    · exact earlier
  · intro member
    refine (upserted.writes.mem_iff host).mpr (Or.inr ⟨member, fun same => ?_⟩)
    have replaced := upserted.writes.replaced
    rw [← same, Table.get?_eq_some_iff.mpr ⟨member, rfl⟩] at replaced
    exact different (getHostByMachineId_eq_some_iff.mp replaced.symm).2

end Upserted

/-! ## Revocation -/

/-- `revoke_host` and `unrevoke_host`: an unknown host is not found and nothing
changes; otherwise its row is written. -/
theorem revokeHost_cases (db : Database) (hostId : Nat) :
    (getHost db hostId = none ∧ revokeHost db hostId = (db, false)) ∨
      ∃ host, getHost db hostId = some host ∧ (revokeHost db hostId).2 = true ∧
        Table.Writes db.hosts (revokeHost db hostId).1.hosts (some host)
          (revokeRow host) ∧
        OnlyHosts db (revokeHost db hostId).1 := by
  cases found : getHost db hostId with
  | none => exact Or.inl ⟨rfl, by simp only [revokeHost, found]⟩
  | some host =>
      refine Or.inr ⟨host, rfl, ?_⟩
      simp only [revokeHost, found, true_and]
      exact ⟨Table.writes_of_modification rfl (fun _ => rfl) found,
        ⟨rfl, rfl, rfl, rfl⟩⟩

theorem unrevokeHost_cases (db : Database) (hostId : Nat) :
    (getHost db hostId = none ∧ unrevokeHost db hostId = (db, false)) ∨
      ∃ host, getHost db hostId = some host ∧ (unrevokeHost db hostId).2 = true ∧
        Table.Writes db.hosts (unrevokeHost db hostId).1.hosts (some host)
          (unrevokeRow host) ∧
        OnlyHosts db (unrevokeHost db hostId).1 := by
  cases found : getHost db hostId with
  | none => exact Or.inl ⟨rfl, by simp only [unrevokeHost, found]⟩
  | some host =>
      refine Or.inr ⟨host, rfl, ?_⟩
      simp only [unrevokeHost, found, true_and]
      exact ⟨Table.writes_of_modification rfl (fun _ => rfl) found,
        ⟨rfl, rfl, rfl, rfl⟩⟩

/-! ## Refresh -/

section Flush

variable (loaded updated current : Host)

@[simp] theorem flushIdentity_id :
    (flushIdentity loaded updated current).id = current.id := rfl

@[simp] theorem flushIdentity_machineId :
    (flushIdentity loaded updated current).machineId = current.machineId := rfl

@[simp] theorem flushIdentity_tokenHash :
    (flushIdentity loaded updated current).tokenHash = current.tokenHash := rfl

@[simp] theorem flushIdentity_revoked :
    (flushIdentity loaded updated current).revoked = current.revoked := rfl

end Flush

/-- A stored bundle writes the row of its host. -/
theorem BundleWritten.writes {py : Runtime} {before after : Database}
    {bundle : ScanBundle} {host current : Host} {drift : List Finding}
    {time : DateTime} {scan : Scan} {agentRows driftRows : List FindingRow}
    {newViews : List FrameworkView}
    (written : BundleWritten py before after bundle host drift time scan
      agentRows driftRows newViews)
    (found : getHost before host.id = some current) :
    Table.Writes before.hosts after.hosts (some current)
      (flushIdentity host (applyIdentity time host bundle.host) current) :=
  Table.writes_of_modification written.hosts (fun _ => rfl) found

end Repo
end Store
end PqcScan
