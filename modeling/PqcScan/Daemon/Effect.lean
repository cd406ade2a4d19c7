import PqcScan.Daemon.Fleet
import PqcScan.Store.HostRows
import PqcScan.Store.Retention
import PqcScan.Library.Transition

/-!
# What a handled request does to the store

`Effect` lists the ways an exchange with the collector can change its
database.  Results about runs take it apart by cases instead of unfolding the
handlers.
-/

namespace PqcScan
namespace Daemon

open Library Python PqcScan.Core Store Repo

/-- The answer reports a change of the store. -/
def Response.changes : Response → Bool
  | .enrolled _ _ => true
  | .ingested _ _ _ duplicate _ => !duplicate
  | .revoked => true
  | .unrevoked => true
  | _ => false

/-! ## The checks -/

/-- Authentication finds the unrevoked host whose live token was presented. -/
theorem agentHost_eq_ok_iff {settings : Settings} {db : Database}
    {authorization : String} {host : Host} :
    agentHost settings db authorization = .ok host ↔
      ∃ token, bearerToken authorization = some token ∧
        host ∈ db.hosts ∧ host.tokenHash = some (settings.hashToken token) ∧
        host.revoked = false := by
  unfold agentHost
  cases bearerToken authorization with
  | none => simp
  | some token =>
      cases found : getHostByTokenHash db (settings.hashToken token) with
      | none =>
          simp only [found, reduceCtorEq, Option.some.injEq, exists_eq_left',
            false_iff]
          rintro ⟨member, live, _⟩
          exact getHostByTokenHash_eq_none_iff.mp found host member live
      | some stored =>
          obtain ⟨storedMember, storedLive⟩ :=
            getHostByTokenHash_eq_some_iff.mp found
          simp only [found, Option.some.injEq, exists_eq_left']
          constructor
          · intro answer
            split at answer
            · cases answer
            · next unrevoked =>
                cases answer
                exact ⟨storedMember, storedLive, by simpa using unrevoked⟩
          · rintro ⟨member, live, unrevoked⟩
            rw [Database.host_eq_of_tokenHash storedMember member storedLive live,
              if_neg (by simp [unrevoked])]

/-- What an accepted bundle has passed. -/
structure Accepted (settings : Settings) (draws : Draws) (host : Host)
    (body : Body) (bundle : ScanBundle) : Prop where
  admitted : draws.admitted = true
  loaded : ∃ data, readCapped body maxGzipBytes = .ok data ∧
    loadBundle settings.py data = .ok bundle
  machineId : bundle.host.machineId = host.machineId
  terminal : isTerminal (bundle.scan.get? "status") = true

theorem accepted_of_ok {settings : Settings} {draws : Draws} {host : Host}
    {body : Body} {bundle : ScanBundle}
    (success : acceptBundle settings draws host body = .ok bundle) :
    Accepted settings draws host body bundle := by
  unfold acceptBundle at success
  split at success
  · cases success
  next admitted =>
  rw [bind_eq_ok] at success
  obtain ⟨data, read, parsed⟩ := success
  split at parsed
  · cases parsed
  · cases parsed
  next loadedBundle loaded =>
  split at parsed
  · cases parsed
  next sameMachine =>
  dsimp only at parsed
  split at parsed
  · next terminal =>
      cases parsed
      exact ⟨by simpa using admitted, ⟨data, read, loaded⟩,
        by simpa using sameMachine, terminal⟩
  · cases parsed

/-- The bundle in a request body. -/
def loadedBundle (settings : Settings) (body : Body) : Option ScanBundle :=
  match readCapped body maxGzipBytes with
  | .error _ => none
  | .ok data =>
      match loadBundle settings.py data with
      | .error _ => none
      | .ok bundle => some bundle

theorem loadedBundle_of_accepted {settings : Settings} {draws : Draws}
    {host : Host} {body : Body} {bundle : ScanBundle}
    (accepted : Accepted settings draws host body bundle) :
    loadedBundle settings body = some bundle := by
  obtain ⟨data, read, loaded⟩ := accepted.loaded
  simp only [loadedBundle, read, loaded]

/-! ## The retention -/

/-- Retention after an ingest deletes stale rollups and
what `prune_host` selects. -/
theorem trim_deletes (settings : Settings) (draws : Draws) (db : Database)
    (hostId : Nat) :
    ∃ ids, trim settings draws db hostId = deleteScans db ids ∧
      ∀ scanId ∈ ids,
        (∃ scan ∈ db.scans, scan.id = scanId ∧
          scan.label = some fleetRollupLabel) ∨
        1 ≤ settings.keepScansPerHost ∧
          scanId ∈ pruneVictims db hostId settings.keepScansPerHost := by
  unfold trim
  split
  · exact ⟨[], rfl, by simp⟩
  · next after count pruned =>
      obtain ⟨large, rfl⟩ := pruneHost_ok pruned
      refine ⟨pruneVictims db hostId settings.keepScansPerHost ++
        staleRollups draws.sweepTime (deleteScans db
          (pruneVictims db hostId settings.keepScansPerHost)),
        (List.foldl_append ..).symm, ?_⟩
      intro scanId member
      rcases List.mem_append.mp member with selected | stale
      · exact Or.inr ⟨large, selected⟩
      · obtain ⟨scan, stored, same, label⟩ := mem_staleRollups stale
        exact Or.inl ⟨scan, (mem_deleteScans.mp stored).1, same, label⟩

@[simp] theorem hosts_trim (settings : Settings) (draws : Draws) (db : Database)
    (hostId : Nat) : (trim settings draws db hostId).hosts = db.hosts := by
  obtain ⟨ids, deletes, _⟩ := trim_deletes settings draws db hostId
  rw [deletes, hosts_deleteScans]

/-! ## The cases -/

/-- The ways one exchange can change the database. -/
inductive Effect (settings : Settings) (before : Database) (exchange : Exchange)
    (after : Database) : Prop
  | unchanged
      (same : after = before)
      (quiet : exchange.response.changes = false)
  | enrolled (body : Body) (identity : HostIdentity) (row : Host)
      (asked : exchange.request = .enroll body)
      (read : readEnroll settings body = .ok identity)
      (approved : checkPrior before identity = .ok ())
      (upserted : Upserted (exchange.draws.now 0) identity
        (some (settings.hashToken exchange.draws.token)) before after row)
      (answer : exchange.response = .enrolled row.id exchange.draws.token)
  | stored (request : IngestRequest) (host : Host) (bundle : ScanBundle)
      (middle : Database) (drift : List Finding) (changes : Nat)
      (time : DateTime) (scan : Scan) (agentRows driftRows : List FindingRow)
      (newViews : List FrameworkView)
      (asked : exchange.request = .ingest request)
      (authenticated :
        agentHost settings before request.authorization = .ok host)
      (accepted : Accepted settings exchange.draws host request.body bundle)
      (written : BundleWritten settings.py before middle bundle host drift time
        scan agentRows driftRows newViews)
      (trimmed : after = trim settings exchange.draws middle host.id)
      (answer : exchange.response =
        ingestAnswer (writtenResult bundle scan changes))
  | revoked (hostId : Nat) (host : Host)
      (asked : exchange.request = .revoke hostId)
      (found : getHost before hostId = some host)
      (writes : Table.Writes before.hosts after.hosts (some host)
        (revokeRow host))
      (others : OnlyHosts before after)
      (answer : exchange.response = .revoked)
  | unrevoked (hostId : Nat) (host : Host)
      (asked : exchange.request = .unrevoke hostId)
      (found : getHost before hostId = some host)
      (writes : Table.Writes before.hosts after.hosts (some host)
        (unrevokeRow host))
      (others : OnlyHosts before after)
      (answer : exchange.response = .unrevoked)

section Cases

variable {settings : Settings} {before after : Database} {draws : Draws}
  {response : Response}

theorem effect_of_enroll {body : Body}
    (served : enroll settings draws before body = (after, response)) :
    Effect settings before ⟨.enroll body, draws, response⟩ after := by
  unfold enroll at served
  split at served
  · cases served
    exact .unchanged rfl rfl
  next identity read =>
  split at served
  · cases served
    exact .unchanged rfl rfl
  next approved =>
  unfold mintToken at served
  split at served
  · next written row success =>
      cases served
      exact .enrolled body identity row rfl read approved (upserted success) rfl
  · cases served
    exact .unchanged rfl rfl

theorem effect_of_ingest {request : IngestRequest}
    (served : ingest settings draws before request = (after, response)) :
    Effect settings before ⟨.ingest request, draws, response⟩ after := by
  unfold ingest at served
  split at served
  · cases served
    exact .unchanged rfl rfl
  next host authenticated =>
  split at served
  · cases served
    exact .unchanged rfl rfl
  next bundle accepted =>
  cases call : ingestBundle settings.py draws.now before bundle host.id with
  | mk written outcome =>
      rw [call] at served
      rcases ingestBundle_cases call with
        ⟨rfl, error, rfl⟩ | ⟨rfl, scan, _, _, _, rfl⟩ |
          ⟨current, member, sameId, drift, changes, time, scan, agentRows,
            driftRows, newViews, _, effect, rfl⟩
      · cases error with
        | python error =>
            cases served
            exact .unchanged rfl rfl
        | integrity =>
            cases served
            refine .unchanged rfl ?_
            unfold recoverRace
            split <;> rfl
      · cases served
        exact .unchanged rfl rfl
      · cases served
        obtain ⟨token, _, hostMember, _⟩ := agentHost_eq_ok_iff.mp authenticated
        obtain rfl : current = host := Table.eq_of_id_eq member hostMember sameId
        exact .stored request current bundle written drift changes time scan
          agentRows driftRows newViews rfl authenticated (accepted_of_ok accepted)
          effect rfl rfl

theorem effect_of_revoke {hostId : Nat}
    (served : revoke before hostId = (after, response)) :
    Effect settings before ⟨.revoke hostId, draws, response⟩ after := by
  unfold revoke at served
  rcases revokeHost_cases before hostId with
    ⟨_, missing⟩ | ⟨host, found, done, writes, others⟩
  · rw [missing] at served
    cases served
    exact .unchanged rfl rfl
  · generalize revokeHost before hostId = result at served done writes others
    obtain ⟨written, success⟩ := result
    cases done
    cases served
    exact .revoked hostId host rfl found writes others rfl

theorem effect_of_unrevoke {hostId : Nat}
    (served : unrevoke before hostId = (after, response)) :
    Effect settings before ⟨.unrevoke hostId, draws, response⟩ after := by
  unfold unrevoke at served
  rcases unrevokeHost_cases before hostId with
    ⟨_, missing⟩ | ⟨host, found, done, writes, others⟩
  · rw [missing] at served
    cases served
    exact .unchanged rfl rfl
  · generalize unrevokeHost before hostId = result at served done writes others
    obtain ⟨written, success⟩ := result
    cases done
    cases served
    exact .unrevoked hostId host rfl found writes others rfl

/-- Every served exchange has one of the listed effects. -/
theorem effect_of_serves {exchange : Exchange}
    (served : Serves settings before exchange after) :
    Effect settings before exchange after := by
  obtain ⟨request, draws, response⟩ := exchange
  cases request with
  | enroll body => exact effect_of_enroll served
  | ingest request => exact effect_of_ingest served
  | revoke hostId => exact effect_of_revoke served
  | unrevoke hostId => exact effect_of_unrevoke served

end Cases

/-- A run of the collector. -/
abbrev CollectorRun (settings : Settings) (start : Database)
    (exchanges : List Exchange) (finish : Database) : Prop :=
  Run (Serves settings) start exchanges finish

/-- Serving a list of requests is a run. -/
theorem run_serveAll (settings : Settings) (start : Database)
    (requests : List (Request × Draws)) :
    CollectorRun settings start (serveAll settings start requests).2
      (serveAll settings start requests).1 := by
  induction requests generalizing start with
  | nil => exact .nil
  | cons first rest inductionHypothesis =>
      have served : Serves settings start
          ⟨first.1, first.2, (handle settings first.2 start first.1).2⟩
          (handle settings first.2 start first.1).1 :=
        rfl
      exact Run.cons served (inductionHypothesis _)

end Daemon
end PqcScan
