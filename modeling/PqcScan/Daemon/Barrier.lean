import PqcScan.Daemon.Interleaving

/-!
# Revocation as a barrier for ingest

After `revoke_host` commits, a request that has not yet authenticated is turned
away.  A request that authenticated before the revocation is not stopped again:
nothing between the authentication and the commit of `ingest_bundle` looks at
the revoked flag.  So the barrier holds when no such request is in flight.
-/

namespace PqcScan
namespace Daemon

open Library Python PqcScan.Core Store Repo

/-- The host as which a request that may still store a scan has
authenticated. -/
def Stage.inFlight : Stage → Option Nat
  | .ingestAuthenticated _ host => some host.id
  | .ingestParsed host _ => some host.id
  | .ingestCompared host _ _ _ => some host.id
  | .ingestChecked host _ _ _ => some host.id
  | _ => none

/-- The transaction stores a scan for the host. -/
def StoresScan (before after : Database) (hostId : Nat) : Prop :=
  ∃ scan ∈ after.scans, scan ∉ before.scans ∧ scan.hostId = some hostId

/-- No transaction between a revocation of the host and its re-approval stores
a scan for the host. -/
def RevocationBarrier (settings : Settings) (start : Collector)
    (moves : List (Move Thread)) (hostId : Nat) : Prop :=
  ∀ (past between future : List (Move Thread)) (revocation write : Move Thread)
    (before after : Collector),
    moves = past ++ revocation :: (between ++ write :: future) →
    revokedHost revocation = some hostId →
    (∀ move ∈ between, unrevokedHost move ≠ some hostId) →
    Schedule settings start (past ++ revocation :: between) before →
    Advances (advance settings) before write after →
    ¬ StoresScan before.shared after.shared hostId

/-- No request that authenticated as the host is in flight when a revocation of
the host commits. -/
def RevokedWhenQuiet (settings : Settings) (start : Collector)
    (moves : List (Move Thread)) (hostId : Nat) : Prop :=
  ∀ (past future : List (Move Thread)) (revocation : Move Thread)
    (before : Collector),
    moves = past ++ revocation :: future →
    revokedHost revocation = some hostId →
    Schedule settings start past before →
    ∀ thread ∈ before.threads, thread.stage.inFlight ≠ some hostId

/-! ## One move -/

section Moves

variable {settings : Settings} {before after : Database} {thread next : Thread}

/-- Only the write of a request that authenticated as the host
stores a scan for the host. -/
theorem inFlight_of_storesScan {hostId : Nat}
    (commit : Commit settings before after thread next)
    (stores : StoresScan before after hostId) :
    thread.stage.inFlight = some hostId := by
  obtain ⟨scan, member, fresh, owner⟩ := stores
  cases commit with
  | unchanged same =>
      rw [same] at member
      exact absurd member fresh
  | minted identity row started upserted arrived =>
      rw [upserted.others.scans] at member
      exact absurd member fresh
  | stored host bundle drift changes time row agentRows driftRows newViews
      started written arrived =>
      rw [Table.mem_iff, written.scans, List.mem_append, List.mem_singleton]
        at member
      rcases member with earlier | rfl
      · exact absurd earlier fresh
      · rw [started, ← owner, written.scanHost]
        rfl
  | deleted scanId rest result started deletes =>
      rw [deletes] at member
      exact absurd (Table.mem_filter.mp member).1 fresh
  | revoked host row started found writes others arrived =>
      rw [others.scans] at member
      exact absurd member fresh
  | unrevoked host row started found writes others arrived =>
      rw [others.scans] at member
      exact absurd member fresh

/-- A revoked host stays revoked until it is re-approved. -/
theorem revoked_persists {host : Host}
    (commit : Commit settings before after thread next)
    (member : host ∈ before.hosts) (marked : host.revoked = true)
    (kept : ¬ (thread.stage = .unrevokeReceived host.id ∧
      next.stage = .answered .unrevoked)) :
    ∃ later ∈ after.hosts, later.id = host.id ∧ later.revoked = true := by
  obtain ⟨later, laterMember, sameId, _, step⟩ := commit.host member
  refine ⟨later, laterMember, sameId, ?_⟩
  cases step with
  | kept _ revoked => exact revoked.trans marked
  | minted _ _ _ _ revoked _ => exact revoked.trans marked
  | revoked _ revoked => exact revoked
  | unrevoked started _ arrived => exact absurd ⟨started, arrived⟩ kept

/-- A request in flight for a host was so before its move, or has just found the
host unrevoked. -/
theorem inFlight_of_advanceStage {draws : Draws} {stage arrived : Stage}
    {hostId : Nat}
    (step : advanceStage settings draws before stage = (after, arrived))
    (inFlight : arrived.inFlight = some hostId) :
    stage.inFlight = some hostId ∨
      ∃ host ∈ before.hosts, host.id = hostId ∧ host.revoked = false := by
  cases stage with
  | ingestReceived request =>
      simp only [advanceStage] at step
      split at step
      · cases step
        cases inFlight
      · next host authenticated =>
          cases step
          cases inFlight
          obtain ⟨_, _, member, _, unrevoked⟩ :=
            agentHost_eq_ok_iff.mp authenticated
          exact Or.inr ⟨host, member, rfl, unrevoked⟩
  | ingestAuthenticated request host =>
      simp only [advanceStage] at step
      split at step <;> cases step
      · cases inFlight
      · exact Or.inl inFlight
  | ingestParsed host bundle =>
      simp only [advanceStage] at step
      split at step <;> cases step
      · cases inFlight
      · exact Or.inl inFlight
  | ingestCompared host bundle drift changes =>
      simp only [advanceStage] at step
      split at step
      · cases step
        cases inFlight
      · cases step
        cases inFlight
      · next loaded checked =>
          cases step
          obtain ⟨⟨_, sameId⟩, _⟩ := duplicateCheck_ok checked
          exact Or.inl ((congrArg some sameId).symm.trans inFlight)
  | ingestStored _ _ | enrollReceived _ | enrollRead _ | ingestChecked _ _ _ _ =>
      -- The thread goes on without a host, or is answered.
      simp only [advanceStage] at step
      split at step <;> cases step <;> cases inFlight
  | ingestPruning scanIds _ | ingestSweeping scanIds _ =>
      cases scanIds <;> cases step <;> cases inFlight
  | enrollApproved _ | ingestRaced _ | ingestPruned _ | revokeReceived _
  | unrevokeReceived _ | answered _ =>
      cases step
      cases inFlight

end Moves

/-! ## A schedule -/

/-- The host is revoked and no request in flight has authenticated as it. -/
structure Blocked (hostId : Nat) (pool : Collector) : Prop where
  revoked : ∃ host ∈ pool.shared.hosts, host.id = hostId ∧ host.revoked = true
  quiet : ∀ thread ∈ pool.threads, thread.stage.inFlight ≠ some hostId

section Schedules

variable {settings : Settings} {pool next : Collector} {move : Move Thread}
  {hostId : Nat}

/-- Every move but the re-approval keeps the host blocked. -/
theorem Blocked.of_move (blocked : Blocked hostId pool)
    (advances : Advances (advance settings) pool move next)
    (kept : unrevokedHost move ≠ some hostId) : Blocked hostId next := by
  obtain ⟨host, member, rfl, marked⟩ := blocked.revoked
  constructor
  · refine revoked_persists (commit_of_advances advances) member marked ?_
    rintro ⟨started, arrived⟩
    exact kept (by simp only [unrevokedHost, started, arrived])
  · intro thread threadMember inFlight
    rcases advances.eq_or_mem threadMember with rfl | earlier
    · rcases inFlight_of_advanceStage (stage_of_advances advances).1 inFlight
        with before | ⟨other, otherMember, sameId, unrevoked⟩
      · exact blocked.quiet move.before advances.mem_before before
      · rw [Table.eq_of_id_eq member otherMember sameId.symm, unrevoked] at marked
        cases marked
    · exact blocked.quiet thread earlier inFlight

/-- A revocation that finds no request in flight blocks the host. -/
theorem blocked_of_revocation
    (advances : Advances (advance settings) pool move next)
    (revoked : revokedHost move = some hostId)
    (quiet : ∀ thread ∈ pool.threads, thread.stage.inFlight ≠ some hostId) :
    Blocked hostId next := by
  obtain ⟨host, member, sameId, marked, _⟩ := revoked_of_move advances revoked
  refine ⟨⟨host, member, sameId, marked⟩, fun thread threadMember inFlight => ?_⟩
  rcases advances.eq_or_mem threadMember with rfl | earlier
  · rcases inFlight_of_advanceStage (stage_of_advances advances).1 inFlight with
      before | ⟨_, _, _, _⟩
    · exact quiet move.before advances.mem_before before
    · unfold revokedHost at revoked
      split at revoked
      · next answered =>
          rw [answered] at inFlight
          cases inFlight
      · cases revoked
  · exact quiet thread earlier inFlight

/-- A blocked host stays blocked until it is re-approved. -/
theorem Blocked.of_schedule {moves : List (Move Thread)} {start finish : Collector}
    (schedule : Schedule settings start moves finish)
    (blocked : Blocked hostId start)
    (kept : ∀ move ∈ moves, unrevokedHost move ≠ some hostId) :
    Blocked hostId finish := by
  have reached := schedule.history
    (fun past pool => (∀ move ∈ past, unrevokedHost move ≠ some hostId) →
      Blocked hostId pool)
    (fun _ => blocked)
    (fun past before move after _ inductionHypothesis last unlifted => by
      have earlier := inductionHypothesis fun other member =>
        unlifted other (List.mem_append_left _ member)
      exact earlier.of_move last (unlifted move (by simp)))
  exact reached kept

/-- When every revocation of the host finds no request of the host in flight,
revocation is a barrier. -/
theorem revocation_blocks_ingest (settings : Settings) (start : Collector)
    (moves : List (Move Thread)) (hostId : Nat)
    (quiet : RevokedWhenQuiet settings start moves hostId) :
    RevocationBarrier settings start moves hostId := by
  intro past between future revocation write before after moves_eq revokes kept
    schedule last stores
  obtain ⟨pool, blockedPool, early, revoking, later⟩ := schedule.at_step
  have blocked := blocked_of_revocation revoking revokes
    (quiet past (between ++ write :: future) revocation pool moves_eq revokes
      early)
  have stillBlocked := blocked.of_schedule later kept
  exact stillBlocked.quiet write.before last.mem_before
    (inFlight_of_storesScan (commit_of_advances last) stores)

end Schedules

/-! ## Both orders of a revocation and an ingest -/

/-- A collector that reads one enrollment and one scan of machine `m1`. -/
def oneScan : Settings :=
  sampleSettings [enrollDocument "m1" [], scanDocument "m1" "u1" [148, 227, 223, 116]]
    30

/-- The machine is enrolled; its scan and its revocation are on the way. -/
def ingestAndRevocation : Collector where
  shared := (handle oneScan (sampleDraws "t1") Database.empty
    (enrollRequest (enrollDocument "m1" []))).1
  threads :=
    [⟨sampleDraws "", .ingestReceived (ingestRequest "t1"
        (scanDocument "m1" "u1" [148, 227, 223, 116]))⟩,
      ⟨sampleDraws "", .revokeReceived 1⟩]

/-- Once the revocation has been served, the ingest is turned away. -/
theorem revocation_blocks_ingest_refused :
    RevocationBarrier oneScan ingestAndRevocation
      (runSchedule (advance oneScan) ingestAndRevocation [1, 0]).2 1 := by
  apply revocation_blocks_ingest
  rintro (_ | ⟨first, _ | ⟨second, rest⟩⟩) future revocation before moves_eq revokes
    schedule
  · obtain rfl := schedule.eq_of_nil
    decide +kernel
  · -- The second move is the ingest's, which revokes nobody.
    have second : ((runSchedule (advance oneScan) ingestAndRevocation
        [1, 0]).2[1]?).bind revokedHost = none := by
      decide +kernel
    rw [moves_eq] at second
    exact absurd (second.symm.trans revokes) (by simp)
  · have count : (runSchedule (advance oneScan) ingestAndRevocation
        [1, 0]).2.length = 2 := by
      decide +kernel
    rw [moves_eq] at count
    simp at count

/-- The ingest has passed its checks. -/
def checkedPool : Collector :=
  (runSchedule (advance oneScan) ingestAndRevocation [0, 0, 0, 0]).1

/-- Then the host was revoked. -/
def revokedPool : Collector := (runSchedule (advance oneScan) checkedPool [1]).1

/-- A scan that passed the checks before the revocation is stored after it. -/
theorem revoked_host_stores :
    ∃ moves finish, Schedule oneScan ingestAndRevocation moves finish ∧
      ¬ RevocationBarrier oneScan ingestAndRevocation moves 1 := by
  have checked := interleaving_runSchedule (advance oneScan) ingestAndRevocation
    [0, 0, 0, 0]
  obtain ⟨revocation, revoking, revocationTurn⟩ :=
    exists_turn (advance oneScan) checkedPool 1 (by decide +kernel)
  obtain ⟨write, writing, _⟩ :=
    exists_turn (advance oneScan) revokedPool 0 (by decide +kernel)
  have revokes : (runSchedule (advance oneScan) checkedPool [1]).2.map
      revokedHost = [some 1] := by
    decide +kernel
  rw [revocationTurn, List.map_singleton, List.singleton_inj] at revokes
  have schedule : Schedule oneScan ingestAndRevocation
      ((runSchedule (advance oneScan) ingestAndRevocation [0, 0, 0, 0]).2 ++
        [revocation]) revokedPool :=
    Run.snoc checked revoking
  have empty : revokedPool.shared.scans.rows.isEmpty = true := by
    decide +kernel
  have stored : ((runSchedule (advance oneScan) revokedPool [0]).1.shared.scans.rows.map
      Scan.hostId) = [some 1] := by
    decide +kernel
  obtain ⟨scan, rows, owner⟩ := List.map_eq_singleton_iff.mp stored
  refine ⟨_, _, Run.snoc schedule writing, fun barrier => ?_⟩
  refine barrier _ [] [] revocation write revokedPool _ (by simp) revokes (by simp)
    schedule writing ⟨scan, ?_, ?_, owner⟩
  · rw [Table.mem_iff, rows]
    exact List.mem_singleton_self scan
  · rw [Table.mem_iff, List.isEmpty_iff.mp empty]
    exact List.not_mem_nil

end Daemon
end PqcScan
