import PqcScan.Daemon.Effect
import PqcScan.Library.Interleaving

/-!
# Interleaved requests

A request goes through stages; between two stages it keeps only what the
handler's local variables hold, and other requests or the administrator's
commands may run their transactions.  `advance` is one transaction, or one
stretch of code without one.  A request that runs alone gives the answer of the
sequential handler.
-/

namespace PqcScan
namespace Daemon

open Library Python PqcScan.Core Store Repo

/-- Where a request stands. -/
inductive Stage
  | enrollReceived (body : Body)
  /-- The body has been read, the prior host row not yet. -/
  | enrollRead (identity : HostIdentity)
  /-- No revoked host was found; the token is about to be stored. -/
  | enrollApproved (identity : HostIdentity)
  | ingestReceived (request : IngestRequest)
  | ingestAuthenticated (request : IngestRequest) (host : Host)
  | ingestParsed (host : Host) (bundle : ScanBundle)
  /-- The drift has been read. -/
  | ingestCompared (host : Host) (bundle : ScanBundle) (drift : List Finding)
      (changes : Nat)
  /-- The write session found no scan with the uuid. -/
  | ingestChecked (host : Host) (bundle : ScanBundle) (drift : List Finding)
      (changes : Nat)
  /-- The write violated a constraint. -/
  | ingestRaced (bundle : ScanBundle)
  /-- The bundle is stored, retention is still to run. -/
  | ingestStored (hostId : Nat) (result : IngestResult)
  | ingestPruning (scanIds : List Nat) (result : IngestResult)
  | ingestPruned (result : IngestResult)
  | ingestSweeping (scanIds : List Nat) (result : IngestResult)
  | revokeReceived (hostId : Nat)
  | unrevokeReceived (hostId : Nat)
  | answered (response : Response)

/-- A request in flight. -/
structure Thread where
  draws : Draws
  stage : Stage

/-- The scans `prune_host` is about to delete. -/
def pruneSelection (settings : Settings) (db : Database) (hostId : Nat) :
    Option (List Nat) :=
  if settings.keepScansPerHost < 1 then none
  else some (pruneVictims db hostId settings.keepScansPerHost)

/-- The next step of a request. -/
def advanceStage (settings : Settings) (draws : Draws) (db : Database) :
    Stage → Database × Stage
  | .enrollReceived body =>
      match readEnroll settings body with
      | .error refusal => (db, .answered (.refused refusal))
      | .ok identity => (db, .enrollRead identity)
  | .enrollRead identity =>
      match checkPrior db identity with
      | .error refusal => (db, .answered (.refused refusal))
      | .ok () => (db, .enrollApproved identity)
  | .enrollApproved identity =>
      let (after, response) := mintToken settings draws db identity
      (after, .answered response)
  | .ingestReceived request =>
      match agentHost settings db request.authorization with
      | .error refusal => (db, .answered (.refused refusal))
      | .ok host => (db, .ingestAuthenticated request host)
  | .ingestAuthenticated request host =>
      match acceptBundle settings draws host request.body with
      | .error refusal => (db, .answered (.refused refusal))
      | .ok bundle => (db, .ingestParsed host bundle)
  | .ingestParsed host bundle =>
      match bundleDrift settings.py draws.now db bundle host.id with
      | .error error => (db, .answered (invalidContent error))
      | .ok (drift, changes) => (db, .ingestCompared host bundle drift changes)
  | .ingestCompared host bundle drift changes =>
      match duplicateCheck db bundle host.id with
      | .error error => (db, .answered (invalidContent error))
      | .ok (_, some scanId) =>
          (db, .answered (ingestAnswer (duplicateResult scanId)))
      | .ok (loaded, none) => (db, .ingestChecked loaded bundle drift changes)
  | .ingestChecked host bundle drift changes =>
      match writeBundle settings.py draws.now db bundle host drift changes with
      | .error (.python error) => (db, .answered (invalidContent error))
      | .error .integrity => (db, .ingestRaced bundle)
      | .ok (after, result) => (after, .ingestStored host.id result)
  | .ingestRaced bundle => (db, .answered (recoverRace db bundle))
  | .ingestStored hostId result =>
      match pruneSelection settings db hostId with
      | none => (db, .answered (ingestAnswer result))
      | some scanIds => (db, .ingestPruning scanIds result)
  | .ingestPruning [] result => (db, .ingestPruned result)
  | .ingestPruning (scanId :: rest) result =>
      (deleteScan db scanId, .ingestPruning rest result)
  | .ingestPruned result =>
      (db, .ingestSweeping (staleRollups draws.sweepTime db) result)
  | .ingestSweeping [] result => (db, .answered (ingestAnswer result))
  | .ingestSweeping (scanId :: rest) result =>
      (deleteScan db scanId, .ingestSweeping rest result)
  | .revokeReceived hostId =>
      let (after, response) := revoke db hostId
      (after, .answered response)
  | .unrevokeReceived hostId =>
      let (after, response) := unrevoke db hostId
      (after, .answered response)
  | .answered response => (db, .answered response)

/-- The next step of a thread. -/
def advance (settings : Settings) (db : Database) (thread : Thread) :
    Database × Thread :=
  let (after, stage) := advanceStage settings thread.draws db thread.stage
  (after, ⟨thread.draws, stage⟩)

/-- Requests in flight at one collector. -/
abbrev Collector := Pool Database Thread

/-- A schedule of the requests in flight. -/
abbrev Schedule (settings : Settings) (start : Collector)
    (moves : List (Move Thread)) (finish : Collector) : Prop :=
  Interleaving (advance settings) start moves finish

/-- Where a request starts. -/
def Request.stage : Request → Stage
  | .enroll body => .enrollReceived body
  | .ingest request => .ingestReceived request
  | .revoke hostId => .revokeReceived hostId
  | .unrevoke hostId => .unrevokeReceived hostId

/-! ## A request that runs alone -/

/-- The stages of one thread, without interference. -/
def Alone (settings : Settings) (draws : Draws)
    (start finish : Database × Stage) : Prop :=
  ∃ steps : Nat,
    (fun state => advanceStage settings draws state.1 state.2)^[steps] start =
      finish

section Alone

variable {settings : Settings} {draws : Draws}

theorem Alone.refl (state : Database × Stage) : Alone settings draws state state :=
  ⟨0, rfl⟩

theorem Alone.step {db : Database} {stage : Stage} {finish : Database × Stage}
    (rest : Alone settings draws (advanceStage settings draws db stage) finish) :
    Alone settings draws (db, stage) finish := by
  obtain ⟨steps, finished⟩ := rest
  exact ⟨steps + 1, finished⟩

theorem Alone.trans {start middle finish : Database × Stage}
    (first : Alone settings draws start middle)
    (second : Alone settings draws middle finish) :
    Alone settings draws start finish := by
  obtain ⟨firstSteps, rfl⟩ := first
  obtain ⟨secondSteps, rfl⟩ := second
  exact ⟨secondSteps + firstSteps, Function.iterate_add_apply _ _ _ _⟩

theorem Alone.pruning (scanIds : List Nat) (result : IngestResult)
    (db : Database) :
    Alone settings draws (db, .ingestPruning scanIds result)
      (deleteScans db scanIds, .ingestPruned result) := by
  induction scanIds generalizing db with
  | nil =>
      apply Alone.step
      exact .refl _
  | cons scanId rest inductionHypothesis =>
      apply Alone.step
      exact inductionHypothesis (deleteScan db scanId)

theorem Alone.sweeping (scanIds : List Nat) (result : IngestResult)
    (db : Database) :
    Alone settings draws (db, .ingestSweeping scanIds result)
      (deleteScans db scanIds, .answered (ingestAnswer result)) := by
  induction scanIds generalizing db with
  | nil =>
      apply Alone.step
      exact .refl _
  | cons scanId rest inductionHypothesis =>
      apply Alone.step
      exact inductionHypothesis (deleteScan db scanId)

/-- After the bundle is stored, a thread alone trims as the handler does. -/
theorem Alone.trimming (db : Database) (hostId : Nat) (result : IngestResult) :
    Alone settings draws (db, .ingestStored hostId result)
      (trim settings draws db hostId, .answered (ingestAnswer result)) := by
  apply Alone.step
  by_cases small : settings.keepScansPerHost < 1
  · simp only [advanceStage, pruneSelection, trim, pruneHost, if_pos small]
    exact .refl _
  · simp only [advanceStage, pruneSelection, trim, pruneHost, if_neg small,
      deleteStaleRollups]
    apply Alone.trans (Alone.pruning _ _ _)
    apply Alone.step
    exact Alone.sweeping _ _ _

theorem alone_enroll (db : Database) (body : Body) :
    Alone settings draws (db, .enrollReceived body)
      ((enroll settings draws db body).1,
        .answered (enroll settings draws db body).2) := by
  apply Alone.step
  cases read : readEnroll settings body with
  | error refusal =>
      simp only [enroll, advanceStage, read]
      exact .refl _
  | ok identity =>
      simp only [enroll, advanceStage, read]
      apply Alone.step
      cases approved : checkPrior db identity with
      | error refusal =>
          simp only [advanceStage, approved]
          exact .refl _
      | ok =>
          simp only [advanceStage, approved]
          apply Alone.step
          exact .refl _

theorem alone_ingest (db : Database) (request : IngestRequest) :
    Alone settings draws (db, .ingestReceived request)
      ((ingest settings draws db request).1,
        .answered (ingest settings draws db request).2) := by
  unfold ingest
  apply Alone.step
  cases authenticated : agentHost settings db request.authorization with
  | error refusal =>
      simp only [advanceStage, authenticated]
      exact .refl _
  | ok host =>
  simp only [advanceStage, authenticated]
  apply Alone.step
  cases accepted : acceptBundle settings draws host request.body with
  | error refusal =>
      simp only [advanceStage, accepted]
      exact .refl _
  | ok bundle =>
  simp only [advanceStage, accepted, ingestBundle]
  apply Alone.step
  cases driftRead : bundleDrift settings.py draws.now db bundle host.id with
  | error error =>
      simp only [advanceStage, driftRead]
      exact .refl _
  | ok computed =>
  simp only [advanceStage, driftRead]
  apply Alone.step
  cases checked : duplicateCheck db bundle host.id with
  | error error =>
      simp only [advanceStage, checked]
      exact .refl _
  | ok found =>
  obtain ⟨loaded, existing⟩ := found
  cases existing with
  | some scanId =>
      simp only [advanceStage, checked]
      exact .refl _
  | none =>
  simp only [advanceStage, checked]
  apply Alone.step
  obtain ⟨⟨_, sameId⟩, _⟩ := duplicateCheck_ok checked
  rcases wrote : writeBundle settings.py draws.now db bundle loaded computed.1
      computed.2 with (error | _) | ⟨after, result⟩
  · simp only [advanceStage, wrote]
    exact .refl _
  · simp only [advanceStage, wrote]
    apply Alone.step
    exact .refl _
  · obtain ⟨_, _, _, _, _, _, rfl⟩ := writeBundle_written wrote
    simp only [advanceStage, wrote, sameId]
    exact Alone.trimming after host.id _

/-- A request that runs alone does what the sequential handler does. -/
theorem alone_handle (db : Database) (request : Request) :
    Alone settings draws (db, request.stage)
      ((handle settings draws db request).1,
        .answered (handle settings draws db request).2) := by
  cases request with
  | enroll body => exact alone_enroll db body
  | ingest request => exact alone_ingest db request
  | revoke hostId => exact .step (.refl _)
  | unrevoke hostId => exact .step (.refl _)

end Alone

/-! ## What one move does to the store -/

/-- The ways a move can change the database. -/
inductive Commit (settings : Settings) (before after : Database)
    (thread next : Thread) : Prop
  | unchanged (same : after = before)
  | minted (identity : HostIdentity) (row : Host)
      (started : thread.stage = .enrollApproved identity)
      (upserted : Upserted (thread.draws.now 0) identity
        (some (settings.hashToken thread.draws.token)) before after row)
      (arrived : next.stage = .answered (.enrolled row.id thread.draws.token))
  | stored (host : Host) (bundle : ScanBundle) (drift : List Finding)
      (changes : Nat) (time : DateTime) (scan : Scan)
      (agentRows driftRows : List FindingRow) (newViews : List FrameworkView)
      (started : thread.stage = .ingestChecked host bundle drift changes)
      (written : BundleWritten settings.py before after bundle host drift time
        scan agentRows driftRows newViews)
      (arrived : next.stage =
        .ingestStored host.id (writtenResult bundle scan changes))
  | deleted (scanId : Nat) (rest : List Nat) (result : IngestResult)
      (started : thread.stage = .ingestPruning (scanId :: rest) result ∨
        thread.stage = .ingestSweeping (scanId :: rest) result)
      (deletes : after = deleteScan before scanId)
  | revoked (hostId : Nat) (host : Host)
      (started : thread.stage = .revokeReceived hostId)
      (found : getHost before hostId = some host)
      (writes : Table.Writes before.hosts after.hosts (some host)
        (revokeRow host))
      (others : OnlyHosts before after)
      (arrived : next.stage = .answered .revoked)
  | unrevoked (hostId : Nat) (host : Host)
      (started : thread.stage = .unrevokeReceived hostId)
      (found : getHost before hostId = some host)
      (writes : Table.Writes before.hosts after.hosts (some host)
        (unrevokeRow host))
      (others : OnlyHosts before after)
      (arrived : next.stage = .answered .unrevoked)

theorem commit_of_advanceStage {settings : Settings} {draws : Draws}
    {before after : Database} {stage next : Stage}
    (step : advanceStage settings draws before stage = (after, next)) :
    Commit settings before after ⟨draws, stage⟩ ⟨draws, next⟩ := by
  cases stage with
  | enrollReceived body =>
      simp only [advanceStage] at step
      split at step <;> cases step <;> exact .unchanged rfl
  | enrollRead identity =>
      simp only [advanceStage] at step
      split at step <;> cases step <;> exact .unchanged rfl
  | enrollApproved identity =>
      simp only [advanceStage, mintToken] at step
      cases minted : upsertHost (draws.now 0) before identity
          (some (settings.hashToken draws.token)) with
      | some written =>
          rw [minted] at step
          cases step
          exact .minted identity written.2 rfl (upserted minted) rfl
      | none =>
          rw [minted] at step
          cases step
          exact .unchanged rfl
  | ingestReceived request =>
      simp only [advanceStage] at step
      split at step <;> cases step <;> exact .unchanged rfl
  | ingestAuthenticated request host =>
      simp only [advanceStage] at step
      split at step <;> cases step <;> exact .unchanged rfl
  | ingestParsed host bundle =>
      simp only [advanceStage] at step
      split at step <;> cases step <;> exact .unchanged rfl
  | ingestCompared host bundle drift changes =>
      simp only [advanceStage] at step
      split at step <;> cases step <;> exact .unchanged rfl
  | ingestChecked host bundle drift changes =>
      simp only [advanceStage] at step
      split at step
      · cases step
        exact .unchanged rfl
      · cases step
        exact .unchanged rfl
      · next written result wrote =>
          cases step
          obtain ⟨time, scan, agentRows, driftRows, newViews, effect, rfl⟩ :=
            writeBundle_written wrote
          exact .stored host bundle drift changes time scan agentRows driftRows
            newViews rfl effect rfl
  | ingestRaced bundle =>
      cases step
      exact .unchanged rfl
  | ingestStored hostId result =>
      simp only [advanceStage] at step
      split at step <;> cases step <;> exact .unchanged rfl
  | ingestPruning scanIds result =>
      cases scanIds with
      | nil =>
          cases step
          exact .unchanged rfl
      | cons scanId rest =>
          cases step
          exact .deleted scanId rest result (Or.inl rfl) rfl
  | ingestPruned result =>
      cases step
      exact .unchanged rfl
  | ingestSweeping scanIds result =>
      cases scanIds with
      | nil =>
          cases step
          exact .unchanged rfl
      | cons scanId rest =>
          cases step
          exact .deleted scanId rest result (Or.inr rfl) rfl
  | revokeReceived hostId =>
      simp only [advanceStage, revoke] at step
      rcases revokeHost_cases before hostId with
        ⟨_, missing⟩ | ⟨host, found, done, writes, others⟩
      · rw [missing] at step
        cases step
        exact .unchanged rfl
      · generalize revokeHost before hostId = result at step done writes others
        obtain ⟨written, success⟩ := result
        cases done
        cases step
        exact .revoked hostId host rfl found writes others rfl
  | unrevokeReceived hostId =>
      simp only [advanceStage, unrevoke] at step
      rcases unrevokeHost_cases before hostId with
        ⟨_, missing⟩ | ⟨host, found, done, writes, others⟩
      · rw [missing] at step
        cases step
        exact .unchanged rfl
      · generalize unrevokeHost before hostId = result at step done writes others
        obtain ⟨written, success⟩ := result
        cases done
        cases step
        exact .unrevoked hostId host rfl found writes others rfl
  | answered response =>
      cases step
      exact .unchanged rfl

/-- A move is a stage of its thread. -/
theorem stage_of_advances {settings : Settings} {pool next : Collector}
    {move : Move Thread}
    (advances : Advances (advance settings) pool move next) :
    advanceStage settings move.before.draws pool.shared move.before.stage =
        (next.shared, move.after.stage) ∧
      move.after.draws = move.before.draws := by
  obtain ⟨sharedEq, threadEq⟩ := Prod.mk.inj advances.transaction
  rw [← sharedEq, ← threadEq]
  exact ⟨rfl, rfl⟩

/-- Every move changes the database in one of the listed ways. -/
theorem commit_of_advances {settings : Settings} {pool next : Collector}
    {move : Move Thread}
    (advances : Advances (advance settings) pool move next) :
    Commit settings pool.shared next.shared move.before move.after := by
  obtain ⟨step, sameDraws⟩ := stage_of_advances advances
  rcases move with ⟨_, ⟨draws, stage⟩, ⟨_, arrived⟩⟩
  dsimp only at step sameDraws
  subst sameDraws
  exact commit_of_advanceStage step

/-- What a move makes of one host row. -/
inductive HostStep (settings : Settings) (thread next : Thread)
    (host later : Host) : Prop
  | kept (tokenHash : later.tokenHash = host.tokenHash)
      (revoked : later.revoked = host.revoked)
  | minted (identity : HostIdentity)
      (started : thread.stage = .enrollApproved identity)
      (machine : identity.machineId = host.machineId)
      (tokenHash : later.tokenHash =
        some (settings.hashToken thread.draws.token))
      (revoked : later.revoked = host.revoked)
      (arrived : next.stage =
        .answered (.enrolled host.id thread.draws.token))
  | revoked (tokenHash : later.tokenHash = none)
      (revoked : later.revoked = true)
  | unrevoked (started : thread.stage = .unrevokeReceived host.id)
      (tokenHash : later.tokenHash = host.tokenHash)
      (arrived : next.stage = .answered .unrevoked)

/-- No host row is lost or changes its machine. -/
theorem Commit.host {settings : Settings} {before after : Database}
    {thread next : Thread} {host : Host}
    (commit : Commit settings before after thread next)
    (member : host ∈ before.hosts) :
    ∃ later ∈ after.hosts, later.id = host.id ∧
      later.machineId = host.machineId ∧
      HostStep settings thread next host later := by
  cases commit with
  | unchanged same =>
      rw [same]
      exact ⟨host, member, rfl, rfl, .kept rfl rfl⟩
  | minted identity row started upserted arrived =>
      rcases upserted.writes.kept_or_replaced member with
        still | ⟨replaced, sameId⟩
      · exact ⟨host, still, rfl, rfl, .kept rfl rfl⟩
      · have machine := (getHostByMachineId_eq_some_iff.mp replaced).2
        have sameKey : row.id = host.id := sameId
        refine ⟨row, upserted.writes.written, sameId,
          upserted.machineId.trans machine.symm, ?_⟩
        exact .minted identity started machine.symm upserted.tokenHash_eq
          (upserted.revoked_eq replaced) (sameKey ▸ arrived)
  | stored known bundle drift changes time scan agentRows driftRows newViews
      started written arrived =>
      obtain ⟨current, currentMember, sameKey⟩ := written.known
      have writes := written.writes
        (getHost_eq_some_iff.mpr ⟨currentMember, sameKey⟩)
      rcases writes.kept_or_replaced member with still | ⟨replaced, sameId⟩
      · exact ⟨host, still, rfl, rfl, .kept rfl rfl⟩
      · obtain rfl := Option.some_inj.mp replaced
        exact ⟨_, writes.written, sameId, rfl, .kept rfl rfl⟩
  | deleted scanId rest result started deletes =>
      rw [deletes]
      exact ⟨host, member, rfl, rfl, .kept rfl rfl⟩
  | revoked hostId row started found writes others arrived =>
      rcases writes.kept_or_replaced member with still | ⟨replaced, sameId⟩
      · exact ⟨host, still, rfl, rfl, .kept rfl rfl⟩
      · obtain rfl := Option.some_inj.mp replaced
        exact ⟨_, writes.written, sameId, rfl, .revoked rfl rfl⟩
  | unrevoked hostId row started found writes others arrived =>
      rcases writes.kept_or_replaced member with still | ⟨replaced, sameId⟩
      · exact ⟨host, still, rfl, rfl, .kept rfl rfl⟩
      · obtain rfl := Option.some_inj.mp replaced
        obtain ⟨_, rfl⟩ := getHost_eq_some_iff.mp found
        exact ⟨_, writes.written, sameId, rfl, .unrevoked started rfl arrived⟩

/-! ## What a move commits -/

/-- The host a move revokes. -/
def revokedHost (move : Move Thread) : Option Nat :=
  match move.before.stage, move.after.stage with
  | .revokeReceived hostId, .answered .revoked => some hostId
  | _, _ => none

/-- The host a move re-approves. -/
def unrevokedHost (move : Move Thread) : Option Nat :=
  match move.before.stage, move.after.stage with
  | .unrevokeReceived hostId, .answered .unrevoked => some hostId
  | _, _ => none

section Moves

variable {settings : Settings} {pool next : Collector} {move : Move Thread}

/-- A revoked host is marked and has no token. -/
theorem revoked_of_move
    (advances : Advances (advance settings) pool move next) {hostId : Nat}
    (revoked : revokedHost move = some hostId) :
    ∃ host ∈ next.shared.hosts, host.id = hostId ∧ host.revoked = true ∧
      host.tokenHash = none := by
  have step := (stage_of_advances advances).1
  unfold revokedHost at revoked
  split at revoked
  · next received answered =>
      cases revoked
      rw [received, answered] at step
      simp only [advanceStage, revoke] at step
      rcases revokeHost_cases pool.shared hostId with
        ⟨_, missing⟩ | ⟨host, found, done, writes, _⟩
      · rw [missing] at step
        simp at step
      · generalize revokeHost pool.shared hostId = result at step done writes
        obtain ⟨written, success⟩ := result
        cases done
        obtain ⟨rfl, _⟩ := Prod.mk.inj step
        exact ⟨revokeRow host, writes.written,
          (getHost_eq_some_iff.mp found).2, rfl, rfl⟩
  · cases revoked

/-- A re-approved host is stored and unmarked; its token is as it was. -/
theorem unrevoked_of_move
    (advances : Advances (advance settings) pool move next) {hostId : Nat}
    (unrevoked : unrevokedHost move = some hostId) :
    ∃ host ∈ pool.shared.hosts, host.id = hostId ∧
      unrevokeRow host ∈ next.shared.hosts := by
  have step := (stage_of_advances advances).1
  unfold unrevokedHost at unrevoked
  split at unrevoked
  · next received answered =>
      cases unrevoked
      rw [received, answered] at step
      simp only [advanceStage, unrevoke] at step
      rcases unrevokeHost_cases pool.shared hostId with
        ⟨_, missing⟩ | ⟨host, found, done, writes, _⟩
      · rw [missing] at step
        simp at step
      · generalize unrevokeHost pool.shared hostId = result at step done writes
        obtain ⟨written, success⟩ := result
        cases done
        obtain ⟨rfl, _⟩ := Prod.mk.inj step
        obtain ⟨member, sameId⟩ := getHost_eq_some_iff.mp found
        exact ⟨host, member, sameId, writes.written⟩
  · cases unrevoked

end Moves

end Daemon
end PqcScan
