import PqcScan.Daemon.Interleaving

/-!
# Re-approval and enrollment

`unrevoke_host` leaves the token as it is, so a re-approved host is reached with
the token it then has.  Between its lookup of the prior row and its upsert an
enrollment is not stopped by a revocation: its token reaches the row whatever
the revoked flag is.  A host that has no token when it is re-approved, with no
such enrollment pending, is reached only with tokens minted afterwards.
-/

namespace PqcScan
namespace Daemon

open Library Python PqcScan.Core Store Repo

/-- The machine an enrollment looks up without finding it revoked. -/
def lookedUp (move : Move Thread) : Option String :=
  match move.before.stage, move.after.stage with
  | .enrollRead identity, .enrollApproved _ => some identity.machineId
  | _, _ => none

/-- The host and the token of a completed enrollment. -/
def mintedBy (move : Move Thread) : Option (Nat × String) :=
  match move.before.stage, move.after.stage with
  | .enrollApproved _, .answered (.enrolled hostId token) => some (hostId, token)
  | _, _ => none

/-- One of the moves is the lookup of the machine by the given request. -/
structure LookedUp (moves : List (Move Thread)) (index : Nat)
    (machineId : String) (lookup : Move Thread)
    (earlier later : List (Move Thread)) : Prop where
  place : moves = earlier ++ lookup :: later
  request : lookup.index = index
  machine : lookedUp lookup = some machineId

/-- One request among the moves looked up the machine and then minted a token
of this hash for the host. -/
def MintedWithin (settings : Settings) (moves : List (Move Thread))
    (host : Host) (tokenHash : String) : Prop :=
  ∃ earlier lookup later mint rest token,
    LookedUp moves mint.index host.machineId lookup earlier
      (later ++ mint :: rest) ∧
    mintedBy mint = some (host.id, token) ∧
    settings.hashToken token = tokenHash

/-- After every re-approval of the host, whoever authenticates as the host
presents a token whose enrollment looked the host up after that re-approval. -/
def ReapprovalNeedsEnrollment (settings : Settings) (start : Collector)
    (moves : List (Move Thread)) (hostId : Nat) : Prop :=
  ∀ (past since future : List (Move Thread)) (reapproval : Move Thread)
    (pool : Collector),
    moves = past ++ reapproval :: (since ++ future) →
    unrevokedHost reapproval = some hostId →
    Schedule settings start (past ++ reapproval :: since) pool →
    ∀ authorization host,
      agentHost settings pool.shared authorization = .ok host →
      host.id = hostId →
      ∃ token, bearerToken authorization = some token ∧
        MintedWithin settings since host (settings.hashToken token)

/-- The host has no token and no enrollment of its machine is between its lookup
and its upsert. -/
def NoTokenPending (pool : Collector) (hostId : Nat) : Prop :=
  ∀ host ∈ pool.shared.hosts, host.id = hostId →
    host.tokenHash = none ∧
    ∀ thread ∈ pool.threads, ∀ identity,
      thread.stage = .enrollApproved identity →
      identity.machineId ≠ host.machineId

/-- Every re-approval of the host finds no token of the
host, stored or pending. -/
def ReapprovedWhenClear (settings : Settings) (start : Collector)
    (moves : List (Move Thread)) (hostId : Nat) : Prop :=
  ∀ (past future : List (Move Thread)) (reapproval : Move Thread)
    (before : Collector),
    moves = past ++ reapproval :: future →
    unrevokedHost reapproval = some hostId →
    Schedule settings start past before →
    NoTokenPending before hostId

/-! ## Since the re-approval -/

/-- A token of the host, stored or pending, comes from an enrollment that looked
the machine up since. -/
structure Renewed (settings : Settings) (hostId : Nat) (machineId : String)
    (since : List (Move Thread)) (pool : Collector) : Prop where
  host : ∃ host ∈ pool.shared.hosts, host.id = hostId ∧
    host.machineId = machineId ∧
    ∀ tokenHash, host.tokenHash = some tokenHash →
      MintedWithin settings since host tokenHash
  pending : ∀ index draws identity,
    pool.threads[index]? = some ⟨draws, .enrollApproved identity⟩ →
    identity.machineId = machineId →
    ∃ earlier lookup later, LookedUp since index machineId lookup earlier later

section Moves

variable {settings : Settings} {pool next : Collector} {move : Move Thread}

theorem LookedUp.snoc {moves : List (Move Thread)} {index : Nat}
    {machineId : String} {lookup : Move Thread}
    {earlier later : List (Move Thread)}
    (known : LookedUp moves index machineId lookup earlier later)
    (last : Move Thread) :
    LookedUp (moves ++ [last]) index machineId lookup earlier (later ++ [last]) :=
  ⟨by rw [known.place, List.append_assoc, List.cons_append], known.request,
    known.machine⟩

theorem MintedWithin.snoc {moves : List (Move Thread)} {host : Host}
    {tokenHash : String} (minted : MintedWithin settings moves host tokenHash)
    (last : Move Thread) :
    MintedWithin settings (moves ++ [last]) host tokenHash := by
  obtain ⟨earlier, lookup, later, mint, rest, token, known, mints, sameHash⟩ :=
    minted
  have longer := known.snoc last
  rw [List.append_assoc, List.cons_append] at longer
  exact ⟨earlier, lookup, later, mint, rest ++ [last], token, longer, mints,
    sameHash⟩

/-- Only the row's keys matter. -/
theorem MintedWithin.of_keys {moves : List (Move Thread)} {host later : Host}
    {tokenHash : String} (minted : MintedWithin settings moves host tokenHash)
    (sameId : later.id = host.id) (sameMachine : later.machineId = host.machineId) :
    MintedWithin settings moves later tokenHash := by
  unfold MintedWithin
  rw [sameId, sameMachine]
  exact minted

/-- An enrollment reaches its upsert only by the lookup. -/
theorem enrollRead_of_approved {draws : Draws} {before after : Database}
    {stage : Stage} {identity : HostIdentity}
    (step : advanceStage settings draws before stage =
      (after, .enrollApproved identity)) : stage = .enrollRead identity := by
  cases stage with
  | enrollRead read =>
      simp only [advanceStage] at step
      split at step <;> cases step
      rfl
  | ingestStored _ _ | enrollReceived _ | ingestReceived _
  | ingestAuthenticated _ _ | ingestParsed _ _ | ingestCompared _ _ _ _
  | ingestChecked _ _ _ _ =>
      simp only [advanceStage] at step
      split at step <;> cases step
  | ingestPruning scanIds _ | ingestSweeping scanIds _ =>
      cases scanIds <;> cases step
  | enrollApproved _ | ingestRaced _ | ingestPruned _ | revokeReceived _
  | unrevokeReceived _ | answered _ => cases step

/-- The enrollment that is about to upsert has just looked its machine up, or
did so earlier. -/
theorem Renewed.pending_of_move {hostId : Nat} {machineId : String}
    {since : List (Move Thread)}
    (renewed : Renewed settings hostId machineId since pool)
    (advances : Advances (advance settings) pool move next)
    {index : Nat} {draws : Draws} {identity : HostIdentity}
    (found : next.threads[index]? = some ⟨draws, .enrollApproved identity⟩)
    (machine : identity.machineId = machineId) :
    ∃ earlier lookup later,
      LookedUp (since ++ [move]) index machineId lookup earlier later := by
  rcases advances.getElem?_after found with ⟨rfl, moved⟩ | ⟨_, earlier⟩
  · have step := (stage_of_advances advances).1
    rw [← moved] at step
    have started := enrollRead_of_approved step
    refine ⟨since, move, [], rfl, rfl, ?_⟩
    simp only [lookedUp, started, ← moved, machine]
  · obtain ⟨first, lookup, later, known⟩ :=
      renewed.pending index draws identity earlier machine
    exact ⟨first, lookup, later ++ [move], known.snoc move⟩

/-- Every move keeps all tokens of the host renewed. -/
theorem Renewed.of_move {hostId : Nat} {machineId : String}
    {since : List (Move Thread)}
    (renewed : Renewed settings hostId machineId since pool)
    (advances : Advances (advance settings) pool move next) :
    Renewed settings hostId machineId (since ++ [move]) next := by
  refine ⟨?_, fun index draws identity found machine =>
    renewed.pending_of_move advances found machine⟩
  obtain ⟨host, member, idEq, machineEq, tokens⟩ := renewed.host
  obtain ⟨later, laterMember, sameId, sameMachine, step⟩ :=
    (commit_of_advances advances).host member
  refine ⟨later, laterMember, sameId.trans idEq, sameMachine.trans machineEq,
    fun tokenHash live => ?_⟩
  cases step with
  | kept unchanged _ =>
      have minted := (tokens tokenHash (unchanged ▸ live)).snoc move
      exact minted.of_keys sameId sameMachine
  | minted identity started machine written _ arrived =>
      have thread : pool.threads[move.index]? =
          some ⟨move.before.draws, .enrollApproved identity⟩ := by
        rw [advances.thread, ← started]
      obtain ⟨earlier, lookup, between, known⟩ := renewed.pending move.index
        move.before.draws identity thread (machine.trans machineEq)
      have place := known.snoc move
      rw [← sameMachine.trans machineEq] at place
      refine ⟨earlier, lookup, between, move, [], move.before.draws.token, place,
        ?_, ?_⟩
      · simp only [mintedBy, started, arrived, sameId]
      · exact Option.some_inj.mp (written.symm.trans live)
  | revoked cleared _ =>
      rw [cleared] at live
      cases live
  | unrevoked _ unchanged _ =>
      have minted := (tokens tokenHash (unchanged ▸ live)).snoc move
      exact minted.of_keys sameId sameMachine

/-- A re-approval that finds no token of the host, stored or
pending, starts afresh. -/
theorem renewed_of_reapproval {hostId : Nat}
    (advances : Advances (advance settings) pool move next)
    (unrevoked : unrevokedHost move = some hostId)
    (clear : NoTokenPending pool hostId) :
    ∃ machineId, Renewed settings hostId machineId [] next := by
  obtain ⟨host, member, sameId, written⟩ := unrevoked_of_move advances unrevoked
  obtain ⟨noToken, nonePending⟩ := clear host member sameId
  refine ⟨host.machineId, ⟨unrevokeRow host, written, sameId, rfl, ?_⟩, ?_⟩
  · intro tokenHash live
    exact absurd (noToken.symm.trans live) (by simp)
  · intro index draws identity found machine
    rcases advances.getElem?_after found with ⟨_, moved⟩ | ⟨_, earlier⟩
    · unfold unrevokedHost at unrevoked
      split at unrevoked
      · next answered =>
          rw [← moved] at answered
          cases answered
      · cases unrevoked
    · exact absurd machine
        (nonePending _ (List.mem_of_getElem? earlier) identity rfl)

end Moves

/-! ## A schedule -/

/-- When every re-approval of the host finds no token of the host, stored or
pending, re-approval needs re-enrollment. -/
theorem reapproval_needs_enrollment (settings : Settings) (start : Collector)
    (moves : List (Move Thread)) (hostId : Nat)
    (clear : ReapprovedWhenClear settings start moves hostId) :
    ReapprovalNeedsEnrollment settings start moves hostId := by
  intro past since future reapproval pool moves_eq unrevokes schedule
    authorization host authenticated sameId
  obtain ⟨before, after, early, reapproving, later⟩ := schedule.at_step
  obtain ⟨machineId, afresh⟩ := renewed_of_reapproval reapproving unrevokes
    (clear past (since ++ future) reapproval before moves_eq unrevokes early)
  have renewed : Renewed settings hostId machineId since pool :=
    later.history (fun moves pool => Renewed settings hostId machineId moves pool)
      afresh (fun _ _ _ _ _ earlier last => earlier.of_move last)
  obtain ⟨token, presented, member, live, _⟩ :=
    agentHost_eq_ok_iff.mp authenticated
  obtain ⟨row, rowMember, rowId, _, tokens⟩ := renewed.host
  obtain rfl := Table.eq_of_id_eq rowMember member (rowId.trans sameId.symm)
  exact ⟨token, presented, tokens _ live⟩

/-! ## Both orders of a re-approval and an enrollment -/

/-- A collector at which machine `m1` can enroll. -/
def enrolling : Settings := sampleSettings [enrollDocument "m1" []] 30

/-- Machine `m1` is enrolled. -/
def enrolledStore : Database :=
  (handle enrolling (sampleDraws "t1") Database.empty
    (enrollRequest (enrollDocument "m1" []))).1

/-- The machine is revoked; its re-approval and an enrollment are on the way. -/
def reapprovalAndEnrollment : Collector where
  shared := (revoke enrolledStore 1).1
  threads :=
    [⟨sampleDraws "", .unrevokeReceived 1⟩,
      ⟨sampleDraws "t2", (enrollRequest (enrollDocument "m1" [])).stage⟩]

/-- The enrollment comes after the re-approval. -/
theorem reapproval_needs_enrollment_renewed :
    ReapprovalNeedsEnrollment enrolling reapprovalAndEnrollment
      (runSchedule (advance enrolling) reapprovalAndEnrollment [0, 1, 1, 1]).2
      1 := by
  apply reapproval_needs_enrollment
  rintro (_ | ⟨first, rest⟩) future reapproval before moves_eq unrevokes schedule
  · obtain rfl := schedule.eq_of_nil
    have cleared : ∀ host ∈ reapprovalAndEnrollment.shared.hosts.rows,
        host.tokenHash = none := by
      decide +kernel
    refine fun host member _ => ⟨cleared host member, ?_⟩
    intro thread threadMember identity approved
    simp only [reapprovalAndEnrollment, List.mem_cons, List.not_mem_nil,
      or_false] at threadMember
    rcases threadMember with rfl | rfl <;> cases approved
  · -- Only the first move re-approves.
    have others : ∀ move ∈ (runSchedule (advance enrolling)
        reapprovalAndEnrollment [0, 1, 1, 1]).2.tail,
        unrevokedHost move = none := by
      decide +kernel
    rw [moves_eq] at others
    exact absurd ((others reapproval (by simp)).symm.trans unrevokes) (by simp)

/-- An enrollment, a revocation and a re-approval are on the way. -/
def pendingEnrollment : Collector where
  shared := enrolledStore
  threads :=
    [⟨sampleDraws "t2", (enrollRequest (enrollDocument "m1" [])).stage⟩,
      ⟨sampleDraws "", .revokeReceived 1⟩, ⟨sampleDraws "", .unrevokeReceived 1⟩]

/-- The enrollment looked the host up before the
revocation and mints after it. -/
def mintedWhileRevoked : Collector :=
  (runSchedule (advance enrolling) pendingEnrollment [0, 0, 1, 0]).1

/-- The token minted while the host was revoked
authenticates after the re-approval. -/
theorem old_enrollment_reapproved :
    ∃ moves finish, Schedule enrolling pendingEnrollment moves finish ∧
      ¬ ReapprovalNeedsEnrollment enrolling pendingEnrollment moves 1 := by
  have minted := interleaving_runSchedule (advance enrolling) pendingEnrollment
    [0, 0, 1, 0]
  obtain ⟨reapproval, reapproving, turn⟩ :=
    exists_turn (advance enrolling) mintedWhileRevoked 2 (by decide +kernel)
  have unrevokes : (runSchedule (advance enrolling) mintedWhileRevoked [2]).2.map
      unrevokedHost = [some 1] := by
    decide +kernel
  rw [turn, List.map_singleton, List.singleton_inj] at unrevokes
  have authenticates : (agentHost enrolling (runSchedule (advance enrolling)
      mintedWhileRevoked [2]).1.shared "Bearer t2").toOption.map Host.id =
      some 1 := by
    decide +kernel
  have schedule := Run.snoc minted reapproving
  refine ⟨_, _, schedule, fun needs => ?_⟩
  cases answer : agentHost enrolling (runSchedule (advance enrolling)
      mintedWhileRevoked [2]).1.shared "Bearer t2" with
  | error refusal =>
      rw [answer] at authenticates
      cases authenticates
  | ok host =>
      rw [answer] at authenticates
      obtain ⟨_, _, earlier, lookup, _, mint, _, _, known, _⟩ :=
        needs _ [] [] reapproval _ (by simp) unrevokes schedule "Bearer t2" host
          answer (Option.some_inj.mp authenticates)
      simpa using known.place

end Daemon
end PqcScan
