import PqcScan.Daemon.Race

/-!
# The order of two racing ingests

The answers of two requests that carry one uuid agree with a sequential order
exactly when no write that can build its row finds the uuid stored.
-/

namespace PqcScan
namespace Daemon

open Library Python PqcScan.Core Store Repo

/-! ## Sequential answers -/

/-- A call that passes the duplicate check violates no constraint. -/
theorem ingestBundle_ne_integrity {py : Runtime} {now : Nat → DateTime}
    {db : Database} {bundle : ScanBundle} {hostId : Nat} :
    (ingestBundle py now db bundle hostId).2 ≠ .error .integrity := by
  intro outcome
  unfold ingestBundle at outcome
  split at outcome
  · cases outcome
  split at outcome
  · cases outcome
  · cases outcome
  next host checked =>
  obtain ⟨⟨member, _⟩, absent⟩ := duplicateCheck_ok checked
  split at outcome
  · next error refused =>
      cases outcome
      obtain ⟨scan, scanMember, carried⟩ := exists_scan_of_integrity member refused
      exact absent scan scanMember carried
  · cases outcome

/-- What a request handled alone is told about its scan. -/
structure Told (settings : Settings) (db : Database) (upload : Upload)
    (scanId : Nat) (duplicate : Bool) (drift : Option Nat) : Prop where
  drift : drift.isSome = true
  repeated : duplicate = true →
    ∃ host, agentHost settings db upload.request.authorization = .ok host ∧
    ∃ bundle, loadedBundle settings upload.request.body = some bundle ∧
    ∃ scan ∈ db.scans, scan.id = scanId ∧
      scan.scanUuid = some bundle.scanUuid ∧ scan.hostId = some host.id

theorem told_of_alone {settings : Settings} {db : Database} {upload : Upload}
    {scanId findings views : Nat} {duplicate : Bool} {drift : Option Nat}
    (alone : (upload.alone settings db).2 =
      .ingested scanId findings views duplicate drift) :
    Told settings db upload scanId duplicate drift := by
  unfold Upload.alone ingest at alone
  split at alone
  · cases alone
  next host known =>
  split at alone
  · cases alone
  next bundle accepted =>
  split at alone
  · cases alone
  · next integrity =>
      exact absurd (congrArg Prod.snd integrity) ingestBundle_ne_integrity
  · next result call =>
      cases alone
      refine ⟨rfl, fun repeated => ?_⟩
      rcases ingestBundle_cases call with
        ⟨_, _, failed⟩ | ⟨_, scan, member, carried, owned, outcome⟩ |
          ⟨_, _, _, _, _, _, _, _, _, _, _, _, outcome⟩
      · cases failed
      · cases outcome
        exact ⟨host, known, bundle,
          loadedBundle_of_accepted (accepted_of_ok accepted), scan, member, rfl,
          carried, owned⟩
      · cases outcome
        cases repeated

/-! ## The two requests together -/

/-- Two ingest requests arrive at the collector. -/
def racePool (db : Database) (first second : Upload) : Collector where
  shared := db
  threads :=
    [⟨first.draws, .ingestReceived first.request⟩,
      ⟨second.draws, .ingestReceived second.request⟩]

/-- A move whose stage meets a condition on the store. -/
structure Guarded (settings : Settings)
    (guard : Settings → Draws → Database → Stage → Prop) (pool : Collector)
    (move : Move Thread) (next : Collector) : Prop
    extends Advances (advance settings) pool move next where
  guarded : guard settings move.before.draws pool.shared move.before.stage

/-- A schedule in which no write that can build its
row finds its uuid stored. -/
abbrev Uncontested (settings : Settings) :=
  Run (Guarded settings Stage.WritesFirst)

/-- A schedule in which no write that can build its row finds its uuid stored
for another host. -/
abbrev OwnRaces (settings : Settings) := Run (Guarded settings Stage.WritesOwn)

theorem Uncontested.ownRaces {settings : Settings} {start finish : Collector}
    {moves : List (Move Thread)} (run : Uncontested settings start moves finish) :
    OwnRaces settings start moves finish :=
  run.mono fun _ _ _ step => ⟨step.toAdvances, step.guarded.writesOwn⟩

/-- The two requests, named by who wrote first, with their stages. -/
def Placed (first second winner loser : Upload) (won lost : Stage)
    (threads : List Thread) : Prop :=
  (winner = first ∧ loser = second ∧
    threads = [⟨winner.draws, won⟩, ⟨loser.draws, lost⟩]) ∨
  (winner = second ∧ loser = first ∧
    threads = [⟨loser.draws, lost⟩, ⟨winner.draws, won⟩])

/-- One of the two requests wrote first. -/
structure Decided (settings : Settings) (db : Database)
    (first second winner loser : Upload) (scan : Scan) (won lost : Stage)
    (pool : Collector) : Prop where
  placed : Placed first second winner loser won lost pool.threads
  added : ScanAdded db scan pool.shared
  write : ∃ written result, FirstWrite settings db winner written scan result ∧
    Winning scan result won

/-- Where the two requests are after some moves. -/
inductive Progress (settings : Settings) (db : Database) (first second : Upload)
    (moves : List (Move Thread)) (pool : Collector) : Prop
  | waiting (left right : Stage) (shared : pool.shared = db)
      (threads : pool.threads = [⟨first.draws, left⟩, ⟨second.draws, right⟩])
      (firstEarly : Early settings db first left)
      (secondEarly : Early settings db second right)
      (uncontested : Uncontested settings (racePool db first second) moves pool)
  | decided (winner loser : Upload) (scan : Scan) (won lost : Stage)
      (state : Decided settings db first second winner loser scan won lost pool)
      (late : Late settings db (winner.alone settings db).1 loser lost)
      (uncontested : Uncontested settings (racePool db first second) moves pool)
  | raced (winner loser : Upload) (scan : Scan) (won lost : Stage)
      (state : Decided settings db first second winner loser scan won lost pool)
      (raced : Raced scan lost) (host : Host)
      (recovered : Recovered settings db (winner.alone settings db).1 loser scan
        host)
      (contested : ¬ Uncontested settings (racePool db first second) moves pool)
      (own : OwnRaces settings (racePool db first second) moves pool ↔
        scan.hostId = some host.id)

section Progress

variable {settings : Settings} {db : Database} {first second : Upload}
  {moves : List (Move Thread)} {pool next : Collector} {move : Move Thread}

/-- A guarded schedule goes on guarded exactly when its next move is. -/
theorem guarded_snoc {guard : Settings → Draws → Database → Stage → Prop}
    {start : Collector} (schedule : Schedule settings start moves pool)
    (advances : Advances (advance settings) pool move next) :
    Run (Guarded settings guard) start (moves ++ [move]) next ↔
      Run (Guarded settings guard) start moves pool ∧
        guard settings move.before.draws pool.shared move.before.stage := by
  constructor
  · intro run
    obtain ⟨middle, earlier, last⟩ := run.of_snoc
    have same : middle = pool :=
      Run.deterministic (fun _ _ _ _ left right => left.functional right)
        (earlier.mono fun _ _ _ step => step.toAdvances) schedule
    rw [same] at earlier last
    exact ⟨earlier, last.guarded⟩
  · rintro ⟨earlier, guarded⟩
    exact Run.snoc earlier ⟨advances, guarded⟩

/-- A thread keeps what it draws. -/
theorem after_eq (advances : Advances (advance settings) pool move next)
    {draws : Draws} {stage : Stage} (before : move.before = ⟨draws, stage⟩) :
    move.after = ⟨draws, move.after.stage⟩ := by
  have sameDraws : move.after.draws = draws :=
    (stage_of_advances advances).2.trans (congrArg Thread.draws before)
  rw [← sameDraws]

theorem Placed.of_move {winner loser : Upload} {won lost : Stage}
    (placed : Placed first second winner loser won lost pool.threads)
    (advances : Advances (advance settings) pool move next) :
    (move.before = ⟨winner.draws, won⟩ ∧
        Placed first second winner loser move.after.stage lost next.threads) ∨
      (move.before = ⟨loser.draws, lost⟩ ∧
        Placed first second winner loser won move.after.stage next.threads) := by
  rcases placed with ⟨isFirst, isSecond, two⟩ | ⟨isSecond, isFirst, two⟩
  · rcases advances.pair two with ⟨before, threads⟩ | ⟨before, threads⟩
    · rw [after_eq advances before] at threads
      exact Or.inl ⟨before, Or.inl ⟨isFirst, isSecond, threads⟩⟩
    · rw [after_eq advances before] at threads
      exact Or.inr ⟨before, Or.inl ⟨isFirst, isSecond, threads⟩⟩
  · rcases advances.pair two with ⟨before, threads⟩ | ⟨before, threads⟩
    · rw [after_eq advances before] at threads
      exact Or.inr ⟨before, Or.inr ⟨isSecond, isFirst, threads⟩⟩
    · rw [after_eq advances before] at threads
      exact Or.inl ⟨before, Or.inr ⟨isSecond, isFirst, threads⟩⟩

/-- The stage a move of the given thread takes. -/
theorem step_of_move (advances : Advances (advance settings) pool move next)
    {draws : Draws} {stage : Stage} (before : move.before = ⟨draws, stage⟩) :
    advanceStage settings draws pool.shared stage =
      (next.shared, move.after.stage) := by
  have step := (stage_of_advances advances).1
  rw [before] at step
  exact step

/-- While nobody has written, a move of either request writes
first or changes nothing. -/
theorem progress_of_waiting {left right : Stage} {mover waiter : Upload}
    (placed : Placed first second mover waiter move.after.stage right next.threads)
    (schedule : Schedule settings (racePool db first second) moves pool)
    (advances : Advances (advance settings) pool move next)
    (before : move.before = ⟨mover.draws, left⟩)
    (shared : pool.shared = db)
    (moverEarly : Early settings db mover left)
    (waiterEarly : Early settings db waiter right)
    (uncontested : Uncontested settings (racePool db first second) moves pool) :
    Progress settings db first second (moves ++ [move]) next := by
  have step := step_of_move advances before
  rw [shared] at step
  have still : Uncontested settings (racePool db first second)
      (moves ++ [move]) next := by
    refine (guarded_snoc schedule advances).mpr ⟨uncontested, ?_⟩
    rw [before, shared]
    exact moverEarly.writesFirst
  rcases moverEarly.step step with ⟨same, early⟩ |
    ⟨hostId, scan, result, write, stored⟩
  · rcases placed with ⟨rfl, rfl, threads⟩ | ⟨rfl, rfl, threads⟩
    · exact .waiting _ _ same threads early waiterEarly still
    · exact .waiting _ _ same threads waiterEarly early still
  · obtain ⟨host, alone⟩ := write.alone
    have alike : HostsAlike db (mover.alone settings db).1 := by
      rw [alone]
      exact (write.added.trim settings mover.draws host).alike
    refine .decided mover waiter scan _ right ⟨placed, write.added, next.shared,
      result, write, ?_⟩ (waiterEarly.late alike) still
    rw [stored]
    exact .stored hostId

/-- A move of the request that wrote keeps the decision. -/
theorem Decided.of_winner {winner loser : Upload} {scan : Scan} {won lost : Stage}
    (state : Decided settings db first second winner loser scan won lost pool)
    (placed : Placed first second winner loser move.after.stage lost next.threads)
    (advances : Advances (advance settings) pool move next)
    (before : move.before = ⟨winner.draws, won⟩) :
    Decided settings db first second winner loser scan move.after.stage lost
        next ∧
      move.before.stage.WritesFirst settings move.before.draws pool.shared := by
  obtain ⟨written, result, write, winning⟩ := state.write
  obtain ⟨added, winning'⟩ :=
    winning.step state.added (step_of_move advances before)
  refine ⟨⟨placed, added, written, result, write, winning'⟩, ?_⟩
  rw [before]
  exact winning.writesFirst

/-- The store after the first request has been handled alone. -/
theorem FirstWrite.sequential {written : Database} {upload : Upload} {scan : Scan}
    {result : IngestResult}
    (write : FirstWrite settings db upload written scan result) :
    ScanAdded db scan (upload.alone settings db).1 := by
  obtain ⟨hostId, alone⟩ := write.alone
  rw [alone]
  exact write.added.trim settings upload.draws hostId

/-- The stored scan carries the uuid of both requests. -/
theorem Decided.carried {uuid : String} {winner loser : Upload} {scan : Scan}
    {won lost : Stage}
    (state : Decided settings db first second winner loser scan won lost pool)
    (firstCarries : first.Carries settings uuid)
    (secondCarries : second.Carries settings uuid) :
    scan.scanUuid = some uuid ∧
      ∀ bundle, loadedBundle settings loser.request.body = some bundle →
        scan.scanUuid = some bundle.scanUuid := by
  obtain ⟨_, _, write, _⟩ := state.write
  obtain ⟨bundle, loaded, carried⟩ := write.carried
  have both : winner.Carries settings uuid ∧ loser.Carries settings uuid := by
    rcases state.placed with ⟨rfl, rfl, _⟩ | ⟨rfl, rfl, _⟩
    · exact ⟨firstCarries, secondCarries⟩
    · exact ⟨secondCarries, firstCarries⟩
  obtain ⟨⟨ofWinner, winnerLoads, rfl⟩, ⟨ofLoser, loserLoads, sameUuid⟩⟩ := both
  obtain rfl := Option.some_inj.mp (loaded.symm.trans winnerLoads)
  refine ⟨carried, fun other otherLoads => ?_⟩
  obtain rfl := Option.some_inj.mp (loserLoads.symm.trans otherLoads)
  rw [carried, sameUuid]

/-- Every move leaves the two requests somewhere in `Progress`. -/
theorem Progress.of_move {uuid : String}
    (progress : Progress settings db first second moves pool)
    (schedule : Schedule settings (racePool db first second) moves pool)
    (advances : Advances (advance settings) pool move next)
    (firstCarries : first.Carries settings uuid)
    (secondCarries : second.Carries settings uuid) :
    Progress settings db first second (moves ++ [move]) next := by
  have goesOn : Uncontested settings (racePool db first second) (moves ++ [move])
      next ↔ _ := guarded_snoc schedule advances
  have goesOnOwn : OwnRaces settings (racePool db first second) (moves ++ [move])
      next ↔ _ := guarded_snoc schedule advances
  cases progress with
  | waiting left right shared threads firstEarly secondEarly uncontested =>
      rcases advances.pair threads with ⟨before, threads'⟩ | ⟨before, threads'⟩
      · rw [after_eq advances before] at threads'
        exact progress_of_waiting (Or.inl ⟨rfl, rfl, threads'⟩) schedule advances
          before shared firstEarly secondEarly uncontested
      · rw [after_eq advances before] at threads'
        exact progress_of_waiting (Or.inr ⟨rfl, rfl, threads'⟩) schedule advances
          before shared secondEarly firstEarly uncontested
  | decided winner loser scan won lost state late uncontested =>
      rcases state.placed.of_move advances with
        ⟨before, placed⟩ | ⟨before, placed⟩
      · obtain ⟨state', writesFirst⟩ := state.of_winner placed advances before
        exact .decided winner loser scan _ lost state' late
          (goesOn.mpr ⟨uncontested, writesFirst⟩)
      · obtain ⟨written, result, write, winning⟩ := state.write
        obtain ⟨same, outcome⟩ := late.step state.added write.sequential
          (state.carried firstCarries secondCarries).2
          (step_of_move advances before)
        have state' : Decided settings db first second winner loser scan won
            move.after.stage next :=
          ⟨placed, same ▸ state.added, written, result, write, winning⟩
        rw [before] at goesOn goesOnOwn
        rcases outcome with
          ⟨late', writesFirst⟩ | ⟨raced, contested, host, recovered, own⟩
        · exact .decided winner loser scan won _ state' late'
            (goesOn.mpr ⟨uncontested, writesFirst⟩)
        · refine .raced winner loser scan won _ state' raced host recovered
            (fun run => contested (goesOn.mp run).2) ?_
          rw [goesOnOwn, own]
          exact and_iff_right uncontested.ownRaces
  | raced winner loser scan won lost state raced host recovered contested own =>
      have contested' : ¬ Uncontested settings (racePool db first second)
          (moves ++ [move]) next := fun run => contested (goesOn.mp run).1
      rcases state.placed.of_move advances with
        ⟨before, placed⟩ | ⟨before, placed⟩
      · obtain ⟨state', writesFirst⟩ := state.of_winner placed advances before
        refine .raced winner loser scan _ lost state' raced host recovered
          contested' ?_
        exact goesOnOwn.trans ((and_iff_left writesFirst.writesOwn).trans own)
      · obtain ⟨written, result, write, winning⟩ := state.write
        obtain ⟨same, raced', writesOwn⟩ :=
          raced.step state.added (step_of_move advances before)
        rw [before] at goesOnOwn
        exact .raced winner loser scan won _
          ⟨placed, same ▸ state.added, written, result, write, winning⟩ raced'
          host recovered contested'
          (goesOnOwn.trans ((and_iff_left writesOwn).trans own))

/-- The two requests are somewhere in `Progress` after every schedule. -/
theorem progress_of_schedule {uuid : String}
    (schedule : Schedule settings (racePool db first second) moves pool)
    (firstCarries : first.Carries settings uuid)
    (secondCarries : second.Carries settings uuid) :
    Progress settings db first second moves pool := by
  refine schedule.history (Progress settings db first second) ?_ ?_
  · exact .waiting _ _ rfl rfl .received .received .nil
  · intro past before move after earlier progress advances
    exact progress.of_move earlier advances firstCarries secondCarries

end Progress

/-! ## The answers -/

/-- What a request that is done was answered. -/
def Thread.response (thread : Thread) : Option Response :=
  match thread.stage with
  | .answered response => some response
  | _ => none

theorem stage_of_response {thread : Thread} {response : Response}
    (done : thread.response = some response) :
    thread.stage = .answered response := by
  unfold Thread.response at done
  split at done
  · next answered =>
      cases done
      exact answered
  · cases done

/-- An answer without its drift field. -/
def Response.withoutDrift : Response → Response
  | .ingested scanId findings views duplicate _ =>
      .ingested scanId findings views duplicate none
  | response => response

/-- What is seen of the answer is what a request gets
in one of the two orders. -/
def InSomeOrder (settings : Settings) (db : Database) (seen : Response → Response)
    (own other : Upload) (response : Response) : Prop :=
  seen response = seen (own.alone settings db).2 ∨
    seen response = seen (own.alone settings (other.alone settings db).1).2

/-- What is seen of both answers is what the requests get
in one of the two orders. -/
def InOneOrder (settings : Settings) (db : Database) (seen : Response → Response)
    (first second : Upload) (left right : Response) : Prop :=
  (seen left = seen (first.alone settings db).2 ∧
      seen right = seen (second.alone settings (first.alone settings db).1).2) ∨
    (seen right = seen (second.alone settings db).2 ∧
      seen left = seen (first.alone settings (second.alone settings db).1).2)

/-- A request told of a duplicate sent the stored scan of this uuid. -/
def OwnDuplicate (settings : Settings) (db : Database) (upload : Upload)
    (uuid : String) (response : Response) : Prop :=
  ∀ scanId findings views drift,
    response = .ingested scanId findings views true drift →
    ∃ host, agentHost settings db upload.request.authorization = .ok host ∧
    ∃ scan ∈ db.scans, scan.id = scanId ∧ scan.scanUuid = some uuid ∧
      scan.hostId = some host.id

/-- What is seen of the two answers agrees with the sequential handler, and
duplicates are the requester's own. -/
structure RaceAgrees (settings : Settings) (db finish : Database)
    (seen : Response → Response) (first second : Upload) (uuid : String)
    (left right : Response) : Prop where
  inOrder : InOneOrder settings db seen first second left right
  firstOwns : OwnDuplicate settings finish first uuid left
  secondOwns : OwnDuplicate settings finish second uuid right

section Answers

variable {settings : Settings} {db finish : Database} {first second : Upload}
  {uuid : String} {left right : Response} {seen : Response → Response}

theorem InOneOrder.ofSecond
    (inOrder : InOneOrder settings db seen first second left right) :
    InSomeOrder settings db seen second first right :=
  inOrder.symm.imp And.left And.right

theorem RaceAgrees.symm
    (agrees : RaceAgrees settings db finish seen first second uuid left right) :
    RaceAgrees settings db finish seen second first uuid right left :=
  ⟨Or.symm agrees.inOrder, agrees.secondOwns, agrees.firstOwns⟩

/-- Answers that agree whole agree in every part. -/
theorem RaceAgrees.inPart
    (agrees : RaceAgrees settings db finish id first second uuid left right) :
    RaceAgrees settings db finish seen first second uuid left right :=
  ⟨agrees.inOrder.imp
      (fun early => ⟨congrArg seen early.1, congrArg seen early.2⟩)
      (fun late => ⟨congrArg seen late.1, congrArg seen late.2⟩),
    agrees.firstOwns, agrees.secondOwns⟩

/-- A request alone is told of its own scan only. -/
theorem ownDuplicate_of_alone {upload : Upload} {response : Response}
    (carries : upload.Carries settings uuid)
    (alone : (upload.alone settings db).2 = response) :
    OwnDuplicate settings db upload uuid response := by
  rintro scanId findings views drift rfl
  obtain ⟨host, known, bundle, loaded, scan, member, sameId, carried, owned⟩ :=
    (told_of_alone alone).repeated rfl
  obtain ⟨other, otherLoaded, rfl⟩ := carries
  obtain rfl := Option.some_inj.mp (loaded.symm.trans otherLoaded)
  exact ⟨host, known, scan, member, sameId, carried, owned⟩

/-- A recovered answer is in neither order. -/
theorem raced_in_no_order {own other : Upload} {scanId : Nat} :
    ¬ InSomeOrder settings db id own other (.ingested scanId 0 0 true none) := by
  rintro (answer | answer)
  · have stated := (told_of_alone answer.symm).drift
    cases stated
  · have stated := (told_of_alone answer.symm).drift
    cases stated

/-- While its uuid is not stored, a request is not told of a duplicate. -/
theorem not_duplicate_of_fresh {upload : Upload} {scanId findings views : Nat}
    {drift : Option Nat} (carries : upload.Carries settings uuid)
    (fresh : ∀ scan ∈ db.scans, scan.scanUuid ≠ some uuid) :
    (upload.alone settings db).2 ≠ .ingested scanId findings views true drift := by
  intro alone
  obtain ⟨_, _, scan, member, _, carried, _⟩ :=
    ownDuplicate_of_alone carries alone scanId findings views drift rfl
  exact fresh scan member carried

/-- The request that wrote is not told of a duplicate. -/
theorem ownDuplicate_of_first {written : Database} {upload : Upload} {scan : Scan}
    {result : IngestResult}
    (write : FirstWrite settings db upload written scan result) :
    OwnDuplicate settings finish upload uuid (ingestAnswer result) := by
  intro scanId findings views drift answer
  simp only [ingestAnswer, write.stored, Response.ingested.injEq,
    Bool.false_eq_true, false_and, and_false] at answer

/-- The answers when one request wrote and the other did not try to. -/
theorem agrees_of_decided {winner loser : Upload} {scan : Scan} {pool : Collector}
    {won lost : Response}
    (state : Decided settings db first second winner loser scan (.answered won)
      (.answered lost) pool)
    (late : Late settings db (winner.alone settings db).1 loser (.answered lost))
    (loserCarries : loser.Carries settings uuid)
    (carried : scan.scanUuid = some uuid) :
    RaceAgrees settings db pool.shared id winner loser uuid won lost := by
  obtain ⟨written, result, write, winning⟩ := state.write
  obtain ⟨hostId, winnerAlone⟩ := write.alone
  have sequential := write.sequential
  cases winning
  cases late with
  | before _ alone =>
      refine ⟨Or.inr ⟨by rw [alone], by rw [alone, winnerAlone]⟩,
        ownDuplicate_of_first write, ?_⟩
      rintro scanId findings views drift rfl
      refine absurd (congrArg Prod.snd alone)
        (not_duplicate_of_fresh loserCarries ?_)
      exact carried ▸ state.added.fresh
  | later _ alone =>
      refine ⟨Or.inl ⟨by rw [winnerAlone], alone.symm⟩,
        ownDuplicate_of_first write, ?_⟩
      rintro scanId findings views drift answer
      obtain ⟨host, known, other, member, sameId, otherCarried, owned⟩ :=
        ownDuplicate_of_alone loserCarries alone scanId findings views drift answer
      obtain rfl := Database.scan_eq_of_scanUuid member sequential.member
        otherCarried carried
      obtain ⟨current, known', same⟩ :=
        (sequential.alike.symm.trans state.added.alike).agentHost_ok known
      exact ⟨current, known', other, state.added.member, sameId, carried,
        owned.trans (congrArg some same.id)⟩

/-- Apart from the drift field a recovered answer agrees exactly when the stored
scan is the requester's own. -/
theorem agrees_of_raced {winner loser : Upload} {scan : Scan} {pool : Collector}
    {host : Host} {won : Response}
    (state : Decided settings db first second winner loser scan (.answered won)
      (.answered (.ingested scan.id 0 0 true none)) pool)
    (recovered : Recovered settings db (winner.alone settings db).1 loser scan host)
    (loserCarries : loser.Carries settings uuid)
    (carried : scan.scanUuid = some uuid) :
    RaceAgrees settings db pool.shared Response.withoutDrift winner loser uuid won
        (.ingested scan.id 0 0 true none) ↔
      scan.hostId = some host.id := by
  obtain ⟨written, result, write, winning⟩ := state.write
  obtain ⟨hostId, winnerAlone⟩ := write.alone
  cases winning
  have later := recovered.later
  constructor
  · intro agrees
    by_contra foreign
    rcases agrees.inOrder.ofSecond with early | late
    · generalize answer : (loser.alone settings db).2 = response at early
      cases response with
      | ingested scanId findings views duplicate drift =>
          simp only [Response.withoutDrift, Response.ingested.injEq, and_true]
            at early
          obtain ⟨_, _, _, rfl⟩ := early
          exact not_duplicate_of_fresh loserCarries
            (carried ▸ state.added.fresh) answer
      | _ => cases early
    · rw [later, storedAnswer, if_neg foreign] at late
      cases late
  · intro owned
    obtain ⟨current, known, same⟩ :=
      state.added.alike.agentHost_ok recovered.known
    refine ⟨Or.inl ⟨by rw [winnerAlone], ?_⟩, ownDuplicate_of_first write, ?_⟩
    · rw [later, storedAnswer, if_pos owned]
      rfl
    · intro scanId findings views drift answer
      cases answer
      exact ⟨current, known, scan, state.added.member, rfl, carried,
        owned.trans (congrArg some same.id)⟩

/-- The answers two placed requests are about to give. -/
theorem Placed.answered {winner loser : Upload} {won lost : Stage}
    {threads : List Thread}
    (placed : Placed first second winner loser won lost threads)
    (answered : threads.map Thread.response = [some left, some right]) :
    (winner = first ∧ loser = second ∧ won = .answered left ∧
        lost = .answered right) ∨
      (winner = second ∧ loser = first ∧ won = .answered right ∧
        lost = .answered left) := by
  rcases placed with ⟨isFirst, isSecond, rfl⟩ | ⟨isSecond, isFirst, rfl⟩
  · simp only [List.map_cons, List.map_nil, List.cons.injEq, and_true] at answered
    exact Or.inl ⟨isFirst, isSecond, stage_of_response answered.1,
      stage_of_response answered.2⟩
  · simp only [List.map_cons, List.map_nil, List.cons.injEq, and_true] at answered
    exact Or.inr ⟨isSecond, isFirst, stage_of_response answered.2,
      stage_of_response answered.1⟩

end Answers

/-- Two racing ingests of one uuid are answered as in a sequential order
exactly when no write that can build its row finds the uuid stored.  Apart
from the drift field they are so exactly when no such write finds it
stored for another host. -/
theorem race_agrees_iff (settings : Settings) (db : Database)
    (first second : Upload) (uuid : String) (moves : List (Move Thread))
    (finish : Collector) (left right : Response)
    (schedule : Schedule settings (racePool db first second) moves finish)
    (firstCarries : first.Carries settings uuid)
    (secondCarries : second.Carries settings uuid)
    (answered : finish.threads.map Thread.response = [some left, some right]) :
    (RaceAgrees settings db finish.shared id first second uuid left right ↔
      Uncontested settings (racePool db first second) moves finish) ∧
    (RaceAgrees settings db finish.shared Response.withoutDrift first second uuid
        left right ↔
      OwnRaces settings (racePool db first second) moves finish) := by
  cases progress_of_schedule schedule firstCarries secondCarries with
  | waiting before after shared threads firstEarly secondEarly uncontested =>
      rw [threads] at answered
      simp only [List.map_cons, List.map_nil, List.cons.injEq, and_true]
        at answered
      obtain rfl : before = .answered left := stage_of_response answered.1
      obtain rfl : after = .answered right := stage_of_response answered.2
      cases firstEarly with
      | answered _ firstAlone =>
      cases secondEarly with
      | answered _ secondAlone =>
      have agrees : RaceAgrees settings db finish.shared id first second uuid left
          right := by
        rw [shared]
        exact ⟨Or.inl ⟨by rw [firstAlone], by rw [firstAlone, secondAlone]⟩,
          ownDuplicate_of_alone firstCarries (congrArg Prod.snd firstAlone),
          ownDuplicate_of_alone secondCarries (congrArg Prod.snd secondAlone)⟩
      exact ⟨iff_of_true agrees uncontested,
        iff_of_true agrees.inPart uncontested.ownRaces⟩
  | decided winner loser scan won lost state late uncontested =>
      have carried := (state.carried firstCarries secondCarries).1
      have agrees : RaceAgrees settings db finish.shared id first second uuid left
          right := by
        rcases state.placed.answered answered with
          ⟨rfl, rfl, rfl, rfl⟩ | ⟨rfl, rfl, rfl, rfl⟩
        · exact agrees_of_decided state late secondCarries carried
        · exact (agrees_of_decided state late firstCarries carried).symm
      exact ⟨iff_of_true agrees uncontested,
        iff_of_true agrees.inPart uncontested.ownRaces⟩
  | raced winner loser scan won lost state raced host recovered contested own =>
      have carried := (state.carried firstCarries secondCarries).1
      rcases state.placed.answered answered with
        ⟨rfl, rfl, rfl, rfl⟩ | ⟨rfl, rfl, rfl, rfl⟩
      · cases raced
        refine ⟨iff_of_false (fun agrees => ?_) contested, ?_⟩
        · exact raced_in_no_order agrees.inOrder.ofSecond
        · exact (agrees_of_raced state recovered secondCarries carried).trans
            own.symm
      · cases raced
        refine ⟨iff_of_false (fun agrees => ?_) contested, ?_⟩
        · exact raced_in_no_order agrees.symm.inOrder.ofSecond
        · have swapped := agrees_of_raced state recovered firstCarries carried
          exact (Iff.intro RaceAgrees.symm RaceAgrees.symm).trans
            (swapped.trans own.symm)

/-! ## Two machines with one uuid -/

/-- A collector that reads two enrollments and a scan of each
machine with the same uuid. -/
def oneUuid : Settings :=
  sampleSettings
    [enrollDocument "m1" [], enrollDocument "m2" [],
      scanDocument "m1" "u1" [148, 227, 223, 116],
      scanDocument "m2" "u1" [248, 136, 215, 209]] 30

/-- Both machines are enrolled. -/
def twoHosts : Database :=
  (serveAll oneUuid Database.empty
    [(enrollRequest (enrollDocument "m1" []), sampleDraws "t1"),
      (enrollRequest (enrollDocument "m2" []), sampleDraws "t2")]).1

/-- The scan of the first machine. -/
def firstUpload : Upload where
  draws := sampleDraws ""
  request := ingestRequest "t1" (scanDocument "m1" "u1" [148, 227, 223, 116])

/-- The scan of the second machine. -/
def secondUpload : Upload where
  draws := sampleDraws ""
  request := ingestRequest "t2" (scanDocument "m2" "u1" [248, 136, 215, 209])

/-- Both requests pass the duplicate check before the first one writes. -/
def raceTurns : List Nat :=
  [0, 0, 0, 0, 1, 1, 1, 1, 0, 1, 1, 0, 0, 0, 0]

theorem firstUpload_carries : firstUpload.Carries oneUuid "u1" :=
  Option.map_eq_some_iff.mp (by decide +kernel :
    (loadedBundle oneUuid firstUpload.request.body).map ScanBundle.scanUuid =
      some "u1")

theorem secondUpload_carries : secondUpload.Carries oneUuid "u1" :=
  Option.map_eq_some_iff.mp (by decide +kernel :
    (loadedBundle oneUuid secondUpload.request.body).map ScanBundle.scanUuid =
      some "u1")

/-- A scan sent twice at once by its own machine. -/
theorem race_agrees_iff_sameHost :
    let pool := racePool twoHosts firstUpload firstUpload
    let moves := (runSchedule (advance oneUuid) pool raceTurns).2
    let finish := (runSchedule (advance oneUuid) pool raceTurns).1
    (RaceAgrees oneUuid twoHosts finish.shared id firstUpload firstUpload "u1"
        (.ingested 1 0 0 false (some 0)) (.ingested 1 0 0 true none) ↔
      Uncontested oneUuid pool moves finish) ∧
    (RaceAgrees oneUuid twoHosts finish.shared Response.withoutDrift firstUpload
        firstUpload "u1" (.ingested 1 0 0 false (some 0))
        (.ingested 1 0 0 true none) ↔
      OwnRaces oneUuid pool moves finish) := by
  intro pool moves finish
  exact race_agrees_iff oneUuid twoHosts firstUpload firstUpload "u1" moves finish
    _ _ (interleaving_runSchedule (advance oneUuid) pool raceTurns)
    firstUpload_carries firstUpload_carries (by decide +kernel)

/-- The second machine is told that its scan is stored, but the scan
is the first machine's. -/
theorem duplicate_of_another_host :
    ∃ moves finish left right,
      Schedule oneUuid (racePool twoHosts firstUpload secondUpload) moves finish ∧
      firstUpload.Carries oneUuid "u1" ∧ secondUpload.Carries oneUuid "u1" ∧
      finish.threads.map Thread.response = [some left, some right] ∧
      ¬ InSomeOrder oneUuid twoHosts Response.withoutDrift secondUpload
        firstUpload right ∧
      ¬ OwnDuplicate oneUuid finish.shared secondUpload "u1" right := by
  refine ⟨_, _, .ingested 1 0 0 false (some 0), .ingested 1 0 0 true none,
    interleaving_runSchedule (advance oneUuid) _ raceTurns, firstUpload_carries,
    secondUpload_carries, by decide +kernel, ?_, ?_⟩
  · have early : (secondUpload.alone oneUuid twoHosts).2 =
        .ingested 1 0 0 false (some 0) := by
      decide +kernel
    have late : (secondUpload.alone oneUuid
        (firstUpload.alone oneUuid twoHosts).1).2 =
        invalidContent (.valueError "scan_uuid belongs to another host") := by
      decide +kernel
    rw [InSomeOrder, early, late]
    decide
  · intro own
    obtain ⟨host, known, scan, member, _, _, owned⟩ := own 1 0 0 none rfl
    have requester : (agentHost oneUuid (runSchedule (advance oneUuid)
        (racePool twoHosts firstUpload secondUpload) raceTurns).1.shared
        secondUpload.request.authorization).toOption.map Host.id = some 2 := by
      decide +kernel
    have owners : ∀ stored ∈ (runSchedule (advance oneUuid)
        (racePool twoHosts firstUpload secondUpload)
        raceTurns).1.shared.scans.rows, stored.hostId = some 1 := by
      decide +kernel
    rw [known] at requester
    have sameId : host.id = 2 := Option.some_inj.mp requester
    rw [owners scan member, sameId] at owned
    cases owned

end Daemon
end PqcScan
