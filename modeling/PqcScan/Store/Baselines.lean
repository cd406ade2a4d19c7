import PqcScan.Library.Interleaving
import PqcScan.Store.Retention

/-!
# Baselines and retention

`prune_host` and `prune_scans` select the scans to delete in one transaction and
delete each in its own.  A baseline that is created between the two does not
stop the deletion; one created while the scan is not selected does.
-/

namespace PqcScan
namespace Store
namespace Repo

open Library Python

/-- `create_baseline`. -/
def createBaseline (now : DateTime) (db : Database) (scanId : Nat) (label : String)
    (notes : Option String) : Except PyError (Database × Nat) :=
  match db.scans.get? scanId with
  | none => .error (.valueError s!"scan {scanId} not found")
  | some _ =>
      .ok ({ db with baselines := db.baselines.add ⟨0, scanId, label, now, notes⟩ },
        db.baselines.nextId)

/-! ## Retention, transaction by transaction -/

/-- Where a call of `create_baseline`, `prune_host` or `prune_scans` stands. -/
inductive RetentionTask
  | createBaseline (scanId : Nat) (label : String) (notes : Option String)
  | pruneHost (hostId keep : Nat)
  | pruneScans (keep : Nat)
  /-- The loop of `delete_stale_rollups` in `prune_scans`. -/
  | sweeping (scanIds : List Nat) (keep : Nat)
  /-- The loop of `prune_host`, with the hosts `prune_scans` has yet to prune. -/
  | pruning (scanIds hostIds : List Nat) (keep : Nat)
  | created (baselineId : Nat)
  | finished
  | failed (error : PyError)
  deriving DecidableEq

/-- A call and its reading of the clock. -/
structure RetentionCall where
  now : DateTime
  task : RetentionTask

/-- The next transaction of a call. -/
def advanceTask (now : DateTime) (db : Database) :
    RetentionTask → Database × RetentionTask
  | .createBaseline scanId label notes =>
      match createBaseline now db scanId label notes with
      | .error error => (db, .failed error)
      | .ok (after, baselineId) => (after, .created baselineId)
  | .pruneHost hostId keep =>
      if keep < 1 then (db, .failed (.valueError "keep must be >= 1"))
      else (db, .pruning (pruneVictims db hostId keep) [] keep)
  | .pruneScans keep =>
      if keep < 1 then (db, .failed (.valueError "keep_per_host must be >= 1"))
      else (db, .sweeping (staleRollups now db) keep)
  | .sweeping (scanId :: rest) keep => (deleteScan db scanId, .sweeping rest keep)
  | .sweeping [] keep => (db, .pruning [] (db.hosts.rows.map Host.id) keep)
  | .pruning (scanId :: rest) hostIds keep =>
      (deleteScan db scanId, .pruning rest hostIds keep)
  | .pruning [] (hostId :: rest) keep =>
      (db, .pruning (pruneVictims db hostId keep) rest keep)
  | .pruning [] [] _ => (db, .finished)
  | .created baselineId => (db, .created baselineId)
  | .finished => (db, .finished)
  | .failed error => (db, .failed error)

/-- A step of a retention call. -/
def advanceCall (db : Database) (call : RetentionCall) : Database × RetentionCall :=
  let (after, task) := advanceTask call.now db call.task
  (after, ⟨call.now, task⟩)

/-- A schedule of calls. -/
abbrev RetentionSchedule := Interleaving advanceCall

/-- The scans a call has selected and not yet deleted. -/
def RetentionTask.selected : RetentionTask → List Nat
  | .sweeping scanIds _ => scanIds
  | .pruning scanIds _ _ => scanIds
  | _ => []

/-- Alone, the transactions of a prune of one host do what `prune_host` does. -/
theorem advance_pruneHost (now : DateTime) (db : Database) (hostId keep : Nat)
    (large : 1 ≤ keep) :
    ∃ steps : Nat, (fun state => advanceTask now state.1 state.2)^[steps]
        (db, .pruneHost hostId keep) =
      (deleteScans db (pruneVictims db hostId keep), .finished) := by
  have loop : ∀ (scanIds : List Nat) (db : Database),
      ∃ steps : Nat, (fun state => advanceTask now state.1 state.2)^[steps]
          (db, .pruning scanIds [] keep) = (deleteScans db scanIds, .finished) := by
    intro scanIds
    induction scanIds with
    | nil => exact fun db => ⟨1, rfl⟩
    | cons scanId rest inductionHypothesis =>
        intro db
        obtain ⟨steps, done⟩ := inductionHypothesis (deleteScan db scanId)
        exact ⟨steps + 1, done⟩
  obtain ⟨steps, done⟩ := loop (pruneVictims db hostId keep) db
  refine ⟨steps + 1, ?_⟩
  rw [Function.iterate_succ_apply]
  simp only [advanceTask, if_neg (Nat.not_lt.mpr large)]
  exact done

/-! ## What survives -/

/-- The scan, its findings and its baselines are kept. -/
structure Survives (scanId : Nat) (before after : Database) : Prop where
  scan : ∀ scan ∈ before.scans, scan.id = scanId → scan ∈ after.scans
  findings : ∀ row ∈ before.findings, row.scanId = scanId → row ∈ after.findings
  baselines : ∀ row ∈ before.baselines, row.scanId = scanId → row ∈ after.baselines

theorem Survives.refl (scanId : Nat) (db : Database) : Survives scanId db db :=
  ⟨fun _ member _ => member, fun _ member _ => member, fun _ member _ => member⟩

theorem Survives.trans {scanId : Nat} {first second third : Database}
    (left : Survives scanId first second) (right : Survives scanId second third) :
    Survives scanId first third :=
  ⟨fun scan member same => right.scan scan (left.scan scan member same) same,
    fun row member same => right.findings row (left.findings row member same) same,
    fun row member same => right.baselines row (left.baselines row member same) same⟩

theorem survives_deleteScan {scanId : Nat} (db : Database) {other : Nat}
    (different : other ≠ scanId) : Survives scanId db (deleteScan db other) := by
  refine ⟨fun scan member same => ?_, fun row member same => ?_,
    fun row member same => ?_⟩
  · exact Table.mem_filter.mpr ⟨member, by simpa [same] using different.symm⟩
  · exact Table.mem_filter.mpr ⟨member, by simpa [same] using different.symm⟩
  · exact Table.mem_filter.mpr ⟨member, by simpa [same] using different.symm⟩

theorem survives_createBaseline {now : DateTime} {db after : Database}
    {other baselineId : Nat} {label : String} {notes : Option String} (scanId : Nat)
    (created : createBaseline now db other label notes = .ok (after, baselineId)) :
    Survives scanId db after := by
  unfold createBaseline at created
  split at created
  · cases created
  · cases created
    exact ⟨fun _ member _ => member, fun _ member _ => member,
      fun _ member _ => List.mem_append_left _ member⟩

/-- The scan has a baseline. -/
def Baselined (db : Database) (scanId : Nat) : Prop :=
  ∃ row ∈ db.baselines, row.scanId = scanId

theorem baselined_createBaseline {now : DateTime} {db after : Database}
    {scanId baselineId : Nat} {label : String} {notes : Option String}
    (created : createBaseline now db scanId label notes = .ok (after, baselineId)) :
    Baselined after scanId := by
  unfold createBaseline at created
  split at created
  · cases created
  · cases created
    exact ⟨_, List.mem_append_right _ (List.mem_singleton_self _), rfl⟩

theorem Survives.baselined {scanId : Nat} {before after : Database}
    (survives : Survives scanId before after) (baselined : Baselined before scanId) :
    Baselined after scanId := by
  obtain ⟨row, member, same⟩ := baselined
  exact ⟨row, survives.baselines row member same, same⟩

/-- A prune never selects a baselined scan. -/
theorem baselined_not_mem_pruneVictims {db : Database} {scanId : Nat}
    (baselined : Baselined db scanId) (hostId keep : Nat) :
    scanId ∉ pruneVictims db hostId keep := by
  intro victim
  unfold pruneVictims at victim
  have listed := List.mem_of_mem_drop (List.mem_of_mem_filter victim)
  rw [List.mem_reverse, List.mem_filter] at listed
  obtain ⟨row, member, same⟩ := baselined
  have marked : scanId ∈ db.baselines.rows.map Baseline.scanId :=
    List.mem_map.mpr ⟨row, member, same⟩
  simp [marked] at listed

/-! ## One transaction -/

/-- The transaction is not a sweep that selects the scan. -/
def SweepSpares (scanId : Nat) (pool : Pool Database RetentionCall)
    (move : Move RetentionCall) : Prop :=
  ∀ keep, move.before.task = .pruneScans keep →
    scanId ∉ staleRollups move.before.now pool.shared

/-- A baselined scan that no call has selected survives a
transaction and stays unselected. -/
theorem advanceTask_survives {now : DateTime} {db after : Database}
    {task next : RetentionTask} {scanId : Nat}
    (step : advanceTask now db task = (after, next)) (baselined : Baselined db scanId)
    (unselected : scanId ∉ task.selected)
    (spares : ∀ keep, task = .pruneScans keep → scanId ∉ staleRollups now db) :
    Survives scanId db after ∧ scanId ∉ next.selected := by
  cases task with
  | createBaseline other label notes =>
      simp only [advanceTask] at step
      split at step
      · cases step
        exact ⟨Survives.refl scanId db, List.not_mem_nil⟩
      · next created =>
          cases step
          exact ⟨survives_createBaseline scanId created, List.not_mem_nil⟩
  | pruneHost hostId keep =>
      simp only [advanceTask] at step
      split at step
      · cases step
        exact ⟨Survives.refl scanId db, List.not_mem_nil⟩
      · cases step
        exact ⟨Survives.refl scanId db, baselined_not_mem_pruneVictims baselined _ _⟩
  | pruneScans keep =>
      simp only [advanceTask] at step
      split at step
      · cases step
        exact ⟨Survives.refl scanId db, List.not_mem_nil⟩
      · cases step
        exact ⟨Survives.refl scanId db, spares keep rfl⟩
  | sweeping scanIds keep =>
      cases scanIds with
      | nil =>
          cases step
          exact ⟨Survives.refl scanId db, List.not_mem_nil⟩
      | cons first rest =>
          cases step
          obtain ⟨different, later⟩ := not_or.mp (mt List.mem_cons.mpr unselected)
          exact ⟨survives_deleteScan db (Ne.symm different), later⟩
  | pruning scanIds hostIds keep =>
      cases scanIds with
      | nil =>
          cases hostIds with
          | nil =>
              cases step
              exact ⟨Survives.refl scanId db, List.not_mem_nil⟩
          | cons hostId rest =>
              cases step
              exact ⟨Survives.refl scanId db,
                baselined_not_mem_pruneVictims baselined _ _⟩
      | cons first rest =>
          cases step
          obtain ⟨different, later⟩ := not_or.mp (mt List.mem_cons.mpr unselected)
          exact ⟨survives_deleteScan db (Ne.symm different), later⟩
  | created baselineId =>
      cases step
      exact ⟨Survives.refl scanId db, List.not_mem_nil⟩
  | finished =>
      cases step
      exact ⟨Survives.refl scanId db, List.not_mem_nil⟩
  | failed error =>
      cases step
      exact ⟨Survives.refl scanId db, List.not_mem_nil⟩

/-! ## Every schedule -/

/-- The move is the commit of a baseline of the scan. -/
def CommitsBaseline (scanId : Nat) (move : Move RetentionCall) : Prop :=
  (∃ label notes, move.before.task = .createBaseline scanId label notes) ∧
    ∃ baselineId, move.after.task = .created baselineId

/-- Once a baseline of the scan has been committed, the scan, its findings and its
baselines survive the rest of the schedule. -/
def BaselinesSurvive (start : Pool Database RetentionCall)
    (moves : List (Move RetentionCall)) (finish : Pool Database RetentionCall)
    (scanId : Nat) : Prop :=
  ∀ (past future : List (Move RetentionCall)) (creation : Move RetentionCall)
    (committed : Pool Database RetentionCall),
    moves = past ++ creation :: future → CommitsBaseline scanId creation →
    RetentionSchedule start (past ++ [creation]) committed →
    RetentionSchedule committed future finish →
    Baselined committed.shared scanId ∧ Survives scanId committed.shared finish.shared

/-- No call has selected the scan when a baseline of it commits. -/
def BaselinedUnselected (start : Pool Database RetentionCall)
    (moves : List (Move RetentionCall)) (scanId : Nat) : Prop :=
  ∀ (past future : List (Move RetentionCall)) (creation : Move RetentionCall)
    (before : Pool Database RetentionCall),
    moves = past ++ creation :: future → CommitsBaseline scanId creation →
    RetentionSchedule start past before →
    ∀ call ∈ before.threads, scanId ∉ call.task.selected

/-- No sweep for stale rollups selects the scan. -/
def SweepsSpare (start : Pool Database RetentionCall)
    (moves : List (Move RetentionCall)) (scanId : Nat) : Prop :=
  ∀ (past future : List (Move RetentionCall)) (move : Move RetentionCall)
    (before : Pool Database RetentionCall),
    moves = past ++ move :: future → RetentionSchedule start past before →
    SweepSpares scanId before move

section Schedules

variable {start finish : Pool Database RetentionCall}
  {moves : List (Move RetentionCall)} {scanId : Nat}

theorem task_of_advances {pool next : Pool Database RetentionCall}
    {move : Move RetentionCall} (moved : Advances advanceCall pool move next) :
    advanceTask move.before.now pool.shared move.before.task =
      (next.shared, move.after.task) := by
  have transaction := moved.transaction
  unfold advanceCall at transaction
  rcases result : advanceTask move.before.now pool.shared move.before.task with ⟨after,
    task⟩
  rw [result] at transaction
  obtain ⟨shared, arrived⟩ := Prod.mk.inj transaction
  rw [shared, ← arrived]

theorem move_survives {pool next : Pool Database RetentionCall}
    {move : Move RetentionCall} (moved : Advances advanceCall pool move next)
    (baselined : Baselined pool.shared scanId)
    (unselected : ∀ call ∈ pool.threads, scanId ∉ call.task.selected)
    (spares : SweepSpares scanId pool move) :
    Survives scanId pool.shared next.shared ∧
      ∀ call ∈ next.threads, scanId ∉ call.task.selected := by
  obtain ⟨survives, still⟩ := advanceTask_survives (task_of_advances moved) baselined
    (unselected move.before moved.mem_before) spares
  refine ⟨survives, fun call member => ?_⟩
  rcases moved.eq_or_mem member with rfl | before
  · exact still
  · exact unselected call before

/-- Along a schedule whose sweeps spare it, a baselined scan that no call has
selected survives. -/
theorem schedule_survives (schedule : RetentionSchedule start moves finish)
    (baselined : Baselined start.shared scanId)
    (unselected : ∀ call ∈ start.threads, scanId ∉ call.task.selected)
    (spare : SweepsSpare start moves scanId) :
    Survives scanId start.shared finish.shared ∧
      ∀ call ∈ finish.threads, scanId ∉ call.task.selected := by
  induction schedule with
  | nil => exact ⟨Survives.refl _ _, unselected⟩
  | @snoc labels label middle finish earlier last inductionHypothesis =>
      obtain ⟨survives, still⟩ := inductionHypothesis
        fun past future move before split schedule =>
          spare past (future ++ [label]) move before (by simp [split]) schedule
      obtain ⟨next, after⟩ := move_survives last (survives.baselined baselined) still
        (spare _ [] _ _ rfl earlier)
      exact ⟨survives.trans next, after⟩

/-- A baselined scan survives retention in every schedule in which it is not
selected when its baseline commits, and no sweep selects it. -/
theorem baselines_survive (unselected : BaselinedUnselected start moves scanId)
    (spare : SweepsSpare start moves scanId) :
    BaselinesSurvive start moves finish scanId := by
  intro past future creation committed split commits schedule rest
  have whole := schedule
  obtain ⟨before, earlier, last⟩ := schedule.of_snoc
  obtain ⟨⟨label, notes, creating⟩, baselineId, created⟩ := commits
  have quiet := unselected past future creation before split
    ⟨⟨label, notes, creating⟩, baselineId, created⟩ earlier
  have transaction := task_of_advances last
  rw [creating, created] at transaction
  simp only [advanceTask] at transaction
  have committedNow : Baselined committed.shared scanId ∧
      ∀ call ∈ committed.threads, scanId ∉ call.task.selected := by
    split at transaction
    · cases congrArg Prod.snd transaction
    · next stored =>
        have same := (Prod.mk.inj transaction).1
        rw [same] at stored
        refine ⟨baselined_createBaseline stored, fun call member => ?_⟩
        rcases last.eq_or_mem member with rfl | earlierCall
        · rw [created]
          exact List.not_mem_nil
        · exact quiet call earlierCall
  refine ⟨committedNow.1, (schedule_survives rest committedNow.1 committedNow.2
    fun before after move pool rest_eq schedule => ?_).1⟩
  apply spare (past ++ creation :: before) after move pool
  · rw [split, rest_eq, List.append_assoc, List.cons_append]
  · have joined := whole.append schedule
    rwa [List.append_assoc, List.singleton_append] at joined

end Schedules

/-! ## A baseline created in between -/

/-- A done scan of host 1. -/
def doneScan (scanId : Nat) (scanUuid : String) : Scan where
  id := scanId
  startedAt := 0
  finishedAt := none
  hostFingerprint := none
  mode := "user"
  status := "done"
  label := none
  probeVersions := Dict.empty
  toolVersions := Dict.empty
  hostId := some 1
  scanUuid := some scanUuid

/-- Host 1 with the done scans 1 and 2. -/
def twoScans : Database where
  hosts := ⟨[{ newHost 0 "m1" with id := 1 }], by decide, by decide⟩
  scans := ⟨[doneScan 1 "u1", doneScan 2 "u2"], by decide, by decide⟩
  findings := Table.empty
  views := Table.empty
  baselines := Table.empty
  components := Table.empty
  edges := Table.empty
  hostStored := by decide

/-- A prune of host 1 down to one scan, and a baseline of scan 1. -/
def pruneAndBaseline : Pool Database RetentionCall :=
  ⟨twoScans, [⟨0, .pruneHost 1 1⟩, ⟨0, .createBaseline 1 "golden" none⟩]⟩

/-- The call creates a baseline, or sweeps rollups. -/
def RetentionTask.creates : RetentionTask → Bool
  | .createBaseline _ _ _ => true
  | _ => false

/-- The task sweeps the hosts. -/
def RetentionTask.sweeps : RetentionTask → Bool
  | .pruneScans _ => true
  | _ => false

/-- A schedule that begins with the baseline. -/
theorem baselines_survive_early :
    BaselinesSurvive pruneAndBaseline (runSchedule advanceCall pruneAndBaseline [1, 0]).2
      (runSchedule advanceCall pruneAndBaseline [1, 0]).1 1 := by
  apply baselines_survive
  · rintro (_ | ⟨first, past⟩) future creation before split commits schedule
    · obtain rfl := schedule.eq_of_nil
      decide
    · -- Only the first move creates a baseline.
      have later : ((runSchedule advanceCall pruneAndBaseline [1, 0]).2.tail.all
          fun move => !move.before.task.creates) = true := by
        decide
      obtain ⟨⟨label, notes, creating⟩, _⟩ := commits
      rw [split, List.cons_append, List.tail_cons, List.all_eq_true] at later
      have other := later creation (by simp)
      rw [creating] at other
      cases other
  · intro past future move before split schedule keep sweeping
    have none : ((runSchedule advanceCall pruneAndBaseline [1, 0]).2.all
        fun move => !move.before.task.sweeps) = true := by
      decide
    rw [split, List.all_eq_true] at none
    have other := none move (by simp)
    rw [sweeping] at other
    cases other

/-- The prune has selected scan 1. -/
def selectedPool : Pool Database RetentionCall :=
  (runSchedule advanceCall pruneAndBaseline [0]).1

/-- Then its baseline was created. -/
def baselinedPool : Pool Database RetentionCall :=
  (runSchedule advanceCall selectedPool [1]).1

/-- A baseline created between the selection and the deletion saves nothing. -/
theorem selected_scan_deleted :
    ∃ moves finish, RetentionSchedule pruneAndBaseline moves finish ∧
      ¬ BaselinesSurvive pruneAndBaseline moves finish 1 := by
  have selecting := interleaving_runSchedule advanceCall pruneAndBaseline [0]
  obtain ⟨creation, creating, creationTurn⟩ :=
    exists_turn advanceCall selectedPool 1 (by decide)
  obtain ⟨deletion, deleting, _⟩ :=
    exists_turn advanceCall baselinedPool 0 (by decide)
  have schedule : RetentionSchedule pruneAndBaseline
      ((runSchedule advanceCall pruneAndBaseline [0]).2 ++ [creation]) baselinedPool :=
    Run.snoc selecting creating
  have rest : RetentionSchedule baselinedPool [deletion]
      (runSchedule advanceCall baselinedPool [0]).1 := Run.single deleting
  have stored : baselinedPool.shared.baselines.rows.map Baseline.scanId = [1] := by
    decide
  have gone : (runSchedule advanceCall baselinedPool
      [0]).1.shared.baselines.rows.isEmpty =
      true := by
    decide
  have turn : (runSchedule advanceCall selectedPool [1]).2.map
      (fun move => (move.before.task, move.after.task)) =
        [(.createBaseline 1 "golden" none, .created 1)] := by
    decide
  rw [creationTurn, List.map_singleton, List.singleton_inj] at turn
  obtain ⟨before, after⟩ := Prod.mk.inj turn
  refine ⟨_, _, Run.snoc schedule deleting, fun survive => ?_⟩
  obtain ⟨_, survives⟩ := survive _ _ creation baselinedPool (List.append_assoc _ _ _)
    ⟨⟨_, _, before⟩, _, after⟩ schedule rest
  obtain ⟨row, rows, same⟩ := List.map_eq_singleton_iff.mp stored
  have member : row ∈ baselinedPool.shared.baselines := by
    rw [Table.mem_iff, rows]
    exact List.mem_singleton_self row
  have kept := survives.baselines row member same
  rw [Table.mem_iff, List.isEmpty_iff.mp gone] at kept
  exact List.not_mem_nil kept

end Repo
end Store
end PqcScan
