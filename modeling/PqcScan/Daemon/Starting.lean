import PqcScan.Library.Interleaving
import PqcScan.Store.Retention
import PqcScan.Store.ScanRows

/-!
# Starting a scan

`POST /api/scans` claims the row of its scan in one transaction.
`POST /scans/new` looks for a running scan and leaves the row to a background
thread.  Between the two a second request can start a second scan.
-/

namespace PqcScan
namespace Daemon

open Library Python Store

/-! ## The daemon at startup -/

/-- What `reconcile_running_scans` writes to a scan left running. -/
def interrupt (now : DateTime) (scan : Scan) : Scan :=
  { scan with
    status := "interrupted"
    finishedAt := some (scan.finishedAt.getD now) }

/-- The update of one scan left running. -/
def interruptScan (now : DateTime) (db : Database) (scanId : Nat) : Database :=
  db.updateScan scanId (interrupt now) (fun _ => rfl) (fun _ => rfl)
    (fun _ _ apart => apart)

@[simp] theorem rows_interruptScan (now : DateTime) (db : Database) (scanId : Nat) :
    (interruptScan now db scanId).scans.rows =
      Table.modifyRows scanId (interrupt now) db.scans.rows := rfl

/-- `reconcile_running_scans`. -/
def reconcileRunningScans (now : DateTime) (db : Database) : Database :=
  let stale := (db.scans.rows.filter (·.status == "running")).map Scan.id
  (Repo.deleteStaleRollups now (stale.foldl (interruptScan now) db)).1

/-! ## Requests and background threads -/

/-- The answers to a start. -/
inductive StartAnswer
  /-- 202 with the id of the scan. -/
  | accepted (scanId : Nat)
  /-- 409. -/
  | conflict (detail : String)
  /-- 303. -/
  | redirect (location : String)
  /-- The insert of the row was refused. -/
  | serverError
  deriving DecidableEq

/-- Where a request stands. -/
inductive StartHandler
  /-- `POST /scans/new` has found no running scan and starts its thread next. -/
  | spawning
  /-- It waits for a scan that is not among `before_ids`. -/
  | polling (beforeIds : List Nat) (rounds : Nat)
  | answered (answer : StartAnswer)
  deriving DecidableEq

/-- Where the background thread of a scan stands. -/
inductive ScanThread
  /-- `run()` without a `scan_id`: it creates the row first. -/
  | creating
  | probing (scanId : Nat)
  | ended
  deriving DecidableEq

/-- The database, the requests under way and the threads of the scans. -/
structure StartState where
  db : Database
  handlers : List StartHandler
  threads : List ScanThread

/-- One step of the event loop or of a background thread. -/
inductive StartEvent
  | postScan (start : Repo.ScanStart)
  | startScan
  | spawn (handler : Nat)
  | poll (handler : Nat)
  | createRow (thread : Nat) (start : Repo.ScanStart)
  | finish (thread : Nat) (now : DateTime)

/-- The daemon after startup. -/
def boot (now : DateTime) (db : Database) : StartState :=
  ⟨reconcileRunningScans now db, [], []⟩

/-- `post_scan`. -/
def postScan (state : StartState) (start : Repo.ScanStart) : StartState :=
  let answer (answer : StartAnswer) := state.handlers ++ [.answered answer]
  match Repo.beginScanIfIdle state.db start with
  | none => { state with handlers := answer .serverError }
  | some (_, none) =>
      { state with handlers := answer (.conflict "a scan is already running") }
  | some (db, some scanId) =>
      ⟨db, answer (.accepted scanId), state.threads ++ [.probing scanId]⟩

/-- `start_scan` up to its check. -/
def startScan (state : StartState) : StartState :=
  match (Repo.listScans state.db).find? (·.status == "running") with
  | some running =>
      { state with
        handlers := state.handlers ++
          [.answered (.redirect s!"/scans/{running.id}")] }
  | none => { state with handlers := state.handlers ++ [.spawning] }

/-- One round of the loop in `start_scan`. -/
def pollRound (db : Database) (beforeIds : List Nat) : Nat → StartHandler
  | 0 => .answered (.redirect "/scans")
  | rounds + 1 =>
      match (Repo.listScans db).find? (!beforeIds.contains ·.id) with
      | some scan => .answered (.redirect s!"/scans/{scan.id}")
      | none => .polling beforeIds rounds

/-- No handler is between two awaits, so the event loop may turn to another. -/
def StartState.loopFree (state : StartState) : Bool :=
  state.handlers.all (· != .spawning)

/-- One step; `none` when it is not enabled. -/
def startStep (state : StartState) : StartEvent → Option StartState
  | .postScan start => if state.loopFree then some (postScan state start) else none
  | .startScan => if state.loopFree then some (startScan state) else none
  | .spawn handler =>
      match state.handlers[handler]? with
      | some .spawning =>
          let beforeIds := (Repo.listScans state.db).map Scan.id
          some { state with
            handlers := state.handlers.set handler (.polling beforeIds 100)
            threads := state.threads ++ [.creating] }
      | _ => none
  | .poll handler =>
      match state.loopFree, state.handlers[handler]? with
      | true, some (.polling beforeIds rounds) =>
          some { state with
            handlers := state.handlers.set handler
              (pollRound state.db beforeIds rounds) }
      | _, _ => none
  | .createRow thread start =>
      match state.threads[thread]? with
      | some .creating =>
          match Repo.createScan state.db start with
          | none => some { state with threads := state.threads.set thread .ended }
          | some (db, scanId) =>
              some { state with
                db := db
                threads := state.threads.set thread (.probing scanId) }
      | _ => none
  | .finish thread now =>
      match state.threads[thread]? with
      | some (.probing scanId) =>
          let threads := state.threads.set thread .ended
          match Repo.finishScan now state.db scanId "done" with
          | .error _ => some { state with threads }
          | .ok db => some { state with db := db, threads }
      | _ => none

/-! ## Running and pending scans -/

/-- The scans that run, and those a handler or a thread has
still to make a row for. -/
def StartState.load (state : StartState) : Nat :=
  Repo.runningCount state.db + state.handlers.count .spawning +
    state.threads.count .creating

theorem StartState.loopFree_iff {state : StartState} :
    state.loopFree = true ↔ state.handlers.count .spawning = 0 := by
  rw [StartState.loopFree, List.all_eq_true, List.count_eq_zero]
  constructor
  · intro free member
    simpa using free _ member
  · intro absent handler member
    simpa using fun same : handler = .spawning => absent (same ▸ member)

/-- The event checks whether a scan is running. -/
def StartEvent.checks : StartEvent → Bool
  | .postScan _ | .startScan => true
  | _ => false

/-- When a request finds no running scan, no thread has still to
make the row of its scan. -/
def Settled (before : StartState) (event : StartEvent) : Prop :=
  event.checks = true → Repo.runningCount before.db = 0 → .creating ∉ before.threads

instance (before : StartState) (event : StartEvent) : Decidable (Settled before event) :=
  inferInstanceAs (Decidable (_ → _ → _))

/-- The event takes the daemon from one state to the next. -/
def Starts (before : StartState) (event : StartEvent) (after : StartState) : Prop :=
  startStep before event = some after

section Steps

variable {before after : StartState}

/-- `POST /api/scans` claims a row only when no scan runs. -/
theorem load_postScan (start : Repo.ScanStart) (free : before.loopFree = true)
    (settled : Repo.runningCount before.db = 0 → .creating ∉ before.threads)
    (light : before.load ≤ 1) : (postScan before start).load ≤ 1 := by
  have unspawned := StartState.loopFree_iff.mp free
  unfold postScan Repo.beginScanIfIdle
  split
  · simpa [StartState.load] using light
  · simpa [StartState.load] using light
  · next claimed =>
      split at claimed
      · cases claimed
      · next idle =>
          have quiet := (Repo.runningCount_eq_zero_iff fun _ =>
            Table.mem_iff.symm).mp idle
          have alone := List.count_eq_zero.mpr (settled quiet)
          simp only [Option.map_eq_some_iff, Prod.mk.injEq] at claimed
          obtain ⟨created, inserted, rfl, _⟩ := claimed
          have counted := Repo.runningCount_createScan inserted
          simp only [StartState.load, List.count_append]
          simp [unspawned, alone, counted, quiet]

/-- `POST /scans/new` goes on only when no scan runs. -/
theorem load_startScan (free : before.loopFree = true)
    (settled : Repo.runningCount before.db = 0 → .creating ∉ before.threads)
    (light : before.load ≤ 1) : (startScan before).load ≤ 1 := by
  have unspawned := StartState.loopFree_iff.mp free
  unfold startScan
  split
  · simpa [StartState.load] using light
  · next idle =>
      have quiet := (Repo.runningCount_eq_zero_iff fun _ => Repo.mem_listScans).mp idle
      have alone := List.count_eq_zero.mpr (settled quiet)
      simp [StartState.load, unspawned, alone, quiet]

/-- Apart from the checks, no step adds to the load. -/
theorem load_le_of_step {event : StartEvent} (step : Starts before event after)
    (later : event.checks = false) : after.load ≤ before.load := by
  cases event with
  | postScan start => cases later
  | startScan => cases later
  | spawn handler =>
      simp only [Starts, startStep] at step
      split at step
      · next found =>
          have moved := count_set_add found
            (.polling ((Repo.listScans before.db).map Scan.id) 100) .spawning
          cases step
          simp only [StartState.load, List.count_append]
          simp at moved ⊢
          omega
      · cases step
  | poll handler =>
      simp only [Starts, startStep] at step
      split at step
      · next beforeIds rounds _ found =>
          have moved := count_set_add found
            (pollRound before.db beforeIds rounds) .spawning
          have polled : pollRound before.db beforeIds rounds ≠ .spawning := by
            unfold pollRound
            split
            · nofun
            · split <;> nofun
          cases step
          simp only [StartState.load]
          simp [polled] at moved
          omega
      · cases step
  | createRow thread start =>
      simp only [Starts, startStep] at step
      split at step
      · next found =>
          split at step
          · have moved := count_set_add found .ended .creating
            cases step
            simp only [StartState.load]
            simp at moved
            omega
          · next db scanId inserted =>
              have moved := count_set_add found (.probing scanId) .creating
              have counted := Repo.runningCount_createScan inserted
              cases step
              simp only [StartState.load]
              simp at moved
              omega
      · cases step
  | finish thread now =>
      simp only [Starts, startStep] at step
      split at step
      · next scanId found =>
          have moved := count_set_add found .ended .creating
          simp at moved
          split at step
          · cases step
            simp only [StartState.load]
            omega
          · next db finished =>
              have counted := Repo.runningCount_finishScan finished
              cases step
              simp only [StartState.load]
              omega
      · cases step

/-- A settled step keeps the load at most one. -/
theorem load_step {event : StartEvent} (step : Starts before event after)
    (settled : Settled before event) (light : before.load ≤ 1) : after.load ≤ 1 := by
  cases event with
  | postScan start =>
      simp only [Starts, startStep, Option.ite_none_right_eq_some] at step
      obtain ⟨free, stepped⟩ := step
      cases stepped
      exact load_postScan start free (settled rfl) light
  | startScan =>
      simp only [Starts, startStep, Option.ite_none_right_eq_some] at step
      obtain ⟨free, stepped⟩ := step
      cases stepped
      exact load_startScan free (settled rfl) light
  | spawn handler => exact (load_le_of_step step rfl).trans light
  | poll handler => exact (load_le_of_step step rfl).trans light
  | createRow thread start => exact (load_le_of_step step rfl).trans light
  | finish thread now => exact (load_le_of_step step rfl).trans light

end Steps

/-! ## Every run -/

/-- After the updates of `reconcile_running_scans` a running scan is one that was
running and was not updated. -/
theorem running_foldl_interruptScan {now : DateTime} {scanIds : List Nat} {db : Database}
    {scan : Scan} (member : scan ∈ (scanIds.foldl (interruptScan now) db).scans)
    (running : scan.status = "running") : scan ∈ db.scans ∧ scan.id ∉ scanIds := by
  induction scanIds generalizing db with
  | nil => exact ⟨member, List.not_mem_nil⟩
  | cons scanId rest inductionHypothesis =>
      obtain ⟨updated, absent⟩ := inductionHypothesis member
      rw [Table.mem_iff, rows_interruptScan, Table.mem_modifyRows] at updated
      rcases updated with ⟨kept, different⟩ | ⟨old, _, _, rfl⟩
      · exact ⟨kept, List.not_mem_cons_of_ne_of_not_mem different absent⟩
      · simp [interrupt] at running

/-- No scan runs after startup. -/
theorem runningCount_boot (now : DateTime) (db : Database) :
    Repo.runningCount (boot now db).db = 0 := by
  rw [Repo.runningCount, List.countP_eq_zero]
  intro scan member running
  have status : scan.status = "running" := by simpa using running
  obtain ⟨swept, _⟩ := Repo.mem_deleteScans.mp (Table.mem_iff.mpr member)
  obtain ⟨stored, spared⟩ := running_foldl_interruptScan swept status
  apply spared
  exact List.mem_map.mpr ⟨scan, List.mem_filter.mpr ⟨stored, running⟩, rfl⟩

/-- A step of the daemon whose check, if it makes one, is settled. -/
def StartsSettled (before : StartState) (event : StartEvent)
    (after : StartState) : Prop :=
  Starts before event after ∧ Settled before event

/-- At most one scan runs in every state that settled steps reach from startup. -/
theorem one_running_scan {now : DateTime} {db : Database} {events : List StartEvent}
    {finish : StartState} (run : Run StartsSettled (boot now db) events finish) :
    Repo.runningCount finish.db ≤ 1 := by
  have light : finish.load ≤ 1 := by
    apply run.invariant fun state => state.load ≤ 1
    · have quiet := runningCount_boot now db
      simp [StartState.load, boot] at quiet ⊢
      omega
    · rintro before event after light ⟨step, settled⟩
      exact load_step step settled light
  unfold StartState.load at light
  omega

/-! ## Two requests -/

/-- A scan that begins at a given time. -/
def scanStart (startedAt : DateTime) (scanUuid : String) : Repo.ScanStart :=
  ⟨startedAt, "user", Dict.empty, Dict.empty, none, scanUuid⟩

/-- The daemon on an empty database. -/
def emptyDaemon : StartState := boot 0 default

/-- A scan from the web page, a refused and an accepted request. -/
def oneAfterTheOther : List StartEvent :=
  [.startScan, .spawn 0, .createRow 0 (scanStart 1 "u1"), .poll 0,
    .postScan (scanStart 2 "u2"), .finish 0 3, .postScan (scanStart 4 "u3")]

/-- Two requests on the web page before the first thread has made its row. -/
def twoAtOnce : List StartEvent :=
  [.startScan, .spawn 0, .startScan, .spawn 1, .createRow 0 (scanStart 1 "u1"),
    .createRow 1 (scanStart 2 "u2")]

theorem one_running_scan_oneAfterTheOther :
    ∃ finish, Run StartsSettled emptyDaemon oneAfterTheOther finish ∧
      Repo.runningCount finish.db ≤ 1 := by
  let settledStep (before : StartState) (event : StartEvent) : Option StartState :=
    if Settled before event then startStep before event else none
  have executes : (oneAfterTheOther.foldlM settledStep emptyDaemon).isSome = true := by
    decide
  obtain ⟨finish, executed⟩ := Option.isSome_iff_exists.mp executes
  have run : Run StartsSettled emptyDaemon oneAfterTheOther finish := by
    apply (Run.of_foldlM executed).mono
    intro before event after step
    obtain ⟨settled, starts⟩ := Option.ite_none_right_eq_some.mp step
    exact ⟨starts, settled⟩
  exact ⟨finish, run, one_running_scan run⟩

/-- Then two scans run. -/
theorem two_running_scans :
    ¬ ∀ (now : DateTime) (db : Database) (events : List StartEvent) (finish : StartState),
      Run Starts (boot now db) events finish → Repo.runningCount finish.db ≤ 1 := by
  intro exclusive
  have counted : (twoAtOnce.foldlM startStep emptyDaemon).map
      (fun finish => Repo.runningCount finish.db) = some 2 := by
    decide
  obtain ⟨finish, executed, two⟩ := Option.map_eq_some_iff.mp counted
  have one := exclusive 0 default twoAtOnce finish (Run.of_foldlM executed)
  omega

end Daemon
end PqcScan
