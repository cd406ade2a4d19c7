import PqcScan.Library.Transition
import Mathlib.Data.List.Nodup
import Mathlib.Data.List.Perm.Basic
import Mathlib.Algebra.GroupWithZero.Nat

/-!
# Workers in stages

Workers write to one log, each turn of a worker some entries.  They are started stage by
stage; within a stage any of them may have its turn, and the next stage starts when all
have finished.  What a worker writes in all is its script, and no schedule changes it.
-/

namespace PqcScan
namespace Library

/-- What a worker does at its turn.  The script is what it has yet to write, and every
turn makes it smaller. -/
structure Work (τ ε : Type) where
  turn : τ → Option (List ε × τ)
  script : τ → List ε
  size : τ → Nat
  turn_writes : ∀ {task written next}, turn task = some (written, next) →
    script task = written ++ script next ∧ size next < size task
  script_finished : ∀ {task}, turn task = none → script task = []

/-- The log, the workers of the stage and those of the stages to come. -/
structure Staging (κ τ ε : Type) where
  log : List ε
  active : List (κ × τ)
  later : List (List (κ × τ))
  closed : Bool

/-- What happens: a worker writes, the next stage starts, or the log is closed. -/
inductive StageEvent (κ ε : Type)
  | turn (key : κ) (written : List ε)
  | start
  | close

namespace Staging

variable {κ τ ε : Type}

/-- All workers that have not been left behind. -/
def workers (state : Staging κ τ ε) : List (κ × τ) := state.active ++ state.later.flatten

/-- Before the first stage. -/
def initial (stages : List (List (κ × τ))) : Staging κ τ ε := ⟨[], [], stages, false⟩

/-- The workers of the stage have finished. -/
def Idle (work : Work τ ε) (active : List (κ × τ)) : Prop :=
  ∀ worker ∈ active, work.turn worker.2 = none

/-- One step of a schedule. -/
inductive Step (work : Work τ ε) : Staging κ τ ε → StageEvent κ ε → Staging κ τ ε → Prop
  | turn {log written : List ε} {front back : List (κ × τ)} {key : κ} {task next : τ}
      {later : List (List (κ × τ))} (writes : work.turn task = some (written, next)) :
      Step work ⟨log, front ++ (key, task) :: back, later, false⟩ (.turn key written)
        ⟨log ++ written, front ++ (key, next) :: back, later, false⟩
  | start {log : List ε} {active next : List (κ × τ)} {later : List (List (κ × τ))}
      (idle : Idle work active) :
      Step work ⟨log, active, next :: later, false⟩ .start ⟨log, next, later, false⟩
  | close {log : List ε} {active : List (κ × τ)} (idle : Idle work active) :
      Step work ⟨log, active, [], false⟩ .close ⟨log, active, [], true⟩

/-- A schedule. -/
abbrev Schedule (work : Work τ ε) := Run (Step (κ := κ) work)

section Schedules

variable {work : Work τ ε} {before after : Staging κ τ ε} {event : StageEvent κ ε}

/-- The scripts of the workers. -/
def scripts (work : Work τ ε) (workers : List (κ × τ)) : List ε :=
  workers.flatMap fun worker => work.script worker.2

theorem scripts_append (first second : List (κ × τ)) :
    scripts work (first ++ second) = scripts work first ++ scripts work second :=
  List.flatMap_append

theorem scripts_idle {active : List (κ × τ)} (idle : Idle work active) :
    scripts work active = [] := by
  rw [scripts, List.flatMap_eq_nil_iff]
  intro worker member
  exact work.script_finished (idle worker member)

/-! ## The log -/

/-- A step moves entries from the scripts to the log. -/
theorem Step.log_perm (step : Step work before event after) :
    (after.log ++ scripts work after.workers).Perm
      (before.log ++ scripts work before.workers) := by
  cases step with
  | @turn log written front back key task next later writes =>
      have script := (work.turn_writes writes).1
      simp only [workers, scripts, List.flatMap_append, List.flatMap_cons, script,
        List.append_assoc]
      exact List.Perm.append_left log (List.perm_append_comm_assoc _ _ _)
  | @start log current next later idle =>
      rw [workers, workers, scripts_append current, scripts_idle idle, List.nil_append,
        List.flatten_cons]
  | close idle => exact List.Perm.refl _

/-- Entries that a worker writes at a step. -/
def writtenAt [DecidableEq κ] (key : κ) : StageEvent κ ε → List ε
  | .turn other written => if other = key then written else []
  | .start => []
  | .close => []

/-- What a worker writes in a schedule. -/
def written [DecidableEq κ] (key : κ) (events : List (StageEvent κ ε)) : List ε :=
  events.flatMap (writtenAt key)

/-- The scripts of the workers with a key. -/
def scriptOf [DecidableEq κ] (work : Work τ ε) (key : κ)
    (workers : List (κ × τ)) : List ε :=
  scripts work (workers.filter fun worker => decide (worker.1 = key))

/-- The keys of the workers. -/
def keys (state : Staging κ τ ε) : List κ := state.workers.map Prod.fst

/-- No step brings a worker that was not there. -/
theorem Step.keys_sublist (step : Step work before event after) :
    after.keys.Sublist before.keys := by
  cases step with
  | turn writes =>
      simp only [keys, workers, List.map_append, List.map_cons]
      exact List.Sublist.refl _
  | @start log current next later idle =>
      simp only [keys, workers, List.map_append, List.flatten_cons]
      exact List.sublist_append_right _ _
  | close idle => exact List.Sublist.refl _

section Keys

variable [DecidableEq κ] {key : κ}

theorem scriptOf_append (first second : List (κ × τ)) :
    scriptOf work key
      (first ++ second) = scriptOf work key first ++ scriptOf work key second := by
  rw [scriptOf, List.filter_append, scripts_append]
  rfl

theorem scriptOf_cons (worker : κ × τ) (rest : List (κ × τ)) :
    scriptOf work key (worker :: rest) =
      (if worker.1 = key then work.script worker.2 else []) ++
        scriptOf work key rest := by
  by_cases same : worker.1 = key
  · rw [scriptOf, List.filter_cons_of_pos (by simpa using same), if_pos same]
    rfl
  · rw [scriptOf, List.filter_cons_of_neg (by simpa using same), if_neg same]
    rfl

/-- Where the key does not occur there is nothing to write. -/
theorem scriptOf_of_absent {workers : List (κ × τ)}
    (absent : key ∉ workers.map Prod.fst) :
    scriptOf work key workers = [] := by
  rw [scriptOf, List.filter_eq_nil_iff.mpr]
  · rfl
  · intro worker member
    simpa using fun same => absent (List.mem_map.mpr ⟨worker, member, same⟩)

/-- Where keys are distinct, a worker's script is its own. -/
theorem scriptOf_of_mem {workers : List (κ × τ)} (distinct : (workers.map Prod.fst).Nodup)
    {task : τ} (member : (key, task) ∈ workers) :
    scriptOf work key workers = work.script task := by
  obtain ⟨front, back, rfl⟩ := List.append_of_mem member
  rw [List.map_append, List.map_cons, List.nodup_append] at distinct
  obtain ⟨-, rest, apart⟩ := distinct
  have frontFree : key ∉ front.map Prod.fst := fun inside =>
    apart key inside key List.mem_cons_self rfl
  rw [scriptOf_append, scriptOf_cons, if_pos rfl, scriptOf_of_absent frontFree,
    scriptOf_of_absent (List.nodup_cons.mp rest).1, List.append_nil, List.nil_append]

/-- A step writes the beginning of the script of the worker whose turn it is, and leaves
the other scripts alone. -/
theorem Step.scriptOf_eq (step : Step work before event after)
    (distinct : before.keys.Nodup) :
    scriptOf work key before.workers =
      writtenAt key event ++ scriptOf work key after.workers := by
  cases step with
  | @turn log written front back other task next later writes =>
      have script := (work.turn_writes writes).1
      by_cases same : other = key
      · subst same
        have before' : scriptOf work other
            (front ++ (other, task) :: back ++ later.flatten) =
            work.script task :=
          scriptOf_of_mem distinct (by simp [workers])
        have after' : scriptOf work other
            (front ++ (other, next) :: back ++ later.flatten) =
            work.script next :=
          scriptOf_of_mem (by simpa [keys, workers] using distinct) (by simp)
        calc _ = work.script task := before'
          _ = written ++ work.script next := script
          _ = writtenAt other (.turn other written) ++ scriptOf work other _ := by
            rw [writtenAt, if_pos rfl, ← after']
            rfl
      · simp only [workers, scriptOf_append, scriptOf_cons, if_neg same, writtenAt,
          List.nil_append]
  | @start log current next later idle =>
      have finished : scriptOf work key current = [] :=
        scripts_idle fun worker member => idle worker (List.mem_of_mem_filter member)
      rw [workers, scriptOf_append, finished]
      rfl
  | close idle => rfl

end Keys

/-! ## Schedules -/

/-- Until it is closed, a schedule can go on. -/
theorem exists_step (state : Staging κ τ ε) (unfinished : state.closed = false) :
    ∃ event next, Step work state event next := by
  obtain ⟨log, active, later, closed⟩ := state
  cases unfinished
  by_cases idle : Idle work active
  · cases later with
    | nil => exact ⟨_, _, .close idle⟩
    | cons next later => exact ⟨_, _, .start idle⟩
  · rw [Idle] at idle
    simp only [not_forall] at idle
    obtain ⟨⟨key, task⟩, member, busy⟩ := idle
    obtain ⟨⟨written, next⟩, writes⟩ := Option.ne_none_iff_exists'.mp busy
    obtain ⟨front, back, rfl⟩ := List.append_of_mem member
    exact ⟨_, _, .turn writes⟩

/-- How many steps are left at most. -/
def remaining (work : Work τ ε) (state : Staging κ τ ε) : Nat :=
  (state.workers.map fun worker => work.size worker.2).sum + state.later.length +
    if state.closed then 0 else 1

theorem Step.remaining_lt (step : Step work before event after) :
    remaining work after < remaining work before := by
  cases step with
  | @turn log written front back key task next later writes =>
      have smaller := (work.turn_writes writes).2
      simp only [remaining, workers, List.map_append, List.map_cons, List.sum_append,
        List.sum_cons]
      omega
  | @start log current next later idle =>
      simp only [remaining, workers, List.map_append, List.sum_append, List.flatten_cons,
        List.length_cons]
      omega
  | close idle => simp [remaining, workers]

/-- A schedule has no more steps than were left at its start. -/
theorem schedule_bounded {start finish : Staging κ τ ε} {events : List (StageEvent κ ε)}
    (schedule : Schedule work start events finish) :
    events.length + remaining work finish ≤ remaining work start := by
  induction schedule with
  | nil => simp
  | snoc earlier last inductionHypothesis =>
      have less := last.remaining_lt
      rw [List.length_append, List.length_singleton]
      omega

/-- Every schedule can be continued until it is closed. -/
theorem exists_closed (state : Staging κ τ ε) :
    ∃ events finish, Schedule work state events finish ∧ finish.closed = true := by
  induction left : remaining work state using Nat.strongRecOn generalizing state with
  | ind left inductionHypothesis =>
      by_cases closed : state.closed = true
      · exact ⟨[], state, .nil, closed⟩
      · obtain ⟨event, next, step⟩ :=
          @exists_step _ _ _ work state (Bool.not_eq_true _ ▸ closed)
        obtain ⟨events, finish, schedule, done⟩ :=
          inductionHypothesis _ (left ▸ step.remaining_lt) next rfl
        exact ⟨event :: events, finish, schedule.cons step, done⟩

/-- What has finished has nothing left to write. -/
theorem scripts_closed {stages : List (List (κ × τ))} {finish : Staging κ τ ε}
    {events : List (StageEvent κ ε)}
    (schedule : Schedule work (initial stages) events finish)
    (closed : finish.closed = true) : scripts work finish.workers = [] := by
  have invariant := schedule.invariant
    (fun state => state.closed = true → scripts work state.workers = [])
    (fun impossible => absurd impossible (by simp [initial])) ?_
  · exact invariant closed
  · intro before event after _ step isClosed
    cases step with
    | turn writes => cases isClosed
    | start idle => cases isClosed
    | close idle =>
        rw [workers, List.flatten_nil, List.append_nil]
        exact scripts_idle idle

/-- A finished schedule has written the scripts of all workers, in some order. -/
theorem log_perm {stages : List (List (κ × τ))} {finish : Staging κ τ ε}
    {events : List (StageEvent κ ε)}
    (schedule : Schedule work (initial stages) events finish)
    (closed : finish.closed = true) : finish.log.Perm (scripts work stages.flatten) := by
  have invariant := schedule.invariant
    (fun state => (state.log ++ scripts work state.workers).Perm
      (scripts work stages.flatten))
    (List.Perm.refl _) fun _ _ _ holds step => step.log_perm.trans holds
  rwa [scripts_closed schedule closed, List.append_nil] at invariant

/-- What a worker writes stands in the log in that order. -/
theorem written_sublist [DecidableEq κ] {stages : List (List (κ × τ))}
    {finish : Staging κ τ ε}
    {events : List (StageEvent κ ε)}
    (schedule : Schedule work (initial stages) events finish)
    (key : κ) : (written key events).Sublist finish.log := by
  refine schedule.history (fun events state => (written key events).Sublist state.log)
    (List.Sublist.refl _) ?_
  intro past before event after _ sublist step
  have entry : (written key (past ++ [event])) =
      written key past ++ writtenAt key event := by
    rw [written, List.flatMap_append, List.flatMap_singleton]
    rfl
  rw [entry]
  cases step with
  | @turn log entries front back other task next later writes =>
      refine sublist.append ?_
      rw [writtenAt]
      split
      · exact List.Sublist.refl _
      · exact List.nil_sublist _
  | start idle => rwa [writtenAt, List.append_nil]
  | close idle => rwa [writtenAt, List.append_nil]

/-- Where keys are distinct, a finished schedule has written every worker's
script, entry by entry. -/
theorem written_eq [DecidableEq κ] {stages : List (List (κ × τ))} {finish : Staging κ τ ε}
    {events : List (StageEvent κ ε)}
    (schedule : Schedule work (initial stages) events finish)
    (closed : finish.closed = true) (distinct : (stages.flatten.map Prod.fst).Nodup)
    {key : κ} {task : τ} (member : (key, task) ∈ stages.flatten) :
    written key events = work.script task := by
  have history := schedule.history
    (fun events state => state.keys.Nodup ∧
      work.script task = written key events ++ scriptOf work key state.workers)
    ⟨distinct, (scriptOf_of_mem distinct member).symm⟩ ?_
  · have empty : scriptOf work key finish.workers = [] := by
      have all := scripts_closed schedule closed
      rw [scripts, List.flatMap_eq_nil_iff] at all
      rw [scriptOf, scripts, List.flatMap_eq_nil_iff]
      exact fun worker inside => all worker (List.mem_of_mem_filter inside)
    rw [history.2, empty, List.append_nil]
  · rintro past before event after - ⟨apart, whole⟩ step
    refine ⟨apart.sublist step.keys_sublist, ?_⟩
    rw [whole, step.scriptOf_eq apart, written, written, List.flatMap_append,
      List.flatMap_singleton, List.append_assoc]

end Schedules

end Staging

end Library
end PqcScan
