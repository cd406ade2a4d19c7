import PqcScan.Library.Transition
import Mathlib.Data.List.Basic

/-!
# Exports

`export_scan` and the HTML reports: an export takes one of the render slots, makes a
temporary file, for the fleet a temporary scan, and gives everything back at its end.
Exports run side by side; any of their calls may raise.
-/

namespace PqcScan
namespace Daemon
namespace Exports

open Library

/-- `_MAX_CONCURRENT_RENDERS`. -/
def maxConcurrentRenders : Nat := 2

/-- Where an export is. -/
inductive Phase
  /-- It has its slot. -/
  | opening
  /-- Inside of `try`, with `rollup_id`. -/
  | working (rollupId : Option Nat)
  /-- In front of `repo.delete_scan`. -/
  | closing (rollupId : Option Nat)
  /-- In front of `tmp_path.unlink`. -/
  | unlinking
  | done
  /-- It has raised and kept its slot. -/
  | lost
  deriving DecidableEq

/-- What an export does next. -/
inductive Move
  /-- `tempfile.NamedTemporaryFile`. -/
  | openFile
  | openRaises
  /-- `materialize_fleet_rollup`. -/
  | materialize (rollupId : Nat)
  /-- The file is read, or something has raised. -/
  | leaveTry
  /-- `delete_scan`, if there is a rollup. -/
  | delete
  | deleteRaises (rollupId : Nat)
  /-- `unlink`, and `render_slots.release`. -/
  | unlink
  | unlinkRaises
  deriving DecidableEq

/-- What a move makes of a phase; nothing where the export is not there yet. -/
def Phase.move : Phase → Move → Option Phase
  | .opening, .openFile => some (.working none)
  | .opening, .openRaises => some .lost
  | .working none, .materialize rollupId => some (.working (some rollupId))
  | .working rollupId, .leaveTry => some (.closing rollupId)
  | .closing _, .delete => some .unlinking
  | .closing (some rollupId), .deleteRaises other =>
      if rollupId = other then some .unlinking else none
  | .unlinking, .unlink => some .done
  | .unlinking, .unlinkRaises => some .lost
  | _, _ => none

/-- The export has a slot and will come to its end. -/
def Phase.underWay : Phase → Bool
  | .done => false
  | .lost => false
  | _ => true

/-- The temporary scan of an export. -/
def Phase.rollup : Phase → Option Nat
  | .working rollupId => rollupId
  | .closing rollupId => rollupId
  | _ => none

/-- The slots that are free, the exports by number, and the
temporary scans in the database. -/
structure Site where
  free : Nat
  exports : List Phase
  rollups : List Nat

/-- All slots free, no export. -/
def Site.initial : Site := ⟨maxConcurrentRenders, [], []⟩

/-- The number of exports under way. -/
def Site.underWay (site : Site) : Nat := site.exports.countP Phase.underWay

/-- What may happen to the exports. -/
inductive Action
  /-- A request for an export: `acquire_render_slot`. -/
  | acquire
  /-- A request for an HTML report, which is built without a pause. -/
  | report
  | turn (number : Nat) (move : Move)
  /-- `delete_stale_rollups`. -/
  | sweep (stale : Nat → Bool)

/-- The temporary scans after a move. -/
def rollupsAfter (rollups : List Nat) (phase : Phase) : Move → Option (List Nat)
  | .materialize rollupId =>
      if rollupId ∈ rollups then none else some (rollups ++ [rollupId])
  | .delete => some (rollups.filter fun rollupId => phase.rollup != some rollupId)
  | _ => some rollups

/-- The slots that a move gives back. -/
def Move.frees : Move → Nat
  | .unlink => 1
  | _ => 0

/-- One action. -/
def step (site : Site) : Action → Option Site
  | .acquire =>
      if site.free = 0 then none
      else some { site with free := site.free - 1, exports := site.exports ++ [.opening] }
  | .report => if site.free = 0 then none else some site
  | .turn number move => do
      let phase ← site.exports[number]?
      let next ← phase.move move
      let rollups ← rollupsAfter site.rollups phase move
      some ⟨site.free + move.frees, site.exports.set number next, rollups⟩
  | .sweep stale => some { site with rollups := site.rollups.filter fun id => !stale id }

/-- The action leads from a site to the next. -/
def Steps (site : Site) (action : Action) (next : Site) : Prop :=
  step site action = some next

/-! ## What a move does -/

/-- The calls outside of every `try` that end without a release. -/
def Action.loses : Action → Bool
  | .turn _ .openRaises => true
  | .turn _ .unlinkRaises => true
  | _ => false

/-- The three parts of a turn. -/
theorem step_turn {site next : Site} {number : Nat} {move : Move}
    (taken : step site (.turn number move) = some next) :
    ∃ before after rollups, site.exports[number]? = some before ∧
      before.move move = some after ∧
      rollupsAfter site.rollups before move = some rollups ∧
        next = ⟨site.free + move.frees, site.exports.set number after, rollups⟩ := by
  obtain ⟨before, found, taken⟩ := Option.bind_eq_some_iff.mp taken
  obtain ⟨after, moved, taken⟩ := Option.bind_eq_some_iff.mp taken
  obtain ⟨rollups, kept, taken⟩ := Option.bind_eq_some_iff.mp taken
  exact ⟨before, after, rollups, found, moved, kept, (Option.some_inj.mp taken).symm⟩

/-- An export that is not under way does nothing more. -/
theorem underWay_of_move {before after : Phase} {move : Move}
    (moved : before.move move = some after) : before.underWay = true := by
  cases before with
  | done => cases moved
  | lost => cases moved
  | opening => rfl
  | working rollupId => rfl
  | closing rollupId => rfl
  | unlinking => rfl

/-- A move keeps the slot, gives it back or loses it. -/
theorem slot_of_move {before after : Phase} {move : Move} (number : Nat)
    (moved : before.move move = some after) :
    (if after.underWay then 1 else 0) + move.frees +
      (if (Action.turn number move).loses then 1 else 0) = 1 := by
  cases before with
  | opening => cases move <;> cases moved <;> rfl
  | working rollupId =>
      cases rollupId with
      | none => cases move <;> cases moved <;> rfl
      | some rollupId =>
          cases move <;> cases moved
          rfl
  | closing rollupId =>
      cases rollupId with
      | none =>
          cases move <;> cases moved
          rfl
      | some rollupId =>
          cases move with
          | deleteRaises other =>
              rw [Phase.move] at moved
              split at moved
              · cases moved
                rfl
              · cases moved
          | delete =>
              cases moved
              rfl
          | openFile => cases moved
          | openRaises => cases moved
          | materialize rollupId => cases moved
          | leaveTry => cases moved
          | unlink => cases moved
          | unlinkRaises => cases moved
  | unlinking => cases move <;> cases moved <;> rfl
  | done => cases moved
  | lost => cases moved

/-- The temporary scan stays with its export until it is deleted
or its deletion raises. -/
theorem rollup_of_move {before after : Phase} {move : Move} {rollupId : Nat}
    (moved : before.move move = some after) (has : before.rollup = some rollupId) :
    after.rollup = some rollupId ∨ move = .delete ∨ move = .deleteRaises rollupId := by
  cases before with
  | working held =>
      cases held with
      | none => cases has
      | some held =>
          cases move <;> cases moved
          exact Or.inl has
  | closing held =>
      cases has
      cases move with
      | delete => exact Or.inr (Or.inl rfl)
      | deleteRaises other =>
          rw [Phase.move] at moved
          split at moved
          · next same => exact Or.inr (Or.inr (same ▸ rfl))
          · cases moved
      | openFile => cases moved
      | openRaises => cases moved
      | materialize rollupId => cases moved
      | leaveTry => cases moved
      | unlink => cases moved
      | unlinkRaises => cases moved
  | opening => cases has
  | unlinking => cases has
  | done => cases has
  | lost => cases has

theorem rollup_of_materialize {before after : Phase} {rollupId : Nat}
    (moved : before.move (.materialize rollupId) = some after) :
    after.rollup = some rollupId := by
  cases before with
  | working held =>
      cases held with
      | none =>
          cases moved
          rfl
      | some held => cases moved
  | opening => cases moved
  | closing held => cases held <;> cases moved
  | unlinking => cases moved
  | done => cases moved
  | lost => cases moved

/-! ## Runs -/

/-- Every slot is free, taken by an export under way, or lost. -/
def Accounted (actions : List Action) (site : Site) : Prop :=
  site.free + site.underWay + actions.countP Action.loses = maxConcurrentRenders

theorem accounted_step {past : List Action} {before after : Site} {action : Action}
    (accounted : Accounted past before) (taken : Steps before action after) :
    Accounted (past ++ [action]) after := by
  unfold Accounted Site.underWay at accounted ⊢
  rw [List.countP_append, List.countP_singleton, ← accounted]
  cases action with
  | acquire =>
      rw [Steps, step] at taken
      split at taken
      · cases taken
      · next some_ =>
          cases taken
          have more : (before.exports ++ [Phase.opening]).countP Phase.underWay =
              before.exports.countP Phase.underWay + 1 := List.countP_append
          have kept : Action.acquire.loses = false := rfl
          rw [more, kept, if_neg Bool.false_ne_true]
          dsimp only
          omega
  | report =>
      rw [Steps, step] at taken
      split at taken
      · cases taken
      · cases taken
        rfl
  | turn number move =>
      obtain ⟨phase, next, rollups, found, moved, kept, rfl⟩ := step_turn taken
      obtain ⟨inside, rfl⟩ := List.getElem?_eq_some_iff.mp found
      have slot := slot_of_move number moved
      have some_ : 0 < before.exports.countP Phase.underWay :=
        List.countP_pos_iff.mpr ⟨_, List.getElem_mem inside, underWay_of_move moved⟩
      rw [List.countP_set inside, if_pos (underWay_of_move moved)]
      dsimp only
      omega
  | sweep stale =>
      cases taken
      rfl

/-- A temporary scan belongs to an export under way, or its deletion has raised. -/
def Owned (actions : List Action) (site : Site) : Prop :=
  ∀ rollupId ∈ site.rollups, (∃ phase ∈ site.exports, phase.rollup = some rollupId) ∨
    ∃ number, Action.turn number (.deleteRaises rollupId) ∈ actions

theorem Owned.later {past : List Action} {site : Site} (owned : Owned past site)
    (action : Action) : Owned (past ++ [action]) site := by
  intro rollupId member
  rcases owned rollupId member with held | ⟨number, raised⟩
  · exact Or.inl held
  · exact Or.inr ⟨number, List.mem_append_left _ raised⟩

theorem mem_rollupsAfter {rollups after : List Nat} {phase : Phase} {move : Move}
    {rollupId : Nat}
    (kept : rollupsAfter rollups phase move = some after) (member : rollupId ∈ after) :
    move = .materialize rollupId ∨
      rollupId ∈ rollups ∧ (move = .delete → phase.rollup ≠ some rollupId) := by
  unfold rollupsAfter at kept
  split at kept
  · next added =>
      split at kept
      · cases kept
      · cases kept
        rcases List.mem_append.mp member with old | new
        · exact Or.inr ⟨old, fun other => by cases other⟩
        · exact Or.inl (List.mem_singleton.mp new ▸ rfl)
  · cases kept
    obtain ⟨old, apart⟩ := List.mem_filter.mp member
    exact Or.inr ⟨old, fun _ => by simpa using apart⟩
  · next _ other =>
      cases kept
      exact Or.inr ⟨member, fun deleted => absurd deleted other⟩

theorem owned_step {past : List Action} {before after : Site} {action : Action}
    (owned : Owned past before) (taken : Steps before action after) :
    Owned (past ++ [action]) after := by
  cases action with
  | acquire =>
      rw [Steps, step] at taken
      split at taken
      · cases taken
      · cases taken
        intro rollupId member
        rcases owned.later .acquire rollupId member with ⟨phase, listed, held⟩ | raised
        · exact Or.inl ⟨phase, List.mem_append_left _ listed, held⟩
        · exact Or.inr raised
  | report =>
      rw [Steps, step] at taken
      split at taken
      · cases taken
      · cases taken
        exact owned.later _
  | turn number move =>
      obtain ⟨phase, next, rollups, found, moved, kept, rfl⟩ := step_turn taken
      obtain ⟨inside, here⟩ := List.getElem?_eq_some_iff.mp found
      have placed : next ∈ before.exports.set number next :=
        List.mem_set inside next
      intro rollupId member
      rcases mem_rollupsAfter kept member with rfl | ⟨old, undeleted⟩
      · exact Or.inl ⟨next, placed, rollup_of_materialize moved⟩
      · rcases owned rollupId old with ⟨holder, listed, held⟩ | ⟨other, raised⟩
        · by_cases same : phase.rollup = some rollupId
          · rcases rollup_of_move moved same with still | deleted | rfl
            · exact Or.inl ⟨next, placed, still⟩
            · exact absurd same (undeleted deleted)
            · exact Or.inr ⟨number, List.mem_append_right _ (List.mem_singleton_self _)⟩
          · obtain ⟨place, within, rfl⟩ := List.mem_iff_getElem.mp listed
            have apart : number ≠ place := by
              rintro rfl
              exact same (here ▸ held)
            refine Or.inl ⟨before.exports[place], ?_, held⟩
            rw [← List.getElem_set_ne apart (by simpa using within)]
            exact List.getElem_mem _
        · exact Or.inr ⟨other, List.mem_append_left _ raised⟩
  | sweep stale =>
      cases taken
      intro rollupId member
      exact owned.later _ rollupId (List.mem_filter.mp member).1

/-- Whatever runs side by side: an export gets a slot exactly while fewer than two exports
are under way or have kept their slots for good, because their temporary file could not be
made or removed; and a temporary scan is only there while its export is under way, or when
its deletion has raised. -/
theorem acquire_iff {actions : List Action} {site : Site}
    (run : Run Steps Site.initial actions site) :
    ((∃ next, step site .acquire = some next) ↔
        site.underWay + actions.countP Action.loses < maxConcurrentRenders) ∧
      ∀ rollupId ∈ site.rollups, (∃ phase ∈ site.exports, phase.rollup = some rollupId) ∨
        ∃ number, Action.turn number (.deleteRaises rollupId) ∈ actions := by
  have accounted : Accounted actions site :=
    run.history Accounted rfl fun _ _ _ _ _ holds taken => accounted_step holds taken
  have owned : Owned actions site :=
    run.history Owned (by intro _ member; cases member)
      fun _ _ _ _ _ holds taken => owned_step holds taken
  refine ⟨?_, owned⟩
  rw [Accounted] at accounted
  rw [step]
  split
  · next none_ =>
      constructor
      · rintro ⟨next, taken⟩
        cases taken
      · intro few
        omega
  · next some_ => exact ⟨fun _ => by omega, fun _ => ⟨_, rfl⟩⟩

/-- Two exports whose temporary files cannot be made. -/
def fullDisk : List Action :=
  [.acquire, .turn 0 .openRaises, .acquire, .turn 1 .openRaises]

theorem acquire_iff_fullDisk :
    ∃ site, Run Steps Site.initial fullDisk site ∧ site.underWay = 0 ∧
      ¬ ∃ next, step site .acquire = some next := by
  have first : Run Steps Site.initial [.acquire] ⟨1, [.opening], []⟩ := Run.single rfl
  have second : Run Steps Site.initial ([.acquire] ++ [.turn 0 .openRaises])
      ⟨1, [.lost], []⟩ := first.snoc rfl
  have third : Run Steps Site.initial ([.acquire] ++ [.turn 0 .openRaises] ++ [.acquire])
      ⟨0, [.lost, .opening], []⟩ := second.snoc rfl
  have fourth : Run Steps Site.initial fullDisk ⟨0, [.lost, .lost], []⟩ := third.snoc rfl
  refine ⟨_, fourth, rfl, ?_⟩
  rw [(acquire_iff fourth).1]
  decide

end Exports
end Daemon
end PqcScan
