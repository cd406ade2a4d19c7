import Mathlib.Data.List.Basic

/-!
# Ascents

A walk from a node to what stands above it, up to a node with nothing above it or with a
name that the walk has seen.
-/

namespace PqcScan
namespace Library

variable {α κ : Type} [DecidableEq κ]

section Walks

variable (above : α → Option α) (name : α → κ)

/-- The node above, if its name is new. -/
def ascend (seen : List κ) (node : α) : Option α :=
  (above node).filter fun up => name up ∉ seen

/-- The nodes of a whole walk behind its first. -/
inductive Ascent : List κ → α → List α → Prop
  | stop {seen : List κ} {node : α} (top : ascend above name seen node = none) :
      Ascent seen node []
  | up {seen : List κ} {node next : α} {rest : List α}
      (step : ascend above name seen node = some next)
      (later : Ascent (name next :: seen) next rest) : Ascent seen node (next :: rest)

/-- The walk with a bound on its steps. -/
def ascentWithin : Nat → List κ → α → List α
  | 0, _, _ => []
  | bound + 1, seen, node =>
      match ascend above name seen node with
      | none => []
      | some next => next :: ascentWithin bound (name next :: seen) next

variable {above name}

theorem Ascent.unique {seen : List κ} {node : α} {rest other : List α}
    (walk : Ascent above name seen node rest)
    (again : Ascent above name seen node other) :
    rest = other := by
  induction walk generalizing other with
  | stop top =>
      cases again with
      | stop => rfl
      | up step => rw [top] at step; cases step
  | up step _ inductionHypothesis =>
      cases again with
      | stop top => rw [top] at step; cases step
      | up step' later =>
          rw [step, Option.some.injEq] at step'
          subst step'
          rw [inductionHypothesis later]

theorem ascend_eq_some {seen : List κ} {node next : α} :
    ascend above name seen node = some next ↔ above node = some next ∧
    name next ∉ seen := by
  rw [ascend, Option.filter_eq_some_iff, decide_eq_true_eq]

/-- A walk ends before it has more steps than names are left. -/
theorem ascent_within {names : List κ} (named : ∀ node next, above node = some next →
    name next ∈ names) {bound : Nat} {seen : List κ} {node : α}
    (enough : (names.filter (· ∉ seen)).length ≤ bound) :
    Ascent above name seen node (ascentWithin above name bound seen node) := by
  induction bound generalizing seen node with
  | zero =>
      apply Ascent.stop
      cases step : ascend above name seen node with
      | none => rfl
      | some next =>
          obtain ⟨up, fresh⟩ := ascend_eq_some.mp step
          have left : name next ∈ names.filter (· ∉ seen) :=
            List.mem_filter.mpr ⟨named node next up, decide_eq_true fresh⟩
          rw [List.eq_nil_of_length_eq_zero (Nat.le_zero.mp enough)] at left
          cases left
  | succ bound inductionHypothesis =>
      rw [ascentWithin]
      cases step : ascend above name seen node with
      | none => exact .stop step
      | some next =>
          refine .up step (inductionHypothesis ?_)
          obtain ⟨up, fresh⟩ := ascend_eq_some.mp step
          have split : names.filter (· ∉ name next :: seen) =
              (names.filter (· ∉ seen)).filter (· ≠ name next) := by
            rw [List.filter_filter]
            apply List.filter_congr
            intro other _
            simp
          have fewer : (names.filter (· ∉ name next :: seen)).length <
              (names.filter (· ∉ seen)).length := by
            rw [split]
            apply List.length_filter_lt_length_iff_exists.mpr
            refine ⟨name next,
              List.mem_filter.mpr ⟨named node next up, decide_eq_true fresh⟩, ?_⟩
            simp
          exact Nat.le_of_lt_succ (Nat.lt_of_lt_of_le fewer enough)

/-- Every node behind the first stands above one before it. -/
theorem Ascent.above_of_mem {seen : List κ} {node : α} {rest : List α}
    (walk : Ascent above name seen node rest) {up : α} (member : up ∈ rest) :
    ∃ below, above below = some up := by
  induction walk with
  | stop => cases member
  | up step _ inductionHypothesis =>
      rcases List.mem_cons.mp member with rfl | later
      · exact ⟨_, (ascend_eq_some.mp step).1⟩
      · exact inductionHypothesis later

end Walks

/-! ## Walks among several candidates -/

/-- A node above is one of the candidates, and there is one where there are candidates. -/
structure Chooses (candidates : α → List α) (above : α → Option α) : Prop where
  mem : ∀ {node up : α}, above node = some up → up ∈ candidates node
  complete : ∀ {node : α}, above node = none → candidates node = []

section Candidates

variable (candidates : α → List α) (name : α → κ)

/-- No choice is left to a walk: each node up to the last has one candidate above it, and
the last has none or only such as are seen. -/
inductive Settled : List κ → α → Prop
  | stop {seen : List κ} {node : α} (top : ∀ up ∈ candidates node, name up ∈ seen) :
      Settled seen node
  | up {seen : List κ} {node next : α} (only : ∀ up ∈ candidates node, up = next)
      (some_ : next ∈ candidates node) (fresh : name next ∉ seen)
      (later : Settled (name next :: seen) next) : Settled seen node

/-- A node is met on a way without choices. -/
inductive Meets : List κ → α → α → Prop
  | here {seen : List κ} {node : α} : Meets seen node node
  | up {seen : List κ} {node next last : α} (only : ∀ up ∈ candidates node, up = next)
      (some_ : next ∈ candidates node) (fresh : name next ∉ seen)
      (later : Meets (name next :: seen) next last) : Meets seen node last

variable {candidates name} {above above' : α → Option α}

theorem Chooses.ascend_of_only (chooses : Chooses candidates above) {seen : List κ}
    {node next : α} (only : ∀ up ∈ candidates node, up = next)
    (some_ : next ∈ candidates node)
    (fresh : name next ∉ seen) : ascend above name seen node = some next := by
  rw [ascend_eq_some]
  refine ⟨?_, fresh⟩
  cases up : above node with
  | none =>
      rw [chooses.complete up] at some_
      cases some_
  | some other => rw [only other (chooses.mem up)]

theorem Chooses.ascend_of_seen (chooses : Chooses candidates above)
    {seen : List κ} {node : α}
    (top : ∀ up ∈ candidates node, name up ∈ seen) :
    ascend above name seen node = none := by
  cases step : ascend above name seen node with
  | none => rfl
  | some next =>
      obtain ⟨up, fresh⟩ := ascend_eq_some.mp step
      exact absurd (top next (chooses.mem up)) fresh

/-- A settled walk is the same for every way to choose. -/
theorem Settled.ascent {seen : List κ} {node : α}
    (settled : Settled candidates name seen node)
    (chooses : Chooses candidates above) (chooses' : Chooses candidates above')
    {rest : List α}
    (walk : Ascent above name seen node rest) : Ascent above' name seen node rest := by
  induction settled generalizing rest with
  | stop top =>
      have walked := walk.unique (.stop (chooses.ascend_of_seen top))
      rw [walked]
      exact .stop (chooses'.ascend_of_seen top)
  | up only some_ fresh _ inductionHypothesis =>
      have step := chooses.ascend_of_only only some_ fresh
      cases walk with
      | stop top =>
          rw [step] at top
          cases top
      | up step' later =>
          rw [step, Option.some.injEq] at step'
          subst step'
          exact .up (chooses'.ascend_of_only only some_ fresh) (inductionHypothesis later)

/-- A node that is met is on every walk. -/
theorem Meets.mem {seen : List κ} {node last : α}
    (meets : Meets candidates name seen node last)
    (chooses : Chooses candidates above) {rest : List α}
    (walk : Ascent above name seen node rest) : last ∈ node :: rest := by
  induction meets generalizing rest with
  | here => exact List.mem_cons_self
  | up only some_ fresh _ inductionHypothesis =>
      have step := chooses.ascend_of_only only some_ fresh
      cases walk with
      | stop top =>
          rw [step] at top
          cases top
      | up step' later =>
          rw [step, Option.some.injEq] at step'
          subst step'
          exact List.mem_cons_of_mem _ (inductionHypothesis later)

/-- What is on a settled walk is met. -/
theorem Settled.meets {seen : List κ} {node : α}
    (settled : Settled candidates name seen node)
    (chooses : Chooses candidates above) {rest : List α}
    (walk : Ascent above name seen node rest) {last : α} (member : last ∈ node :: rest) :
    Meets candidates name seen node last := by
  induction settled generalizing rest with
  | stop top =>
      have walked := walk.unique (.stop (chooses.ascend_of_seen top))
      rw [walked, List.mem_singleton] at member
      rw [member]
      exact .here
  | up only some_ fresh _ inductionHypothesis =>
      have step := chooses.ascend_of_only only some_ fresh
      cases walk with
      | stop top =>
          rw [step] at top
          cases top
      | up step' later =>
          rw [step, Option.some.injEq] at step'
          subst step'
          rcases List.mem_cons.mp member with rfl | behind
          · exact .here
          · exact .up only some_ fresh (inductionHypothesis later behind)

/-- A walk that is the same for enough ways to choose is settled:
some choose each candidate. -/
theorem settled_of_same {family : (α → Option α) → Prop}
    (chooses : ∀ {above}, family above → Chooses candidates above)
    (rich : ∀ node, ∀ up ∈ candidates node, ∃ above, family above ∧ above node = some up)
    {seen : List κ} {node : α} {rest : List α} (base : family above)
    (walk : Ascent above name seen node rest)
    (same : ∀ other, family other → Ascent other name seen node rest) :
    Settled candidates name seen node := by
  induction walk with
  | @stop seen node _ =>
      apply Settled.stop
      intro up member
      obtain ⟨other, listed, chosen⟩ := rich node up member
      by_contra fresh
      have step : ascend other name seen node = some up :=
        ascend_eq_some.mpr ⟨chosen, fresh⟩
      cases same other listed with
      | stop top =>
          rw [step] at top
          cases top
  | @up seen node next rest step _ inductionHypothesis =>
      have stepped : ∀ other, family other → ascend other name seen node = some next ∧
          Ascent other name (name next :: seen) next rest := by
        intro other listed
        cases same other listed with
        | up step' later => exact ⟨step', later⟩
      have only : ∀ up ∈ candidates node, up = next := by
        intro up member
        obtain ⟨other, listed, chosen⟩ := rich node up member
        have above_ := (ascend_eq_some.mp (stepped other listed).1).1
        rw [chosen, Option.some.injEq] at above_
        exact above_
      obtain ⟨up, fresh⟩ := ascend_eq_some.mp step
      exact .up only ((chooses base).mem up) fresh
        (inductionHypothesis fun other listed => (stepped other listed).2)

end Candidates

end Library
end PqcScan
