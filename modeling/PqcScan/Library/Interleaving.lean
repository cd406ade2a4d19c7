import PqcScan.Library.Transition

/-!
# Threads over a shared state

Several threads take turns on one shared state, one transaction at a time.  A
schedule is a run of moves; facts about it come from the general rules for runs
and from the way one move changes the threads.
-/

namespace PqcScan
namespace Library

/-- A shared state and the threads that work on it. -/
structure Pool (σ τ : Type) where
  shared : σ
  threads : List τ

/-- One transaction of one thread. -/
structure Move (τ : Type) where
  index : Nat
  before : τ
  after : τ

/-- The move is the next transaction of its thread, and nothing else happens. -/
structure Advances {σ τ : Type} (advance : σ → τ → σ × τ) (pool : Pool σ τ)
    (move : Move τ) (next : Pool σ τ) : Prop where
  thread : pool.threads[move.index]? = some move.before
  transaction : advance pool.shared move.before = (next.shared, move.after)
  threads : next.threads = pool.threads.set move.index move.after

/-- A schedule of transactions. -/
abbrev Interleaving {σ τ : Type} (advance : σ → τ → σ × τ) :=
  Run (Advances advance)

section Moves

variable {σ τ : Type} {advance : σ → τ → σ × τ} {pool next : Pool σ τ}
  {move : Move τ}

theorem Advances.mem_before (advances : Advances advance pool move next) :
    move.before ∈ pool.threads :=
  List.mem_of_getElem? advances.thread

/-- After a move every thread is the moved one or was there before. -/
theorem Advances.eq_or_mem (advances : Advances advance pool move next)
    {thread : τ} (member : thread ∈ next.threads) :
    thread = move.after ∨ thread ∈ pool.threads := by
  rw [advances.threads] at member
  exact (List.mem_or_eq_of_mem_set member).symm

/-- The thread at a place after a move. -/
theorem Advances.getElem?_after (advances : Advances advance pool move next)
    {index : Nat} {thread : τ} (found : next.threads[index]? = some thread) :
    (index = move.index ∧ thread = move.after) ∨
      (index ≠ move.index ∧ pool.threads[index]? = some thread) := by
  rw [advances.threads, List.getElem?_set] at found
  by_cases same : move.index = index
  · rw [if_pos same] at found
    split at found
    · exact Or.inl ⟨same.symm, (Option.some_inj.mp found).symm⟩
    · cases found
  · rw [if_neg same] at found
    exact Or.inr ⟨fun equal => same equal.symm, found⟩

/-- The threads after a move, when there are two. -/
theorem Advances.pair (advances : Advances advance pool move next) {left right : τ}
    (two : pool.threads = [left, right]) :
    (move.before = left ∧ next.threads = [move.after, right]) ∨
      (move.before = right ∧ next.threads = [left, move.after]) := by
  have found := advances.thread
  rw [two] at found
  rw [advances.threads, two]
  rcases place : move.index with _ | _ | index
  · rw [place] at found
    exact Or.inl ⟨(Option.some_inj.mp found).symm, rfl⟩
  · rw [place] at found
    exact Or.inr ⟨(Option.some_inj.mp found).symm, rfl⟩
  · rw [place] at found
    simp at found

/-- How a change of one thread changes the number of threads at a point. -/
theorem count_set_add [DecidableEq τ] {threads : List τ} {index : Nat} {before : τ}
    (found : threads[index]? = some before) (after point : τ) :
    (threads.set index after).count point + (if before = point then 1 else 0) =
      threads.count point + (if after = point then 1 else 0) := by
  obtain ⟨inRange, rfl⟩ := List.getElem?_eq_some_iff.mp found
  have here : (if threads[index] = point then 1 else 0) ≤ threads.count point := by
    split
    · next same => exact List.count_pos_iff.mpr (same ▸ List.getElem_mem inRange)
    · exact Nat.zero_le _
  rw [List.count_set inRange]
  simp only [beq_iff_eq]
  omega

/-- The move determines the pool it leads to. -/
theorem Advances.functional {other : Pool σ τ}
    (advances : Advances advance pool move next)
    (advances' : Advances advance pool move other) : next = other := by
  have sameShared := congrArg Prod.fst
    (advances.transaction.symm.trans advances'.transaction)
  have sameThreads := advances.threads.trans advances'.threads.symm
  cases next
  cases other
  simp_all

/-- Let the given threads move in turn; an index without a thread is skipped. -/
def runSchedule (advance : σ → τ → σ × τ) :
    Pool σ τ → List Nat → Pool σ τ × List (Move τ)
  | pool, [] => (pool, [])
  | pool, index :: rest =>
      match pool.threads[index]? with
      | none => runSchedule advance pool rest
      | some thread =>
          let (shared, after) := advance pool.shared thread
          let (finish, moves) := runSchedule advance
            ⟨shared, pool.threads.set index after⟩ rest
          (finish, ⟨index, thread, after⟩ :: moves)

/-- Letting threads move in turn is a schedule. -/
theorem interleaving_runSchedule (advance : σ → τ → σ × τ) (pool : Pool σ τ)
    (indices : List Nat) :
    Interleaving advance pool (runSchedule advance pool indices).2
      (runSchedule advance pool indices).1 := by
  induction indices generalizing pool with
  | nil => exact .nil
  | cons index rest inductionHypothesis =>
      unfold runSchedule
      split
      · exact inductionHypothesis pool
      · next thread found =>
          exact Run.cons ⟨found, rfl, rfl⟩ (inductionHypothesis _)

/-- A thread that has its turn makes one move. -/
theorem exists_turn (advance : σ → τ → σ × τ) (pool : Pool σ τ) (index : Nat)
    (present : pool.threads[index]?.isSome = true) :
    ∃ move, Advances advance pool move (runSchedule advance pool [index]).1 ∧
      (runSchedule advance pool [index]).2 = [move] := by
  obtain ⟨thread, found⟩ := Option.isSome_iff_exists.mp present
  refine ⟨⟨index, thread, (advance pool.shared thread).2⟩, ?_⟩
  simp only [runSchedule, found, and_true]
  exact ⟨found, rfl, rfl⟩

end Moves

end Library
end PqcScan
