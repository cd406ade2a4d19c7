import Mathlib.Data.List.Sort

/-!
# Tilings

One piece may be kept at each position.  A walk over the positions in order goes on
while each piece starts where the one before it ended; it reaches the end of a
stretch exactly when pieces tile the stretch and none starts inside another.
-/

namespace PqcScan
namespace Library

/-- Follow pieces over their positions in order, from the position `next`. -/
def walk (piece : Nat → Option Nat) : List Nat → Nat → Nat
  | [], next => next
  | start :: rest, next =>
      if start ≠ next then next else walk piece rest (next + (piece start).getD 0)

/-- Pieces that are not empty follow each other up to the last one, and no other piece
starts inside one of them but the last. -/
inductive Tiles (piece : Nat → Option Nat) : Nat → Nat → Prop
  | last {first size : Nat} (kept : piece first = some size) :
  Tiles piece first (first + size)
  | step {first size stop : Nat} (kept : piece first = some size) (positive : 0 < size)
      (clear : ∀ other, first < other → other < first + size → piece other = none)
      (rest : Tiles piece (first + size) stop) : Tiles piece first stop

variable {piece : Nat → Option Nat}

theorem Tiles.starts {first stop : Nat} (tiles : Tiles piece first stop) :
    (piece first).isSome = true := by
  cases tiles with
  | last kept => rw [kept, Option.isSome_some]
  | step kept => rw [kept, Option.isSome_some]

/-- The walk from `next` over the positions from `low` on. -/
theorem walk_eq_iff_of_low {positions : List Nat} {low next stop : Nat}
    (sorted : positions.Pairwise (· < ·))
    (complete : ∀ position, position ∈ positions ↔ low ≤ position ∧
      (piece position).isSome = true)
    (ends : ∀ size, piece stop = some size → size = 0) :
    walk piece positions next = stop ↔
      next = stop ∨ (low ≤ next ∧
        (∀ other, low ≤ other → other < next → piece other = none) ∧
        Tiles piece next stop) := by
  induction positions generalizing low next with
  | nil =>
      refine ⟨Or.inl, ?_⟩
      rintro (same | ⟨from_, -, tiles⟩)
      · exact same
      · exact absurd ((complete next).mpr ⟨from_, tiles.starts⟩) List.not_mem_nil
  | cons position rest inductionHypothesis =>
      obtain ⟨least, sorted⟩ := List.pairwise_cons.mp sorted
      obtain ⟨from_, kept⟩ := (complete position).mp List.mem_cons_self
      by_cases same : position = next
      · subst same
        obtain ⟨size, kept⟩ := Option.isSome_iff_exists.mp kept
        have later : ∀ other, other ∈ rest ↔ position + 1 ≤ other ∧
            (piece other).isSome = true := by
          intro other
          constructor
          · intro member
            exact ⟨least other member,
              ((complete other).mp (List.mem_cons_of_mem _ member)).2⟩
          · rintro ⟨behind, some_⟩
            have member := (complete other).mpr ⟨by omega, some_⟩
            exact (List.mem_cons.mp member).resolve_left (by omega)
        have clear : ∀ other, low ≤ other → other < position → piece other = none := by
          intro other low_ before
          by_contra some_
          have member := (complete other).mpr ⟨low_, Option.isSome_iff_ne_none.mpr some_⟩
          rcases List.mem_cons.mp member with equal | behind
          · omega
          · have := least other behind
            omega
        rw [walk, if_neg (not_not.mpr rfl), kept, Option.getD_some,
          inductionHypothesis sorted later]
        constructor
        · rintro (reached | ⟨positive, inside, tiles⟩)
          · rw [← reached]
            exact Or.inr ⟨from_, clear, Tiles.last kept⟩
          · exact Or.inr ⟨from_, clear, Tiles.step kept (by omega) inside tiles⟩
        · rintro (rfl | ⟨-, -, tiles⟩)
          · rw [ends size kept]
            exact Or.inl rfl
          · cases tiles with
            | last other =>
                rw [kept, Option.some.injEq] at other
                exact Or.inl (by rw [other])
            | step other positive inside tiles =>
                rw [kept, Option.some.injEq] at other
                subst other
                exact Or.inr ⟨by omega, inside, tiles⟩
      · rw [walk, if_pos same]
        refine ⟨Or.inl, ?_⟩
        rintro (reached | ⟨low_, clear, tiles⟩)
        · exact reached
        · have member := (complete next).mpr ⟨low_, tiles.starts⟩
          rcases List.mem_cons.mp member with equal | behind
          · exact absurd equal.symm same
          · have none_ := clear position from_ (least next behind)
            rw [none_] at kept
            cases kept

/-- The walk from the start reaches a position that no piece
covers exactly over a tiling. -/
theorem walk_eq_iff {positions : List Nat} {stop : Nat}
    (sorted : positions.Pairwise (· < ·))
    (complete : ∀ position, position ∈ positions ↔ (piece position).isSome = true)
    (ends : ∀ size, piece stop = some size → size = 0) :
    walk piece positions 0 = stop ↔ stop = 0 ∨ Tiles piece 0 stop := by
  have all : ∀ position, position ∈ positions ↔ 0 ≤ position ∧
      (piece position).isSome = true := by
    intro position
    rw [complete]
    exact ⟨fun some_ => ⟨Nat.zero_le _, some_⟩, fun both => both.2⟩
  rw [walk_eq_iff_of_low sorted all ends]
  constructor
  · rintro (reached | ⟨-, -, tiles⟩)
    · exact Or.inl reached.symm
    · exact Or.inr tiles
  · rintro (zero | tiles)
    · exact Or.inl zero.symm
    · exact Or.inr ⟨le_refl 0, fun other _ before =>
        absurd before (Nat.not_lt_zero other), tiles⟩

end Library
end PqcScan
