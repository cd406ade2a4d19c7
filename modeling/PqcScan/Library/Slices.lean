import Mathlib.Data.List.Infix

/-!
# Slices of a list

Parts of a list that lie in it one after the other, without overlap.
-/

namespace PqcScan
namespace Library

variable {β : Type}

/-- A part of known place and length. -/
theorem window_append {front part : List β} {start width : Nat}
    (place : front.length = start)
    (sized : part.length = width) (rest : List β) :
    ((front ++ (part ++ rest)).drop start).take width = part := by
  rw [List.drop_left' place, List.take_left' sized]

/-- The parts lie in the data in their order and apart from each other. -/
inductive Sliced : List β → List (List β) → Prop
  | nil (data : List β) : Sliced data []
  | cons (gap part : List β) {rest : List β} {parts : List (List β)}
      (later : Sliced rest parts) : Sliced (gap ++ (part ++ rest)) (part :: parts)

namespace Sliced

/-- What lies in the end of the data lies in the data. -/
theorem append (front : List β) {data : List β} {parts : List (List β)}
    (sliced : Sliced data parts) : Sliced (front ++ data) parts := by
  cases sliced with
  | nil => exact nil _
  | cons gap part later =>
      rw [← List.append_assoc]
      exact cons (front ++ gap) part later

theorem of_drop {data : List β} (count : Nat) {parts : List (List β)}
    (sliced : Sliced (data.drop count) parts) : Sliced data parts := by
  have whole := sliced.append (data.take count)
  rwa [List.take_append_drop] at whole

/-- A part before the data of the others. -/
theorem cons_of_le {data part : List β} {start stop : Nat} {parts : List (List β)}
    (ordered : start ≤ stop) (here : part <+: (data.take stop).drop start)
    (later : Sliced (data.drop stop) parts) : Sliced data (part :: parts) := by
  obtain ⟨rest, split⟩ := here
  have whole : data = data.take start ++ (part ++ (rest ++ data.drop stop)) := by
    have tail : part ++ (rest ++ data.drop stop) = data.drop start := by
      rw [← List.append_assoc, split, List.drop_take]
      have sum : stop = start + (stop - start) := by omega
      rw [sum, ← List.drop_drop, Nat.add_sub_cancel_left, List.take_append_drop]
    rw [tail, List.take_append_drop]
  rw [whole]
  exact cons _ _ (later.append rest)

end Sliced

end Library
end PqcScan
