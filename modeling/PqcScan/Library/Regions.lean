import Mathlib.Data.List.Infix
import Mathlib.Data.List.TakeDrop
import Mathlib.Data.List.TakeWhile

/-!
# Regions of a list

What lies in a list at a known place, and tables: regions of one width at places of one
stride.
-/

namespace PqcScan
namespace Library

variable {β : Type}

/-- The part lies in the data at a place. -/
def Lies (data : List β) (place : Nat) (part : List β) : Prop := part <+: data.drop place

instance [DecidableEq β] (data : List β) (place : Nat) (part : List β) :
    Decidable (Lies data place part) :=
  inferInstanceAs (Decidable (part <+: data.drop place))

namespace Lies

variable {data part front rest : List β} {place : Nat}

/-- The data read at the place. -/
theorem window (lies : Lies data place part) :
    (data.drop place).take part.length = part := by
  obtain ⟨rest, split⟩ := lies
  rw [← split, List.take_left]

theorem length_le (lies : Lies data place part) (some_ : part ≠ []) :
    place + part.length ≤ data.length := by
  have bound := List.IsPrefix.length_le lies
  have positive := List.length_pos_iff.mpr some_
  rw [List.length_drop] at bound
  omega

theorem left (lies : Lies data place (front ++ rest)) : Lies data place front :=
  (List.prefix_append front rest).trans lies

theorem right (lies : Lies data place (front ++ rest)) :
    Lies data (place + front.length) rest := by
  obtain ⟨after, split⟩ := lies
  refine ⟨after, ?_⟩
  rw [← List.drop_drop, ← split, List.append_assoc, List.drop_left]

/-- A part of a part. -/
theorem slice (lies : Lies data place part) (start width : Nat) :
    Lies data (place + start) ((part.drop start).take width) := by
  rcases Nat.le_total start part.length with within | beyond
  · have split : part.take start ++ part.drop start = part :=
      List.take_append_drop start part
    rw [← split] at lies
    have later := lies.right
    rw [List.length_take, Nat.min_eq_left within] at later
    exact (List.take_prefix width _).trans later
  · rw [List.drop_of_length_le beyond, List.take_nil]
    exact List.nil_prefix

/-- A shorter read of the place. -/
theorem take (lies : Lies data place part) {cap : Nat}
    (within : place + part.length ≤ cap) :
    Lies (data.take cap) place part := by
  rw [Lies, List.drop_take, List.prefix_take_iff]
  exact ⟨lies, by omega⟩

end Lies

/-- The entries of a table, up to the first that the data does not hold whole. -/
def entries (data : List β) (base stride width count : Nat) : List (List β) :=
  ((List.range count).map fun index =>
    (data.drop (base + index * stride)).take width).takeWhile
    fun chunk => decide (width ≤ chunk.length)

/-- A table is read as it was written. -/
theorem entries_eq {data : List β} {base stride width : Nat} {table : List (List β)}
    (sized : ∀ entry ∈ table, entry.length = width)
    (lies : ∀ index entry, table[index]? = some entry →
      Lies data (base + index * stride) entry) :
    entries data base stride width table.length = table := by
  have read : ((List.range table.length).map fun index =>
      (data.drop (base + index * stride)).take width) = table := by
    refine List.ext_getElem
      (by rw [List.length_map, List.length_range]) fun index left right => ?_
    have window := (lies index table[index] (List.getElem?_eq_getElem right)).window
    rw [sized _ (List.getElem_mem right)] at window
    rw [List.getElem_map, List.getElem_range, window]
  rw [entries, read, List.takeWhile_eq_self_iff]
  intro entry member
  exact decide_eq_true (sized entry member).ge

/-- The entries of a table come first where more are read. -/
theorem entries_append {data : List β} {base stride width : Nat} {table : List (List β)}
    (sized : ∀ entry ∈ table, entry.length = width)
    (lies : ∀ index entry, table[index]? = some entry →
      Lies data (base + index * stride) entry)
    {count : Nat} (enough : table.length ≤ count) :
    ∃ rest, entries data base stride width count = table ++ rest := by
  obtain ⟨more, rfl⟩ := Nat.exists_eq_add_of_le enough
  have first := entries_eq sized lies
  rw [entries, List.takeWhile_eq_self_iff.mpr] at first
  · rw [entries, List.range_add, List.map_append, first, List.takeWhile_append_of_pos]
    · exact ⟨_, rfl⟩
    · intro entry member
      exact decide_eq_true (sized entry member).ge
  · intro entry member
    rw [decide_eq_true_iff]
    obtain ⟨index, inside, rfl⟩ := List.mem_map.mp member
    have here := List.getElem?_eq_getElem (List.mem_range.mp inside)
    have window := (lies index _ here).window
    rw [sized _ (List.getElem_mem _)] at window
    rw [window, sized _ (List.getElem_mem _)]

/-- A cap on the number of entries cuts the table. -/
theorem entries_take {data : List β} {base stride width : Nat} {table : List (List β)}
    (sized : ∀ entry ∈ table, entry.length = width)
    (lies : ∀ index entry, table[index]? = some entry →
      Lies data (base + index * stride) entry)
    (cap : Nat) :
    entries data base stride width (min table.length cap) = table.take cap := by
  have cut := @entries_eq β data base stride width (table.take cap)
    (fun entry member => sized entry (List.mem_of_mem_take member))
    (fun index entry here => lies index entry (by
      rw [List.getElem?_take] at here
      split at here
      · exact here
      · cases here))
  rwa [List.length_take, Nat.min_comm] at cut

/-- A table without gaps. -/
theorem lies_flatten {data : List β} {base width : Nat} {table : List (List β)}
    (sized : ∀ entry ∈ table, entry.length = width) (lies : Lies data base table.flatten)
    (index : Nat) (entry : List β) (here : table[index]? = some entry) :
    Lies data (base + index * width) entry := by
  induction table generalizing base index with
  | nil => cases here
  | cons first table inductionHypothesis =>
      rw [List.flatten_cons] at lies
      cases index with
      | zero =>
          obtain rfl : first = entry := by simpa using here
          simpa using lies.left
      | succ index =>
          have later := lies.right
          rw [sized first List.mem_cons_self] at later
          have found := inductionHypothesis
            (fun entry member =>
              sized entry (List.mem_cons_of_mem first member)) later index here
          rwa [Nat.add_assoc, Nat.add_comm width, ← Nat.succ_mul] at found

end Library
end PqcScan
