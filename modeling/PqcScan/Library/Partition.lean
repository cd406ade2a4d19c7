import PqcScan.Library.Grouping

/-!
# Rows in groups

What `groupRows` builds: one group for each key that occurs, with the rows of the key in
their order.  The first of the greatest rows stands for a group.
-/

namespace PqcScan
namespace Library

variable {α κ : Type} [DecidableEq κ]

theorem foldl_append_singleton (front rows : List α) :
    rows.foldl (fun group row => group ++ [row]) front = front ++ rows := by
  induction rows generalizing front with
  | nil => exact (List.append_nil front).symm
  | cons row rows inductionHypothesis =>
      rw [List.foldl_cons, inductionHypothesis, List.append_assoc, List.singleton_append]

/-- The keys are those that occur. -/
theorem mem_keys_groupRows {key : α → κ} {rows : List α} {group : κ} :
    group ∈ (groupRows key rows).keys ↔ ∃ row ∈ rows, key row = group := by
  have accumulated : ∀ table : Dict κ (List α),
      group ∈ (accumulate key (fun group row => group ++ [row]) [] rows table).keys ↔
        group ∈ table.keys ∨ ∃ row ∈ rows, key row = group := by
    intro table
    rw [accumulate]
    induction rows generalizing table with
    | nil => simp
    | cons row rows inductionHypothesis =>
        rw [List.foldl_cons, inductionHypothesis, Dict.mem_keys_set,
          List.exists_mem_cons_iff, eq_comm (a := key row)]
        constructor
        · rintro ((rfl | here) | later)
          · exact Or.inr (Or.inl rfl)
          · exact Or.inl here
          · exact Or.inr (Or.inr later)
        · rintro (here | rfl | later)
          · exact Or.inl (Or.inr here)
          · exact Or.inl (Or.inl rfl)
          · exact Or.inr later
  rw [groupRows, accumulated]
  simp

/-- A group holds the rows of its key. -/
theorem group_eq_filter {key : α → κ} {rows : List α} {entry : κ × List α}
    (member : entry ∈ (groupRows key rows).entries) :
    entry.2 = rows.filter fun row => key row = entry.1 := by
  have read := get?_accumulate key (fun group row =>
    group ++ [row]) [] rows Dict.empty entry.1
  have held : (groupRows key rows).get? entry.1 = some entry.2 := by
    have listed := Dict.get?_ofList_of_mem (groupRows key rows).nodup member
    rwa [Dict.ofList_entries] at listed
  rw [foldl_append_singleton, ← groupRows, held] at read
  exact read

theorem group_ne_nil {key : α → κ} {rows : List α} {entry : κ × List α}
    (member : entry ∈ (groupRows key rows).entries) : entry.2 ≠ [] := by
  obtain ⟨row, inside, same⟩ := mem_keys_groupRows.mp (List.mem_map_of_mem member)
  rw [group_eq_filter member]
  apply List.ne_nil_of_mem
  exact List.mem_filter.mpr ⟨inside, decide_eq_true same⟩

/-! ## The first of the greatest -/

/-- `max` of a list that begins with the item: the first of the greatest ones. -/
def maxFrom (value : α → Nat) : α → List α → α
  | best, [] => best
  | best, row :: rows => maxFrom value (if value best < value row then row else best) rows

/-- `max(rows, key=value)`; nothing for an empty list. -/
def maxFirst (value : α → Nat) : List α → Option α
  | [] => none
  | row :: rows => some (maxFrom value row rows)

theorem maxFrom_spec (value : α → Nat) (best : α) (rows : List α) :
    maxFrom value best rows ∈ best :: rows ∧
      ∀ row ∈ best :: rows, value row ≤ value (maxFrom value best rows) := by
  induction rows generalizing best with
  | nil => simp [maxFrom]
  | cons row rows inductionHypothesis =>
      obtain ⟨member, greatest⟩ :=
        inductionHypothesis (if value best < value row then row else best)
      rw [List.forall_mem_cons] at greatest
      rw [maxFrom]
      split at member
      · next less =>
        rw [if_pos less] at greatest ⊢
        refine ⟨List.mem_cons_of_mem _ member, ?_⟩
        rw [List.forall_mem_cons, List.forall_mem_cons]
        exact ⟨Nat.le_trans (Nat.le_of_lt less) greatest.1, greatest.1, greatest.2⟩
      · next notLess =>
        rw [if_neg notLess] at greatest ⊢
        constructor
        · rcases List.mem_cons.mp member with same | later
          · rw [same]
            exact List.mem_cons_self
          · exact List.mem_cons_of_mem _ (List.mem_cons_of_mem _ later)
        · rw [List.forall_mem_cons, List.forall_mem_cons]
          exact ⟨greatest.1, Nat.le_trans (Nat.le_of_not_lt notLess) greatest.1,
            greatest.2⟩

/-- The row that stands for a group is in it, and none is greater. -/
theorem maxFirst_spec {value : α → Nat} {rows : List α} {best : α}
    (found : maxFirst value rows = some best) :
    best ∈ rows ∧ ∀ row ∈ rows, value row ≤ value best := by
  cases rows with
  | nil => cases found
  | cons row rows =>
      cases found
      exact maxFrom_spec value row rows

theorem maxFirst_isSome {value : α → Nat} {rows : List α} (filled : rows ≠ []) :
    ∃ best, maxFirst value rows = some best := by
  obtain ⟨row, rest, rfl⟩ := List.exists_cons_of_ne_nil filled
  exact ⟨_, rfl⟩

end Library
end PqcScan
