import Mathlib.Data.List.Induction

/-!
# Reporting once

A loop that reports an item unless one with the same key came before it, and stops at a
limit.  As long as the limit is not reached, exactly the items that come first among those
of their key are reported.
-/

namespace PqcScan
namespace Library

variable {α β κ : Type} [DecidableEq κ]

/-- The keys seen, the items reported, and whether the limit ended the loop. -/
structure Reporting (α κ : Type) where
  seen : List κ
  reports : List α
  capped : Bool

namespace Reporting

/-- Nothing seen, nothing reported. -/
def start : Reporting α κ := ⟨[], [], false⟩

/-- One round of the loop; nothing happens in it once the loop has ended. -/
def visit (key : α → κ) (limit : Nat) (state : Reporting α κ) (item : α) :
    Reporting α κ :=
  if state.capped then state
  else if key item ∈ state.seen then state
  else
    let seen := state.seen ++ [key item]
    if limit ≤ state.reports.length then ⟨seen, state.reports, true⟩
    else ⟨seen, state.reports ++ [item], false⟩

/-- The loop over all items. -/
def run (key : α → κ) (limit : Nat) (items : List α) : Reporting α κ :=
  items.foldl (visit key limit) start

/-- The item comes first among those of its key. -/
def IsFirst (key : α → κ) (items : List α) (item : α) : Prop :=
  ∃ front back, items = front ++ item :: back ∧ ∀ earlier ∈ front, key earlier ≠ key item

section Runs

variable {key : α → κ} {limit : Nat}

theorem run_append (items : List α) (item : α) :
    run key limit (items ++ [item]) = visit key limit (run key limit items) item := by
  rw [run, List.foldl_append]
  rfl

/-- A nested loop is the loop over what the inner lists hold. -/
theorem foldl_nested (rows : β → List α) (outer : List β) :
    outer.foldl (fun state entry => (rows entry).foldl (visit key limit) state) start =
      run key limit (outer.flatMap rows) := by
  rw [run, List.foldl_flatMap]

omit [DecidableEq κ] in
/-- What comes first in two lists comes first in one of them, and if in the second, its
key is not in the first. -/
theorem isFirst_append {first second : List α} {item : α} :
    IsFirst key (first ++ second) item ↔
      IsFirst key first item ∨
        (IsFirst key second item ∧ ∀ earlier ∈ first, key earlier ≠ key item) := by
  constructor
  · rintro ⟨front, back, split, fresh⟩
    rcases List.append_eq_append_iff.mp split with ⟨later, rfl, tail⟩ | ⟨later, rfl, tail⟩
    · refine Or.inr ⟨⟨later, back, tail, ?_⟩, ?_⟩
      · exact fun earlier member => fresh earlier (List.mem_append_right _ member)
      · exact fun earlier member => fresh earlier (List.mem_append_left _ member)
    · cases later with
      | nil =>
          rw [List.nil_append] at tail
          refine Or.inr ⟨⟨[], back, tail.symm, nofun⟩, ?_⟩
          exact fun earlier member => fresh earlier (by simpa using member)
      | cons head rest =>
          obtain ⟨rfl, -⟩ := List.cons.inj tail
          exact Or.inl ⟨front, rest, rfl, fresh⟩
  · rintro (⟨front, back, rfl, fresh⟩ | ⟨⟨front, back, rfl, fresh⟩, new⟩)
    · exact ⟨front, back ++ second, by simp, fresh⟩
    · refine ⟨first ++ front, back, by simp, fun earlier member => ?_⟩
      exact (List.mem_append.mp member).elim (new earlier) (fresh earlier)

omit [DecidableEq κ] in
/-- What comes first in a nested loop comes first in its own inner list, and no outer
entry before shows its key. -/
theorem isFirst_flatMap {rows : β → List α} {outer : List β} {item : α} :
    IsFirst key (outer.flatMap rows) item ↔
      ∃ front entry back, outer = front ++ entry :: back ∧ IsFirst key (rows entry) item ∧
        ∀ other ∈ front, ∀ earlier ∈ rows other, key earlier ≠ key item := by
  induction outer with
  | nil =>
      constructor
      · rintro ⟨front, back, split, -⟩
        exact absurd split.symm (by simp)
      · rintro ⟨front, entry, back, split, -⟩
        exact absurd split.symm (by simp)
  | cons head rest inductionHypothesis =>
      rw [List.flatMap_cons, isFirst_append, inductionHypothesis]
      constructor
      · rintro (here | ⟨⟨front, entry, back, rfl, first, fresh⟩, new⟩)
        · exact ⟨[], head, rest, rfl, here, nofun⟩
        · refine ⟨head :: front, entry, back, rfl, first, ?_⟩
          intro other member
          rcases List.mem_cons.mp member with rfl | inside
          · exact new
          · exact fresh other inside
      · rintro ⟨front, entry, back, split, first, fresh⟩
        cases front with
        | nil =>
            obtain ⟨rfl, -⟩ := List.cons.inj split
            exact Or.inl first
        | cons other front =>
            obtain ⟨rfl, rfl⟩ := List.cons.inj split
            refine Or.inr ⟨⟨front, entry, back, rfl, first, ?_⟩, ?_⟩
            · exact fun other member => fresh other (List.mem_cons_of_mem _ member)
            · exact fresh head List.mem_cons_self

omit [DecidableEq κ] in
theorem isFirst_singleton {last item : α} : IsFirst key [last] item ↔ item = last := by
  constructor
  · rintro ⟨front, back, split, -⟩
    have member : item ∈ [last] := by
      rw [split]
      exact List.mem_append_right _ List.mem_cons_self
    exact List.mem_singleton.mp member
  · rintro rfl
    exact ⟨[], [], rfl, nofun⟩

/-- A round that does not end the loop sees the item's key, and reports the
item if the key is new. -/
theorem visit_cases {state : Reporting α κ} {item : α}
    (open_ : (visit key limit state item).capped = false) :
    state.capped = false ∧
      ((key item ∈ state.seen ∧ visit key limit state item = state) ∨
        (key item ∉ state.seen ∧ visit key limit state item =
          ⟨state.seen ++ [key item], state.reports ++ [item], false⟩)) := by
  unfold visit at open_ ⊢
  by_cases ended : state.capped = true
  · rw [if_pos ended, ended] at open_
    cases open_
  · rw [if_neg ended] at open_ ⊢
    refine ⟨Bool.not_eq_true _ ▸ ended, ?_⟩
    by_cases member : key item ∈ state.seen
    · exact Or.inl ⟨member, if_pos member⟩
    · rw [if_neg member] at open_ ⊢
      by_cases full : limit ≤ state.reports.length
      · rw [if_pos full] at open_
        cases open_
      · exact Or.inr ⟨member, if_neg full⟩

/-- Below the limit the loop has seen the keys of all items, and has reported
the first item of each. -/
theorem run_spec {items : List α} (open_ : (run key limit items).capped = false) :
    (∀ k, k ∈ (run key limit items).seen ↔ ∃ item ∈ items, key item = k) ∧
      ∀ item, item ∈ (run key limit items).reports ↔ IsFirst key items item := by
  induction items using List.reverseRecOn with
  | nil =>
      refine ⟨fun k => by simp [run, start], fun item => ?_⟩
      refine iff_of_false List.not_mem_nil ?_
      rintro ⟨front, back, split, -⟩
      cases front <;> cases split
  | append_singleton items last inductionHypothesis =>
      rw [run_append] at open_
      obtain ⟨before, step⟩ := visit_cases open_
      obtain ⟨seen, reports⟩ := inductionHypothesis before
      rw [run_append]
      rcases step with ⟨member, same⟩ | ⟨fresh, same⟩
      · rw [same]
        obtain ⟨first, firstMember, firstKey⟩ := (seen _).mp member
        constructor
        · intro k
          rw [seen]
          constructor
          · rintro ⟨item, itemMember, rfl⟩
            exact ⟨item, List.mem_append_left _ itemMember, rfl⟩
          · rintro ⟨item, itemMember, rfl⟩
            rcases List.mem_append.mp itemMember with old | new
            · exact ⟨item, old, rfl⟩
            · rw [List.mem_singleton.mp new]
              exact ⟨first, firstMember, firstKey⟩
        · intro item
          rw [reports, isFirst_append, isFirst_singleton]
          refine ⟨Or.inl, fun either => either.resolve_right ?_⟩
          rintro ⟨rfl, new⟩
          exact new first firstMember firstKey
      · rw [same]
        constructor
        · intro k
          rw [List.mem_append, seen, List.mem_singleton]
          constructor
          · rintro (⟨item, itemMember, rfl⟩ | rfl)
            · exact ⟨item, List.mem_append_left _ itemMember, rfl⟩
            · exact ⟨last, List.mem_append_right _ List.mem_cons_self, rfl⟩
          · rintro ⟨item, itemMember, rfl⟩
            rcases List.mem_append.mp itemMember with old | new
            · exact Or.inl ⟨item, old, rfl⟩
            · exact Or.inr (congrArg key (List.mem_singleton.mp new))
        · intro item
          rw [List.mem_append, reports, isFirst_append, isFirst_singleton,
            List.mem_singleton]
          refine or_congr_right ⟨?_, And.left⟩
          rintro rfl
          exact ⟨rfl, fun earlier member equal =>
            fresh ((seen _).mpr ⟨earlier, member, equal⟩)⟩

/-- The loop does not reach a limit that is not below the number of items. -/
theorem capped_of_length_le {items : List α} (few : items.length ≤ limit) :
    (run key limit items).capped = false ∧
    (run key limit items).reports.length ≤ items.length := by
  induction items using List.reverseRecOn with
  | nil => exact ⟨rfl, Nat.zero_le _⟩
  | append_singleton items last inductionHypothesis =>
      rw [List.length_append, List.length_singleton] at few ⊢
      obtain ⟨open_, short⟩ := inductionHypothesis (by omega)
      rw [run_append, visit, if_neg (by rw [open_]; decide)]
      split
      · exact ⟨open_, by omega⟩
      · simp only
        rw [if_neg (by omega), List.length_append, List.length_singleton]
        exact ⟨rfl, by omega⟩

omit [DecidableEq κ] in
theorem IsFirst.mem {items : List α} {item : α} (first : IsFirst key items item) :
    item ∈ items := by
  obtain ⟨front, back, rfl, -⟩ := first
  exact List.mem_append_right _ List.mem_cons_self

/-- Of every key that occurs, some item comes first. -/
theorem exists_isFirst {items : List α} {k : κ} (occurs : ∃ item ∈ items, key item = k) :
    ∃ first, IsFirst key items first ∧ key first = k := by
  induction items with
  | nil => exact absurd occurs (by simp)
  | cons head rest inductionHypothesis =>
      by_cases here : key head = k
      · exact ⟨head, ⟨[], rest, rfl, nofun⟩, here⟩
      · obtain ⟨item, member, same⟩ := occurs
        have later : item ∈ rest := by
          rcases List.mem_cons.mp member with rfl | later
          · exact absurd same here
          · exact later
        obtain ⟨first, ⟨front, back, rfl, fresh⟩, firstKey⟩ :=
          inductionHypothesis ⟨item, later, same⟩
        refine ⟨first, ⟨head :: front, back, rfl, ?_⟩, firstKey⟩
        intro earlier member
        rcases List.mem_cons.mp member with rfl | inside
        · exact fun equal => here (equal.trans firstKey)
        · exact fresh earlier inside

end Runs

end Reporting

end Library
end PqcScan
