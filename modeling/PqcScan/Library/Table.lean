import Mathlib.Data.List.Nodup
import Mathlib.Data.List.Pairwise
import Mathlib.Order.Lattice

/-!
# Relational tables

A table is a list of rows in primary-key order.  The invariants a database
enforces by itself are fields: primary keys ascend, and no two rows agree on
a unique column.  A row enters through `insert?`, which refuses a clash, and
gets the first key above every key in use, so the row inserted last always
has the greatest key.
-/

namespace PqcScan
namespace Library

/-- A record type with a primary key and unique columns.  `clash` says that
two records agree on some unique column. -/
class Row (ρ : Type) where
  id : ρ → Nat
  withId : Nat → ρ → ρ
  clash : ρ → ρ → Bool
  id_withId : ∀ key row, id (withId key row) = key
  clash_withId : ∀ other key row, clash other (withId key row) = clash other row
  clash_comm : ∀ left right, clash left right = clash right left

/-- A record type without unique columns. -/
class Unconstrained (ρ : Type) [Row ρ] : Prop where
  clash_eq_false : ∀ left right : ρ, Row.clash left right = false

/-- Rows in ascending primary-key order, no two of which clash. -/
structure Table (ρ : Type) [Row ρ] where
  rows : List ρ
  ascending : rows.Pairwise fun left right => Row.id left < Row.id right
  distinct : rows.Pairwise fun left right => Row.clash left right = false

namespace Table

variable {ρ : Type} [Row ρ]

@[ext] theorem ext {left right : Table ρ}
    (equal : left.rows = right.rows) : left = right := by
  cases left
  cases right
  cases equal
  rfl

instance : Membership ρ (Table ρ) := ⟨fun table row => row ∈ table.rows⟩

theorem mem_iff {table : Table ρ} {row : ρ} :
    row ∈ table ↔ row ∈ table.rows := Iff.rfl

/-- The table without rows. -/
def empty : Table ρ := ⟨[], List.Pairwise.nil, List.Pairwise.nil⟩

instance : Inhabited (Table ρ) := ⟨empty⟩

@[simp] theorem rows_empty : (empty : Table ρ).rows = [] := rfl

/-- The row with a given primary key. -/
def get? (table : Table ρ) (key : Nat) : Option ρ :=
  table.rows.find? fun row => Row.id row == key

/-- Two rows of one table with the same primary key are the same row. -/
theorem eq_of_id_eq {table : Table ρ} {left right : ρ}
    (leftMember : left ∈ table) (rightMember : right ∈ table)
    (same : Row.id left = Row.id right) : left = right := by
  have nodup : (table.rows.map Row.id).Nodup :=
    List.pairwise_map.mpr (table.ascending.imp fun below => below.ne)
  exact List.inj_on_of_nodup_map nodup leftMember rightMember same

theorem get?_eq_some_iff {table : Table ρ} {key : Nat} {row : ρ} :
    table.get? key = some row ↔ row ∈ table ∧ Row.id row = key := by
  constructor
  · intro found
    exact ⟨List.mem_of_find?_eq_some found,
      by simpa using List.find?_some found⟩
  · rintro ⟨member, same⟩
    cases found : table.get? key with
    | none =>
        have absent := List.find?_eq_none.mp found row member
        simp [same] at absent
    | some other =>
        have otherMember : other ∈ table := List.mem_of_find?_eq_some found
        have otherId : Row.id other = key := by
          simpa using List.find?_some found
        rw [eq_of_id_eq otherMember member (otherId.trans same.symm)]

theorem get?_eq_none_iff {table : Table ρ} {key : Nat} :
    table.get? key = none ↔ ∀ row ∈ table, Row.id row ≠ key := by
  simp [get?, List.find?_eq_none, mem_iff]

/-- Two rows of one table that agree on a unique column are the same row. -/
theorem eq_of_clash {table : Table ρ} {left right : ρ}
    (leftMember : left ∈ table) (rightMember : right ∈ table)
    (clash : Row.clash left right = true) : left = right := by
  by_contra different
  have symmetric : Std.Symm fun left right : ρ =>
      left ≠ right → Row.clash left right = false :=
    ⟨fun left right apart unequal =>
      (Row.clash_comm right left).trans (apart unequal.symm)⟩
  have apart := (table.distinct.imp
      (S := fun left right => left ≠ right → Row.clash left right = false)
      fun free _ => free).forall_of_forall
    (fun _ _ unequal => absurd rfl unequal) leftMember rightMember different
  rw [apart] at clash
  cases clash

/-! ## Primary keys -/

/-- The greatest primary key in use, or zero. -/
def lastId (table : Table ρ) : Nat :=
  (table.rows.map Row.id).foldr max 0

/-- The primary key of the next row. -/
def nextId (table : Table ρ) : Nat := table.lastId + 1

theorem le_foldr_max {keys : List Nat} {key : Nat} (member : key ∈ keys) :
    key ≤ keys.foldr max 0 := by
  induction keys with
  | nil => simp at member
  | cons first rest inductionHypothesis =>
      rw [List.foldr_cons]
      rcases List.mem_cons.mp member with equal | later
      · exact equal ▸ le_max_left _ _
      · exact (inductionHypothesis later).trans (le_max_right _ _)

/-- The greatest value of a nonempty list is the value of an element. -/
theorem exists_foldr_max {α : Type} {rows : List α} (value : α → Nat)
    (nonempty : rows ≠ []) :
    ∃ row ∈ rows, value row = (rows.map value).foldr max 0 ∧
      ∀ other ∈ rows, value other ≤ value row := by
  induction rows with
  | nil => exact absurd rfl nonempty
  | cons first rest inductionHypothesis =>
      by_cases single : rest = []
      · exact ⟨first, by simp [single], by simp [single], by simp [single]⟩
      · obtain ⟨row, member, greatest, least⟩ := inductionHypothesis single
        rw [List.map_cons, List.foldr_cons, ← greatest]
        rcases le_total (value row) (value first) with below | above
        · refine ⟨first, List.mem_cons_self, (max_eq_left below).symm, ?_⟩
          rintro other (_ | ⟨_, later⟩)
          · exact le_rfl
          · exact (least other later).trans below
        · refine ⟨row, List.mem_cons_of_mem _ member, (max_eq_right above).symm, ?_⟩
          rintro other (_ | ⟨_, later⟩)
          · exact above
          · exact least other later

theorem id_lt_nextId {table : Table ρ} {row : ρ} (member : row ∈ table) :
    Row.id row < table.nextId :=
  Nat.lt_succ_of_le (le_foldr_max (List.mem_map_of_mem member))

/-! ## Insertion -/

/-- Append a row under the next primary key. -/
def insert (table : Table ρ) (row : ρ)
    (fresh : ∀ other ∈ table.rows, Row.clash other row = false) : Table ρ where
  rows := table.rows ++ [Row.withId table.nextId row]
  ascending := by
    rw [List.pairwise_append]
    refine ⟨table.ascending, List.pairwise_singleton _ _, ?_⟩
    intro other member inserted insertedMember
    rw [List.mem_singleton.mp insertedMember, Row.id_withId]
    exact id_lt_nextId member
  distinct := by
    rw [List.pairwise_append]
    refine ⟨table.distinct, List.pairwise_singleton _ _, ?_⟩
    intro other member inserted insertedMember
    rw [List.mem_singleton.mp insertedMember, Row.clash_withId]
    exact fresh other member

/-- `INSERT`: refuse a row that clashes with a stored one. -/
def insert? (table : Table ρ) (row : ρ) : Option (Table ρ) :=
  if fresh : ∀ other ∈ table.rows, Row.clash other row = false then
    some (table.insert row fresh)
  else none

/-- `INSERT` into a table without unique columns. -/
def add [Unconstrained ρ] (table : Table ρ) (row : ρ) : Table ρ :=
  table.insert row fun other _ => Unconstrained.clash_eq_false other row

@[simp] theorem rows_insert (table : Table ρ) (row : ρ)
    (fresh : ∀ other ∈ table.rows, Row.clash other row = false) :
    (table.insert row fresh).rows =
      table.rows ++ [Row.withId table.nextId row] := rfl

@[simp] theorem rows_add [Unconstrained ρ] (table : Table ρ) (row : ρ) :
    (table.add row).rows = table.rows ++ [Row.withId table.nextId row] := rfl

theorem insert?_eq_some_iff {table after : Table ρ} {row : ρ} :
    table.insert? row = some after ↔
      (∀ other ∈ table.rows, Row.clash other row = false) ∧
        after.rows = table.rows ++ [Row.withId table.nextId row] := by
  unfold insert?
  split
  · next fresh =>
      rw [Option.some_inj]
      constructor
      · intro equal
        exact ⟨fresh, by rw [← equal, rows_insert]⟩
      · rintro ⟨_, rows⟩
        exact Table.ext rows.symm
  · next clashes => simp [clashes]

theorem insert?_eq_none_iff {table : Table ρ} {row : ρ} :
    table.insert? row = none ↔ ∃ other ∈ table, Row.clash other row = true := by
  unfold insert?
  split
  · next fresh =>
      simp only [reduceCtorEq, false_iff, not_exists, not_and]
      intro other member
      simp [fresh other member]
  · next clashes =>
      simp only [true_iff]
      push Not at clashes
      obtain ⟨other, member, clash⟩ := clashes
      exact ⟨other, member, by simpa using clash⟩

/-- After an insertion the next primary key is the one after it. -/
theorem nextId_of_insertion {before after : Table ρ} {row : ρ}
    (rows : after.rows = before.rows ++ [row]) (next : Row.id row = before.nextId) :
    after.nextId = Row.id row + 1 := by
  have here : row ∈ after.rows := by simp [rows]
  obtain ⟨top, member, greatest, least⟩ :=
    exists_foldr_max Row.id (List.ne_nil_of_mem here)
  have above := least row here
  rw [nextId, lastId, ← greatest]
  rw [rows, List.mem_append, List.mem_singleton] at member
  rcases member with earlier | rfl
  · have below := id_lt_nextId (Table.mem_iff.mpr earlier)
    omega
  · rfl

/-- Insert several rows, in their order. -/
def addAll [Unconstrained ρ] (table : Table ρ) (rows : List ρ) : Table ρ :=
  rows.foldl add table

/-- A stored row is the given one under its primary key. -/
def StoredAs (given stored : ρ) : Prop := stored = Row.withId (Row.id stored) given

/-- Appended rows have greater keys. -/
theorem id_lt_of_append {before after : Table ρ} {new : List ρ}
    (rows : after.rows = before.rows ++ new) {old added : ρ} (member : old ∈ before)
    (addedMember : added ∈ new) : Row.id old < Row.id added := by
  have ascending := after.ascending
  rw [rows, List.pairwise_append] at ascending
  exact ascending.2.2 old member added addedMember

/-- What does not read the primary key is the same before and after. -/
theorem map_eq_of_storedAs {β : Type} {given new : List ρ} {read : ρ → β}
    (ignores : ∀ key row, read (Row.withId key row) = read row)
    (stored : List.Forall₂ StoredAs given new) : new.map read = given.map read := by
  induction stored with
  | nil => rfl
  | @cons row copy given new first _ inductionHypothesis =>
      rw [List.map_cons, List.map_cons, inductionHypothesis]
      unfold StoredAs at first
      rw [first, ignores]

/-- What inserting several rows adds: each of them, under keys not in use. -/
structure AddedRows (before after : Table ρ) (given new : List ρ) : Prop where
  rows : after.rows = before.rows ++ new
  stored : List.Forall₂ StoredAs given new

theorem addAll_addedRows [Unconstrained ρ] (table : Table ρ) (given : List ρ) :
    ∃ new, AddedRows table (table.addAll given) given new := by
  induction given generalizing table with
  | nil => exact ⟨[], by simp [addAll], .nil⟩
  | cons row rest inductionHypothesis =>
      obtain ⟨new, added⟩ := inductionHypothesis (table.add row)
      refine ⟨Row.withId table.nextId row :: new, ?_, ?_⟩
      · have rows := added.rows
        rw [rows_add, List.append_assoc, List.singleton_append] at rows
        exact rows
      · refine .cons ?_ added.stored
        rw [StoredAs, Row.id_withId]

/-! ## Update and deletion -/

/-- Rows after `UPDATE … WHERE id = key`. -/
def modifyRows (key : Nat) (update : ρ → ρ) (rows : List ρ) : List ρ :=
  rows.map fun row => if Row.id row = key then update row else row

theorem ascending_modifyRows (table : Table ρ) (key : Nat) (update : ρ → ρ)
    (sameId : ∀ row, Row.id (update row) = Row.id row) :
    (modifyRows key update table.rows).Pairwise fun left right =>
      Row.id left < Row.id right := by
  have idEq : ∀ row : ρ,
      Row.id (if Row.id row = key then update row else row) = Row.id row := by
    intro row
    split
    · exact sameId row
    · rfl
  rw [modifyRows, List.pairwise_map]
  simpa only [idEq] using table.ascending

/-- `UPDATE … WHERE id = key`: refused when the new row clashes. -/
def modify? (table : Table ρ) (key : Nat) (update : ρ → ρ)
    (sameId : ∀ row, Row.id (update row) = Row.id row) : Option (Table ρ) :=
  if distinct : (modifyRows key update table.rows).Pairwise
      fun left right => Row.clash left right = false then
    some ⟨_, ascending_modifyRows table key update sameId, distinct⟩
  else none

theorem modify?_eq_some {table after : Table ρ} {key : Nat} {update : ρ → ρ}
    {sameId : ∀ row, Row.id (update row) = Row.id row}
    (modified : table.modify? key update sameId = some after) :
    after.rows = modifyRows key update table.rows := by
  unfold modify? at modified
  split at modified
  · cases modified
    rfl
  · cases modified

/-- An update that only frees unique columns cannot create a clash. -/
theorem distinct_modifyRows (table : Table ρ) (key : Nat) (update : ρ → ρ)
    (keepsApart : ∀ row other, Row.clash row other = false →
      Row.clash (update row) other = false) :
    (modifyRows key update table.rows).Pairwise fun left right =>
      Row.clash left right = false := by
  rw [modifyRows, List.pairwise_map]
  refine (table.ascending.and table.distinct).imp ?_
  rintro left right ⟨below, apart⟩
  by_cases leftKey : Row.id left = key
  · have rightKey : Row.id right ≠ key := by omega
    rw [if_pos leftKey, if_neg rightKey]
    exact keepsApart left right apart
  · rw [if_neg leftKey]
    by_cases rightKey : Row.id right = key
    · rw [if_pos rightKey, Row.clash_comm]
      exact keepsApart right left ((Row.clash_comm right left).trans apart)
    · rw [if_neg rightKey]
      exact apart

/-- `UPDATE … WHERE id = key` that touches no unique column, or frees one. -/
def modify (table : Table ρ) (key : Nat) (update : ρ → ρ)
    (sameId : ∀ row, Row.id (update row) = Row.id row)
    (keepsApart : ∀ row other, Row.clash row other = false →
      Row.clash (update row) other = false) : Table ρ where
  rows := modifyRows key update table.rows
  ascending := ascending_modifyRows table key update sameId
  distinct := distinct_modifyRows table key update keepsApart

@[simp] theorem rows_modify (table : Table ρ) (key : Nat) (update : ρ → ρ)
    (sameId : ∀ row, Row.id (update row) = Row.id row)
    (keepsApart : ∀ row other, Row.clash row other = false →
      Row.clash (update row) other = false) :
    (table.modify key update sameId keepsApart).rows =
      modifyRows key update table.rows := rfl

theorem mem_modifyRows {key : Nat} {update : ρ → ρ} {rows : List ρ} {row : ρ} :
    row ∈ modifyRows key update rows ↔
      (row ∈ rows ∧ Row.id row ≠ key) ∨
        ∃ old ∈ rows, Row.id old = key ∧ row = update old := by
  rw [modifyRows, List.mem_map]
  constructor
  · rintro ⟨old, member, equal⟩
    by_cases same : Row.id old = key
    · rw [if_pos same] at equal
      exact Or.inr ⟨old, member, same, equal.symm⟩
    · rw [if_neg same] at equal
      exact Or.inl (equal ▸ ⟨member, same⟩)
  · rintro (⟨member, other⟩ | ⟨old, member, same, equal⟩)
    · exact ⟨row, member, if_neg other⟩
    · exact ⟨old, member, (if_pos same).trans equal.symm⟩

/-- One row is written under its primary key, over `old` or as a new row, and
every other row stays. -/
structure Writes (before after : Table ρ) (old : Option ρ) (row : ρ) : Prop where
  mem_iff : ∀ other, other ∈ after ↔
    other = row ∨ (other ∈ before ∧ Row.id other ≠ Row.id row)
  replaced : before.get? (Row.id row) = old

theorem writes_of_insertion {before after : Table ρ} {row : ρ}
    (rows : after.rows = before.rows ++ [row])
    (next : Row.id row = before.nextId) : Writes before after none row := by
  have later : ∀ other ∈ before, Row.id other ≠ Row.id row :=
    fun other member => next ▸ (id_lt_nextId member).ne
  refine ⟨fun other => ?_, get?_eq_none_iff.mpr later⟩
  rw [Table.mem_iff, rows, List.mem_append, List.mem_singleton]
  constructor
  · rintro (member | equal)
    · exact Or.inr ⟨member, later other member⟩
    · exact Or.inl equal
  · rintro (equal | ⟨member, _⟩)
    · exact Or.inr equal
    · exact Or.inl member

theorem writes_of_modification {before after : Table ρ} {key : Nat}
    {update : ρ → ρ} {old : ρ}
    (rows : after.rows = modifyRows key update before.rows)
    (sameId : ∀ row, Row.id (update row) = Row.id row)
    (found : before.get? key = some old) :
    Writes before after (some old) (update old) := by
  obtain ⟨oldMember, oldKey⟩ := get?_eq_some_iff.mp found
  refine ⟨fun other => ?_, by rw [sameId, oldKey, found]⟩
  rw [Table.mem_iff, rows, mem_modifyRows, sameId, oldKey]
  constructor
  · rintro (kept | ⟨row, member, same, equal⟩)
    · exact Or.inr kept
    · rw [eq_of_id_eq oldMember member (oldKey.trans same.symm)]
      exact Or.inl equal
  · rintro (equal | kept)
    · exact Or.inr ⟨old, oldMember, oldKey, equal⟩
    · exact Or.inl kept

namespace Writes

variable {before after : Table ρ} {old : Option ρ} {row : ρ}

theorem written (writes : Writes before after old row) : row ∈ after :=
  (writes.mem_iff row).mpr (Or.inl rfl)

/-- A row under another key is neither added nor removed. -/
theorem mem_iff_of_ne (writes : Writes before after old row) {other : ρ}
    (different : Row.id other ≠ Row.id row) : other ∈ after ↔ other ∈ before := by
  rw [writes.mem_iff]
  constructor
  · rintro (rfl | ⟨member, _⟩)
    · exact absurd rfl different
    · exact member
  · exact fun member => Or.inr ⟨member, different⟩

/-- A row that is still there either is the written one or was there before. -/
theorem eq_or_mem (writes : Writes before after old row) {other : ρ}
    (member : other ∈ after) : other = row ∨ other ∈ before :=
  ((writes.mem_iff other).mp member).imp_right And.left

/-- A row that was there either is still there or was replaced. -/
theorem kept_or_replaced (writes : Writes before after old row) {other : ρ}
    (member : other ∈ before) :
    other ∈ after ∨ old = some other ∧ Row.id row = Row.id other := by
  by_cases same : Row.id other = Row.id row
  · have located : before.get? (Row.id row) = some other :=
      get?_eq_some_iff.mpr ⟨member, same⟩
    exact Or.inr ⟨writes.replaced.symm.trans located, same.symm⟩
  · exact Or.inl ((writes.mem_iff_of_ne same).mpr member)

/-- The lookup of the written key finds the written row. -/
theorem get?_written (writes : Writes before after old row) :
    after.get? (Row.id row) = some row :=
  get?_eq_some_iff.mpr ⟨writes.written, rfl⟩

end Writes

/-- `DELETE … WHERE NOT keep`. -/
def filter (table : Table ρ) (keep : ρ → Bool) : Table ρ where
  rows := table.rows.filter keep
  ascending := table.ascending.filter keep
  distinct := table.distinct.filter keep

@[simp] theorem rows_filter (table : Table ρ) (keep : ρ → Bool) :
    (table.filter keep).rows = table.rows.filter keep := rfl

theorem mem_filter {table : Table ρ} {keep : ρ → Bool} {row : ρ} :
    row ∈ table.filter keep ↔ row ∈ table ∧ keep row = true :=
  List.mem_filter

/-- A deletion that spares the greatest row keeps the next primary key. -/
theorem nextId_filter {table : Table ρ} {keep : ρ → Bool}
    (outranked : ∀ row ∈ table, keep row = false →
      ∃ newer ∈ table, Row.id row < Row.id newer) :
    (table.filter keep).nextId = table.nextId := by
  have rowsEq : (table.filter keep).rows = table.rows.filter keep := rfl
  rcases List.eq_nil_or_concat table.rows with empty | ⟨_, _, nonempty⟩
  · rw [nextId, nextId, lastId, lastId, rowsEq, empty]
    rfl
  · have some : table.rows ≠ [] := by simp [nonempty]
    obtain ⟨top, member, greatest, least⟩ := exists_foldr_max Row.id some
    have kept : keep top = true := by
      by_contra dropped
      obtain ⟨newer, newerMember, above⟩ := outranked top member (by simpa using dropped)
      exact absurd (least newer newerMember) (Nat.not_le.mpr above)
    have stays : top ∈ table.rows.filter keep := List.mem_filter.mpr ⟨member, kept⟩
    obtain ⟨first, firstMember, firstGreatest, firstLeast⟩ :=
      exists_foldr_max Row.id (List.ne_nil_of_mem stays)
    rw [nextId, nextId, lastId, lastId, rowsEq, ← greatest, ← firstGreatest]
    have upper := least first (List.mem_of_mem_filter firstMember)
    have lower := firstLeast top stays
    omega

end Table

end Library
end PqcScan
