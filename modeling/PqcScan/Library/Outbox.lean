import Mathlib.Data.List.Perm.Basic
import Mathlib.Data.List.Nodup

/-!
# An outbox

Items wait under names in a queue until their receiver confirms them; an item
the receiver will never take is put aside, or refused to whoever produced it.
No item is lost: once held it stays held.
-/

namespace PqcScan
namespace Library

/-- A named item. -/
structure Entry (κ δ : Type) where
  name : κ
  data : δ
  deriving DecidableEq

/-- What waits, what was put aside, and what the receiver and
the producer were told. -/
structure Outbox (κ δ : Type) where
  queue : List (Entry κ δ)
  dead : List (Entry κ δ)
  confirmed : List δ
  refused : List δ

namespace Outbox

variable {κ δ : Type}

/-- Nothing held, nothing delivered. -/
def empty : Outbox κ δ := ⟨[], [], [], []⟩

/-- The item is not lost. -/
def Holds (box : Outbox κ δ) (data : δ) : Prop :=
  data ∈ box.confirmed ∨ (∃ entry ∈ box.queue, entry.data = data) ∨
    (∃ entry ∈ box.dead, entry.data = data) ∨ data ∈ box.refused

/-- Nothing is forgotten, and what leaves the queue is
confirmed or put aside. -/
structure Conserves (before after : Outbox κ δ) : Prop where
  confirmed : ∀ data ∈ before.confirmed, data ∈ after.confirmed
  refused : ∀ data ∈ before.refused, data ∈ after.refused
  dead : ∀ entry ∈ before.dead, entry ∈ after.dead
  queue : ∀ entry ∈ before.queue, entry ∈ after.queue ∨
    entry.data ∈ before.confirmed ∨ entry ∈ after.dead

theorem Conserves.holds {before after : Outbox κ δ} {data : δ}
    (conserves : Conserves before after) (held : before.Holds data) :
    after.Holds data := by
  rcases held with confirmed | ⟨entry, member, rfl⟩ | ⟨entry, member, rfl⟩ | refused
  · exact Or.inl (conserves.confirmed data confirmed)
  · rcases conserves.queue entry member with still | confirmed | dead
    · exact Or.inr (Or.inl ⟨entry, still, rfl⟩)
    · exact Or.inl (conserves.confirmed _ confirmed)
    · exact Or.inr (Or.inr (Or.inl ⟨entry, dead, rfl⟩))
  · exact Or.inr (Or.inr (Or.inl ⟨entry, conserves.dead entry member, rfl⟩))
  · exact Or.inr (Or.inr (Or.inr (conserves.refused data refused)))

theorem Conserves.refl (box : Outbox κ δ) : Conserves box box :=
  ⟨fun _ member => member, fun _ member => member, fun _ member => member,
    fun _ member => Or.inl member⟩

/-! ## Operations -/

/-- The receiver confirms an item. -/
def confirm (box : Outbox κ δ) (data : δ) : Outbox κ δ :=
  { box with confirmed := box.confirmed ++ [data] }

/-- An item is refused to its producer. -/
def refuse (box : Outbox κ δ) (data : δ) : Outbox κ δ :=
  { box with refused := box.refused ++ [data] }

/-- An item waits under a name. -/
def enqueue (box : Outbox κ δ) (entry : Entry κ δ) : Outbox κ δ :=
  { box with queue := box.queue ++ [entry] }

section Names

variable [DecidableEq κ]

/-- What waits under the name is removed. -/
def remove (box : Outbox κ δ) (name : κ) : Outbox κ δ :=
  { box with queue := box.queue.filter (·.name != name) }

/-- What waits under the name is put aside; it replaces what
is there under that name. -/
def bury (box : Outbox κ δ) (name : κ) : Outbox κ δ :=
  { box with
    queue := box.queue.filter (·.name != name)
    dead := box.dead.filter (·.name != name) ++
      box.queue.filter (·.name == name) }

end Names

/-- The names in use. -/
def names (box : Outbox κ δ) : List κ :=
  box.queue.map Entry.name ++ box.dead.map Entry.name

section Laws

variable {box : Outbox κ δ}

theorem conserves_confirm (data : δ) : Conserves box (box.confirm data) :=
  ⟨fun _ member => List.mem_append_left _ member, fun _ member => member,
    fun _ member => member, fun _ member => Or.inl member⟩

theorem conserves_refuse (data : δ) : Conserves box (box.refuse data) :=
  ⟨fun _ member => member, fun _ member => List.mem_append_left _ member,
    fun _ member => member, fun _ member => Or.inl member⟩

theorem conserves_enqueue (entry : Entry κ δ) :
    Conserves box (box.enqueue entry) :=
  ⟨fun _ member => member, fun _ member => member, fun _ member => member,
    fun _ member => Or.inl (List.mem_append_left _ member)⟩

/-- Two waiting entries of one name are the same. -/
theorem eq_of_name (distinct : box.names.Nodup) {left right : Entry κ δ}
    (leftMember : left ∈ box.queue) (rightMember : right ∈ box.queue)
    (same : left.name = right.name) : left = right :=
  List.inj_on_of_nodup_map (List.nodup_append.mp distinct).1 leftMember
    rightMember same

theorem nodup_names_enqueue {entry : Entry κ δ} (distinct : box.names.Nodup)
    (fresh : entry.name ∉ box.names) : (box.enqueue entry).names.Nodup := by
  have moved : (box.enqueue entry).names.Perm (entry.name :: box.names) := by
    simp only [names, enqueue, List.map_append, List.map_singleton,
      List.append_assoc, List.singleton_append]
    exact List.perm_middle
  exact moved.nodup_iff.mpr (List.nodup_cons.mpr ⟨fresh, distinct⟩)

theorem mem_names_enqueue {entry : Entry κ δ} {other : κ}
    (member : other ∈ (box.enqueue entry).names) :
    other = entry.name ∨ other ∈ box.names := by
  simp only [names, enqueue, List.map_append, List.map_singleton, List.mem_append,
    List.mem_singleton] at member ⊢
  tauto

variable [DecidableEq κ]

/-- A confirmed item may leave the queue. -/
theorem conserves_remove {entry : Entry κ δ} (distinct : box.names.Nodup)
    (member : entry ∈ box.queue) (confirmed : entry.data ∈ box.confirmed) :
    Conserves box (box.remove entry.name) := by
  refine ⟨fun _ member => member, fun _ member => member, fun _ member => member,
    fun other otherMember => ?_⟩
  by_cases same : other.name = entry.name
  · obtain rfl := eq_of_name distinct otherMember member same
    exact Or.inr (Or.inl confirmed)
  · exact Or.inl (List.mem_filter.mpr ⟨otherMember, by simpa using same⟩)

/-- A name that waits is not in use among the dead. -/
theorem conserves_bury {name : κ}
    (unused : ∀ entry ∈ box.dead, entry.name ≠ name) :
    Conserves box (box.bury name) := by
  refine ⟨fun _ member => member, fun _ member => member, fun entry member => ?_,
    fun entry member => ?_⟩
  · exact List.mem_append_left _
      (List.mem_filter.mpr ⟨member, by simpa using unused entry member⟩)
  · by_cases same : entry.name = name
    · exact Or.inr (Or.inr (List.mem_append_right _
        (List.mem_filter.mpr ⟨member, by simpa using same⟩)))
    · exact Or.inl (List.mem_filter.mpr ⟨member, by simpa using same⟩)

theorem nodup_names_remove {name : κ} (distinct : box.names.Nodup) :
    (box.remove name).names.Nodup :=
  distinct.sublist
    (((List.filter_sublist).map Entry.name).append (List.Sublist.refl _))

theorem nodup_names_bury {name : κ} (distinct : box.names.Nodup) :
    (box.bury name).names.Nodup := by
  have split : ((box.queue.filter (·.name != name)) ++
      box.queue.filter (·.name == name)).Perm box.queue := by
    have halves := List.filter_append_perm (fun entry => entry.name != name)
      box.queue
    simpa [bne] using halves
  have moved : (box.bury name).names.Perm
      (((box.queue.filter (·.name != name)) ++
        box.queue.filter (·.name == name)).map Entry.name ++
          (box.dead.filter (·.name != name)).map Entry.name) := by
    simp only [names, bury, List.map_append, List.append_assoc]
    exact List.Perm.append_left _ List.perm_append_comm
  rw [moved.nodup_iff, (List.Perm.append_right _ (split.map _)).nodup_iff]
  exact distinct.sublist
    ((List.Sublist.refl _).append ((List.filter_sublist).map Entry.name))

theorem mem_names_remove {name other : κ} (member : other ∈ (box.remove name).names) :
    other ∈ box.names :=
  (((List.filter_sublist).map Entry.name).append (List.Sublist.refl _)).subset
    member

theorem mem_names_bury {name other : κ} (member : other ∈ (box.bury name).names) :
    other ∈ box.names := by
  simp only [names, bury, List.map_append, List.mem_append, List.mem_map,
    List.mem_filter] at member ⊢
  rcases member with ⟨entry, kept, rfl⟩ | ⟨entry, kept, rfl⟩ | ⟨entry, kept, rfl⟩
  · exact Or.inl ⟨entry, kept.1, rfl⟩
  · exact Or.inr ⟨entry, kept.1, rfl⟩
  · exact Or.inl ⟨entry, kept.1, rfl⟩

end Laws

end Outbox

end Library
end PqcScan
