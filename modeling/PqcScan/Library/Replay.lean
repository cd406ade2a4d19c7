import Mathlib.Data.List.Nodup
import PqcScan.Library.Newest

/-!
# Deliveries from a log

Items are entered in a log in order and delivered one by one, possibly again.
When no item is delivered after a later one of the log, each delivery of an item
of the log is the newest one so far.
-/

namespace PqcScan
namespace Library

variable {α : Type} [DecidableEq α]

/-- The last item of the log among the delivered ones. -/
def newestDelivered (log delivered : List α) : Option α :=
  (log.filter fun item => decide (item ∈ delivered)).getLast?

/-- The first item comes no later in the log than the second. -/
def NotAfter (log : List α) (left right : α) : Prop := log.idxOf left ≤ log.idxOf right

/-- No item of the log that comes after the given one has been delivered. -/
def NoneLater (log delivered : List α) (item : α) : Prop :=
  ∀ other ∈ delivered, other ∈ log → NotAfter log other item

variable {log delivered : List α} {item : α}

/-- The places in a log without repetition ascend. -/
theorem pairwise_idxOf (distinct : log.Nodup) :
    log.Pairwise fun left right => log.idxOf left < log.idxOf right := by
  rw [List.pairwise_iff_getElem]
  intro i j hi hj below
  rw [List.Nodup.idxOf_getElem distinct, List.Nodup.idxOf_getElem distinct]
  exact below

/-- The first of some items listed in the order of the log. -/
theorem notAfter_of_sublist {first other : α} {rest : List α} (distinct : log.Nodup)
    (listed : (first :: rest).Sublist log) (member : other ∈ first :: rest) :
    NotAfter log first other := by
  have ordered := (pairwise_idxOf distinct).sublist listed
  rcases List.mem_cons.mp member with rfl | later
  · exact Nat.le_refl _
  · exact Nat.le_of_lt (List.rel_of_pairwise_cons ordered later)

theorem newestDelivered_congr {others : List α}
    (same : ∀ item ∈ log, item ∈ others ↔ item ∈ delivered) :
    newestDelivered log others = newestDelivered log delivered := by
  unfold newestDelivered
  congr 1
  exact List.filter_congr fun item member => by simp [same item member]

/-- A delivered item with none later is the newest. -/
theorem newestDelivered_eq_some (distinct : log.Nodup) (member : item ∈ log)
    (sent : item ∈ delivered) (last : NoneLater log delivered item) :
    newestDelivered log delivered = some item := by
  apply getLast?_eq_of_greatest ((pairwise_idxOf distinct).filter _)
  · exact List.mem_filter.mpr ⟨member, by simpa using sent⟩
  · intro other otherMember later
    rw [List.mem_filter, decide_eq_true_iff] at otherMember
    have bounded : log.idxOf other ≤ log.idxOf item :=
      last other otherMember.2 otherMember.1
    omega

/-- The newest item is in the log and delivered. -/
theorem mem_of_newestDelivered (newest : newestDelivered log delivered = some item) :
    item ∈ log ∧ item ∈ delivered := by
  have member := List.mem_of_getLast? newest
  rw [List.mem_filter, decide_eq_true_iff] at member
  exact member

/-- Delivering an item with none later. -/
theorem newestDelivered_deliver (distinct : log.Nodup) (member : item ∈ log)
    (last : NoneLater log delivered item) :
    newestDelivered log (delivered ++ [item]) = some item := by
  apply newestDelivered_eq_some distinct member (by simp)
  intro other sent otherMember
  rcases List.mem_append.mp sent with earlier | same
  · exact last other earlier otherMember
  · rw [List.mem_singleton.mp same]
    exact Nat.le_refl _

/-- Delivering an item again, or one outside the log. -/
theorem newestDelivered_idle (idle : item ∈ log → item ∈ delivered) :
    newestDelivered log (delivered ++ [item]) = newestDelivered log delivered := by
  apply newestDelivered_congr
  intro other member
  rw [List.mem_append, List.mem_singleton]
  constructor
  · rintro (sent | rfl)
    · exact sent
    · exact idle member
  · exact Or.inl

/-- A new item of the log has not been delivered. -/
theorem newestDelivered_enter (unsent : item ∉ delivered) :
    newestDelivered (log ++ [item]) delivered = newestDelivered log delivered := by
  unfold newestDelivered
  rw [List.filter_append, List.filter_cons_of_neg (by simpa using unsent),
    List.filter_nil, List.append_nil]

/-- The last item of the log has none later. -/
theorem noneLater_last (fresh : item ∉ log) :
    NoneLater (log ++ [item]) delivered item := by
  intro other _ member
  have place : (log ++ [item]).idxOf item = log.length := by
    rw [List.idxOf_append_of_notMem fresh]
    simp
  have bounded := List.idxOf_lt_length_of_mem member
  rw [List.length_append, List.length_singleton] at bounded
  unfold NotAfter
  omega

/-- A new item of the log changes nothing for the earlier ones. -/
theorem NoneLater.enter {new : α} (last : NoneLater log delivered item)
    (member : item ∈ log)
    (unsent : new ∉ delivered) : NoneLater (log ++ [new]) delivered item := by
  intro other sent otherMember
  have earlier : other ∈ log := by
    rcases List.mem_append.mp otherMember with earlier | same
    · exact earlier
    · exact absurd (List.mem_singleton.mp same ▸ sent) unsent
  rw [NotAfter, List.idxOf_append_of_mem earlier, List.idxOf_append_of_mem member]
  exact last other sent earlier

/-- A delivery that is not later than the item. -/
theorem NoneLater.deliver {new : α} (last : NoneLater log delivered item)
    (before : new ∈ log → NotAfter log new item) :
    NoneLater log (delivered ++ [new]) item := by
  intro other sent member
  rcases List.mem_append.mp sent with earlier | same
  · exact last other earlier member
  · rw [List.mem_singleton.mp same] at member ⊢
    exact before member

end Library
end PqcScan
