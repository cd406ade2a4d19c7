import Mathlib.Data.List.Pairwise
import PqcScan.Library.Patterns

/-!
# Places of matches

Where a pattern matches in a text, and which of these places a search comes to: all but
those inside another match that it finds.
-/

namespace PqcScan
namespace Library
namespace Matcher

variable {α γ : Type} {matcher : Matcher α γ} {text : List α}

/-- The match at a place of a text. -/
def matchAt (matcher : Matcher α γ) (text : List α) (place : Nat) : Option (Nat × γ) :=
  matcher (if place = 0 then none else text[place - 1]?) (text.drop place)

/-- Every match takes an item. -/
def Positive (matcher : Matcher α γ) : Prop :=
  ∀ before text length detail, matcher before text = some (length, detail) → 0 < length

theorem matchAt_append (front : List α) (item : α) (text : List α) :
    matcher.matchAt (front ++ item :: text) front.length =
      matcher front.getLast? (item :: text) := by
  rw [matchAt, List.drop_left]
  cases front with
  | nil => rfl
  | cons first front =>
      rw [if_neg (by simp), List.getLast?_eq_getElem?, List.getElem?_append_left]
      simp

/-- What the search finds from a place on are matches there, in order and apart. -/
theorem from_spans (positive : matcher.Positive) (front : List α) (skip : Nat)
    (text : List α) :
    (∀ found ∈ matcher.from_ front.getLast? front.length skip text,
      front.length + skip ≤ found.start ∧ matcher.matchAt (front ++ text) found.start =
        some (found.length, found.detail)) ∧
    (matcher.from_ front.getLast? front.length skip text).Pairwise fun first second =>
      first.start + first.length ≤ second.start := by
  induction text generalizing front skip with
  | nil => exact ⟨nofun, .nil⟩
  | cons item text inductionHypothesis =>
      have later := inductionHypothesis (front ++ [item])
      simp only [List.getLast?_concat, List.length_append, List.length_singleton,
        List.append_assoc, List.singleton_append] at later
      cases skip with
      | succ skip =>
          obtain ⟨behind, apart⟩ := later skip
          refine ⟨fun found member => ?_, apart⟩
          obtain ⟨after, matched⟩ := behind found member
          exact ⟨by omega, matched⟩
      | zero =>
          have here := @matchAt_append _ _ matcher front item text
          rw [from_]
          cases taken : matcher front.getLast? (item :: text) with
          | none =>
              obtain ⟨behind, apart⟩ := later 0
              refine ⟨fun found member => ?_, apart⟩
              obtain ⟨after, matched⟩ := behind found member
              exact ⟨by omega, matched⟩
          | some match_ =>
              obtain ⟨length, detail⟩ := match_
              have some_ := positive _ _ _ _ taken
              obtain ⟨behind, apart⟩ := later (length - 1)
              refine ⟨fun found member =>
                ?_, List.pairwise_cons.mpr ⟨fun found member => ?_, apart⟩⟩
              · rcases List.mem_cons.mp member with rfl | member
                · exact ⟨Nat.le_refl _, here.trans taken⟩
                · obtain ⟨after, matched⟩ := behind found member
                  exact ⟨by omega, matched⟩
              · have after := (behind found member).1
                simp only
                omega

theorem from_covers (front : List α) (skip : Nat) (text : List α) {place : Nat}
    (after : front.length + skip ≤ place) (within : place < front.length + text.length)
    (matched : (matcher.matchAt (front ++ text) place).isSome = true) :
    ∃ found ∈ matcher.from_ front.getLast? front.length skip text,
      found.start ≤ place ∧
      (place = found.start ∨ place < found.start + found.length) := by
  induction text generalizing front skip with
  | nil =>
      rw [List.length_nil] at within
      omega
  | cons item text inductionHypothesis =>
      have later := inductionHypothesis (front ++ [item])
      simp only [List.getLast?_concat, List.length_append, List.length_singleton,
        List.append_assoc, List.singleton_append] at later
      rw [List.length_cons] at within
      cases skip with
      | succ skip => exact later skip (by omega) (by omega) matched
      | zero =>
          have here := @matchAt_append _ _ matcher front item text
          rw [from_]
          by_cases first : place = front.length
          · rw [first, here, Option.isSome_iff_exists] at matched
            obtain ⟨⟨length, detail⟩, taken⟩ := matched
            rw [taken]
            exact ⟨_, List.mem_cons_self, first.ge, .inl first⟩
          · cases taken : matcher front.getLast? (item :: text) with
            | none => exact later 0 (by omega) (by omega) matched
            | some match_ =>
                obtain ⟨length, detail⟩ := match_
                by_cases inside : place < front.length + length
                · exact ⟨_, List.mem_cons_self, by simp only; omega, .inr inside⟩
                · obtain ⟨found, member, spans⟩ :=
                    later (length - 1) (by omega) (by omega) matched
                  exact ⟨found, List.mem_cons_of_mem _ member, spans⟩

theorem finditer_matchAt (positive : matcher.Positive) {found : Found γ}
    (member : found ∈ matcher.finditer text) :
    matcher.matchAt text found.start = some (found.length, found.detail) :=
  ((from_spans positive [] 0 text).1 found member).2

theorem finditer_apart (positive : matcher.Positive) (text : List α) :
    (matcher.finditer text).Pairwise fun first second =>
      first.start + first.length ≤ second.start :=
  (from_spans positive [] 0 text).2

/-- Each match lies in a match that the search finds, or is one. -/
theorem finditer_covers {place : Nat} (within : place < text.length)
    (matched : (matcher.matchAt text place).isSome = true) :
    ∃ found ∈ matcher.finditer text,
      found.start ≤ place ∧ (place = found.start ∨ place < found.start + found.length) :=
  from_covers [] 0 text (Nat.zero_le _) (by simpa using within) matched

/-- Two matches of a search that have a place in common are one. -/
theorem finditer_inj (positive : matcher.Positive) {first second : Found γ} {place : Nat}
    (one : first ∈ matcher.finditer text) (two : second ∈ matcher.finditer text)
    (inside : first.start ≤ place ∧ place < first.start + first.length)
    (inside' : second.start ≤ place ∧ place < second.start + second.length) :
    first = second := by
  by_contra other
  have symm : Std.Symm fun first second : Found γ =>
      first.start + first.length ≤ second.start ∨
        second.start + second.length ≤ first.start :=
    ⟨fun _ _ => Or.symm⟩
  have apart : (matcher.finditer text).Pairwise fun first second =>
      first.start + first.length ≤ second.start ∨
        second.start + second.length ≤ first.start :=
    (finditer_apart positive text).imp .inl
  rcases apart.forall one two other with order | order <;> omega

/-- Where no match lies inside another the search finds them all. -/
theorem mem_finditer_of_matchAt (sparse : ∀ place length detail,
      matcher.matchAt text place = some (length, detail) → ∀ inner, place < inner →
        inner < place + length → matcher.matchAt text inner = none)
    (positive : matcher.Positive) {place length : Nat} {detail : γ}
    (within : place < text.length)
    (matched : matcher.matchAt text place = some (length, detail)) :
    (⟨place, length, detail⟩ : Found γ) ∈ matcher.finditer text := by
  obtain ⟨found, member, before, here | inside⟩ :=
    finditer_covers within (by rw [matched]; rfl)
  · have same := finditer_matchAt positive member
    rw [← here, matched, Option.some.injEq, Prod.mk.injEq] at same
    obtain ⟨start, length', detail'⟩ := found
    simp only at here same
    rw [here, same.1, same.2]
    exact member
  · have outer := finditer_matchAt positive member
    rcases Nat.lt_or_eq_of_le before with behind | same
    · rw [sparse _ _ _ outer place behind inside] at matched
      cases matched
    · rw [same] at outer
      rw [matched, Option.some.injEq, Prod.mk.injEq] at outer
      obtain ⟨start, length', detail'⟩ := found
      simp only at same outer
      rw [← same, outer.1, outer.2]
      exact member

/-! ## Patterns that begin with a rare item -/

theorem widths_accepts {pieces : List (Piece α)} {counts : List Nat}
    (taken : widths pieces text = some counts) {place : Nat}
    (inside : place < counts.sum) :
    ∃ piece ∈ pieces, ∃ item, text[place]? = some item ∧ piece.accepts item = true := by
  induction pieces generalizing text counts place with
  | nil =>
      cases taken
      exact absurd inside (Nat.not_lt_zero _)
  | cons piece pieces inductionHypothesis =>
      obtain ⟨count, here, read⟩ := Option.bind_eq_some_iff.mp taken
      obtain ⟨others, later, built⟩ := Option.bind_eq_some_iff.mp read
      cases built
      rw [List.sum_cons] at inside
      by_cases first : place < count
      · refine ⟨piece, List.mem_cons_self, ?_⟩
        cases piece with
        | one member =>
            cases text with
            | nil => cases here
            | cons item text =>
                obtain ⟨accepted, size⟩ := Option.ite_none_right_eq_some.mp here
                cases size
                obtain rfl : place = 0 := by omega
                exact ⟨item, rfl, accepted⟩
        | many member =>
            cases here
            obtain ⟨rest, whole⟩ := @List.takeWhile_prefix _ text member
            have run : (text.takeWhile member ++ rest)[place]? =
                (text.takeWhile member)[place]? :=
              List.getElem?_append_left first
            rw [whole, List.getElem?_eq_getElem first] at run
            exact ⟨_, run, List.all_eq_true.mp List.all_takeWhile
              _ (List.getElem_mem first)⟩
        | maybe member =>
            cases text with
            | nil =>
                cases here
                exact absurd first (Nat.not_lt_zero _)
            | cons item text =>
                by_cases accepted : member item = true
                · rw [Piece.width, if_pos accepted] at here
                  cases here
                  obtain rfl : place = 0 := by omega
                  exact ⟨item, rfl, accepted⟩
                · rw [Piece.width, if_neg accepted] at here
                  cases here
                  exact absurd first (Nat.not_lt_zero _)
      · have behind : place - count < others.sum := by omega
        obtain ⟨piece', member, item, there, accepted⟩ := inductionHypothesis later behind
        rw [List.getElem?_drop, Nat.add_sub_cancel' (by omega)] at there
        exact ⟨piece', List.mem_cons_of_mem _ member, item, there, accepted⟩

section Capture

variable {first : α → Bool} {front group back : List (Piece α)}

/-- A match of a pattern that begins with an item of a class. -/
theorem capture_head {before : Option α} {found : Nat × Nat × List α}
    (taken : capture (.one first :: front) group back before text = some found) :
    0 < found.1 ∧ (∃ item, text[0]? = some item ∧ first item = true) ∧
      ∀ place, 0 < place → place < found.1 → ∃ piece ∈ front ++ group ++ back, ∃ item,
        text[place]? = some item ∧ piece.accepts item = true := by
  obtain ⟨counts, read, built⟩ := Option.bind_eq_some_iff.mp taken
  cases built
  obtain ⟨count, here, read⟩ := Option.bind_eq_some_iff.mp read
  obtain ⟨others, later, built⟩ := Option.bind_eq_some_iff.mp read
  cases built
  cases text with
  | nil => cases here
  | cons item text =>
      obtain ⟨accepted, size⟩ := Option.ite_none_right_eq_some.mp here
      cases size
      simp only [List.sum_cons]
      refine ⟨by omega, ⟨item, rfl, accepted⟩, fun place after within => ?_⟩
      have behind : place - 1 < others.sum := by omega
      obtain ⟨piece, member, other, there, accepted'⟩ := widths_accepts later behind
      rw [List.getElem?_drop, Nat.add_sub_cancel' (by omega)] at there
      exact ⟨piece, member, other, there, accepted'⟩

theorem capture_positive : (capture (.one first :: front) group back).Positive :=
  fun _ _ _ _ taken => (capture_head taken).1

/-- No match lies inside another if no later piece takes what the pattern begins with. -/
theorem capture_sparse
    (rare : ∀ piece ∈ front ++ group ++ back, ∀ item, first item = true →
      piece.accepts item = false) (place length : Nat) (detail : Nat × List α)
    (matched : (capture (.one first :: front) group back).matchAt text place =
      some (length, detail)) (inner : Nat) (after : place < inner)
    (inside : inner < place + length) :
    (capture (.one first :: front) group back).matchAt text inner = none := by
  by_contra other
  obtain ⟨found, matched'⟩ := Option.ne_none_iff_exists'.mp other
  obtain ⟨-, ⟨item, here, accepted⟩, -⟩ := capture_head matched'
  obtain ⟨-, -, taken⟩ := capture_head matched
  obtain ⟨piece, member, item', there, accepted'⟩ := taken (inner - place) (by omega) (by
    change inner - place < length
    omega)
  rw [List.getElem?_drop] at here there
  rw [Nat.add_zero] at here
  rw [Nat.add_sub_cancel' (Nat.le_of_lt after), here, Option.some.injEq] at there
  rw [← there, rare piece member item accepted] at accepted'
  cases accepted'

end Capture

end Matcher
end Library
end PqcScan
