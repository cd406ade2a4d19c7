import Mathlib.Data.List.Infix

/-!
# Needles and fences

The first place of a needle in a text, and needles that keep apart from a part of the
text.  The needles here are words between two fences, each a row of the same item, such as
the markers `-----BEGIN X-----` and `-----END X-----`.
-/

namespace PqcScan
namespace Library

variable {α : Type}

/-! ## Needles -/

section First

variable [DecidableEq α]

/-- The place of the first needle. -/
def firstAt (needle : List α) : List α → Option Nat
  | [] => if needle = [] then some 0 else none
  | item :: text =>
      if needle.isPrefixOf (item :: text) then some 0
      else (firstAt needle text).map (· + 1)

theorem firstAt_of_begins {needle text : List α} (begins : needle <+: text) :
    firstAt needle text = some 0 := by
  cases text with
  | nil => rw [firstAt, if_pos (List.prefix_nil.mp begins)]
  | cons item text => rw [firstAt, if_pos (List.isPrefixOf_iff_prefix.mpr begins)]

theorem firstAt_cons {needle text : List α} {item : α}
    (absent : ¬ needle <+: item :: text) :
    firstAt needle (item :: text) = (firstAt needle text).map (· + 1) := by
  rw [firstAt, if_neg (by rwa [List.isPrefixOf_iff_prefix])]

/-- Where the first needle is, and that none comes before it. -/
theorem firstAt_eq_some_iff {needle text : List α} {place : Nat} :
    firstAt needle text = some place ↔
      ∃ front rest, text = front ++ (needle ++ rest) ∧ front.length = place ∧
        ∀ before after, text = before ++ (needle ++ after) → place ≤ before.length := by
  induction text generalizing place with
  | nil =>
      by_cases empty : needle = []
      · rw [firstAt, if_pos empty, Option.some.injEq]
        constructor
        · rintro rfl
          exact ⟨[], [], by simp [empty], rfl, fun _ _ _ => Nat.zero_le _⟩
        · rintro ⟨front, rest, whole, rfl, -⟩
          rw [(List.append_eq_nil_iff.mp whole.symm).1]
          rfl
      · rw [firstAt, if_neg empty]
        refine iff_of_false nofun ?_
        rintro ⟨front, rest, whole, -⟩
        exact empty (List.append_eq_nil_iff.mp (List.append_eq_nil_iff.mp whole.symm).2).1
  | cons item text inductionHypothesis =>
      by_cases begins : needle <+: item :: text
      · rw [firstAt_of_begins begins, Option.some.injEq]
        obtain ⟨tail, whole⟩ := begins
        constructor
        · rintro rfl
          exact ⟨[], tail, whole.symm, rfl, fun _ _ _ => Nat.zero_le _⟩
        · rintro ⟨front, rest, -, rfl, first⟩
          exact (Nat.le_zero.mp (first [] tail whole.symm)).symm
      · rw [firstAt_cons begins, Option.map_eq_some_iff]
        constructor
        · rintro ⟨inner, found, rfl⟩
          obtain ⟨front, rest, rfl, rfl, first⟩ := inductionHypothesis.mp found
          refine ⟨item :: front, rest, rfl, rfl, fun before after whole => ?_⟩
          cases before with
          | nil => exact absurd ⟨after, whole.symm⟩ begins
          | cons other before =>
              rw [List.cons_append, List.cons.injEq] at whole
              exact Nat.succ_le_succ (first before after whole.2)
        · rintro ⟨front, rest, whole, rfl, first⟩
          cases front with
          | nil => exact absurd ⟨rest, whole.symm⟩ begins
          | cons other front =>
              rw [List.cons_append, List.cons.injEq] at whole
              refine ⟨front.length,
                inductionHypothesis.mpr ⟨front, rest, whole.2, rfl, ?_⟩, rfl⟩
              intro before after split
              refine Nat.le_of_succ_le_succ (first (item :: before) after ?_)
              rw [split]
              rfl

/-- A needle that occurs has a first place. -/
theorem firstAt_isSome {needle front rest : List α} :
    ∃ place, firstAt needle (front ++ (needle ++ rest)) = some place := by
  induction front with
  | nil => exact ⟨0, firstAt_of_begins (List.prefix_append needle rest)⟩
  | cons item front inductionHypothesis =>
      by_cases begins : needle <+: item :: (front ++ (needle ++ rest))
      · exact ⟨0, firstAt_of_begins begins⟩
      · obtain ⟨place, found⟩ := inductionHypothesis
        exact ⟨place + 1, by rw [List.cons_append, firstAt_cons begins, found]; rfl⟩

end First

/-- No needle lies on a part of the text. -/
def Apart (needle front part rest : List α) : Prop :=
  ∀ before after, front ++ (part ++ rest) = before ++ (needle ++ after) →
    before.length + needle.length ≤ front.length ∨
    front.length + part.length ≤ before.length

theorem Apart.suffix {needle front part rest tail : List α}
    (apart : Apart needle front part rest) (within : tail <:+ front) :
    Apart needle tail part rest := by
  obtain ⟨head, rfl⟩ := within
  intro before after split
  have whole := apart (head ++ before) after
    (by rw [List.append_assoc, split, List.append_assoc])
  simp only [List.length_append] at whole ⊢
  omega

/-! ## Fences -/

/-- A row of dashes. -/
def fence (dash : α) (count : Nat) : List α := List.replicate count dash

section Fences

variable {dash : α} {count : Nat}

theorem fence_getElem? {place : Nat} (within : place < count) :
    (fence dash count)[place]? = some dash :=
  List.getElem?_replicate_of_lt within

theorem fence_length : (fence dash count).length = count := List.length_replicate

/-- A fence does not go on with the end of a fence and a word. -/
theorem not_prefix_fence (positive : 0 < count) {word front back rest : List α}
    (letters : ∀ letter ∈ word, letter ≠ dash) (filled : word ≠ [])
    (split : fence dash count ++ word = front ++ back) (begun : front ≠ [])
    (more : back ≠ []) :
    ¬ back <+: fence dash count ++ rest := by
  rintro ⟨tail, whole⟩
  have size := congrArg List.length split
  rw [List.length_append, List.length_append, fence_length] at size
  have some_ := List.length_pos_iff.mpr begun
  have other := List.length_pos_iff.mpr more
  -- the place in the rest of the fence and the word where a letter stands
  obtain ⟨place, letter, here, inside, early⟩ : ∃ place letter,
      back[place]? = some letter ∧
      letter ∈ word ∧ place < count := by
    by_cases short : front.length ≤ count
    · obtain ⟨letter, more, rfl⟩ := List.exists_cons_of_ne_nil filled
      refine ⟨count - front.length, letter, ?_, List.mem_cons_self, by omega⟩
      have read := congrArg (·[count]?) split
      rw [List.getElem?_append_right (by rw [fence_length]),
        List.getElem?_append_right short, fence_length, Nat.sub_self] at read
      exact read.symm
    · obtain ⟨letter, more, rfl⟩ := List.exists_cons_of_ne_nil more
      refine ⟨0, letter, rfl, ?_, positive⟩
      have read := congrArg (·[front.length]?) split
      rw [List.getElem?_append_right (by rw [fence_length]; omega),
        List.getElem?_append_right (Nat.le_refl _), Nat.sub_self] at read
      exact List.mem_of_getElem? read
  have read := congrArg (·[place]?) whole
  rw [List.getElem?_append_left (List.getElem?_eq_some_iff.mp here).1, here,
    List.getElem?_append_left (by rwa [fence_length]), fence_getElem? early,
    Option.some.injEq] at read
  exact letters letter inside read

/-- What stands in a fenced word at a letter. -/
theorem fenced_getElem? {word : List α} {place : Nat} {letter : α}
    (letters : ∀ letter ∈ word, letter ≠ dash)
    (here : (fence dash count ++ (word ++ fence dash count))[place]? = some letter) :
    (letter = dash ∧ (place < count ∨ count + word.length ≤ place)) ∨
      (letter ≠ dash ∧ count ≤ place ∧ place < count + word.length) := by
  by_cases first : place < count
  · rw [List.getElem?_append_left (by rwa [fence_length]), fence_getElem? first] at here
    exact .inl ⟨(Option.some.inj here).symm, .inl first⟩
  · rw [List.getElem?_append_right (by rw [fence_length]; omega), fence_length] at here
    by_cases inside : place - count < word.length
    · rw [List.getElem?_append_left inside] at here
      exact .inr ⟨letters letter (List.mem_of_getElem? here), by omega, by omega⟩
    · rw [List.getElem?_append_right (by omega)] at here
      exact .inl ⟨List.eq_of_mem_replicate (List.mem_of_getElem? here), .inr (by omega)⟩

theorem fence_append_inj {word other front back : List α}
    (letters : ∀ letter ∈ word, letter ≠ dash)
    (letters' : ∀ letter ∈ other, letter ≠ dash)
    (positive : 0 < count)
    (same : word ++ (fence dash count ++ front) = other ++ (fence dash count ++ back)) :
    word = other := by
  obtain ⟨count, rfl⟩ := Nat.exists_eq_add_of_lt positive
  rcases List.append_eq_append_iff.mp same with ⟨more, rfl, rest⟩ | ⟨more, rfl, rest⟩
  · cases more with
    | nil => exact (List.append_nil word).symm
    | cons letter more =>
        rw [fence, Nat.zero_add, List.replicate_succ, List.cons_append, List.cons_append,
          List.cons.injEq] at rest
        exact absurd rest.1.symm (letters' letter (by simp))
  · cases more with
    | nil => exact List.append_nil other
    | cons letter more =>
        rw [fence, Nat.zero_add, List.replicate_succ, List.cons_append, List.cons_append,
          List.cons.injEq] at rest
        exact absurd rest.1.symm (letters letter (by simp))

/-- A word between fences holds no other word between fences. -/
theorem fenced_within (positive : 0 < count) {word other : List α} (filled : word ≠ [])
    (letters : ∀ letter ∈ word, letter ≠ dash)
    (letters' : ∀ letter ∈ other, letter ≠ dash)
    (inside : fence dash count ++ (word ++ fence dash count) <:+:
      fence dash count ++ (other ++ fence dash count)) : word = other := by
  obtain ⟨front, rest, whole⟩ := inside
  rw [List.append_assoc] at whole
  -- the first letter of the word and the dash before it
  obtain ⟨letter, more, rfl⟩ := List.exists_cons_of_ne_nil filled
  have read : ∀ place item,
      (fence dash count ++ (letter :: more ++ fence dash count))[place]? =
      some item → (fence dash count ++
        (other ++ fence dash count))[front.length + place]? =
        some item := by
    intro place item here
    rw [← whole, List.getElem?_append_right (by omega), Nat.add_sub_cancel_left,
      List.getElem?_append_left (List.getElem?_eq_some_iff.mp here).1, here]
  have first := read count letter (by
    rw [List.getElem?_append_right (by rw [fence_length]), fence_length, Nat.sub_self]
    rfl)
  have before := read (count - 1) dash (by
    rw [List.getElem?_append_left (by rw [fence_length]; omega),
      fence_getElem? (by omega)])
  have begins : front = [] := by
    apply List.eq_nil_of_length_eq_zero
    rcases fenced_getElem? letters' first with ⟨same, -⟩ | ⟨-, -, early⟩
    · exact absurd same (letters letter List.mem_cons_self)
    · rcases fenced_getElem? letters' before with ⟨-, here⟩ | ⟨differs, -⟩
      · omega
      · exact absurd rfl differs
  rw [begins, List.nil_append, List.append_assoc, List.append_assoc,
    List.append_cancel_left_eq] at whole
  exact fence_append_inj letters letters' positive
    (whole.trans (congrArg _ (List.append_nil _).symm))

/-- No word between fences lies on a part of the text, if a fence with something else
before it leads up to the part, the rest goes on as a fence does, and the beginning of the
word behind a fence is neither in the part nor made by the fence before it. -/
theorem apart_of_clean (positive : 0 < count)
    {opening label front part rest back : List α}
    {last : α} (filled : opening ≠ [])
    (letters : ∀ letter ∈ opening ++ label, letter ≠ dash) (other : last ≠ dash)
    (follows : rest <+: fence dash count ++ back)
    (clean : ¬ fence dash count ++ opening <:+: fence dash count ++ part) :
    Apart (fence dash count ++ (opening ++ label ++ fence dash count))
      (front ++ last :: fence dash count) part rest := by
  intro before after split
  by_contra lies
  rw [not_or, Nat.not_le, Nat.not_le] at lies
  have size : (front ++ last :: fence dash count).length = front.length + 1 + count := by
    rw [List.length_append, List.length_cons, fence_length]
    omega
  rw [size] at lies
  obtain ⟨late, early⟩ := lies
  by_cases start : before.length ≤ front.length
  · -- the word would have a letter, a whole fence behind it, and more
    have read : ∀ place item,
        (front ++ last :: fence dash count)[before.length + place]? =
        some item → before.length + place ≤ front.length + count →
          (fence dash count ++ (opening ++ label ++ fence dash count))[place]? =
            some item := by
      intro place item here within
      have same := congrArg (·[before.length + place]?) split
      rw [List.getElem?_append_left (List.getElem?_eq_some_iff.mp here).1, here,
        List.getElem?_append_right (by omega), Nat.add_sub_cancel_left,
        List.getElem?_append_left (by omega)] at same
      exact same.symm
    have letter := read (front.length - before.length) last (by
      rw [List.getElem?_append_right (by omega)]
      simp [show before.length + (front.length - before.length) - front.length =
        0 by omega])
      (by omega)
    have next := read (front.length - before.length + 1) dash (by
      rw [List.getElem?_append_right (by omega)]
      simp only [show before.length + (front.length - before.length + 1) - front.length =
        0 + 1
        by omega, List.getElem?_cons_succ]
      exact fence_getElem? positive) (by omega)
    simp only [List.length_append, fence_length] at late
    rcases fenced_getElem? letters letter with ⟨same, -⟩ | ⟨-, at_, -⟩
    · exact other same
    · rcases fenced_getElem? letters next with ⟨-, behind⟩ | ⟨differs, -⟩
      · rw [List.length_append] at behind
        omega
      · exact differs rfl
  · -- the word would begin in the fence or in the part
    have joined : front ++ last :: fence dash count =
        front ++ [last] ++ fence dash count := by
      rw [List.append_assoc, List.singleton_append]
    rw [joined, List.append_assoc (front ++ [last])] at split
    have within : front ++ [last] <+: before := by
      refine List.prefix_of_prefix_length_le ⟨_, split⟩ (List.prefix_append _ _) ?_
      rw [List.length_append, List.length_singleton]
      omega
    obtain ⟨inner, rfl⟩ := within
    rw [List.append_assoc (front ++ [last]), List.append_cancel_left_eq,
      ← List.append_assoc] at split
    simp only [List.length_append, List.length_singleton] at early
    rcases List.append_eq_append_iff.mp split with ⟨more, rfl, -⟩ | ⟨tail, whole, goes⟩
    · simp only [List.length_append, fence_length] at early
      omega
    · have begun : tail ≠ [] := by
        rintro rfl
        have size := congrArg List.length whole
        simp only [List.length_append, fence_length, List.length_nil] at size
        omega
      have spread : (fence dash count ++ opening) ++
          (label ++ fence dash count ++ after) =
          tail ++ rest := by
        simpa only [List.append_assoc] using goes
      rcases List.append_eq_append_iff.mp spread with ⟨more, rfl, -⟩ | ⟨more,
        split, further⟩
      · exact clean ⟨inner, more, by rw [whole, List.append_assoc]⟩
      · cases more with
        | nil => exact clean ⟨inner, [], by rw [whole, split]; simp⟩
        | cons letter more =>
            have within : letter :: more <+: rest := ⟨_, further.symm⟩
            have opened := fun letter member =>
              letters letter (List.mem_append_left label member)
            exact not_prefix_fence positive opened filled split begun
              (List.cons_ne_nil _ _)
              (within.trans follows)

end Fences

end Library
end PqcScan
