import PqcScan.Library.Fences
import PqcScan.Probes.DbCrypto

/-!
# Blocks in cells

What `_PEM_BLOCK_RE` matches in a text, said of the text and not of the search, and what
its matches are around the body of a block: no marker lies on a body that has none.
-/

namespace PqcScan
namespace Probes
namespace FsDbCrypto

open Library Python PqcScan.Core

/-! ## Markers -/

/-- A label that the pattern reads. -/
structure IsLabel (label : List Char) : Prop where
  filled : label ≠ []
  letters : ∀ char ∈ label, isLabelChar char = true

theorem not_dash_of_isLabelChar {char : Char} (letter : isLabelChar char = true) :
    char ≠ '-' := by
  rintro rfl
  revert letter
  decide

theorem dashes_eq : "-----".toList = fence '-' 5 := by
  decide

theorem begin_eq : "-----BEGIN ".toList = fence '-' 5 ++ "BEGIN ".toList := by
  decide

theorem end_eq : "-----END ".toList = fence '-' 5 ++ "END ".toList := by
  decide

theorem beginMarker_eq (label : List Char) :
    beginMarker label = fence '-' 5 ++ ("BEGIN ".toList ++ label ++ fence '-' 5) :=
  calc "-----BEGIN ".toList ++ label ++ "-----".toList
    _ = (fence '-' 5 ++ "BEGIN ".toList) ++ label ++ fence '-' 5 := by
      rw [begin_eq, dashes_eq]
    _ = fence '-' 5 ++ ("BEGIN ".toList ++ label ++ fence '-' 5) := by
      simp only [List.append_assoc]

theorem endMarker_eq (label : List Char) :
    endMarker label = fence '-' 5 ++ ("END ".toList ++ label ++ fence '-' 5) :=
  calc "-----END ".toList ++ label ++ "-----".toList
    _ = (fence '-' 5 ++ "END ".toList) ++ label ++ fence '-' 5 := by
      rw [end_eq, dashes_eq]
    _ = fence '-' 5 ++ ("END ".toList ++ label ++ fence '-' 5) := by
      simp only [List.append_assoc]

theorem IsLabel.opened_letters {label : List Char} (isLabel : IsLabel label) :
    ∀ char ∈ "BEGIN ".toList ++ label, char ≠ '-' := by
  have word : ∀ char ∈ "BEGIN ".toList, char ≠ '-' := by decide
  intro char member
  rcases List.mem_append.mp member with opening | inside
  · exact word char opening
  · exact not_dash_of_isLabelChar (isLabel.letters char inside)

theorem IsLabel.closed_letters {label : List Char} (isLabel : IsLabel label) :
    ∀ char ∈ "END ".toList ++ label, char ≠ '-' := by
  have word : ∀ char ∈ "END ".toList, char ≠ '-' := by decide
  intro char member
  rcases List.mem_append.mp member with opening | inside
  · exact word char opening
  · exact not_dash_of_isLabelChar (isLabel.letters char inside)

/-- The end marker of a block is not in its begin marker. -/
theorem endMarker_not_in_begin {label other : List Char} (isLabel : IsLabel label)
    (isLabel' : IsLabel other) : ¬ endMarker other <:+: beginMarker label := by
  rw [beginMarker_eq, endMarker_eq]
  intro inside
  have same := fenced_within (by decide)
    (by simp) isLabel'.closed_letters isLabel.opened_letters
    inside
  simp at same

/-- An end marker in an end marker is the same. -/
theorem endMarker_in_end {label other : List Char} (isLabel : IsLabel label)
    (isLabel' : IsLabel other) (inside : endMarker other <:+: endMarker label) :
    other = label := by
  rw [endMarker_eq, endMarker_eq] at inside
  exact List.append_cancel_left
    (fenced_within (by decide) (by simp) isLabel'.closed_letters
    isLabel.closed_letters inside)

/-! ## Matches -/

/-- A block at the head of a text: it ends at the first end marker of its label. -/
structure Block (text label inner rest : List Char) : Prop where
  isLabel : IsLabel label
  whole : text = beginMarker label ++ (inner ++ (endMarker label ++ rest))
  first : ∀ front after,
    inner ++ (endMarker label ++ rest) = front ++ (endMarker label ++ after) →
    inner.length ≤ front.length

/-- The text of a block. -/
def blockText (label inner : List Char) : List Char :=
  beginMarker label ++ (inner ++ endMarker label)

theorem blockText_length (label inner : List Char) : (blockText label inner).length =
    (beginMarker label).length + inner.length + (endMarker label).length := by
  rw [blockText, List.length_append, List.length_append, Nat.add_assoc]

theorem Block.text_eq {text label inner rest : List Char}
    (block : Block text label inner rest) :
    text = blockText label inner ++ rest := by
  rw [block.whole, blockText, List.append_assoc, List.append_assoc]

/-- The pattern matches the blocks at the head of a text. -/
theorem pemBlock_eq_some_iff {before : Option Char} {text label block : List Char}
    {length : Nat} :
    pemBlock before text = some (length, label, block) ↔
      ∃ inner rest, Block text label inner rest ∧ block = blockText label inner ∧
        length = block.length := by
  constructor
  · intro found
    rw [pemBlock] at found
    split at found
    · next opened =>
      obtain ⟨named, rfl⟩ := List.isPrefixOf_iff_prefix.mp opened
      rw [List.drop_left] at found
      simp only at found
      split at found
      · next dashed =>
        obtain ⟨filled, dashes⟩ := dashed
        obtain ⟨tail, ends⟩ := List.isPrefixOf_iff_prefix.mp dashes
        obtain ⟨place, first, built⟩ := Option.map_eq_some_iff.mp found
        rw [← ends, show (5 : Nat) = "-----".toList.length by decide,
          List.drop_left] at first
        obtain ⟨inner, rest, rfl, rfl, least⟩ := firstAt_eq_some_iff.mp first
        simp only [Prod.mk.injEq] at built
        obtain ⟨rfl, rfl, rfl⟩ := built
        have whole : "-----BEGIN ".toList ++ named =
            beginMarker (named.takeWhile isLabelChar) ++
            (inner ++ (endMarker (named.takeWhile isLabelChar) ++ rest)) := by
          conv_lhs => rw [← List.takeWhile_append_dropWhile (p := isLabelChar)
            (l := named), ← ends]
          exact (List.append_assoc _ _ _).symm.trans (List.append_assoc _ _ _).symm
        have block : Block _ _ inner rest :=
          ⟨⟨filled, fun char => List.mem_takeWhile_imp⟩, whole, least⟩
        have read : ("-----BEGIN ".toList ++ named).take
            ((beginMarker (named.takeWhile isLabelChar)).length + inner.length +
              (endMarker (named.takeWhile isLabelChar)).length) =
                blockText (named.takeWhile isLabelChar) inner := by
          rw [← blockText_length, block.text_eq, List.take_left]
        exact ⟨inner, rest, block, read, by rw [read, blockText_length]⟩
      · cases found
    · cases found
  · rintro ⟨inner, rest, block, rfl, rfl⟩
    have spread : text = "-----BEGIN ".toList ++ (label ++ ("-----".toList ++
        (inner ++ (endMarker label ++ rest)))) := by
      rw [block.whole]
      exact (List.append_assoc _ _ _).trans (List.append_assoc _ _ _)
    have stop : isLabelChar '-' = false := by decide
    have dashes : "-----".toList = '-' :: "----".toList := by decide
    have run : (label ++
        ("-----".toList ++ (inner ++ (endMarker label ++ rest)))).takeWhile
        isLabelChar = label := by
      rw [List.takeWhile_append_of_pos block.isLabel.letters, dashes, List.cons_append,
        List.takeWhile_cons_of_neg (by rw [stop]; decide), List.append_nil]
    have behind : (label ++
        ("-----".toList ++ (inner ++ (endMarker label ++ rest)))).dropWhile
        isLabelChar = "-----".toList ++ (inner ++ (endMarker label ++ rest)) := by
      rw [List.dropWhile_append_of_pos block.isLabel.letters, dashes, List.cons_append,
        List.dropWhile_cons_of_neg (by rw [stop]; decide)]
    have first : firstAt (endMarker label) (inner ++ (endMarker label ++ rest)) =
        some inner.length :=
      firstAt_eq_some_iff.mpr ⟨inner, rest, rfl, rfl, block.first⟩
    rw [pemBlock, if_pos (List.isPrefixOf_iff_prefix.mpr ⟨_, spread.symm⟩)]
    simp only
    conv_lhs => rw [spread]
    rw [List.drop_left, run, behind, if_pos ⟨block.isLabel.filled,
      List.isPrefixOf_iff_prefix.mpr (List.prefix_append _ _)⟩,
      show (5 : Nat) = "-----".toList.length by
        decide, List.drop_left, first, Option.map_some,
      ← spread, block.text_eq, ← blockText_length, List.take_left]

theorem pemBlock_blind : Matcher.Blind pemBlock := fun _ _ => rfl

theorem blockText_ne_nil (label inner : List Char) : blockText label inner ≠ [] := by
  rw [blockText, beginMarker_eq]
  exact List.cons_ne_nil _ _

/-- The labels and the texts of the matches. -/
def blocks (text : List Char) : List (List Char × List Char) :=
  (pemBlock.finditer text).map Found.detail

section Blocks

variable {label inner rest front text : List Char}

theorem details_shift (offset : Nat) (matches_ : List (Found (List Char × List Char))) :
    (matches_.map (Found.shift offset)).map Found.detail = matches_.map Found.detail := by
  rw [List.map_map]
  rfl

theorem blocks_block (block : Block text label inner rest) :
    blocks text = (label, blockText label inner) :: blocks rest := by
  have taken : pemBlock none text = some ((blockText label inner).length, label,
      blockText label inner) := pemBlock_eq_some_iff.mpr ⟨inner, rest, block, rfl, rfl⟩
  obtain ⟨char, more, split⟩ := List.exists_cons_of_ne_nil (blockText_ne_nil label inner)
  have whole := block.text_eq
  rw [split, List.cons_append] at whole
  rw [split, List.length_cons, whole] at taken
  rw [blocks, whole, pemBlock_blind.finditer_cons taken, List.map_cons, details_shift,
    List.drop_left, split]
  rfl

theorem pemBlock_eq_none (absent : ∀ label inner rest, ¬ Block text label inner rest) :
    pemBlock none text = none := by
  rw [Option.eq_none_iff_forall_not_mem]
  rintro ⟨length, label, block⟩ found
  obtain ⟨inner, rest, here, -⟩ := pemBlock_eq_some_iff.mp found
  exact absent label inner rest here

theorem blocks_behind (absent : ∀ tail, tail <:+ front → tail ≠ [] → ∀ label inner rest,
    ¬ Block (tail ++ text) label inner rest) : blocks (front ++ text) = blocks text := by
  rw [blocks, pemBlock_blind.finditer_behind fun tail within filled =>
    pemBlock_eq_none (absent tail within filled), details_shift, blocks]

theorem blocks_skip {char : Char} (absent : ∀ label inner rest,
    ¬ Block (char :: text) label inner rest) : blocks (char :: text) = blocks text := by
  refine @blocks_behind [char] text ?_
  intro tail within filled
  rcases List.suffix_cons_iff.mp within with rfl | empty
  · exact absent
  · exact absurd (List.suffix_nil.mp empty) filled

end Blocks

/-! ## Blocks of a text -/

/-- A block begins at a place of a text. -/
def BlockAt (text : List Char) (place : Nat) (label inner : List Char) : Prop :=
  ∃ rest, Block (text.drop place) label inner rest

/-- A place of a text outside its blocks, when the text is read from its beginning: a
block goes on to the first end marker of its label, whatever begins inside it. -/
inductive Outside (text : List Char) : Nat → Prop
  | start : Outside text 0
  | step {place : Nat} (outside : Outside text place)
      (absent : ∀ label inner, ¬ BlockAt text place label inner) :
        Outside text (place + 1)
  | behind {place : Nat} {label inner : List Char} (outside : Outside text place)
      (block : BlockAt text place label inner) :
      Outside text (place + (blockText label inner).length)

/-- A block of a text that begins inside no other. -/
def Stands (text label inner : List Char) : Prop :=
  ∃ place, Outside text place ∧ BlockAt text place label inner

section Stands

variable {text label inner : List Char} {place : Nat}

theorem BlockAt.blocks_eq (block : BlockAt text place label inner) :
    blocks (text.drop place) = (label, blockText label inner) ::
      blocks (text.drop (place + (blockText label inner).length)) := by
  obtain ⟨rest, block⟩ := block
  have behind : (text.drop place).drop (blockText label inner).length = rest := by
    rw [block.text_eq, List.drop_left]
  rw [blocks_block block, ← List.drop_drop, behind]

theorem blocks_drop_succ (absent : ∀ label inner, ¬ BlockAt text place label inner) :
    blocks (text.drop place) = blocks (text.drop (place + 1)) := by
  cases split : text.drop place with
  | nil =>
      rw [← List.drop_drop, split]
      rfl
  | cons char tail =>
      have later : text.drop (place + 1) = tail := by
        rw [← List.drop_drop, split]
        rfl
      rw [later]
      refine blocks_skip fun label inner rest block => absent label inner ⟨rest, ?_⟩
      rwa [split]

/-- What the pattern finds from such a place on it finds in the text. -/
theorem Outside.blocks_subset (outside : Outside text place) :
    blocks (text.drop place) ⊆ blocks text := by
  induction outside with
  | start => exact List.Subset.refl _
  | step outside absent inductionHypothesis =>
      rwa [← blocks_drop_succ absent]
  | behind outside block inductionHypothesis =>
      rw [block.blocks_eq] at inductionHypothesis
      exact fun match_ member => inductionHypothesis (List.mem_cons_of_mem _ member)

theorem Outside.stands {match_ : List Char × List Char} (outside : Outside text place)
    (member : match_ ∈ blocks (text.drop place)) :
    ∃ inner, Stands text match_.1 inner ∧ match_.2 = blockText match_.1 inner := by
  induction left : text.length -
    place using Nat.strong_induction_on generalizing place with
  | _ left_ inductionHypothesis =>
      subst left
      have within : place < text.length := by
        by_contra past
        rw [List.drop_of_length_le (by omega)] at member
        cases member
      by_cases begins : ∃ label inner, BlockAt text place label inner
      · obtain ⟨label, inner, block⟩ := begins
        rw [block.blocks_eq] at member
        rcases List.mem_cons.mp member with rfl | member
        · exact ⟨inner, ⟨place, outside, block⟩, rfl⟩
        · have some_ := List.length_pos_iff.mpr (blockText_ne_nil label inner)
          exact inductionHypothesis _ (by omega) (outside.behind block) member rfl
      · have absent : ∀ label inner, ¬ BlockAt text place label inner :=
          fun label inner block => begins ⟨label, inner, block⟩
        rw [blocks_drop_succ absent] at member
        exact inductionHypothesis _ (by omega) (outside.step absent) member rfl

/-- The pattern finds the blocks that begin inside no other. -/
theorem mem_blocks_iff {match_ : List Char × List Char} : match_ ∈ blocks text ↔
    ∃ inner, Stands text match_.1 inner ∧ match_.2 = blockText match_.1 inner := by
  constructor
  · exact fun member => Outside.start.stands member
  · rintro ⟨inner, ⟨place, outside, block⟩, same⟩
    apply outside.blocks_subset
    rw [block.blocks_eq, ← same]
    exact List.mem_cons_self

theorem blockText_injective (label : List Char) :
    Function.Injective (blockText label) := by
  intro inner other same
  rw [blockText, blockText, List.append_cancel_left_eq,
    List.append_cancel_right_eq] at same
  exact same

theorem stands_iff :
    Stands text label inner ↔ (label, blockText label inner) ∈ blocks text := by
  rw [mem_blocks_iff]
  constructor
  · exact fun stands => ⟨inner, stands, rfl⟩
  · rintro ⟨other, stands, same⟩
    rwa [blockText_injective label same]

theorem BlockAt.inner_eq {label' inner' : List Char}
    (block : BlockAt text place label inner)
    (block' : BlockAt text place label' inner') :
    blockText label inner = blockText label' inner' := by
  have same := block.blocks_eq
  rw [block'.blocks_eq] at same
  exact (congrArg Prod.snd (List.cons.inj same).1).symm

/-- A block that begins outside the others ends before any later place outside. -/
theorem Outside.passed {before : Nat} (outside : Outside text place)
    (outside' : Outside text before) (block : BlockAt text before label inner)
    (early : before < place) : before + (blockText label inner).length ≤ place := by
  induction place using Nat.strong_induction_on generalizing before label inner with
  | _ place inductionHypothesis =>
      cases outside with
      | start => omega
      | @step last outside absent =>
          rcases Nat.lt_or_eq_of_le (Nat.le_of_lt_succ early) with earlier | rfl
          · have passed :=
              inductionHypothesis last (Nat.lt_succ_self _) outside outside' block earlier
            omega
          · exact absurd block (absent label inner)
      | @behind last label' inner' outside other =>
          have some_ := List.length_pos_iff.mpr (blockText_ne_nil label' inner')
          rcases Nat.lt_trichotomy before last with earlier | rfl | later
          · have passed := inductionHypothesis last
              (by omega) outside outside' block earlier
            omega
          · rw [block.inner_eq other]
          · have passed := inductionHypothesis before early outside' outside other later
            omega

/-- A place is outside the blocks exactly if each block that begins before it and inside
no other ends before it. -/
theorem outside_iff : Outside text place ↔ ∀ before label inner, before < place →
    Outside text before → BlockAt text before label inner →
      before + (blockText label inner).length ≤ place := by
  refine ⟨fun outside before label inner early outside' block =>
    outside.passed outside' block early, fun passed => ?_⟩
  -- from a place outside that is not behind it, the next one is not behind it either
  have reach : ∀ left before, before + left = place → Outside text before →
      Outside text place := by
    intro left
    induction left using Nat.strong_induction_on with
    | _ left inductionHypothesis =>
        rintro before rfl outside
        rcases Nat.eq_zero_or_pos left with rfl | some_
        · exact outside
        · by_cases begins : ∃ label inner, BlockAt text before label inner
          · obtain ⟨label, inner, block⟩ := begins
            have within := passed before label inner (by omega) outside block
            have filled := List.length_pos_iff.mpr (blockText_ne_nil label inner)
            exact inductionHypothesis (left - (blockText label inner).length)
              (by omega) _ (by omega)
              (outside.behind block)
          · have absent : ∀ label inner, ¬ BlockAt text before label inner :=
              fun label inner block => begins ⟨label, inner, block⟩
            exact inductionHypothesis (left - 1) (by omega) _ (by omega)
              (outside.step absent)
  exact reach place 0 (Nat.zero_add _) .start

end Stands

/-! ## Bodies -/

/-- A body without markers, also with the dashes before it. -/
structure Clean (body : List Char) : Prop where
  begins : ¬ "-----BEGIN ".toList <:+: "-----".toList ++ body
  ends : ¬ "-----END ".toList <:+: "-----".toList ++ body

/-- No marker lies on the body. -/
structure Quiet (front body rest : List Char) : Prop where
  begins : ∀ label, IsLabel label → Apart (beginMarker label) front body rest
  ends : ∀ label, IsLabel label → Apart (endMarker label) front body rest

theorem Quiet.suffix {front body rest tail : List Char} (quiet : Quiet front body rest)
    (within : tail <:+ front) : Quiet tail body rest :=
  ⟨fun label isLabel => (quiet.begins label isLabel).suffix within,
    fun label isLabel => (quiet.ends label isLabel).suffix within⟩

theorem Clean.quiet {body label rest back : List Char} (clean : Clean body)
    (isLabel : IsLabel label) (front : List Char)
    (follows : rest <+: endMarker label ++ back) :
    Quiet (front ++ beginMarker label) body rest := by
  obtain ⟨start, last, built⟩ := (List.eq_nil_or_concat label).resolve_left isLabel.filled
  rw [List.concat_eq_append] at built
  have other : last ≠ '-' :=
    not_dash_of_isLabelChar (isLabel.letters last (by simp [built]))
  have shape : front ++ beginMarker label =
      (front ++ (fence '-' 5 ++ ("BEGIN ".toList ++ start))) ++ last :: fence '-' 5 := by
    rw [beginMarker_eq, built]
    simp only [List.append_assoc, List.singleton_append]
  rw [endMarker_eq, List.append_assoc] at follows
  rw [shape]
  constructor
  · intro label' isLabel'
    rw [beginMarker_eq]
    refine apart_of_clean (by decide) (by decide) isLabel'.opened_letters other follows ?_
    rw [← begin_eq, ← dashes_eq]
    exact clean.begins
  · intro label' isLabel'
    rw [endMarker_eq]
    refine apart_of_clean (by decide) (by decide) isLabel'.closed_letters other follows ?_
    rw [← end_eq, ← dashes_eq]
    exact clean.ends

section Around

variable {front body body' rest label inner after : List Char}

/-- No block begins inside the body. -/
theorem Quiet.blocks_body (quiet : Quiet [] body rest) :
    blocks (body ++ rest) = blocks rest := by
  apply blocks_behind
  rintro tail ⟨head, rfl⟩ filled label inner after block
  have lies := quiet.begins label block.isLabel head
    (inner ++ (endMarker label ++ after)) (by
    rw [List.nil_append, List.append_assoc, block.whole])
  have size := List.length_pos_iff.mpr filled
  simp only [beginMarker_eq, List.length_append, List.length_nil, fence_length] at lies
  omega

/-- A block that begins before the body ends before it, or goes on behind it. -/
theorem Block.around (quiet : Quiet front body rest) (filled : front ≠ [])
    (block : Block (front ++ (body ++ rest)) label inner after) :
    (∃ mid, front = blockText label inner ++ mid ∧ after = mid ++ (body ++ rest)) ∨
      ∃ before behind, front = beginMarker label ++ before ∧
        inner = before ++ (body ++ behind) ∧
        rest = behind ++ (endMarker label ++ after) := by
  have opened : beginMarker label <+: front := by
    refine List.prefix_of_prefix_length_le ⟨_,
      block.whole.symm⟩ (List.prefix_append _ _) ?_
    have size := List.length_pos_iff.mpr filled
    rcases quiet.begins label block.isLabel [] _ block.whole with early | late
    · simpa using early
    · rw [List.length_nil] at late
      omega
  obtain ⟨before, rfl⟩ := opened
  have spread := block.whole
  rw [List.append_assoc, List.append_cancel_left_eq] at spread
  have closed := quiet.ends label block.isLabel (beginMarker label ++ inner) after (by
    rw [List.append_assoc, List.append_assoc, spread])
  simp only [List.length_append] at closed
  rcases closed with early | late
  · have within : inner ++ endMarker label <+: before := by
      refine @List.prefix_of_prefix_length_le _ _ _ (before ++ (body ++ rest)) ⟨after, ?_⟩
        (List.prefix_append _ _) ?_
      · rw [List.append_assoc, spread]
      · rw [List.length_append]
        omega
    obtain ⟨mid, rfl⟩ := within
    refine .inl ⟨mid, by simp only [blockText, List.append_assoc], ?_⟩
    simpa only [List.append_assoc, List.append_cancel_left_eq] using spread.symm
  · have within : before ++ body <+: inner := by
      refine @List.prefix_of_prefix_length_le _ _ _ (before ++ (body ++ rest)) ⟨rest, ?_⟩
        ⟨_, spread.symm⟩ ?_
      · rw [List.append_assoc]
      · rw [List.length_append]
        omega
    obtain ⟨behind, rfl⟩ := within
    refine .inr ⟨before, behind, rfl, List.append_assoc _ _ _, ?_⟩
    simpa only [List.append_assoc, List.append_cancel_left_eq] using spread

/-- A block is there whatever follows it. -/
theorem Block.with_rest {text : List Char} (block : Block text label inner rest)
    (rest' : List Char) : Block (blockText label inner ++ rest') label inner rest' where
  isLabel := block.isLabel
  whole := by simp only [blockText, List.append_assoc]
  first := by
    intro before behind whole
    by_contra early
    rw [Nat.not_le] at early
    have within : before ++ endMarker label <+: inner ++ endMarker label := by
      refine @List.prefix_of_prefix_length_le _ _ _ (inner ++ (endMarker label ++ rest'))
        ⟨behind, by rw [List.append_assoc, whole]⟩ ⟨rest', List.append_assoc _ _ _⟩ ?_
      simp only [List.length_append]
      omega
    obtain ⟨more, same⟩ := within
    have least := block.first before (more ++ rest) (by
      simp only [← List.append_assoc]
      rw [same])
    omega

/-- A block around the body is there with any other body that no marker lies on. -/
theorem Block.with_body {before behind : List Char}
    (quiet' : Quiet (beginMarker label ++ before) body' rest)
    (split : rest = behind ++ (endMarker label ++ after))
    (block : Block (beginMarker label ++ before ++ (body ++ rest)) label
      (before ++ (body ++ behind)) after) :
    Block (beginMarker label ++ before ++ (body' ++ rest)) label
      (before ++ (body' ++ behind)) after where
  isLabel := block.isLabel
  whole := by simp only [split, List.append_assoc]
  first := by
    intro start behind' whole
    rw [List.append_assoc, List.append_assoc, ← split] at whole
    have lies := quiet'.ends label block.isLabel (beginMarker label ++ start) behind' (by
      rw [List.append_assoc, List.append_assoc, whole])
    simp only [List.length_append] at lies
    rcases lies with early | late
    · have within : start ++ endMarker label <+: before := by
        refine @List.prefix_of_prefix_length_le _ _ _ (before ++ (body' ++ rest))
          ⟨behind', by rw [List.append_assoc, whole]⟩ (List.prefix_append _ _) ?_
        simp only [List.length_append]
        omega
      obtain ⟨more, rfl⟩ := within
      have least := block.first start
        (more ++ (body ++ (behind ++ (endMarker label ++ after)))) (by
        simp only [List.append_assoc])
      simp only [endMarker_eq, List.length_append, fence_length] at least
      omega
    · have within : before ++ body' <+: start := by
        refine @List.prefix_of_prefix_length_le _ _ _ (before ++ (body' ++ rest))
          ⟨rest, List.append_assoc _ _ _⟩ ⟨_, whole.symm⟩ ?_
        simp only [List.length_append]
        omega
      obtain ⟨more, rfl⟩ := within
      rw [List.append_assoc, List.append_assoc, List.append_cancel_left_eq,
        List.append_cancel_left_eq, split] at whole
      have least := block.first (before ++ (body ++ more)) behind' (by
        simp only [List.append_assoc, whole])
      simp only [List.length_append] at least ⊢
      omega

/-- Matches of two texts with two bodies: the same, or around the bodies. -/
inductive Swapped (front body body' rest : List Char) :
    List Char × List Char → List Char × List Char → Prop
  | same (match_) : Swapped front body body' rest match_ match_
  | around (label before behind after) (isLabel : IsLabel label)
      (leads : beginMarker label ++ before <:+ front)
      (follows : rest = behind ++ (endMarker label ++ after))
      (first : ∀ start tail, rest = start ++ (endMarker label ++ tail) →
        behind.length ≤ start.length) :
      Swapped front body body' rest (label, blockText label (before ++ (body ++ behind)))
        (label, blockText label (before ++ (body' ++ behind)))

/-- A block is there with any other body. -/
theorem Quiet.block_swap (quiet : Quiet front body rest) (quiet' : Quiet front body' rest)
    (filled : front ≠ []) (block : Block (front ++ (body ++ rest)) label inner after) :
    ∃ inner after, Block (front ++ (body' ++ rest)) label inner after := by
  rcases block.around quiet filled with ⟨mid, rfl, rfl⟩ | ⟨before, behind, rfl,
    rfl, follows⟩
  · refine ⟨inner, mid ++ (body' ++ rest), ?_⟩
    rw [List.append_assoc]
    exact block.with_rest _
  · exact ⟨before ++ (body' ++ behind), after, block.with_body quiet' follows⟩

/-- What the pattern finds in two texts with two bodies. -/
theorem Quiet.blocks_swapped (quiet : Quiet front body rest)
    (quiet' : Quiet front body' rest)
    {tail : List Char} (within : tail <:+ front) :
    List.Forall₂ (Swapped front body body' rest) (blocks (tail ++ (body ++ rest)))
      (blocks (tail ++ (body' ++ rest))) := by
  have refl : ∀ matches_,
      List.Forall₂ (Swapped front body body' rest) matches_ matches_ :=
    fun matches_ => List.forall₂_same.mpr fun match_ _ => .same match_
  induction size : tail.length using Nat.strong_induction_on generalizing tail with
  | _ size_ inductionHypothesis =>
      subst size
      cases tail with
      | nil =>
          have none := List.nil_suffix (l := front)
          rw [List.nil_append, List.nil_append, (quiet.suffix none).blocks_body,
            (quiet'.suffix none).blocks_body]
          exact refl _
      | cons char tail =>
          have here := quiet.suffix within
          have there := quiet'.suffix within
          by_cases begins : ∃ label inner after,
              Block (char :: tail ++ (body ++ rest)) label inner after
          · obtain ⟨label, inner, after, block⟩ := begins
            rcases block.around here (List.cons_ne_nil _ _) with
              ⟨mid, split, rfl⟩ | ⟨before, behind, split, rfl, follows⟩
            · rw [split, List.append_assoc] at block
              rw [split, List.append_assoc, List.append_assoc, blocks_block block,
                blocks_block (block.with_rest (mid ++ (body' ++ rest)))]
              have shorter : mid.length < (char :: tail).length := by
                have size := congrArg List.length split
                have filled := List.length_pos_iff.mpr (blockText_ne_nil label inner)
                rw [List.length_append] at size
                omega
              have later : mid <:+ front := by
                refine List.IsSuffix.trans ?_ within
                rw [split]
                exact List.suffix_append _ _
              exact .cons (.same _) (inductionHypothesis _ shorter later rfl)
            · rw [split] at block within there ⊢
              rw [blocks_block block, blocks_block (block.with_body there follows)]
              refine .cons (.around label before behind after block.isLabel
                within follows ?_)
                (refl _)
              intro start more whole
              have least := block.first (before ++ (body ++ start)) more (by
                rw [List.append_assoc, List.append_assoc, ← follows, whole]
                simp only [List.append_assoc])
              simp only [List.length_append] at least
              omega
          · have absent : ∀ label inner after,
                ¬ Block (char :: tail ++ (body ++ rest)) label inner after :=
              fun label inner after block => begins ⟨label, inner, after, block⟩
            have absent' : ∀ label inner after,
                ¬ Block (char :: tail ++ (body' ++ rest)) label inner after := by
              intro label inner after block
              obtain ⟨inner, after, block⟩ :=
                there.block_swap here (List.cons_ne_nil _ _) block
              exact absent label inner after block
            rw [List.cons_append] at absent absent'
            rw [List.cons_append, List.cons_append, blocks_skip absent,
              blocks_skip absent']
            exact inductionHypothesis _ (Nat.lt_succ_self _)
              ((List.suffix_cons char tail).trans within) rfl

end Around

/-! ## Blocks of their own -/

/-- `[A-Z0-9 -]`, what markers are made of. -/
def isMarkerChar (char : Char) : Bool := isLabelChar char || char == '-'

/-- A marker may begin behind the text without being part of another. -/
def Ends (front : List Char) : Prop :=
  front = [] ∨ ∃ start last, front = start ++ [last] ∧ isMarkerChar last = false

theorem fenced_chars {word label : List Char} (isLabel : IsLabel label)
    (opening : ∀ char ∈ word, isMarkerChar char = true) :
    ∀ char ∈ fence '-' 5 ++ (word ++ label ++ fence '-' 5), isMarkerChar char = true := by
  have dashes : ∀ char ∈ fence '-' 5, isMarkerChar char = true := by decide
  intro char member
  rw [List.mem_append, List.mem_append, List.mem_append] at member
  rcases member with dash | (letter | inside) | dash
  · exact dashes char dash
  · exact opening char letter
  · rw [isMarkerChar, isLabel.letters char inside]
    rfl
  · exact dashes char dash

theorem beginMarker_chars {label : List Char} (isLabel : IsLabel label) :
    ∀ char ∈ beginMarker label, isMarkerChar char = true := by
  rw [beginMarker_eq]
  exact fenced_chars isLabel (by decide)

theorem endMarker_chars {label : List Char} (isLabel : IsLabel label) :
    ∀ char ∈ endMarker label, isMarkerChar char = true := by
  rw [endMarker_eq]
  exact fenced_chars isLabel (by decide)

theorem Ends.suffix {front mid : List Char} (ends : Ends (front ++ mid)) : Ends mid := by
  rcases ends with empty | ⟨start, last, split, other⟩
  · exact .inl (List.append_eq_nil_iff.mp empty).2
  · rcases List.eq_nil_or_concat mid with rfl | ⟨inner, item, rfl⟩
    · exact .inl rfl
    · rw [List.concat_eq_append] at split ⊢
      rw [← List.append_assoc] at split
      obtain ⟨-, same⟩ := List.append_inj' split rfl
      exact .inr ⟨inner, item, rfl, by rw [List.cons.inj same |>.1]; exact other⟩

section Own

variable {front body rest label other inner after : List Char}

/-- A block with a clean body ends with its own end marker. -/
theorem Clean.block (clean : Clean body) (isLabel : IsLabel label) (rest : List Char) :
    Block (blockText label body ++ rest) label body rest where
  isLabel := isLabel
  whole := by simp only [blockText, List.append_assoc]
  first := by
    intro start tail whole
    have quiet : Quiet ([] ++ beginMarker label) body (endMarker label ++ rest) :=
      clean.quiet isLabel [] List.prefix_rfl
    have lies := quiet.ends label isLabel (beginMarker label ++ start) tail (by
      rw [List.nil_append, List.append_assoc, whole])
    simp only [endMarker_eq, List.length_append, List.length_nil, fence_length] at lies
    omega

/-- An end marker that ends inside such a block is its own. -/
theorem Clean.end_inside (clean : Clean body) (isLabel : IsLabel label)
    (isLabel' : IsLabel other)
    {start tail : List Char}
    (split : blockText label body = start ++ (endMarker other ++ tail)) :
    tail = [] := by
  have quiet : Quiet (beginMarker label) body (endMarker label) :=
    clean.quiet isLabel [] (List.prefix_append _ [])
  rcases quiet.ends other isLabel' start tail split with early | late
  · have within : start ++ endMarker other <+: beginMarker label := by
      refine List.prefix_of_prefix_length_le ⟨tail, ?_⟩
        (⟨_, rfl⟩ : beginMarker label <+: blockText label body) ?_
      · rw [List.append_assoc, split]
      · rwa [List.length_append]
    exact absurd ((List.suffix_append start _).isInfix.trans within.isInfix)
      (endMarker_not_in_begin isLabel isLabel')
  · have within : beginMarker label ++ body <+: start := by
      refine @List.prefix_of_prefix_length_le _ _ _ (blockText label body)
        ⟨endMarker label, ?_⟩
        ⟨_, split.symm⟩ ?_
      · rw [blockText, List.append_assoc]
      · rwa [List.length_append]
    obtain ⟨more, rfl⟩ := within
    rw [blockText, List.append_assoc, List.append_assoc, List.append_cancel_left_eq,
      List.append_cancel_left_eq] at split
    have same := endMarker_in_end isLabel isLabel' ⟨more,
      tail, by rw [split, List.append_assoc]⟩
    have size := congrArg List.length split
    rw [same, List.length_append, List.length_append] at size
    exact List.eq_nil_of_length_eq_zero (by omega)

/-- A match that ends behind the beginning of such a block ends behind the block. -/
theorem Clean.inside (clean : Clean body) (isLabel : IsLabel label)
    (isLabel' : IsLabel other)
    (ends : Ends front) (filled : front ≠ []) {mid : List Char}
    (split : blockText other inner = front ++ mid)
    (goes : blockText label body ++ rest = mid ++ after) :
    blockText label body <+: mid := by
  rcases List.append_eq_append_iff.mp goes with ⟨more, rfl, -⟩ | ⟨tail, whole, -⟩
  · exact List.prefix_append _ _
  · suffices nothing : tail = [] by
      rw [whole, nothing, List.append_nil]
    obtain ⟨start, last, rfl, unmarked⟩ := ends.resolve_left filled
    rw [blockText, ← List.append_assoc] at split
    rcases List.append_eq_append_iff.mp split with ⟨more, front_,
      marker⟩ | ⟨more, -, marker⟩
    · rcases List.eq_nil_or_concat more with rfl | ⟨init, item, rfl⟩
      · rw [List.nil_append] at marker
        rw [← marker, ← List.nil_append (endMarker other ++ tail)] at whole
        exact clean.end_inside isLabel isLabel' whole
      · rw [List.concat_eq_append, ← List.append_assoc] at front_
        obtain ⟨-, same⟩ := List.append_inj' front_ rfl
        have member : last ∈ endMarker other := by
          rw [marker, List.concat_eq_append, ← same]
          simp
        rw [endMarker_chars isLabel' last member] at unmarked
        cases unmarked
    · rw [marker, List.append_assoc] at whole
      exact clean.end_inside isLabel isLabel' whole

/-- A block with a clean body is part of a match. -/
theorem Clean.covered (clean : Clean body) (isLabel : IsLabel label) (ends : Ends front)
    (rest : List Char) :
    ∃ match_ ∈ blocks (front ++ (blockText label body ++ rest)),
      blockText label body <:+: match_.2 := by
  induction size : front.length using Nat.strong_induction_on generalizing front with
  | _ size_ inductionHypothesis =>
      subst size
      cases front with
      | nil =>
          rw [List.nil_append, blocks_block (clean.block isLabel rest)]
          exact ⟨_, List.mem_cons_self, List.infix_rfl⟩
      | cons char front =>
          by_cases begins : ∃ other inner after,
              Block (char :: front ++ (blockText label body ++ rest)) other inner after
          · obtain ⟨other, inner, after, block⟩ := begins
            rw [blocks_block block]
            rcases List.append_eq_append_iff.mp block.text_eq with
              ⟨mid, split, goes⟩ | ⟨mid, split, goes⟩
            · have inside :=
                clean.inside isLabel block.isLabel ends (List.cons_ne_nil _ _) split goes
              refine ⟨_, List.mem_cons_self, ?_⟩
              rw [split]
              exact inside.isInfix.trans (List.suffix_append _ _).isInfix
            · have shorter : mid.length < (char :: front).length := by
                have size := congrArg List.length split
                have filled := List.length_pos_iff.mpr (blockText_ne_nil other inner)
                rw [List.length_append] at size
                omega
              rw [split] at ends
              obtain ⟨match_, member, inside⟩ :=
                inductionHypothesis _ shorter ends.suffix rfl
              rw [goes]
              exact ⟨match_, List.mem_cons_of_mem _ member, inside⟩
          · have absent : ∀ other inner after,
                ¬ Block (char :: front ++ (blockText label body ++ rest)) other
                  inner after :=
              fun other inner after block => begins ⟨other, inner, after, block⟩
            have later : Ends front := Ends.suffix (show Ends ([char] ++ front) from ends)
            rw [List.cons_append] at absent
            rw [List.cons_append, blocks_skip absent]
            exact inductionHypothesis _ (Nat.lt_succ_self _) later rfl

end Own

end FsDbCrypto
end Probes
end PqcScan
