import Mathlib.Data.List.TakeWhile
import Mathlib.Algebra.GroupWithZero.Nat

/-!
# Patterns

Regular expressions that are read from left to right, piece by piece, and the matches of a
pattern in a text.  A piece takes as much as it can; this is what a backtracking search
finds where a piece never takes what a later one needs.
-/

namespace PqcScan
namespace Library

variable {α γ δ : Type}

/-! ## Pieces -/

/-- A piece of a pattern: an item of a class, any number of them, or at most one. -/
inductive Piece (α : Type)
  | one (member : α → Bool)
  | many (member : α → Bool)
  | maybe (member : α → Bool)

namespace Piece

/-- The class of the piece. -/
def accepts : Piece α → α → Bool
  | one member => member
  | many member => member
  | maybe member => member

/-- How many items the piece takes from the head of a text. -/
def width : Piece α → List α → Option Nat
  | one _, [] => none
  | one member, item :: _ => if member item then some 1 else none
  | many member, text => some (text.takeWhile member).length
  | maybe _, [] => some 0
  | maybe member, item :: _ => some (if member item then 1 else 0)

/-- A piece does not read past an item that it refuses. -/
theorem width_refused {piece : Piece α} {stop : α} (refused : piece.accepts stop = false)
    (text rest : List α) : piece.width (text ++ stop :: rest) = piece.width text := by
  cases piece with
  | one member =>
      cases text with
      | nil => simp_all [width, accepts]
      | cons item text => rfl
  | many member =>
      rw [accepts] at refused
      have ends : (text ++ stop :: rest).takeWhile member = text.takeWhile member := by
        induction text with
        | nil => simp [refused]
        | cons item text inductionHypothesis =>
            rw [List.cons_append, List.takeWhile_cons, List.takeWhile_cons,
              inductionHypothesis]
      rw [width, width, ends]
  | maybe member =>
      cases text with
      | nil => simp_all [width, accepts]
      | cons item text => rfl

theorem width_le {piece : Piece α} {text : List α} {count : Nat}
    (taken : piece.width text = some count) : count ≤ text.length := by
  cases piece with
  | one member =>
      cases text with
      | nil => cases taken
      | cons item text =>
          simp only [width, Option.ite_none_right_eq_some, Option.some.injEq] at taken
          simp [← taken.2]
  | many member =>
      cases taken
      exact (List.takeWhile_sublist member).length_le
  | maybe member =>
      cases text with
      | nil =>
          cases taken
          exact Nat.le_refl _
      | cons item text =>
          cases taken
          rw [List.length_cons]
          split <;> omega

end Piece

/-- How many items each piece of a pattern takes, one after the other. -/
def widths : List (Piece α) → List α → Option (List Nat)
  | [], _ => some []
  | piece :: pieces, text => do
      let count ← piece.width text
      let counts ← widths pieces (text.drop count)
      pure (count :: counts)

theorem widths_le {pieces : List (Piece α)} {text : List α} {counts : List Nat}
    (taken : widths pieces text = some counts) : counts.sum ≤ text.length := by
  induction pieces generalizing text counts with
  | nil =>
      cases taken
      exact Nat.zero_le _
  | cons piece pieces inductionHypothesis =>
      obtain ⟨count, here, read⟩ := Option.bind_eq_some_iff.mp taken
      obtain ⟨others, remaining, built⟩ := Option.bind_eq_some_iff.mp read
      cases built
      have within := Piece.width_le here
      have sum := inductionHypothesis remaining
      rw [List.length_drop] at sum
      rw [List.sum_cons]
      omega

/-! ## Texts in parts -/

/-- In the ends of a text the pattern takes what it takes if nothing follows. -/
def Parts (pieces : List (Piece α)) (text rest : List α) : Prop :=
  ∀ tail, tail <:+ text → widths pieces (tail ++ rest) = widths pieces tail

section Parts

variable {pieces : List (Piece α)} {text rest : List α} {sep : α}

theorem drop_length_takeWhile (member : α → Bool) (text : List α) :
    text.drop (text.takeWhile member).length = text.dropWhile member := by
  induction text with
  | nil => rfl
  | cons item text inductionHypothesis =>
      rw [List.takeWhile_cons, List.dropWhile_cons]
      split
      · exact inductionHypothesis
      · rfl

theorem parts_nil : Parts [] text rest := fun _ _ => rfl

theorem widths_cons_of_width {piece : Piece α} {tail : List α}
    (same : piece.width (tail ++ rest) = piece.width tail) (within : tail <:+ text)
    (later : Parts pieces text rest) :
    widths (piece :: pieces) (tail ++ rest) = widths (piece :: pieces) tail := by
  rw [widths, widths, same]
  cases taken : piece.width tail with
  | none => rfl
  | some count =>
      simp only [Option.bind_eq_bind, Option.bind_some]
      rw [List.drop_append_of_le_length (Piece.width_le taken),
        later _ ((List.drop_suffix _ _).trans within)]

/-- A piece that refuses what separates the parts. -/
theorem Parts.refused {piece : Piece α} (refused : piece.accepts sep = false)
    (later : Parts pieces text (sep :: rest)) :
    Parts (piece :: pieces) text (sep :: rest) := by
  intro tail within
  exact widths_cons_of_width (Piece.width_refused refused tail rest) within later

theorem Parts.refused_append {front : List (Piece α)}
    (refused : ∀ piece ∈ front, piece.accepts sep = false)
    (later : Parts pieces text (sep :: rest)) :
    Parts (front ++ pieces) text (sep :: rest) := by
  induction front with
  | nil => exact later
  | cons piece front inductionHypothesis =>
      rw [List.forall_mem_cons] at refused
      exact (inductionHypothesis refused.2).refused refused.1

/-- A piece that takes what separates the parts, but after it the pattern fails. -/
theorem Parts.one {member : α → Bool} (fails : widths pieces rest = none)
    (later : Parts pieces text (sep :: rest)) :
    Parts (.one member :: pieces) text (sep :: rest) := by
  intro tail within
  cases tail with
  | nil =>
      rw [List.nil_append, widths, Piece.width]
      split
      · simp [fails, widths, Piece.width]
      · rfl
  | cons item tail => exact widths_cons_of_width rfl within later

theorem widths_one_eq_none {member : α → Bool} (fails : text.head?.any member = false) :
    widths (.one member :: pieces) text = none := by
  cases text with
  | nil => rfl
  | cons item text =>
      rw [List.head?_cons, Option.any_some] at fails
      rw [widths, Piece.width, fails]
      rfl

theorem widths_many_eq_none {member : α → Bool}
    (fails : widths pieces (text.dropWhile member) = none) :
    widths (.many member :: pieces) text = none := by
  rw [widths, Piece.width]
  simp only [Option.bind_eq_bind, Option.bind_some]
  rw [drop_length_takeWhile, fails]
  rfl

/-- A run ends at an item that is outside the class, whatever follows. -/
theorem takeWhile_append_of_exists {member : α → Bool} {run : List α}
    (ends : ∃ item ∈ run, member item = false) (more : List α) :
    (run ++ more).takeWhile member = run.takeWhile member := by
  rw [List.takeWhile_append, if_neg]
  intro whole
  obtain ⟨item, inside, outside⟩ := ends
  rw [← (List.takeWhile_prefix member).eq_of_length whole] at inside
  rw [List.all_eq_true.mp List.all_takeWhile item inside] at outside
  cases outside

/-- In the ends of a text that follow a word the pattern takes what it
takes if nothing follows. -/
def PartsBehind (word : List α) (pieces : List (Piece α)) (text rest : List α) : Prop :=
  ∀ tail, word ++ tail <:+ text → widths pieces (tail ++ rest) = widths pieces tail

/-- A word that lies before the end of a text, with nothing but a run behind it. -/
def RunsOut (member : α → Bool) (word text : List α) : Prop :=
  ∃ run, (∀ item ∈ run, member item = true) ∧ word ++ run <:+ text

/-- A repetition behind a word: if it can run on over what separates the parts, the
pattern fails after it. -/
theorem PartsBehind.many {member : α → Bool} {word : List α}
    (accepted : member sep = true)
    (fails : RunsOut member word text → widths pieces (rest.dropWhile member) = none)
    (nothing : widths pieces [] = none) (later : Parts pieces text (sep :: rest)) :
    PartsBehind word (.many member :: pieces) text (sep :: rest) := by
  intro tail within
  by_cases all : ∀ item ∈ tail, member item = true
  · have through : widths (.many member :: pieces) (tail ++ sep :: rest) = none := by
      apply widths_many_eq_none
      rw [List.dropWhile_append_of_pos all, List.dropWhile_cons_of_pos accepted,
        fails ⟨tail, all, within⟩]
    have alone : widths (.many member :: pieces) tail = none := by
      apply widths_many_eq_none
      rw [List.dropWhile_eq_nil_iff.mpr all, nothing]
    rw [through, alone]
  · obtain ⟨item, inside, outside⟩ := not_forall₂.mp all
    have ends := takeWhile_append_of_exists
      ⟨item, inside, Bool.eq_false_iff.mpr outside⟩ (sep :: rest)
    have same : (Piece.many member).width (tail ++ sep :: rest) =
        (Piece.many member).width tail := by
      rw [Piece.width, Piece.width, ends]
    exact widths_cons_of_width same ((List.suffix_append word tail).trans within) later

/-- A repetition of at least one item behind a word. -/
theorem PartsBehind.some {member : α → Bool} {word : List α}
    (accepted : member sep = true)
    (fails : RunsOut member word text → widths pieces (rest.dropWhile member) = none)
    (nothing : widths pieces [] = none) (later : Parts pieces text (sep :: rest)) :
    PartsBehind word (.one member :: .many member :: pieces) text (sep :: rest) := by
  intro tail within
  cases tail with
  | nil =>
      have ends : RunsOut member word text := ⟨[], nofun, within⟩
      have through : widths (.many member :: pieces) rest = none :=
        widths_many_eq_none (fails ends)
      rw [List.nil_append, widths, Piece.width, if_pos accepted]
      simp only [Option.bind_eq_bind, Option.bind_some, List.drop_succ_cons,
        List.drop_zero, through]
      rfl
  | cons item run =>
      rw [List.cons_append, widths, widths, Piece.width, Piece.width]
      by_cases taken : member item = true
      · have behind : PartsBehind (word ++ [item]) (.many member :: pieces) text
            (sep :: rest) := by
          refine PartsBehind.many accepted ?_ nothing later
          rintro ⟨more, all, inside⟩
          rw [List.append_assoc] at inside
          exact fails ⟨item :: more, List.forall_mem_cons.mpr ⟨taken, all⟩, inside⟩
        have same := behind run (by rwa [List.append_assoc])
        simp only [if_pos taken, Option.bind_eq_bind, Option.bind_some,
          List.drop_succ_cons, List.drop_zero, same]
      · rw [if_neg taken]
        rfl

/-- A word without what separates the parts. -/
theorem PartsBehind.word [BEq α] [LawfulBEq α] {front word : List α} (plain : sep ∉ word)
    (later : PartsBehind (front ++ word) pieces text (sep :: rest)) :
    PartsBehind front (word.map (fun letter => .one (· == letter)) ++ pieces) text
      (sep :: rest) := by
  induction word generalizing front with
  | nil => rwa [List.append_nil] at later
  | cons letter word inductionHypothesis =>
      rw [List.mem_cons, not_or] at plain
      have spelled : PartsBehind (front ++ [letter]) (word.map (fun letter =>
          .one (· == letter)) ++ pieces) text (sep :: rest) := by
        apply inductionHypothesis plain.2
        rwa [List.append_assoc]
      intro tail within
      cases tail with
      | nil => simp [widths, Piece.width, plain.1]
      | cons item tail =>
          rw [List.map_cons, List.cons_append, List.cons_append, widths, widths,
            Piece.width, Piece.width]
          by_cases same : item = letter
          · subst same
            have read := spelled tail (by rwa [List.append_assoc])
            simp only [beq_self_eq_true, if_pos, Option.bind_eq_bind, Option.bind_some,
              List.drop_succ_cons, List.drop_zero, read]
          · rw [beq_false_of_ne same, if_neg Bool.false_ne_true]
            rfl

/-- A word at the head of the pattern. -/
theorem Parts.word [BEq α] [LawfulBEq α] {word : List α} (plain : sep ∉ word)
    (later : PartsBehind word pieces text (sep :: rest)) :
    Parts (word.map (fun letter => .one (· == letter)) ++ pieces) text (sep :: rest) :=
  @PartsBehind.word α pieces text rest sep _ _ [] word plain later

/-- A repetition that runs on over what separates the parts, but
after it the pattern fails. -/
theorem Parts.many {member : α → Bool} (accepted : member sep = true)
    (fails : widths pieces (rest.dropWhile member) = none)
    (nothing : widths pieces [] = none)
    (later : Parts pieces text (sep :: rest)) :
    Parts (.many member :: pieces) text (sep :: rest) :=
  @PartsBehind.many α pieces text rest sep member [] accepted (fun _ =>
    fails) nothing later

/-- A pattern does not read past an item that its pieces refuse. -/
theorem widths_refused (refused : ∀ piece ∈ pieces, piece.accepts sep = false)
    (text rest : List α) :
    widths pieces (text ++ sep :: rest) = widths pieces text := by
  have parts := Parts.refused_append refused (@parts_nil _ text (sep :: rest))
  rw [List.append_nil] at parts
  exact parts text List.suffix_rfl

end Parts

/-! ## Matches in a text -/

/-- A match: its place, its length, and what it captures. -/
structure Found (γ : Type) where
  start : Nat
  length : Nat
  detail : γ
  deriving DecidableEq

namespace Found

/-- The match in a text that is longer at the front. -/
def shift (offset : Nat) (found : Found γ) : Found γ :=
  { found with start := offset + found.start }

@[simp] theorem shift_detail (offset : Nat) (found : Found γ) :
    (found.shift offset).detail = found.detail := rfl

@[simp] theorem shift_start (offset : Nat) (found : Found γ) :
    (found.shift offset).start = offset + found.start := rfl

end Found

/-- What a pattern that takes at least one item matches at the head of a text: the length
and the captures, given the item before the text. -/
abbrev Matcher (α γ : Type) := Option α → List α → Option (Nat × γ)

namespace Matcher

/-- The matches from a place on that is `skip` items ahead, each
behind the one before it. -/
def from_ (matcher : Matcher α γ) : Option α → Nat → Nat → List α → List (Found γ)
  | _, _, _, [] => []
  | _, place, skip + 1, item :: text => from_ matcher (some item) (place + 1) skip text
  | before, place, 0, item :: text =>
      match matcher before (item :: text) with
      | some (length, detail) =>
          ⟨place, length, detail⟩ ::
            from_ matcher (some item) (place + 1) (length - 1) text
      | none => from_ matcher (some item) (place + 1) 0 text

/-- `finditer`. -/
def finditer (matcher : Matcher α γ) (text : List α) : List (Found γ) :=
  matcher.from_ none 0 0 text

/-- `search`. -/
def search (matcher : Matcher α γ) (text : List α) : Option (Found γ) :=
  (matcher.finditer text).head?

variable {matcher : Matcher α γ}

theorem of_mem_from_ {before : Option α} {place skip : Nat} {text : List α}
    {found : Found γ}
    (member : found ∈ matcher.from_ before place skip text) :
    place ≤ found.start ∧ found.start - place < text.length ∧ ∃ before,
      matcher before (text.drop (found.start - place)) =
        some (found.length, found.detail) := by
  induction text generalizing before place skip with
  | nil => cases member
  | cons item text inductionHypothesis =>
      have later : ∀ skip, found ∈ matcher.from_ (some item) (place + 1) skip text →
          place ≤ found.start ∧ found.start - place < (item :: text).length ∧ ∃ before,
            matcher before ((item :: text).drop (found.start - place)) =
              some (found.length, found.detail) := by
        intro skip member
        obtain ⟨behind, within, before, taken⟩ := inductionHypothesis member
        obtain ⟨gap, distance⟩ : ∃ gap, found.start - place = gap + 1 :=
          ⟨found.start - place - 1, by omega⟩
        have less : found.start - (place + 1) = gap := by omega
        rw [less] at within taken
        rw [distance, List.drop_succ_cons, List.length_cons]
        exact ⟨by omega, by omega, before, taken⟩
      cases skip with
      | succ skip => exact later skip member
      | zero =>
          rw [from_] at member
          cases taken : matcher before (item :: text) with
          | none =>
              rw [taken] at member
              exact later 0 member
          | some match_ =>
              rw [taken] at member
              rcases List.mem_cons.mp member with rfl | behind
              · simp only [Nat.sub_self, List.drop_zero, List.length_cons]
                exact ⟨Nat.le_refl place, Nat.zero_lt_succ _, before, taken⟩
              · exact later _ behind

/-- A match lies in the text at its place. -/
theorem of_mem_finditer {text : List α} {found : Found γ}
    (member : found ∈ matcher.finditer text) :
    found.start < text.length ∧ ∃ before,
      matcher before (text.drop found.start) = some (found.length, found.detail) := by
  obtain ⟨-, within, taken⟩ := of_mem_from_ member
  rw [Nat.sub_zero] at within taken
  exact ⟨within, taken⟩

theorem from_shift (before : Option α) (offset place skip : Nat) (text : List α) :
    matcher.from_ before (offset + place) skip text =
      (matcher.from_ before place skip text).map (Found.shift offset) := by
  induction text generalizing before place skip with
  | nil => simp [from_]
  | cons item text inductionHypothesis =>
      cases skip with
      | succ skip =>
          rw [from_, from_, Nat.add_assoc, inductionHypothesis]
      | zero =>
          rw [from_, from_]
          cases matcher before (item :: text) with
          | none => simp only [Nat.add_assoc, inductionHypothesis]
          | some found =>
              simp only [Nat.add_assoc, inductionHypothesis, List.map_cons]
              rfl

/-- Only the first item of a text sees what comes before it. -/
theorem from_before {first second : Option α}
    (same : ∀ text, matcher first text = matcher second text) (place : Nat)
    (text : List α) :
    matcher.from_ first place 0 text = matcher.from_ second place 0 text := by
  cases text with
  | nil => rfl
  | cons item text => rw [from_, from_, same]

/-- A text that no match starts in is passed over. -/
theorem from_gap {gap : List α} (silent : ∀ before, ∀ item ∈ gap, ∀ text,
    matcher before (item :: text) = none) (before : Option α) (place :
    Nat) (text : List α) :
    matcher.from_ before place 0 (gap ++ text) =
      matcher.from_ (gap.getLast?.or before) (place + gap.length) 0 text := by
  induction gap generalizing before place with
  | nil => rfl
  | cons item gap inductionHypothesis =>
      have later := inductionHypothesis fun before other member =>
        silent before other (List.mem_cons_of_mem _ member)
      have last : (item :: gap).getLast?.or before = gap.getLast?.or (some item) := by
        rw [List.getLast?_cons]
        cases gap.getLast? <;> rfl
      rw [List.cons_append, from_, silent before item List.mem_cons_self, last,
        List.length_cons, Nat.add_comm gap.length, ← Nat.add_assoc]
      exact later (some item) (place + 1)

/-- No match reads past the item. -/
structure StopsAt (matcher : Matcher α γ) (stop : α) : Prop where
  same : ∀ before text rest,
    matcher before (text ++ stop :: rest) = matcher before (text ++ [stop])
  short : ∀ before text rest found,
    matcher before (text ++ stop :: rest) = some found → found.1 ≤ text.length

/-- The front of a text is matched as if nothing followed it. -/
def Splits (matcher : Matcher α γ) (front rest : List α) : Prop :=
  ∀ before tail, tail ≠ [] → tail <:+ front →
    matcher before (tail ++ rest) = matcher before tail ∧
    ∀ found, matcher before tail = some found → found.1 ≤ tail.length

/-- Behind a front that is matched as if nothing followed it the search starts anew. -/
theorem from_split {front rest : List α} (splits : matcher.Splits front rest)
    (before : Option α) (place skip : Nat) (within : skip ≤ front.length) :
    matcher.from_ before place skip
      (front ++ rest) = matcher.from_ before place skip front ++
      matcher.from_ (front.getLast?.or before) (place + front.length) 0 rest := by
  induction front generalizing before place skip with
  | nil =>
      obtain rfl : skip = 0 := Nat.le_zero.mp within
      rfl
  | cons item front inductionHypothesis =>
      have later := inductionHypothesis fun before tail filled within =>
        splits before tail filled (within.trans (List.suffix_cons item front))
      have last : (item :: front).getLast?.or before = front.getLast?.or (some item) := by
        rw [List.getLast?_cons]
        cases front.getLast? <;> rfl
      have places : place + (item :: front).length = place + 1 + front.length := by
        rw [List.length_cons]
        omega
      rw [last, places]
      cases skip with
      | succ skip => exact later _ _ _ (Nat.le_of_succ_le_succ within)
      | zero =>
          obtain ⟨same, short⟩ := splits before (item :: front) (List.cons_ne_nil _ _)
            List.suffix_rfl
          rw [List.cons_append] at same
          rw [List.cons_append, from_, from_, same]
          cases taken : matcher before (item :: front) with
          | none => exact later _ _ _ (Nat.zero_le _)
          | some found =>
              have length := short found taken
              rw [List.length_cons] at length
              have behind := later (some item) (place + 1) (found.1 - 1) (by omega)
              simp only [behind, List.cons_append]

theorem StopsAt.splits {stop : α} (stops : matcher.StopsAt stop) (front rest : List α) :
    matcher.Splits (front ++ [stop]) rest := by
  intro before tail filled within
  obtain ⟨inner, rfl⟩ : ∃ inner, tail = inner ++ [stop] := by
    rw [List.suffix_concat_iff] at within
    rcases within with rfl | ⟨inner, rfl, -⟩
    · exact absurd rfl filled
    · exact ⟨inner, rfl⟩
  have same := stops.same before inner rest
  rw [List.append_assoc, List.singleton_append]
  refine ⟨same, fun found taken => ?_⟩
  rw [List.length_append]
  exact Nat.le_trans (stops.short before inner rest found (same.trans taken))
    (Nat.le_add_right _ _)

/-- The matches of a text and of what follows its last item, which no match reads past. -/
theorem finditer_stop {stop : α} (stops : matcher.StopsAt stop)
    (fresh : ∀ text, matcher (some stop) text = matcher none text) (front rest : List α) :
    matcher.finditer (front ++ [stop] ++ rest) =
      matcher.finditer (front ++ [stop]) ++
        (matcher.finditer rest).map (Found.shift (front ++ [stop]).length) := by
  have last : (front ++ [stop]).getLast?.or none = some stop := by
    rw [List.getLast?_concat]
    rfl
  rw [finditer, from_split (stops.splits front rest) none 0 0 (Nat.zero_le _), last,
    from_before fresh, finditer, finditer, ← from_shift, Nat.zero_add, Nat.add_zero]

/-- The matches of a text behind a gap that none starts in. -/
theorem finditer_gap {gap : List α} (silent : ∀ before, ∀ item ∈ gap, ∀ text,
    matcher before (item :: text) = none)
    (fresh : ∀ item ∈ gap, ∀ text, matcher (some item) text = matcher none text)
    (text : List α) :
    matcher.finditer (gap ++ text) = (matcher.finditer text).map
      (Found.shift gap.length) := by
  rw [finditer, from_gap silent, finditer, ← from_shift]
  have last : ∀ text, matcher (gap.getLast?.or none) text = matcher none text := by
    intro text
    cases ends : gap.getLast? with
    | none => rfl
    | some item => exact fresh item (List.mem_of_getLast? ends) text
  rw [from_before last, Nat.zero_add, Nat.add_zero]

/-! ## Matchers that do not look back -/

/-- The matcher does not look at what comes before. -/
def Blind (matcher : Matcher α γ) : Prop :=
  ∀ before text, matcher before text = matcher none text

/-- Behind a match the search starts anew. -/
theorem Blind.from_skip (blind : matcher.Blind) (before : Option α) (place skip : Nat)
    (text : List α) : matcher.from_ before place skip text =
      (matcher.finditer (text.drop skip)).map (Found.shift (place + skip)) := by
  induction text generalizing before place skip with
  | nil => simp [from_, finditer]
  | cons item text inductionHypothesis =>
      cases skip with
      | zero =>
          rw [List.drop_zero, finditer, ← from_shift,
            from_before fun text => (blind before text).trans (blind none text).symm]
          rfl
      | succ skip =>
          rw [from_, inductionHypothesis, List.drop_succ_cons, Nat.add_assoc,
            Nat.add_comm 1]

theorem Blind.finditer_cons (blind : matcher.Blind) {item : α} {text : List α}
    {length : Nat}
    {detail : γ} (taken : matcher none (item :: text) = some (length + 1, detail)) :
    matcher.finditer (item :: text) = ⟨0, length + 1, detail⟩ ::
      (matcher.finditer (text.drop length)).map (Found.shift (length + 1)) := by
  rw [finditer, from_, taken]
  simp only [Nat.add_sub_cancel]
  rw [blind.from_skip, Nat.zero_add, Nat.add_comm 1]

/-- Where no match starts the search goes on. -/
theorem Blind.finditer_behind (blind : matcher.Blind) {front text : List α}
    (silent : ∀ tail, tail <:+ front → tail ≠ [] → matcher none (tail ++ text) = none) :
    matcher.finditer (front ++ text) =
      (matcher.finditer text).map (Found.shift front.length) := by
  induction front with
  | nil =>
      have same : (Found.shift 0 : Found γ → Found γ) = id := by
        funext found
        simp [Found.shift]
      rw [List.nil_append, List.length_nil, same, List.map_id]
  | cons item front inductionHypothesis =>
      have here := silent (item :: front) List.suffix_rfl (List.cons_ne_nil _ _)
      have later := inductionHypothesis fun tail within =>
        silent tail (within.trans (List.suffix_cons item front))
      rw [List.cons_append] at here
      rw [List.cons_append, finditer, from_, here]
      simp only
      rw [blind.from_skip, List.drop_zero, later, List.map_map, List.length_cons]
      congr 1
      funext found
      simp [Found.shift]
      omega

/-! ## Matchers of pieces -/

/-- The first of several matchers that matches. -/
def first (matchers : List (Matcher α γ)) : Matcher α γ :=
  fun before text => matchers.findSome? fun matcher => matcher before text

theorem StopsAt.first {matchers : List (Matcher α γ)} {stop : α}
    (stops : ∀ matcher ∈ matchers, matcher.StopsAt stop) :
    (first matchers).StopsAt stop where
  same := by
    intro before text rest
    induction matchers with
    | nil => rfl
    | cons matcher matchers inductionHypothesis =>
        rw [List.forall_mem_cons] at stops
        rw [Matcher.first, Matcher.first, List.findSome?_cons, List.findSome?_cons,
          stops.1.same before text rest]
        cases matcher before (text ++ [stop]) with
        | none => exact inductionHypothesis stops.2
        | some found => rfl
  short := by
    intro before text rest found taken
    obtain ⟨matcher, member, taken⟩ := List.exists_of_findSome?_eq_some taken
    exact (stops matcher member).short before text rest found taken

/-- A pattern whose group is what its last pieces take: `(FRONT)(GROUP)BACK`. -/
def capture (front group back : List (Piece α)) : Matcher α (Nat × List α) :=
  fun _ text => do
  let counts ← widths (front ++ group ++ back) text
  let place := (counts.take front.length).sum
  let size := ((counts.drop front.length).take group.length).sum
  pure (counts.sum, place, (text.drop place).take size)

/-- A pattern that must not follow an item of a class. -/
def guarded (member : α → Bool) (matcher : Matcher α γ) : Matcher α γ :=
  fun before text => if before.any member then none else matcher before text

theorem StopsAt.guarded {stop : α} (stops : matcher.StopsAt stop) (member : α → Bool) :
    (guarded member matcher).StopsAt stop where
  same := by
    intro before text rest
    rw [Matcher.guarded, Matcher.guarded, stops.same]
  short := by
    intro before text rest found taken
    exact stops.short before text rest found (Option.ite_none_left_eq_some.mp taken).2

theorem Splits.guarded {front rest : List α} (splits : matcher.Splits front rest)
    (member : α → Bool) : (guarded member matcher).Splits front rest := by
  intro before tail filled within
  obtain ⟨same, short⟩ := splits before tail filled within
  rw [Matcher.guarded, Matcher.guarded, same]
  exact ⟨rfl, fun found taken => short found (Option.ite_none_left_eq_some.mp taken).2⟩

/-- A matcher with a label on what it captures. -/
def tagged (label : δ) (matcher : Matcher α γ) : Matcher α (δ × γ) := fun before text =>
  (matcher before text).map fun found => (found.1, label, found.2)

theorem Splits.tagged {front rest : List α} (splits : matcher.Splits front rest)
    (label : δ) :
    (tagged label matcher).Splits front rest := by
  intro before tail filled within
  obtain ⟨same, short⟩ := splits before tail filled within
  rw [Matcher.tagged, Matcher.tagged, same]
  refine ⟨rfl, fun found taken => ?_⟩
  obtain ⟨inner, here, rfl⟩ := Option.map_eq_some_iff.mp taken
  exact short inner here

theorem Splits.first {matchers : List (Matcher α γ)} {front rest : List α}
    (splits : ∀ matcher ∈ matchers, matcher.Splits front rest) :
    (first matchers).Splits front rest := by
  intro before tail filled within
  constructor
  · induction matchers with
    | nil => rfl
    | cons matcher matchers inductionHypothesis =>
        rw [List.forall_mem_cons] at splits
        rw [Matcher.first, Matcher.first, List.findSome?_cons, List.findSome?_cons,
          (splits.1 before tail filled within).1]
        cases matcher before tail with
        | none => exact inductionHypothesis splits.2
        | some found => rfl
  · intro found taken
    obtain ⟨matcher, member, taken⟩ := List.exists_of_findSome?_eq_some taken
    exact (splits matcher member before tail filled within).2 found taken

theorem guarded_of_not {member : α → Bool} {item : α} (other : member item = false)
    (blind : matcher.Blind) (text : List α) :
    guarded member matcher (some item) text = guarded member matcher none text := by
  rw [guarded, guarded, blind (some item)]
  simp [other]

theorem first_congr {matchers : List (Matcher α γ)} {before before' : Option α}
    {text text' : List α}
    (same : ∀ matcher ∈ matchers, matcher before text = matcher before' text') :
    first matchers before text = first matchers before' text' := by
  induction matchers with
  | nil => rfl
  | cons matcher matchers inductionHypothesis =>
      rw [List.forall_mem_cons] at same
      rw [Matcher.first, Matcher.first, List.findSome?_cons, List.findSome?_cons, same.1]
      cases matcher before' text' with
      | none => exact inductionHypothesis same.2
      | some found => rfl

theorem Blind.first {matchers : List (Matcher α γ)}
    (blind : ∀ matcher ∈ matchers, matcher.Blind) :
    (first matchers).Blind := fun before text =>
  first_congr fun matcher member => blind matcher member before text

theorem capture_blind (front group back : List (Piece α)) :
    (capture front group back).Blind :=
  fun _ _ => rfl

theorem capture_within {front group back : List (Piece α)} {before : Option α}
    {text : List α}
    {found : Nat × Nat × List α}
    (taken : capture front group back before text = some found) :
    found.2.1 ≤ found.1 ∧ found.1 ≤ text.length := by
  obtain ⟨counts, read, built⟩ := Option.bind_eq_some_iff.mp taken
  cases built
  refine ⟨?_, widths_le read⟩
  have parts : (counts.take front.length).sum + (counts.drop front.length).sum =
      counts.sum := by
    rw [← List.sum_append, List.take_append_drop]
  exact Nat.le_of_add_right_le (Nat.le_of_eq parts)

/-- A capture in the front of a text that the pattern does not read past. -/
theorem capture_congr {front group back : List (Piece α)} {text rest : List α}
    (same : widths (front ++ group ++ back) (text ++ rest) =
      widths (front ++ group ++ back) text)
    (before : Option α) :
    capture front group back before
      (text ++ rest) = capture front group back before text := by
  rw [capture, capture, same]
  cases read : widths (front ++ group ++ back) text with
  | none => rfl
  | some counts =>
      have within := widths_le read
      have parts : counts.sum = (counts.take front.length).sum +
          (((counts.drop front.length).take group.length).sum +
            ((counts.drop front.length).drop group.length).sum) := by
        rw [← List.sum_append, List.take_append_drop, ← List.sum_append,
          List.take_append_drop]
      simp only [Option.bind_eq_bind, Option.bind_some]
      rw [List.drop_append_of_le_length (by omega), List.take_append_of_le_length]
      rw [List.length_drop]
      omega

theorem capture_stops {front group back : List (Piece α)} {stop : α}
    (refused : ∀ piece ∈ front ++ group ++ back, piece.accepts stop = false) :
    (capture front group back).StopsAt stop where
  same := by
    intro before text rest
    rw [capture_congr (widths_refused refused text rest),
      capture_congr (widths_refused refused text [])]
  short := by
    intro before text rest found taken
    rw [capture_congr (widths_refused refused text rest)] at taken
    exact (capture_within taken).2

/-- A pattern that takes the same in the ends of a text splits there. -/
theorem capture_splits {front group back : List (Piece α)} {text rest : List α}
    (parts : Parts (front ++ group ++ back) text rest) :
    (capture front group back).Splits text rest := by
  intro before tail _ within
  exact ⟨capture_congr (parts tail within) before, fun found taken =>
    (capture_within taken).2⟩

/-- No match starts at an item that the first piece refuses. -/
theorem capture_refused {member : α → Bool} {front group back : List (Piece α)} {item : α}
    (refused : member item = false) (before : Option α) (text : List α) :
    capture (.one member :: front) group back before (item :: text) = none := by
  have none : (Piece.one member).width (item :: text) = none := by
    rw [Piece.width, refused]
    rfl
  rw [capture, List.cons_append, List.cons_append, widths, none]
  rfl

end Matcher

end Library
end PqcScan
