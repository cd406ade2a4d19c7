import PqcScan.Library.Joining
import PqcScan.Probes.JavaPolicy

/-!
# Key sizes in the policy of a JVM

The gaps of a list of disabled algorithms as a function of the set of its tokens.  The
probe joins the tokens to one text and keeps the last constraint of each family.
-/

namespace PqcScan
namespace Probes

open Library Python PqcScan.Core

/-! ## Constraints token by token -/

/-- A text ends with a word, but for white space. -/
def endsIn (text : List Char) (word : String) : Bool :=
  word.toList.reverse.isPrefixOf (lstrip text.reverse)

/-- A constraint may go on from a text into another one: behind the name of a family,
behind `KEYSIZE` or behind `<`. -/
def GoesOn (tables : CaseTables) (text rest : List Char) : Prop :=
  ((∃ family ∈ ["RSA", "DH", "DSA", "EC"], endsIn text family = true) ∧
    startsWith (lstrip rest) "KEYSIZE" = true) ∨
  (endsIn text "KEYSIZE" = true ∧ startsWith (lstrip rest) "<" = true) ∨
  (endsIn text "<" = true ∧ (lstrip rest).head?.any tables.isDigit = true)

instance (tables : CaseTables) (text rest : List Char) :
    Decidable (GoesOn tables text rest) := by
  unfold GoesOn
  infer_instance

/-- Visible tokens, none of which goes on in another one. -/
structure Separate (tables : CaseTables) (tokens : List (List Char)) : Prop where
  filled : ∀ token ∈ tokens, lstrip (tables.upper token) ≠ []
  apart : ∀ token ∈ tokens, ∀ other ∈ tokens,
    ¬ GoesOn tables (tables.upper token) (tables.upper other)

theorem Separate.of_subset {tables : CaseTables} {tokens tokens' : List (List Char)}
    (separate : Separate tables tokens) (subset : ∀ token ∈ tokens', token ∈ tokens) :
    Separate tables tokens' where
  filled token member := separate.filled token (subset token member)
  apart token member other member' :=
    separate.apart token (subset token member) other (subset other member')

/-- A word with nothing but white space behind it is what the text ends in. -/
theorem endsIn_of_runsOut {text : List Char} {word : String}
    (solid : lstrip word.toList.reverse = word.toList.reverse ∧ word.toList ≠ [])
    (runs : RunsOut isSpace word.toList text) : endsIn text word = true := by
  obtain ⟨run, blank, front, rfl⟩ := runs
  have stripped : lstrip (front ++ (word.toList ++ run)).reverse =
      word.toList.reverse ++ front.reverse := by
    have behind : ∀ char ∈ run.reverse, isSpace char = true := fun char member =>
      blank char (List.mem_reverse.mp member)
    rw [List.reverse_append, List.reverse_append, List.append_assoc, lstrip,
      List.dropWhile_append_of_pos behind, List.dropWhile_append, if_neg]
    · exact congrArg (· ++ front.reverse) solid.1
    · rw [List.isEmpty_iff, ← lstrip, solid.1, List.reverse_eq_nil_iff]
      exact solid.2
  rw [endsIn, stripped, List.isPrefixOf_iff_prefix]
  exact List.prefix_append _ _

theorem startsWith_stop {head : String} {stop : Char} (plain : stop ∉ head.toList)
    (front rest : List Char) :
    startsWith (front ++ stop :: rest) head = startsWith front head := by
  rw [startsWith, startsWith]
  generalize head.toList = word at plain
  induction word generalizing front with
  | nil => cases front <;> rfl
  | cons letter word inductionHypothesis =>
      rw [List.mem_cons, not_or] at plain
      cases front with
      | nil =>
          rw [List.nil_append, List.isPrefixOf_cons_cons,
            beq_false_of_ne (Ne.symm plain.1)]
          rfl
      | cons char front =>
          rw [List.cons_append, List.isPrefixOf_cons_cons, List.isPrefixOf_cons_cons,
            inductionHypothesis _ plain.2]

/-- A literal does not match where the text begins otherwise. -/
theorem widths_exactly_eq_none {head : String} {text : List Char}
    (other : startsWith text head = false) (more : List (Library.Piece Char)) :
    widths (exactly head ++ more) text = none := by
  rw [startsWith] at other
  rw [exactly]
  generalize head.toList = word at other
  induction word generalizing text with
  | nil => cases text <;> cases other
  | cons letter word inductionHypothesis =>
      rw [List.map_cons, List.cons_append, widths]
      cases text with
      | nil => rfl
      | cons char text =>
          rw [Piece.width]
          by_cases same : char = letter
          · rw [List.isPrefixOf_cons_cons, same, beq_self_eq_true, Bool.true_and] at other
            rw [same, beq_self_eq_true, if_pos rfl]
            simp only [Option.bind_eq_bind, Option.bind_some, List.drop_succ_cons,
              List.drop_zero]
            rw [inductionHypothesis other]
            rfl
          · rw [beq_false_of_ne same, if_neg Bool.false_ne_true]
            rfl

section Constraints

variable {tables : CaseTables} {isWord : Char → Bool}

/-- The upper-case tokens, joined. -/
theorem joinTokens_eq (tokens : List (List Char)) :
    joinTokens tables tokens = [' '].intercalate (tokens.map tables.upper) := by
  have space : tables.upper [' '] = [' '] := by
    rw [tables.upper_ascii (by decide)]
    rfl
  rw [joinTokens]
  induction tokens with
  | nil => rfl
  | cons token tokens inductionHypothesis =>
      by_cases last : tokens = []
      · rw [last, List.map_singleton, List.intercalate_singleton,
          List.intercalate_singleton]
      · rw [List.map_cons, List.intercalate_cons_of_ne_nil last,
          List.intercalate_cons_of_ne_nil (List.map_eq_nil_iff.not.mpr last),
          tables.upper_append, tables.upper_append, space, inductionHypothesis]

theorem joinTokens_singleton (token : List Char) :
    joinTokens tables [token] = tables.upper token := by
  rw [joinTokens, List.intercalate_singleton]

theorem joinTokens_cons (token : List Char) {tokens : List (List Char)}
    (filled : tokens ≠ []) :
    joinTokens tables (token :: tokens) =
      tables.upper token ++ ' ' :: joinTokens tables tokens := by
  rw [joinTokens_eq, List.map_cons,
    List.intercalate_cons_of_ne_nil (List.map_eq_nil_iff.not.mpr filled), ← joinTokens_eq,
    List.append_assoc, List.singleton_append]

/-- What goes on in the text of visible tokens goes on in the first one. -/
theorem goesOn_joinTokens {text token : List Char} {tokens : List (List Char)}
    (filled : lstrip (tables.upper token) ≠ [])
    (goes : GoesOn tables text (joinTokens tables (token :: tokens))) :
    GoesOn tables text (tables.upper token) := by
  by_cases last : tokens = []
  · rwa [last, joinTokens_singleton] at goes
  · have lead : lstrip (joinTokens tables (token :: tokens)) =
        lstrip (tables.upper token) ++ ' ' :: joinTokens tables tokens := by
      rw [joinTokens_cons token last, lstrip, List.dropWhile_append, if_neg]
      · rfl
      · rw [List.isEmpty_iff]
        exact filled
    obtain ⟨first, others, visible⟩ := List.exists_cons_of_ne_nil filled
    rw [GoesOn, lead, startsWith_stop (by decide), startsWith_stop (by decide),
      visible] at goes
    rw [GoesOn, visible]
    exact goes

theorem families_solid : ∀ family ∈ ["RSA", "DH", "DSA", "EC"],
    ' ' ∉ family.toList ∧ lstrip family.toList.reverse = family.toList.reverse ∧
      family.toList ≠ [] := by
  decide

/-- The pattern of a family does not read past a text that does not go on behind it. -/
theorem keysize_parts {family : String} (known : family ∈ ["RSA", "DH", "DSA", "EC"])
    {text rest : List Char} (apart : ¬ GoesOn tables text rest) :
    Parts (exactly family ++ keysizeWord ++
      [.one tables.isDigit, .many tables.isDigit] ++ []) text (' ' :: rest) := by
  have digit : tables.isDigit ' ' = false := by
    rw [CaseTables.isDigit, tables.digit_ascii ' ' (by decide)]
    decide
  obtain ⟨plain, solid⟩ := families_solid family known
  rw [GoesOn, not_or, not_or] at apart
  obtain ⟨word, less, number⟩ := apart
  have digits : Parts [.one tables.isDigit, .many tables.isDigit] text (' ' :: rest) :=
    Parts.refused digit (Parts.refused digit parts_nil)
  have size : PartsBehind "<".toList
      (.many isSpace :: [.one tables.isDigit, .many tables.isDigit])
      text (' ' :: rest) := by
    refine PartsBehind.many (by decide) (fun runs => ?_) rfl digits
    apply widths_one_eq_none
    exact eq_false_of_ne_true fun some_ =>
      number ⟨endsIn_of_runsOut (by decide) runs, some_⟩
  have sign : PartsBehind "KEYSIZE".toList
      (.many isSpace :: (exactly "<" ++
        .many isSpace :: [.one tables.isDigit, .many tables.isDigit]))
      text (' ' :: rest) := by
    refine PartsBehind.many (by decide) (fun runs => ?_) rfl
      (Parts.word (by decide) size)
    apply widths_exactly_eq_none
    exact eq_false_of_ne_true fun some_ =>
      less ⟨endsIn_of_runsOut (by decide) runs, some_⟩
  have named : PartsBehind family.toList
      (.one isSpace :: .many isSpace :: (exactly "KEYSIZE" ++
        .many isSpace :: (exactly "<" ++
          .many isSpace :: [.one tables.isDigit, .many tables.isDigit])))
      text (' ' :: rest) := by
    refine PartsBehind.some (by decide) (fun runs => ?_) rfl
      (Parts.word (by decide) sign)
    apply widths_exactly_eq_none
    exact eq_false_of_ne_true fun some_ =>
      word ⟨⟨family, known, endsIn_of_runsOut solid runs⟩, some_⟩
  have whole := Parts.word plain named
  simpa [keysizeWord, exactly] using whole

/-- No constraint begins with a blank. -/
theorem keysizeRe_blank (before : Option Char) (text : List Char) :
    keysizeRe tables isWord before (' ' :: text) = none := by
  rw [keysizeRe, Matcher.first, List.findSome?_eq_none_iff, List.forall_mem_map]
  intro family member
  obtain ⟨plain, -, filled⟩ := families_solid family member
  have starts : startsWith (' ' :: text) family = false := by
    apply (startsWith_stop plain [] text).trans
    rw [startsWith, Bool.eq_false_iff, Ne, List.isPrefixOf_iff_prefix, List.prefix_nil]
    exact filled
  have fails := widths_exactly_eq_none starts
    (keysizeWord ++ [.one tables.isDigit, .many tables.isDigit] ++ [])
  rw [← List.append_assoc, ← List.append_assoc] at fails
  rw [keysizeOf, Matcher.guarded, Matcher.tagged, Matcher.capture, fails]
  exact ite_self none

/-- A constraint may begin behind a blank as at the beginning of a text. -/
theorem keysizeRe_fresh (apart : isWord ' ' = false) (text : List Char) :
    keysizeRe tables isWord (some ' ') text = keysizeRe tables isWord none text := by
  apply Matcher.first_congr
  rw [List.forall_mem_map]
  intro family _
  exact Matcher.guarded_of_not apart (fun _ _ => rfl) text

/-- The constraints of a text that does not go
on in another one, and of that one behind it. -/
theorem constraints_append (apart : isWord ' ' = false) {text rest : List Char}
    (ends : ¬ GoesOn tables text rest) :
    constraints tables isWord (text ++ ' ' :: rest) =
      constraints tables isWord text ++ constraints tables isWord rest := by
  have splits : (keysizeRe tables isWord).Splits text (' ' :: rest) := by
    apply Matcher.Splits.first
    rw [List.forall_mem_map]
    intro family member
    exact ((Matcher.capture_splits (keysize_parts member ends)).tagged family).guarded
      isWord
  have silent : ∀ before, ∀ item ∈ [' '], ∀ text,
      keysizeRe tables isWord before (item :: text) = none := by
    intro before item member text
    rw [List.mem_singleton.mp member]
    exact keysizeRe_blank before text
  have behind : (keysizeRe tables isWord).from_ (text.getLast?.or none)
      (0 + text.length) 0
      (' ' :: rest) = ((keysizeRe tables isWord).finditer rest).map
        (Found.shift (0 + text.length + 1)) := by
    have gap := Matcher.from_gap silent (text.getLast?.or none) (0 + text.length) rest
    have last : [' '].getLast?.or (text.getLast?.or none) = some ' ' := rfl
    rw [last, Matcher.from_before (keysizeRe_fresh apart)] at gap
    rw [Matcher.finditer, ← Matcher.from_shift]
    exact gap
  rw [constraints, Matcher.finditer,
    Matcher.from_split splits none 0 0 (Nat.zero_le _), behind, List.map_append,
    List.map_map]
  rfl

/-- The constraints of the joined text are those of the tokens. -/
theorem constraints_joinTokens (apart : isWord ' ' = false) {tokens : List (List Char)}
    (separate : Separate tables tokens) :
    constraints tables isWord (joinTokens tables tokens) =
      tokens.flatMap fun token => constraints tables isWord (tables.upper token) := by
  induction tokens with
  | nil => rfl
  | cons token tokens inductionHypothesis =>
      have later : Separate tables tokens :=
        separate.of_subset fun _ => List.mem_cons_of_mem token
      rw [List.flatMap_cons]
      cases tokens with
      | nil => rw [joinTokens_singleton, List.flatMap_nil, List.append_nil]
      | cons next tokens =>
          have ends : ¬ GoesOn tables (tables.upper token)
              (joinTokens tables (next :: tokens)) :=
            fun goes => separate.apart token List.mem_cons_self next
              (List.mem_cons_of_mem _ List.mem_cons_self)
              (goesOn_joinTokens (later.filled next List.mem_cons_self) goes)
          rw [joinTokens_cons token (List.cons_ne_nil _ _), constraints_append apart ends,
            inductionHypothesis later]

end Constraints

/-! ## The law -/

section Law

variable (tables : CaseTables) (isWord : Char → Bool)

/-- The number that digits write. -/
def sizeOf (digits : List Char) : Nat :=
  digits.foldl (fun value char => value * 10 + (tables.digit char).getD 0) 0

/-- The digits of the constraints of a family in a token. -/
def refusedBelow (family : String) (token : List Char) : List (List Char) :=
  ((constraints tables isWord (tables.upper token)).filter (·.1 = family)).map Prod.snd

/-- A token says that keys below the size are refused. -/
def Refuses (tokens : List (List Char)) (expected : String × Nat) : Prop :=
  ∃ token ∈ tokens, ∃ digits ∈ refusedBelow tables isWord expected.1 token,
    expected.2 ≤ sizeOf tables digits

/-- `int` reads the numbers of all constraints. -/
def Legible (tokens : List (List Char)) : Prop :=
  ∀ token ∈ tokens, ∀ found ∈ constraints tables isWord (tables.upper token),
    tables.readable found.2.length = true

instance (tokens : List (List Char)) (expected : String × Nat) :
    Decidable (Refuses tables isWord tokens expected) :=
  inferInstanceAs (Decidable (∃ token ∈ tokens,
    ∃ digits ∈ refusedBelow tables isWord expected.1 token,
    expected.2 ≤ sizeOf tables digits))

instance (tokens : List (List Char)) : Decidable (Legible tables isWord tokens) :=
  inferInstanceAs (Decidable (∀ token ∈ tokens,
    ∀ found ∈ constraints tables isWord (tables.upper token),
      tables.readable found.2.length = true))

/-- A gap is reported for the family. -/
def HasGap (tokens : List (List Char)) (family : String) : Prop :=
  ∃ gap ∈ emitGaps tables isWord tokens, gap.algorithm = family

/-- The gaps are those of the set of the tokens: neither the
order of the tokens nor a token said twice matters, and a family
has a gap unless its largest constraint reaches the floor. -/
structure ReadAsSet (tokens : List (List Char)) : Prop where
  set : ∀ tokens', (∀ token, token ∈ tokens' ↔ token ∈ tokens) →
    emitGaps tables isWord tokens' = emitGaps tables isWord tokens
  floor : ∀ expected ∈ keysizeFloors,
    HasGap tables isWord tokens expected.1 ↔ ¬ Refuses tables isWord tokens expected

/-- The last constraints of the tokens say what all constraints say: if one reaches the
floor, so does the last one of each token, unless `int` fails on some constraint; if none
does, the last ones agree. -/
def LastsAgree (tokens : List (List Char)) : Prop :=
  ∀ expected ∈ keysizeFloors,
    (Refuses tables isWord tokens expected ∧ (Legible tables isWord tokens →
      ∀ token ∈ tokens, ∀ digits ∈ (refusedBelow tables isWord expected.1 token).getLast?,
        expected.2 ≤ sizeOf tables digits)) ∨
    (¬ Refuses tables isWord tokens expected ∧ Legible tables isWord tokens ∧
      ∀ token ∈ tokens, ∀ digits ∈ (refusedBelow tables isWord expected.1 token).getLast?,
        ∀ other ∈ tokens,
        ∀ digits' ∈ (refusedBelow tables isWord expected.1 other).getLast?,
          sizeOf tables digits = sizeOf tables digits')

instance (tokens : List (List Char)) : Decidable (LastsAgree tables isWord tokens) := by
  unfold LastsAgree
  infer_instance

end Law

section Floors

variable {tables : CaseTables} {isWord : Char → Bool} {tokens : List (List Char)}

/-- The size of the last constraint of a family. -/
def lastSize (tables : CaseTables) (isWord : Char → Bool) (tokens : List (List Char))
    (family : String) : Option Nat :=
  (tokens.flatMap (refusedBelow tables isWord family)).getLast?.map (sizeOf tables)

/-- With numbers that `int` reads each family has its last constraint. -/
theorem floors_of_legible (apart : isWord ' ' = false)
    (separate : Separate tables tokens)
    (legible : Legible tables isWord tokens) :
    ∃ sizes, floors tables isWord tokens = some sizes ∧
      ∀ family, sizes.get? family = lastSize tables isWord tokens family := by
  let pair (found : String × List Char) : String × Nat := (found.1, sizeOf tables found.2)
  have read : ∀ founds : List (String × List Char),
      (∀ found ∈ founds, tables.readable found.2.length = true) →
      (founds.mapM fun found => (tables.intOf found.2).map fun size => (found.1, size)) =
        some (founds.map pair) := by
    intro founds readable
    induction founds with
    | nil => rfl
    | cons found founds inductionHypothesis =>
        rw [List.forall_mem_cons] at readable
        rw [List.mapM_cons, inductionHypothesis readable.2, CaseTables.intOf,
          if_pos readable.1]
        rfl
  refine ⟨Dict.ofList ((tokens.flatMap fun token =>
    constraints tables isWord (tables.upper token)).map pair), ?_, ?_⟩
  · rw [floors, constraints_joinTokens apart separate, read]
    · rfl
    · intro found member
      obtain ⟨token, inside, among⟩ := List.mem_flatMap.mp member
      exact legible token inside found among
  · intro family
    rw [Dict.get?_ofList, List.filter_map, List.getLast?_map, lastSize, Option.map_map]
    have same : tokens.flatMap (refusedBelow tables isWord family) =
        ((tokens.flatMap fun token =>
          constraints tables isWord (tables.upper token)).filter
          (·.1 = family)).map Prod.snd := by
      rw [List.filter_flatMap, List.map_flatMap]
      rfl
    rw [same, List.getLast?_map, Option.map_map]
    rfl

/-- One number that `int` does not read ends the gaps before the floors. -/
theorem floors_of_illegible (apart : isWord ' ' = false)
    (separate : Separate tables tokens)
    (illegible : ¬ Legible tables isWord tokens) :
    floors tables isWord tokens = none := by
  have fails : ∀ founds : List (String × List Char),
      (∃ found ∈ founds, tables.readable found.2.length = false) →
      (founds.mapM fun found => (tables.intOf found.2).map fun size => (found.1, size)) =
        none := by
    intro founds unread
    induction founds with
    | nil => simp at unread
    | cons found founds inductionHypothesis =>
        rw [List.mapM_cons, CaseTables.intOf]
        by_cases readable : tables.readable found.2.length = true
        · have later : ∃ found ∈ founds, tables.readable found.2.length = false := by
            simpa [readable] using unread
          rw [inductionHypothesis later, if_pos readable]
          rfl
        · rw [if_neg readable]
          rfl
  rw [Legible] at illegible
  push Not at illegible
  obtain ⟨token, inside, found, among, unread⟩ := illegible
  rw [floors, constraints_joinTokens apart separate, fails]
  · rfl
  · exact ⟨found, List.mem_flatMap.mpr ⟨token, inside, among⟩,
      Bool.eq_false_iff.mpr unread⟩

/-! ### Protocols and primitives -/

/-- A needle without blanks is in the joined text if it is in a token. -/
theorem contains_joinTokens {needle : String} (plain : ' ' ∉ needle.toList)
    (filled : needle.toList ≠ []) :
    contains (joinTokens tables tokens) needle = true ↔
      ∃ token ∈ tokens, contains (tables.upper token) needle = true := by
  rw [contains_iff, joinTokens_eq, infix_intercalate plain filled]
  simp only [contains_iff, List.mem_map, exists_exists_and_eq_and]

/-- A name without a modulus has a tier. -/
theorem classifyName_isSome {name : List Char}
    (foreign : ∀ head ∈ ["RSA", "DH", "DHE", "FFDHE"],
      matchesHead head.toList name = false) :
    (tables.classifyName name).isSome = true := by
  have size : ∀ heads : List String, heads ⊆ ["RSA", "DH", "DHE", "FFDHE"] →
      tables.sizeAfter heads name = none := by
    intro heads among
    rw [CaseTables.sizeAfter, List.findSome?_eq_none_iff]
    intro head member
    rw [foreign head (among member)]
    rfl
  rw [CaseTables.classifyName, size ["RSA"] (by decide),
    size ["DH", "DHE", "FFDHE"] (by decide)]
  simp only [CaseTables.modulusOr]
  split_ifs <;> rfl

theorem classify_weak : ∀ expected ∈ expectedWeak,
    (tables.classify expected.2.toList).isSome = true := by
  intro expected member
  have ascii : ∀ expected ∈ expectedWeak, lookupOid expected.2.toList = none ∧
      (∀ char ∈ expected.2.toList, char.toNat < 128) ∧
      ∀ head ∈ ["RSA", "DH", "DHE", "FFDHE"],
        matchesHead head.toList (upper expected.2.toList) = false := by
    decide +kernel
  obtain ⟨oid, small, foreign⟩ := ascii expected member
  rw [CaseTables.classify]
  apply classifyName_isSome
  cases friendly : lookupName friendlyMap (strip (tables.lower expected.2.toList)) with
  | none =>
      rw [tables.canonical_of_unknown oid friendly, tables.upper_ascii small]
      exact foreign
  | some name =>
      obtain ⟨entry, listed, alias_, rfl⟩ := lookupName_mem friendly
      have aliases : ∀ expected ∈ expectedWeak, ∀ entry ∈ friendlyMap,
          entry.1.toList = (strip expected.2.toList).map fold →
          ∀ head ∈ ["RSA", "DH", "DHE", "FFDHE"],
            matchesHead head.toList (upper entry.2.toList) = false := by
        decide +kernel
      have folded : entry.1.toList = (strip expected.2.toList).map fold := by
        rw [alias_, tables.lower_word]
        rw [← alias_]
        exact (aliases_ascii entry listed).1
      have canonical : tables.canonical expected.2.toList = upper entry.2.toList := by
        rw [CaseTables.canonical, CaseTables.normalise, oid]
        simp only [friendly]
        exact tables.upper_ascii (aliases_ascii entry listed).2
      rw [canonical]
      exact aliases expected member entry listed folded

theorem mem_protocolGap {expected : String × String} {gap : Gap}
    (member : gap ∈ protocolGap tables tokens expected) : gap.algorithm = expected.2 := by
  rw [protocolGap] at member
  split at member
  · cases member
  · rw [List.mem_singleton.mp member]

theorem mem_weakGap {expected : String × String} {gaps : List Gap} {gap : Gap}
    (outcome : weakGap tables tokens expected = some gaps) (member : gap ∈ gaps) :
    gap.algorithm = expected.2 := by
  rw [weakGap] at outcome
  split at outcome
  · cases outcome
    cases member
  · obtain ⟨cls, -, rfl⟩ := Option.map_eq_some_iff.mp outcome
    rw [List.mem_singleton.mp member]

/-- The gaps before the floors depend on the set
of tokens alone and are about other names. -/
theorem emitGaps_eq (tables : CaseTables) (isWord : Char → Bool)
    (tokens : List (List Char)) :
    ∃ front : List Gap,
      (∀ gap ∈ front, ∀ expected ∈ keysizeFloors, gap.algorithm ≠ expected.1) ∧
      ∀ tokens', (∀ token, token ∈ tokens' ↔ token ∈ tokens) →
        emitGaps tables isWord tokens' = front ++ (floorGaps tables isWord tokens').getD
          [] := by
  let steps (tokens : List (List Char)) : List (Option (List Gap)) :=
    expectedProtocols.map (fun expected => some (protocolGap tables tokens expected)) ++
      expectedWeak.map (weakGap tables tokens)
  have succeeds : ∀ tokens, ∀ step ∈ steps tokens, (id step).isSome = true := by
    intro tokens step member
    rcases List.mem_append.mp member with protocol | weak
    · obtain ⟨expected, -, rfl⟩ := List.mem_map.mp protocol
      rfl
    · obtain ⟨expected, among, rfl⟩ := List.mem_map.mp weak
      rw [id, weakGap]
      split
      · rfl
      · rw [Option.isSome_map]
        exact classify_weak expected among
  have labels : (∀ expected ∈ expectedProtocols ++ expectedWeak, ∀ floor ∈ keysizeFloors,
      expected.2 ≠ floor.1) := by decide
  refine ⟨reported id (steps tokens), ?_, ?_⟩
  · intro gap member floor listed
    obtain ⟨step, among, gaps, outcome, inside⟩ := exists_of_mem_reported member
    rcases List.mem_append.mp among with protocol | weak
    · obtain ⟨expected, source, rfl⟩ := List.mem_map.mp protocol
      cases outcome
      rw [mem_protocolGap inside]
      exact labels expected (List.mem_append_left _ source) floor listed
    · obtain ⟨expected, source, rfl⟩ := List.mem_map.mp weak
      rw [mem_weakGap outcome inside]
      exact labels expected (List.mem_append_right _ source) floor listed
  · intro tokens' same
    have protocol : ∀ expected, protocolGap tables tokens' expected =
        protocolGap tables tokens expected := by
      intro expected
      have any : (tokens'.any fun token => tables.upper token == expected.1.toList) =
          tokens.any fun token => tables.upper token == expected.1.toList := by
        rw [Bool.eq_iff_iff, List.any_eq_true, List.any_eq_true]
        simp only [same]
      rw [protocolGap, protocolGap, any]
    have weak : ∀ expected ∈ expectedWeak,
        weakGap tables tokens' expected = weakGap tables tokens expected := by
      intro expected among
      have plain : ∀ expected ∈ expectedWeak, ' ' ∉ expected.1.toList ∧
          expected.1.toList ≠ [] := by
        decide
      have within : contains (joinTokens tables tokens') expected.1 =
          contains (joinTokens tables tokens) expected.1 := by
        rw [Bool.eq_iff_iff,
          contains_joinTokens (plain expected among).1 (plain expected among).2,
          contains_joinTokens (plain expected among).1 (plain expected among).2]
        simp only [same]
      rw [weakGap, weakGap, within]
    have front : steps tokens' = steps tokens := by
      simp only [steps, protocol, List.map_congr_left weak]
    have parts := @reported_append _ _ id (steps tokens')
      [floorGaps tables isWord tokens']
    rw [if_pos (succeeds tokens'), reported_singleton] at parts
    rw [← front]
    exact parts

/-! ### Gaps of the key sizes -/

theorem mem_floorGap {expected : String × Nat} {found : Option Nat} {gap : Gap}
    (member : gap ∈ floorGap expected found) : gap.algorithm = expected.1 := by
  cases found with
  | none => rw [List.mem_singleton.mp member]
  | some size =>
      rw [floorGap] at member
      split at member
      · rw [List.mem_singleton.mp member]
      · cases member

theorem floorGap_eq_nil {expected : String × Nat} {found : Option Nat} :
    floorGap expected found = [] ↔ ∃ size, found = some size ∧ expected.2 ≤ size := by
  cases found with
  | none => simp [floorGap]
  | some size => simp [floorGap]

/-- The gap of a size that is too low names the size. -/
theorem floorGap_injective {expected : String × Nat} {size size' : Nat}
    (low : size < expected.2)
    (low' : size' < expected.2)
    (same : floorGap expected (some size) = floorGap expected (some size')) :
    size = size' := by
  rw [floorGap, floorGap, if_pos low, if_pos low'] at same
  have notes := congrArg (fun gaps => gaps.map fun gap : Gap => gap.note.toList) same
  simp only [List.map_cons, List.map_nil, List.cons.injEq, and_true, String.toList_append,
    List.append_assoc, List.append_cancel_left_eq] at notes
  have digits : ∀ size : Nat, ∀ rest : List Char,
      ((toString size).toList ++ (", but the safe floor is ".toList ++ rest)).takeWhile
        Char.isDigit = Nat.toDigits 10 size := by
    intro size rest
    rw [Nat.toString_eq_repr, Nat.toList_repr, List.takeWhile_append_of_pos]
    · exact List.append_nil _
    · exact fun char member => Nat.isDigit_of_mem_toDigits (by decide) (by decide) member
  have read := congrArg (List.takeWhile Char.isDigit) notes
  rw [digits, digits] at read
  have numbers := congrArg (fun digits => Nat.ofDigitChars 10 digits 0) read
  simpa only [Nat.ofDigitChars_ten_toDigits] using numbers

/-- Each family has the gaps of its floor. -/
theorem filter_floorGaps {expected : String × Nat} (member : expected ∈ keysizeFloors)
    (found : String → Option Nat) :
    (keysizeFloors.flatMap fun floor => floorGap floor (found floor.1)).filter
      (·.algorithm = expected.1) = floorGap expected (found expected.1) := by
  have own : ∀ floor : String × Nat, (floorGap floor (found floor.1)).filter
      (·.algorithm = expected.1) = if floor.1 = expected.1 then
        floorGap floor (found floor.1)
        else [] := by
    intro floor
    split
    · next same =>
      rw [List.filter_eq_self]
      intro gap inside
      rw [mem_floorGap inside, same, decide_eq_true rfl]
    · next other =>
      rw [List.filter_eq_nil_iff]
      intro gap inside
      rw [mem_floorGap inside, decide_eq_true_iff]
      exact other
  rw [List.filter_flatMap]
  simp only [own]
  simp only [keysizeFloors, List.mem_cons, List.not_mem_nil, or_false] at member
  rcases member with rfl | rfl | rfl
  · simp [keysizeFloors]
  · simp [keysizeFloors]
  · simp [keysizeFloors]

/-- The last constraint of all is the last one of a token. -/
theorem exists_of_lastSize {family : String} {size : Nat}
    (last : lastSize tables isWord tokens family = some size) :
    ∃ token ∈ tokens, ∃ digits ∈ (refusedBelow tables isWord family token).getLast?,
      sizeOf tables digits = size := by
  obtain ⟨digits, found, same⟩ := Option.map_eq_some_iff.mp last
  rw [List.getLast?_flatMap] at found
  obtain ⟨token, member, here⟩ := List.exists_of_findSome?_eq_some found
  exact ⟨token, List.mem_reverse.mp member, digits, here, same⟩

theorem exists_lastSize {family : String} {token digits : List Char}
    (inside : token ∈ tokens)
    (stated : digits ∈ refusedBelow tables isWord family token) :
    ∃ size, lastSize tables isWord tokens family = some size := by
  cases last : lastSize tables isWord tokens family with
  | some size => exact ⟨size, rfl⟩
  | none =>
      rw [lastSize, Option.map_eq_none_iff, List.getLast?_eq_none_iff] at last
      have member := List.mem_flatMap.mpr ⟨token, inside, stated⟩
      rw [last] at member
      cases member

/-- The token at the end has the last constraint. -/
theorem lastSize_concat {family : String} {token digits : List Char}
    (last : digits ∈ (refusedBelow tables isWord family token).getLast?) :
    lastSize tables isWord (tokens ++ [token]) family = some (sizeOf tables digits) := by
  rw [lastSize, List.flatMap_append, List.getLast?_append, List.flatMap_singleton, last]
  rfl

/-! ### The set of the tokens -/

/-- Legible constraints: the gap of each family is that of its last constraint. -/
theorem floorGaps_of_legible (apart : isWord ' ' = false)
    (separate : Separate tables tokens)
    (legible : Legible tables isWord tokens) :
    floorGaps tables isWord tokens = some (keysizeFloors.flatMap fun expected =>
      floorGap expected (lastSize tables isWord tokens expected.1)) := by
  obtain ⟨sizes, read, last⟩ := floors_of_legible apart separate legible
  simp only [floorGaps, read, Option.map_some, last]

theorem floorGaps_of_illegible (apart : isWord ' ' = false)
    (separate : Separate tables tokens)
    (illegible : ¬ Legible tables isWord tokens) :
    floorGaps tables isWord tokens = none := by
  rw [floorGaps, floors_of_illegible apart separate illegible]
  rfl

/-- The gaps of a family among all gaps. -/
theorem filter_emitGaps (apart : isWord ' ' = false)
    (separate : Separate tables tokens) {expected : String × Nat}
    (member : expected ∈ keysizeFloors) :
    (emitGaps tables isWord tokens).filter (·.algorithm = expected.1) =
      if Legible tables isWord tokens then
        floorGap expected (lastSize tables isWord tokens expected.1)
      else [] := by
  obtain ⟨front, other, gaps⟩ := emitGaps_eq tables isWord tokens
  have none : front.filter (·.algorithm = expected.1) = [] := by
    rw [List.filter_eq_nil_iff]
    intro gap inside
    rw [decide_eq_true_iff]
    exact other gap inside expected member
  rw [gaps tokens fun _ => Iff.rfl, List.filter_append, none, List.nil_append]
  split
  · next legible =>
    rw [floorGaps_of_legible apart separate legible, Option.getD_some,
      filter_floorGaps member]
  · next illegible =>
    rw [floorGaps_of_illegible apart separate illegible]
    rfl

theorem hasGap_iff (apart : isWord ' ' = false)
    (separate : Separate tables tokens) {expected : String × Nat}
    (member : expected ∈ keysizeFloors) :
    HasGap tables isWord tokens expected.1 ↔ Legible tables isWord tokens ∧
      floorGap expected (lastSize tables isWord tokens expected.1) ≠ [] := by
  have filtered := filter_emitGaps apart separate member
  have some_ : HasGap tables isWord tokens expected.1 ↔
      (emitGaps tables isWord tokens).filter (·.algorithm = expected.1) ≠ [] := by
    rw [Ne, List.filter_eq_nil_iff]
    simp [HasGap]
  rw [some_, filtered]
  split
  · next legible => simp [legible]
  · next illegible => simp [illegible]

variable {tokens' : List (List Char)}

theorem legible_of_same (same : ∀ token, token ∈ tokens' ↔ token ∈ tokens)
    (legible : Legible tables isWord tokens) : Legible tables isWord tokens' :=
  fun token member => legible token ((same token).mp member)

/-- In the order that ends with a token the last constraint of the token counts. -/
theorem ReadAsSet.floorGap_eq (law : ReadAsSet tables isWord tokens)
    (apart : isWord ' ' = false)
    (separate : Separate tables tokens)
    (legible : Legible tables isWord tokens) {expected : String × Nat}
    (member : expected ∈ keysizeFloors) {token digits : List Char}
    (inside : token ∈ tokens)
    (last : digits ∈ (refusedBelow tables isWord expected.1 token).getLast?) :
    floorGap expected (some (sizeOf tables digits)) =
      floorGap expected (lastSize tables isWord tokens expected.1) := by
  have same : ∀ other, other ∈ tokens ++ [token] ↔ other ∈ tokens := by
    intro other
    rw [List.mem_append, List.mem_singleton, or_iff_left_iff_imp]
    rintro rfl
    exact inside
  have gaps := congrArg (List.filter (·.algorithm = expected.1))
    (law.set (tokens ++ [token]) same)
  rw [filter_emitGaps apart (separate.of_subset fun other => (same other).mp) member,
    filter_emitGaps apart separate member, if_pos (legible_of_same same legible),
    if_pos legible, lastSize_concat last] at gaps
  exact gaps

/-- The law makes the last constraints agree. -/
theorem ReadAsSet.lastsAgree (law : ReadAsSet tables isWord tokens)
    (apart : isWord ' ' = false)
    (separate : Separate tables tokens) :
    LastsAgree tables isWord tokens := by
  intro expected member
  have gap := (law.floor expected member).symm.trans (hasGap_iff apart separate member)
  by_cases refuses : Refuses tables isWord tokens expected
  · refine Or.inl ⟨refuses, ?_⟩
    intro legible token inside digits last
    have nothing : floorGap expected (lastSize tables isWord tokens expected.1) = [] := by
      by_contra some_
      exact gap.mpr ⟨legible, some_⟩ refuses
    rw [← law.floorGap_eq apart separate legible member inside last,
      floorGap_eq_nil] at nothing
    obtain ⟨size, same, reaches⟩ := nothing
    rwa [← Option.some.inj same] at reaches
  · obtain ⟨legible, some_⟩ := gap.mp refuses
    refine Or.inr ⟨refuses, legible, ?_⟩
    have low : ∀ token ∈ tokens,
        ∀ digits ∈ (refusedBelow tables isWord expected.1 token).getLast?,
        sizeOf tables digits < expected.2 := by
      intro token inside digits last
      by_contra reaches
      exact refuses ⟨token, inside, digits, List.mem_of_getLast? last,
        Nat.le_of_not_lt reaches⟩
    intro token inside digits last other inside' digits' last'
    apply floorGap_injective (low token inside digits last)
      (low other inside' digits' last')
    rw [law.floorGap_eq apart separate legible member inside last,
      law.floorGap_eq apart separate legible member inside' last']

/-- Where the last constraints agree each order of the tokens has the same gaps. -/
theorem LastsAgree.floorGap_eq (agree : LastsAgree tables isWord tokens)
    (same : ∀ token, token ∈ tokens' ↔ token ∈ tokens)
    (legible : Legible tables isWord tokens) {expected : String × Nat}
    (member : expected ∈ keysizeFloors) :
    floorGap expected (lastSize tables isWord tokens' expected.1) =
      floorGap expected (lastSize tables isWord tokens expected.1) := by
  rcases agree expected member with ⟨⟨token, inside, digits, stated, -⟩,
    reach⟩ | ⟨-, -, agree⟩
  · have nothing : ∀ order : List (List Char), (∀ token, token ∈ order ↔ token ∈ tokens) →
        floorGap expected (lastSize tables isWord order expected.1) = [] := by
      intro order same
      obtain ⟨size, last⟩ := exists_lastSize ((same token).mpr inside) stated
      obtain ⟨source, among, digits, ends, rfl⟩ := exists_of_lastSize last
      rw [last, floorGap_eq_nil]
      exact ⟨_, rfl, reach legible source ((same source).mp among) digits ends⟩
    rw [nothing tokens' same, nothing tokens fun _ => Iff.rfl]
  · congr 1
    cases last : lastSize tables isWord tokens expected.1 with
    | some size =>
        obtain ⟨token, inside, digits, ends, rfl⟩ := exists_of_lastSize last
        obtain ⟨size', last'⟩ :=
          exists_lastSize ((same token).mpr inside) (List.mem_of_getLast? ends)
        obtain ⟨token', inside', digits', ends', rfl⟩ := exists_of_lastSize last'
        rw [last', agree token'
          ((same token').mp inside') digits' ends' token inside digits ends]
    | none =>
        cases last' : lastSize tables isWord tokens' expected.1 with
        | none => rfl
        | some size =>
            obtain ⟨token, inside, digits, ends, -⟩ := exists_of_lastSize last'
            obtain ⟨size, here⟩ :=
              exists_lastSize ((same token).mp inside) (List.mem_of_getLast? ends)
            rw [last] at here
            cases here

/-- Agreeing last constraints give the law. -/
theorem LastsAgree.readAsSet (agree : LastsAgree tables isWord tokens)
    (apart : isWord ' ' = false)
    (separate : Separate tables tokens) :
    ReadAsSet tables isWord tokens where
  set := by
    intro tokens' same
    have separate' : Separate tables tokens' := separate.of_subset fun token =>
      (same token).mp
    obtain ⟨front, -, gaps⟩ := emitGaps_eq tables isWord tokens
    rw [gaps tokens' same, gaps tokens fun _ => Iff.rfl]
    by_cases legible : Legible tables isWord tokens
    · rw [floorGaps_of_legible apart separate' (legible_of_same same legible),
        floorGaps_of_legible apart separate legible]
      rw [List.flatMap_congr fun expected member => agree.floorGap_eq same legible member]
    · have illegible' : ¬ Legible tables isWord tokens' := fun legible' =>
        legible (legible_of_same (fun token => (same token).symm) legible')
      rw [floorGaps_of_illegible apart separate' illegible',
        floorGaps_of_illegible apart separate legible]
  floor := by
    intro expected member
    rw [hasGap_iff apart separate member]
    rcases agree expected member with ⟨refuses, reach⟩ | ⟨refuses, legible, -⟩
    · refine iff_of_false ?_ (not_not.mpr refuses)
      rintro ⟨legible, some_⟩
      obtain ⟨token, inside, digits, stated, -⟩ := refuses
      obtain ⟨size, last⟩ := exists_lastSize inside stated
      obtain ⟨source, among, digits, ends, rfl⟩ := exists_of_lastSize last
      apply some_
      rw [floorGap_eq_nil, last]
      exact ⟨_, rfl, reach legible source among digits ends⟩
    · refine iff_of_true ⟨legible, ?_⟩ refuses
      rw [Ne, floorGap_eq_nil]
      rintro ⟨size, last, reaches⟩
      obtain ⟨token, inside, digits, ends, rfl⟩ := exists_of_lastSize last
      exact refuses ⟨token, inside, digits, List.mem_of_getLast? ends, reaches⟩

end Floors

/-! ## The policy -/

/-- A policy is read the same in every layout; and where no token goes on in another one,
its gaps are those of the set of its tokens exactly if the last constraints of the tokens
agree with all of them. -/
theorem policy_readAsSet_iff (tables : CaseTables) (isWord : Char → Bool)
    (apart : isWord ' ' = false) :
    (∀ text text', Relation.ReflTransGen Relaid (splitLines text) (splitLines text') →
      parsePolicy text' = parsePolicy text) ∧
    ∀ tokens, Separate tables tokens →
      (ReadAsSet tables isWord tokens ↔ LastsAgree tables isWord tokens) :=
  ⟨fun _ _ => parsePolicy_relaid, fun _ separate =>
    ⟨fun law => law.lastsAgree apart separate, fun agree =>
      agree.readAsSet apart separate⟩⟩

/-- The word characters of US-ASCII. -/
def asciiWord (char : Char) : Bool := char.isAlphanum || char == '_'

/-- A policy with one constraint for each family, and one without a family. -/
def plainPolicy : List (List Char) :=
  ["RC4".toList, "RSA keySize < 2048".toList, "DH keySize < 1024".toList,
    "keySize < 512".toList]

theorem plainPolicy_readAsSet : ReadAsSet plainTables asciiWord plainPolicy := by
  have filled : ∀ token ∈ plainPolicy, lstrip (plainTables.upper token) ≠ [] := by
    decide +kernel
  have ends : ∀ token ∈ plainPolicy, ∀ other ∈ plainPolicy,
      ¬ GoesOn plainTables (plainTables.upper token) (plainTables.upper other) := by
    decide +kernel
  exact ((policy_readAsSet_iff plainTables asciiWord (by decide)).2 plainPolicy
    ⟨filled, ends⟩).mpr (by decide +kernel)

/-- Two constraints of one family, the lower one behind the other. -/
def loweredPolicy : List Char :=
  "jdk.tls.disabledAlgorithms=RSA keySize < 2048, RSA keySize < 1024".toList

/-- The constraint that reaches the floor is not seen behind the lower one, and is seen
before it: the gaps depend on the order. -/
theorem loweredPolicy_gap : ∃ high low,
    (parsePolicy loweredPolicy).get? propTls.toList = some [high, low] ∧
      Refuses plainTables asciiWord [high, low] ("RSA", 2048) ∧
      HasGap plainTables asciiWord [high, low] "RSA" ∧
      emitGaps plainTables asciiWord [low, high] ≠ emitGaps plainTables asciiWord
        [high, low] := by
  refine ⟨"RSA keySize < 2048".toList, "RSA keySize < 1024".toList, ?_, ?_, ?_, ?_⟩
  · decide +kernel
  · decide +kernel
  · rw [HasGap]
    decide +kernel
  · decide +kernel

end Probes
end PqcScan
