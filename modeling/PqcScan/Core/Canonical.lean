import PqcScan.Core.Deadlines
import Mathlib.Data.List.Find

/-!
# Spellings of a name

`normalise` looks a name up as it stands among the object identifiers, and in lower case
and stripped among the aliases; any other name it puts in upper case and does not strip.
Which of `classify`, `hndl_exposed` and `migration_deadline` see the difference between
two spellings of a US-ASCII name.
-/

namespace PqcScan
namespace Core

open Library Python

/-- Text of the US-ASCII alphabet. -/
def Ascii (text : List Char) : Prop := ∀ char ∈ text, char.toNat < 128

/-- White space of the US-ASCII alphabet. -/
def Blank (text : List Char) : Prop :=
  ∀ char ∈ text, isSpace char = true ∧ char.toNat < 128

namespace CaseTables

variable (tables : CaseTables)

/-- `str.lower` changes the letters of US-ASCII text and nothing else. -/
def LowersAscii : Prop := ∀ text, Ascii text → tables.lower text = Python.lower text

/-- The three functions do not tell two names apart. -/
structure SameVerdicts (left right : List Char) : Prop where
  classify : tables.classify left = tables.classify right
  hndlExposed : tables.hndlExposed left = tables.hndlExposed right
  migrationDeadline : ∀ classification,
    tables.migrationDeadline left classification =
      tables.migrationDeadline right classification

/-- No rule applies that reads the beginning or the end of the name. -/
structure Unanchored (name : List Char) : Prop where
  notReady : pqcReadyPrefixes.any (startsWith name) = false
  notKey : keyEstablishmentHeads.any (startsWith name) = false
  notBroken : (oneOf name broken || oneOf name ["DSA"]) = false
  noSize : tables.sizeAfter ["DSA"] name = none
  rest : tables.namesCurve name = true ∨
    (["ECDSA", "ECDH", "ED25519", "ED448", "SM2"].any (startsWith name) ||
      oneOf name ["ECDSA", "EDDSA"]) = false ∧ classifySymmetric name = .info

/-- The name of an object identifier is decided by no rule; any other name is an alias, or
is decided by what stands anywhere in it. -/
def Strippable (alg : List Char) : Prop :=
  match lookupOid alg with
  | some name =>
      pqcReady (tables.upper name) = false ∧ tables.Unanchored (tables.upper name) ∧
        tables.namesCurve (tables.upper name) = false
  | none =>
      (lookupName friendlyMap (strip (tables.lower alg))).isSome = true ∨
        pqcHybridFragments.any (contains (tables.upper alg)) = true ∨
          tables.Unanchored (tables.upper alg)

variable {tables}

theorem sameVerdicts_of {left right : List Char}
    (classified : tables.classify left = tables.classify right)
    (exposed : tables.hndlExposed left = tables.hndlExposed right) :
    tables.SameVerdicts left right where
  classify := classified
  hndlExposed := exposed
  migrationDeadline := by
    have dated : tables.deadlineFor left = tables.deadlineFor right := by
      funext cls
      rw [deadlineFor, deadlineFor, exposed]
    intro classification
    cases classification with
    | none => rw [migrationDeadline, migrationDeadline, classified, dated]
    | some cls => rw [migrationDeadline, migrationDeadline, dated]

/-- Only the canonical name counts. -/
theorem sameVerdicts_of_canonical {left right : List Char}
    (same : tables.canonical left = tables.canonical right) :
    tables.SameVerdicts left right := by
  apply sameVerdicts_of
  · rw [CaseTables.classify, CaseTables.classify, same]
  · rw [CaseTables.hndlExposed, CaseTables.hndlExposed, isKeyEstablishment,
      isKeyEstablishment, same]

/-! ## Letter case -/

theorem ascii_upper {text : List Char} (ascii : Ascii text) :
    Ascii (Python.upper text) := by
  intro char member
  obtain ⟨source, here, rfl⟩ := List.mem_map.mp member
  have small : ∀ char : Char, char.toNat < 128 → char.toUpper.toNat < 128 := by
    apply forall_char
    · decide
    · intro char _ upper
      rw [upper]
      exact id
  exact small source (ascii source here)

theorem ascii_lower {text : List Char} (ascii : Ascii text) :
    Ascii (Python.lower text) := by
  intro char member
  obtain ⟨source, here, rfl⟩ := List.mem_map.mp member
  exact toLower_ascii source (ascii source here)

theorem toLower_of_not_alpha (char : Char) :
    char.toLower.isAlpha = false → char.toLower = char := by
  revert char
  apply forall_char
  · decide
  · intro char lower _ _
    exact lower

theorem toUpper_of_not_alpha (char : Char) :
    char.toUpper.isAlpha = false → char.toUpper = char := by
  revert char
  apply forall_char
  · decide
  · intro char _ upper _
    exact upper

/-- Changing letters does not make an object identifier, nor unmake one. -/
theorem lookupOid_map {change : Char → Char}
    (kept : ∀ char, (change char).isAlpha = char.isAlpha)
    (letters : ∀ char, (change char).isAlpha = false → change char = char)
    (text : List Char) :
    lookupOid (text.map change) = lookupOid text := by
  have same : ∀ entry ∈ oidMap, dotted entry.1 = text.map change ↔
      dotted entry.1 = text := by
    intro entry member
    have plain := List.all_eq_true.mp (lettered_oid entry member)
    have settled : (∀ char ∈ text, char.isAlpha = false) → text.map change = text := by
      intro digits
      conv_rhs => rw [← List.map_id text]
      apply List.map_congr_left
      intro char here
      apply letters
      rw [kept]
      exact digits char here
    constructor
    · intro equal
      rw [equal]
      apply settled
      intro char here
      have letter := plain (change char) (by rw [equal]; exact List.mem_map_of_mem here)
      rw [kept] at letter
      simpa using letter
    · intro equal
      rw [settled]
      · exact equal
      · intro char here
        have letter := plain char (by rw [equal]; exact here)
        simpa using letter
  have found : oidMap.find? (fun entry => dotted entry.1 == text.map change) =
      oidMap.find? fun entry => dotted entry.1 == text := by
    apply List.find?_congr
    intro entry member
    rw [Bool.eq_iff_iff, beq_iff_eq, beq_iff_eq]
    exact same entry member
  rw [lookupOid, lookupOid, found]

theorem isAlpha_toLower (char : Char) : char.toLower.isAlpha = char.isAlpha := by
  rw [← isAlpha_toUpper char.toLower, toUpper_toLower, isAlpha_toUpper]

theorem lookupOid_lower (text : List Char) :
    lookupOid (Python.lower text) = lookupOid text :=
  lookupOid_map isAlpha_toLower toLower_of_not_alpha text

theorem lookupOid_upper (text : List Char) :
    lookupOid (Python.upper text) = lookupOid text :=
  lookupOid_map isAlpha_toUpper toUpper_of_not_alpha text

/-! ## Canonical names -/

/-- The name that the tables have for a text, or the text. -/
def tabled (text : List Char) : List Char :=
  (lookupOid text).getD ((lookupName friendlyMap (strip (Python.lower text))).getD text)

theorem oidMap_bytes : ∀ entry ∈ oidMap, AsciiBytes entry.2 := by
  decide

/-- The canonical name of US-ASCII text. -/
theorem canonical_ascii (lowers : tables.LowersAscii) {text : List Char}
    (ascii : Ascii text) :
    tables.canonical text = Python.upper (tabled text) := by
  rw [CaseTables.canonical, CaseTables.normalise, tabled, lowers text ascii]
  cases oid : lookupOid text with
  | some name =>
      rw [lookupOid, Option.map_eq_some_iff] at oid
      obtain ⟨entry, found, rfl⟩ := oid
      have bytes := oidMap_bytes entry (List.mem_of_find?_eq_some found)
      exact tables.upper_ascii (ascii_of_bytes bytes)
  | none =>
      cases friendly : lookupName friendlyMap (strip (Python.lower text)) with
      | some name =>
          obtain ⟨entry, member, -, rfl⟩ := lookupName_mem friendly
          exact tables.upper_ascii (aliases_ascii entry member).2
      | none =>
          dsimp only [Option.getD_none]
          rw [tables.upper_upper, tables.upper_ascii ascii]

/-- The names of the tables are canonical but for their case. -/
theorem tabled_value : ∀ name ∈ oidMap.map (·.2.toList) ++ friendlyMap.map (·.2.toList),
    Python.upper (tabled name) = Python.upper name := by
  have names : oidMap.map (·.2.toList) ++ friendlyMap.map (·.2.toList) =
      oidMap.map (spelled ·.2) ++ friendlyMap.map (spelled ·.2) := by
    rw [List.map_congr_left fun entry member =>
      toList_eq_spelled (oidMap_bytes entry member),
      List.map_congr_left fun entry member =>
        toList_eq_spelled (friendlyMap_bytes entry member).2]
  have checked : ∀ name ∈ oidMap.map (spelled ·.2) ++ friendlyMap.map (spelled ·.2),
      (Python.lower name).any Char.isAlpha = true ∧
        Python.upper ((lookupSpelled friendlyMap (strip (Python.lower name))).getD name) =
          Python.upper name := by
    decide +kernel
  intro name listed
  rw [names] at listed
  obtain ⟨lettered, same⟩ := checked name listed
  rw [tabled, lookupOid_eq_none lettered, lookupName_eq_spelled friendlyMap_bytes]
  exact same

theorem upper_tabled_upper (text : List Char) :
    Python.upper (tabled (Python.upper text)) = Python.upper (tabled text) := by
  rw [tabled, tabled, lookupOid_upper, lower_upper]
  cases lookupOid text with
  | some name => rfl
  | none =>
      cases lookupName friendlyMap (strip (Python.lower text)) with
      | some name => rfl
      | none => exact Python.upper_upper text

theorem upper_tabled_lower (text : List Char) :
    Python.upper (tabled (Python.lower text)) = Python.upper (tabled text) := by
  have twice : Python.lower (Python.lower text) = Python.lower text := by
    rw [← lower_upper (Python.lower text), upper_lower, lower_upper]
  rw [tabled, tabled, lookupOid_lower, twice]
  cases lookupOid text with
  | some name => rfl
  | none =>
      cases lookupName friendlyMap (strip (Python.lower text)) with
      | some name => rfl
      | none => exact upper_lower text

/-- `normalise` of US-ASCII text: a name of the tables, or the text in upper case. -/
theorem normalise_ascii (lowers : tables.LowersAscii) {text : List Char}
    (ascii : Ascii text) :
    tables.normalise text ∈ oidMap.map (·.2.toList) ++ friendlyMap.map (·.2.toList) ∧
        tables.normalise text = tabled text ∨
      tables.normalise text = Python.upper text ∧ tabled text = text := by
  rw [CaseTables.normalise, tabled, lowers text ascii]
  cases oid : lookupOid text with
  | some name =>
      rw [lookupOid, Option.map_eq_some_iff] at oid
      obtain ⟨entry, found, rfl⟩ := oid
      refine Or.inl ⟨List.mem_append_left _ ?_, rfl⟩
      exact List.mem_map_of_mem (List.mem_of_find?_eq_some found)
  | none =>
      cases friendly : lookupName friendlyMap (strip (Python.lower text)) with
      | some name =>
          obtain ⟨entry, member, -, rfl⟩ := lookupName_mem friendly
          exact Or.inl ⟨List.mem_append_right _ (List.mem_map_of_mem member), rfl⟩
      | none => exact Or.inr ⟨tables.upper_ascii ascii, rfl⟩

theorem ascii_normalise (lowers : tables.LowersAscii) {text : List Char}
    (ascii : Ascii text) :
    Ascii (tables.normalise text) := by
  rcases normalise_ascii lowers ascii with ⟨listed, -⟩ | ⟨upper, -⟩
  · rcases List.mem_append.mp listed with oid | friendly
    · obtain ⟨entry, member, same⟩ := List.mem_map.mp oid
      rw [← same]
      exact ascii_of_bytes (oidMap_bytes entry member)
    · obtain ⟨entry, member, same⟩ := List.mem_map.mp friendly
      rw [← same]
      exact (aliases_ascii entry member).2
  · rw [upper]
    exact ascii_upper ascii

/-- Normalising a name does not change its canonical name. -/
theorem canonical_normalise (lowers : tables.LowersAscii) {text : List Char}
    (ascii : Ascii text) :
    tables.canonical (tables.normalise text) = tables.canonical text := by
  rw [canonical_ascii lowers (ascii_normalise lowers ascii), canonical_ascii lowers ascii]
  rcases normalise_ascii lowers ascii with ⟨listed, same⟩ | ⟨upper, same⟩
  · rw [tabled_value _ listed, same]
  · rw [upper, upper_tabled_upper]

theorem canonical_lower (lowers : tables.LowersAscii) {text : List Char}
    (ascii : Ascii text) :
    tables.canonical (tables.lower text) = tables.canonical text := by
  rw [lowers text ascii, canonical_ascii lowers (ascii_lower ascii),
    canonical_ascii lowers ascii, upper_tabled_lower]

theorem canonical_upper (lowers : tables.LowersAscii) {text : List Char}
    (ascii : Ascii text) :
    tables.canonical (tables.upper text) = tables.canonical text := by
  rw [tables.upper_ascii ascii, canonical_ascii lowers (ascii_upper ascii),
    canonical_ascii lowers ascii, upper_tabled_upper]

end CaseTables

/-! ## White space -/

theorem strip_padded {before after : List Char} (front : Blank before)
    (back : Blank after)
    (text : List Char) : strip (before ++ (text ++ after)) = strip text :=
  strip_spaced (fun char member => (front char member).1) (fun char member =>
    (back char member).1)
    text

/-- A part without white space stands in the text itself. -/
theorem infix_padded {before after part : List Char} (front : Blank before)
    (back : Blank after)
    (plain : ∀ char ∈ part, isSpace char = false) (text : List Char) :
    part <:+: before ++ (text ++ after) ↔ part <:+: text := by
  constructor
  · intro within
    have inside := infix_strip within plain
    rw [strip_padded front back] at inside
    apply inside.trans
    rw [strip, ← List.reverse_infix, List.reverse_reverse]
    exact (List.dropWhile_suffix _).isInfix.trans
      (List.reverse_infix.mpr (List.dropWhile_suffix _).isInfix)
  · intro within
    exact within.trans ⟨before, after, by rw [List.append_assoc]⟩

theorem contains_padded {before after : List Char} (front : Blank before)
    (back : Blank after)
    {fragment : String} (plain : ∀ char ∈ fragment.toList, isSpace char = false)
    (text : List Char) :
    contains (before ++ (text ++ after)) fragment = contains text fragment := by
  rw [Bool.eq_iff_iff, contains_iff, contains_iff]
  exact infix_padded front back plain text

/-- A literal without white space that begins the padded text begins the text. -/
theorem startsWith_padded {before after : List Char} (front : Blank before)
    (back : Blank after)
    {head : String} (filled : head.toList ≠ [])
    (plain : ∀ char ∈ head.toList, isSpace char = false)
    {text : List Char} (absent : startsWith text head = false) :
    startsWith (before ++ (text ++ after)) head = false := by
  rw [Bool.eq_false_iff, Ne, startsWith_iff] at absent ⊢
  intro starts
  obtain ⟨first, others, spelled⟩ := List.exists_cons_of_ne_nil filled
  cases before with
  | cons space before =>
      rw [spelled, List.cons_append, List.cons_prefix_cons] at starts
      have visible := plain first (by rw [spelled]; exact List.mem_cons_self)
      rw [starts.1, (front space List.mem_cons_self).1] at visible
      cases visible
  | nil =>
      rw [List.nil_append] at starts
      rcases List.prefix_or_prefix_of_prefix starts (List.prefix_append text after) with
        inside | ⟨tail, spelled⟩
      · exact absent inside
      · rw [← spelled, List.prefix_append_right_inj] at starts
        cases tail with
        | nil => exact absent ⟨[], by rw [← spelled, List.append_nil, List.append_nil]⟩
        | cons space tail =>
            have blank := (back space (starts.subset List.mem_cons_self)).1
            have visible := plain space (by
              rw [← spelled]
              exact List.mem_append_right _ List.mem_cons_self)
            rw [blank] at visible
            cases visible

/-- Text with white space is no name without any. -/
theorem oneOf_padded {before after : List Char} (front : Blank before)
    (back : Blank after)
    (padded : before ++ after ≠ []) {names : List String}
    (plain : ∀ name ∈ names, ∀ char ∈ name.toList, isSpace char = false)
    (text : List Char) :
    oneOf (before ++ (text ++ after)) names = false := by
  rw [oneOf, List.any_eq_false]
  intro name listed same
  rw [beq_iff_eq] at same
  obtain ⟨space, here⟩ := List.exists_mem_of_ne_nil _ padded
  have blank : isSpace space = true := by
    rcases List.mem_append.mp here with left | right
    · exact (front space left).1
    · exact (back space right).1
  have visible := plain name listed space (by
    rw [same]
    rcases List.mem_append.mp here with left | right
    · exact List.mem_append_left _ left
    · exact List.mem_append_right _ (List.mem_append_right _ right))
  rw [blank] at visible
  cases visible

theorem isDigit_of_isSpace (char : Char) :
    isSpace char = true → char.isDigit = false := by
  intro space
  rw [Bool.eq_false_iff]
  intro digit
  simp only [isSpace, Bool.or_eq_true, Bool.and_eq_true, decide_eq_true_eq,
    beq_iff_eq] at space
  rw [Char.isDigit, Bool.and_eq_true, decide_eq_true_eq, decide_eq_true_eq] at digit
  have low : 48 ≤ char.toNat := UInt32.le_iff_toNat_le.mp digit.1
  have high : char.toNat ≤ 57 := UInt32.le_iff_toNat_le.mp digit.2
  omega

/-! ## Curves -/

theorem matchesHead_append {literals text : List Char}
    (starts : matchesHead literals text = true)
    (rest : List Char) : matchesHead literals (text ++ rest) = true := by
  induction literals generalizing text with
  | nil => rfl
  | cons literal literals inductionHypothesis =>
      cases text with
      | nil => cases starts
      | cons char text =>
          rw [matchesHead, Bool.and_eq_true] at starts
          rw [List.cons_append, matchesHead, starts.1, inductionHypothesis starts.2]
          rfl

theorem matchesHead_take {literals text : List Char}
    (starts : matchesHead literals text = true)
    {size : Nat} (enough : literals.length ≤ size) :
    matchesHead literals (text.take size) = true := by
  induction literals generalizing text size with
  | nil => rfl
  | cons literal literals inductionHypothesis =>
      cases text with
      | nil => cases starts
      | cons char text =>
          obtain ⟨smaller, rfl⟩ : ∃ smaller, size = smaller + 1 :=
            ⟨size - 1, by rw [List.length_cons] at enough; omega⟩
          rw [matchesHead, Bool.and_eq_true] at starts
          rw [List.take_succ_cons, matchesHead, starts.1,
            inductionHypothesis starts.2 (by rw [List.length_cons] at enough; omega)]
          rfl

/-- No literal matches white space. -/
theorem visible_of_matchesHead {literals text : List Char}
    (starts : matchesHead literals text = true)
    (plain : ∀ literal ∈ literals, isSpace literal = false) :
    ∀ char ∈ text.take literals.length, isSpace char = false := by
  have lowered : ∀ char : Char, isSpace char.toLower = isSpace char := by
    apply forall_char
    · decide +kernel
    · intro char lower _
      rw [lower]
  have same : ∀ literal char, isSpace literal = false → sameLetter literal char = true →
      isSpace char = false := by
    intro literal char visible matched
    simp only [sameLetter, Bool.or_eq_true, Bool.and_eq_true, beq_iff_eq] at matched
    rcases matched with ((equal | ⟨-, rfl | rfl⟩) | ⟨-, rfl⟩) | ⟨-, rfl⟩
    · rw [← lowered, equal, lowered]
      exact visible
    · decide
    · decide
    · decide
    · decide
  induction literals generalizing text with
  | nil => simp
  | cons literal literals inductionHypothesis =>
      cases text with
      | nil => cases starts
      | cons first text =>
          rw [matchesHead, Bool.and_eq_true] at starts
          intro char member
          rw [List.length_cons, List.take_succ_cons] at member
          rcases List.mem_cons.mp member with rfl | later
          · exact same literal char (plain literal List.mem_cons_self) starts.1
          · exact inductionHypothesis starts.2
              (fun other within => plain other (List.mem_cons_of_mem _ within)) char later

namespace CaseTables

variable {tables : CaseTables}

/-- What `_EC_BITS_RE` matches. -/
structure CurvePart (tables : CaseTables) (part : List Char) (head : String) : Prop where
  listed : head ∈ ["P-", "P", "SECP", "PRIME"]
  starts : matchesHead head.toList part = true
  digits : spans 3 3 tables.isDigit (part.drop head.toList.length) = true

theorem namesCurve_iff {text : List Char} :
    tables.namesCurve text = true ↔ ∃ part head, part <:+: text ∧
    tables.CurvePart part head := by
  rw [namesCurve, List.any_eq_true]
  constructor
  · rintro ⟨rest, within, found⟩
    obtain ⟨head, listed, matched⟩ := List.any_eq_true.mp found
    rw [Bool.and_eq_true] at matched
    refine ⟨rest.take (head.toList.length + 3), head, ?_, listed, ?_, ?_⟩
    · exact (List.take_prefix _ _).isInfix.trans ((List.mem_tails _ _).mp within).isInfix
    · exact matchesHead_take matched.1 (by omega)
    · rw [List.drop_take, Nat.add_sub_cancel_left]
      exact matched.2
  · rintro ⟨part, head, ⟨front, rest, rfl⟩, listed, starts, digits⟩
    refine ⟨part ++ rest, (List.mem_tails _ _).mpr ⟨front, by rw [List.append_assoc]⟩,
      List.any_eq_true.mpr ⟨head, listed, ?_⟩⟩
    have three : (part.drop head.toList.length).length = 3 := by
      simp only [spans, Bool.and_eq_true, decide_eq_true_eq] at digits
      omega
    have whole : ((part ++ rest).drop head.toList.length).take 3 =
        part.drop head.toList.length := by
      rw [List.drop_append_of_le_length
        (by rw [List.length_drop] at three; omega), ← three, List.take_left]
    rw [Bool.and_eq_true, whole]
    exact ⟨matchesHead_append starts rest, digits⟩

theorem isDigit_of_blank {char : Char} (space : isSpace char = true)
    (ascii : char.toNat < 128) :
    tables.isDigit char = false := by
  rw [CaseTables.isDigit, tables.digit_ascii char ascii, isDigit_of_isSpace char space]

/-- A name of a curve has no white space. -/
theorem CurvePart.visible {part : List Char} {head : String}
    (curve : tables.CurvePart part head)
    (ascii : Ascii part) : ∀ char ∈ part, isSpace char = false := by
  have plain : ∀ head ∈ ["P-", "P", "SECP", "PRIME"], ∀ literal ∈ head.toList,
      isSpace literal = false := by
    decide
  intro char member
  rw [← List.take_append_drop head.toList.length part, List.mem_append] at member
  rcases member with front | back
  · exact visible_of_matchesHead curve.starts (plain head curve.listed) char front
  · have digits := curve.digits
    simp only [spans, Bool.and_eq_true] at digits
    have digit := List.all_eq_true.mp digits.2 char back
    by_contra space
    rw [isDigit_of_blank (by simpa using space)
      (ascii char (List.mem_of_mem_drop back))] at digit
    cases digit

theorem namesCurve_padded {before after text : List Char} (front : Blank before)
    (back : Blank after) (ascii : Ascii text) :
    tables.namesCurve (before ++ (text ++ after)) = tables.namesCurve text := by
  have whole : Ascii (before ++ (text ++ after)) := by
    intro char member
    rcases List.mem_append.mp member with left | member
    · exact (front char left).2
    · rcases List.mem_append.mp member with middle | right
      · exact ascii char middle
      · exact (back char right).2
  rw [Bool.eq_iff_iff, namesCurve_iff, namesCurve_iff]
  refine exists_congr fun part => exists_congr fun head => and_congr_left fun curve => ?_
  constructor
  · intro within
    exact (infix_padded front back
      (curve.visible fun char member => whole char (within.subset member)) text).mp within
  · intro within
    exact (infix_padded front back
      (curve.visible fun char member =>
        ascii char (within.subset member)) text).mpr within

/-! ## Sizes -/

/-- White space behind a number that is read is a line break. -/
theorem trailingDigits_padded {after text : List Char} (back : Blank after)
    (none_ : tables.trailingDigits text = none) :
    tables.trailingDigits (text ++ after) = none := by
  rcases List.eq_nil_or_concat' after with rfl | ⟨front, last, rfl⟩
  · rw [List.append_nil]
    exact none_
  · have blank := back last (by simp)
    by_contra some_
    obtain ⟨digits, found⟩ := Option.ne_none_iff_exists'.mp some_
    simp only [trailingDigits, ← List.append_assoc, List.getLast?_concat,
      Option.some.injEq, List.dropLast_concat] at found
    split at found
    · split at found
      · next numeric =>
          have nothing : front = [] := by
            cases front with
            | nil => rfl
            | cons space front =>
                have digit := List.all_eq_true.mp numeric.2 space (by simp)
                have other := back space (by simp)
                rw [isDigit_of_blank other.1 other.2] at digit
                cases digit
          rw [nothing, List.append_nil] at numeric
          have kept : text.getLast? ≠ some '\n' := by
            intro ends
            have digit := List.all_eq_true.mp numeric.2 '\n' (List.mem_of_getLast? ends)
            rw [isDigit_of_blank (by decide) (by decide)] at digit
            cases digit
          rw [trailingDigits, if_neg kept] at none_
          rw [if_pos numeric] at none_
          cases none_
      · cases found
    · split at found
      · next numeric =>
          have digit := List.all_eq_true.mp numeric.2 last (by simp)
          rw [isDigit_of_blank blank.1 blank.2] at digit
          cases digit
      · cases found

theorem dsaSize_padded {before after text : List Char} (front : Blank before)
    (back : Blank after)
    (settled : tables.Settled text) (none_ : tables.sizeAfter ["DSA"] text = none)
    (whole : tables.Settled (before ++ (text ++ after))) :
    tables.sizeAfter ["DSA"] (before ++ (text ++ after)) = none := by
  have plain : Plain "DSA".toList := by decide
  have visible : "DSA".toList ≠ [] ∧ ∀ char ∈ "DSA".toList, isSpace char = false := by
    decide
  by_cases starts : startsWith text "DSA" = true
  · cases before with
    | cons space before =>
        apply sizeAfter_eq_none whole
        · simpa using plain
        · intro head member
          rw [List.mem_singleton.mp member, Bool.eq_false_iff, Ne, startsWith_iff]
          intro also
          have first : 'D' = space := (List.cons_prefix_cons.mp
            (show 'D' :: ['S', 'A'] <+: space :: (before ++ (text ++ after)) from also)).1
          have blank := (front space List.mem_cons_self).1
          rw [← first] at blank
          exact absurd blank (by decide)
    | nil =>
        obtain ⟨rest, rfl⟩ := startsWith_iff.mp starts
        rw [sizeAfter, List.findSome?_eq_none_iff] at none_ ⊢
        intro head member
        have read := none_ head member
        rw [List.mem_singleton.mp member, matchesHead_settled plain settled,
          if_pos starts, List.drop_left] at read
        have also : startsWith ([] ++ ("DSA".toList ++ rest ++ after)) "DSA" = true := by
          rw [startsWith_iff, List.nil_append, List.append_assoc]
          exact List.prefix_append _ _
        rw [List.mem_singleton.mp member, matchesHead_settled plain whole, if_pos also,
          List.nil_append, List.append_assoc, List.drop_left]
        dsimp only at read ⊢
        cases rest with
        | nil =>
            rw [List.nil_append]
            cases after with
            | nil => exact read
            | cons space after =>
                have dash : (space :: after).head? ≠ some '-' := by
                  rw [List.head?_cons, Ne, Option.some.injEq]
                  rintro rfl
                  exact absurd (back '-' List.mem_cons_self).1 (by decide)
                rw [if_neg dash]
                exact @trailingDigits_padded _ (space :: after) [] back rfl
        | cons char rest =>
            rw [List.cons_append, List.head?_cons]
            rw [List.head?_cons] at read
            split at read
            · next dash =>
                rw [if_pos dash]
                exact trailingDigits_padded back read
            · next other =>
                rw [if_neg other]
                exact trailingDigits_padded back read
  · rw [Bool.not_eq_true] at starts
    apply sizeAfter_eq_none whole
    · simpa using plain
    · intro head member
      rw [List.mem_singleton.mp member]
      exact startsWith_padded front back visible.1 visible.2 starts

/-! ## Padded names -/

/-- The literals of the rules, none of them empty, have no white space. -/
def ruleLiterals : List String :=
  pqcReadyPrefixes ++ pqcHybridFragments ++ keyEstablishmentHeads ++ broken ++
    ["DSA", "RSA-"] ++
    laterHeads ++ ["AES_256", "AES_128"]

theorem ruleLiterals_visible : ∀ literal ∈ ruleLiterals,
    literal.toList ≠ [] ∧ ∀ char ∈ literal.toList, isSpace char = false := by
  apply @forall_spelled _ fun chars => chars ≠ [] ∧ ∀ char ∈ chars, isSpace char = false
  decide

/-- A name that the anchored rules before the curves leave alone. -/
theorem classifyName_of_unanchored {name : List Char} (settled : tables.Settled name)
    (notReady : pqcReady name = false)
    (notKey : keyEstablishmentHeads.any (startsWith name) = false)
    (notBroken : (oneOf name broken || oneOf name ["DSA"]) = false)
    (noSize : tables.sizeAfter ["DSA"] name = none) :
    tables.classifyName name =
      if ["ECDSA", "ECDH", "ED25519", "ED448", "SM2"].any (startsWith name) ||
          oneOf name ["ECDSA", "EDDSA"] || tables.namesCurve name then some .tinggi
      else some (classifySymmetric name) := by
  have absent : ∀ head ∈ keyEstablishmentHeads, startsWith name head = false :=
    fun head member => Bool.eq_false_iff.mpr (List.any_eq_false.mp notKey head member)
  have rsa := absent "RSA" (by decide)
  have rsaSize : tables.sizeAfter ["RSA"] name = none := by
    apply sizeAfter_eq_none settled (by decide)
    intro head member
    rw [List.mem_singleton.mp member]
    exact rsa
  have dhSize : tables.sizeAfter ["DH", "DHE", "FFDHE"] name = none := by
    apply sizeAfter_eq_none settled (by decide)
    intro head member
    exact absent head
      ((by decide : ["DH", "DHE", "FFDHE"] ⊆ keyEstablishmentHeads) member)
  have rsaDash : startsWith name "RSA-" = false := by
    rw [Bool.eq_false_iff, Ne, startsWith_iff] at rsa ⊢
    intro starts
    exact rsa ((by decide : "RSA".toList <+: "RSA-".toList).trans starts)
  have rsaName : oneOf name ["RSA"] = false := oneOf_eq_false fun head member => by
    rw [List.mem_singleton.mp member]
    exact rsa
  simp only [CaseTables.classifyName, notReady, notBroken, rsaSize, dhSize, noSize,
    rsa, rsaDash, rsaName, CaseTables.modulusOr, List.any_cons, List.any_nil,
    Bool.or_false, Bool.false_eq_true, if_false, Option.isSome_none]

theorem classifySymmetric_eq_info {name : List Char} :
    classifySymmetric name = .info ↔
      (startsWith name "TLS_" && (contains name "AES_256" || contains name "CHACHA20")) =
        false ∧
      (startsWith name "TLS_" && contains name "AES_128") = false ∧
      (startsWith name "AES-128" || oneOf name ["AES-128"]) = false ∧
      (["AES-192", "AES-256", "CHACHA20"].any (startsWith name) ||
        oneOf name ["AES-192", "AES-256"]) = false ∧
      oneOf name ["SHA-224", "SHA224"] = false ∧
      oneOf name ["SHA-256", "SHA256", "SHA3-256"] = false ∧
      oneOf name ["SHA-384", "SHA384", "SHA-512", "SHA512", "SHA3-384",
        "SHA3-512"] = false := by
  constructor
  · intro info
    unfold classifySymmetric at info
    split_ifs at info with tls256 tls128 aes aes192 aes256 sha224 sha256 sha512
    exact ⟨Bool.eq_false_iff.mpr tls256, Bool.eq_false_iff.mpr tls128,
      Bool.eq_false_iff.mpr aes, Bool.eq_false_iff.mpr aes256,
      Bool.eq_false_iff.mpr sha224, Bool.eq_false_iff.mpr sha256,
      Bool.eq_false_iff.mpr sha512⟩
  · rintro ⟨tls256, tls128, aes, aes256, sha224, sha256, sha512⟩
    simp only [classifySymmetric, tls256, tls128, aes, aes256, sha224, sha256, sha512,
      Bool.false_eq_true, if_false]

/-- The tier of a name that is decided by what stands anywhere in it. -/
theorem Unanchored.classifyName {name : List Char} (unanchored : tables.Unanchored name)
    (settled : tables.Settled name) (notReady : pqcReady name = false) :
    tables.classifyName name =
      if tables.namesCurve name then some .tinggi else some .info := by
  rw [classifyName_of_unanchored settled notReady unanchored.notKey unanchored.notBroken
    unanchored.noSize]
  rcases unanchored.rest with curve | ⟨heads, info⟩
  · rw [curve, Bool.or_true, if_pos rfl, if_pos rfl]
  · rw [heads, Bool.false_or, info]

/-- A name of one of these tiers that is not exposed is decided by
what stands anywhere in it. -/
theorem unanchored_of_tier {name : List Char} {curve : Bool}
    (settled : tables.Settled name)
    (notReady : pqcReady name = false)
    (notKey : keyEstablishmentHeads.any (startsWith name) = false)
    (named : curve = true → tables.namesCurve name = true)
    (tier : tables.classifyName name = if curve then some .tinggi else some .info) :
    tables.Unanchored name ∧ tables.namesCurve name = curve := by
  have notBroken : (oneOf name broken || oneOf name ["DSA"]) = false := by
    rw [Bool.eq_false_iff]
    intro listed
    rw [CaseTables.classifyName, if_neg (Bool.eq_false_iff.mp notReady),
      if_pos listed] at tier
    cases curve with
    | false => cases tier
    | true => cases tier
  have noSize : tables.sizeAfter ["DSA"] name = none := by
    by_contra sized
    have absent : ∀ head ∈ keyEstablishmentHeads, startsWith name head = false :=
      fun head member => Bool.eq_false_iff.mpr (List.any_eq_false.mp notKey head member)
    have rsa := absent "RSA" (by decide)
    have rsaSize : tables.sizeAfter ["RSA"] name = none := by
      apply sizeAfter_eq_none settled (by decide)
      intro head member
      rw [List.mem_singleton.mp member]
      exact rsa
    have dhSize : tables.sizeAfter ["DH", "DHE", "FFDHE"] name = none := by
      apply sizeAfter_eq_none settled (by decide)
      intro head member
      exact absent head
        ((by decide : ["DH", "DHE", "FFDHE"] ⊆ keyEstablishmentHeads) member)
    have rsaDash : startsWith name "RSA-" = false := by
      rw [Bool.eq_false_iff, Ne, startsWith_iff] at rsa ⊢
      intro starts
      exact rsa ((by decide : "RSA".toList <+: "RSA-".toList).trans starts)
    have rsaName : oneOf name ["RSA"] = false := oneOf_eq_false fun head member => by
      rw [List.mem_singleton.mp member]
      exact rsa
    simp only [CaseTables.classifyName, notReady, notBroken, rsaSize, dhSize, rsa,
      rsaDash, rsaName, CaseTables.modulusOr, List.any_cons, List.any_nil, Bool.or_false,
      Bool.false_eq_true, if_false, if_pos (Option.isSome_iff_ne_none.mpr sized)] at tier
    cases curve with
    | false => cases tier
    | true => cases tier
  rw [classifyName_of_unanchored settled notReady notKey notBroken noSize] at tier
  cases curve with
  | true =>
      exact ⟨⟨(Bool.or_eq_false_iff.mp notReady).1, notKey, notBroken, noSize,
        Or.inl (named rfl)⟩, named rfl⟩
  | false =>
      split at tier
      · cases tier
      · next other =>
          rw [Bool.not_eq_true, Bool.or_eq_false_iff] at other
          exact ⟨⟨(Bool.or_eq_false_iff.mp notReady).1, notKey, notBroken, noSize,
            Or.inr ⟨other.1, Option.some.inj tier⟩⟩, other.2⟩

/-- A name that no literal of the rules begins. -/
theorem unanchored_of_absent {name : List Char} (settled : tables.Settled name)
    (absent : ∀ literal ∈ ruleLiterals, startsWith name literal = false) :
    tables.Unanchored name := by
  have none_ : ∀ heads : List String, heads ⊆ ruleLiterals →
      heads.any (startsWith name) = false := by
    intro heads within
    rw [List.any_eq_false]
    intro head member
    rw [absent head (within member)]
    exact Bool.false_ne_true
  have other : ∀ names : List String, names ⊆ ruleLiterals → oneOf name names = false :=
    fun names within => oneOf_eq_false fun head member => absent head (within member)
  refine ⟨none_ _ (by decide), none_ _ (by decide), ?_, ?_, Or.inr ⟨?_, ?_⟩⟩
  · rw [other broken (by decide), other ["DSA"] (by decide)]
    rfl
  · apply sizeAfter_eq_none settled (by decide)
    intro head member
    rw [List.mem_singleton.mp member]
    exact absent "DSA" (by decide)
  · rw [none_ _ (by decide), other _ (by decide)]
    rfl
  · apply classifySymmetric_of_apart
    intro head member
    exact absent head ((by decide : laterHeads ⊆ ruleLiterals) member)

section Padding

variable {before after name : List Char} (front : Blank before) (back : Blank after)

include front back

theorem heads_padded {heads : List String} (within : heads ⊆ ruleLiterals)
    (absent : heads.any (startsWith name) = false) :
    heads.any (startsWith (before ++ (name ++ after))) = false := by
  rw [List.any_eq_false] at absent ⊢
  intro head member
  obtain ⟨filled, visible⟩ := ruleLiterals_visible head (within member)
  rw [startsWith_padded front back filled visible
    (Bool.eq_false_iff.mpr (absent head member))]
  exact Bool.false_ne_true

theorem names_padded (padded : before ++ after ≠ []) {names : List String}
    (within : names ⊆ ruleLiterals) : oneOf (before ++ (name ++ after)) names = false :=
  oneOf_padded front back padded
    (fun literal member => (ruleLiterals_visible literal (within member)).2) name

theorem fragments_padded : pqcHybridFragments.any (contains (before ++ (name ++ after))) =
    pqcHybridFragments.any (contains name) := by
  have same : ∀ fragment ∈ pqcHybridFragments,
      contains (before ++ (name ++ after)) fragment = contains name fragment := by
    intro fragment member
    exact contains_padded front back (ruleLiterals_visible fragment
      ((by decide : pqcHybridFragments ⊆ ruleLiterals) member)).2 name
  rw [Bool.eq_iff_iff, List.any_eq_true, List.any_eq_true]
  exact exists_congr fun fragment => and_congr_right fun member => by
    rw [same fragment member]

/-- White space around it leaves a name to what stands anywhere in it. -/
theorem unanchored_padded (padded : before ++ after ≠ []) (ascii : Ascii name)
    (settled : tables.Settled name) (whole : tables.Settled (before ++ (name ++ after)))
    (unanchored : tables.Unanchored name) :
    tables.Unanchored (before ++ (name ++ after)) := by
  have other : ∀ names : List String, names ⊆ ruleLiterals →
      oneOf (before ++ (name ++ after)) names = false := fun names within =>
    names_padded front back padded within
  refine ⟨heads_padded front back (by decide) unanchored.notReady,
    heads_padded front back (by decide) unanchored.notKey, ?_,
    dsaSize_padded front back settled unanchored.noSize whole, ?_⟩
  · rw [other broken (by decide), other ["DSA"] (by decide)]
    rfl
  · rw [namesCurve_padded front back ascii]
    rcases unanchored.rest with curve | ⟨heads, info⟩
    · exact Or.inl curve
    · right
      obtain ⟨tls256, tls128, aes128, aes256, -⟩ := classifySymmetric_eq_info.mp info
      have tls : startsWith name "TLS_" = false →
          startsWith (before ++ (name ++ after)) "TLS_" = false := by
        obtain ⟨filled, visible⟩ := ruleLiterals_visible "TLS_" (by decide)
        exact startsWith_padded front back filled visible
      have within : ∀ fragment ∈ ["AES_256", "CHACHA20", "AES_128"],
          contains (before ++ (name ++ after)) fragment = contains name fragment := by
        intro fragment member
        exact contains_padded front back (ruleLiterals_visible fragment
          ((by decide : ["AES_256", "CHACHA20", "AES_128"] ⊆ ruleLiterals) member)).2 name
      constructor
      · rw [heads_padded front back (by decide) (Bool.or_eq_false_iff.mp heads).1,
          other _ (by decide)]
        rfl
      · rw [classifySymmetric_eq_info, within "AES_256" (by decide),
          within "CHACHA20" (by decide), within "AES_128" (by decide)]
        refine ⟨?_, ?_, ?_, ?_, other _ (by decide), other _ (by decide),
          other _ (by decide)⟩
        · rcases Bool.and_eq_false_iff.mp tls256 with none_ | none_
          · rw [tls none_]
            rfl
          · rw [none_, Bool.and_false]
        · rcases Bool.and_eq_false_iff.mp tls128 with none_ | none_
          · rw [tls none_]
            rfl
          · rw [none_, Bool.and_false]
        · obtain ⟨filled, visible⟩ := ruleLiterals_visible "AES-128" (by decide)
          rw [startsWith_padded front back filled visible
            (Bool.or_eq_false_iff.mp aes128).1, other _ (by decide)]
          rfl
        · rw [heads_padded front back (by decide) (Bool.or_eq_false_iff.mp aes256).1,
            other _ (by decide)]
          rfl

end Padding

/-! ## Padded text -/

theorem hndlExposed_eq (alg : List Char) :
    tables.hndlExposed alg = (!pqcReady (tables.canonical alg) &&
      keyEstablishmentHeads.any (startsWith (tables.canonical alg))) := by
  have plain : ∀ head ∈ keyEstablishmentHeads, Plain head.toList := by decide
  have same : keyEstablishmentHeads.any
      (fun head => matchesHead head.toList (tables.canonical alg)) =
        keyEstablishmentHeads.any (startsWith (tables.canonical alg)) := by
    rw [Bool.eq_iff_iff, List.any_eq_true, List.any_eq_true]
    refine exists_congr fun head => and_congr_right fun member => ?_
    rw [matchesHead_settled (plain head member) (tables.canonical_settled alg)]
  rw [CaseTables.hndlExposed, isKeyEstablishment, ← same]
  cases pqcReady (tables.canonical alg) with
  | true => rfl
  | false => rfl

/-- The verdicts of a name that is decided by what stands anywhere in it. -/
theorem verdicts_of_unanchored {alg : List Char}
    (notReady : pqcReady (tables.canonical alg) = false)
    (unanchored : tables.Unanchored (tables.canonical alg)) :
    tables.classify alg =
        (if tables.namesCurve (tables.canonical alg) then some .tinggi else some .info) ∧
      tables.hndlExposed alg = false := by
  refine ⟨unanchored.classifyName (tables.canonical_settled alg) notReady, ?_⟩
  rw [hndlExposed_eq, unanchored.notKey, Bool.and_false]

/-- A name with the verdicts of one that is decided by what stands anywhere in it. -/
theorem unanchored_of_verdicts {alg : List Char} {curve : Bool}
    (classified : tables.classify alg = if curve then some .tinggi else some .info)
    (exposed : tables.hndlExposed alg = false)
    (named : curve = true → tables.namesCurve (tables.canonical alg) = true) :
    pqcReady (tables.canonical alg) = false ∧ tables.Unanchored (tables.canonical alg) ∧
      tables.namesCurve (tables.canonical alg) = curve := by
  have notReady : pqcReady (tables.canonical alg) = false := by
    rw [Bool.eq_false_iff]
    intro ready
    rw [(tables.classify_eq_pqcReady).mpr ready] at classified
    cases curve with
    | false => cases classified
    | true => cases classified
  rw [hndlExposed_eq, notReady, Bool.not_false, Bool.true_and] at exposed
  exact ⟨notReady, unanchored_of_tier
    (tables.canonical_settled alg) notReady exposed named
    classified⟩

theorem upper_blank {text : List Char} (blank : Blank text) : tables.upper text = text :=
  tables.upper_settled fun char member =>
    tables.upperChar_space char (blank char member).1

theorem upper_padded {before after : List Char} (front : Blank before)
    (back : Blank after)
    (text : List Char) : tables.upper (before ++ (text ++ after)) =
      before ++ (tables.upper text ++ after) := by
  rw [tables.upper_append, tables.upper_append, upper_blank front, upper_blank back]

theorem lower_blank {text : List Char} (blank : Blank text) :
    Python.lower text = text := by
  have kept : ∀ char : Char, isSpace char = true → char.toLower = char := by
    apply forall_char
    · decide
    · intro char lower _ _
      exact lower
  rw [Python.lower]
  conv_rhs => rw [← List.map_id text]
  exact List.map_congr_left fun char member => kept char (blank char member).1

theorem ascii_padded {before after text : List Char} (front : Blank before)
    (back : Blank after)
    (ascii : Ascii text) : Ascii (before ++ (text ++ after)) := by
  intro char member
  rcases List.mem_append.mp member with left | member
  · exact (front char left).2
  · rcases List.mem_append.mp member with middle | right
    · exact ascii char middle
    · exact (back char right).2

/-- The alias of a padded name is the name's. -/
theorem friendly_padded (lowers : tables.LowersAscii) {before after text : List Char}
    (front : Blank before) (back : Blank after) (ascii : Ascii text) :
    lookupName friendlyMap (strip (tables.lower (before ++ (text ++ after)))) =
      lookupName friendlyMap (strip (tables.lower text)) := by
  have lowered : Python.lower (before ++ (text ++ after)) =
      before ++ (Python.lower text ++ after) := by
    rw [Python.lower, List.map_append, List.map_append]
    change Python.lower before ++ (Python.lower text ++ Python.lower after) = _
    rw [lower_blank front, lower_blank back]
  rw [lowers _ (ascii_padded front back ascii), lowers _ ascii, lowered,
    strip_padded front back]

/-- No object identifier has white space. -/
theorem lookupOid_padded {before after : List Char} (front : Blank before)
    (back : Blank after)
    (padded : before ++ after ≠ []) (text : List Char) :
    lookupOid (before ++ (text ++ after)) = none := by
  have visible : ∀ entry ∈ oidMap, (dotted entry.1).all (fun char => !isSpace char) := by
    decide +kernel
  rw [lookupOid, Option.map_eq_none_iff, List.find?_eq_none]
  intro entry member same
  rw [beq_iff_eq] at same
  obtain ⟨space, here⟩ := List.exists_mem_of_ne_nil _ padded
  have plain := List.all_eq_true.mp (visible entry member) space (by
    rw [same]
    rcases List.mem_append.mp here with left | right
    · exact List.mem_append_left _ left
    · exact List.mem_append_right _ (List.mem_append_right _ right))
  have blank : isSpace space = true := by
    rcases List.mem_append.mp here with left | right
    · exact (front space left).1
    · exact (back space right).1
  rw [blank] at plain
  cases plain

/-- A name without letters is decided by no rule. -/
theorem undecided_of_unlettered {name : List Char} (settled : tables.Settled name)
    (ascii : Ascii name) (unlettered : ∀ char ∈ name, char.isAlpha = false) :
    pqcReady name = false ∧ tables.Unanchored name ∧ tables.namesCurve name = false := by
  have letters : ∀ literal ∈ ruleLiterals, literal.toList.any Char.isAlpha = true := by
    apply @forall_spelled _ fun chars => chars.any Char.isAlpha = true
    decide
  have absent : ∀ literal ∈ ruleLiterals, contains name literal = false := by
    intro literal member
    rw [Bool.eq_false_iff, Ne, contains_iff]
    intro within
    obtain ⟨letter, here, alpha⟩ := List.any_eq_true.mp (letters literal member)
    rw [unlettered letter (within.subset here)] at alpha
    cases alpha
  have starts : ∀ literal ∈ ruleLiterals, startsWith name literal = false := by
    intro literal member
    have nowhere := absent literal member
    rw [Bool.eq_false_iff, Ne, contains_iff] at nowhere
    rw [Bool.eq_false_iff, Ne, startsWith_iff]
    exact fun begun => nowhere begun.isInfix
  have unanchored := unanchored_of_absent settled starts
  refine ⟨?_, unanchored, ?_⟩
  · rw [pqcReady, unanchored.notReady, Bool.false_or, List.any_eq_false]
    intro fragment member
    rw [absent fragment ((by decide : pqcHybridFragments ⊆ ruleLiterals) member)]
    exact Bool.false_ne_true
  · rw [Bool.eq_false_iff, Ne, namesCurve_iff]
    rintro ⟨part, head, within, curve⟩
    have begins : ∀ head ∈ ["P-", "P", "SECP", "PRIME"],
        ∃ first others, head.toList = first :: others ∧ (first = 'P' ∨ first = 'S') := by
      intro head member
      simp only [List.mem_cons, List.not_mem_nil, or_false] at member
      rcases member with rfl | rfl | rfl | rfl
      · exact ⟨'P', ['-'], by decide, Or.inl rfl⟩
      · exact ⟨'P', [], by decide, Or.inl rfl⟩
      · exact ⟨'S', ['E', 'C', 'P'], by decide, Or.inr rfl⟩
      · exact ⟨'P', ['R', 'I', 'M', 'E'], by decide, Or.inl rfl⟩
    obtain ⟨first, others, spelled, capital⟩ := begins head curve.listed
    have matched := curve.starts
    rw [spelled] at matched
    cases part with
    | nil => cases matched
    | cons char part =>
        have here : char ∈ name := within.subset List.mem_cons_self
        have alpha : ∀ first ∈ ['P', 'S'], ∀ code : Fin 128,
            sameLetter first (Char.ofNat code) = true →
            (Char.ofNat code).isAlpha = true := by
          decide
        rw [matchesHead, Bool.and_eq_true] at matched
        have letter := alpha first (by simpa using capital) ⟨char.toNat, ascii char here⟩
        rw [Char.ofNat_toNat] at letter
        rw [unlettered char here] at letter
        cases letter matched.1

/-! ## Every spelling -/

/-- The verdicts of an object identifier with white space around it. -/
theorem verdicts_of_padded_oid (lowers : tables.LowersAscii)
    {before after alg name : List Char}
    (front : Blank before) (back : Blank after) (padded : before ++ after ≠ [])
    (ascii : Ascii alg)
    (oid : lookupOid alg = some name) :
    tables.classify (before ++ (alg ++ after)) = some .info ∧
      tables.hndlExposed (before ++ (alg ++ after)) = false := by
  rw [lookupOid, Option.map_eq_some_iff] at oid
  obtain ⟨entry, found, -⟩ := oid
  have spelled : dotted entry.1 = alg := by simpa using List.find?_some found
  have plain : ∀ char ∈ alg, char.isAlpha = false := by
    intro char member
    have letter := List.all_eq_true.mp
      (lettered_oid entry (List.mem_of_find?_eq_some found)) char
      (by rw [spelled]; exact member)
    simpa using letter
  have friendly : lookupName friendlyMap
      (strip (tables.lower (before ++ (alg ++ after)))) = none := by
    rw [friendly_padded lowers front back ascii, lowers alg ascii]
    have letters : ∀ entry ∈ friendlyMap,
        entry.1.toList.all (fun char => !char.isAlpha) = false := by
      decide +kernel
    apply @lookupName_eq_none _ _ (fun text => text.all fun char =>
      !char.isAlpha) _ letters
    rw [List.all_eq_true]
    intro char member
    have inside : char ∈ Python.lower alg := by
      rw [strip, List.mem_reverse] at member
      exact (List.dropWhile_suffix _).subset
        (List.mem_reverse.mp ((List.dropWhile_suffix _).subset member))
    obtain ⟨source, here, rfl⟩ := List.mem_map.mp inside
    rw [isAlpha_toLower, plain source here]
    rfl
  have canonical :=
    tables.canonical_of_unknown (lookupOid_padded front back padded alg) friendly
  have whole := ascii_padded front back ascii
  have upper : tables.upper (before ++ (alg ++ after)) =
      Python.upper (before ++ (alg ++ after)) := tables.upper_ascii whole
  have undecided :=
    @undecided_of_unlettered tables (tables.canonical (before ++ (alg ++ after)))
    (tables.canonical_settled _)
    (by rw [canonical, upper]; exact ascii_upper whole)
    (by
      rw [canonical, upper]
      intro char member
      obtain ⟨source, here, rfl⟩ := List.mem_map.mp member
      rw [isAlpha_toUpper]
      have spaces : ∀ {blank : List Char}, Blank blank → source ∈ blank →
          source.isAlpha = false := by
        intro blank all member
        have digits : ∀ code : Fin 128, isSpace (Char.ofNat code) = true →
            (Char.ofNat code).isAlpha = false := by
          decide +kernel
        have space := digits ⟨source.toNat, (all source member).2⟩
        rw [Char.ofNat_toNat] at space
        exact space (all source member).1
      rcases List.mem_append.mp here with left | here
      · exact spaces front left
      · rcases List.mem_append.mp here with middle | right
        · exact plain source middle
        · exact spaces back right)
  obtain ⟨notReady, unanchored, curve⟩ := undecided
  have verdicts := verdicts_of_unanchored notReady unanchored
  rw [curve] at verdicts
  exact verdicts

/-- White space around it changes nothing for a name that the
tables or its parts decide. -/
theorem sameVerdicts_padded (lowers : tables.LowersAscii) {alg : List Char}
    (ascii : Ascii alg)
    (strippable : tables.Strippable alg) {before after : List Char} (front : Blank before)
    (back : Blank after) : tables.SameVerdicts (before ++ (alg ++ after)) alg := by
  by_cases padded : before ++ after = []
  · obtain ⟨rfl, rfl⟩ := List.append_eq_nil_iff.mp padded
    rw [List.nil_append, List.append_nil]
    exact sameVerdicts_of rfl rfl
  unfold Strippable at strippable
  have notOid := lookupOid_padded front back padded alg
  cases oid : lookupOid alg with
  | some name =>
      rw [oid] at strippable
      have canonical : tables.canonical alg = tables.upper name := by
        rw [CaseTables.canonical, CaseTables.normalise, oid]
      dsimp only at strippable
      rw [← canonical] at strippable
      obtain ⟨notReady, unanchored, curve⟩ := strippable
      have verdicts := verdicts_of_unanchored notReady unanchored
      rw [curve] at verdicts
      have spaced := verdicts_of_padded_oid lowers front back padded ascii oid
      exact sameVerdicts_of (spaced.1.trans verdicts.1.symm)
        (spaced.2.trans verdicts.2.symm)
  | none =>
      rw [oid] at strippable
      cases friendly : lookupName friendlyMap (strip (tables.lower alg)) with
      | some name =>
          apply sameVerdicts_of_canonical
          have same := (friendly_padded lowers front back ascii).trans friendly
          rw [CaseTables.canonical, CaseTables.canonical, CaseTables.normalise,
            CaseTables.normalise, notOid, oid, friendly, same]
      | none =>
          have plain := tables.canonical_of_unknown oid friendly
          have spaced := (tables.canonical_of_unknown notOid
            ((friendly_padded lowers front back ascii).trans friendly)).trans
              (upper_padded front back alg)
          have fragments := @fragments_padded before after (tables.upper alg) front back
          rw [friendly, Option.isSome_none, Bool.false_eq_true, false_or] at strippable
          by_cases fragment : pqcHybridFragments.any (contains (tables.upper alg)) = true
          · have ready : pqcReady (tables.canonical alg) = true := by
              rw [plain, pqcReady, fragment, Bool.or_true]
            have readyToo : pqcReady (tables.canonical (before ++ (alg ++ after))) =
                true := by
              rw [spaced, pqcReady, fragments, fragment, Bool.or_true]
            apply sameVerdicts_of
            · rw [(tables.classify_eq_pqcReady).mpr ready,
                (tables.classify_eq_pqcReady).mpr readyToo]
            · rw [tables.hndlExposed_of_ready ready, tables.hndlExposed_of_ready readyToo]
          · have unanchored := strippable.resolve_left fragment
            rw [Bool.not_eq_true] at fragment
            have ascii_ : Ascii (tables.upper alg) := by
              rw [tables.upper_ascii ascii]
              exact ascii_upper ascii
            have whole := tables.canonical_settled (before ++ (alg ++ after))
            rw [spaced] at whole
            have settled := tables.canonical_settled alg
            rw [plain] at settled
            have also := unanchored_padded front back padded ascii_ settled
              whole unanchored
            have curve := @namesCurve_padded tables before after
              (tables.upper alg) front back ascii_
            have verdicts := @verdicts_of_unanchored tables alg
              (by rw [plain, pqcReady, unanchored.notReady, fragment]; rfl)
              (by rw [plain]; exact unanchored)
            have others := @verdicts_of_unanchored tables (before ++ (alg ++ after))
              (by rw [spaced, pqcReady, also.notReady, fragments, fragment]; rfl)
              (by rw [spaced]; exact also)
            rw [plain] at verdicts
            rw [spaced, curve] at others
            exact sameVerdicts_of (others.1.trans verdicts.1.symm)
              (others.2.trans verdicts.2.symm)

/-- A space before a name takes it from every rule that reads its beginning. -/
theorem strippable_of_spaced (lowers : tables.LowersAscii) {alg : List Char}
    (ascii : Ascii alg)
    (same : tables.SameVerdicts ([' '] ++ (alg ++ [])) alg) : tables.Strippable alg := by
  have front : Blank [' '] := by
    intro char member
    rw [List.mem_singleton.mp member]
    decide
  have back : Blank [] := by
    intro char member
    cases member
  have padded : [' '] ++ ([] : List Char) ≠ [] := by simp
  have notOid := lookupOid_padded front back padded alg
  unfold Strippable
  cases oid : lookupOid alg with
  | some name =>
      have canonical : tables.canonical alg = tables.upper name := by
        rw [CaseTables.canonical, CaseTables.normalise, oid]
      have spaced := verdicts_of_padded_oid lowers front back padded ascii oid
      dsimp only
      rw [← canonical]
      exact @unanchored_of_verdicts tables alg false (same.classify.symm.trans spaced.1)
        (same.hndlExposed.symm.trans spaced.2) Bool.false_ne_true.elim
  | none =>
      cases friendly : lookupName friendlyMap (strip (tables.lower alg)) with
      | some name => exact Or.inl rfl
      | none =>
          right
          by_cases fragment : pqcHybridFragments.any (contains (tables.upper alg)) = true
          · exact Or.inl fragment
          · right
            rw [Bool.not_eq_true] at fragment
            have plain := tables.canonical_of_unknown oid friendly
            have spaced := (tables.canonical_of_unknown notOid
              ((friendly_padded lowers front back ascii).trans friendly)).trans
                (upper_padded front back alg)
            have whole := tables.canonical_settled ([' '] ++ (alg ++ []))
            have ascii_ : Ascii (tables.upper alg) := by
              rw [tables.upper_ascii ascii]
              exact ascii_upper ascii
            have absent : ∀ literal ∈ ruleLiterals,
                startsWith (tables.canonical ([' '] ++ (alg ++ []))) literal = false := by
              intro literal member
              obtain ⟨filled, visible⟩ := ruleLiterals_visible literal member
              obtain ⟨first, others, spelled⟩ := List.exists_cons_of_ne_nil filled
              rw [spaced, Bool.eq_false_iff, Ne, startsWith_iff, spelled,
                List.singleton_append, List.cons_prefix_cons]
              rintro ⟨rfl, -⟩
              have blank := visible ' ' (by rw [spelled]; exact List.mem_cons_self)
              exact absurd blank (by decide)
            have unanchored := unanchored_of_absent whole absent
            have notReady : pqcReady (tables.canonical ([' '] ++ (alg ++ []))) =
                false := by
              rw [pqcReady, unanchored.notReady, spaced,
                fragments_padded front back, fragment]
              rfl
            have verdicts := verdicts_of_unanchored notReady unanchored
            rw [spaced, namesCurve_padded front back ascii_] at verdicts
            have found := @unanchored_of_verdicts tables alg
              (tables.namesCurve (tables.upper alg))
              (same.classify.symm.trans verdicts.1)
                (same.hndlExposed.symm.trans verdicts.2)
              (by rw [plain]; exact id)
            rw [plain] at found
            exact found.2.1

/-- The spellings of a name have its verdicts: normalised once or twice and in
lower or upper case always, with white space around it exactly when the name does
not depend on its ends. -/
theorem spellings_iff (lowers : tables.LowersAscii) {alg : List Char}
    (ascii : Ascii alg) :
    (tables.SameVerdicts (tables.normalise (tables.normalise alg)) alg ∧
      tables.SameVerdicts (tables.normalise alg) alg ∧
      tables.SameVerdicts (tables.lower alg) alg ∧ tables.SameVerdicts
        (tables.upper alg) alg ∧
      ∀ before after, Blank before → Blank after →
        tables.SameVerdicts (before ++ (alg ++ after)) alg) ↔ tables.Strippable alg := by
  constructor
  · rintro ⟨-, -, -, -, padded⟩
    apply strippable_of_spaced lowers ascii
    apply padded
    · intro char member
      rw [List.mem_singleton.mp member]
      decide
    · intro char member
      cases member
  · intro strippable
    have once := canonical_normalise lowers ascii
    have twice := (canonical_normalise lowers (ascii_normalise lowers ascii)).trans once
    exact ⟨sameVerdicts_of_canonical twice, sameVerdicts_of_canonical once,
      sameVerdicts_of_canonical (canonical_lower lowers ascii),
      sameVerdicts_of_canonical (canonical_upper lowers ascii),
      fun before after front back =>
        sameVerdicts_padded lowers ascii strippable front back⟩

theorem plainTables_lowersAscii : plainTables.LowersAscii := by
  intro text ascii
  apply List.map_congr_left
  intro char member
  have small := ascii char member
  rw [fold, if_neg]
  rintro rfl
  exact absurd small (by decide)

theorem spellings_kyber :
    plainTables.SameVerdicts (plainTables.upper "kyber768".toList) "kyber768".toList :=
  ((@spellings_iff plainTables plainTables_lowersAscii "kyber768".toList (by
    unfold Ascii
    decide)).mpr (Or.inl (by decide))).2.2.2.1

/-- A space before the modulus of a broken key. -/
theorem spaced_rsa2048_differs :
    ¬ ∀ (tables : CaseTables), tables.LowersAscii →
    ∀ alg before after : List Char, Ascii alg →
      Blank before → Blank after → tables.SameVerdicts
        (before ++ (alg ++ after)) alg := by
  intro always
  have same := (always plainTables plainTables_lowersAscii "RSA-2048".toList [' '] []
    (by unfold Ascii; decide +kernel) (by unfold Blank; decide +kernel)
    (by unfold Blank; decide)).classify
  exact absurd same (by decide +kernel)

end CaseTables

end Core
end PqcScan
