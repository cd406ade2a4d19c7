import PqcScan.Compliance.Engine
import Mathlib.Data.List.SplitBy

/-!
# Key-size rules

The rules that join the needle RSA with a bound on the key size, on the RSA names that the
scanner writes.  The engine takes the largest number of the name for the modulus.
-/

namespace PqcScan
namespace Compliance

open Library Python PqcScan.Core

/-- The digits of US-ASCII have their values. -/
def DecimalDigits (tables : CaseTables) : Prop :=
  ∀ char : Char, char.isDigit = true → tables.digit char = some (char.toNat - 48)

/-- The text after a modulus. -/
structure HashSuffix where
  text : List Char
  ascii : ∀ char ∈ text, char.toNat < 128
  /-- The modulus ends before it. -/
  apart : ∀ char ∈ text.head?, char.isDigit = false

/-- An RSA name: RSA-n with any suffix, RSA-SHAh, RSA-PSS or RSA. -/
inductive RsaName
  | sized (bits : Nat) (suffix : HashSuffix)
  | signature (hash : Nat)
  | pss
  | bare

namespace RsaName

/-- The name as a text. -/
def text : RsaName → List Char
  | .sized bits suffix => ['R', 'S', 'A', '-'] ++ (Nat.toDigits 10 bits ++ suffix.text)
  | .signature hash => ['R', 'S', 'A', '-', 'S', 'H', 'A'] ++ Nat.toDigits 10 hash
  | .pss => ['R', 'S', 'A', '-', 'P', 'S', 'S']
  | .bare => ['R', 'S', 'A']

/-- The modulus that the name states. -/
def modulus : RsaName → Option Nat
  | .sized bits _ => some bits
  | _ => none

/-- RSA-n. -/
def plain (bits : Nat) : RsaName := .sized bits ⟨[], by simp, by simp⟩

/-- A finding of this name. -/
def finding (name : RsaName) (base : Finding) : Finding :=
  { base with algorithm := String.ofList name.text }

end RsaName

/-- A rule on the size of an RSA key. -/
def keySizeRule (size : Predicate) (rest : Rule) : Rule :=
  { rest with predicates := [.algorithm "RSA", size] }

section Names

variable (tables : CaseTables) (familyOf : String → Option String)

/-- The interpreter reads a number of so many digits. -/
def Readable (number : Nat) : Prop :=
  tables.readable (Nat.toDigits 10 number).length = true

/-- No number of the suffix reaches the bound before the modulus does. -/
def SizedJudged (bits : Nat) (suffix : HashSuffix) (bound : Nat) : Prop :=
  Readable tables bits ∧ ∃ most,
    largest tables (digitRuns tables suffix.text) = some most ∧
    ¬ (bits < bound ∧ bound ≤ most)

/-- A `key_size_lt` rule judges the modulus. -/
def LtJudged : RsaName → Nat → Prop
  | .sized bits suffix, bound => SizedJudged tables bits suffix bound
  | .signature hash, bound => Readable tables hash ∧ bound ≤ hash
  | _, _ => True

/-- A `key_size_ge` rule judges the modulus. -/
def GeJudged : RsaName → Nat → Prop
  | .sized bits suffix, bound => SizedJudged tables bits suffix bound
  | .signature hash, bound => Readable tables hash ∧ hash < bound
  | _, _ => True

/-- A framework rejects a finding's RSA key as too short. -/
def RejectsAsShort (framework : FrameworkRules) (finding : Finding) : Prop :=
  ∃ rule ∈ framework.rules, ∃ bound,
    rule.predicates = [.algorithm "RSA", .keySizeLt bound] ∧
    rule.applies tables familyOf finding = some true

/-! ## Numbers of a text -/

variable {tables familyOf}

theorem isDigit_ascii {char : Char} (ascii : char.toNat < 128) :
    tables.isDigit char = char.isDigit := tables.digit_ascii char ascii

theorem digitRuns_append {left right : List Char}
    (boundary : ∀ before ∈ left.getLast?, ∀ after ∈ right.head?,
      tables.isDigit before ≠ tables.isDigit after) :
    digitRuns tables (left ++ right) =
      digitRuns tables left ++ digitRuns tables right := by
  rw [digitRuns, List.splitBy_append, List.filter_append]
  · rfl
  · intro before last after first
    rw [beq_eq_false_iff_ne]
    exact boundary before last after first

theorem digitRuns_of_run {text : List Char} {value : Bool} (filled : text ≠ [])
    (same : ∀ char ∈ text, tables.isDigit char = value) :
    digitRuns tables text = if value then [text] else [] := by
  have chain : text.IsChain fun left right =>
      (tables.isDigit left == tables.isDigit right) = true := by
    apply List.Pairwise.isChain
    rw [List.pairwise_iff_forall_sublist]
    intro left right sublist
    have inside := sublist.subset
    rw [same left (inside (by simp)), same right (inside (by simp)), beq_self_eq_true]
  rw [digitRuns, List.splitBy_of_isChain filled chain]
  obtain ⟨first, rest, rfl⟩ := List.exists_cons_of_ne_nil filled
  have head := same first List.mem_cons_self
  cases value with
  | true => simp [head]
  | false => simp [head]

theorem isDigit_toDigits {number : Nat} {char : Char}
    (member : char ∈ Nat.toDigits 10 number) :
    char.isDigit = true := Nat.isDigit_of_mem_toDigits (by decide) (by decide) member

theorem ascii_of_isDigit {char : Char} (digit : char.isDigit = true) :
    char.toNat < 128 := by
  rw [Char.isDigit, Bool.and_eq_true, decide_eq_true_eq, decide_eq_true_eq] at digit
  exact lt_of_le_of_lt (UInt32.le_iff_toNat_le.mp digit.2) (by decide)

/-- The digits of a number, wherever they stand alone. -/
theorem digitRuns_toDigits (number : Nat) :
    digitRuns tables (Nat.toDigits 10 number) = [Nat.toDigits 10 number] := by
  have run := @digitRuns_of_run tables (Nat.toDigits 10 number) true Nat.toDigits_ne_nil
  rw [if_pos rfl] at run
  apply run
  intro char member
  have digit := isDigit_toDigits member
  rw [isDigit_ascii (ascii_of_isDigit digit), digit]

/-- Letters before a number. -/
theorem digitRuns_after {front text : List Char} (filled : front ≠ [])
    (letters : ∀ char ∈ front, char.toNat < 128 ∧ char.isDigit = false)
    (starts : ∀ char ∈ text.head?, char.isDigit = true) :
    digitRuns tables (front ++ text) = digitRuns tables text := by
  have none_ : ∀ char ∈ front, tables.isDigit char = false := by
    intro char member
    rw [isDigit_ascii (letters char member).1, (letters char member).2]
  have run := digitRuns_of_run filled none_
  rw [digitRuns_append, run, if_neg Bool.false_ne_true, List.nil_append]
  intro before last after first
  have digit := starts after first
  rw [none_ before (List.mem_of_getLast? last),
    isDigit_ascii (ascii_of_isDigit digit), digit]
  exact Bool.false_ne_true

/-- Digits before a text that does not go on with one. -/
theorem digitRuns_toDigits_append (number : Nat) (suffix : HashSuffix) :
    digitRuns tables (Nat.toDigits 10 number ++ suffix.text) =
      Nat.toDigits 10 number :: digitRuns tables suffix.text := by
  rw [digitRuns_append, digitRuns_toDigits]
  · rfl
  · intro before last after first
    have digit := isDigit_toDigits (List.mem_of_getLast? last)
    have member : after ∈ suffix.text := List.mem_of_mem_head? first
    rw [isDigit_ascii (ascii_of_isDigit digit), digit,
      isDigit_ascii (suffix.ascii after member), suffix.apart after first]
    decide

theorem intOf_toDigits (decimal : DecimalDigits tables) (number : Nat) :
    tables.intOf (Nat.toDigits 10 number) =
      if tables.readable (Nat.toDigits 10 number).length then some number else none := by
  have folds : ∀ (digits : List Char) (value : Nat),
      (∀ char ∈ digits, char.isDigit = true) →
      digits.foldl (fun value char => value * 10 + (tables.digit char).getD 0) value =
        Nat.ofDigitChars 10 digits value := by
    intro digits
    induction digits with
    | nil => intro value _; simp
    | cons char digits inductionHypothesis =>
        intro value all
        rw [List.foldl_cons, decimal char (all char List.mem_cons_self), Option.getD_some,
          Nat.ofDigitChars_cons, Nat.mul_comm]
        exact inductionHypothesis _ fun other member =>
          all other (List.mem_cons_of_mem _ member)
  rw [CaseTables.intOf, folds _ 0 fun char => isDigit_toDigits,
    Nat.ofDigitChars_ten_toDigits]

theorem foldl_max (sizes : List Nat) (first : Nat) :
    sizes.foldl max first = max first (sizes.foldl max 0) := by
  induction sizes generalizing first with
  | nil => simp
  | cons size sizes inductionHypothesis =>
      rw [List.foldl_cons, List.foldl_cons, inductionHypothesis (max first size),
        inductionHypothesis (max 0 size), Nat.zero_max, Nat.max_assoc]

/-- The largest number of a text that begins with a number. -/
theorem largest_cons (decimal : DecimalDigits tables) (number : Nat)
    (runs : List (List Char)) :
    largest tables (Nat.toDigits 10 number :: runs) =
      if tables.readable (Nat.toDigits 10 number).length then
        (largest tables runs).map (max number)
      else none := by
  rw [largest, List.mapM_cons, intOf_toDigits decimal]
  split
  · simp only [largest]
    cases runs.mapM tables.intOf with
    | none => rfl
    | some sizes =>
        simp only [bind, Option.bind, pure, Option.map_some, List.foldl_cons,
          Nat.zero_max]
        rw [foldl_max]
  · rfl

/-! ## Rules -/

/-- The size that a rule judges a name by: nothing for a name without numbers. -/
theorem digitRuns_text (name : RsaName) :
    digitRuns tables name.text =
      match name with
      | .sized bits suffix => Nat.toDigits 10 bits :: digitRuns tables suffix.text
      | .signature hash => [Nat.toDigits 10 hash]
      | _ => [] := by
  have starts : ∀ (number : Nat) (rest : List Char),
      ∀ char ∈ (Nat.toDigits 10 number ++ rest).head?, char.isDigit = true := by
    intro number rest char first
    obtain ⟨digit, digits, spelled⟩ :=
      List.exists_cons_of_ne_nil (@Nat.toDigits_ne_nil number 10)
    rw [spelled, List.cons_append, List.head?_cons, Option.mem_some] at first
    apply @isDigit_toDigits number
    rw [spelled, first]
    exact List.mem_cons_self
  have letters : ∀ front ∈ [['R', 'S', 'A', '-'], ['R', 'S', 'A', '-', 'S', 'H', 'A'],
      ['R', 'S', 'A', '-', 'P', 'S', 'S'], ['R', 'S', 'A']], front ≠ [] ∧
      ∀ char ∈ front, char.toNat < 128 ∧ char.isDigit = false := by
    decide
  have alone : ∀ front ∈ [['R', 'S', 'A', '-', 'P', 'S', 'S'], ['R', 'S', 'A']],
      digitRuns tables front = [] := by
    intro front listed
    obtain ⟨filled, plain⟩ := letters front (by
      rcases List.mem_cons.mp listed with rfl | last
      · decide
      · rw [List.mem_singleton.mp last]
        decide)
    rw [← List.append_nil front, digitRuns_after filled plain (by simp)]
    rfl
  cases name with
  | sized bits suffix =>
      obtain ⟨filled, plain⟩ := letters ['R', 'S', 'A', '-'] (by decide)
      rw [RsaName.text, digitRuns_after filled plain (starts bits suffix.text),
        digitRuns_toDigits_append]
  | signature hash =>
      obtain ⟨filled, plain⟩ := letters ['R', 'S', 'A', '-', 'S', 'H', 'A'] (by decide)
      have first := starts hash []
      rw [List.append_nil] at first
      rw [RsaName.text, digitRuns_after filled plain first, digitRuns_toDigits]
  | pss => exact alone _ (by decide)
  | bare => exact alone _ (by decide)

theorem rsa_upper (name : RsaName) : contains (tables.upper name.text)
    (String.ofList (tables.upper "RSA".toList)) = true := by
  have rsa : tables.upper "RSA".toList = ['R', 'S', 'A'] := by
    rw [tables.upper_ascii (by decide)]
    decide
  have starts : ∃ rest, name.text = ['R', 'S', 'A'] ++ rest := by
    cases name with
    | sized bits suffix => exact ⟨'-' :: (Nat.toDigits 10 bits ++ suffix.text), rfl⟩
    | signature hash => exact ⟨['-', 'S', 'H', 'A'] ++ Nat.toDigits 10 hash, rfl⟩
    | pss => exact ⟨['-', 'P', 'S', 'S'], rfl⟩
    | bare => exact ⟨[], rfl⟩
  have kept : tables.upper ['R', 'S', 'A'] = ['R', 'S', 'A'] := by
    rw [tables.upper_ascii (by decide)]
    decide
  obtain ⟨rest, spelled⟩ := starts
  rw [contains_iff, spelled, tables.upper_append, rsa, kept, String.toList_ofList]
  exact (List.prefix_append _ _).isInfix

/-- A rule on the size decides by the largest number of the name. -/
theorem applies_keySizeRule (name : RsaName) (base : Finding) (rest : Rule)
    (size : Predicate) :
    (keySizeRule size rest).applies tables familyOf (name.finding base) =
      keyMatches tables familyOf size (name.finding base) := by
  have rsa : keyMatches tables familyOf (.algorithm "RSA") (name.finding base) =
      some true := by
    rw [keyMatches]
    dsimp only [RsaName.finding]
    rw [String.toList_ofList, rsa_upper]
  rw [Rule.applies, keySizeRule]
  dsimp only
  rw [allMatch, rsa]
  dsimp only
  rw [allMatch]
  cases keyMatches tables familyOf size (name.finding base) with
  | none => rfl
  | some holds =>
      cases holds with
      | false => rfl
      | true => rfl

/-- The largest number of a name, or nothing for one without
numbers or that `int` refuses. -/
theorem keyMatches_size (decimal : DecimalDigits tables) (name : RsaName) (base : Finding)
    (size : Predicate) (test : Nat → Bool)
    (tests : ∀ finding, keyMatches tables familyOf size finding =
      if digitRuns tables finding.algorithm.toList = [] then some false
      else (largest tables (digitRuns tables finding.algorithm.toList)).map test) :
    keyMatches tables familyOf size (name.finding base) =
      match name with
      | .sized bits suffix =>
          if tables.readable (Nat.toDigits 10 bits).length then
            (largest tables (digitRuns tables suffix.text)).map fun most =>
              test (max bits most)
          else none
      | .signature hash =>
          if tables.readable (Nat.toDigits 10 hash).length then some (test hash) else none
      | _ => some false := by
  have text : (name.finding base).algorithm.toList = name.text := String.toList_ofList
  rw [tests, text, digitRuns_text]
  cases name with
  | sized bits suffix =>
      dsimp only
      rw [if_neg (List.cons_ne_nil _ _), largest_cons decimal]
      split
      · rw [Option.map_map]
        rfl
      · rfl
  | signature hash =>
      dsimp only
      rw [if_neg (List.cons_ne_nil _ _), largest_cons decimal]
      split
      · simp [largest]
      · rfl
  | pss => rfl
  | bare => rfl

/-- A test of the larger of two numbers that agrees with the test of the first. -/
theorem sized_iff {bits : Nat} {suffix : HashSuffix} {bound : Nat} (test : Nat → Bool)
    (agrees : ∀ most, test (max bits most) = test bits ↔
      ¬ (bits < bound ∧ bound ≤ most)) :
    (if tables.readable (Nat.toDigits 10 bits).length then
        (largest tables (digitRuns tables suffix.text)).map fun most =>
          test (max bits most)
      else none) = some (test bits) ↔ SizedJudged tables bits suffix bound := by
  unfold SizedJudged Readable
  split
  · next readable =>
      rw [Option.map_eq_some_iff]
      constructor
      · rintro ⟨most, found, same⟩
        exact ⟨readable, most, found, (agrees most).mp same⟩
      · rintro ⟨-, most, found, apart⟩
        exact ⟨most, found, (agrees most).mpr apart⟩
  · next unreadable =>
      refine iff_of_false ?_ fun judged => unreadable judged.1
      simp

/-- On which names a size rule judges the modulus, and that fewer frameworks find a longer
modulus too short. -/
theorem keySizeRules_iff (decimal : DecimalDigits tables) (name : RsaName) (bound : Nat)
    (rest : Rule) (base : Finding) :
    ((keySizeRule (.keySizeLt bound) rest).applies tables familyOf (name.finding base) =
        some (name.modulus.any fun bits => decide (bits < bound)) ↔
      LtJudged tables name bound) ∧
    ((keySizeRule (.keySizeGe bound) rest).applies tables familyOf (name.finding base) =
        some (name.modulus.any fun bits => decide (bound ≤ bits)) ↔
      GeJudged tables name bound) ∧
    ∀ (framework : FrameworkRules) (less more : Nat), less ≤ more → Readable tables less →
      RejectsAsShort tables familyOf framework ((RsaName.plain more).finding base) →
        RejectsAsShort tables familyOf framework ((RsaName.plain less).finding base) := by
  have lt : ∀ (name : RsaName) (bound : Nat) (rest : Rule),
      (keySizeRule (.keySizeLt bound) rest).applies tables
      familyOf (name.finding base) = _ := fun name bound rest =>
    (applies_keySizeRule name base rest _).trans
      (keyMatches_size decimal name base (.keySizeLt bound) (fun bits =>
        decide (bits < bound))
        fun _ => rfl)
  refine ⟨?_, ?_, ?_⟩
  · rw [lt]
    cases name with
    | sized bits suffix =>
        apply sized_iff fun bits => decide (bits < bound)
        intro most
        rw [decide_eq_decide]
        omega
    | signature hash =>
        dsimp only [RsaName.modulus, Option.any, LtJudged, Readable]
        split
        · next readable => simp [readable]
        · next unreadable => simp [unreadable]
    | pss => simp [RsaName.modulus, LtJudged]
    | bare => simp [RsaName.modulus, LtJudged]
  · rw [applies_keySizeRule, keyMatches_size decimal name base (.keySizeGe bound)
      (fun bits => decide (bound ≤ bits)) fun _ => rfl]
    cases name with
    | sized bits suffix =>
        apply sized_iff fun bits => decide (bound ≤ bits)
        intro most
        rw [decide_eq_decide]
        omega
    | signature hash =>
        dsimp only [RsaName.modulus, Option.any, GeJudged, Readable]
        split
        · next readable => simp [readable]
        · next unreadable => simp [unreadable]
    | pss => simp [RsaName.modulus, GeJudged]
    | bare => simp [RsaName.modulus, GeJudged]
  · rintro framework less more le readable ⟨rule, member, bound, keys, fires⟩
    refine ⟨rule, member, bound, keys, ?_⟩
    have same : rule = keySizeRule (.keySizeLt bound) rule := by
      rw [keySizeRule, ← keys]
    have none_ : largest tables (digitRuns tables []) = some 0 := rfl
    rw [same, lt] at fires ⊢
    dsimp only [RsaName.plain] at fires ⊢
    rw [none_] at fires ⊢
    rw [if_pos (show tables.readable (Nat.toDigits 10 less).length = true from readable)]
    split at fires
    · simp only [Option.map_some, Option.some.injEq, decide_eq_true_eq] at fires ⊢
      omega
    · cases fires

theorem plainTables_decimal : DecimalDigits plainTables := by
  intro char digit
  exact if_pos digit

/-- A finding of no particular probe. -/
def anyFinding : Finding where
  probeId := "fs.cert.pem"
  algorithm := ""
  classification := .tinggi
  severity := .high
  title := ""
  evidence := Dict.empty
  createdAt := 0

/-- A rule without a deadline. -/
def anyRule : Rule := ⟨[], "", .nonCompliant, none, ""⟩

theorem keySizeRules_sized :
    (keySizeRule (.keySizeLt 3072) anyRule).applies plainTables (fun _ => none)
      ((RsaName.plain 2048).finding anyFinding) = some true :=
  ((keySizeRules_iff plainTables_decimal (.plain 2048) 3072 anyRule anyFinding).1).mpr
    ⟨rfl, 0, rfl, by omega⟩

/-- RSA-SHA256 is found to have a key of 256 bits. -/
theorem keySizeRules_sha256 :
    ¬ ∀ (tables : CaseTables) (familyOf : String → Option String), DecimalDigits tables →
      ∀ (name : RsaName) (bound : Nat) (rest : Rule) (base : Finding),
        (keySizeRule (.keySizeLt bound) rest).applies tables familyOf
          (name.finding base) =
          some (name.modulus.any fun bits => decide (bits < bound)) := by
  intro always
  have judged := always plainTables (fun _ =>
    none) plainTables_decimal (.signature 256) 2048
    anyRule anyFinding
  rw [applies_keySizeRule, keyMatches_size plainTables_decimal (.signature 256) anyFinding
    (.keySizeLt 2048) (fun bits => decide (bits < 2048)) fun _ => rfl] at judged
  exact absurd judged (by decide)

end Names

end Compliance
end PqcScan
