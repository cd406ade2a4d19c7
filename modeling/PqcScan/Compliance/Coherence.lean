import PqcScan.Compliance.Frameworks

/-!
# Coherence of the verdicts

When one framework gives a finding a compliant verdict and an adverse one, and which
adverse verdicts a standard post-quantum name gets.
-/

namespace PqcScan
namespace Compliance

open Library Python PqcScan.Core

/-- The verdicts against a finding. -/
def Verdict.adverse (verdict : Verdict) : Bool :=
  verdict == .atRisk || verdict == .nonCompliant

/-- The upper-case name has the needle of a predicate. -/
def HasNeedle (tables : CaseTables) (finding : Finding) (needle : String) : Prop :=
  upper needle.toList <:+: tables.upper finding.algorithm.toList

section Verdicts

variable (tables : CaseTables) (familyOf : String → Option String) (finding : Finding)

/-- A framework gives both a compliant and an adverse verdict. -/
def Both (framework : FrameworkRules) : Prop :=
  (∃ good ∈ evaluate tables familyOf frameworks finding,
    good.framework = framework.framework ∧ good.verdict = .compliant) ∧
  ∃ bad ∈ evaluate tables familyOf frameworks finding,
    bad.framework = framework.framework ∧ bad.verdict.adverse = true

/-- The classification of a finding is that of its algorithm. -/
def Classified : Prop :=
  tables.classify finding.algorithm.toList = some finding.classification

end Verdicts

/-! ## Standard names -/

/-- The hash function of a parameter set of SLH-DSA. -/
inductive Hash
  | sha2
  | shake
  deriving DecidableEq

/-- The families of the standard algorithms; a parameter set of
SLH-DSA is small or fast. -/
inductive Family
  | mlKem
  | mlDsa
  | slhDsa (hash : Hash) (fast : Bool)
  deriving DecidableEq

namespace Family

/-- The name of the family up to the digits. -/
def front : Family → String
  | .mlKem => "ML-KEM-"
  | .mlDsa => "ML-DSA-"
  | .slhDsa .sha2 _ => "SLH-DSA-SHA2-"
  | .slhDsa .shake _ => "SLH-DSA-SHAKE-"

/-- What follows the digits. -/
def back : Family → String
  | .slhDsa _ false => "S"
  | .slhDsa _ true => "F"
  | _ => ""

/-- Every family. -/
def all : List Family :=
  [.mlKem, .mlDsa, .slhDsa .sha2 false, .slhDsa .sha2 true, .slhDsa .shake false,
    .slhDsa .shake true]

theorem mem_all (family : Family) : family ∈ all := by
  cases family with
  | mlKem => decide
  | mlDsa => decide
  | slhDsa hash fast => cases hash <;> cases fast <;> decide

end Family

/-- A standard pure name, with or without a pre-hash prefix. -/
structure StandardName where
  prehash : Bool
  family : Family
  digits : List Char
  nonempty : digits ≠ []
  decimal : ∀ digit ∈ digits, digit.isDigit = true

namespace StandardName

/-- What stands before the number. -/
def front (prehash : Bool) (family : Family) : List Char :=
  (if prehash then "HASH".toList else []) ++ family.front.toList

/-- The name in upper case. -/
def text (name : StandardName) : List Char :=
  front name.prehash name.family ++ (name.digits ++ name.family.back.toList)

/-- A spelling of the name, in letters of any case. -/
def Spells (tables : CaseTables) (name : StandardName) (algorithm : String) : Prop :=
  tables.upper algorithm.toList = name.text

end StandardName

/-! ## The tables -/

/-- The needles of a rule. -/
def Rule.needles (rule : Rule) : List String :=
  rule.predicates.filterMap fun
    | .algorithm needle => some needle
    | _ => none

/-- The classifications that a rule asks for. -/
def Rule.classes (rule : Rule) : List String :=
  rule.predicates.filterMap fun
    | .classification value => some value
    | _ => none

theorem mem_needles {rule : Rule} {needle : String} (member : needle ∈ rule.needles) :
    .algorithm needle ∈ rule.predicates := by
  obtain ⟨predicate, listed, read⟩ := List.mem_filterMap.mp member
  cases predicate with
  | algorithm expected =>
      injection read with same
      rw [← same]
      exact listed
  | _ => cases read

theorem mem_classes {rule : Rule} {value : String} (member : value ∈ rule.classes) :
    .classification value ∈ rule.predicates := by
  obtain ⟨predicate, listed, read⟩ := List.mem_filterMap.mp member
  cases predicate with
  | classification expected =>
      injection read with same
      rw [← same]
      exact listed
  | _ => cases read

theorem frameworks_distinct : (frameworks.map FrameworkRules.framework).Nodup := by
  decide

theorem needles_ascii : ∀ framework ∈ frameworks, ∀ rule ∈ framework.rules,
    ∀ needle ∈ rule.needles, ∀ char ∈ needle.toList, char.toNat < 128 := by
  decide

/-- Two rules ask for different classifications, or one asks for a classification that the
needle of the other excludes. -/
def Unlike (bad good : Rule) : Prop :=
  (∃ left ∈ bad.classes, ∃ right ∈ good.classes, left ≠ right) ∨
    ∃ left ∈ bad.classes, left ≠ "pqc-ready" ∧ ∃ needle ∈ good.needles,
    needle ∈ pqcHybridFragments

instance (bad good : Rule) : Decidable (Unlike bad good) :=
  inferInstanceAs (Decidable (_ ∨ _))

/-- An adverse rule without a needle is unlike the compliant rules of its framework, but
for one rule on SLH-DSA. -/
theorem rules_unlike : ∀ framework ∈ frameworks, ∀ bad ∈ framework.rules,
    bad.verdict.adverse = true → bad.needles = [] →
      ∀ good ∈ framework.rules, good.verdict = .compliant → Unlike bad good ∨
        (framework.framework = "nacsa-arahan-ke-9" ∧ "SLH-DSA" ∈ good.needles) := by
  decide +kernel

/-! ## Rules of one framework -/

section Verdicts

variable {tables : CaseTables} {familyOf : String → Option String} {finding : Finding}

theorem hasNeedle_of_applies {framework : FrameworkRules}
    (listed : framework ∈ frameworks)
    {rule : Rule} (member : rule ∈ framework.rules)
    (fires : rule.applies tables familyOf finding = some true)
    {needle : String} (among : needle ∈ rule.needles) :
    HasNeedle tables finding needle := by
  have within := contains_iff.mp (contains_of_applies fires (mem_needles among))
  rw [String.toList_ofList,
    tables.upper_ascii
      (needles_ascii framework listed rule member needle among)] at within
  exact within

theorem not_unlike_of_applies (classified : Classified tables finding)
    {framework : FrameworkRules} (listed : framework ∈ frameworks) {bad good : Rule}
    (member : good ∈ framework.rules)
    (badFires : bad.applies tables familyOf finding = some true)
    (goodFires : good.applies tables familyOf finding = some true) :
    ¬ Unlike bad good := by
  rintro (⟨left, asked, right, wanted, differs⟩ | ⟨left, asked, notReady, needle,
    among, fragment⟩)
  · have first := classification_of_applies badFires (mem_classes asked)
    have second := classification_of_applies goodFires (mem_classes wanted)
    exact differs (first.symm.trans second)
  · have within := hasNeedle_of_applies listed member goodFires among
    have plain : ∀ fragment ∈ pqcHybridFragments,
        upper fragment.toList = fragment.toList := by
      decide
    rw [HasNeedle, plain needle fragment, ← contains_iff] at within
    have ready := tables.classify_of_fragment fragment within
    have value := classification_of_applies badFires (mem_classes asked)
    rw [classified] at ready
    injection ready with ready
    rw [ready] at value
    exact notReady value.symm

/-- Two verdicts under one name come from rules of one framework. -/
theorem exists_rules_of_both {framework : FrameworkRules}
    (listed : framework ∈ frameworks)
    (both : Both tables familyOf finding framework) :
    (∃ good ∈ framework.rules, good.applies tables familyOf finding = some true ∧
      good.verdict = .compliant) ∧
    ∃ bad ∈ framework.rules, bad.applies tables familyOf finding = some true ∧
      bad.verdict.adverse = true := by
  have source : ∀ verdict ∈ evaluate tables familyOf frameworks finding,
      verdict.framework = framework.framework →
        ∃ rule ∈ framework.rules, rule.applies tables familyOf finding = some true ∧
          rule.verdict = verdict.verdict := by
    intro verdict member named
    obtain ⟨other, among, rule, ruled, fires, rfl⟩ := exists_rule_of_mem_evaluate member
    have same := List.inj_on_of_nodup_map frameworks_distinct among listed named
    rw [same] at ruled
    exact ⟨rule, ruled, fires, rfl⟩
  obtain ⟨⟨good, goodMember, goodNamed, compliant⟩,
      ⟨bad, badMember, badNamed, adverse⟩⟩ := both
  obtain ⟨goodRule, goodListed, goodFires, goodSame⟩ := source good goodMember goodNamed
  obtain ⟨badRule, badListed, badFires, badSame⟩ := source bad badMember badNamed
  refine ⟨⟨goodRule, goodListed, goodFires, goodSame.trans compliant⟩,
    ⟨badRule, badListed, badFires, ?_⟩⟩
  rw [badSame]
  exact adverse

/-- A framework contradicts itself only by the needle of an adverse rule. -/
theorem needle_of_both (classified : Classified tables finding)
    {framework : FrameworkRules}
    (listed : framework ∈ frameworks) (both : Both tables familyOf finding framework) :
    (∃ rule ∈ framework.rules, rule.verdict.adverse = true ∧
      rule.applies tables familyOf finding = some true ∧
        ∃ needle ∈ rule.needles, HasNeedle tables finding needle) ∨
      (framework.framework = "nacsa-arahan-ke-9" ∧
        HasNeedle tables finding "SLH-DSA") := by
  obtain ⟨⟨good, goodMember, goodFires, compliant⟩,
      ⟨bad, badMember, badFires, adverse⟩⟩ :=
    exists_rules_of_both listed both
  cases needles : bad.needles with
  | cons needle rest =>
      have among : needle ∈ bad.needles := by
        rw [needles]
        exact List.mem_cons_self
      exact Or.inl ⟨bad, badMember, adverse, badFires, needle, among,
        hasNeedle_of_applies listed badMember badFires among⟩
  | nil =>
      rcases rules_unlike framework listed bad badMember adverse needles good
        goodMember compliant
        with unlike | ⟨named, among⟩
      · exact absurd unlike
          (not_unlike_of_applies classified listed goodMember badFires goodFires)
      · exact Or.inr ⟨named, hasNeedle_of_applies listed goodMember goodFires among⟩

end Verdicts

/-! ## Needles in a standard name -/

/-- What is in a text of three parts begins in one of them, or ends in the middle one. -/
theorem infix_across {α : Type} {needle front middle back : List α} {test : α → Bool}
    (tested : ∀ item ∈ middle, test item = true) (nonempty : middle ≠ [])
    (within : needle <:+: front ++ (middle ++ back)) :
    needle <:+: front ∨ needle <:+: back ∨
      ∃ cut item, needle.take cut <:+ front ∧ needle[cut]? = some item ∧
      test item = true := by
  obtain ⟨before, after, whole⟩ := within
  obtain ⟨first, others, rfl⟩ := List.exists_cons_of_ne_nil nonempty
  have firstTested := tested first List.mem_cons_self
  rw [List.append_assoc] at whole
  rcases List.append_eq_append_iff.mp whole with ⟨gap, inside, rest⟩ | ⟨gap, -, rest⟩
  · rcases List.append_eq_append_iff.mp rest with ⟨more, ends, -⟩ | ⟨more, split, later⟩
    · exact Or.inl ⟨before, more, by rw [inside, ends, List.append_assoc]⟩
    · cases more with
      | nil =>
          rw [List.append_nil] at split
          exact Or.inl ⟨before, [], by rw [inside, split, List.append_nil]⟩
      | cons item more =>
          injection later with same
          refine Or.inr (Or.inr ⟨gap.length, item, ?_, ?_, ?_⟩)
          · rw [split, List.take_left, inside]
            exact List.suffix_append _ _
          · rw [split, List.getElem?_append_right (le_refl _), Nat.sub_self]
            rfl
          · rw [← same]
            exact firstTested
  · rcases List.append_eq_append_iff.mp rest with ⟨more, -, later⟩ | ⟨more, middle, later⟩
    · exact Or.inr (Or.inl ⟨more, after, by rw [later, List.append_assoc]⟩)
    · cases more with
      | nil => exact Or.inr (Or.inl ⟨[], after, later⟩)
      | cons item more =>
          cases needle with
          | nil => exact Or.inl List.nil_infix
          | cons letter needle =>
              injection later with same
              refine Or.inr (Or.inr ⟨0, letter, List.nil_suffix, rfl, ?_⟩)
              rw [same]
              apply tested
              rw [middle]
              exact List.mem_append_right _ List.mem_cons_self

/-- A needle that no number between two texts completes. -/
def Clear (needle front back : List Char) : Prop :=
  ¬ needle <:+: front ∧ ¬ needle <:+: back ∧
    ∀ cut ∈ List.range needle.length, needle.take cut <:+ front →
      needle[cut]?.any Char.isDigit = false

instance (needle front back : List Char) : Decidable (Clear needle front back) :=
  inferInstanceAs (Decidable (_ ∧ _ ∧ _))

/-- The needles that no standard name has, whatever its number. -/
def clearNeedles : List String :=
  ["SHA-1", "SHA1", "MD5", "RC4", "DES", "3DES", "RSA", "ECDSA", "ECDH", "DH", "ED25519",
    "AES-128", "Basic128Rsa15", "Basic256"]

/-- The part of a needle after the digits that it begins with. -/
def lettered (needle : String) : List Char := (upper needle.toList).dropWhile Char.isDigit

theorem clearNeedles_clear : ∀ needle ∈ clearNeedles, ∀ prehash ∈ [false, true],
    ∀ family ∈ Family.all,
      Clear (lettered needle) (StandardName.front prehash family) family.back.toList := by
  decide

/-- The frameworks with a rule on the bare letters DSA. -/
def dsaFrameworks : List String := ["uk-ncsc", "ca-cccs", "au-asd-ism", "qramm"]

/-- What the adverse rules read. -/
theorem adverse_rules : ∀ framework ∈ frameworks, ∀ rule ∈ framework.rules,
    rule.verdict.adverse = true →
      (∃ value ∈ rule.classes, value ≠ "pqc-ready") ∨
      (∃ needle ∈ rule.needles, needle ∈ clearNeedles) ∨
      (rule.verdict = .atRisk ∧ "DSA" ∈ rule.needles ∧
        framework.framework ∈ dsaFrameworks) ∨
      (rule.verdict = .atRisk ∧ framework.framework = "jp-cryptrec" ∧
        ∃ needle ∈ rule.needles, needle ∈ ["ML-KEM", "ML-DSA"]) := by
  decide

/-- The needles of the other adverse rules are those of other families. -/
theorem other_clear : ∀ prehash ∈ [false, true], ∀ family ∈ Family.all,
    (family = .mlKem →
      Clear (lettered "DSA") (StandardName.front prehash family) family.back.toList) ∧
    (family ≠ .mlKem → family ≠ .mlDsa → ∀ needle ∈ ["ML-KEM", "ML-DSA"],
      Clear (lettered needle)
      (StandardName.front prehash family) family.back.toList) := by
  decide +kernel

section Names

variable {tables : CaseTables} {familyOf : String → Option String} {finding : Finding}

/-- No spelling of a standard name has a needle that is clear of it. -/
theorem not_hasNeedle {name : StandardName}
    (spelled : name.Spells tables finding.algorithm)
    {needle : String}
    (clear : Clear (lettered needle) (StandardName.front name.prehash name.family)
      name.family.back.toList) : ¬ HasNeedle tables finding needle := by
  intro has
  rw [HasNeedle, spelled] at has
  have within := (List.dropWhile_suffix Char.isDigit).isInfix.trans has
  obtain ⟨notFront, notBack, notAcross⟩ := clear
  rcases infix_across name.decimal name.nonempty within with front | back | ⟨cut, item,
    ends, at_, digit⟩
  · exact notFront front
  · exact notBack back
  · have bound : cut ∈ List.range (lettered needle).length := by
      rw [List.mem_range]
      exact (List.getElem?_eq_some_iff.mp at_).1
    have other := notAcross cut bound ends
    rw [lettered, at_, Option.any_some, digit] at other
    cases other

theorem mem_prehash (prehash : Bool) : prehash ∈ [false, true] := by
  cases prehash <;> decide

/-- The adverse verdicts that a standard name gets when its finding is ready. -/
theorem adverse_of_standard {name : StandardName}
    (spelled : name.Spells tables finding.algorithm)
    (ready : finding.classification = .pqcReady) {verdict : FrameworkVerdict}
    (member : verdict ∈ evaluate tables familyOf frameworks finding)
    (adverse : verdict.verdict.adverse = true) :
    verdict.verdict = .atRisk ∧
      ((verdict.framework = "jp-cryptrec" ∧
        (name.family = .mlKem ∨ name.family = .mlDsa)) ∨
        (verdict.framework ∈ dsaFrameworks ∧ name.family ≠ .mlKem)) := by
  obtain ⟨framework, listed, rule, ruled, fires, rfl⟩ :=
    exists_rule_of_mem_evaluate member
  have present : ∀ {needle : String}, needle ∈ rule.needles →
      HasNeedle tables finding needle :=
    fun among => hasNeedle_of_applies listed ruled fires among
  rcases adverse_rules framework listed rule ruled adverse with
    ⟨value, asked, notReady⟩ | ⟨needle, among, clear⟩ | ⟨atRisk, dsa, named⟩ |
      ⟨atRisk, named, needle, among, other⟩
  · have same := classification_of_applies fires (mem_classes asked)
    rw [ready] at same
    exact absurd same.symm notReady
  · apply absurd (present among)
    apply not_hasNeedle spelled
    exact clearNeedles_clear needle clear name.prehash
      (mem_prehash _) name.family name.family.mem_all
  · refine ⟨atRisk, Or.inr ⟨named, ?_⟩⟩
    intro kem
    exact not_hasNeedle spelled
      ((other_clear name.prehash (mem_prehash _) name.family name.family.mem_all).1 kem)
        (present dsa)
  · refine ⟨atRisk, Or.inl ⟨named, ?_⟩⟩
    by_contra neither
    rw [not_or] at neither
    exact not_hasNeedle spelled
      ((other_clear name.prehash (mem_prehash _) name.family name.family.mem_all).2
        neither.1
        neither.2 needle other) (present among)

/-- A framework contradicts itself only by a needle of an adverse rule, and only the
monitoring of one framework and the bare needle of four are against a standard name. -/
theorem verdicts_coherent (classified : Classified tables finding) :
    (∀ framework ∈ frameworks, Both tables familyOf finding framework →
      (∃ rule ∈ framework.rules, rule.verdict.adverse = true ∧
        rule.applies tables familyOf finding = some true ∧
          ∃ needle ∈ rule.needles, HasNeedle tables finding needle) ∨
        (framework.framework = "nacsa-arahan-ke-9" ∧
          HasNeedle tables finding "SLH-DSA")) ∧
    (finding.classification = .pqcReady → ∀ name : StandardName,
      name.Spells tables finding.algorithm →
        ∀ verdict ∈ evaluate tables familyOf frameworks finding,
          verdict.verdict.adverse = true → verdict.verdict = .atRisk ∧
            ((verdict.framework = "jp-cryptrec" ∧
                (name.family = .mlKem ∨ name.family = .mlDsa)) ∨
              (verdict.framework ∈ dsaFrameworks ∧ name.family ≠ .mlKem))) := by
  constructor
  · exact fun framework listed both => needle_of_both classified listed both
  · exact fun ready name spelled verdict member adverse =>
      adverse_of_standard spelled ready member adverse

end Names

/-! ## Names of both kinds -/

/-- A key exchange with ML-KEM-768. -/
def mlKem768 : Finding where
  probeId := "net.tls.kex_groups"
  algorithm := "ML-KEM-768"
  classification := .pqcReady
  severity := .info
  title := "ML-KEM-768 negotiated"
  evidence := Dict.empty
  createdAt := 0

/-- `ML-KEM-768`. -/
def mlKem768Name : StandardName where
  prehash := false
  family := .mlKem
  digits := "768".toList
  nonempty := by decide
  decimal := by decide

/-- A composite signature, of which one half is to be replaced. -/
def compositeSignature : Finding :=
  { mlKem768 with algorithm := "ML-DSA-65+ECDSA-P256", title := "Composite signature" }

theorem mlKem768_classified : Classified plainTables mlKem768 := by
  rw [Classified]
  decide

theorem mlKem768_spelled : mlKem768Name.Spells plainTables mlKem768.algorithm := by
  rw [StandardName.Spells]
  decide

theorem mlKem768_adverse :
    (evaluate plainTables (fun _ => none) frameworks mlKem768).any
      (fun verdict => verdict.verdict.adverse) = true := by
  decide

/-- The monitored name is at risk with the framework that monitors it. -/
theorem verdicts_coherent_mlKem768 :
    ∃ verdict ∈ evaluate plainTables (fun _ => none) frameworks mlKem768,
      verdict.verdict = .atRisk ∧ verdict.framework = "jp-cryptrec" := by
  obtain ⟨verdict, member, adverse⟩ := List.any_eq_true.mp mlKem768_adverse
  obtain ⟨atRisk, ⟨named, -⟩ | ⟨-, other⟩⟩ :=
    (verdicts_coherent mlKem768_classified).2 rfl
    mlKem768Name mlKem768_spelled verdict member adverse
  · exact ⟨verdict, member, atRisk, named⟩
  · exact absurd rfl other

/-- A standard name may be at risk, and a composite one both compliant and at risk. -/
theorem composite_and_monitored_at_risk :
    (Classified plainTables mlKem768 ∧ mlKem768.classification = .pqcReady ∧
      mlKem768Name.Spells plainTables mlKem768.algorithm ∧
        ¬ ∀ verdict ∈ evaluate plainTables (fun _ => none) frameworks mlKem768,
          verdict.verdict.adverse = false) ∧
    (Classified plainTables compositeSignature ∧
      ¬ ∀ framework ∈ frameworks,
        ¬ Both plainTables (fun _ => none) compositeSignature framework) := by
  refine ⟨⟨mlKem768_classified, rfl, mlKem768_spelled, ?_⟩, ?_, ?_⟩
  · intro never
    obtain ⟨verdict, member, adverse⟩ := List.any_eq_true.mp mlKem768_adverse
    rw [never verdict member] at adverse
    cases adverse
  · rw [Classified]
    decide +kernel
  · intro never
    have good : (evaluate plainTables (fun _ => none) frameworks compositeSignature).any
        (fun verdict => verdict.framework == nistIr8547.framework &&
          verdict.verdict == .compliant) = true := by
      decide +kernel
    have bad : (evaluate plainTables (fun _ => none) frameworks compositeSignature).any
        (fun verdict => verdict.framework == nistIr8547.framework &&
          verdict.verdict.adverse) = true := by
      decide +kernel
    obtain ⟨first, firstMember, compliant⟩ := List.any_eq_true.mp good
    obtain ⟨second, secondMember, adverse⟩ := List.any_eq_true.mp bad
    rw [Bool.and_eq_true, beq_iff_eq] at compliant adverse
    refine never nistIr8547 ?_
      ⟨⟨first, firstMember, compliant.1, beq_iff_eq.mp compliant.2⟩,
        ⟨second, secondMember, adverse⟩⟩
    simp [frameworks]

end Compliance
end PqcScan
