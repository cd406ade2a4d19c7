import PqcScan.Core.Names

/-!
# The compliance engine

Rules of `compliance/engine.py` and the verdicts that they give a finding.  A rule fires
when all its predicates hold; every rule of every framework that fires gives a verdict.
-/

namespace PqcScan
namespace Compliance

open Library Python PqcScan.Core

/-- A predicate of a rule. -/
inductive Predicate
  | algorithm (expected : String)
  | algorithmExact (expected : String)
  | keySizeLt (expected : Nat)
  | keySizeGe (expected : Nat)
  | classification (expected : String)
  | classificationIn (expected : List String)
  | probeId (expected : String)
  | probeIdPrefix (expected : String)
  | probeFamily (expected : String)
  | unknown (key : String)
  deriving DecidableEq, Repr

/-- What a rule says of a finding. -/
inductive Verdict
  | compliant
  | advisory
  | atRisk
  | nonCompliant
  deriving DecidableEq, Repr

/-- `_Rule`; the deadline is an ISO date. -/
structure Rule where
  predicates : List Predicate
  clause : String
  verdict : Verdict
  deadline : Option String := none
  note : String := ""

/-- `FrameworkRules`. -/
structure FrameworkRules where
  framework : String
  title : String
  rules : List Rule

/-- `FrameworkVerdict`. -/
structure FrameworkVerdict where
  framework : String
  clause : String
  verdict : Verdict
  deadline : Option String
  note : String

section Engine

variable (tables : CaseTables) (familyOf : String → Option String)

/-- `_KEY_SIZE_RE.findall`. -/
def digitRuns (text : List Char) : List (List Char) :=
  (text.splitBy fun left right => tables.isDigit left == tables.isDigit right).filter
    fun run => run.head?.any tables.isDigit

/-- The largest number of a name, or nothing for the `ValueError` of `int`. -/
def largest (runs : List (List Char)) : Option Nat :=
  (runs.mapM tables.intOf).map fun sizes => sizes.foldl max 0

/-- `_matches`; nothing stands for a `ValueError`. -/
def keyMatches (predicate : Predicate) (finding : Finding) : Option Bool :=
  let name := tables.upper finding.algorithm.toList
  match predicate with
  | .algorithm expected =>
      some (contains name (String.ofList (tables.upper expected.toList)))
  | .algorithmExact expected => some (name == tables.upper expected.toList)
  | .keySizeLt expected =>
      let runs := digitRuns tables finding.algorithm.toList
      if runs = [] then some false
      else (largest tables runs).map fun bits => decide (bits < expected)
  | .keySizeGe expected =>
      let runs := digitRuns tables finding.algorithm.toList
      if runs = [] then some false
      else (largest tables runs).map fun bits => decide (expected ≤ bits)
  | .classification expected => some (finding.classification.value == expected)
  | .classificationIn expected => some (expected.contains finding.classification.value)
  | .probeId expected => some (finding.probeId == expected)
  | .probeIdPrefix expected => some (startsWith finding.probeId.toList expected)
  | .probeFamily expected => some (familyOf finding.probeId == some expected)
  | .unknown _ => some false

/-- `all` of the predicates, in their order. -/
def allMatch (finding : Finding) : List Predicate → Option Bool
  | [] => some true
  | predicate :: rest =>
      match keyMatches tables familyOf predicate finding with
      | some true => allMatch finding rest
      | other => other

/-- `_Rule.applies`. -/
def Rule.applies (rule : Rule) (finding : Finding) : Option Bool :=
  allMatch tables familyOf finding rule.predicates

/-- The verdicts that the pairs of a framework and a rule yield, up to a `ValueError`. -/
def yields (finding : Finding) : List (FrameworkRules × Rule) → List FrameworkVerdict
  | [] => []
  | (framework, rule) :: rest =>
      match rule.applies tables familyOf finding with
      | none => []
      | some false => yields finding rest
      | some true =>
          ⟨framework.framework, rule.clause, rule.verdict, rule.deadline, rule.note⟩ ::
            yields finding rest

/-- `ComplianceEngine.evaluate`: what the generator yields. -/
def evaluate (frameworks : List FrameworkRules) (finding : Finding) :
    List FrameworkVerdict :=
  yields tables familyOf finding
    (frameworks.flatMap fun framework => framework.rules.map fun rule =>
      (framework, rule))

/-! ## What fires -/

variable {tables familyOf} {finding : Finding}

/-- All predicates of a rule that fires hold. -/
theorem keyMatches_of_applies {rule : Rule}
    (fires : rule.applies tables familyOf finding = some true)
    {predicate : Predicate} (member : predicate ∈ rule.predicates) :
    keyMatches tables familyOf predicate finding = some true := by
  unfold Rule.applies at fires
  generalize rule.predicates = predicates at fires member
  induction predicates with
  | nil => cases member
  | cons first rest inductionHypothesis =>
      rw [allMatch] at fires
      split at fires
      · next first_holds =>
        rcases List.mem_cons.mp member with same | later
        · rw [same, first_holds]
        · exact inductionHypothesis fires later
      · next other =>
        exact absurd fires other

/-- A verdict comes from a rule that fires. -/
theorem exists_rule_of_mem_evaluate {frameworks : List FrameworkRules}
    {verdict : FrameworkVerdict}
    (member : verdict ∈ evaluate tables familyOf frameworks finding) :
    ∃ framework ∈ frameworks, ∃ rule ∈ framework.rules,
      rule.applies tables familyOf finding = some true ∧
        verdict = ⟨framework.framework, rule.clause, rule.verdict, rule.deadline,
          rule.note⟩ := by
  have found : ∀ pairs : List (FrameworkRules × Rule),
      verdict ∈ yields tables familyOf finding pairs →
      ∃ pair ∈ pairs, pair.2.applies tables familyOf finding = some true ∧
        verdict = ⟨pair.1.framework, pair.2.clause, pair.2.verdict, pair.2.deadline,
          pair.2.note⟩ := by
    intro pairs member
    induction pairs with
    | nil => cases member
    | cons pair rest inductionHypothesis =>
        obtain ⟨framework, rule⟩ := pair
        have later : verdict ∈ yields tables familyOf finding rest →
            ∃ pair ∈ (framework, rule) :: rest,
              pair.2.applies tables familyOf finding = some true ∧
                verdict = ⟨pair.1.framework, pair.2.clause, pair.2.verdict,
                  pair.2.deadline, pair.2.note⟩ := by
          intro inside
          obtain ⟨pair, among, fires⟩ := inductionHypothesis inside
          exact ⟨pair, List.mem_cons_of_mem _ among, fires⟩
        rw [yields] at member
        split at member
        · cases member
        · exact later member
        · next fires =>
          rcases List.mem_cons.mp member with same | inside
          · exact ⟨(framework, rule), List.mem_cons_self, fires, same⟩
          · exact later inside
  obtain ⟨pair, among, fires⟩ := found _ member
  obtain ⟨framework, listed, within⟩ := List.mem_flatMap.mp among
  obtain ⟨rule, ruled, rfl⟩ := List.mem_map.mp within
  exact ⟨framework, listed, rule, ruled, fires⟩

theorem contains_of_applies {rule : Rule}
    (fires : rule.applies tables familyOf finding = some true)
    {needle : String} (member : .algorithm needle ∈ rule.predicates) :
    contains (tables.upper finding.algorithm.toList)
      (String.ofList (tables.upper needle.toList)) = true :=
  Option.some_inj.mp (keyMatches_of_applies fires member)

theorem classification_of_applies {rule : Rule}
    (fires : rule.applies tables familyOf finding = some true)
    {value : String} (member : .classification value ∈ rule.predicates) :
    finding.classification.value = value :=
  beq_iff_eq.mp (Option.some_inj.mp (keyMatches_of_applies fires member))

end Engine

end Compliance
end PqcScan
