import PqcScan.Core.Scores
import Mathlib.Algebra.Order.Field.Basic
import Mathlib.Algebra.Order.Field.Rat
import Mathlib.Algebra.Order.BigOperators.Group.List
import Mathlib.Tactic.Linarith
import Mathlib.Tactic.Positivity
import Mathlib.Tactic.Ring

/-!
# Laws of the scores

What the migration score, in exact arithmetic, and the readiness score have in common:
each is the rounded average of the credits of the findings that it grades.
-/

namespace PqcScan
namespace Core

open Library Python

/-! ## The migration score -/

/-- The four weights. -/
inductive Grade
  | safe
  | hybrid
  | partial_
  | vulnerable
  deriving DecidableEq, Repr

/-- The grade of a finding in the loop of `score_findings`; nothing
for one that is skipped. -/
def gradeOf (lower : String → String) (finding : Rated) : Option Grade :=
  if ["info", "error"].contains finding.classification then none
  else if MigrationScore.isHybrid lower finding.algorithm then some .hybrid
  else if finding.classification = "pqc-ready" then some .safe
  else if ["sederhana", "rendah"].contains finding.classification then some .partial_
  else if ["sangat-tinggi", "tinggi"].contains finding.classification then
    some .vulnerable
  else none

/-- `round(weighted / (total * 100) * 100, 1)`, in tenths. -/
def scoreTenths (weighted total : Nat) : Nat :=
  roundDiv (weighted * 100 * 10) (total * 100)

/-- What the score reads of a finding; it looks at neither severity nor evidence. -/
def Rated.scored (finding : Rated) : Scored where
  probeId := finding.probeId
  algorithm := finding.algorithm
  classification := finding.classification
  severity := ""
  evidence := Dict.ofList []

/-- `score_findings`, with the score in exact arithmetic. -/
def scoreFindings (lower : String → String) (findings : List Rated) :
    MigrationScore.MigrationReadiness :=
  MigrationScore.scoreFindings lower
    (fun weighted total => (scoreTenths weighted total : ℚ) / 10)
      (findings.map Rated.scored)

/-- The counts after a finding of a grade. -/
def MigrationScore.Grades.add (grades : MigrationScore.Grades) : Option Grade →
    MigrationScore.Grades
  | none => grades
  | some .safe => { grades with safe := grades.safe + 1 }
  | some .hybrid => { grades with hybrid := grades.hybrid + 1 }
  | some .partial_ => { grades with weakened := grades.weakened + 1 }
  | some .vulnerable => { grades with vulnerable := grades.vulnerable + 1 }

theorem grade_scored (lower : String → String) (grades : MigrationScore.Grades)
    (finding : Rated) :
    MigrationScore.grade lower grades finding.scored = grades.add
      (gradeOf lower finding) := by
  simp only [gradeOf, apply_ite grades.add]
  rfl

/-- The loop counts the grades. -/
theorem foldl_grade (lower : String → String) (findings : List Rated)
    (grades : MigrationScore.Grades) :
    (findings.map Rated.scored).foldl (MigrationScore.grade lower) grades =
      ⟨grades.safe + (findings.filterMap (gradeOf lower)).count .safe,
        grades.hybrid + (findings.filterMap (gradeOf lower)).count .hybrid,
        grades.weakened + (findings.filterMap (gradeOf lower)).count .partial_,
        grades.vulnerable + (findings.filterMap (gradeOf lower)).count .vulnerable⟩ := by
  induction findings generalizing grades with
  | nil => rfl
  | cons finding findings inductionHypothesis =>
      rw [List.map_cons, List.foldl_cons, grade_scored, inductionHypothesis,
        List.filterMap_cons]
      rcases gradeOf lower finding with _ | grade
      · rfl
      · cases grade <;>
          simp [MigrationScore.Grades.add, Nat.add_assoc, Nat.add_comm]

/-! ## Rounded averages -/

/-- A greater number is not rounded to a lower one. -/
theorem roundDiv_mono {a a' : Nat} (b : Nat) (le : a ≤ a') :
    roundDiv a b ≤ roundDiv a' b := by
  rcases Nat.eq_zero_or_pos b with rfl | positive
  · simp only [roundDiv, Nat.div_zero, Nat.mod_zero]
    split_ifs <;> omega
  · have quotients := Nat.div_le_div_right (c := b) le
    have split := Nat.div_add_mod a b
    have split' := Nat.div_add_mod a' b
    rcases quotients.lt_or_eq with less | same
    · simp only [roundDiv]
      split_ifs <;> omega
    · have rests : a % b ≤ a' % b := by
        rw [same] at split
        omega
      simp only [roundDiv, same]
      split_ifs <;> omega

theorem roundDiv_mul_right (a b : Nat) {c : Nat} (positive : 0 < c) :
    roundDiv (a * c) (b * c) = roundDiv a b := by
  have rest : a * c % (b * c) = a % b * c := Nat.mul_mod_mul_right c a b
  have less : 2 * (a % b * c) < b * c ↔ 2 * (a % b) < b := by
    rw [← mul_assoc, Nat.mul_lt_mul_right positive]
  have greater : b * c < 2 * (a % b * c) ↔ b < 2 * (a % b) := by
    rw [← mul_assoc, Nat.mul_lt_mul_right positive]
  simp only [roundDiv, Nat.mul_div_mul_right a b positive, rest, gt_iff_lt, less, greater]

/-- The average of the credits, rounded to a multiple of a unit that
divides one `scale` times. -/
def average (scale default : Nat) (credits : List Nat) : Nat :=
  if credits = [] then default else roundDiv (credits.sum * scale) credits.length

section Averages

variable {scale default : Nat} {credits credits' : List Nat}

theorem average_le {bound : Nat} (within : ∀ credit ∈ credits, credit ≤ bound)
    (start : default ≤ bound * scale) :
    average scale default credits ≤ bound * scale := by
  rw [average]
  split
  · exact start
  · apply roundDiv_le
    have sum := List.sum_le_card_nsmul credits bound within
    calc credits.sum * scale ≤ credits.length * bound * scale :=
      Nat.mul_le_mul_right _ sum
      _ = bound * scale * credits.length := by ring

/-- Better credits have no lower average. -/
theorem average_mono (better : List.Forall₂ (· ≤ ·) credits credits') :
    average scale default credits ≤ average scale default credits' := by
  have sums : credits.sum ≤ credits'.sum := List.Forall₂.sum_le_sum better
  have lengths := better.length_eq
  rw [average, average]
  by_cases none : credits = []
  · have none' : credits' = [] := by
      rw [none] at better
      exact List.forall₂_nil_left_iff.mp better
    rw [if_pos none, if_pos none']
  · have some' : credits' ≠ [] := by
      rintro rfl
      exact none (List.forall₂_nil_right_iff.mp better)
    rw [if_neg none, if_neg some', lengths]
    exact roundDiv_mono _ (Nat.mul_le_mul_right _ sums)

theorem average_perm (perm : credits.Perm credits') :
    average scale default credits = average scale default credits' := by
  have empty : credits = [] ↔ credits' = [] := by
    rw [← List.length_eq_zero_iff, ← List.length_eq_zero_iff, perm.length_eq]
  rw [average, average, perm.sum_eq, perm.length_eq]
  simp only [empty]

end Averages

/-! ## The scores as averages -/

/-- The band in which a finding counts for the readiness score. -/
def readinessBand (lower : String → String) (finding : Rated) : Option Band :=
  if finding.probeId = driftProbe ∨ classifyBand lower finding = .grey then none
  else some (classifyBand lower finding)

/-- What a finding in a band is worth. -/
def Band.credit : Band → Nat
  | .green => 100
  | .yellow => 50
  | .red => 0
  | .grey => 0

/-- What a finding of a grade is worth. -/
def Grade.credit : Grade → Nat
  | .safe => 100
  | .hybrid => 80
  | .partial_ => 30
  | .vulnerable => 0

/-- The place of a band among red, yellow and green. -/
def Band.place : Band → Nat
  | .green => 2
  | .yellow => 1
  | .red => 0
  | .grey => 0

/-- The place of a grade among the four. -/
def Grade.place : Grade → Nat
  | .safe => 3
  | .hybrid => 2
  | .partial_ => 1
  | .vulnerable => 0

theorem Band.credit_mono {worse better : Band} (le : worse.place ≤ better.place) :
    worse.credit ≤ better.credit := by
  revert le
  cases worse <;> cases better <;> decide

theorem Grade.credit_mono {worse better : Grade} (le : worse.place ≤ better.place) :
    worse.credit ≤ better.credit := by
  revert le
  cases worse <;> cases better <;> decide

/-- The credits of the graded findings. -/
def readinessCredits (lower : String → String) (findings : List Rated) : List Nat :=
  (findings.filterMap (readinessBand lower)).map Band.credit

/-- The credits of the findings that the migration score grades. -/
def migrationCredits (lower : String → String) (findings : List Rated) : List Nat :=
  (findings.filterMap (gradeOf lower)).map Grade.credit

section Credits

variable (lower : String → String)

theorem readinessBand_ne_grey (finding : Rated) :
    readinessBand lower finding ≠ some .grey := by
  rw [readinessBand]
  split
  · exact nofun
  · next graded =>
    intro same
    exact graded (Or.inr (Option.some.inj same))

/-- The count of a band is that of the bands in which the findings count. -/
theorem countBands_eq_count (findings : List Rated) {band : Band}
    (graded : band ≠ .grey) :
    countBands lower findings (.band band) =
      (findings.filterMap (readinessBand lower)).count band := by
  rw [countBands_band, List.count, List.countP_filterMap]
  apply List.countP_congr
  intro finding _
  rw [readinessBand]
  by_cases drift : finding.probeId = driftProbe
  · simp [drift]
  · by_cases grey : classifyBand lower finding = .grey
    · simp [drift, grey, graded.symm]
    · simp [drift, grey]

theorem readinessScore_eq (findings : List Rated) :
    readinessScore (countBands lower findings) =
      average 1 0 (readinessCredits lower findings) := by
  have counts : (readinessCredits lower findings).sum =
        countBands lower findings (.band .green) * 100 +
          countBands lower findings (.band .yellow) * 50 ∧
      (readinessCredits lower findings).length = (countBands lower findings).rated := by
    have ungrey : Band.grey ∉ findings.filterMap (readinessBand lower) := by
      intro member
      obtain ⟨finding, -, same⟩ := List.mem_filterMap.mp member
      exact readinessBand_ne_grey lower finding same
    rw [Tally.rated, countBands_eq_count lower findings (by decide : Band.green ≠ .grey),
      countBands_eq_count lower findings (by decide : Band.yellow ≠ .grey),
      countBands_eq_count lower findings (by decide : Band.red ≠ .grey), readinessCredits]
    generalize findings.filterMap (readinessBand lower) = bands at ungrey
    induction bands with
    | nil => exact ⟨rfl, rfl⟩
    | cons band bands inductionHypothesis =>
        rw [List.mem_cons, not_or] at ungrey
        obtain ⟨sum, length⟩ := inductionHypothesis ungrey.2
        rw [List.length_map] at length
        simp only [List.map_cons, List.sum_cons, List.length_cons, List.length_map,
          sum, length, List.count_cons]
        cases band with
        | green => simp [Band.credit]; omega
        | yellow => simp [Band.credit]; omega
        | red => simp [Band.credit]; omega
        | grey => exact absurd rfl ungrey.1
  rw [average, readinessScore, ← counts.1, ← counts.2, mul_one]
  simp only [List.length_eq_zero_iff]

theorem score_eq (findings : List Rated) :
    (scoreFindings lower findings).score =
      (average 10 1000 (migrationCredits lower findings) : ℚ) / 10 := by
  rw [scoreFindings, MigrationScore.scoreFindings, foldl_grade, migrationCredits]
  generalize findings.filterMap (gradeOf lower) = grades
  have counts : (grades.map Grade.credit).sum = grades.count .safe * 100 +
        grades.count .hybrid * 80 + grades.count .partial_ * 30 ∧
      (grades.map Grade.credit).length = grades.count .safe + grades.count .hybrid +
        grades.count .partial_ + grades.count .vulnerable := by
    induction grades with
    | nil => exact ⟨rfl, rfl⟩
    | cons grade grades inductionHypothesis =>
        obtain ⟨sum, length⟩ := inductionHypothesis
        rw [List.length_map] at length
        simp only [List.map_cons, List.sum_cons, List.length_cons, List.length_map,
          sum, length, List.count_cons]
        cases grade with
        | safe => simp [Grade.credit]; omega
        | hybrid => simp [Grade.credit]; omega
        | partial_ => simp [Grade.credit]; omega
        | vulnerable => simp [Grade.credit]; omega
  simp only [Nat.zero_add, ← counts.1, ← counts.2]
  rw [average]
  by_cases none : grades.map Grade.credit = []
  · rw [if_pos (List.length_eq_zero_iff.mpr none), if_pos none]
    norm_num
  · rw [if_neg (List.length_eq_zero_iff.not.mpr none), if_neg none, scoreTenths,
      mul_right_comm, roundDiv_mul_right _ _ (by decide)]

theorem migrationCredits_le (findings : List Rated) :
    ∀ credit ∈ migrationCredits lower findings, credit ≤ 100 := by
  intro credit member
  obtain ⟨grade, -, rfl⟩ := List.mem_map.mp member
  cases grade <;> decide

end Credits

/-- One credit for a better one. -/
theorem forall₂_replaced (front back : List Nat) {worse better : Nat}
    (le : worse ≤ better) :
    List.Forall₂ (· ≤ ·) (front ++ worse :: back) (front ++ better :: back) := by
  induction front with
  | nil => exact List.Forall₂.cons le (List.forall₂_refl back)
  | cons credit front inductionHypothesis =>
      exact List.Forall₂.cons (Nat.le_refl credit) inductionHypothesis

/-! ## The laws of the scores -/

/-- What holds of the two scores of every list of findings. -/
structure ScoreLaws (lower : String → String) : Prop where
  readiness_le : ∀ findings, readinessScore (countBands lower findings) ≤ 100
  score_mem : ∀ findings,
    0 ≤ (scoreFindings lower findings).score ∧ (scoreFindings lower findings).score ≤ 100
  /-- From red to yellow to green. -/
  readiness_better : ∀ front worse better back a b, readinessBand lower worse = some a →
    readinessBand lower better = some b → a.place ≤ b.place →
      readinessScore (countBands lower (front ++ worse :: back)) ≤
        readinessScore (countBands lower (front ++ better :: back))
  /-- From vulnerable to partial to hybrid to safe. -/
  score_better : ∀ front worse better back a b, gradeOf lower worse = some a →
    gradeOf lower better = some b → a.place ≤ b.place →
      (scoreFindings lower (front ++ worse :: back)).score ≤
        (scoreFindings lower (front ++ better :: back)).score
  readiness_ungraded : ∀ front finding back,
    finding.probeId = driftProbe ∨ classifyBand lower finding = .grey →
      readinessScore (countBands lower (front ++ finding :: back)) =
        readinessScore (countBands lower (front ++ back))
  score_ungraded : ∀ front finding back,
    finding.classification = "info" ∨ finding.classification = "error" →
      (scoreFindings lower (front ++ finding :: back)).score =
        (scoreFindings lower (front ++ back)).score
  readiness_perm : ∀ findings findings' : List Rated, findings.Perm findings' →
    readinessScore (countBands lower findings) =
      readinessScore (countBands lower findings')
  score_perm : ∀ findings findings' : List Rated, findings.Perm findings' →
    (scoreFindings lower findings).score = (scoreFindings lower findings').score

/-- Both scores stay within 0 to 100, do not fall when a finding gets better, and depend
neither on the order nor on findings that are not graded. -/
theorem scoreLaws (lower : String → String) : ScoreLaws lower where
  readiness_le := fun _ => readinessScore_le _
  score_mem := by
    intro findings
    have le := @average_le 10 1000 _ 100 (migrationCredits_le lower findings) (by decide)
    have cast : (average 10 1000 (migrationCredits lower findings) : ℚ) ≤ 1000 := by
      exact_mod_cast le
    rw [score_eq]
    constructor
    · positivity
    · linarith
  readiness_better := by
    intro front worse better back a b first second le
    rw [readinessScore_eq, readinessScore_eq]
    apply average_mono
    simp only [readinessCredits, List.filterMap_append, List.filterMap_cons,
      first, second, List.map_append, List.map_cons]
    exact forall₂_replaced _ _ (Band.credit_mono le)
  score_better := by
    intro front worse better back a b first second le
    rw [score_eq, score_eq]
    have averages : average 10 1000 (migrationCredits lower (front ++ worse :: back)) ≤
        average 10 1000 (migrationCredits lower (front ++ better :: back)) := by
      apply average_mono
      simp only [migrationCredits, List.filterMap_append, List.filterMap_cons,
        first, second, List.map_append, List.map_cons]
      exact forall₂_replaced _ _ (Grade.credit_mono le)
    have cast : (average 10 1000 (migrationCredits lower (front ++ worse :: back)) : ℚ) ≤
        average 10 1000 (migrationCredits lower (front ++ better :: back)) := by
      exact_mod_cast averages
    linarith
  readiness_ungraded := by
    intro front finding back ungraded
    have none : readinessBand lower finding = none := by
      rw [readinessBand, if_pos ungraded]
    rw [readinessScore_eq, readinessScore_eq]
    simp only [readinessCredits, List.filterMap_append, List.filterMap_cons, none]
  score_ungraded := by
    intro front finding back observed
    have none : gradeOf lower finding = none := by
      rcases observed with info | error
      · rw [gradeOf, info]
        rfl
      · rw [gradeOf, error]
        rfl
    rw [score_eq, score_eq]
    simp only [migrationCredits, List.filterMap_append, List.filterMap_cons, none]
  readiness_perm := by
    intro findings findings' perm
    rw [readinessScore_eq, readinessScore_eq]
    exact average_perm ((perm.filterMap _).map _)
  score_perm := by
    intro findings findings' perm
    have credits : (migrationCredits lower findings).Perm
        (migrationCredits lower findings') :=
      (perm.filterMap _).map _
    rw [score_eq, score_eq, average_perm credits]

/-! ## Findings that only one score grades -/

/-- `str.lower` of US-ASCII text. -/
def asciiLower (text : String) : String := String.ofList (Python.lower text.toList)

/-- An observation that names a post-quantum algorithm is green, and a grey finding of a
grave tier is vulnerable: adding one to a graded list changes a score. -/
theorem ungraded_change_scores :
    readinessScore (countBands asciiLower [⟨"tinggi", "RSA-2048", "net.tls"⟩]) = 50 ∧
    readinessScore (countBands asciiLower
      [⟨"tinggi", "RSA-2048", "net.tls"⟩, ⟨"info", "ML-KEM-768", "net.tls"⟩]) = 75 ∧
    (scoreFindings asciiLower [⟨"pqc-ready", "ML-KEM-768", "net.tls"⟩]).score = 100 ∧
    classifyBand asciiLower ⟨"tinggi", "N/A", "net.tls"⟩ = .grey ∧
    (scoreFindings asciiLower
      [⟨"pqc-ready", "ML-KEM-768", "net.tls"⟩, ⟨"tinggi", "N/A", "net.tls"⟩]).score =
        50 := by
  decide +kernel

end Core
end PqcScan
