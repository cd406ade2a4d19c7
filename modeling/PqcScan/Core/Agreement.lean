import PqcScan.Core.Register
import PqcScan.Core.Names

/-!
# Agreement of the scores

The bands, the migration score and the exposure register on the same findings: when the
green findings are those that the score takes for post-quantum, and when the register has
none of them.
-/

namespace PqcScan
namespace Core

open Library Python

/-- What the bands read of a finding. -/
def Scored.rated (finding : Scored) : Rated :=
  ⟨finding.classification, finding.algorithm, finding.probeId⟩

/-- The classification of a finding is that of its algorithm. -/
def Scored.Classified (tables : CaseTables) (finding : Scored) : Prop :=
  finding.classification = Classification.error.value ∨
    (tables.classify finding.algorithm.toList).map Classification.value =
      some finding.classification

/-- `str.lower`. -/
def CaseTables.lowerStr (tables : CaseTables) (text : String) : String :=
  String.ofList (tables.lower text.toList)

namespace Agreement

variable (lower : String → String)

/-- The finding is green on the dashboard. -/
def green (finding : Scored) : Bool := classifyBand lower finding.rated == .green

/-- A name with a fragment of the bands. -/
def fragment (finding : Scored) : Bool :=
  pqcAlgoFragments.any (contains (strip (lower finding.algorithm).toList))

/-- The finding does not count. -/
def skipped (finding : Scored) : Bool := ["info", "error"].contains finding.classification

/-- Green in the bands by its name, and neither safe nor hybrid in the score. -/
def greenOnly (finding : Scored) : Bool :=
  finding.probeId != driftProbe && fragment lower finding &&
    (skipped finding ||
      (finding.classification != "pqc-ready" &&
        !MigrationScore.isHybrid lower finding.algorithm))

/-- Safe or hybrid in the score, and not green in the bands: it is a change marker, or it
is hybrid by its name, which has no fragment of the bands. -/
def gradedOnly (finding : Scored) : Bool :=
  !skipped finding &&
    if finding.probeId == driftProbe then
      finding.classification == "pqc-ready" ||
        MigrationScore.isHybrid lower finding.algorithm
    else
      finding.classification != "pqc-ready" &&
        MigrationScore.isHybrid lower finding.algorithm && !fragment lower finding

/-! ## The counts -/

theorem green_eq (finding : Scored) :
    green lower finding =
      (finding.classification == "pqc-ready" || fragment lower finding) := by
  unfold green classifyBand fragment Scored.rated
  by_cases ready : finding.classification = "pqc-ready" ∨
      pqcAlgoFragments.any (contains (strip (lower finding.algorithm).toList)) = true
  · dsimp only
    rw [if_pos ready, beq_self_eq_true]
    simpa using ready
  · dsimp only
    rw [if_neg ready]
    rw [not_or] at ready
    rw [beq_false_of_ne ready.1, Bool.eq_false_iff.mpr ready.2]
    split_ifs <;> rfl

/-- A finding that the score takes for post-quantum. -/
def graded (finding : Scored) : Bool :=
  !skipped finding &&
    (finding.classification == "pqc-ready" ||
      MigrationScore.isHybrid lower finding.algorithm)

/-- A finding is green and hybrid only, or graded and green only,
the same number of times. -/
theorem agree_pointwise (finding : Scored) :
    (finding.probeId != driftProbe && green lower finding).toNat +
        (gradedOnly lower finding).toNat =
      (graded lower finding).toNat + (greenOnly lower finding).toNat := by
  have apart : skipped finding = true →
      (finding.classification == "pqc-ready") = false := by
    intro skips
    by_contra ready
    rw [Bool.not_eq_false, beq_iff_eq] at ready
    rw [skipped, ready] at skips
    exact absurd skips (by decide)
  rw [green_eq, gradedOnly, graded, greenOnly, bne, bne]
  generalize fragment lower finding = named
  generalize MigrationScore.isHybrid lower finding.algorithm = hybrid
  generalize (finding.probeId == driftProbe) = drift
  generalize (finding.classification == "pqc-ready") = ready at apart
  generalize skipped finding = skips at apart
  revert apart
  revert named hybrid drift ready skips
  decide

theorem countP_cons_toNat (test : Scored → Bool) (finding : Scored) (rest : List Scored) :
    (finding :: rest).countP test = rest.countP test + (test finding).toNat := by
  rw [List.countP_cons]
  cases test finding <;> rfl

theorem countP_agree (findings : List Scored) :
    findings.countP (fun finding =>
      finding.probeId != driftProbe && green lower finding) +
        findings.countP (gradedOnly lower) =
      findings.countP (graded lower) + findings.countP (greenOnly lower) := by
  induction findings with
  | nil => rfl
  | cons finding rest inductionHypothesis =>
      have here := agree_pointwise lower finding
      rw [countP_cons_toNat, countP_cons_toNat, countP_cons_toNat, countP_cons_toNat]
      omega

theorem countBands_green (findings : List Scored) :
    countBands lower (findings.map Scored.rated) (.band .green) =
      findings.countP fun finding => finding.probeId != driftProbe &&
        green lower finding := by
  rw [countBands_band, List.countP_map]
  rfl

/-- A finding counts as safe or hybrid when it is graded, and as vulnerable when it is. -/
theorem grade_step (grades : MigrationScore.Grades) (finding : Scored) :
    (MigrationScore.grade lower grades finding).safe +
        (MigrationScore.grade lower grades finding).hybrid =
          grades.safe + grades.hybrid + (graded lower finding).toNat ∧
      (MigrationScore.grade lower grades finding).vulnerable =
        grades.vulnerable + (Exposure.isVulnerable lower finding).toNat := by
  have other : ∀ classification : String,
      ["info", "error", "pqc-ready", "sederhana", "rendah"].contains classification =
        true →
        ["sangat-tinggi", "tinggi"].contains classification = false := by
    intro classification listed
    simp only [List.contains_iff_mem, List.mem_cons, List.not_mem_nil, or_false] at listed
    rcases listed with rfl | rfl | rfl | rfl | rfl <;> decide
  unfold MigrationScore.grade graded Exposure.isVulnerable
  split_ifs with skips hybrid ready weakened vulnerable
  · have skips' : skipped finding = true := skips
    rw [skips', other _ (by simp at skips ⊢; tauto)]
    simp
  · have kept : skipped finding = false := Bool.eq_false_iff.mpr skips
    rw [kept, hybrid]
    simp only [Bool.not_false, Bool.not_true, Bool.or_true, Bool.true_and, Bool.false_and,
      Bool.toNat_true, Bool.toNat_false, add_zero, and_true]
    omega
  · have kept : skipped finding = false := Bool.eq_false_iff.mpr skips
    rw [kept, ready, other _ (by decide)]
    simp
    omega
  · have kept : skipped finding = false := Bool.eq_false_iff.mpr skips
    rw [kept, beq_false_of_ne ready, Bool.eq_false_iff.mpr hybrid,
      other _ (by simp at weakened ⊢; tauto)]
    simp
  · have kept : skipped finding = false := Bool.eq_false_iff.mpr skips
    rw [kept, beq_false_of_ne ready, Bool.eq_false_iff.mpr hybrid, vulnerable]
    simp
  · have kept : skipped finding = false := Bool.eq_false_iff.mpr skips
    rw [kept, beq_false_of_ne ready, Bool.eq_false_iff.mpr hybrid,
      Bool.eq_false_iff.mpr vulnerable]
    simp

/-- What the score counts. -/
theorem grade_counts (findings : List Scored) (grades : MigrationScore.Grades) :
    (findings.foldl (MigrationScore.grade lower) grades).safe +
        (findings.foldl (MigrationScore.grade lower) grades).hybrid =
          grades.safe + grades.hybrid + findings.countP (graded lower) ∧
      (findings.foldl (MigrationScore.grade lower) grades).vulnerable =
        grades.vulnerable + findings.countP (Exposure.isVulnerable lower) := by
  induction findings generalizing grades with
  | nil => exact ⟨rfl, rfl⟩
  | cons finding rest inductionHypothesis =>
      obtain ⟨ready, vulnerable⟩ :=
        inductionHypothesis (MigrationScore.grade lower grades finding)
      obtain ⟨readyHere, vulnerableHere⟩ := grade_step lower grades finding
      rw [List.foldl_cons, ready, vulnerable, readyHere, vulnerableHere,
        countP_cons_toNat, countP_cons_toNat]
      constructor
      · omega
      · omega

/-- The counts of the score, whether or not there is anything to score. -/
theorem scoreFindings_counts (percent : Nat → Nat → ℚ) (findings : List Scored) :
    (MigrationScore.scoreFindings lower percent findings).grades.safe +
        (MigrationScore.scoreFindings lower percent findings).grades.hybrid =
          findings.countP (graded lower) ∧
      (MigrationScore.scoreFindings lower percent findings).grades.vulnerable =
        findings.countP (Exposure.isVulnerable lower) := by
  obtain ⟨ready, vulnerable⟩ := grade_counts lower findings ⟨0, 0, 0, 0⟩
  rw [MigrationScore.scoreFindings]
  dsimp only at ready vulnerable ⊢
  split
  · constructor
    · dsimp only
      omega
    · dsimp only
      omega
  · constructor
    · dsimp only
      omega
    · dsimp only
      omega

/-! ## The register -/

open Exposure

/-- The order of the register on findings. -/
def sooner (text : Text) (left right : Scored) : Bool :=
  before (rowFor text lower left) (rowFor text lower right)

/-- The findings of the rows of the register. -/
def registered (text : Text) (findings : List Scored) : List Scored :=
  ((findings.filter (isVulnerable lower)).mergeSort (sooner lower text)).take maxRows

theorem buildRegister_eq (text : Text) (findings : List Scored) :
    buildRegister text lower findings =
      (registered lower text findings).map (rowFor text lower) := by
  have sorted := List.map_mergeSort (r := sooner lower text) (s := before)
    (f := rowFor text lower) (l := findings.filter (isVulnerable lower)) fun _ _ _ _ =>
      rfl
  rw [buildRegister, registered, List.map_take, sorted]

theorem length_buildRegister (text : Text) (findings : List Scored) :
    (buildRegister text lower findings).length =
      min maxRows (findings.countP (isVulnerable lower)) := by
  rw [buildRegister, List.length_take, List.length_mergeSort, List.length_map,
    ← List.countP_eq_length_filter]

theorem sooner_trans (text : Text) (first second third : Scored)
    (low : sooner lower text first second = true)
    (high : sooner lower text second third = true) :
    sooner lower text first third = true :=
  before_trans _ _ _ low high

theorem sooner_total (text : Text) (left right : Scored) :
    (sooner lower text left right || sooner lower text right left) = true :=
  before_total _ _

/-- A vulnerable finding is green by its name only. -/
theorem green_of_vulnerable {finding : Scored}
    (vulnerable : isVulnerable lower finding = true) :
    green lower finding = fragment lower finding := by
  rw [isVulnerable, Bool.and_eq_true] at vulnerable
  have notReady : finding.classification ≠ "pqc-ready" := by
    intro ready
    rw [ready] at vulnerable
    exact absurd vulnerable.2 (by decide)
  rw [green_eq, beq_false_of_ne notReady, Bool.false_or]

/-- The vulnerable findings, each with its place. -/
def vulnerable (findings : List Scored) : List (Scored × Nat) :=
  (findings.filter (isVulnerable lower)).zipIdx

/-- Every vulnerable finding whose name has a fragment of the bands comes after the rows
that the register has. -/
def Beyond (text : Text) (findings : List Scored) : Prop :=
  ∀ entry ∈ vulnerable lower findings, fragment lower entry.1 = true →
    maxRows ≤ (vulnerable lower findings).countP (ahead (sooner lower text) · entry)

theorem registered_not_green_iff (text : Text) (findings : List Scored) :
    (∀ finding ∈ registered lower text findings,
      classifyBand lower finding.rated ≠ .green) ↔
      Beyond lower text findings := by
  have banded : ∀ entry ∈ vulnerable lower findings,
      (classifyBand lower entry.1.rated = .green ↔ fragment lower entry.1 = true) := by
    intro entry member
    have inside := List.fst_mem_of_mem_zipIdx member
    rw [← green_of_vulnerable lower (List.mem_filter.mp inside).2, green, beq_iff_eq]
  have placed := mem_take_mergeSort (sooner_trans lower text) (sooner_total lower text)
    (findings.filter (isVulnerable lower)) maxRows
  constructor
  · intro absent entry member named
    by_contra few
    apply absent entry.1 _ ((banded entry member).mpr named)
    exact (placed entry.1).mpr ⟨entry, member, rfl, not_le.mp few⟩
  · intro beyond finding taken isGreen
    obtain ⟨entry, member, rfl, few⟩ := (placed finding).mp taken
    have many := beyond entry member ((banded entry member).mp isGreen)
    exact absurd few (not_lt.mpr many)

/-- The three modules agree on what is post-quantum. -/
structure Agree (text : Text) (percent : Nat → Nat → ℚ)
    (findings : List Scored) : Prop where
  counts : countBands lower (findings.map Scored.rated) (.band .green) =
    (MigrationScore.scoreFindings lower percent findings).grades.safe +
      (MigrationScore.scoreFindings lower percent findings).grades.hybrid
  length : (buildRegister text lower findings).length =
    min 200 (MigrationScore.scoreFindings lower percent findings).grades.vulnerable
  register : ∀ finding ∈ registered lower text findings,
    classifyBand lower finding.rated ≠ .green

/-- The modules agree exactly when as many findings are green without a grade as have one
of the upper grades without being green, and the register is full before the first
vulnerable finding with a green name. -/
theorem agree_iff (text : Text) (percent : Nat → Nat → ℚ) (findings : List Scored) :
    Agree lower text percent findings ↔
      findings.countP (greenOnly lower) = findings.countP (gradedOnly lower) ∧
        Beyond lower text findings := by
  obtain ⟨ready, vulnerable⟩ := scoreFindings_counts lower percent findings
  have counted := countP_agree lower findings
  have bands := countBands_green lower findings
  constructor
  · intro agree
    have same := agree.counts
    refine ⟨?_, (registered_not_green_iff lower text findings).mp agree.register⟩
    rw [bands, ready] at same
    omega
  · rintro ⟨same, beyond⟩
    refine ⟨?_, ?_, (registered_not_green_iff lower text findings).mpr beyond⟩
    · rw [bands, ready]
      omega
    · rw [length_buildRegister, vulnerable]
      rfl

/-! ## A name that the modules read differently -/

/-- A hybrid of P-256 and HQC, as a probe of the network reports it. -/
def hqcFinding : Scored where
  probeId := "net.tls.kex_groups"
  algorithm := "P256_HQC128"
  classification := Classification.tinggi.value
  severity := "high"
  evidence := Dict.empty

/-- A hybrid that is green is in the register all the same. -/
theorem hqc_in_register :
    hqcFinding.Classified plainTables ∧
      ¬ Agree plainTables.lowerStr asciiText (fun _ _ => 0) [hqcFinding] := by
  constructor
  · right
    decide +kernel
  · intro agree
    have counted := agree.counts
    have bands :
        countBands plainTables.lowerStr ([hqcFinding].map Scored.rated) (.band .green) =
          1 := by
      rw [countBands_green]
      decide +kernel
    obtain ⟨score, -⟩ :=
      scoreFindings_counts plainTables.lowerStr (fun _ _ => 0) [hqcFinding]
    have none : [hqcFinding].countP (graded plainTables.lowerStr) = 0 := by
      decide +kernel
    omega

end Agreement

end Core
end PqcScan
