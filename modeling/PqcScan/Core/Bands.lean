import PqcScan.Core.Parity
import Mathlib.Algebra.BigOperators.Pi

/-!
# Readiness bands

The traffic-light bands of `core/bands.py`, the counts per band and the
readiness score.  The band of a finding depends on its classification, its
algorithm and its probe only.
-/

namespace PqcScan
namespace Core

open Library Python

/-- The bands of the dashboard. -/
inductive Band
  | green
  | yellow
  | red
  | grey
  deriving DecidableEq, Repr

/-- What decides the band of a finding. -/
structure Rated where
  classification : String
  algorithm : String
  probeId : String

/-- `PQC_ALGO_FRAGMENTS`. -/
def pqcAlgoFragments : List String :=
  ["ml-kem", "ml-dsa", "slh-dsa", "fn-dsa",
    "kyber", "dilithium", "falcon", "sphincs",
    "frodokem", "ntru", "saber", "classic-mceliece", "bike", "hqc",
    "xmss", "lms", "mlkem", "mldsa"]

/-- `classify_band`, with `lower` for `str.lower`. -/
def classifyBand (lower : String → String) (finding : Rated) : Band :=
  let algo := strip (lower finding.algorithm).toList
  let pid := (lower finding.probeId).toList
  if finding.classification = "pqc-ready" ∨ pqcAlgoFragments.any (contains algo) then
    .green
  else if ["info", "error"].contains finding.classification ∨ algo = [] ∨
      algo = "n/a".toList then
    .grey
  else if ["code.", "sbom.", "fs.cert."].any (·.toList.isPrefixOf pid) ∨
      pid = "trust.system_roots".toList then
    .red
  else .yellow

/-! ## Counts -/

/-- The keys of a dictionary of counts. -/
inductive Counter
  | band (band : Band)
  | total
  | crit
  | high
  | drift
  deriving DecidableEq

/-- A dictionary of counts; a key it lacks reads zero. -/
abbrev Tally := Counter → Nat

/-- `empty_band_counts`. -/
def emptyBandCounts : Tally := 0

/-- `counts[key] += n`. -/
def Tally.add (counts : Tally) (key : Counter) (n : Nat) : Tally :=
  Function.update counts key (counts key + n)

theorem Tally.add_eq (counts : Tally) (key : Counter) (n : Nat) :
    counts.add key n = counts + n • Pi.single key 1 := by
  funext other
  unfold Tally.add
  by_cases same : other = key
  · subst same
    simp
  · simp [Function.update_of_ne same, Pi.single_eq_of_ne same]

/-- Counting rows one by one adds up what they weigh. -/
theorem foldl_weigh {α : Type} {count : Tally → α → Tally} {weigh : α → Tally}
    (step : ∀ counts row, count counts row = counts + weigh row) (rows : List α)
    (counts : Tally) : rows.foldl count counts = counts + (rows.map weigh).sum := by
  induction rows generalizing counts with
  | nil => simp
  | cons row rest inductionHypothesis =>
      rw [List.foldl_cons, inductionHypothesis, step, List.map_cons, List.sum_cons,
        add_assoc]

/-- A counter that each row moves by one or not at all. -/
theorem sum_weigh_eq_countP {α : Type} {weigh : α → Tally} {key : Counter}
    {moves : α → Bool} (indicator : ∀ row, weigh row key = if moves row then 1 else 0)
    (rows : List α) : (rows.map weigh).sum key = rows.countP moves := by
  induction rows with
  | nil => rfl
  | cons row rest inductionHypothesis =>
      rw [List.map_cons, List.sum_cons, Pi.add_apply, inductionHypothesis, indicator,
        List.countP_cons, add_comm]

/-- One step of `count_bands`. -/
def countBand (lower : String → String) (counts : Tally) (finding : Rated) : Tally :=
  if finding.probeId == driftProbe then counts
  else (counts.add (.band (classifyBand lower finding)) 1).add .total 1

/-- `count_bands`. -/
def countBands (lower : String → String) (findings : List Rated) : Tally :=
  findings.foldl (countBand lower) emptyBandCounts

/-- What one finding adds in `count_bands`. -/
def bandWeight (lower : String → String) (finding : Rated) : Tally :=
  if finding.probeId == driftProbe then 0
  else Pi.single (.band (classifyBand lower finding)) 1 + Pi.single .total 1

theorem countBand_eq (lower : String → String) (counts : Tally) (finding : Rated) :
    countBand lower counts finding = counts + bandWeight lower finding := by
  unfold countBand bandWeight
  split
  · rw [add_zero]
  · rw [Tally.add_eq, Tally.add_eq, one_nsmul, one_nsmul, add_assoc]

theorem countBands_eq (lower : String → String) (findings : List Rated) :
    countBands lower findings = (findings.map (bandWeight lower)).sum := by
  rw [countBands, foldl_weigh (countBand_eq lower), emptyBandCounts, zero_add]

/-- The count of a band is the number of findings in it, drift apart. -/
theorem countBands_band (lower : String → String) (findings : List Rated) (band : Band) :
    countBands lower findings (.band band) =
      findings.countP fun finding =>
        finding.probeId != driftProbe && classifyBand lower finding == band := by
  rw [countBands_eq]
  apply sum_weigh_eq_countP
  intro finding
  unfold bandWeight
  by_cases drift : finding.probeId = driftProbe
  · simp [drift]
  · by_cases here : classifyBand lower finding = band
    · simp [drift, here]
    · simp [drift, here, Ne.symm here]

/-- The total is the number of findings, drift apart. -/
theorem countBands_total (lower : String → String) (findings : List Rated) :
    countBands lower findings .total =
      findings.countP fun finding => finding.probeId != driftProbe := by
  rw [countBands_eq]
  apply sum_weigh_eq_countP
  intro finding
  unfold bandWeight
  by_cases drift : finding.probeId = driftProbe <;> simp [drift]

/-! ## The score -/

/-- `round(a / b)`: to the nearest integer, halves to the even one. -/
def roundDiv (a b : Nat) : Nat :=
  let low := a / b
  let rest := 2 * (a % b)
  if rest < b then low
  else if rest > b then low + 1
  else if low % 2 = 0 then low else low + 1

/-- The findings that count for the score. -/
def Tally.rated (counts : Tally) : Nat :=
  counts (.band .green) + counts (.band .yellow) + counts (.band .red)

/-- `readiness_score`. -/
def readinessScore (counts : Tally) : Nat :=
  let weighted := counts (.band .green) * 100 + counts (.band .yellow) * 50
  if counts.rated = 0 then 0 else roundDiv weighted counts.rated

theorem rated_congr {left right : Tally}
    (same : ∀ band, left (.band band) = right (.band band)) :
    left.rated = right.rated := by
  simp only [Tally.rated, same]

/-- The score depends on the bands only. -/
theorem readinessScore_congr {left right : Tally}
    (same : ∀ band, left (.band band) = right (.band band)) :
    readinessScore left = readinessScore right := by
  simp only [readinessScore, rated_congr same, same]

theorem roundDiv_le {a b bound : Nat} (within : a ≤ bound * b) :
    roundDiv a b ≤ bound := by
  have below : a / b ≤ bound := Nat.div_le_of_le_mul (by rwa [mul_comm] at within)
  unfold roundDiv
  rcases below.lt_or_eq with less | exact
  · dsimp only
    split_ifs <;> omega
  · have split := Nat.div_add_mod a b
    rw [exact, mul_comm] at split
    have nothing : a % b = 0 := by omega
    rcases Nat.eq_zero_or_pos b with rfl | positive
    · simp at exact
      simp [nothing, ← exact]
    · simp [nothing, positive, exact]

/-- Nobody scores above 100. -/
theorem readinessScore_le (counts : Tally) : readinessScore counts ≤ 100 := by
  unfold readinessScore
  dsimp only
  split
  · omega
  · apply roundDiv_le
    unfold Tally.rated
    omega

/-- The findings that count for the score are those of the three bands. -/
theorem rated_countBands_eq_zero_iff (lower : String → String) (findings : List Rated) :
    (countBands lower findings).rated = 0 ↔
      ∀ finding ∈ findings, finding.probeId ≠ driftProbe →
        classifyBand lower finding = .grey := by
  simp only [Tally.rated, countBands_band, Nat.add_eq_zero_iff, List.countP_eq_zero]
  constructor
  · rintro ⟨⟨green, yellow⟩, red⟩ finding member kept
    have notGreen := green finding member
    have notYellow := yellow finding member
    have notRed := red finding member
    cases band : classifyBand lower finding <;> simp_all
  · intro grey
    refine ⟨⟨?_, ?_⟩, ?_⟩ <;>
    · intro finding member
      by_cases drift : finding.probeId = driftProbe
      · simp [drift]
      · simp [grey finding member drift]

/-! ## Surfaces -/

/-- `SURFACE_ORDER`. -/
inductive Surface
  | tls
  | ssh
  | vpn
  | cert
  | code
  | data
  deriving DecidableEq, Repr

/-- `classify_surface`; `none` is `other`. -/
def classifySurface (lower : String → String) (finding : Rated) : Option Surface :=
  let pid := (lower finding.probeId).toList
  let starts := fun heads : List String => heads.any (·.toList.isPrefixOf pid)
  if contains pid "tls" || contains pid "starttls" then some .tls
  else if starts ["net.ssh"] || contains pid ".ssh." then some .ssh
  else if starts ["vpn."] ||
      ["wireguard", "tailscale", "openvpn", "ipsec"].any (contains pid) then some .vpn
  else if ["cert", "x509", "trust"].any (contains pid) || starts ["sign."] then some .cert
  else if starts ["code.", "sbom."] then some .code
  else if starts ["fs.", "storage.", "secrets.", "container.", "host."] then some .data
  else none

/-- One step of `surface_breakdown`. -/
def countSurface (lower : String → String) (breakdown : Surface → Tally)
    (finding : Rated) :
    Surface → Tally :=
  match classifySurface lower finding with
  | none => breakdown
  | some surface =>
      if finding.probeId == driftProbe then breakdown
      else
        Function.update breakdown surface
          (((breakdown surface).add (.band (classifyBand lower finding)) 1).add .total 1)

/-- `surface_breakdown`. -/
def surfaceBreakdown (lower : String → String) (findings : List Rated) :
    Surface → Tally :=
  findings.foldl (countSurface lower) fun _ => emptyBandCounts

end Core
end PqcScan
