import PqcScan.Core.Bands
import PqcScan.Library.Insertion
import Mathlib.Data.Rat.Defs

/-!
# Migration, agility and exposure

The scores of `core/migration_score.py`, `core/agility.py` and
`core/exposure.py`.  `lower` is `str.lower`; `percent` is the floating-point
value of `round(weighted / (total * 100) * 100, 1)`.
-/

namespace PqcScan
namespace Core

open Library Python

/-- What the scores read of a finding. -/
structure Scored where
  probeId : String
  algorithm : String
  classification : String
  severity : String
  evidence : Dict String Json

/-- `text.startswith(prefixes)`. -/
def startsWithAny (text : List Char) (heads : List String) : Bool :=
  heads.any (·.toList.isPrefixOf text)

/-! ## Migration readiness -/

namespace MigrationScore

/-- `_PQC_FRAGMENTS`. -/
def pqcFragments : List String :=
  ["ml-kem", "mlkem", "ml-dsa", "mldsa", "slh-dsa", "slhdsa", "fn-dsa",
    "kyber", "dilithium", "falcon", "sphincs"]

/-- `_CLASSICAL_FRAGMENTS`. -/
def classicalFragments : List String :=
  ["ecdsa", "ecdh", "ed25519", "ed448", "rsa",
    "x25519", "x448", "p-256", "p256", "p-384", "p384", "p-521", "p521",
    "secp256", "secp384", "secp521", "brainpool", "nistp"]

/-- `_is_hybrid`. -/
def isHybrid (lower : String → String) (algorithm : String) : Bool :=
  let algo := (lower algorithm).toList
  contains algo "+" ||
    (pqcFragments.any (contains algo) && classicalFragments.any (contains algo))

/-- The counts of the four weights. -/
structure Grades where
  safe : Nat
  hybrid : Nat
  weakened : Nat
  vulnerable : Nat

/-- `MigrationReadiness`. -/
structure MigrationReadiness where
  total : Nat
  grades : Grades
  score : ℚ
  band : String

/-- `_band_for`. -/
def bandFor (score : ℚ) : String :=
  if score ≥ 90 then "EXCELLENT"
  else if score ≥ 70 then "GOOD"
  else if score ≥ 50 then "MODERATE"
  else if score ≥ 25 then "POOR"
  else "CRITICAL"

/-- The body of the loop of `score_findings`. -/
def grade (lower : String → String) (grades : Grades) (finding : Scored) : Grades :=
  if ["info", "error"].contains finding.classification then grades
  else if isHybrid lower finding.algorithm then
    { grades with hybrid := grades.hybrid + 1 }
  else if finding.classification = "pqc-ready" then
    { grades with safe := grades.safe + 1 }
  else if ["sederhana", "rendah"].contains finding.classification then
    { grades with weakened := grades.weakened + 1 }
  else if ["sangat-tinggi", "tinggi"].contains finding.classification then
    { grades with vulnerable := grades.vulnerable + 1 }
  else grades

/-- `score_findings`. -/
def scoreFindings (lower : String → String) (percent : Nat → Nat → ℚ)
    (findings : List Scored) : MigrationReadiness :=
  let grades := findings.foldl (grade lower) ⟨0, 0, 0, 0⟩
  let total := grades.safe + grades.hybrid + grades.weakened + grades.vulnerable
  if total = 0 then ⟨0, ⟨0, 0, 0, 0⟩, 100, "EXCELLENT"⟩
  else
    let weighted := grades.safe * 100 + grades.hybrid * 80 + grades.weakened * 30
    let score := percent weighted total
    ⟨total, grades, score, bandFor score⟩

end MigrationScore

/-! ## Agility -/

namespace Agility

/-- `_VULNERABLE`. -/
def vulnerable : List String := ["sangat-tinggi", "tinggi", "sederhana"]

/-- A row of `_RULES`. -/
structure Rule where
  heads : List String
  score : Nat
  source : String

/-- `_RULES`. -/
def rules : List Rule :=
  [⟨["fs.conf.ibmi_sysval"], 10, "hardware"⟩,
    ⟨["hw.", "host.tpm", "ot."], 10, "hardware"⟩,
    ⟨["storage.", "vpn."], 20, "rebuild"⟩,
    ⟨["code."], 30, "source"⟩,
    ⟨["sbom.", "container."], 50, "dependency"⟩,
    ⟨["fs.cert.", "fs.keystore.", "email.", "dns.", "sign.", "trust.", "host.cloud_kms",
      "fs.keyref.cloud"], 70, "rotate"⟩,
    ⟨["net."], 80, "server-config"⟩,
    ⟨["host.crypto_policies", "host.java.security", "host.openssl.", "fs.conf.", "app.",
      "host.ssh.", "host.gnutls", "host.nss", "host.windows.schannel", "k8s.", "fs.iac."],
        90,
      "config"⟩]

/-- The first rule whose prefixes match. -/
def ruleFor (probeId : String) : Option Rule :=
  rules.find? fun rule => startsWithAny probeId.toList rule.heads

/-- `evidence.get(key) == value`. -/
def states (evidence : Dict String Json) (key value : String) : Bool :=
  match evidence.get? key with
  | some (.str text) => text == value
  | _ => false

/-- `finding_agility`. -/
def findingAgility (probeId : String) (evidence : Dict String Json) : Nat :=
  if probeId = "fs.binary.crypto" then
    if states evidence "detection" "constant-signature" ||
      states evidence "linked" "embedded" then
      20
    else 50
  else
    match ruleFor probeId with
    | some rule => rule.score
    | none => 50

/-- `_source`. -/
def source (probeId : String) (evidence : Dict String Json) : String :=
  if probeId = "fs.binary.crypto" then
    if findingAgility probeId evidence = 20 then "rebuild" else "dependency"
  else
    match ruleFor probeId with
    | some rule => rule.source
    | none => "unknown"

/-- `AgilityResult`. -/
structure AgilityResult where
  score : Nat
  band : String
  bySource : Dict String Nat

/-- A finding that counts. -/
def counts (finding : Scored) : Bool :=
  vulnerable.contains finding.classification && !(finding.probeId == driftProbe)

/-- `score_findings`. -/
def scoreFindings (findings : List Scored) : AgilityResult :=
  let rows := findings.filter counts
  if rows = [] then ⟨100, "high", Dict.empty⟩
  else
    let total := (rows.map fun finding =>
      findingAgility finding.probeId finding.evidence).sum
    let bySource := rows.foldl (fun by_ finding =>
      let name := source finding.probeId finding.evidence
      by_.set name ((by_.get? name).getD 0 + 1)) Dict.empty
    let score := roundDiv total rows.length
    ⟨score, if score ≥ 70 then "high" else if score ≥ 40 then "medium"
      else "low", bySource⟩

end Agility

/-! ## Exposure -/

namespace Exposure

/-- `_MAX_ROWS`. -/
def maxRows : Nat := 200

/-- `ExposureRow`. -/
structure ExposureRow where
  findingRef : String
  algorithm : String
  criticality : Nat
  longevity : Nat
  feasibility : Nat
  exposure : Nat
  tier : String

/-- `_is_vulnerable`. -/
def isVulnerable (lower : String → String) (finding : Scored) : Bool :=
  !MigrationScore.isHybrid lower finding.algorithm &&
    ["sangat-tinggi", "tinggi"].contains finding.classification

/-- `_criticality`. -/
def criticality (finding : Scored) : Nat :=
  if finding.severity = "crit" then 3 else if finding.severity = "high" then 2 else 1

/-- `_longevity`. -/
def longevity (pid : List Char) : Nat :=
  if startsWithAny pid ["fs.cert", "fs.keystore", "fs.db", "secrets.", "sign."] ||
      contains pid ".kms" then 3
  else if startsWithAny pid ["net.", "fs.conf", "vpn."] || contains pid "tls" then 2
  else 1

/-- `_feasibility`. -/
def feasibility (pid : List Char) : Nat :=
  if startsWithAny pid ["fs.conf", "net."] || contains pid "config" then 1
  else if startsWithAny pid ["code.", "sbom.", "fs.db", "host.", "container.", "ot."] ||
      ["binary", "appliance", "firmware"].any (contains pid) then 3
  else 2

/-- `_tier`. -/
def tier (exposure : Nat) : String :=
  if exposure ≥ 18 then "CRITICAL"
  else if exposure ≥ 9 then "HIGH"
  else if exposure ≥ 4 then "MEDIUM"
  else "LOW"

/-- `_LOCATOR_KEYS`. -/
def locatorKeys : List String :=
  ["endpoint", "host", "target", "path", "file", "location"]

/-- The value of a key when it is true. -/
def truthy? (evidence : Dict String Json) (key : String) : Option Json :=
  (evidence.get? key).filter Json.truthy

/-- `_locator`. -/
def locator (text : Text) (evidence : Dict String Json) : String :=
  match locatorKeys.findSome? fun key => (truthy? evidence key).map (key, ·) with
  | none => ""
  | some (key, value) =>
      let stated := value.toStr text
      let whole := match truthy? evidence "port" with
        | some port => if key = "host" then stated ++ ":" ++ port.toStr text else stated
        | none => stated
      String.ofList (whole.toList.take 60)

/-- `_row_for`. -/
def rowFor (text : Text) (lower : String → String) (finding : Scored) : ExposureRow :=
  let pid := (lower finding.probeId).toList
  let exposure := criticality finding * longevity pid * feasibility pid
  let place := locator text finding.evidence
  { findingRef := if place = "" then finding.probeId else finding.probeId ++ "@" ++ place
    algorithm := finding.algorithm
    criticality := criticality finding
    longevity := longevity pid
    feasibility := feasibility pid
    exposure
    tier := tier exposure }

/-- The order of the register: worst exposure first, then the
reference, then the algorithm. -/
def before (left right : ExposureRow) : Bool :=
  if left.exposure ≠ right.exposure then decide (right.exposure < left.exposure)
  else if left.findingRef ≠ right.findingRef then
    decide (left.findingRef < right.findingRef)
  else !decide (right.algorithm < left.algorithm)

/-- `build_register`. -/
def buildRegister (text : Text) (lower : String → String) (findings : List Scored) :
    List ExposureRow :=
  (((findings.filter (isVulnerable lower)).map (rowFor text lower)).mergeSort before).take
    maxRows

end Exposure

/-! ## Markers -/

/-- What the scores see of a change marker. -/
def Scored.IsMarker (finding : Scored) : Prop :=
  finding.probeId = driftProbe ∧ finding.classification = "info"

theorem grade_marker (lower : String → String) (grades : MigrationScore.Grades)
    {finding : Scored} (marker : finding.IsMarker) :
    MigrationScore.grade lower grades finding = grades := by
  unfold MigrationScore.grade
  rw [marker.2]
  rfl

theorem counts_marker {finding : Scored} (marker : finding.IsMarker) :
    Agility.counts finding = false := by
  unfold Agility.counts
  rw [marker.1, beq_self_eq_true, Bool.not_true, Bool.and_false]

theorem isVulnerable_marker (lower : String → String) {finding : Scored}
    (marker : finding.IsMarker) : Exposure.isVulnerable lower finding = false := by
  unfold Exposure.isVulnerable
  rw [marker.2]
  exact Bool.and_false _

/-- A change marker is in no band. -/
theorem countBand_marker (lower : String → String) (counts : Tally) {finding : Rated}
    (marker : finding.probeId = driftProbe) :
    countBand lower counts finding = counts := by
  unfold countBand
  rw [marker, beq_self_eq_true, if_pos rfl]

theorem countSurface_marker (lower : String → String) (breakdown : Surface → Tally)
    {finding : Rated} (marker : finding.probeId = driftProbe) :
    countSurface lower breakdown finding = breakdown := by
  unfold countSurface
  split
  · rfl
  · rw [marker, beq_self_eq_true, if_pos rfl]

section Bands

variable {findings findings' : List Rated}
  (inserted : Inserted (fun finding => finding.probeId = driftProbe) findings findings')

include inserted

theorem countBands_inserted (lower : String → String) :
    countBands lower findings' = countBands lower findings :=
  inserted.foldl_eq (fun counts _ => countBand_marker lower counts) _

theorem surfaceBreakdown_inserted (lower : String → String) :
    surfaceBreakdown lower findings' = surfaceBreakdown lower findings :=
  inserted.foldl_eq (fun breakdown _ => countSurface_marker lower breakdown) _

end Bands

section Scores

variable {findings findings' : List Scored}
  (inserted : Inserted Scored.IsMarker findings findings')

include inserted

theorem migrationScore_inserted (lower : String → String) (percent : Nat → Nat → ℚ) :
    MigrationScore.scoreFindings lower percent findings' =
      MigrationScore.scoreFindings lower percent findings := by
  unfold MigrationScore.scoreFindings
  rw [inserted.foldl_eq fun grades _ => grade_marker lower grades]

theorem agility_inserted :
    Agility.scoreFindings findings' = Agility.scoreFindings findings := by
  unfold Agility.scoreFindings
  rw [inserted.filter_eq fun _ => counts_marker]

theorem buildRegister_inserted (text : Text) (lower : String → String) :
    Exposure.buildRegister text lower findings' =
      Exposure.buildRegister text lower findings := by
  unfold Exposure.buildRegister
  rw [inserted.filter_eq fun _ => isVulnerable_marker lower]

end Scores

end Core
end PqcScan
