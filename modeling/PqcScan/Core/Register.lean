import PqcScan.Core.Scores
import PqcScan.Library.Ranking
import Mathlib.Data.Prod.Lex
import Mathlib.Data.String.Basic

/-!
# The exposure register

`build_register` sorts rows by a key that leaves most of their fields out.  Rows with the
same key are the same row: the reference names the probe, and the probe gives the axes.
-/

namespace PqcScan
namespace Core
namespace Exposure

open Library Python

/-! ## The order -/

/-- The key of the sort. -/
def sortKey (row : ExposureRow) : Natᵒᵈ ×ₗ (String ×ₗ String) :=
  toLex (OrderDual.toDual row.exposure, toLex (row.findingRef, row.algorithm))

theorem before_iff (left right : ExposureRow) :
    before left right = true ↔ sortKey left ≤ sortKey right := by
  rw [before, sortKey, sortKey, Prod.Lex.toLex_le_toLex, Prod.Lex.toLex_le_toLex]
  by_cases level : left.exposure = right.exposure
  · rw [if_neg (not_not.mpr level)]
    by_cases place : left.findingRef = right.findingRef
    · rw [if_neg (not_not.mpr place), Bool.not_eq_true', decide_eq_false_iff_not,
        not_lt, level, place]
      simp only [lt_irrefl, true_and, false_or]
    · rw [if_pos place, decide_eq_true_eq, level]
      simp only [place, lt_irrefl, true_and, false_and, or_false, false_or]
  · rw [if_pos level, decide_eq_true_eq]
    simp only [OrderDual.toDual_lt_toDual, OrderDual.toDual_inj, level,
      false_and, or_false]

theorem before_trans (first second third : ExposureRow) (low : before first second = true)
    (high : before second third = true) : before first third = true := by
  rw [before_iff] at low high ⊢
  exact low.trans high

theorem before_total (left right : ExposureRow) :
    (before left right || before right left) = true := by
  rw [Bool.or_eq_true, before_iff, before_iff]
  exact le_total _ _

theorem sortKey_eq {left right : ExposureRow} (low : before left right = true)
    (high : before right left = true) :
    left.exposure = right.exposure ∧ left.findingRef = right.findingRef ∧
      left.algorithm = right.algorithm := by
  rw [before_iff] at low high
  have same := congrArg ofLex (le_antisymm low high)
  obtain ⟨level, rest⟩ := Prod.mk.inj same
  obtain ⟨place, algorithm⟩ := Prod.mk.inj (congrArg ofLex rest)
  exact ⟨level, place, algorithm⟩

/-! ## Rows -/

/-- A probe id as the probes register them. -/
def Registered (probeId : String) : Prop := '@' ∉ probeId.toList

instance (probeId : String) : Decidable (Registered probeId) :=
  inferInstanceAs (Decidable (¬ _ ∈ _))

section Rows

variable (text : Text) (lower : String → String)

/-- The reference names the probe. -/
theorem takeWhile_findingRef {finding : Scored}
    (registered : Registered finding.probeId) :
    (rowFor text lower finding).findingRef.toList.takeWhile (· != '@') =
      finding.probeId.toList := by
  have plain : ∀ char ∈ finding.probeId.toList, (char != '@') = true := by
    intro char member
    rw [bne_iff_ne]
    rintro rfl
    exact registered member
  rw [rowFor]
  split
  · have whole := @List.takeWhile_append_of_pos _ (· != '@') _ [] plain
    rwa [List.append_nil, List.takeWhile_nil, List.append_nil] at whole
  · rw [String.toList_append, String.toList_append, List.append_assoc,
      List.takeWhile_append_of_pos plain]
    simp

theorem axes_pos (pid : List Char) : 0 < longevity pid * feasibility pid := by
  have long : 0 < longevity pid := by
    unfold longevity
    split_ifs <;> decide
  have hard : 0 < feasibility pid := by
    unfold feasibility
    split_ifs <;> decide
  exact Nat.mul_pos long hard

/-- Rows with the same key are the same row. -/
theorem rowFor_eq {left right : Scored} (leftId : Registered left.probeId)
    (rightId : Registered right.probeId)
    (level : (rowFor text lower left).exposure = (rowFor text lower right).exposure)
    (place : (rowFor text lower left).findingRef = (rowFor text lower right).findingRef)
    (algorithm : (rowFor text lower left).algorithm =
      (rowFor text lower right).algorithm) :
    rowFor text lower left = rowFor text lower right := by
  have probe : left.probeId = right.probeId := by
    have named := takeWhile_findingRef text lower leftId
    rw [place, takeWhile_findingRef text lower rightId] at named
    exact (String.toList_injective named).symm
  have grade : criticality left = criticality right := by
    change criticality left * longevity (lower left.probeId).toList *
        feasibility (lower left.probeId).toList =
      criticality right * longevity (lower right.probeId).toList *
        feasibility (lower right.probeId).toList at level
    rw [probe, Nat.mul_assoc, Nat.mul_assoc] at level
    exact Nat.eq_of_mul_eq_mul_right (axes_pos _) level
  have tiers : (rowFor text lower left).tier = (rowFor text lower right).tier :=
    congrArg tier level
  simp only [rowFor, ExposureRow.mk.injEq] at level place algorithm tiers ⊢
  exact ⟨place, algorithm, grade, by rw [probe], by rw [probe], level, tiers⟩

/-- The rows that the register sorts. -/
def rowsOf (findings : List Scored) : List ExposureRow :=
  (findings.filter (isVulnerable lower)).map (rowFor text lower)

end Rows

/-- The register holds the first rows in the order, each as often as there are findings
for it and none behind an omitted one; it does not depend on the order of the findings,
and leaves no row out where there are no more than it can hold. -/
theorem buildRegister_top (text : Text) (lower : String → String) (findings : List Scored)
    (registered : ∀ finding ∈ findings, Registered finding.probeId) :
    (∀ other, findings.Perm other →
      buildRegister text lower other = buildRegister text lower findings) ∧
    (buildRegister text lower findings).Pairwise
      (fun left right => before left right = true) ∧
    (∃ omitted, (buildRegister text lower findings ++ omitted).Perm
      (rowsOf text lower findings) ∧
      ∀ row ∈ buildRegister text lower findings, ∀ other ∈ omitted,
        before row other = true) ∧
    (findings.countP (isVulnerable lower) ≤ maxRows →
      (buildRegister text lower findings).Perm (rowsOf text lower findings)) := by
  obtain ⟨sorted, omitted, perm, length, behind⟩ :=
    exists_omitted before_trans before_total (rowsOf text lower findings) maxRows
  refine ⟨?_, sorted, ⟨omitted, perm, behind⟩, ?_⟩
  · intro other same
    have rows : (rowsOf text lower findings).Perm (rowsOf text lower other) :=
      (same.filter _).map _
    have unchanged := mergeSort_eq_of_perm before_trans before_total rows (by
      intro left leftMember right rightMember low high
      obtain ⟨first, firstMember, rfl⟩ := List.mem_map.mp leftMember
      obtain ⟨second, secondMember, rfl⟩ := List.mem_map.mp rightMember
      obtain ⟨level, place, algorithm⟩ := sortKey_eq low high
      exact rowFor_eq text lower (registered first (List.mem_of_mem_filter firstMember))
        (registered second (List.mem_of_mem_filter secondMember)) level place algorithm)
    exact (congrArg (List.take maxRows) unchanged).symm
  · intro few
    have none : omitted = [] := by
      rw [← List.length_eq_zero_iff, length, rowsOf, List.length_map,
        ← List.countP_eq_length_filter]
      exact Nat.sub_eq_zero_of_le few
    rwa [none, List.append_nil] at perm

/-- The finding of a server certificate. -/
def certificate (path : String) : Scored where
  probeId := "fs.cert.x509"
  algorithm := "RSA-2048"
  classification := "sangat-tinggi"
  severity := "crit"
  evidence := Dict.ofList [("path", .str path)]

theorem buildRegister_top_certificates :
    buildRegister asciiText id [certificate "/b.pem", certificate "/a.pem"] =
      buildRegister asciiText id [certificate "/a.pem", certificate "/b.pem"] :=
  (buildRegister_top asciiText id [certificate "/a.pem", certificate "/b.pem"]
    (by decide)).1 _ (List.Perm.swap _ _ _)

end Exposure
end Core
end PqcScan
