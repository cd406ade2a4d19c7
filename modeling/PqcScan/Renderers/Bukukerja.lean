import PqcScan.Core.Bands
import PqcScan.Library.Partition
import PqcScan.Store.Schema
import Mathlib.Data.List.Lex
import Mathlib.Data.Prod.Lex
import Mathlib.Data.String.Basic
import Mathlib.Order.OrderDual

/-!
# The risk register of the workbook

`_dedupe_risk` of `renderers/xlsx_bukukerja.py`: one row for each asset, kind of asset and
algorithm, with the number of its findings and the gravest of them.
-/

namespace PqcScan
namespace Renderers

open Library Python PqcScan.Core Store

/-- `_IMPACT_BY_CLASSIFICATION`. -/
def impactByClassification : List (String × Nat) :=
  [("sangat-tinggi", 5), ("tinggi", 4), ("sederhana", 3), ("rendah", 2), ("info", 1),
    ("error", 1), ("pqc-ready", 1)]

/-- `_IMPACT_BY_CLASSIFICATION.get(str(f.classification), 0)`. -/
def impactOf (finding : FindingRow) : Nat :=
  (impactByClassification.lookup finding.classification).getD 0

/-- `_pick`. -/
def pick (labels : String × String) (locale : String) : String :=
  if locale = "en" then labels.2 else labels.1

/-- `_JENIS_ASET`. -/
def jenisAsetLabels : List (String × String × String) :=
  [("net.", "Perkhidmatan Rangkaian", "Network Service"),
    ("host.", "Sistem Pengendalian / Konfigurasi Hos",
      "Operating System / Host Configuration"),
    ("vpn.", "Perisian VPN", "VPN Software"),
    ("storage.", "Storan", "Storage"),
    ("fs.", "Sistem Fail / Sijil", "File System / Certificates"),
    ("code.", "Kod Sumber", "Source Code"),
    ("sbom.", "Pakej Perisian", "Software Package"),
    ("container.", "Kontena / Imej Kontena", "Container / Container Image"),
    ("app.", "Aplikasi", "Application"),
    ("sign.", "Sijil / Tandatangan Digital", "Certificate / Digital Signature"),
    ("dns_email.", "DNS / E-mel", "DNS / Email"),
    ("secrets.", "Rahsia", "Secrets"),
    ("aux.", "Tambahan", "Auxiliary"),
    ("pqc_meta.", "Metadata PQC", "PQC Metadata"),
    ("trust.", "Stor Sijil Akar Sistem", "System Trust Root Store")]

/-- `_JENIS_ASET_DEFAULT`. -/
def jenisAsetDefault : String × String := ("Aset Lain", "Other Asset")

/-- `_jenis_aset`, with `lower` for `str.lower`. -/
def jenisAset (lower : String → String) (probeId locale : String) : String :=
  let pid := (lower probeId).toList
  match jenisAsetLabels.find? (·.1.toList.isPrefixOf pid) with
  | some entry => pick entry.2 locale
  | none => pick jenisAsetDefault locale

/-- `_asset_name_for`. -/
def assetNameFor (text : Text) (finding : FindingRow) : String :=
  let named := ["name", "endpoint", "host", "path", "dataset", "device"].filterMap
    fun key => (finding.evidence.get? key).filter Json.truthy
  match named with
  | name :: _ => name.toStr text
  | [] => finding.probeId

/-- A row of the register: the finding that stands for a group,
and the size of the group. -/
structure RiskRow where
  rep : FindingRow
  count : Nat

section Dedupe

variable (text : Text) (lower : String → String)

/-- The key by which `_dedupe_risk` groups the findings. -/
def riskKey (finding : FindingRow) : String × String × List Char :=
  (assetNameFor text finding, jenisAset lower finding.probeId "ms",
    strip finding.algorithm.toList)

/-- The sort key of a row: the impact and the count, descending, and the name. -/
def riskOrder (row : RiskRow) : ℕᵒᵈ ×ₗ ℕᵒᵈ ×ₗ List Char :=
  toLex (OrderDual.toDual (impactOf row.rep), toLex (OrderDual.toDual row.count,
    (assetNameFor text row.rep).toList))

/-- The rows before they are sorted. -/
def riskGroups (findings : List FindingRow) : List RiskRow :=
  (groupRows (riskKey text lower) findings).entries.filterMap fun entry =>
    (maxFirst impactOf entry.2).map fun rep => ⟨rep, entry.2.length⟩

/-- `_dedupe_risk`. -/
def dedupeRisk (findings : List FindingRow) : List RiskRow :=
  (riskGroups text lower findings).mergeSort fun left right =>
    decide (riskOrder text left ≤ riskOrder text right)

/-- What a row says of its group: the key, the impact and the count. -/
def riskMark (row : RiskRow) : (String × String × List Char) × Nat × Nat :=
  (riskKey text lower row.rep, impactOf row.rep, row.count)

/-- What holds of the register of every list of findings. -/
structure RiskLaws (findings : List FindingRow) : Prop where
  counts : ((dedupeRisk text lower findings).map RiskRow.count).sum = findings.length
  distinct : ((dedupeRisk text lower findings).map fun row =>
    riskKey text lower row.rep).Nodup
  groups : ∀ key, key ∈ (dedupeRisk text lower findings).map (fun row =>
    riskKey text lower row.rep) ↔
    ∃ finding ∈ findings, riskKey text lower finding = key
  representative : ∀ row ∈ dedupeRisk text lower findings, row.rep ∈ findings ∧
    row.count = findings.countP (fun finding =>
      riskKey text lower finding = riskKey text lower row.rep) ∧
    ∀ finding ∈ findings, riskKey text lower finding = riskKey text lower row.rep →
      impactOf finding ≤ impactOf row.rep
  sorted : (dedupeRisk text lower findings).Pairwise fun left right =>
    impactOf right.rep < impactOf left.rep ∨
      impactOf right.rep = impactOf left.rep ∧ right.count ≤ left.count
  /-- The order of the findings matters only for what stands for a group, and for the
  order of rows that agree in impact, count and name. -/
  permuted : ∀ findings', findings.Perm findings' →
    ((dedupeRisk text lower findings').map (riskMark text lower)).Perm
        ((dedupeRisk text lower findings).map (riskMark text lower)) ∧
      (dedupeRisk text lower findings').map (riskOrder text) =
        (dedupeRisk text lower findings).map (riskOrder text)

end Dedupe

section Laws

variable {text : Text} {lower : String → String} {findings : List FindingRow}

theorem map_filterMap_of_some {α β γ : Type} {choose : α → Option β} {read : β → γ}
    {expected : α → γ} {items : List α}
    (each : ∀ item ∈ items, ∃ chosen, choose item = some chosen ∧
      read chosen = expected item) :
    (items.filterMap choose).map read = items.map expected := by
  induction items with
  | nil => rfl
  | cons item items inductionHypothesis =>
      rw [List.forall_mem_cons] at each
      obtain ⟨chosen, found, same⟩ := each.1
      rw [List.filterMap_cons_some found, List.map_cons, List.map_cons, same,
        inductionHypothesis each.2]

/-- Each group has a row: its finding is the gravest of the group. -/
theorem riskGroup_row {entry : (String × String × List Char) × List FindingRow}
    (member : entry ∈ (groupRows (riskKey text lower) findings).entries) :
    ∃ rep, maxFirst impactOf entry.2 = some rep ∧ rep ∈ findings ∧
      riskKey text lower rep = entry.1 ∧
      ∀ finding ∈ findings, riskKey text lower finding = entry.1 →
        impactOf finding ≤ impactOf rep := by
  obtain ⟨rep, found⟩ := @maxFirst_isSome _ impactOf _ (group_ne_nil member)
  obtain ⟨inside, greatest⟩ := maxFirst_spec found
  rw [group_eq_filter member] at inside greatest
  obtain ⟨listed, same⟩ := List.mem_filter.mp inside
  refine ⟨rep, found, listed, of_decide_eq_true same, ?_⟩
  intro finding among key
  exact greatest finding (List.mem_filter.mpr ⟨among, decide_eq_true key⟩)

theorem riskGroups_keys (findings : List FindingRow) :
    (riskGroups text lower findings).map (fun row => riskKey text lower row.rep) =
      (groupRows (riskKey text lower) findings).keys := by
  apply map_filterMap_of_some
  intro entry member
  obtain ⟨rep, found, -, key, -⟩ := riskGroup_row member
  exact ⟨⟨rep, entry.2.length⟩, by rw [found]; rfl, key⟩

theorem riskGroups_counts (findings : List FindingRow) :
    (riskGroups text lower findings).map RiskRow.count =
      (groupRows (riskKey text lower) findings).entries.map fun entry =>
        entry.2.length := by
  apply map_filterMap_of_some
  intro entry member
  obtain ⟨rep, found, -⟩ := riskGroup_row member
  exact ⟨⟨rep, entry.2.length⟩, by rw [found]; rfl, rfl⟩

/-- What a row stands for. -/
theorem riskGroups_row {row : RiskRow} (member : row ∈ riskGroups text lower findings) :
    row.rep ∈ findings ∧
      row.count = findings.countP (fun finding =>
        riskKey text lower finding = riskKey text lower row.rep) ∧
      ∀ finding ∈ findings, riskKey text lower finding = riskKey text lower row.rep →
        impactOf finding ≤ impactOf row.rep := by
  obtain ⟨entry, listed, built⟩ := List.mem_filterMap.mp member
  obtain ⟨rep, found, inside, key, greatest⟩ := riskGroup_row listed
  rw [found] at built
  cases built
  refine ⟨inside, ?_, ?_⟩
  · rw [group_eq_filter listed, ← List.countP_eq_length_filter, key]
  · rw [key]
    exact greatest

theorem perm_dedupeRisk (findings : List FindingRow) :
    (dedupeRisk text lower findings).Perm (riskGroups text lower findings) :=
  List.mergeSort_perm _ _

theorem pairwise_dedupeRisk (findings : List FindingRow) :
    (dedupeRisk text lower findings).Pairwise fun left right =>
      riskOrder text left ≤ riskOrder text right := by
  have sorted := @List.pairwise_mergeSort _ (fun left right : RiskRow =>
      decide (riskOrder text left ≤ riskOrder text right))
    (fun a b c first second => by
      rw [decide_eq_true_eq] at first second ⊢
      exact first.trans second)
    (fun a b => by
      rw [Bool.or_eq_true, decide_eq_true_eq, decide_eq_true_eq]
      exact le_total _ _)
    (riskGroups text lower findings)
  exact sorted.imp fun {left right} le => of_decide_eq_true le

/-- The marks of the rows, said of the findings alone. -/
theorem mem_riskMarks {mark : (String × String × List Char) × Nat × Nat} :
    mark ∈ (riskGroups text lower findings).map (riskMark text lower) ↔
      ∃ rep ∈ findings, mark = (riskKey text lower rep, impactOf rep,
          findings.countP fun finding =>
            riskKey text lower finding = riskKey text lower rep) ∧
        ∀ finding ∈ findings, riskKey text lower finding = riskKey text lower rep →
          impactOf finding ≤ impactOf rep := by
  rw [List.mem_map]
  constructor
  · rintro ⟨row, member, rfl⟩
    obtain ⟨inside, count, greatest⟩ := riskGroups_row member
    exact ⟨row.rep, inside, by rw [riskMark, count], greatest⟩
  · rintro ⟨rep, inside, rfl, greatest⟩
    have listed : riskKey text lower rep ∈
        (riskGroups text lower findings).map fun row => riskKey text lower row.rep := by
      rw [riskGroups_keys, mem_keys_groupRows]
      exact ⟨rep, inside, rfl⟩
    obtain ⟨row, member, key⟩ := List.mem_map.mp listed
    obtain ⟨inside', count, greatest'⟩ := riskGroups_row member
    rw [key] at count greatest'
    have impact : impactOf row.rep = impactOf rep :=
      Nat.le_antisymm (greatest row.rep inside' key) (greatest' rep inside rfl)
    exact ⟨row, member, by rw [riskMark, key, impact, count]⟩

theorem nodup_riskMarks (findings : List FindingRow) :
    ((riskGroups text lower findings).map (riskMark text lower)).Nodup := by
  apply List.Nodup.of_map Prod.fst
  rw [List.map_map]
  change ((riskGroups text lower findings).map fun row =>
    riskKey text lower row.rep).Nodup
  rw [riskGroups_keys]
  exact (groupRows (riskKey text lower) findings).nodup

theorem perm_riskMarks {findings' : List FindingRow} (perm : findings.Perm findings') :
    ((riskGroups text lower findings').map (riskMark text lower)).Perm
      ((riskGroups text lower findings).map (riskMark text lower)) := by
  rw [List.perm_ext_iff_of_nodup (nodup_riskMarks _) (nodup_riskMarks _)]
  intro mark
  simp only [mem_riskMarks, perm.mem_iff, perm.countP_eq]

/-- The sort key of a row is that of its mark. -/
theorem map_riskOrder (rows : List RiskRow) :
    rows.map (riskOrder text) = (rows.map (riskMark text lower)).map fun mark =>
      toLex (OrderDual.toDual mark.2.1,
        toLex (OrderDual.toDual mark.2.2, mark.1.1.toList)) := by
  rw [List.map_map]
  rfl

theorem sorted_of_riskOrder {left right : RiskRow}
    (le : riskOrder text left ≤ riskOrder text right) :
    impactOf right.rep < impactOf left.rep ∨
      impactOf right.rep = impactOf left.rep ∧ right.count ≤ left.count := by
  rcases Prod.Lex.toLex_le_toLex.mp le with less | ⟨same, behind⟩
  · exact Or.inl (OrderDual.toDual_lt_toDual.mp less)
  · refine Or.inr ⟨(OrderDual.toDual_inj.mp same).symm, ?_⟩
    rcases Prod.Lex.toLex_le_toLex.mp behind with less | ⟨equal, -⟩
    · exact Nat.le_of_lt (OrderDual.toDual_lt_toDual.mp less)
    · exact Nat.le_of_eq (OrderDual.toDual_inj.mp equal).symm

/-- The register conserves the findings and keeps the gravest one of each group. -/
theorem riskLaws (text : Text) (lower : String → String) (findings : List FindingRow) :
    RiskLaws text lower findings where
  counts := by
    have lengths := (perm_groupRows (riskKey text lower) findings).length_eq
    rw [List.length_flatMap] at lengths
    rw [((perm_dedupeRisk findings).map RiskRow.count).sum_eq, riskGroups_counts, lengths]
  distinct := by
    rw [((perm_dedupeRisk findings).map _).nodup_iff, riskGroups_keys]
    exact (groupRows (riskKey text lower) findings).nodup
  groups := by
    intro key
    rw [((perm_dedupeRisk findings).map _).mem_iff, riskGroups_keys, mem_keys_groupRows]
  representative := fun _ member =>
    riskGroups_row ((perm_dedupeRisk findings).mem_iff.mp member)
  sorted := (pairwise_dedupeRisk findings).imp sorted_of_riskOrder
  permuted := by
    intro findings' perm
    have marks : ((dedupeRisk text lower findings').map (riskMark text lower)).Perm
        ((dedupeRisk text lower findings).map (riskMark text lower)) :=
      ((perm_dedupeRisk findings').map _).trans ((perm_riskMarks perm).trans
        ((perm_dedupeRisk findings).map _).symm)
    refine ⟨marks, ?_⟩
    have orders := marks.map fun mark =>
      toLex (OrderDual.toDual mark.2.1,
        toLex (OrderDual.toDual mark.2.2, mark.1.1.toList))
    rw [← map_riskOrder, ← map_riskOrder] at orders
    apply orders.eq_of_pairwise (fun a b _ _ first second => le_antisymm first second)
    · exact List.pairwise_map.mpr (pairwise_dedupeRisk findings')
    · exact List.pairwise_map.mpr (pairwise_dedupeRisk findings)

end Laws

/-! ## Rows in a tie -/

/-- A finding of one endpoint. -/
def endpointFinding (id : Nat) (algorithm : String) : FindingRow where
  id := id
  scanId := 1
  componentId := none
  probeId := "net.tls"
  algorithm := algorithm
  classification := "tinggi"
  severity := "high"
  title := algorithm
  evidence := Dict.ofList [("endpoint", .str "db1:443")]
  remediation := Dict.empty
  createdAt := 0

/-- Two groups of one impact, count and name come in the order of the findings. -/
theorem tied_rows_follow_findings :
    (dedupeRisk asciiText id [endpointFinding 1 "RSA", endpointFinding 2 "DH"]).map
        (fun row => (row.rep.algorithm, row.count)) = [("RSA", 1), ("DH", 1)] ∧
      (dedupeRisk asciiText id [endpointFinding 2 "DH", endpointFinding 1 "RSA"]).map
        (fun row => (row.rep.algorithm, row.count)) = [("DH", 1), ("RSA", 1)] := by
  have unsorted : ∀ findings,
      (riskGroups asciiText id findings).Pairwise (fun left right =>
        decide (riskOrder asciiText left ≤ riskOrder asciiText right) = true) →
      dedupeRisk asciiText id findings = riskGroups asciiText id findings :=
    fun _ ordered => List.mergeSort_of_pairwise ordered
  rw [unsorted _ (by decide +kernel), unsorted _ (by decide +kernel)]
  decide +kernel

end Renderers
end PqcScan
