import PqcScan.Library.Partition
import PqcScan.Probes.FileChain
import Mathlib.Data.List.Sort
import Mathlib.Data.String.Basic

/-!
# Keys in several certificates

`_emit_key_reuse` of `fs_cert_chain.py`: the certificates by public key, and the keys that
stand in certificates of different subjects.
-/

namespace PqcScan
namespace Probes
namespace FsCertChain

open Library Python PqcScan.Core

/-- A certificate with the `_spki_bytes` of its key. -/
structure LoadedCert where
  cert : Certificate
  spki : Option Bytes

/-- The certificates whose key could be encoded, with the key. -/
def withKeys (certs : List LoadedCert) : List (Bytes × Certificate) :=
  certs.filterMap fun loaded => loaded.spki.map fun spki => (spki, loaded.cert)

/-- `sorted` of texts. -/
def sortedTexts (texts : List String) : List String := texts.insertionSort (· ≤ ·)

/-- `subjects` of a group. -/
def subjectsOf (members : List (Bytes × Certificate)) : List String :=
  sortedTexts (members.map fun member => member.2.subject).dedup

/-- What is reported of a key. -/
structure ReuseReport where
  spki : Bytes
  algorithm : List Char
  count : Nat
  paths : List String
  subjects : List String
  deriving DecidableEq

/-- The body of the loop over the groups. -/
def reuseReport (spki : Bytes) (members : List (Bytes × Certificate)) :
    Option ReuseReport :=
  match members with
  | [] => none
  | first :: _ =>
      if members.length < 2 then none
      else if (subjectsOf members).length < 2 then none
      else some
        { spki
          algorithm := first.2.keyAlgorithm
          count := members.length
          paths := sortedTexts (members.map fun member => member.2.path.str)
          subjects := subjectsOf members }

/-- The reports of `_emit_key_reuse`. -/
def reuseReports (certs : List LoadedCert) : List ReuseReport :=
  (groupRows Prod.fst (withKeys certs)).entries.filterMap fun group =>
    reuseReport group.1 group.2

/-- `spki[:16].hex()`. -/
def hexText (spki : Bytes) : String :=
  String.ofList ((spki.take 16).flatMap fun byte => hexDigits 2 byte.toNat)

/-- The finding of a report. -/
def ReuseReport.toFinding (report : ReuseReport) (now : DateTime) : Finding where
  probeId := "fs.cert.chain"
  algorithm := String.ofList report.algorithm
  classification := .sederhana
  severity := .med
  title := "public-key reuse across " ++ toString report.count ++ " certs (" ++
    String.ofList report.algorithm ++ ")"
  evidence := Dict.ofList [("algorithm", .str (String.ofList report.algorithm)),
    ("count", .int report.count), ("paths", .array (report.paths.map .str)),
    ("subjects", .array (report.subjects.map .str)),
    ("spki_sha_prefix", .str (hexText report.spki))]
  remediation := Dict.ofList [("snippet",
    .str "# Issue a fresh, unique key pair per certificate")]
  createdAt := now

/-- `_emit_key_reuse`. -/
def emitKeyReuse (now : DateTime) (certs : List LoadedCert) : List Finding :=
  (reuseReports certs).map (·.toFinding now)

/-! ## Groups -/

/-- The certificates with a key, in the order of the files. -/
def holders (certs : List LoadedCert) (spki : Bytes) : List (Bytes × Certificate) :=
  (withKeys certs).filter fun member => member.1 = spki

theorem holders_eq (certs : List LoadedCert) (spki : Bytes) :
    holders certs spki =
      (certs.filter fun loaded => loaded.spki = some spki).map fun loaded =>
        (spki, loaded.cert) := by
  induction certs with
  | nil => rfl
  | cons loaded certs inductionHypothesis =>
      rw [holders, withKeys] at inductionHypothesis ⊢
      rw [List.filterMap_cons, List.filter_cons]
      cases keyed : loaded.spki with
      | none => simpa using inductionHypothesis
      | some key =>
          by_cases same : key = spki
          · subst same
            simpa using inductionHypothesis
          · simpa [same] using inductionHypothesis

theorem mem_holders {certs : List LoadedCert} {spki : Bytes}
    {member : Bytes × Certificate} :
    member ∈ holders certs spki ↔
      ∃ loaded ∈ certs, loaded.spki = some spki ∧ (spki, loaded.cert) = member := by
  rw [holders_eq, List.mem_map]
  simp only [List.mem_filter, decide_eq_true_eq, and_assoc]

theorem mem_groups_iff {certs : List LoadedCert}
    {group : Bytes × List (Bytes × Certificate)} :
    group ∈ (groupRows Prod.fst (withKeys certs)).entries ↔
      group.2 = holders certs group.1 ∧ group.2 ≠ [] := by
  constructor
  · intro member
    exact ⟨group_eq_filter member, group_ne_nil member⟩
  · rintro ⟨same, filled⟩
    obtain ⟨row, inside⟩ := List.exists_mem_of_ne_nil _ filled
    rw [same, holders, List.mem_filter, decide_eq_true_iff] at inside
    have listed : group.1 ∈ (groupRows Prod.fst (withKeys certs)).keys :=
      mem_keys_groupRows.mpr ⟨row, inside⟩
    obtain ⟨entry, member, keyed⟩ := List.mem_map.mp listed
    have grouped : entry.2 = group.2 := by
      rw [group_eq_filter member, same, keyed]
      rfl
    rwa [← Prod.ext keyed grouped]

/-- The fields of a report are those of its group. -/
theorem fields_of_reuseReport {spki : Bytes} {members : List (Bytes × Certificate)}
    {report : ReuseReport} (made : reuseReport spki members = some report) :
    report.spki = spki ∧ report.count = members.length ∧
      report.paths = sortedTexts (members.map fun member => member.2.path.str) ∧
      report.subjects = subjectsOf members ∧
      ∃ member ∈ members, member.2.keyAlgorithm = report.algorithm := by
  cases members with
  | nil => cases made
  | cons first rest =>
      rw [reuseReport] at made
      split at made
      · cases made
      · split at made
        · cases made
        · cases made
          exact ⟨rfl, rfl, rfl, rfl, first, List.mem_cons_self, rfl⟩

theorem spki_of_reuseReport {spki : Bytes} {members : List (Bytes × Certificate)}
    {report : ReuseReport} (made : reuseReport spki members = some report) :
    report.spki = spki ∧ members ≠ [] := by
  obtain ⟨same, -, -, -, member, inside, -⟩ := fields_of_reuseReport made
  exact ⟨same, List.ne_nil_of_mem inside⟩

/-- A report is that of the group of its key. -/
theorem mem_reuseReports {certs : List LoadedCert} {report : ReuseReport} :
    report ∈ reuseReports certs ↔
      reuseReport report.spki (holders certs report.spki) = some report := by
  rw [reuseReports, List.mem_filterMap]
  constructor
  · rintro ⟨group, member, made⟩
    rw [(spki_of_reuseReport made).1, ← (mem_groups_iff.mp member).1]
    exact made
  · intro made
    exact ⟨(report.spki, holders certs report.spki),
      mem_groups_iff.mpr ⟨rfl, (spki_of_reuseReport made).2⟩, made⟩

/-- A key is reported once. -/
theorem nodup_reuseReports (certs : List LoadedCert) :
    ((reuseReports certs).map ReuseReport.spki).Nodup := by
  have keys := (groupRows Prod.fst (withKeys certs)).nodup
  rw [List.Nodup, List.pairwise_map] at keys ⊢
  rw [reuseReports, List.pairwise_filterMap]
  refine keys.imp fun differ left leftMade right rightMade => ?_
  rwa [(spki_of_reuseReport leftMade).1, (spki_of_reuseReport rightMade).1]

/-! ## Reuse -/

theorem mem_subjectsOf {members : List (Bytes × Certificate)} {subject : String} :
    subject ∈ subjectsOf members ↔ ∃ member ∈ members, member.2.subject = subject := by
  rw [subjectsOf, sortedTexts, List.mem_insertionSort, List.mem_dedup, List.mem_map]

theorem two_le_length_iff {α : Type} {items : List α} (distinct : items.Nodup) :
    2 ≤ items.length ↔ ∃ left ∈ items, ∃ right ∈ items, left ≠ right := by
  rcases items with _ | ⟨first, _ | ⟨second, rest⟩⟩
  · simp
  · simp
  · have differ : first ≠ second := fun same =>
      (List.nodup_cons.mp distinct).1 (same ▸ List.mem_cons_self)
    simp only [List.length_cons, Nat.le_add_left, true_iff]
    exact ⟨first, List.mem_cons_self, second,
      List.mem_cons_of_mem _ List.mem_cons_self, differ⟩

theorem nodup_subjectsOf (members : List (Bytes × Certificate)) :
    (subjectsOf members).Nodup :=
  (List.perm_insertionSort _ _).nodup_iff.mpr (List.nodup_dedup _)

/-- Two members of different subjects are what a report takes: the test of
the length adds nothing. -/
theorem isSome_reuseReport {spki : Bytes} {members : List (Bytes × Certificate)} :
    (reuseReport spki members).isSome = true ↔
      ∃ left ∈ members, ∃ right ∈ members, left.2.subject ≠ right.2.subject := by
  have many : 2 ≤ (subjectsOf members).length ↔
      ∃ left ∈ members, ∃ right ∈ members, left.2.subject ≠ right.2.subject := by
    rw [two_le_length_iff (nodup_subjectsOf members)]
    simp only [mem_subjectsOf]
    constructor
    · rintro ⟨_, ⟨left, leftIn, rfl⟩, _, ⟨right, rightIn, rfl⟩, differ⟩
      exact ⟨left, leftIn, right, rightIn, differ⟩
    · rintro ⟨left, leftIn, right, rightIn, differ⟩
      exact ⟨_, ⟨left, leftIn, rfl⟩, _, ⟨right, rightIn, rfl⟩, differ⟩
  rw [← many]
  cases members with
  | nil => simp [reuseReport, subjectsOf, sortedTexts]
  | cons first rest =>
      have atMost : (subjectsOf (first :: rest)).length ≤ (first :: rest).length := by
        rw [subjectsOf, sortedTexts, List.length_insertionSort]
        exact (List.dedup_sublist _).length_le.trans_eq (List.length_map _)
      rw [reuseReport]
      by_cases few : (first :: rest).length < 2
      · rw [if_pos few]
        simp only [Option.isSome_none, Bool.false_eq_true, false_iff]
        omega
      · rw [if_neg few]
        by_cases one : (subjectsOf (first :: rest)).length < 2
        · rw [if_pos one]
          simp only [Option.isSome_none, Bool.false_eq_true, false_iff]
          omega
        · rw [if_neg one]
          simp only [Option.isSome_some, true_iff]
          omega

/-- A key is reported when two of the loaded certificates hold it
for different subjects. -/
theorem reported_iff {certs : List LoadedCert} {spki : Bytes} :
    (∃ report ∈ reuseReports certs, report.spki = spki) ↔
      ∃ left ∈ certs, ∃ right ∈ certs, left.spki = some spki ∧ right.spki = some spki ∧
        left.cert.subject ≠ right.cert.subject := by
  have shown : (∃ report ∈ reuseReports certs, report.spki = spki) ↔
      (reuseReport spki (holders certs spki)).isSome = true := by
    rw [Option.isSome_iff_exists]
    constructor
    · rintro ⟨report, member, rfl⟩
      exact ⟨report, mem_reuseReports.mp member⟩
    · rintro ⟨report, made⟩
      have same := (spki_of_reuseReport made).1
      exact ⟨report, mem_reuseReports.mpr (by rw [same]; exact made), same⟩
  rw [shown, isSome_reuseReport]
  constructor
  · rintro ⟨left, leftIn, right, rightIn, differ⟩
    obtain ⟨first, firstIn, firstKey, rfl⟩ := mem_holders.mp leftIn
    obtain ⟨second, secondIn, secondKey, rfl⟩ := mem_holders.mp rightIn
    exact ⟨first, firstIn, second, secondIn, firstKey, secondKey, differ⟩
  · rintro ⟨left, leftIn, right, rightIn, leftKey, rightKey, differ⟩
    exact ⟨_, mem_holders.mpr ⟨left, leftIn, leftKey, rfl⟩, _,
      mem_holders.mpr ⟨right, rightIn, rightKey, rfl⟩, differ⟩

/-- What a report says is so of all loaded certificates that hold its key. -/
structure Describes (certs : List LoadedCert) (report : ReuseReport) : Prop where
  count : report.count = (certs.filter fun loaded =>
    loaded.spki = some report.spki).length
  paths : report.paths.Perm
    ((certs.filter fun loaded => loaded.spki = some report.spki).map fun loaded =>
      loaded.cert.path.str)
  subjects : ∀ subject, subject ∈ report.subjects ↔
    ∃ loaded ∈ certs, loaded.spki = some report.spki ∧ loaded.cert.subject = subject
  algorithm : ∃ loaded ∈ certs, loaded.spki = some report.spki ∧
    loaded.cert.keyAlgorithm = report.algorithm

theorem describes_of_mem {certs : List LoadedCert} {report : ReuseReport}
    (member : report ∈ reuseReports certs) : Describes certs report := by
  obtain ⟨-, count, paths, subjects, one, oneIn, algorithm⟩ :=
    fields_of_reuseReport (mem_reuseReports.mp member)
  refine ⟨?_, ?_, fun subject => ?_, ?_⟩
  · rw [count, holders_eq, List.length_map]
  · rw [paths, holders_eq, List.map_map]
    exact List.perm_insertionSort _ _
  · rw [subjects, mem_subjectsOf]
    constructor
    · rintro ⟨holder, holderIn, rfl⟩
      obtain ⟨loaded, listed, keyed, rfl⟩ := mem_holders.mp holderIn
      exact ⟨loaded, listed, keyed, rfl⟩
    · rintro ⟨loaded, listed, keyed, rfl⟩
      exact ⟨_, mem_holders.mpr ⟨loaded, listed, keyed, rfl⟩, rfl⟩
  · obtain ⟨loaded, listed, keyed, rfl⟩ := mem_holders.mp oneIn
    exact ⟨loaded, listed, keyed, algorithm⟩

/-- Exactly the keys that two certificates hold for different subjects are reported, each
once, and a report lists every loaded certificate of its key. -/
theorem reuseReports_spec (certs : List LoadedCert) :
    ((reuseReports certs).map ReuseReport.spki).Nodup ∧
      (∀ spki, (∃ report ∈ reuseReports certs, report.spki = spki) ↔
        ∃ left ∈ certs, ∃ right ∈ certs, left.spki = some spki ∧ right.spki = some spki ∧
          left.cert.subject ≠ right.cert.subject) ∧
      ∀ report ∈ reuseReports certs, Describes certs report :=
  ⟨nodup_reuseReports certs, fun _ => reported_iff, fun _ => describes_of_mem⟩

/-! ## The order of the files -/

theorem sortedTexts_perm {left right : List String} (same : left.Perm right) :
    sortedTexts left = sortedTexts right :=
  (((List.perm_insertionSort _ left).trans same).trans
    (List.perm_insertionSort _ right).symm).eq_of_pairwise'
      (List.pairwise_insertionSort _ left) (List.pairwise_insertionSort _ right)

/-- A group of one algorithm is reported alike in every order. -/
theorem reuseReport_perm {spki : Bytes} {left right : List (Bytes × Certificate)}
    (same : left.Perm right)
    (alike : ∀ one ∈ left, ∀ other ∈ left, one.2.keyAlgorithm = other.2.keyAlgorithm) :
    reuseReport spki left = reuseReport spki right := by
  have subjects : subjectsOf left = subjectsOf right :=
    sortedTexts_perm (same.map _).dedup
  have paths := sortedTexts_perm (same.map fun member => member.2.path.str)
  cases left with
  | nil => rw [List.nil_perm.mp same]
  | cons first rest =>
      cases right with
      | nil => exact absurd (List.perm_nil.mp same) (List.cons_ne_nil _ _)
      | cons other others =>
          have algorithm := alike first List.mem_cons_self other
            (same.mem_iff.mpr List.mem_cons_self)
          rw [reuseReport, reuseReport, subjects, paths, algorithm, same.length_eq]

/-- Certificates of one key have one algorithm. -/
def KeysAlike (certs : List LoadedCert) : Prop :=
  ∀ left ∈ certs, ∀ right ∈ certs, left.spki.isSome = true → left.spki = right.spki →
    left.cert.keyAlgorithm = right.cert.keyAlgorithm

/-- The findings do not depend on the order in which the files were listed. -/
theorem emitKeyReuse_perm {left right : List LoadedCert} (same : left.Perm right)
    (alike : KeysAlike left) (now : DateTime) :
    (emitKeyReuse now left).Perm (emitKeyReuse now right) := by
  refine List.Perm.map _ ((List.perm_ext_iff_of_nodup (nodup_reuseReports left).of_map
    (nodup_reuseReports right).of_map).mpr fun report => ?_)
  have held : (holders left report.spki).Perm (holders right report.spki) :=
    (same.filterMap _).filter _
  rw [mem_reuseReports, mem_reuseReports,
    reuseReport_perm held fun one oneIn other otherIn => ?_]
  obtain ⟨first, firstIn, firstKey, rfl⟩ := mem_holders.mp oneIn
  obtain ⟨second, secondIn, secondKey, rfl⟩ := mem_holders.mp otherIn
  exact alike first firstIn second secondIn (by rw [firstKey]; rfl)
    (firstKey.trans secondKey.symm)

/-- Two certificates of one key and a third one. -/
def sharedKeyFiles : List LoadedCert :=
  [⟨⟨⟨["/", "etc", "a.pem"]⟩, "CN=a", "CN=ca", false, none, none, false,
    "RSA-2048".toList, none⟩,
      some [1, 2]⟩,
    ⟨⟨⟨["/", "etc", "b.pem"]⟩, "CN=b", "CN=ca", false, none, none, false,
      "RSA-2048".toList, none⟩, some [1, 2]⟩,
    ⟨⟨⟨["/", "etc", "c.pem"]⟩, "CN=c", "CN=ca", false, none, none, false,
      "EC-P256".toList, none⟩, some [3]⟩]

theorem sharedKeyFiles_alike : KeysAlike sharedKeyFiles := by
  unfold KeysAlike
  decide

theorem emitKeyReuse_perm_sharedKeyFiles :
    (emitKeyReuse 0 sharedKeyFiles).Perm (emitKeyReuse 0 sharedKeyFiles.reverse) :=
  emitKeyReuse_perm (List.reverse_perm sharedKeyFiles).symm sharedKeyFiles_alike 0

example : (reuseReports sharedKeyFiles).map ReuseReport.subjects =
      [["CN=a", "CN=b"]] := by
  decide

end FsCertChain
end Probes
end PqcScan
