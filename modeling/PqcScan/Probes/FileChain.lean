import PqcScan.Core.Names
import PqcScan.Library.Ascent
import PqcScan.Library.Dict
import PqcScan.Probes.Severity
import PqcScan.Python.Files

/-!
# Chains of certificates on disk

`FsCertChain` of `fs_cert_chain.py`: the indexes of issuers, the walk from a leaf to its
root, and the weakest link of a chain.
-/

namespace PqcScan
namespace Probes
namespace FsCertChain

open Library Python PqcScan.Core

/-! ## Certificates -/

/-- What the probe reads of a certificate and where it lies. -/
structure Certificate where
  path : Path
  /-- `subject.rfc4514_string()`. -/
  subject : String
  /-- `issuer.rfc4514_string()`. -/
  issuer : String
  /-- `_is_self_issued`, which compares the names themselves. -/
  selfIssued : Bool
  ski : Option Bytes
  aki : Option Bytes
  isCa : Bool
  /-- `_key_algorithm(cert.public_key())`. -/
  keyAlgorithm : List Char
  /-- `signature_hash_algorithm.name`, if the library knows the hash. -/
  hashName : Option (List Char)

/-- `_sig_hash_alg`. -/
def sigHashAlg (cert : Certificate) : Option (List Char) :=
  cert.hashName.map fun hash =>
    let name := upper hash
    let digits := name.drop 3
    if startsWith name "SHA" && !startsWith name "SHA-" && !digits.isEmpty &&
        digits.all Char.isDigit then "SHA-".toList ++ digits
    else name

/-- `_chain_classifications`. -/
def chainClassifications (cert : Certificate) : List (List Char × Classification) :=
  (cert.keyAlgorithm, classify cert.keyAlgorithm) ::
    (sigHashAlg cert).toList.map fun sig => (sig, classify sig)

/-- `_RANK`. -/
def rank : Classification → Nat
  | .sangatTinggi => 0
  | .tinggi => 1
  | .sederhana => 2
  | .rendah => 3
  | .pqcReady => 4
  | .info => 5
  | .error => 5

/-! ## Indexes -/

/-- `dict.setdefault`. -/
def setDefault {κ ν : Type} [DecidableEq κ] (index : Dict κ ν) (key : κ) (value : ν) :
    Dict κ ν :=
  if (index.get? key).isSome then index else index.set key value

/-- The certificates by a key, each key with the first that has it. -/
def indexBy {κ : Type} [DecidableEq κ] (key : Certificate → Option κ)
    (certs : List Certificate) : Dict κ Certificate :=
  certs.foldl (fun index cert =>
    match key cert with
    | none => index
    | some key => setDefault index key cert) Dict.empty

/-- `by_ski`. -/
def bySki (certs : List Certificate) : Dict Bytes Certificate :=
  indexBy Certificate.ski certs

/-- `by_subject`. -/
def bySubject (certs : List Certificate) : Dict String Certificate :=
  indexBy (fun cert => some cert.subject) certs

/-- `issued_subjects`. -/
def issuedSubjects (certs : List Certificate) : List String :=
  (certs.filter fun cert => cert.issuer != cert.subject).map Certificate.issuer

/-! ## Walks -/

/-- The certificates that the walks start at. -/
def leaves (certs : List Certificate) : List Certificate :=
  certs.filter fun cert => !((issuedSubjects certs).contains cert.subject && cert.isCa)

/-- The parent that the loop looks up. -/
def parentOf (certs : List Certificate) (cur : Certificate) : Option Certificate :=
  if cur.selfIssued then none
  else
    match cur.aki.bind (bySki certs).get? with
    | some parent => some parent
    | none => (bySubject certs).get? cur.issuer

/-- The chain of `_walk_and_emit`: a subject that was seen ends it. -/
def chainOf (certs : List Certificate) (leaf : Certificate) : List Certificate :=
  leaf :: ascentWithin (parentOf certs) Certificate.subject certs.length
    [leaf.subject] leaf

/-- The weakest link so far. -/
structure Weakest where
  algorithm : List Char
  cls : Classification
  path : Path

/-- The comparison of a link with the weakest so far. -/
def weigh (weakest : Weakest) (link : Path × List Char × Classification) : Weakest :=
  if rank link.2.2 < rank weakest.cls then ⟨link.2.1, link.2.2, link.1⟩ else weakest

/-- The links of a certificate. -/
def linksOf (cert : Certificate) : List (Path × List Char × Classification) :=
  (chainClassifications cert).map fun link => (cert.path, link)

/-- The weakest link across a chain. -/
def weakestLink (leaf : Certificate) (chain : List Certificate) : Weakest :=
  chain.foldl (fun weakest cert => (linksOf cert).foldl weigh weakest)
    ⟨[], .pqcReady, leaf.path⟩

/-- What is reported of a leaf. -/
structure ChainReport where
  leaf : Path
  leafSubject : String
  chain : List Path
  weakest : Weakest

/-- `_walk_and_emit`. -/
def walkAndEmit (certs : List Certificate) (leaf : Certificate) : Option ChainReport :=
  let chain := chainOf certs leaf
  let weakest := weakestLink leaf chain
  if weakest.algorithm = [] then none
  else some ⟨leaf.path, leaf.subject, chain.map Certificate.path, weakest⟩

/-- The reports of `_emit_chains`. -/
def chainReports (certs : List Certificate) : List ChainReport :=
  (leaves certs).filterMap (walkAndEmit certs)

/-- The finding of a report. -/
def ChainReport.toFinding (report : ChainReport) (now : DateTime) : Finding where
  probeId := "fs.cert.chain"
  algorithm := String.ofList report.weakest.algorithm
  classification := report.weakest.cls
  severity := sevFor report.weakest.cls
  title := "chain weakest link: " ++ String.ofList report.weakest.algorithm ++ " (" ++
    String.ofList report.weakest.path.name ++ ")"
  evidence := Dict.ofList [("leaf", .str report.leaf.str),
    ("leaf_subject", .str report.leafSubject), ("chain_length", .int report.chain.length),
    ("chain", .array (report.chain.map fun path => .str path.str)),
    ("weakest_link", .str report.weakest.path.str),
    ("weakest_algorithm", .str (String.ofList report.weakest.algorithm))]
  createdAt := now

/-- `_emit_chains`. -/
def emitChains (now : DateTime) (certs : List Certificate) : List Finding :=
  (chainReports certs).map (·.toFinding now)

/-! ## First come -/

theorem get?_setDefault {κ ν : Type} [DecidableEq κ] (index : Dict κ ν) (key other : κ)
    (value : ν) : (setDefault index key value).get? other =
      (index.get? other).or (if other = key then some value else none) := by
  rw [setDefault]
  by_cases same : other = key
  · subst same
    cases held : index.get? other with
    | some first => rw [if_pos (by simp), held, Option.some_or]
    | none => rw [if_neg (by simp), Dict.get?_set, if_pos rfl, if_pos rfl, Option.none_or]
  · rw [if_neg same, Option.or_none]
    split
    · rfl
    · rw [Dict.get?_set, if_neg same]

theorem get?_indexBy {κ : Type} [DecidableEq κ] (key : Certificate → Option κ)
    (certs : List Certificate) (wanted : κ) :
    (indexBy key certs).get? wanted = certs.find? fun cert => key cert = some wanted := by
  have grow : ∀ (index : Dict κ Certificate), (certs.foldl (fun index cert =>
      match key cert with
      | none => index
      | some key => setDefault index key cert) index).get? wanted =
        (index.get? wanted).or (certs.find? fun cert => key cert = some wanted) := by
    induction certs with
    | nil => intro index; rw [List.foldl_nil, List.find?_nil, Option.or_none]
    | cons cert certs inductionHypothesis =>
        intro index
        rw [List.foldl_cons, inductionHypothesis, List.find?_cons]
        cases keyed : key cert with
        | none => simp
        | some held =>
            simp only [get?_setDefault, Option.or_assoc, Option.some.injEq, eq_comm]
            by_cases same : wanted = held
            · simp [same]
            · simp [same]
  rw [indexBy, grow]
  rfl

/-- A certificate has the issuer's key identifier. -/
def keyed (cert other : Certificate) : Bool := cert.aki.any fun aki =>
      other.ski == some aki

/-- A certificate has the issuer's name. -/
def named (cert other : Certificate) : Bool := other.subject == cert.issuer

/-- What may stand above a certificate: all that have its issuer's key identifier, or else
all with its issuer's name. -/
def issues (certs : List Certificate) (cert other : Certificate) : Bool :=
  !cert.selfIssued && if certs.any (keyed cert) then keyed cert other
    else named cert other

/-- The certificates that may have issued one. -/
def issuers (certs : List Certificate) (cert : Certificate) : List Certificate :=
  certs.filter (issues certs cert)

/-- The first of the possible issuers is looked up. -/
theorem parentOf_eq (certs : List Certificate) (cert : Certificate) :
    parentOf certs cert = (issuers certs cert).head? := by
  have byName : (bySubject certs).get? cert.issuer = certs.find? (named cert) := by
    rw [bySubject, get?_indexBy]
    apply List.find?_congr
    intro other _
    simp [named, beq_eq_decide]
  have byKey : cert.aki.bind (bySki certs).get? = certs.find? (keyed cert) := by
    rw [bySki]
    cases held : cert.aki with
    | none =>
        rw [Option.bind_none, eq_comm, List.find?_eq_none]
        intro other _
        simp [keyed, held]
    | some aki =>
        rw [Option.bind_some, get?_indexBy]
        apply List.find?_congr
        intro other _
        simp [keyed, held, beq_eq_decide]
  rw [parentOf, issuers, List.head?_filter, byKey, byName]
  cases self : cert.selfIssued with
  | true =>
      rw [if_pos rfl, eq_comm, List.find?_eq_none]
      intro other _
      simp [issues, self]
  | false =>
      have tested : issues certs cert =
          if certs.any (keyed cert) then keyed cert else named cert := by
        funext other
        rw [issues, self]
        split <;> rfl
      rw [tested, if_neg Bool.false_ne_true]
      cases first : certs.find? (keyed cert) with
      | some parent =>
          rw [if_pos (List.any_eq_true.mpr ⟨parent, List.mem_of_find?_eq_some first,
            List.find?_some first⟩), first]
      | none =>
          have none_ : ¬ certs.any (keyed cert) = true := by
            rw [List.any_eq_true]
            rintro ⟨other, member, holds⟩
            exact List.find?_eq_none.mp first other member holds
          rw [if_neg none_]

theorem issues_perm {certs order : List Certificate} (same : order.Perm certs) :
    issues order = issues certs := by
  funext cert other
  have any : order.any (keyed cert) = certs.any (keyed cert) := same.any_eq
  rw [issues, issues, any]

theorem mem_issuers_iff {certs order : List Certificate} (same : order.Perm certs)
    (cert other : Certificate) :
    other ∈ issuers order cert ↔ other ∈ issuers certs cert := by
  rw [issuers, issuers, List.mem_filter, List.mem_filter, same.mem_iff, issues_perm same]

/-- Every order of reading chooses among the same issuers. -/
theorem chooses {certs order : List Certificate} (same : order.Perm certs) :
    Chooses (issuers certs) (parentOf order) where
  mem := by
    intro node up parent
    rw [parentOf_eq] at parent
    exact (mem_issuers_iff same node up).mp (List.mem_of_head? parent)
  complete := by
    intro node parent
    rw [parentOf_eq, List.head?_eq_none_iff, List.eq_nil_iff_forall_not_mem] at parent
    rw [List.eq_nil_iff_forall_not_mem]
    intro other member
    exact parent other ((mem_issuers_iff same node other).mpr member)

/-- Read first, an issuer is chosen. -/
theorem chosen_first {certs : List Certificate} {cert up : Certificate}
    (member : up ∈ issuers certs cert) :
    ∃ order : List Certificate, order.Perm certs ∧ parentOf order cert = some up := by
  obtain ⟨listed, issued⟩ := List.mem_filter.mp member
  obtain ⟨front, back, split⟩ := List.append_of_mem listed
  have same : (up :: (front ++ back)).Perm certs := by
    rw [split]
    exact List.perm_middle.symm
  refine ⟨up :: (front ++ back), same, ?_⟩
  rw [parentOf_eq, issuers, issues_perm same, List.filter_cons_of_pos issued]
  rfl

/-! ## Walks -/

/-- The loop ends: no walk has more steps than there are certificates. -/
theorem walk_ends (certs : List Certificate) (leaf : Certificate) :
    Ascent (parentOf certs) Certificate.subject [leaf.subject] leaf
      (chainOf certs leaf).tail := by
  apply @ascent_within _ _ _ _ _ (certs.map Certificate.subject)
  · intro node next parent
    rw [parentOf_eq] at parent
    exact List.mem_map_of_mem (List.mem_of_mem_filter (List.mem_of_head? parent))
  · calc ((certs.map Certificate.subject).filter (· ∉ [leaf.subject])).length
      _ ≤ (certs.map Certificate.subject).length := List.length_filter_le _ _
      _ = certs.length := List.length_map _

theorem mem_of_mem_chainOf {certs : List Certificate} {leaf cert : Certificate}
    (listed : leaf ∈ certs) (member : cert ∈ chainOf certs leaf) : cert ∈ certs := by
  rcases List.mem_cons.mp member with rfl | behind
  · exact listed
  · obtain ⟨below, parent⟩ := (walk_ends certs leaf).above_of_mem behind
    rw [parentOf_eq] at parent
    exact List.mem_of_mem_filter (List.mem_of_head? parent)

theorem mem_leaves_iff {certs order : List Certificate} (same : order.Perm certs)
    (leaf : Certificate) : leaf ∈ leaves order ↔ leaf ∈ leaves certs := by
  have issued : ∀ name, (issuedSubjects order).contains name =
      (issuedSubjects certs).contains name := by
    intro name
    have perm : (issuedSubjects order).Perm (issuedSubjects certs) :=
      (same.filter _).map _
    rw [Bool.eq_iff_iff, List.contains_iff_mem, List.contains_iff_mem, perm.mem_iff]
  rw [leaves, leaves, List.mem_filter, List.mem_filter, same.mem_iff, issued]

/-! ## The weakest link -/

/-- The links of a chain in their order. -/
def chainLinks (chain : List Certificate) : List (Path × List Char × Classification) :=
  chain.flatMap linksOf

theorem weakestLink_eq (leaf : Certificate) (chain : List Certificate) :
    weakestLink leaf chain = (chainLinks chain).foldl weigh ⟨[], .pqcReady,
      leaf.path⟩ := by
  rw [weakestLink, chainLinks, List.foldl_flatMap]

/-- The loop keeps a link of the least rank, or the one it began with. -/
theorem foldl_weigh (links : List (Path × List Char × Classification)) (start : Weakest) :
    (links.foldl weigh start = start ∨ ∃ link ∈ links,
      links.foldl weigh start = ⟨link.2.1, link.2.2, link.1⟩) ∧
    rank (links.foldl weigh start).cls ≤ rank start.cls ∧
    ∀ link ∈ links, rank (links.foldl weigh start).cls ≤ rank link.2.2 := by
  induction links generalizing start with
  | nil => exact ⟨.inl rfl, le_refl _, nofun⟩
  | cons link links inductionHypothesis =>
      obtain ⟨kept, least, all⟩ := inductionHypothesis (weigh start link)
      rw [List.foldl_cons]
      have step : weigh start link = start ∧ rank start.cls ≤ rank link.2.2 ∨
          weigh start link = ⟨link.2.1, link.2.2, link.1⟩ ∧
          rank link.2.2 < rank start.cls := by
        rw [weigh]
        by_cases weaker : rank link.2.2 < rank start.cls
        · exact .inr ⟨if_pos weaker, weaker⟩
        · exact .inl ⟨if_neg weaker, Nat.le_of_not_lt weaker⟩
      rcases step with ⟨same, bound⟩ | ⟨taken, weaker⟩
      · rw [same] at kept least all ⊢
        refine ⟨kept.imp_right ?_, least, ?_⟩
        · rintro ⟨other, member, final⟩
          exact ⟨other, List.mem_cons_of_mem _ member, final⟩
        · intro other member
          rcases List.mem_cons.mp member with rfl | behind
          · exact least.trans bound
          · exact all other behind
      · rw [taken] at kept least all ⊢
        refine ⟨?_, least.trans weaker.le, ?_⟩
        · rcases kept with final | ⟨other, member, final⟩
          · exact .inr ⟨link, List.mem_cons_self, final⟩
          · exact .inr ⟨other, List.mem_cons_of_mem _ member, final⟩
        · intro other member
          rcases List.mem_cons.mp member with rfl | behind
          · exact least
          · exact all other behind

/-- A link is named, or it counts for nothing. -/
theorem links_named {cert : Certificate} {link : Path × List Char × Classification}
    (member : link ∈ linksOf cert) (weak : rank link.2.2 < rank .pqcReady) :
    link.2.1 ≠ [] := by
  have unnamed : rank (classify []) = 5 := by decide
  obtain ⟨named, listed, rfl⟩ := List.mem_map.mp member
  intro empty
  have rated : named.2 = classify named.1 := by
    rcases List.mem_cons.mp listed with rfl | sig
    · rfl
    · obtain ⟨sig, -, rfl⟩ := List.mem_map.mp sig
      rfl
  rw [rated, show named.1 = [] from empty, unnamed] at weak
  exact absurd weak (by decide)

/-- A chain with a link that counts is reported. -/
theorem weakestLink_named {leaf : Certificate} {chain : List Certificate}
    (weak : ∃ link ∈ chainLinks chain, rank link.2.2 < rank .pqcReady) :
    (weakestLink leaf chain).algorithm ≠ [] := by
  obtain ⟨link, member, weaker⟩ := weak
  obtain ⟨kept, -, all⟩ := foldl_weigh (chainLinks chain) ⟨[], .pqcReady, leaf.path⟩
  rw [weakestLink_eq]
  have least := Nat.lt_of_le_of_lt (all link member) weaker
  rcases kept with start | ⟨other, inside, final⟩
  · rw [start] at least
    exact absurd least (Nat.lt_irrefl _)
  · rw [final] at least ⊢
    obtain ⟨cert, -, own⟩ := List.mem_flatMap.mp inside
    exact links_named own least

/-- A link of minimal rank in a chain. -/
def IsWeakest (chain : List Certificate) (weakest : Weakest) : Prop :=
  (weakest.path, weakest.algorithm, weakest.cls) ∈ chainLinks chain ∧
    ∀ link ∈ chainLinks chain, rank weakest.cls ≤ rank link.2.2

theorem isWeakest_of_walk {certs : List Certificate} {leaf : Certificate}
    {report : ChainReport}
    (reported : walkAndEmit certs leaf = some report) :
    IsWeakest (chainOf certs leaf) report.weakest := by
  rw [walkAndEmit] at reported
  split at reported
  · cases reported
  · next named =>
    cases reported
    obtain ⟨kept, -, all⟩ := foldl_weigh (chainLinks (chainOf certs leaf))
      ⟨[], .pqcReady, leaf.path⟩
    rw [weakestLink_eq] at named ⊢
    refine ⟨?_, all⟩
    rcases kept with start | ⟨link, member, final⟩
    · rw [start] at named
      exact absurd rfl named
    · rw [final]
      exact member

/-! ## Orders of reading -/

/-- Files of certificates: a path holds one. -/
structure CertFiles where
  certs : List Certificate
  apart : ∀ cert ∈ certs, ∀ other ∈ certs, cert.path = other.path → cert = other

namespace CertFiles

variable (files : CertFiles)

/-- Of every order: the walks end and cover every certificate, a report names a link of
minimal rank, and the reports are the same. -/
structure WalksWell (order : List Certificate) : Prop where
  ends : ∀ leaf ∈ leaves order,
    Ascent (parentOf order) Certificate.subject [leaf.subject] leaf
    (chainOf order leaf).tail
  covers : ∀ cert ∈ files.certs, ∃ leaf ∈ leaves order, cert ∈ chainOf order leaf
  weakest : ∀ leaf ∈ leaves order, ∀ report, walkAndEmit order leaf = some report →
    IsWeakest (chainOf order leaf) report.weakest
  reports : ∀ report, report ∈ chainReports order ↔ report ∈ chainReports files.certs

/-- No walk up from a leaf leaves a choice between issuers, and every certificate is met
on such a walk. -/
structure Traced : Prop where
  settled : ∀ leaf ∈ leaves files.certs,
    Settled (issuers files.certs) Certificate.subject [leaf.subject] leaf
  met : ∀ cert ∈ files.certs, ∃ leaf ∈ leaves files.certs,
    Meets (issuers files.certs) Certificate.subject [leaf.subject] leaf cert

variable {files}

theorem chainOf_eq {order : List Certificate} (same : order.Perm files.certs)
    {leaf : Certificate}
    (settled : Settled (issuers files.certs) Certificate.subject [leaf.subject] leaf) :
    chainOf order leaf = chainOf files.certs leaf := by
  have walk := settled.ascent (chooses (List.Perm.refl _)) (chooses same)
    (walk_ends files.certs leaf)
  exact congrArg (List.cons leaf) ((walk_ends order leaf).unique walk)

theorem Traced.walksWell (traced : files.Traced) {order : List Certificate}
    (same : order.Perm files.certs) : files.WalksWell order where
  ends := fun leaf _ => walk_ends order leaf
  covers := by
    intro cert member
    obtain ⟨leaf, listed, meets⟩ := traced.met cert member
    exact ⟨leaf, (mem_leaves_iff same leaf).mpr listed, meets.mem (chooses same)
      (walk_ends order leaf)⟩
  weakest := fun _ _ _ => isWeakest_of_walk
  reports := by
    have reported : ∀ leaf ∈ leaves files.certs,
        walkAndEmit order leaf = walkAndEmit files.certs leaf := by
      intro leaf listed
      rw [walkAndEmit, walkAndEmit, chainOf_eq same (traced.settled leaf listed)]
    intro report
    rw [chainReports, chainReports, List.mem_filterMap, List.mem_filterMap]
    constructor
    · rintro ⟨leaf, listed, emitted⟩
      have listed' := (mem_leaves_iff same leaf).mp listed
      exact ⟨leaf, listed', reported leaf listed' ▸ emitted⟩
    · rintro ⟨leaf, listed, emitted⟩
      exact ⟨leaf, (mem_leaves_iff same leaf).mpr listed, reported leaf listed ▸ emitted⟩

/-- A leaf that counts is reported with its chain. -/
theorem report_of_weak {certs : List Certificate} {leaf : Certificate}
    (weak : ∃ link ∈ linksOf leaf, rank link.2.2 < rank .pqcReady) :
    walkAndEmit certs leaf = some ⟨leaf.path, leaf.subject,
      (chainOf certs leaf).map Certificate.path, weakestLink leaf
        (chainOf certs leaf)⟩ := by
  obtain ⟨link, member, weaker⟩ := weak
  have inside : link ∈ chainLinks (chainOf certs leaf) :=
    List.mem_flatMap.mpr ⟨leaf, List.mem_cons_self, member⟩
  rw [walkAndEmit]
  exact if_neg (weakestLink_named ⟨link, inside, weaker⟩)

theorem map_path_injective {left right : List Certificate}
    (inside : ∀ cert ∈ left, cert ∈ files.certs)
    (inside' : ∀ cert ∈ right, cert ∈ files.certs)
    (same : left.map Certificate.path = right.map Certificate.path) : left = right := by
  induction left generalizing right with
  | nil =>
      cases right with
      | nil => rfl
      | cons cert right => cases same
  | cons cert left inductionHypothesis =>
      cases right with
      | nil => cases same
      | cons other right =>
          rw [List.forall_mem_cons] at inside inside'
          rw [List.map_cons, List.map_cons, List.cons.injEq] at same
          rw [files.apart cert inside.1 other inside'.1 same.1,
            inductionHypothesis inside.2 inside'.2 same.2]

/-- The chain of a leaf that counts is seen in its report. -/
theorem WalksWell.chain_eq {order : List Certificate} (same : order.Perm files.certs)
    (well : files.WalksWell order) {leaf : Certificate}
    (listed : leaf ∈ leaves files.certs)
    (weak : ∃ link ∈ linksOf leaf, rank link.2.2 < rank .pqcReady) :
    chainOf order leaf = chainOf files.certs leaf := by
  have own : leaf ∈ files.certs := List.mem_of_mem_filter listed
  have reported : (⟨leaf.path, leaf.subject,
      (chainOf files.certs leaf).map Certificate.path,
      weakestLink leaf (chainOf files.certs leaf)⟩ : ChainReport) ∈
        chainReports files.certs :=
    List.mem_filterMap.mpr ⟨leaf, listed, report_of_weak weak⟩
  obtain ⟨other, listed', emitted⟩ :=
    List.mem_filterMap.mp ((well.reports _).mpr reported)
  have own' : other ∈ files.certs :=
    List.mem_of_mem_filter ((mem_leaves_iff same other).mp listed')
  rw [walkAndEmit] at emitted
  split at emitted
  · cases emitted
  · rw [Option.some.injEq, ChainReport.mk.injEq] at emitted
    rw [files.apart other own' leaf own emitted.1] at emitted
    refine @map_path_injective files _ _ ?_ ?_ emitted.2.2.1
    · intro cert member
      exact same.mem_iff.mp (mem_of_mem_chainOf (same.mem_iff.mpr own) member)
    · intro cert member
      exact mem_of_mem_chainOf own member

theorem traced_of_walksWell
    (weak : ∀ leaf ∈ leaves files.certs, ∃ link ∈ linksOf leaf,
      rank link.2.2 < rank .pqcReady)
    (well : ∀ order : List Certificate, order.Perm files.certs → files.WalksWell order) :
    files.Traced := by
  have settled : ∀ leaf ∈ leaves files.certs,
      Settled (issuers files.certs) Certificate.subject [leaf.subject] leaf := by
    intro leaf listed
    have chosen : ∀ {above : Certificate → Option Certificate},
        (∃ order : List Certificate, order.Perm files.certs ∧ above = parentOf order) →
          Chooses (issuers files.certs) above := by
      rintro above ⟨order, same, rfl⟩
      exact chooses same
    apply settled_of_same chosen _ ⟨files.certs, List.Perm.refl _, rfl⟩
      (walk_ends files.certs leaf)
    · rintro above ⟨order, same, rfl⟩
      have chain := (well order same).chain_eq same listed (weak leaf listed)
      have walk := walk_ends order leaf
      rwa [chain] at walk
    · intro node up member
      obtain ⟨order, same, first⟩ := chosen_first member
      exact ⟨parentOf order, ⟨order, same, rfl⟩, first⟩
  refine ⟨settled, ?_⟩
  intro cert member
  obtain ⟨leaf, listed, inside⟩ :=
    (well files.certs (List.Perm.refl _)).covers cert member
  exact ⟨leaf, listed, (settled leaf listed).meets (chooses (List.Perm.refl _))
    (walk_ends files.certs leaf) inside⟩

end CertFiles

/-- The walks cover every certificate and report the same in every order where they are
left no choice between issuers and meet every certificate; where every leaf has a link
that counts, only there. -/
theorem walksWell_iff_traced (files : CertFiles) :
    (files.Traced →
      ∀ order : List Certificate, order.Perm files.certs → files.WalksWell order) ∧
    ((∀ leaf ∈ leaves files.certs, ∃ link ∈ linksOf leaf,
      rank link.2.2 < rank .pqcReady) →
      ((∀ order : List Certificate, order.Perm files.certs → files.WalksWell order) ↔
        files.Traced)) := by
  have enough : files.Traced →
      ∀ order : List Certificate, order.Perm files.certs → files.WalksWell order :=
    fun traced _ same => traced.walksWell same
  exact ⟨enough, fun weak => ⟨CertFiles.traced_of_walksWell weak, enough⟩⟩

/-- A certificate without key identifiers. -/
def namedCert (file subject issuer : String) (isCa : Bool) : Certificate where
  path := ⟨["/", "etc", file]⟩
  subject := subject
  issuer := issuer
  selfIssued := subject == issuer
  ski := none
  aki := none
  isCa := isCa
  keyAlgorithm := "RSA-2048".toList
  hashName := some "sha256".toList

/-- The sample of a leaf. -/
def leafCert : Certificate := namedCert "leaf.pem" "CN=leaf" "CN=CA" false

/-- The sample of a root. -/
def rootCert : Certificate := namedCert "ca.pem" "CN=CA" "CN=CA" true

/-- A leaf and its root. -/
def rootedFiles : CertFiles where
  certs := [leafCert, rootCert]
  apart := by
    intro cert member other member'
    rcases List.mem_pair.mp member with rfl | rfl <;>
      rcases List.mem_pair.mp member' with rfl | rfl <;>
        simp [leafCert, rootCert, namedCert]

theorem rootedFiles_traced : rootedFiles.Traced := by
  have start : leaves rootedFiles.certs = [leafCert] := by rfl
  have first : issuers rootedFiles.certs leafCert = [rootCert] := by rfl
  have last : issuers rootedFiles.certs rootCert = [] := by rfl
  have only : ∀ up ∈ issuers rootedFiles.certs leafCert, up = rootCert := by simp [first]
  have some_ : rootCert ∈ issuers rootedFiles.certs leafCert := by simp [first]
  have fresh : rootCert.subject ∉ [leafCert.subject] := by decide
  constructor
  · rw [start]
    intro leaf listed
    rw [List.mem_singleton.mp listed]
    exact .up only some_ fresh (.stop (by simp [last]))
  · rw [start]
    intro cert member
    refine ⟨leafCert, List.mem_cons_self, ?_⟩
    rcases List.mem_pair.mp member with rfl | rfl
    · exact .here
    · exact .up only some_ fresh .here

/-- In either order the root is met. -/
theorem rootedFiles_walked : ∀ order : List Certificate, order.Perm rootedFiles.certs →
    rootedFiles.WalksWell order :=
  (walksWell_iff_traced rootedFiles).1 rootedFiles_traced

/-- A leaf and two certificates of its authority, before and after a new key. -/
def rekeyedFiles : CertFiles where
  certs := [leafCert,
    namedCert "new.pem" "CN=CA" "CN=CA" true, namedCert "old.pem" "CN=CA" "CN=CA" true]
  apart := by
    intro cert member other member'
    simp only [List.mem_cons, List.not_mem_nil, or_false] at member member'
    rcases member with rfl | rfl | rfl <;> rcases member' with rfl | rfl | rfl <;>
      simp [leafCert, namedCert]

/-- No walk meets the old certificate. -/
theorem rekeyedFiles_overlooked : ¬ ∀ (files : CertFiles) (order : List Certificate),
    2 ≤ files.certs.length → order.Perm files.certs → files.WalksWell order := by
  intro always
  have covers := (always rekeyedFiles rekeyedFiles.certs (by decide)
    (List.Perm.refl _)).covers
  obtain ⟨leaf, listed, met⟩ := covers (namedCert "old.pem" "CN=CA" "CN=CA" true)
    (by simp [rekeyedFiles])
  have paths : ∀ leaf ∈ leaves rekeyedFiles.certs, (⟨["/", "etc", "old.pem"]⟩ : Path) ∉
      (chainOf rekeyedFiles.certs leaf).map Certificate.path := by decide +kernel
  exact paths leaf listed (List.mem_map_of_mem met)

end FsCertChain
end Probes
end PqcScan
