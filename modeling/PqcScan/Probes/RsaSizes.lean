import PqcScan.Compliance.KeySizes
import PqcScan.Probes.MeshPolicy

/-!
# The size of an RSA key in a declaration

What the probes of declarations say of an RSA key of `n` bits, beside what `classify` says
of RSA-n.
-/

namespace PqcScan
namespace Probes

open Library Python PqcScan.Core Compliance

/-- RSA-n. -/
def rsaText (bits : Nat) : List Char := "RSA-".toList ++ Nat.toDigits 10 bits

/-! ## The verdict of the classifier -/

section Classifier

variable {tables : CaseTables}

theorem mem_rsaText {bits : Nat} {char : Char} (member : char ∈ rsaText bits) :
    char ∈ "RSA-".toList ∨ char.isDigit = true :=
  (List.mem_append.mp member).imp_right isDigit_toDigits

theorem rsaText_ascii {bits : Nat} {char : Char} (member : char ∈ rsaText bits) :
    char.toNat < 128 := by
  rcases mem_rsaText member with head | digit
  · exact (by decide : ∀ char ∈ "RSA-".toList, char.toNat < 128) char head
  · exact ascii_of_isDigit digit

/-- Digits are visible and have no case. -/
theorem plain_of_isDigit (char : Char) : char.isDigit = true →
    isSpace char = false ∧ fold char = char ∧ char.toUpper = char := by
  intro digit
  have small := ascii_of_isDigit digit
  have all : ∀ code : Fin 128, (Char.ofNat code).isDigit = true →
      isSpace (Char.ofNat code) = false ∧ fold (Char.ofNat code) = Char.ofNat code ∧
        (Char.ofNat code).toUpper = Char.ofNat code := by decide
  have same := all ⟨char.toNat, small⟩
  rw [Char.ofNat_toNat] at same
  exact same digit

theorem upper_rsaText (bits : Nat) : tables.upper (rsaText bits) = rsaText bits := by
  rw [tables.upper_ascii fun char => rsaText_ascii, Python.upper]
  calc (rsaText bits).map Char.toUpper
    _ = (rsaText bits).map id := by
      apply List.map_congr_left
      intro char member
      rcases mem_rsaText member with head | digit
      · exact (by decide : ∀ char ∈ "RSA-".toList, char.toUpper = id char) char head
      · exact (plain_of_isDigit char digit).2.2
    _ = rsaText bits := List.map_id _

/-- No alias stands for RSA-n. -/
theorem friendly_rsaText (bits : Nat) :
    lookupName friendlyMap (strip (tables.lower (rsaText bits))) = none := by
  simp only [lookupName, Option.map_eq_none_iff, List.find?_eq_none, beq_iff_eq]
  intro entry member same
  have visible : ∀ char ∈ rsaText bits, isSpace char = false := by
    intro char inside
    rcases mem_rsaText inside with head | digit
    · exact (by decide : ∀ char ∈ "RSA-".toList, isSpace char = false) char head
    · exact (plain_of_isDigit char digit).1
  have spelled := tables.lower_word (rsaText bits) fun char inside =>
    (aliases_ascii entry member).1 char (same ▸ inside)
  rw [strip_eq_self visible, ← same] at spelled
  have begins : startsWith entry.1.toList "rsa-" = true := by
    rw [← spelled, rsaText, List.map_append]
    rfl
  exact absurd begins
    ((by decide : ∀ entry ∈ friendlyMap,
      ¬ startsWith entry.1.toList "rsa-" = true) entry member)

theorem pqcReady_rsaText (bits : Nat) : pqcReady (rsaText bits) = false := by
  rw [pqcReady, Bool.or_eq_false_iff]
  refine ⟨rfl, ?_⟩
  rw [List.any_eq_false]
  intro fragment listed within
  have letter : 'M' ∈ rsaText bits := by
    apply (contains_iff.mp within).subset
    exact (by decide : ∀ fragment ∈ pqcHybridFragments,
      'M' ∈ fragment.toList) fragment listed
  rcases mem_rsaText letter with head | digit
  · exact absurd head (by decide)
  · exact absurd digit (by decide)

theorem notBroken_rsaText (bits : Nat) : (oneOf (rsaText bits) broken ||
    oneOf (rsaText bits) ["DSA"]) = false := by
  have apart : ∀ name ∈ broken ++ ["DSA"], name.toList ≠ rsaText bits := by
    intro name listed same
    have plain := (by decide : ∀ name ∈ broken ++ ["DSA"],
      startsWith name.toList "RSA-" = true → ∃ char ∈ name.toList.drop 4,
      char.isDigit = false)
        name listed
    rw [same] at plain
    obtain ⟨char, member, other⟩ := plain rfl
    rw [isDigit_toDigits (show char ∈ Nat.toDigits 10 bits from member)] at other
    cases other
  rw [oneOf, oneOf, ← List.any_append, List.any_eq_false]
  intro name listed
  rw [beq_iff_eq]
  exact apart name listed

/-- RSA-n is rated by its modulus, where `int` reads that. -/
theorem classify_rsaText (decimal : DecimalDigits tables) (bits : Nat) :
    tables.classify (rsaText bits) =
      if tables.readable (Nat.toDigits 10 bits).length then some (modulusTier bits)
      else none := by
  have letter : 'R' ∈ tables.upper (rsaText bits) := by
    rw [upper_rsaText]
    exact List.mem_cons_self
  have canonical : tables.canonical (rsaText bits) = rsaText bits := by
    rw [tables.canonical_of_unknown (tables.lookupOid_of_letter letter (by decide))
      (friendly_rsaText bits), upper_rsaText]
  have size : tables.sizeAfter ["RSA"] (rsaText bits) = some (Nat.toDigits 10 bits) := by
    have digits : tables.trailingDigits (Nat.toDigits 10 bits) =
        some (Nat.toDigits 10 bits) := by
      have whole : (Nat.toDigits 10 bits).getLast? ≠ some '\n' := by
        intro last
        exact absurd (isDigit_toDigits (List.mem_of_getLast? last)) (by decide)
      have all : (Nat.toDigits 10 bits).all tables.isDigit = true := by
        rw [List.all_eq_true]
        intro char member
        have digit := isDigit_toDigits member
        rw [isDigit_ascii (ascii_of_isDigit digit), digit]
      rw [CaseTables.trailingDigits, if_neg whole, if_pos ⟨Nat.toDigits_ne_nil, all⟩]
    have head : matchesHead "RSA".toList (rsaText bits) = true := rfl
    have rest : (rsaText bits).drop "RSA".toList.length = '-' :: Nat.toDigits 10 bits :=
      rfl
    rw [CaseTables.sizeAfter, List.findSome?_cons, if_pos head, rest]
    simp only [List.head?_cons, if_true, List.tail_cons, digits]
  rw [CaseTables.classify, canonical, CaseTables.classifyName, pqcReady_rsaText,
    notBroken_rsaText, if_neg Bool.false_ne_true, if_neg Bool.false_ne_true, size]
  rw [CaseTables.modulusOr, intOf_toDigits decimal]
  split <;> rfl

end Classifier

/-! ## Spellings -/

/-- A word of a Terraform value that names the size. -/
inductive Word
  | kmsSpec
  | acmAlgorithm
  | pkcs1 (hash : Nat)
  | pss (hash : Nat)

namespace Word

/-- The types of the blocks that have it. -/
def inType (rtype : List Char) : Word → Bool
  | .kmsSpec => oneOf rtype ["aws_kms_key"]
  | .acmAlgorithm => oneOf rtype ["aws_acm_certificate"]
  | .pkcs1 _ => startsWith rtype "google_privateca"
  | .pss _ => startsWith rtype "google_privateca"

/-- The attribute that a word stands in. -/
def field : Word → String
  | .kmsSpec => "customer_master_key_spec"
  | .acmAlgorithm => "key_algorithm"
  | .pkcs1 _ => "algorithm"
  | .pss _ => "algorithm"

/-- RSA_n, RSA_PKCS1_n_SHAh or RSA_PSS_n_SHAh. -/
def text (bits : Nat) : Word → List Char
  | .kmsSpec => "RSA_".toList ++ Nat.toDigits 10 bits
  | .acmAlgorithm => "RSA_".toList ++ Nat.toDigits 10 bits
  | .pkcs1 hash => "RSA_PKCS1_".toList ++
      (Nat.toDigits 10 bits ++ ("_SHA".toList ++ Nat.toDigits 10 hash))
  | .pss hash => "RSA_PSS_".toList ++
      (Nat.toDigits 10 bits ++ ("_SHA".toList ++ Nat.toDigits 10 hash))

/-- How the block rates a value of the field. -/
def rating (tables : CaseTables) : Word → List Char → Option (Option Rating)
  | .kmsSpec => kmsRating tables
  | .acmAlgorithm => acmRating tables
  | .pkcs1 _ => privatecaRating tables
  | .pss _ => privatecaRating tables

/-- The number that the word begins with. -/
def number (bits : Nat) : Word → Nat
  | .pkcs1 _ => 1
  | _ => bits

end Word

/-- The ways to declare an RSA key with its size. -/
inductive Spelling
  | word (word : Word)
  /-- `rsa_bits` of a `tls_private_key`. -/
  | rsaBits
  /-- `key_size` of an `azurerm_key_vault_key`. -/
  | keySize
  /-- `spec.privateKey` of cert-manager. -/
  | certManager

/-- The spelling of a size that its probe reads as the classifier does. -/
def Spelling.Read : Spelling → Nat → Prop
  | .word (.pkcs1 _), bits => bits = 1
  | .word _, bits => bits ≠ 0
  | .rsaBits, _ => True
  | .keySize, bits => bits ≠ 0
  | .certManager, _ => False

/-- The matches of a field in a block. -/
def fieldMatches (text : List Char) (block : Decl × Nat) (field : String) :
    List Captured :=
  (fieldRe field).finditer ((text.take block.2).drop block.1.start)

/-- What a report says. -/
def Report.verdict (report : Report) : Rating := (report.algorithm, report.cls)

/-- What a finding says. -/
def verdictOf (finding : Finding) : Rating :=
  (finding.algorithm.toList, finding.classification)

/-- What is said of a value of a field. -/
def verdictsOn (field : String) (value : List Char) (reports : List Report) :
    List Rating :=
  (reports.filter fun report => report.field == field && report.value == value).map
    Report.verdict

section Declarations

variable (tables : CaseTables) (loaders : Loaders) (scalars : K8sMeshPolicy.Scalars)

/-- A source declares an RSA key of so many bits, and the findings on it say this. -/
inductive Declares : Spelling → Nat → List Rating → Prop
  | word {word : Word} {bits : Nat} {text : List Char} {block : Decl × Nat}
      {captured : Captured} {reports : List Report}
      (kind : word.inType block.1.rtype = true)
      (found : captured ∈ fieldMatches text block word.field)
      (spelled : tables.upper captured.value = word.text bits)
      (scanned : scanBlock tables text block = some reports) :
      Declares (.word word) bits (verdictsOn word.field captured.value reports)
  | rsaBits {bits : Nat} {text : List Char} {block : Decl × Nat} {size : Captured}
      {reports : List Report}
      (kind : oneOf block.1.rtype ["tls_private_key"] = true)
      (rsa : ∀ algorithm ∈ (fieldMatches text block "algorithm").head?,
        startsWith (tables.upper algorithm.value) "RSA" = true)
      (found : (fieldMatches text block "rsa_bits").head? = some size)
      (spelled : size.value = Nat.toDigits 10 bits)
      (scanned : scanBlock tables text block = some reports) :
      Declares .rsaBits bits (reports.map Report.verdict)
  | keySize {bits : Nat} {text : List Char} {block : Decl × Nat} {keyType size : Captured}
      {reports : List Report}
      (kind : oneOf block.1.rtype ["azurerm_key_vault_key"] = true)
      (named : (fieldMatches text block "key_type").head? = some keyType)
      (rsa : startsWith (tables.upper keyType.value) "RSA" = true)
      (found : (fieldMatches text block "key_size").head? = some size)
      (spelled : size.value = Nat.toDigits 10 bits)
      (scanned : scanBlock tables text block = some reports) :
      Declares .keySize bits (reports.map Report.verdict)
  | certManager {bits : Nat} {now : DateTime} {path : Path}
      {doc spec privateKey : List (Document × Document)} {kind algorithm : List Char}
      {findings : List Finding}
      (isKind : K8sMeshPolicy.printed tables loaders doc "kind" "" = some kind)
      (issued : oneOf (strip kind) ["Certificate", "Issuer", "ClusterIssuer"] = true)
      (specified : K8sMeshPolicy.section_ scalars doc "spec" = some spec)
      (keyed : K8sMeshPolicy.section_ scalars spec "privateKey" = some privateKey)
      (named : K8sMeshPolicy.printed tables loaders privateKey "algorithm" "" =
        some algorithm)
      (rsa : tables.upper (strip algorithm) = "RSA".toList)
      (sized : K8sMeshPolicy.sizeInt tables scalars (getEntry privateKey "size") =
        some (some (bits : Int)))
      (scanned : K8sMeshPolicy.scanDoc tables loaders scalars now path doc =
        some findings) :
      Declares .certManager bits (findings.map verdictOf)

/-- There is a finding, and each says RSA-n and what `classify` says of that. -/
def Agreed (bits : Nat) (verdicts : List Rating) : Prop :=
  verdicts ≠ [] ∧ ∀ verdict ∈ verdicts,
    verdict.1 = rsaText bits ∧ some verdict.2 = tables.classify (rsaText bits)

end Declarations

/-! ## What is read -/

section Reading

variable {tables : CaseTables}

theorem toString_toList (bits : Nat) : (toString bits).toList = Nat.toDigits 10 bits := by
  rw [Nat.toString_eq_repr, Nat.toList_repr]

theorem rsaText_injective : Function.Injective rsaText := by
  intro left right same
  have numbers := congrArg (fun digits => Nat.ofDigitChars 10 digits 0)
    (List.append_cancel_left same)
  simpa only [Nat.ofDigitChars_ten_toDigits] using numbers

/-- The first number of a text. -/
theorem digitRun_first {front rest : List Char} (number : Nat)
    (letters : ∀ char ∈ front, char.toNat < 128 ∧ char.isDigit = false)
    (closed : ∀ char ∈ rest.head?, char.toNat < 128 ∧ char.isDigit = false) :
    digitRun tables (front ++ (Nat.toDigits 10 number ++ rest)) =
      Nat.toDigits 10 number := by
  have digits : ∀ char ∈ Nat.toDigits 10 number, tables.isDigit char = true := by
    intro char member
    have digit := isDigit_toDigits member
    rw [isDigit_ascii (ascii_of_isDigit digit), digit]
  have skipped : ∀ char ∈ front, (!tables.isDigit char) = true := by
    intro char member
    rw [isDigit_ascii (letters char member).1, (letters char member).2]
    rfl
  obtain ⟨first, others, filled⟩ := List.exists_cons_of_ne_nil
    (@Nat.toDigits_ne_nil number 10)
  have start : ((Nat.toDigits 10 number ++ rest).dropWhile fun char =>
      !tables.isDigit char) =
      Nat.toDigits 10 number ++ rest := by
    rw [filled, List.cons_append, List.dropWhile_cons_of_neg]
    rw [digits first (filled ▸ List.mem_cons_self)]
    exact Bool.false_ne_true
  rw [digitRun, List.dropWhile_append_of_pos skipped, start,
    List.takeWhile_append_of_pos digits]
  cases rest with
  | nil => rw [List.takeWhile_nil, List.append_nil]
  | cons char rest =>
      obtain ⟨ascii, other⟩ := closed char rfl
      rw [List.takeWhile_cons_of_neg, List.append_nil]
      rw [isDigit_ascii ascii, other]
      exact Bool.false_ne_true

theorem digits_first (decimal : DecimalDigits tables) {front rest : List Char}
    {number : Nat}
    (letters : ∀ char ∈ front, char.toNat < 128 ∧ char.isDigit = false)
    (closed : ∀ char ∈ rest.head?, char.toNat < 128 ∧ char.isDigit = false) :
    digits tables (front ++ (Nat.toDigits 10 number ++ rest)) =
      if tables.readable (Nat.toDigits 10 number).length then some (some number)
      else none := by
  rw [digits]
  simp only [digitRun_first number letters closed]
  rw [if_neg Nat.toDigits_ne_nil, intOf_toDigits decimal]
  split <;> rfl

/-- A word is read for the number that it begins with. -/
theorem digits_word (decimal : DecimalDigits tables) (word : Word) (bits : Nat) :
    digits tables (word.text bits) =
      if tables.readable (Nat.toDigits 10 (word.number bits)).length then
        some (some (word.number bits)) else none := by
  cases word with
  | kmsSpec =>
      have read := @digits_first tables decimal "RSA_".toList [] bits
        (by decide) (by simp)
      rwa [List.append_nil] at read
  | acmAlgorithm =>
      have read := @digits_first tables decimal "RSA_".toList [] bits
        (by decide) (by simp)
      rwa [List.append_nil] at read
  | pkcs1 hash =>
      exact @digits_first tables decimal "RSA_PKCS".toList
        ('_' :: (Nat.toDigits 10 bits ++ ("_SHA".toList ++ Nat.toDigits 10 hash))) 1
          (by decide)
        (by simp)
  | pss hash =>
      exact @digits_first tables decimal "RSA_PSS_".toList _ bits (by decide) (by simp)

/-- The bits of the text are read, and nothing else is. -/
theorem digits_toDigits (decimal : DecimalDigits tables) (bits : Nat) :
    digits tables (Nat.toDigits 10 bits) =
      if tables.readable (Nat.toDigits 10 bits).length then some (some bits)
      else none := by
  have read := @digits_first tables decimal [] [] bits (by simp) (by simp)
  rwa [List.nil_append, List.append_nil] at read

end Reading

/-! ## Hits -/

section Hits

variable {tables : CaseTables} {field : String} {rating : List Char →
  Option (Option Rating)}
  {found : List Captured} {hits : List Hit}

/-- A hit says how its value is rated. -/
theorem eachMatch_rated (scanned : eachMatch field rating found = some hits) {hit : Hit}
    (member : hit ∈ hits) :
    hit.field = field ∧ rating hit.value = some (some (hit.algorithm, hit.cls)) := by
  induction found generalizing hits with
  | nil =>
      cases scanned
      cases member
  | cons captured found inductionHypothesis =>
      obtain ⟨rated, read, scanned⟩ := Option.bind_eq_some_iff.mp scanned
      obtain ⟨others, later, built⟩ := Option.bind_eq_some_iff.mp scanned
      cases rated with
      | none =>
          cases built
          exact inductionHypothesis later member
      | some rated =>
          cases built
          rcases List.mem_cons.mp member with rfl | behind
          · exact ⟨rfl, read⟩
          · exact inductionHypothesis later behind

/-- Each match is read, and has a hit where it is rated. -/
theorem eachMatch_complete (scanned : eachMatch field rating found = some hits)
    {captured : Captured} (member : captured ∈ found) :
    ∃ rated, rating captured.value = some rated ∧ ∀ verdict, rated = some verdict →
      ⟨field, captured.value, verdict.1, verdict.2, captured.place⟩ ∈ hits := by
  induction found generalizing hits with
  | nil => cases member
  | cons first found inductionHypothesis =>
      obtain ⟨rated, read, scanned⟩ := Option.bind_eq_some_iff.mp scanned
      obtain ⟨others, later, built⟩ := Option.bind_eq_some_iff.mp scanned
      have grown : others ⊆ hits := by
        cases rated with
        | none =>
            cases built
            exact List.Subset.refl _
        | some rated =>
            cases built
            exact List.subset_cons_self _ _
      rcases List.mem_cons.mp member with rfl | behind
      · refine ⟨rated, read, ?_⟩
        rintro verdict rfl
        cases built
        exact List.mem_cons_self
      · obtain ⟨rated, read, listed⟩ := inductionHypothesis later behind
        exact ⟨rated, read, fun verdict same => grown (listed verdict same)⟩

end Hits

section Verdicts

variable {tables : CaseTables} {loaders : Loaders} {scalars : K8sMeshPolicy.Scalars}

theorem blockHits_word {word : Word} {rtype : List Char} (kind : word.inType rtype = true)
    (found : String → List Captured) : blockHits tables rtype found =
      eachMatch word.field (word.rating tables) (found word.field) := by
  have only : ∀ {name : String}, oneOf rtype [name] = true → rtype = name.toList := by
    intro name same
    rw [oneOf, List.any_cons, List.any_nil, Bool.or_false, beq_iff_eq] at same
    exact same.symm
  have authority : startsWith rtype "google_privateca" = true →
      blockHits tables rtype found =
      eachMatch "algorithm" (privatecaRating tables) (found "algorithm") := by
    intro starts
    obtain ⟨rest, rfl⟩ := startsWith_iff.mp starts
    rfl
  cases word with
  | kmsSpec =>
      rw [only kind]
      rfl
  | acmAlgorithm =>
      rw [only kind]
      rfl
  | pkcs1 hash => exact authority kind
  | pss hash => exact authority kind

/-- A word is rated by the number that it begins with. -/
theorem rating_word (decimal : DecimalDigits tables) {word : Word} {bits : Nat}
    {value : List Char} (spelled : tables.upper value = word.text bits) :
    word.rating tables value =
      if tables.readable (Nat.toDigits 10 (word.number bits)).length then
        some (some (rsaName (some (word.number bits)), rsaCls (some (word.number bits))))
      else none := by
  have rated : (rsaRating tables (word.text bits)).map some =
      if tables.readable (Nat.toDigits 10 (word.number bits)).length then
        some (some (rsaName (some (word.number bits)), rsaCls (some (word.number bits))))
      else none := by
    rw [rsaRating, digits_word decimal]
    split <;> rfl
  rw [← rated]
  cases word with
  | kmsSpec =>
      simp only [Word.rating, kmsRating, spelled]
      rfl
  | acmAlgorithm =>
      simp only [Word.rating, acmRating, spelled]
      rfl
  | pkcs1 hash =>
      simp only [Word.rating, privatecaRating, spelled]
      rfl
  | pss hash =>
      simp only [Word.rating, privatecaRating, spelled]
      rfl

/-- The verdict on a number that was read. -/
theorem verdict_agrees_iff (decimal : DecimalDigits tables) {number : Nat}
    (readable : tables.readable (Nat.toDigits 10 number).length = true) (bits : Nat) :
    (rsaName (some number) = rsaText bits ∧
      some (rsaCls (some number)) = tables.classify (rsaText bits)) ↔
        number ≠ 0 ∧ number = bits := by
  cases number with
  | zero =>
      refine iff_of_false ?_ (fun none_ => none_.1 rfl)
      rintro ⟨same, -⟩
      have length := congrArg List.length same
      simp [rsaName, rsaText] at length
  | succ number =>
      have named : rsaName (some (number + 1)) = rsaText (number + 1) := by
        rw [rsaText, ← toString_toList]
        rfl
      rw [named]
      constructor
      · rintro ⟨same, -⟩
        exact ⟨Nat.succ_ne_zero number, rsaText_injective same⟩
      · rintro ⟨-, rfl⟩
        refine ⟨rfl, ?_⟩
        rw [classify_rsaText decimal, if_pos readable]
        rfl

/-- Verdicts that are all the same agree where one of them does. -/
theorem agreed_of_single {bits : Nat} {verdicts : List Rating} {verdict : Rating}
    (some_ : verdict ∈ verdicts) (all : ∀ other ∈ verdicts, other = verdict) :
    Agreed tables bits verdicts ↔
      verdict.1 = rsaText bits ∧ some verdict.2 = tables.classify (rsaText bits) := by
  constructor
  · intro agreed
    exact agreed.2 verdict some_
  · intro same
    refine ⟨List.ne_nil_of_mem some_, ?_⟩
    intro other member
    rw [all other member]
    exact same

theorem word_agreed_iff (decimal : DecimalDigits tables) {word : Word} {bits : Nat}
    {text : List Char} {block : Decl × Nat} {captured : Captured} {reports : List Report}
    (kind : word.inType block.1.rtype = true)
    (found : captured ∈ fieldMatches text block word.field)
    (spelled : tables.upper captured.value = word.text bits)
    (scanned : scanBlock tables text block = some reports) :
    Agreed tables bits (verdictsOn word.field captured.value reports) ↔
      (Spelling.word word).Read bits := by
  obtain ⟨hits, hit_, rfl⟩ := Option.map_eq_some_iff.mp scanned
  rw [blockHits_word kind] at hit_
  obtain ⟨rated, read, listed⟩ := eachMatch_complete hit_ found
  rw [rating_word decimal spelled] at read
  have readable : tables.readable (Nat.toDigits 10 (word.number bits)).length = true := by
    by_contra long
    rw [if_neg long] at read
    cases read
  rw [if_pos readable, Option.some.injEq] at read
  subst read
  have member : (rsaName (some (word.number bits)), rsaCls (some (word.number bits))) ∈
      verdictsOn word.field captured.value (hits.map (toReport text block.1)) := by
    refine List.mem_map.mpr ⟨toReport text block.1 _, List.mem_filter.mpr
      ⟨List.mem_map_of_mem (listed _ rfl), ?_⟩, rfl⟩
    simp [toReport]
  have single : ∀ other ∈ verdictsOn word.field captured.value
      (hits.map (toReport text block.1)),
      other = (rsaName (some (word.number bits)), rsaCls (some (word.number bits))) := by
    intro other member
    obtain ⟨report, inside, rfl⟩ := List.mem_map.mp member
    obtain ⟨reported, about⟩ := List.mem_filter.mp inside
    obtain ⟨hit, among, rfl⟩ := List.mem_map.mp reported
    rw [Bool.and_eq_true, beq_iff_eq, beq_iff_eq] at about
    have same := (eachMatch_rated hit_ among).2
    rw [show hit.value = captured.value from about.2, rating_word decimal spelled,
      if_pos readable, Option.some.injEq, Option.some.injEq] at same
    exact same.symm
  rw [agreed_of_single member single, verdict_agrees_iff decimal readable]
  cases word with
  | kmsSpec => exact and_iff_left rfl
  | acmAlgorithm => exact and_iff_left rfl
  | pkcs1 hash => exact (and_iff_right Nat.one_ne_zero).trans eq_comm
  | pss hash => exact and_iff_left rfl

theorem rsaBits_agreed (decimal : DecimalDigits tables) {bits : Nat} {text : List Char}
    {block : Decl × Nat} {size : Captured} {reports : List Report}
    (kind : oneOf block.1.rtype ["tls_private_key"] = true)
    (rsa : ∀ algorithm ∈ (fieldMatches text block "algorithm").head?,
      startsWith (tables.upper algorithm.value) "RSA" = true)
    (found : (fieldMatches text block "rsa_bits").head? = some size)
    (spelled : size.value = Nat.toDigits 10 bits)
    (scanned : scanBlock tables text block = some reports) :
    Agreed tables bits (reports.map Report.verdict) := by
  obtain ⟨hits, hit_, rfl⟩ := Option.map_eq_some_iff.mp scanned
  have branch : blockHits tables block.1.rtype (fieldMatches text block) =
      privateKeyHits tables (fieldMatches text block "algorithm").head?
        (fieldMatches text block "rsa_bits").head? := by
    rw [oneOf, List.any_cons, List.any_nil, Bool.or_false, beq_iff_eq] at kind
    rw [← kind]
    rfl
  have head : startsWith ((fieldMatches text block "algorithm").head?.elim "RSA".toList
      fun algorithm => tables.upper algorithm.value) "RSA" = true := by
    cases named : (fieldMatches text block "algorithm").head? with
    | none => rfl
    | some algorithm => exact rsa algorithm named
  have read : sizeOr tables (some 2048) (some size) =
      if tables.readable (Nat.toDigits 10 bits).length then some (some bits)
      else none := by
    rw [← digits_toDigits decimal, ← spelled]
    rfl
  change blockHits tables block.1.rtype (fieldMatches text block) = some hits at hit_
  rw [branch, privateKeyHits, found, read] at hit_
  simp only [head, if_true] at hit_
  split at hit_
  · next readable =>
    cases hit_
    refine ⟨List.cons_ne_nil _ _, ?_⟩
    intro verdict member
    rw [List.map_cons, List.map_nil, List.map_cons, List.map_nil,
      List.mem_singleton] at member
    rw [member, classify_rsaText decimal, if_pos readable]
    exact ⟨congrArg ("RSA-".toList ++ ·) (toString_toList bits), rfl⟩
  · cases hit_

theorem keySize_agreed_iff (decimal : DecimalDigits tables) {bits : Nat}
    {text : List Char}
    {block : Decl × Nat} {keyType size : Captured} {reports : List Report}
    (kind : oneOf block.1.rtype ["azurerm_key_vault_key"] = true)
    (named : (fieldMatches text block "key_type").head? = some keyType)
    (rsa : startsWith (tables.upper keyType.value) "RSA" = true)
    (found : (fieldMatches text block "key_size").head? = some size)
    (spelled : size.value = Nat.toDigits 10 bits)
    (scanned : scanBlock tables text block = some reports) :
    Agreed tables bits (reports.map Report.verdict) ↔ bits ≠ 0 := by
  obtain ⟨hits, hit_, rfl⟩ := Option.map_eq_some_iff.mp scanned
  have branch : blockHits tables block.1.rtype (fieldMatches text block) =
      vaultKeyHits tables (fieldMatches text block "key_type").head?
        (fieldMatches text block "key_size").head? := by
    rw [oneOf, List.any_cons, List.any_nil, Bool.or_false, beq_iff_eq] at kind
    rw [← kind]
    rfl
  have read : sizeOr tables none (some size) =
      if tables.readable (Nat.toDigits 10 bits).length then some (some bits)
      else none := by
    rw [← digits_toDigits decimal, ← spelled]
    rfl
  change blockHits tables block.1.rtype (fieldMatches text block) = some hits at hit_
  rw [branch, named, found] at hit_
  simp only [vaultKeyHits] at hit_
  rw [read] at hit_
  simp only [rsa, if_true] at hit_
  split at hit_
  · next readable =>
    cases hit_
    have single := @agreed_of_single tables bits
      [(rsaName (some bits), rsaCls (some bits))]
      (rsaName (some bits), rsaCls (some bits)) List.mem_cons_self
      fun other member => List.mem_singleton.mp member
    exact single.trans
      ((verdict_agrees_iff decimal readable bits).trans (and_iff_left rfl))
  · cases hit_

/-- No modulus has the tier that a bound of 2048 gives it. -/
theorem modulusTier_of_bound (bits : Nat) :
    modulusTier bits ≠ if decide (bits < 2048) = true then .tinggi else .sederhana := by
  rw [modulusTier]
  by_cases short : bits < 2048
  · rw [if_pos (Nat.lt_trans short (by decide)), if_pos (decide_eq_true short)]
    exact Classification.noConfusion
  · rw [if_neg (fun holds => short (of_decide_eq_true holds))]
    split
    · exact Classification.noConfusion
    · exact Classification.noConfusion

/-- The bound of cert-manager keys is 2048, and a key at least as
long is of a medium risk. -/
theorem certManager_not_agreed (decimal : DecimalDigits tables) {bits : Nat}
    {now : DateTime}
    {path : Path} {doc spec privateKey : List (Document × Document)}
    {kind algorithm : List Char}
    {findings : List Finding}
    (isKind : K8sMeshPolicy.printed tables loaders doc "kind" "" = some kind)
    (issued : oneOf (strip kind) ["Certificate", "Issuer", "ClusterIssuer"] = true)
    (specified : K8sMeshPolicy.section_ scalars doc "spec" = some spec)
    (keyed : K8sMeshPolicy.section_ scalars spec "privateKey" = some privateKey)
    (named : K8sMeshPolicy.printed tables loaders privateKey "algorithm" "" =
      some algorithm)
    (rsa : tables.upper (strip algorithm) = "RSA".toList)
    (sized : K8sMeshPolicy.sizeInt tables scalars (getEntry privateKey "size") =
      some (some (bits : Int)))
    (scanned : K8sMeshPolicy.scanDoc tables loaders scalars now path doc =
      some findings) :
    ¬ Agreed tables bits (findings.map verdictOf) := by
  have issuer : K8sMeshPolicy.certManager tables loaders scalars now path doc
      (strip kind) =
      some findings := by
    rw [← scanned, K8sMeshPolicy.scanDoc, isKind]
    obtain ⟨name, listed, same⟩ := List.any_eq_true.mp issued
    rw [Option.bind_eq_bind, Option.bind_some, ← beq_iff_eq.mp same]
    simp only [List.mem_cons, List.not_mem_nil, or_false] at listed
    rcases listed with rfl | rfl | rfl
    · rfl
    · rfl
    · rfl
  intro agreed
  rcases K8sMeshPolicy.certManager_cases issuer with
    rfl | ⟨spec', privateKey', algorithm', size, finding, specified', keyed',
      named', sized', rfl, rated⟩
  · exact agreed.1 rfl
  · cases specified.symm.trans specified'
    cases keyed.symm.trans keyed'
    cases named.symm.trans named'
    cases sized.symm.trans sized'
    have said := (agreed.2 (verdictOf finding) List.mem_cons_self).2
    have weak : K8sMeshPolicy.weakRsa "RSA".toList (some (bits : Int)) =
        decide (bits < 2048) := by
      have named : oneOf "RSA".toList ["RSA"] = true := by decide
      have cast : (bits : Int) < 2048 ↔ bits < 2048 := by omega
      rw [K8sMeshPolicy.weakRsa, named, Option.any_some, Bool.true_and,
        decide_eq_decide, cast]
    rw [verdictOf, rated, rsa, weak, classify_rsaText decimal] at said
    have tier := modulusTier_of_bound bits
    by_cases readable : tables.readable (Nat.toDigits 10 bits).length = true
    · rw [if_pos readable, Option.some.injEq] at said
      exact tier said.symm
    · rw [if_neg readable] at said
      cases said

end Verdicts

/-- The longer modulus is not the graver. -/
theorem modulusTier_mono {bits more : Nat} (longer : bits ≤ more) :
    modulusTier bits = modulusTier more ∨
      modulusTier bits = .sangatTinggi ∧ modulusTier more = .tinggi := by
  rw [modulusTier, modulusTier]
  by_cases short : bits < 3072
  · rw [if_pos short]
    split
    · exact .inl rfl
    · exact .inr ⟨rfl, rfl⟩
  · rw [if_neg short, if_neg (by omega)]
    exact .inl rfl

/-- The findings on an RSA key say RSA-n and what `classify` says of that exactly where
its probe reads the size as it is written and nothing else in the word; where two sources
are so read, the longer key is not the graver, and keys of one size are rated the same. -/
theorem rsaKey_agreed_iff {tables : CaseTables} (decimal : DecimalDigits tables)
    {loaders : Loaders} {scalars : K8sMeshPolicy.Scalars} {spelling : Spelling}
    {bits : Nat}
    {verdicts : List Rating}
    (declared : Declares tables loaders scalars spelling bits verdicts) :
    (Agreed tables bits verdicts ↔ spelling.Read bits) ∧
      ∀ {other : Spelling} {more : Nat} {others : List Rating},
        Declares tables loaders scalars other more others → spelling.Read bits →
        other.Read more →
        ∀ verdict ∈ verdicts, ∀ later ∈ others, (bits = more → verdict = later) ∧
          (bits ≤ more → verdict.2 = later.2 ∨
            verdict.2 = .sangatTinggi ∧ later.2 = .tinggi) := by
  have agreed_iff : ∀ {spelling : Spelling} {bits : Nat} {verdicts : List Rating},
      Declares tables loaders scalars spelling bits verdicts →
        (Agreed tables bits verdicts ↔ spelling.Read bits) := by
    intro spelling bits verdicts declared
    cases declared with
    | word kind found spelled scanned =>
        exact word_agreed_iff decimal kind found spelled scanned
    | rsaBits kind rsa found spelled scanned =>
        exact iff_true_intro (rsaBits_agreed decimal kind rsa found spelled scanned)
    | keySize kind named rsa found spelled scanned =>
        exact keySize_agreed_iff decimal kind named rsa found spelled scanned
    | certManager isKind issued specified keyed named rsa sized scanned =>
        exact iff_false_intro
          (certManager_not_agreed decimal isKind issued specified keyed named rsa
            sized scanned)
  refine ⟨agreed_iff declared, ?_⟩
  intro other more others declared' read read' verdict member later member'
  obtain ⟨name, cls⟩ := ((agreed_iff declared).mpr read).2 verdict member
  obtain ⟨name', cls'⟩ := ((agreed_iff declared').mpr read').2 later member'
  constructor
  · rintro rfl
    exact Prod.ext (name.trans name'.symm) (Option.some.inj (cls.trans cls'.symm))
  · intro longer
    have tier : ∀ {size : Nat} {given : Classification},
        some given = tables.classify (rsaText size) → given = modulusTier size := by
      intro size given same
      rw [classify_rsaText decimal] at same
      by_cases readable : tables.readable (Nat.toDigits 10 size).length = true
      · rw [if_pos readable, Option.some.injEq] at same
        exact same
      · rw [if_neg readable] at same
        cases same
    rw [tier cls, tier cls']
    exact modulusTier_mono longer

/-! ## A key of each kind -/

/-- No manifest here has a scalar of a further type. -/
def noScalars : K8sMeshPolicy.Scalars where
  isTrue := fun _ => false
  int := fun _ => some none

/-- A key of the key service. -/
def kmsText : List Char :=
  "resource \"aws_kms_key\" \"k\" \x7bcustomer_master_key_spec = \"RSA_2048\"\x7d".toList

/-- The block of a key. -/
def kmsDecl : Decl × Nat := (⟨0, "aws_kms_key".toList⟩, kmsText.length)

/-- What is reported of it. -/
def kmsReport : Report where
  rtype := "aws_kms_key".toList
  field := "customer_master_key_spec"
  value := "RSA_2048".toList
  algorithm := "RSA-2048".toList
  cls := .sangatTinggi
  line := 1
  snippet := kmsText

theorem kmsKey_declared :
    Declares plainTables manifestLoaders noScalars (.word .kmsSpec) 2048
    (verdictsOn "customer_master_key_spec" "RSA_2048".toList [kmsReport]) := by
  have found : (⟨28, 36, 28, "RSA_2048".toList⟩ : Captured) ∈
      fieldMatches kmsText kmsDecl Word.kmsSpec.field := by decide +kernel
  have spelled : plainTables.upper "RSA_2048".toList = Word.kmsSpec.text 2048 := by decide
  have scanned : scanBlock plainTables kmsText kmsDecl = some [kmsReport] := by
    decide +kernel
  exact .word (by decide) found spelled scanned

/-- The key of the key service is RSA-2048. -/
theorem kmsKey_agreed : Agreed plainTables 2048
    (verdictsOn "customer_master_key_spec" "RSA_2048".toList [kmsReport]) :=
  (rsaKey_agreed_iff plainTables_decimal kmsKey_declared).1.mpr
    (by decide : (2048 : Nat) ≠ 0)

/-- The key of a certificate authority. -/
def authorityText : List Char :=
  ("resource \"google_privateca_certificate_authority\" \"a\" " ++
    "\x7balgorithm = \"RSA_PKCS1_4096_SHA256\"\x7d").toList

/-- The block of an authority. -/
def authorityDecl : Decl × Nat :=
  (⟨0, "google_privateca_certificate_authority".toList⟩, authorityText.length)

/-- What is reported of it. -/
def authorityReport : Report where
  rtype := "google_privateca_certificate_authority".toList
  field := "algorithm"
  value := "RSA_PKCS1_4096_SHA256".toList
  algorithm := "RSA-1".toList
  cls := .sangatTinggi
  line := 1
  snippet := authorityText

/-- A key of 4096 bits is reported as RSA-1. -/
theorem authorityKey_apart : ¬ ∀ (tables : CaseTables), DecimalDigits tables →
    ∀ (loaders : Loaders) (scalars : K8sMeshPolicy.Scalars) (spelling : Spelling) (bits : Nat)
      (verdicts : List Rating), Declares tables loaders scalars spelling bits verdicts →
        Agreed tables bits verdicts := by
  intro always
  have found : (⟨55, 34, 13, "RSA_PKCS1_4096_SHA256".toList⟩ : Captured) ∈
      fieldMatches authorityText authorityDecl (Word.pkcs1 256).field := by decide +kernel
  have spelled : plainTables.upper "RSA_PKCS1_4096_SHA256".toList =
      (Word.pkcs1 256).text 4096 := by decide
  have scanned : scanBlock plainTables authorityText authorityDecl =
      some [authorityReport] := by
    decide +kernel
  have agreed := always plainTables plainTables_decimal manifestLoaders noScalars _ _ _
    (.word (by decide) found spelled scanned)
  have said := (agreed.2 (authorityReport.algorithm, authorityReport.cls)
    (by decide)).1
  exact absurd said (by decide)

end Probes
end PqcScan
