import PqcScan.Core.SourceRecall
import PqcScan.Probes.RsaSizes
import PqcScan.Probes.Terraform

/-!
# PHP sources

`CodeTsPhp` of `code_ts_php.py`: the patterns for weak hashes, `mcrypt` and RSA key sizes,
and what is reported of a source.
-/

namespace PqcScan
namespace Probes
namespace CodeTsPhp

open Library Python PqcScan.Core

/-! ## Patterns -/

/-- `['"]`. -/
def isQuote (char : Char) : Bool := char == '\'' || char == '"'

/-- `[a-z_]` with `re.IGNORECASE`. -/
def isMcryptChar (char : Char) : Bool :=
  char.isAlpha || char == 'İ' || char == 'ı' || char == 'ſ' ||
    char == kelvin || char == '_'

/-- `\s*\(`. -/
def call : List (Library.Piece Char) := [.many isSpace, .one (· == '(')]

/-- `_WEAK_HASH_RE`, with `isWord` for `\w`. -/
def weakHashRe (isWord : Char → Bool) : Matcher Char (Nat × List Char) :=
  Matcher.guarded isWord <| Matcher.first <| ["md5", "sha1"].map fun name =>
    Matcher.capture [] (literal name) call

/-- `_HASH_FUNC_RE`. -/
def hashFuncRe (isWord : Char → Bool) : Matcher Char (Nat × List Char) :=
  Matcher.guarded isWord <| Matcher.first <|
    ["md5", "md4", "md2", "sha1", "haval"].map fun name =>
      Matcher.capture (literal "hash" ++ call ++ [.many isSpace, .one isQuote])
        (literal name) [.one isQuote]

/-- `_MCRYPT_RE`. -/
def mcryptRe (isWord : Char → Bool) : Matcher Char (Nat × List Char) :=
  Matcher.guarded isWord <|
    Matcher.capture (literal "mcrypt_" ++ [.one isMcryptChar, .many isMcryptChar] ++ call)
      [] []

/-- `_OPENSSL_RSA_RE`. -/
def opensslRsaRe (tables : CaseTables) : Matcher Char (Nat × List Char) :=
  Matcher.capture
    (literal "private_key_bits" ++
      [.maybe isQuote, .many isSpace, .one (· == '='), .one (· == '>'), .many isSpace])
    [.one tables.isDigit, .many tables.isDigit] []

/-! ## Reports -/

/-- A finding of the probe; its evidence is the path and the line. -/
structure Report where
  algorithm : List Char
  classification : Classification
  severity : Severity
  title : List Char
  path : List Char
  line : Nat
  snippet : Option String := none
  deriving DecidableEq

/-- `text[: m.start()].count("\n") + 1`. -/
def lineNo (text : List Char) (place : Nat) : Nat := (text.take place).count '\n' + 1

/-- `{path}:{line_no}`. -/
def location (path : List Char) (line : Nat) : List Char :=
  path ++ ':' :: Nat.toDigits 10 line

section Scan

variable (tables : CaseTables) (isWord : Char → Bool) (path text : List Char)

/-- The finding of a weak hash function. -/
def weakHashReport (found : Found (Nat × List Char)) : Report :=
  let line := lineNo text found.start
  let fn := tables.upper found.detail.2
  { algorithm := fn
    classification := .sangatTinggi
    severity := .crit
    title := fn ++ "() built-in in ".toList ++ location path line
    path, line }

/-- The finding of `hash` with the name of a weak hash. -/
def hashFuncReport (found : Found (Nat × List Char)) : Report :=
  let line := lineNo text found.start
  let alg := tables.upper found.detail.2
  { algorithm := alg
    classification := .sangatTinggi
    severity := .crit
    title := "hash('".toList ++ tables.lower alg ++ "', ...) in ".toList ++
      location path line
    path, line }

/-- The finding of `mcrypt`. -/
def mcryptReport (found : Found (Nat × List Char)) : Report :=
  let line := lineNo text found.start
  { algorithm := "MCRYPT".toList
    classification := .sangatTinggi
    severity := .crit
    title := "deprecated mcrypt_* function in ".toList ++ location path line
    path, line
    snippet := some "// Replace with openssl_* or sodium_*" }

/-- The finding of an RSA key. -/
def rsaReport (bits line : Nat) : Report :=
  { algorithm := rsaText bits
    classification := if bits < 3072 then .sangatTinggi else .tinggi
    severity := if bits < 3072 then .crit else .high
    title := "openssl_pkey_new private_key_bits=".toList ++ Nat.toDigits 10 bits ++
      " in ".toList ++ location path line
    path, line }

/-- The loop over the matches of `_OPENSSL_RSA_RE`, up to a number that `int` cannot read;
whether it gets to its end. -/
def rsaReports : List (Found (Nat × List Char)) → List Report × Bool
  | [] => ([], true)
  | found :: rest =>
      match tables.intOf found.detail.2 with
      | none => ([], false)
      | some bits =>
          let later := rsaReports rest
          (rsaReport path bits (lineNo text found.start) :: later.1, later.2)

/-- `CodeTsPhp._scan`: what is emitted, and whether it returns. -/
def scan : List Report × Bool :=
  let scanText := stripNoncode text "php"
  let rsa := rsaReports tables path text
    (codeFinditer (opensslRsaRe tables) text scanText)
  ((codeFinditer (weakHashRe isWord) text scanText).map
    (weakHashReport tables path text) ++
    (codeFinditer (hashFuncRe isWord) text scanText).map
      (hashFuncReport tables path text) ++
    (codeFinditer (mcryptRe isWord) text scanText).map (mcryptReport path text) ++ rsa.1,
    rsa.2)

end Scan

/-! ## RSA key sizes -/

/-- The forms of PHP. -/
def phpForms : List Form := [.block, .lineSlash, .lineHash, .dq, .sqStr]

theorem lookup_php : langForms.lookup "php" = some phpForms := by decide

section RsaSizes

variable {tables : CaseTables}

theorem eq_of_sameLetter_p {item : Char} (same : sameLetter 'p' item = true) :
    item = 'p' ∨ item = 'P' := by
  have lower : item.toLower = 'p' := by simpa [sameLetter] using same
  have small : item.toNat < 128 := ascii_of_toLower item (by
    rw [lower]
    decide)
  have all : ∀ code : Fin 128, (Char.ofNat code).toLower = 'p' →
      Char.ofNat code = 'p' ∨ Char.ofNat code = 'P' := by decide
  have here := all ⟨item.toNat, small⟩
  rw [Char.ofNat_toNat] at here
  exact here lower

theorem opensslRsaRe_eq : opensslRsaRe tables =
    Matcher.capture (.one (sameLetter 'p') :: (literal "rivate_key_bits" ++
      [.maybe isQuote, .many isSpace, .one (· == '='), .one (· == '>'), .many isSpace]))
      [.one tables.isDigit, .many tables.isDigit] [] := by
  have split : "private_key_bits".toList = 'p' :: "rivate_key_bits".toList := by decide
  rw [opensslRsaRe, literal, split]
  rfl

/-- The pattern begins with a letter that it has nowhere else. -/
theorem rare_p : ∀ piece ∈ literal "rivate_key_bits" ++
      [.maybe isQuote, .many isSpace, .one (· == '='), .one (· == '>'), .many isSpace] ++
      [.one tables.isDigit, .many tables.isDigit] ++ [],
    ∀ item, sameLetter 'p' item = true → piece.accepts item = false := by
  intro piece member item same
  have digit : tables.isDigit item = item.isDigit := by
    rcases eq_of_sameLetter_p same with rfl | rfl <;>
      exact tables.digit_ascii _ (by decide)
  rw [List.append_nil, List.append_assoc, List.mem_append] at member
  rcases member with member | member
  · obtain ⟨char, inside, rfl⟩ := List.mem_map.mp member
    have letters : ∀ char ∈ "rivate_key_bits".toList, sameLetter char 'p' = false ∧
        sameLetter char 'P' = false := by decide
    rcases eq_of_sameLetter_p same with rfl | rfl
    · exact (letters char inside).1
    · exact (letters char inside).2
  · simp only [List.cons_append, List.nil_append, List.mem_cons, List.not_mem_nil,
      or_false] at member
    rcases member with rfl | rfl | rfl | rfl | rfl | rfl | rfl
    all_goals
      rw [Library.Piece.accepts]
      first | rw [digit] | skip
      rcases eq_of_sameLetter_p same with rfl | rfl <;> decide

theorem opensslRsaRe_positive : (opensslRsaRe tables).Positive := by
  rw [opensslRsaRe_eq]
  exact Matcher.capture_positive

/-- A match begins with the letter p. -/
theorem opensslRsaRe_head {text : List Char} {place : Nat} {found : Nat × Nat × List Char}
    (matched : (opensslRsaRe tables).matchAt text place = some found) :
    ∃ char, text[place]? = some char ∧ blank char ≠ char := by
  rw [opensslRsaRe_eq] at matched
  obtain ⟨-, ⟨char, here, same⟩, -⟩ := Matcher.capture_head matched
  rw [List.getElem?_drop, Nat.add_zero] at here
  refine ⟨char, here, ?_⟩
  rcases eq_of_sameLetter_p same with rfl | rfl <;> decide

variable {text : List Char} {lexemes : List (Lexeme Char)}

/-- The matches that are kept are those outside the tokens. -/
theorem mem_rsaMatches_iff (lexes : Lexes (Noncode phpForms) text lexemes)
    (found : Found (Nat × List Char)) :
    found ∈ codeFinditer (opensslRsaRe tables) text (stripNoncode text "php") ↔
      (opensslRsaRe tables).matchAt text found.start = some (found.length, found.detail) ∧
        ¬ InToken lexemes found.start := by
  have masked : ∀ found : Found (Nat × List Char),
      (opensslRsaRe tables).matchAt text found.start = some (found.length, found.detail) →
        found.start < text.length ∧
          (isMasked text (stripNoncode text "php") found.start = false ↔
            ¬ InToken lexemes found.start) := by
    intro found matched
    obtain ⟨char, here, solid⟩ := opensslRsaRe_head matched
    refine ⟨(List.getElem?_eq_some_iff.mp here).1, ?_⟩
    rw [← Bool.not_eq_true, isMasked_iff lookup_php lexes]
    exact not_congr (and_iff_left ⟨char, here, solid⟩)
  have sparse : ∀ place length detail,
      (opensslRsaRe tables).matchAt text place = some (length, detail) →
      ∀ inner, place < inner → inner < place + length →
        (opensslRsaRe tables).matchAt text inner = none := by
    rw [opensslRsaRe_eq]
    exact Matcher.capture_sparse rare_p
  constructor
  · intro kept
    have matched := Matcher.finditer_matchAt opensslRsaRe_positive
      (mem_codeFinditer.mp kept).1
    exact ⟨matched, ((masked found matched).2).mp (mem_codeFinditer.mp kept).2⟩
  · rintro ⟨matched, outside⟩
    obtain ⟨within, code⟩ := masked found matched
    exact (mem_codeFinditer_iff opensslRsaRe_positive sparse found within).mpr
      ⟨matched, code.mpr outside⟩

/-- The places of matches with their numbers. -/
def sites (tables : CaseTables) (founds : List (Found (Nat × List Char))) :
    List (Nat × Nat) :=
  founds.filterMap fun found => (tables.intOf found.detail.2).map fun bits =>
    (found.start, bits)

theorem mem_sites {founds : List (Found (Nat × List Char))} {place bits : Nat} :
    (place, bits) ∈ sites tables founds ↔ ∃ found ∈ founds, found.start = place ∧
      tables.intOf found.detail.2 = some bits := by
  simp only [sites, List.mem_filterMap, Option.map_eq_some_iff, Prod.mk.injEq]
  constructor
  · rintro ⟨found, member, number, read, here, rfl⟩
    exact ⟨found, member, here, read⟩
  · rintro ⟨found, member, here, read⟩
    exact ⟨found, member, bits, read, here, rfl⟩

theorem sites_increasing {founds : List (Found (Nat × List Char))}
    (increasing : founds.Pairwise fun first second => first.start < second.start) :
    (sites tables founds).Pairwise fun first second => first.1 < second.1 := by
  refine increasing.filterMap _ fun first second before site given site' given' => ?_
  obtain ⟨_, -, rfl⟩ := Option.map_eq_some_iff.mp given
  obtain ⟨_, -, rfl⟩ := Option.map_eq_some_iff.mp given'
  exact before

/-- One report for each match, if every number can be read. -/
theorem rsaReports_eq_sites {path : List Char} {founds : List (Found (Nat × List Char))}
    (readable : ∀ found ∈ founds, (tables.intOf found.detail.2).isSome = true) :
    rsaReports tables path text founds =
      ((sites tables founds).map fun site => rsaReport path site.2 (lineNo text site.1),
        true) := by
  induction founds with
  | nil => rfl
  | cons found founds inductionHypothesis =>
      rw [List.forall_mem_cons] at readable
      obtain ⟨bits, read⟩ := Option.isSome_iff_exists.mp readable.1
      have first : sites tables (found :: founds) =
          (found.start, bits) :: sites tables founds := by
        rw [sites, List.filterMap_cons_some (by rw [read]; rfl)]
        rfl
      rw [rsaReports, read, first, List.map_cons]
      simp only [inductionHypothesis readable.2]

/-- What is reported of key sizes: one report for each place where `private_key_bits`, an
arrow and a number stand neither in a comment nor in a literal, in the order of the
places.  A key in quotes is a literal. -/
theorem rsaReports_eq_map (path : List Char)
    (readable : ∀ found ∈ (opensslRsaRe tables).finditer text,
      (tables.intOf found.detail.2).isSome = true) :
    ∃ lexemes, Lexes (Noncode phpForms) text lexemes ∧ ∃ sites : List (Nat × Nat),
      (sites.Pairwise fun first second => first.1 < second.1) ∧
      (∀ place bits, (place, bits) ∈ sites ↔ ∃ length detail,
        (opensslRsaRe tables).matchAt text place = some (length, detail) ∧
          ¬ InToken lexemes place ∧ tables.intOf detail.2 = some bits) ∧
      rsaReports tables path text
          (codeFinditer (opensslRsaRe tables) text (stripNoncode text "php")) =
        (sites.map fun site => rsaReport path site.2 (lineNo text site.1), true) := by
  obtain ⟨lexemes, lexes⟩ :=
    Lexes.exists_ (combined_scans (distinct_langForms lookup_php))
    (not_noncode_nil phpForms) text
  refine ⟨lexemes, lexes, sites tables
    (codeFinditer (opensslRsaRe tables) text (stripNoncode text "php")), ?_, ?_,
    rsaReports_eq_sites fun found kept => readable found (mem_codeFinditer.mp kept).1⟩
  · -- a match ends behind its place, and the next one begins there or later
    apply sites_increasing
    refine List.Pairwise.filter _ (List.Pairwise.imp_of_mem ?_
      (Matcher.finditer_apart opensslRsaRe_positive text))
    intro first second member _ apart
    have some_ := opensslRsaRe_positive _ _ _ _
      (Matcher.finditer_matchAt opensslRsaRe_positive member)
    omega
  · intro place bits
    rw [mem_sites]
    constructor
    · rintro ⟨found, kept, rfl, read⟩
      obtain ⟨matched, outside⟩ := (mem_rsaMatches_iff lexes found).mp kept
      exact ⟨found.length, found.detail, matched, outside, read⟩
    · rintro ⟨length, detail, matched, outside, read⟩
      exact ⟨⟨place, length, detail⟩,
        (mem_rsaMatches_iff lexes _).mpr ⟨matched, outside⟩, rfl, read⟩

end RsaSizes

/-- A key in quotes and the same constant twice on one line. -/
def keySizes : List Char :=
  "['private_key_bits' => 1024, private_key_bits => 2048, private_key_bits => 2048]".toList

theorem rsaReports_eq_map_keySizes :
    ∃ lexemes, Lexes (Noncode phpForms) keySizes lexemes ∧ ∃ sites : List (Nat × Nat),
      (sites.Pairwise fun first second => first.1 < second.1) ∧
      (∀ place bits, (place, bits) ∈ sites ↔ ∃ length detail,
        (opensslRsaRe plainTables).matchAt keySizes place = some (length, detail) ∧
          ¬ InToken lexemes place ∧ plainTables.intOf detail.2 = some bits) ∧
      rsaReports plainTables [] keySizes
          (codeFinditer (opensslRsaRe plainTables) keySizes
            (stripNoncode keySizes "php")) =
        (sites.map fun site => rsaReport [] site.2 (lineNo keySizes site.1), true) :=
  rsaReports_eq_map [] (by decide +kernel)

example : (scan plainTables Char.isAlphanum [] keySizes).1.map Report.algorithm =
    ["RSA-2048".toList, "RSA-2048".toList] := by decide +kernel

end CodeTsPhp
end Probes
end PqcScan
