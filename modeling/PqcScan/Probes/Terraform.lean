import PqcScan.Core.Names
import PqcScan.Library.Patterns
import PqcScan.Probes.FileScans
import PqcScan.Probes.Severity

/-!
# Terraform files

`FsIacTerraform` of `fs_iac_terraform.py`: the patterns for declarations and fields, the
block of a declaration, and what its fields say.
-/

namespace PqcScan
namespace Probes

open Library Python PqcScan.Core

/-! ## Patterns -/

/-- The characters that a class of ASCII letters and digits has with `re.IGNORECASE`. -/
def isFoldedAlnum (char : Char) : Bool :=
  char.isAlphanum || char == 'İ' || char == 'ı' || char == 'ſ' || char == kelvin

/-- `[A-Za-z0-9_]` with `re.IGNORECASE`. -/
def isFoldedWord (char : Char) : Bool := isFoldedAlnum char || char == '_'

/-- `[A-Za-z0-9_.\-]` with `re.IGNORECASE`. -/
def isValueChar (char : Char) : Bool := isFoldedWord char || char == '.' || char == '-'

/-- A literal, with `re.IGNORECASE`. -/
def literal (text : String) : List (Library.Piece Char) :=
  text.toList.map fun char => .one (sameLetter char)

/-- `\s*"?`. -/
def spacedQuote : List (Library.Piece Char) := [.many isSpace, .maybe (· == '"')]

/-- `(?:resource\s+"|data\s+"|")`. -/
def resourceOpenings : List (List (Library.Piece Char)) :=
  [literal "resource" ++ [.one isSpace, .many isSpace, .one (· == '"')],
    literal "data" ++ [.one isSpace, .many isSpace, .one (· == '"')],
    [.one (· == '"')]]

/-- `aws|google|azurerm|tls`. -/
def providers : List String := ["aws", "google", "azurerm", "tls"]

/-- `_RESOURCE_RE` with one of its openings and one of its providers. -/
def resourceOf (opening : List (Library.Piece Char)) (provider : String) :
    Matcher Char (Nat × List Char) :=
  Matcher.capture opening
    (literal provider ++ [.one (sameLetter '_'), .one isFoldedWord, .many isFoldedWord])
    [.one (· == '"')]

/-- `_RESOURCE_RE`. -/
def resourceRe : Matcher Char (Nat × List Char) :=
  Matcher.first (resourceOpenings.flatMap fun opening =>
    providers.map (resourceOf opening))

/-- `_field_re`. -/
def fieldRe (field : String) : Matcher Char (Nat × List Char) :=
  Matcher.guarded isFoldedWord <|
    Matcher.capture
      (literal field ++ spacedQuote ++ [.many isSpace, .one fun char =>
        char == ':' || char == '='] ++
        spacedQuote)
      [.one isValueChar, .many isValueChar] []

/-! ## Values -/

/-- The algorithm and the class of a value. -/
abbrev Rating := List Char × Classification

/-- A field that is reported: `add(field, value, algorithm, cls, pos)`. -/
structure Hit where
  field : String
  value : List Char
  algorithm : List Char
  cls : Classification
  pos : Nat

section Values

variable (tables : CaseTables)

/-- The match of `\d+`. -/
def digitRun (value : List Char) : List Char :=
  (value.dropWhile fun char => !tables.isDigit char).takeWhile tables.isDigit

/-- `_digits`; the outer option stands for the `ValueError` of `int`. -/
def digits (value : List Char) : Option (Option Nat) :=
  let run := digitRun tables value
  if run = [] then some none else (tables.intOf run).map some

/-- `f"RSA-{bits}" if bits else "RSA"`. -/
def rsaName : Option Nat → List Char
  | none => "RSA".toList
  | some 0 => "RSA".toList
  | some bits => "RSA-".toList ++ (toString bits).toList

/-- `_rsa_cls`. -/
def rsaCls : Option Nat → Classification
  | some bits => if bits < 3072 then .sangatTinggi else .tinggi
  | none => .tinggi

/-- The rating of a value by its number of bits. -/
def rsaRating (value : List Char) : Option Rating :=
  (digits tables value).map fun bits => (rsaName bits, rsaCls bits)

/-- The rating of an elliptic curve. -/
def ecRating : Rating := (tables.normalise "ECDSA".toList, .tinggi)

/-- The rating of a `customer_master_key_spec`; the outer option
stands for a `ValueError`. -/
def kmsRating (value : List Char) : Option (Option Rating) :=
  let v := tables.upper value
  if startsWith v "SYMMETRIC" then some none
  else if startsWith v "RSA" then (rsaRating tables v).map some
  else if startsWith v "ECC" then some (some (ecRating tables))
  else some none

/-- `_LEGACY_SSL_POLICY`. -/
def legacySslPolicy : String := "ELBSECURITYPOLICY-2016-08"

/-- The rating of an `ssl_policy`. -/
def policyRating (value : List Char) : Option (Option Rating) :=
  let v := tables.upper value
  some <| if contains v "TLS-1-0" || contains v "TLS-1-1" ||
    oneOf v [legacySslPolicy] then
    some ("TLS-LEGACY".toList, .tinggi) else none

/-- The rating of a `key_algorithm` of a certificate. -/
def acmRating (value : List Char) : Option (Option Rating) :=
  let v := tables.upper value
  if startsWith v "RSA" then (rsaRating tables v).map some
  else if startsWith v "EC" then some (some (ecRating tables))
  else some none

/-- The rating of an `algorithm` of a certificate authority. -/
def privatecaRating (value : List Char) : Option (Option Rating) :=
  let v := tables.upper value
  if contains v "RSA" then (rsaRating tables v).map some
  else if startsWith v "EC" then some (some (ecRating tables))
  else some none

/-! ## Blocks -/

/-- A match of a field in a block: the place and the text of its value. -/
abbrev Captured := Found (Nat × List Char)

namespace Captured

/-- `m.start(1)`. -/
def place (captured : Captured) : Nat := captured.start + captured.detail.1

/-- `m.group(1)`. -/
def value (captured : Captured) : List Char := captured.detail.2

end Captured

/-- The hits of a field whose matches are rated one by one. -/
def eachMatch (field : String) (rating : List Char → Option (Option Rating)) :
    List Captured → Option (List Hit)
  | [] => some []
  | captured :: rest => do
      let rated ← rating captured.value
      let hits ← eachMatch field rating rest
      match rated with
      | none => pure hits
      | some (algorithm, cls) =>
          pure (⟨field, captured.value, algorithm, cls, captured.place⟩ :: hits)

/-- `f"RSA-{bits}"`. -/
def rsaBits : Option Nat → List Char
  | none => "RSA-None".toList
  | some bits => "RSA-".toList ++ (toString bits).toList

/-- `_digits(m.group(1)) if m else DEFAULT`. -/
def sizeOr (missing : Option Nat) (captured : Option Captured) : Option (Option Nat) :=
  captured.elim (some missing) fun captured => digits tables captured.value

/-- The branch for `tls_private_key`, given the first `algorithm`
and the first `rsa_bits`. -/
def privateKeyHits (am bm : Option Captured) : Option (List Hit) :=
  let algo := am.elim "RSA".toList fun am => tables.upper am.value
  let pos := am.elim 0 Captured.place
  if startsWith algo "RSA" then
    (sizeOr tables (some 2048) bm).map fun bits =>
      [⟨"algorithm", am.elim "RSA".toList Captured.value, rsaBits bits, rsaCls bits, pos⟩]
  else if startsWith algo "ECDSA" then
    some [⟨"algorithm", am.elim "ECDSA".toList Captured.value, (ecRating tables).1,
      (ecRating tables).2, pos⟩]
  else some []

/-- The branch for `azurerm_key_vault_key`, given the first `key_type`
and the first `key_size`. -/
def vaultKeyHits (km sm : Option Captured) : Option (List Hit) :=
  match km with
  | none => some []
  | some km =>
      let kt := tables.upper km.value
      if startsWith kt "RSA" then
        (sizeOr tables none sm).map fun bits =>
          [⟨"key_type", km.value, rsaName bits, rsaCls bits, km.place⟩]
      else if startsWith kt "EC" then
        some [⟨"key_type", km.value, (ecRating tables).1, (ecRating tables).2, km.place⟩]
      else some []

/-- `_scan_block`, given the matches of each field; nothing stands for a `ValueError`. -/
def blockHits (rtype : List Char) (matches_ : String → List Captured) :
    Option (List Hit) :=
  if oneOf rtype ["aws_kms_key"] then
    eachMatch "customer_master_key_spec" (kmsRating tables)
      (matches_ "customer_master_key_spec")
  else if oneOf rtype ["aws_lb_listener", "aws_alb_listener"] then
    eachMatch "ssl_policy" (policyRating tables) (matches_ "ssl_policy")
  else if oneOf rtype ["tls_private_key"] then
    privateKeyHits tables (matches_ "algorithm").head? (matches_ "rsa_bits").head?
  else if oneOf rtype ["aws_acm_certificate"] then
    eachMatch "key_algorithm" (acmRating tables) (matches_ "key_algorithm")
  else if startsWith rtype "google_privateca" then
    eachMatch "algorithm" (privatecaRating tables) (matches_ "algorithm")
  else if oneOf rtype ["azurerm_key_vault_key"] then
    vaultKeyHits tables (matches_ "key_type").head? (matches_ "key_size").head?
  else some []

end Values

/-! ## Declarations -/

/-- A declaration: its place and its type in lower case. -/
structure Decl where
  start : Nat
  rtype : List Char

/-- `_snippet`. -/
def snippet (text : List Char) (pos : Nat) : List Char :=
  let before := ((text.take pos).reverse.takeWhile (· != '\n')).reverse
  let after := (text.drop pos).takeWhile (· != '\n')
  (strip (before ++ after)).take 160

/-- What a finding says. -/
structure Report where
  rtype : List Char
  field : String
  value : List Char
  algorithm : List Char
  cls : Classification
  line : Nat
  snippet : List Char
  deriving DecidableEq

section Scans

variable (tables : CaseTables) (text : List Char)

/-- The declarations of a text in their order. -/
def decls : List Decl :=
  (resourceRe.finditer text).map fun found => ⟨found.start, tables.lower found.detail.2⟩

/-- Each declaration with the end of its block. -/
def blocks (size : Nat) : List Decl → List (Decl × Nat)
  | [] => []
  | [decl] => [(decl, size)]
  | decl :: next :: rest => (decl, next.start) :: blocks size (next :: rest)

/-- `add` of `_scan_block`. -/
def toReport (decl : Decl) (hit : Hit) : Report where
  rtype := decl.rtype
  field := hit.field
  value := hit.value
  algorithm := hit.algorithm
  cls := hit.cls
  line := (text.take (decl.start + hit.pos)).count '\n' + 1
  snippet := snippet text (decl.start + hit.pos)

/-- `_scan_block`. -/
def scanBlock (block : Decl × Nat) : Option (List Report) :=
  let slice := (text.take block.2).drop block.1.start
  (blockHits tables block.1.rtype fun field => (fieldRe field).finditer slice).map
    (List.map (toReport text block.1))

/-- The declarations of a text with the ends of their blocks. -/
def declared : List (Decl × Nat) := blocks text.length (decls tables text)

end Scans

/-- The finding of a report. -/
def Report.toFinding (report : Report) (path : Path) (now : DateTime) : Finding where
  probeId := "fs.iac.terraform"
  algorithm := String.ofList report.algorithm
  classification := report.cls
  severity := sevFor report.cls
  title := "terraform " ++ String.ofList report.rtype ++ " " ++ report.field ++ "=" ++
    String.ofList report.value ++ " (" ++ String.ofList report.algorithm ++
    ") in " ++ path.str ++
    ":" ++ toString report.line
  evidence := Dict.ofList [("path", .str path.str), ("line", .int report.line),
    ("resource", .str (String.ofList report.rtype)), ("field", .str report.field),
    ("value", .str (String.ofList report.value)),
    ("snippet", .str (String.ofList report.snippet))]
  createdAt := now

/-- The findings of a declaration; nothing stands for a `ValueError`. -/
def declFindings (tables : CaseTables) (now : DateTime) (path : Path) (text : List Char)
    (block : Decl × Nat) : Option (List Finding) :=
  (scanBlock tables text block).map (List.map (·.toFinding path now))

/-- `FsIacTerraform`: the limit ends the scan of a file, a `ValueError` ends the run. -/
def fsIacTerraform (tables : CaseTables) (now : DateTime) : FileProbe where
  patterns := [fun path => endsWith path.name ".tf", fun path =>
    endsWith path.name ".tf.json"]
  scanFile path text :=
    emitAll maxPerFile (declFindings tables now path text) 0 (declared tables text)
  halts ending := ending == .failed

end Probes
end PqcScan
