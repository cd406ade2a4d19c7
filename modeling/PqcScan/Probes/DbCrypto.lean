import PqcScan.Core.Names
import PqcScan.Library.FirstSeen
import PqcScan.Library.Patterns
import PqcScan.Library.Fences
import PqcScan.Probes.Severity
import PqcScan.Python.Files
import PqcScan.Python.Value

/-!
# Keys and certificates in databases

`FsDbCrypto` of `fs_db_crypto.py`: the PEM blocks and the ssh keys of a cell, and what is
emitted of a database.  The loaders of keys are parameters.
-/

namespace PqcScan
namespace Probes
namespace FsDbCrypto

open Library Python PqcScan.Core

/-! ## Caps -/

/-- `_MAX_FINDINGS_PER_DB`. -/
def maxFindingsPerDb : Nat := 200

/-- `_MAX_VALUE_BYTES`. -/
def maxValueBytes : Nat := 1024 * 1024

/-- `_MAX_ROWS_PER_TABLE`. -/
def maxRowsPerTable : Nat := 50000

/-- `_MAX_TABLES`. -/
def maxTables : Nat := 4096

/-- `_MAX_TEXT_BYTES`. -/
def maxTextBytes : Nat := 64 * 1024 * 1024

/-! ## Patterns -/

/-- `[A-Z0-9 ]`. -/
def isLabelChar (char : Char) : Bool := char.isUpper || char.isDigit || char == ' '

/-- The marker before a block. -/
def beginMarker (label : List Char) : List Char :=
  "-----BEGIN ".toList ++ label ++ "-----".toList

/-- The marker behind a block. -/
def endMarker (label : List Char) : List Char :=
  "-----END ".toList ++ label ++ "-----".toList

/-- `_PEM_BLOCK_RE`, with its label and the block: the label is what stands before the
dashes, and the block ends at the first marker with the same label. -/
def pemBlock : Matcher Char (List Char × List Char) := fun _ text =>
  if "-----BEGIN ".toList.isPrefixOf text then
    let named := text.drop "-----BEGIN ".toList.length
    let label := named.takeWhile isLabelChar
    let dashed := named.dropWhile isLabelChar
    if label ≠ [] ∧ "-----".toList.isPrefixOf dashed then
      (firstAt (endMarker label) (dashed.drop 5)).map fun place =>
        let length := (beginMarker label).length + place + (endMarker label).length
        (length, label, text.take length)
    else none
  else none

/-- `[A-Za-z0-9+/=]`. -/
def isBase64Char (char : Char) : Bool :=
  char.isAlphanum || char == '+' || char == '/' || char == '='

/-- `[a-z0-9-]`. -/
def isCurveChar (char : Char) : Bool := char.isLower || char.isDigit || char == '-'

/-- A literal. -/
def spelled (word : String) : List (Library.Piece Char) :=
  word.toList.map fun char => .one (· == char)

/-- `ssh-rsa|ssh-ed25519|ssh-dss|ecdsa-sha2-[a-z0-9-]+`. -/
def sshTokens : List (List (Library.Piece Char)) :=
  [spelled "ssh-rsa", spelled "ssh-ed25519", spelled "ssh-dss",
    spelled "ecdsa-sha2-" ++ [.one isCurveChar, .many isCurveChar]]

/-- `\s+[A-Za-z0-9+/=]{20,}`. -/
def sshTail : List (Library.Piece Char) :=
  .one isSpace :: .many isSpace ::
    (List.replicate 20 (.one isBase64Char) ++ [.many isBase64Char])

/-- `_SSH_KEY_RE`, with `isWord` for `\w`. -/
def sshKey (isWord : Char → Bool) : Matcher Char (Nat × List Char) :=
  Matcher.guarded isWord <| Matcher.first (sshTokens.map fun token =>
    Matcher.capture [] token sshTail)

/-! ## Hits -/

/-- `_PRIV_LABEL_MAP`. -/
def privLabelMap : List (String × String) :=
  [("RSA PRIVATE KEY", "RSA"), ("EC PRIVATE KEY", "EC"), ("DSA PRIVATE KEY", "DSA"),
    ("ENCRYPTED PRIVATE KEY", "encrypted-PKCS8"), ("PRIVATE KEY", "PKCS8"),
    ("OPENSSH PRIVATE KEY", "OpenSSH")]

/-- `_SSH_ALG_MAP`. -/
def sshAlgMap : List (String × String) :=
  [("ssh-rsa", "RSA"), ("ssh-ed25519", "Ed25519"), ("ssh-dss", "DSA")]

/-- The kinds of a hit. -/
inductive Kind
  | cert
  | privateKey
  | publicKey
  | sshKey
  deriving DecidableEq

/-- The text of a kind in the evidence. -/
def Kind.str : Kind → String
  | .cert => "cert"
  | .privateKey => "private_key"
  | .publicKey => "public_key"
  | .sshKey => "ssh_key"

/-- `_Hit`. -/
structure Hit where
  kind : Kind
  algorithm : List Char
  classification : Classification
  keyType : List Char
  dedup : List Char
  fingerprint : Option (List Char)
  deriving DecidableEq

/-- What the probe uses of `cryptography`; nothing stands for an exception. -/
structure KeyLoaders where
  /-- The algorithm and the fingerprint of a certificate. -/
  certificate : Bytes → Option (List Char × List Char)
  /-- `load_ssh_private_key` and the algorithm of the key. -/
  sshPrivate : Bytes → Option (List Char)
  /-- `load_pem_private_key`. -/
  pemPrivate : Bytes → Option (List Char)
  /-- `load_pem_public_key`. -/
  pemPublic : Bytes → Option (List Char)

/-- `encode("latin-1")`, or nothing for a `UnicodeEncodeError`. -/
def encodeLatin1 (text : List Char) : Option Bytes :=
  if text.all fun char => char.toNat < 256 then
    some (text.map fun char => UInt8.ofNat char.toNat)
  else none

/-- `decode("latin-1", "ignore")`. -/
def decodeLatin1 (raw : Bytes) : List Char := raw.map fun byte => Char.ofNat byte.toNat

section Scans

variable (loaders : KeyLoaders) (isWord : Char → Bool)

/-- `_cert_hit`. -/
def certHit (block : List Char) : Option Hit :=
  ((encodeLatin1 block).bind loaders.certificate).map fun cert =>
    { kind := .cert
      algorithm := cert.1
      classification := classify cert.1
      keyType := "certificate".toList
      dedup := "cert:".toList ++ cert.2
      fingerprint := some cert.2 }

/-- `_PRIV_LABEL_MAP.get(label, "private-key")`. -/
def privateKeyType (label : List Char) : List Char :=
  (lookupName privLabelMap label).getD "private-key".toList

/-- What is said of a key that cannot be loaded. -/
def coarseFamily (keyType : List Char) : List Char :=
  (lookupName [("RSA", "RSA"), ("EC", "ECDSA"), ("DSA", "DSA")] keyType).getD keyType

/-- `_try_private_alg`; nothing stands for a `UnicodeEncodeError`. -/
def tryPrivateAlg (block keyType : List Char) : Option (List Char) :=
  (encodeLatin1 block).map fun raw =>
    ((if oneOf keyType ["OpenSSH"] then loaders.sshPrivate raw
      else loaders.pemPrivate raw)).getD
      (coarseFamily keyType)

/-- `_private_key_hit`; nothing stands for a `UnicodeEncodeError`. -/
def privateKeyHit (label block : List Char) : Option Hit :=
  let keyType := privateKeyType label
  (tryPrivateAlg loaders block keyType).map fun alg =>
    { kind := .privateKey
      algorithm := alg
      classification := .sangatTinggi
      keyType := keyType
      dedup := "privkey:".toList ++ keyType
      fingerprint := none }

/-- `_public_key_hit`. -/
def publicKeyHit (block : List Char) : Option Hit :=
  ((encodeLatin1 block).bind loaders.pemPublic).map fun alg =>
    { kind := .publicKey
      algorithm := alg
      classification := classify alg
      keyType := "public-key".toList
      dedup := "pubkey:".toList ++ alg
      fingerprint := none }

/-- `_ssh_hit`. -/
def sshHit (token : List Char) : Hit :=
  let alg := if startsWith token "ecdsa-sha2-" then "ECDSA".toList
    else (lookupName sshAlgMap token).getD token
  { kind := .sshKey
    algorithm := alg
    classification := classify alg
    keyType := "ssh:".toList ++ token
    dedup := "sshkey:".toList ++ token
    fingerprint := none }

/-- The label of a private key. -/
def isPrivateLabel (label : List Char) : Bool :=
  !oneOf (strip label) ["CERTIFICATE"] && endsWith (strip label) "PRIVATE KEY"

/-- The loop of `_scan_value` over a block; the outer option stands for a
`UnicodeEncodeError`. -/
def blockHit (label block : List Char) : Option (Option Hit) :=
  let label := strip label
  if oneOf label ["CERTIFICATE"] then some (certHit loaders block)
  else if endsWith label "PRIVATE KEY" then (privateKeyHit loaders label block).map some
  else if oneOf label ["PUBLIC KEY"] then some (publicKeyHit loaders block)
  else some none

/-- `_scan_value`; nothing stands for a `UnicodeEncodeError`. -/
def scanValue (text : List Char) : Option (List Hit) :=
  let window := text.take maxValueBytes
  ((pemBlock.finditer window).mapM fun found =>
    blockHit loaders found.detail.1 found.detail.2).map
    fun blocks => blocks.filterMap id ++
      ((sshKey isWord).finditer window).map fun found => sshHit found.detail.2

end Scans

/-! ## Sources -/

/-- A value of a row. -/
inductive CellValue
  | text (value : List Char)
  | blob (value : Bytes)
  | other

/-- `_cell_to_text`. -/
def cellToText : CellValue → Option (List Char)
  | .text value => some value
  | .blob value => some (decodeLatin1 value)
  | .other => none

/-- A table as the library reads it. -/
structure DbTable where
  name : List Char
  columns : List (List Char)
  rows : List (List CellValue)

/-- A text to scan, with its table and column. -/
structure Cell where
  table : Option (List Char)
  column : Option (List Char)
  text : List Char

/-- `columns[col_idx] if col_idx < len(columns) else f"col{col_idx}"`. -/
def columnName (columns : List (List Char)) (index : Nat) : List Char :=
  (columns[index]?).getD ("col".toList ++ (toString index).toList)

/-- The texts of a row. -/
def rowCells (table : DbTable) (row : List CellValue) : List Cell :=
  row.zipIdx.filterMap fun value =>
    (cellToText value.1).map fun text =>
      ⟨some table.name, some (columnName table.columns value.2), text⟩

/-- The texts of `_iter_table_hits`. -/
def tableCells (table : DbTable) : List Cell :=
  (table.rows.take maxRowsPerTable).flatMap (rowCells table)

/-- What is scanned: the tables of a database, or a dump. -/
inductive Source
  | sqlite (tables : List DbTable)
  | dump (raw : Bytes)

/-- The texts of `_iter_sqlite_hits` or `_iter_text_hits` in their order. -/
def Source.cells : Source → List Cell
  | .sqlite tables => (tables.take maxTables).flatMap tableCells
  | .dump raw => [⟨none, none, decodeLatin1 (raw.take maxTextBytes)⟩]

/-- A hit with its table and column. -/
structure Located where
  table : Option (List Char)
  column : Option (List Char)
  hit : Hit
  deriving DecidableEq

/-- The key of `_emit_source`. -/
def Located.key (located : Located) :
    Option (List Char) × Option (List Char) × List Char :=
  (located.table, located.column, located.hit.dedup)

section Emission

variable (loaders : KeyLoaders) (isWord : Char → Bool)

/-- The hits of a cell; nothing stands for a `UnicodeEncodeError`. -/
def cellHits (cell : Cell) : Option (List Located) :=
  (scanValue loaders isWord cell.text).map (List.map fun hit =>
    ⟨cell.table, cell.column, hit⟩)

/-- The hits before the first cell that raises. -/
def hitsOf : List Cell → List Located
  | [] => []
  | cell :: cells =>
      match cellHits loaders isWord cell with
      | none => []
      | some hits => hits ++ hitsOf cells

/-- `_finding`. -/
def toFinding (now : DateTime) (path : Path) (located : Located) : Finding :=
  let hit := located.hit
  let loc := match located.table with
    | some table => String.ofList table ++ "." ++
        (located.column.elim "None" String.ofList)
    | none => "(sql-dump)"
  let shown := fun text : Option (List Char) => text.elim Json.null fun text =>
    .str (String.ofList text)
  let evidence := [("path", .str path.str), ("table", shown located.table),
    ("column", shown located.column), ("key_type", .str (String.ofList hit.keyType))]
  { probeId := "fs.db.crypto"
    algorithm := String.ofList hit.algorithm
    classification := hit.classification
    severity := sevFor hit.classification
    title :=
      if hit.kind = .privateKey then
        "private key material stored in DB column " ++ loc ++ " (" ++
          String.ofList hit.keyType ++ ")"
      else hit.kind.str ++ " in DB column " ++ loc ++ ": " ++ String.ofList hit.algorithm
    evidence := Dict.ofList <|
      if hit.kind = .privateKey then evidence
      else evidence ++ hit.fingerprint.toList.map fun print =>
        ("fingerprint", .str (String.ofList print))
    createdAt := now }

/-- The note that the cap was reached. -/
def capNote (now : DateTime) (path : Path) : Finding where
  probeId := "fs.db.crypto"
  algorithm := "N/A"
  classification := .info
  severity := sevFor .info
  title := "finding cap (" ++ toString maxFindingsPerDb ++
    ") reached — DB crypto output truncated"
  evidence := Dict.ofList [("path", .str path.str), ("cap", .int maxFindingsPerDb)]
  createdAt := now

/-- The loop of `_emit_source`. -/
def emission (source : Source) :
    Reporting Located (Option (List Char) × Option (List Char) × List Char) :=
  Reporting.run Located.key maxFindingsPerDb (hitsOf loaders isWord source.cells)

/-- `_emit_source`. -/
def emitSource (now : DateTime) (path : Path) (source : Source) : List Finding :=
  let emitted := emission loaders isWord source
  emitted.reports.map (toFinding now path) ++ if emitted.capped then [capNote now path]
    else []

end Emission

end FsDbCrypto
end Probes
end PqcScan
