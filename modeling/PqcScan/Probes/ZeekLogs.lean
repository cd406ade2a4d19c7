import Mathlib.Data.List.DropRight
import Mathlib.Data.List.Dedup
import PqcScan.Core.Alg
import PqcScan.Library.FirstSeen
import PqcScan.Probes.Severity
import PqcScan.Python.Value

/-!
# Logs of Zeek

`FsZeekLogs` of `fs_zeek_logs.py` on the `ssl.log` and the `x509.log`: the rows of a log,
written in columns or as JSON, and what is observed in them.
-/

namespace PqcScan
namespace Probes
namespace FsZeekLogs

open Library Python PqcScan.Core

/-! ## Caps -/

/-- `_MAX_LINES_PER_FILE`. -/
def maxLinesPerFile : Nat := 500000

/-- `_MAX_FINDINGS`. -/
def maxFindings : Nat := 500

/-! ## Tiers -/

/-- `_WEAK_VERSION_TOKENS`. -/
def weakVersionTokens : List String := ["ssl2", "ssl3", "tls10", "tls11"]

/-- `_PQC_CURVE_FRAGMENTS`. -/
def pqcCurveFragments : List String :=
  ["mlkem", "ml-kem", "kyber", "frodo", "bike", "hqc", "sntrup"]

/-- `_should_emit`. -/
def shouldEmit (cls : Classification) : Bool :=
  cls = .sangatTinggi || cls = .tinggi || cls = .pqcReady

/-- `_norm_version`. -/
def normVersion (version : List Char) : List Char :=
  (((lower version).filter (· != ' ')).filter (· != '.')).filter
    (· != '-') |>.filter (· != 'v')

/-- `_classify_version`. -/
def classifyVersion (version : List Char) : Option Classification :=
  if oneOf (normVersion version) weakVersionTokens then some .sangatTinggi else none

/-- `_classify_curve`. -/
def classifyCurve (name : List Char) : Classification :=
  let low := lower name
  if pqcCurveFragments.any (contains low) then .pqcReady
  else if classify name ≠ .info then classify name
  else if contains low "25519" || contains low "448" then .tinggi
  else .info

/-! ## Rows -/

/-- A row: the columns by name, or the object of a line. -/
abbrev Row := Dict String Json

/-- `text.split(separator)` for a separator that is not empty, with the number of cuts. -/
def splitBy (separator : List Char) : Nat → List Char → List (List Char)
  | 0, text => [text]
  | count + 1, text =>
      match cut separator text with
      | none => [text]
      | some (front, rest) => front :: splitBy separator count rest

/-- `text.split(separator)`, or nothing for the `ValueError` of an empty separator. -/
def split (separator text : List Char) : Option (List (List Char)) :=
  if separator = [] then none else some (splitBy separator text.length text)

/-- `raw_line.rstrip("\n").rstrip("\r")`. -/
def chomp (rawLine : List Char) : List Char :=
  (rawLine.rdropWhile (· == '\n')).rdropWhile (· == '\r')

/-- `line.lstrip().startswith("{")`. -/
def opensObject (line : List Char) : Bool := (line.dropWhile isSpace).head? == some '\x7b'

/-- `_cell` of a value that is not missing. -/
def cellOf (value : List Char) : Option (List Char) :=
  let text := strip value
  if oneOf text ["", "-", "(empty)"] then none else some text

/-- What the readers use of the standard library. -/
structure Readers extends Text where
  /-- `json.loads`, or nothing for a `ValueError`. -/
  loads : List Char → Option Json
  /-- `bytes(raw, "utf-8").decode("unicode_escape")`, or nothing for an error. -/
  unicodeEscape : List Char → Option (List Char)

/-- The formats of a log. -/
inductive Mode
  | json
  | tsv
  deriving DecidableEq

/-- The variables of `_iter_rows`. -/
structure Reader where
  mode : Option Mode
  separator : List Char
  fields : Option (List (List Char))

/-- Before the first line. -/
def Reader.start : Reader := ⟨none, ['\t'], none⟩

section Reading

variable (readers : Readers)

/-- `_cell`. -/
def cell (row : Row) (key : String) : Option (List Char) :=
  match row.get? key with
  | none => none
  | some .null => none
  | some value => cellOf (value.toStr readers.toText).toList

/-- `_decode_separator`. -/
def decodeSeparator (raw : List Char) : List Char :=
  (readers.unicodeEscape raw).getD ['\t']

/-- A comment of a log in columns; nothing stands for a `ValueError`. -/
def readComment (reader : Reader) (line : List Char) : Option Reader :=
  if startsWith line "#separator" then
    match cut [' '] line with
    | some (_, raw) =>
        some { reader with separator := decodeSeparator readers (strip raw) }
    | none => some reader
  else if startsWith line "#fields" then
    (split reader.separator line).map fun parts =>
      { reader with fields := some parts.tail }
  else some reader

/-- `dict(zip(fields, cols, strict=False))`. -/
def rowOf (fields cols : List (List Char)) : Row :=
  Dict.ofList ((fields.map String.ofList).zip (cols.map fun col =>
    .str (String.ofList col)))

/-- A line that is not blank; nothing stands for a `ValueError`. -/
def readFilled (reader : Reader) (line : List Char) : Option (Reader × Option Row) :=
  if reader.mode = some .json then
    match readers.loads line with
    | some (.object members) => some (reader, some (Dict.ofList members))
    | _ => some (reader, none)
  else if startsWith line "#" then (readComment readers reader line).map fun reader =>
    (reader, none)
  else
    match reader.fields with
    | none => some (reader, none)
    | some fields => (split reader.separator line).map fun cols =>
        (reader, some (rowOf fields cols))

/-- The body of the loop of `_iter_rows`. -/
def readLine (reader : Reader) (rawLine : List Char) : Option (Reader × Option Row) :=
  let line := chomp rawLine
  if line = [] then some (reader, none)
  else
    let mode := reader.mode.getD (if opensObject line then .json else .tsv)
    readFilled readers { reader with mode := some mode } line

/-- The rows of the lines, and whether a line raised. -/
def rowsFrom (reader : Reader) : List (List Char) → List Row × Bool
  | [] => ([], false)
  | rawLine :: handle =>
      match readLine readers reader rawLine with
      | none => ([], true)
      | some (reader, row) =>
          let later := rowsFrom reader handle
          (row.toList ++ later.1, later.2)

/-- `_iter_rows`. -/
def iterRows (handle : List (List Char)) : List Row × Bool :=
  rowsFrom readers .start (handle.take maxLinesPerFile)

/-! ## Observations -/

/-- `_Obs`: the algorithm, its tier and the observed value. -/
abbrev Obs := List Char × Classification × List Char

/-- An observation of a value that is classified, with the name it is given. -/
def observe (value : Option (List Char)) (tier : List Char → Classification)
    (name : List Char → List Char) : List Obs :=
  value.toList.filterMap fun text =>
    if shouldEmit (tier text) then some (name text, tier text, text) else none

/-- `_analyze_ssl`. -/
def analyzeSsl (row : Row) : List Obs :=
  ((cell readers row "version").toList.filterMap fun version =>
    (classifyVersion version).map fun cls => (version, cls, version)) ++
  observe (cell readers row "cipher") classifySuite id ++
  observe (cell readers row "curve") classifyCurve id

/-- `_analyze_x509`. -/
def analyzeX509 (row : Row) : List Obs :=
  observe (cell readers row "certificate.sig_alg") classify normalise ++
  observe (cell readers row "certificate.key_alg") classify normalise ++
  observe (cell readers row "certificate.curve") classifyCurve id

/-- The logs of Zeek. -/
inductive Source
  | ssl
  | x509
  deriving DecidableEq

/-- `analyze`. -/
def analyze : Source → Row → List Obs
  | .ssl => analyzeSsl readers
  | .x509 => analyzeX509 readers

/-- `_context`. -/
structure Context where
  server : Option (List Char)
  respH : Option (List Char)
  respP : Option (List Char)
  deriving DecidableEq

/-- Where a row was seen. -/
def context : Source → Row → Context
  | .x509, row => ⟨cell readers row "san.dns", none, none⟩
  | .ssl, row =>
      ⟨cell readers row "server_name", cell readers row "id.resp_h",
        cell readers row "id.resp_p"⟩

/-- `server or resp_h or …`. -/
def Context.endpoint (context : Context) (unknown : String) : List Char :=
  (context.server.or context.respH).getD unknown.toList

/-- What a finding is made of. -/
structure Observed where
  source : Source
  context : Context
  obs : Obs
  deriving DecidableEq

/-- The key of a finding: endpoint, algorithm and source. -/
def Observed.key (observed : Observed) : List Char × List Char × Source :=
  (observed.context.endpoint "-", observed.obs.1, observed.source)

/-- The observations of a row. -/
def rowObservations (source : Source) (row : Row) : List Observed :=
  (analyze readers source row).map fun obs => ⟨source, context readers source row, obs⟩

/-! ## Findings -/

/-- What is emitted: a finding, the counts of a log, or the note
that the cap was reached. -/
inductive Event
  | finding (observed : Observed)
  | ingested (source : Source) (rows endpoints : Nat)
  | truncated
  deriving DecidableEq

/-- The keys seen and the findings emitted so far. -/
abbrev Emission := Reporting Observed (List Char × List Char × Source)

/-- The loop of `_scan_file` over the rows. -/
def scanRows (source : Source) (emission : Emission) (rows : List Row) : Emission :=
  rows.foldl (fun emission row =>
    (rowObservations readers source row).foldl
      (Reporting.visit Observed.key maxFindings) emission)
    emission

/-- The number of distinct endpoints. -/
def endpointCount (source : Source) (rows : List Row) : Nat :=
  (rows.map fun row => (context readers source row).endpoint "-").dedup.length

/-- The counts of a log, unless it has no rows. -/
def ingested (source : Source) (rows : List Row) : List Event :=
  if rows = [] then []
  else [.ingested source rows.length (endpointCount readers source rows)]

/-- `run` on a log: `_scan_file`, and the note at the cap.  A line that raises ends it,
unless the cap came first. -/
def run (source : Source) (handle : List (List Char)) : List Event :=
  let rows := iterRows readers handle
  let emission := scanRows readers source .start rows.1
  emission.reports.map .finding ++
    if emission.capped then [.truncated]
    else if rows.2 then []
    else ingested readers source rows.1 ++
      if maxFindings ≤ emission.reports.length then [.truncated] else []

end Reading

end FsZeekLogs
end Probes
end PqcScan
