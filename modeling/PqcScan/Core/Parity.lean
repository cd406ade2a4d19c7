import PqcScan.Core.Types
import PqcScan.Python.Str

/-!
# Host-agnostic identity of a finding and drift between two scans

The parity key of `core/parity.py`: a title with host names, addresses and
`at <host>` phrases removed, so that the same finding on two hosts, or on one
host at two times, has one key.  `driftRows` lists the keys two scans do not
share.
-/

namespace PqcScan
namespace Core

open Library Python

/-- `DRIFT_PROBE`. -/
def driftProbe : String := "fleet.drift"

/-- `MAX_TITLE_NORMALISE`. -/
def maxTitleNormalise : Nat := 512

/-- `MAX_DRIFT_ROWS`. -/
def maxDriftRows : Nat := 500

/-- `MAX_DRIFT_NORMALISE`. -/
def maxDriftNormalise : Nat := 50000

/-! ## Token patterns -/

/-- `[0-9a-fA-F]`. -/
def isHexDigit (char : Char) : Bool :=
  char.isDigit || ('a' ≤ char && char ≤ 'f') || ('A' ≤ char && char ≤ 'F')

/-- `[A-Za-z0-9]`. -/
def isAsciiAlnum (char : Char) : Bool := char.isAlphanum

/-- `\w`. -/
def isWord (text : Text) (char : Char) : Bool :=
  text.isAlnum char || char == '_'

/-- `_IPV4`: four groups of one to three decimal digits. -/
def isIpv4 (text : Text) (chars : List Char) : Bool :=
  let groups := chars.splitOn '.'
  groups.length == 4 && groups.all (spans 1 3 text.isDecimal)

/-- `_H16`. -/
def isH16 (chars : List Char) : Bool := spans 1 4 isHexDigit chars

/-- `_IPV6` on the parts between colons: eight groups, or at most six groups,
an empty part, and then nothing or one to six groups. -/
def isIpv6Parts (parts : List (List Char)) : Bool :=
  (parts.length == 8 && parts.all isH16) ||
    (let leading := parts.takeWhile isH16
     leading.length ≤ 6 &&
      match parts.drop leading.length with
      | [] :: [[]] => true
      | [] :: first :: rest =>
          (first :: rest).length ≤ 6 && (first :: rest).all isH16
      | _ => false)

/-- `_LITERAL.fullmatch`. -/
def isLiteral (text : Text) (chars : List Char) : Bool :=
  isIpv4 text chars || isIpv6Parts (chars.splitOn ':')

/-- The host part of `_HOSTPORT`. -/
def isHostPart (text : Text) (chars : List Char) : Bool :=
  (match chars with
    | '[' :: rest =>
        rest.getLast? == some ']' &&
          spans 1 rest.length (fun char => isHexDigit char || char == ':')
            rest.dropLast
    | _ => false) ||
  isIpv4 text chars ||
  (match chars with
    | first :: rest =>
        isAsciiAlnum first &&
          rest.all fun char =>
            isAsciiAlnum char || char == '.' || char == '_' || char == '-'
    | [] => false)

/-- Split at the last colon: what precedes it, and what follows it. -/
def splitLastColon (chars : List Char) : Option (List Char × List Char) :=
  match (chars.splitOn ':').reverse with
  | last :: before :: rest =>
      some ([':'].intercalate (before :: rest).reverse, last)
  | _ => none

/-- `_HOSTPORT.fullmatch`: the port of a `host:port` token. -/
def hostPort (text : Text) (chars : List Char) : Option (List Char) :=
  match splitLastColon chars with
  | some (host, port) =>
      if spans 1 5 text.isDecimal port && isHostPart text host then some port
      else none
  | none => none

/-- `_NAME.match`: what follows the longest leading name. -/
def afterName (text : Text) (chars : List Char) : Option (List Char) :=
  match chars with
  | first :: rest =>
      if isAsciiAlnum first then
        some (rest.dropWhile fun char =>
          isWord text char || char == '.' || char == '-')
      else none
  | [] => none

/-! ## Title normalisation -/

/-- What may stand before a port in a title. -/
def openers : List Char := ['(', Char.ofNat 0x22, Char.ofNat 0x27]

/-- What may stand behind a port in a title. -/
def closers : List Char :=
  [',', ';', '.', ')', Char.ofNat 0x22, Char.ofNat 0x27]

/-- `_norm_token`. -/
def normToken (text : Text) (token : List Char) (afterAt : Bool) : List Char :=
  let lead := token.takeWhile (openers.contains ·)
  let stripped := token.dropWhile (openers.contains ·)
  let tail := (stripped.reverse.takeWhile (closers.contains ·)).reverse
  let core := (stripped.reverse.dropWhile (closers.contains ·)).reverse
  let replaced :=
    match hostPort text core with
    | some port => "<host>:".toList ++ port
    | none =>
        if isLiteral text core then "<host>".toList
        else if afterAt then
          match afterName text core with
          | some rest => "<host>".toList ++ rest
          | none => core
        else core
  lead ++ replaced ++ tail

/-- The rest of `chars` after a case-insensitive occurrence of `host`. -/
def dropHost (text : Text) : List Char → List Char → Option (List Char)
  | [], rest => some rest
  | _ :: _, [] => none
  | expected :: host, char :: rest =>
      if text.sameCase expected char then dropHost text host rest else none

/-- Replace the occurrences of `host` that no name character touches.
`before` is the character to the left; `skip` characters belong to an
occurrence already replaced. -/
def replaceHost (text : Text) (host : List Char) :
    Nat → Option Char → List Char → List Char
  | _, _, [] => []
  | skip + 1, _, char :: rest => replaceHost text host skip (some char) rest
  | 0, before, char :: rest =>
      let free := match before with
        | some left => !(isWord text left || left == '.' || left == '-')
        | none => true
      let closed := fun after : List Char => match after with
        | right :: _ => !(isWord text right || right == '-')
        | [] => true
      match dropHost text host (char :: rest) with
      | some after =>
          if free && closed after then
            "<host>".toList ++ replaceHost text host (host.length - 1) (some char) rest
          else char :: replaceHost text host 0 (some char) rest
      | none => char :: replaceHost text host 0 (some char) rest

/-- `str.split()`. -/
def splitWords (chars : List Char) : List (List Char) :=
  (chars.splitOnP isSpace).filter (!·.isEmpty)

/-- The loop of `_norm_title` over the tokens of a title. -/
def normTokens (text : Text) : Bool → List (List Char) → List (List Char)
  | _, [] => []
  | afterAt, token :: rest =>
      let normed := normToken text token afterAt
      normed :: normTokens text (normed == "at".toList) rest

/-- `_norm_title`. -/
def normTitle (text : Text) (title host : String) : List Char :=
  let examined := title.toList.take maxTitleNormalise
  let hostless :=
    if host = "" then examined
    else replaceHost text (host.toList.take 253) 0 none examined
  [' '].intercalate (normTokens text false (splitWords hostless))

/-- `str(evidence.get(key) or "")`. -/
def evidenceStr (text : Text) (evidence : Dict String Json) (key : String) :
    String :=
  match evidence.get? key with
  | some value => if value.truthy then value.toStr text else ""
  | none => ""

/-- Identity of a finding that survives a change of host. -/
abbrev ParityKey := String × String × String

/-- `parity_key`. -/
def parityKey (text : Text) (row : ParityRow) : ParityKey :=
  match row.evidence.get? "path" with
  | some path =>
      if path.truthy then
        (row.probeId, row.algorithm,
          "path=" ++ String.ofList ((path.toStr text).toList.take maxTitleNormalise))
      else titleKey
  | none => titleKey
where
  titleKey : ParityKey :=
    let norm := normTitle text row.title (evidenceStr text row.evidence "host")
    let endpoint :=
      (evidenceStr text row.evidence "endpoint").toList.take maxTitleNormalise
    let port := match splitLastColon endpoint with
      | some (_, last) => last
      | none => endpoint
    let stated := norm.tails.any ((':' :: port).isPrefixOf ·)
    let marked :=
      if spans 1 5 Char.isDigit port && !stated then
        norm ++ " [:".toList ++ port ++ [']']
      else norm
    (row.probeId, row.algorithm, String.ofList marked)

/-! ## Drift -/

/-- `{key(row): row}`: one row per key, the last one. -/
def rowsByKey (text : Text) (rows : List ParityRow) : Dict ParityKey ParityRow :=
  Dict.ofList (rows.map fun row => (parityKey text row, row))

/-- `_summary`. -/
def driftSummary (now : DateTime) (added removed : Nat) : Finding where
  probeId := driftProbe
  algorithm := "N/A"
  classification := .info
  severity := .info
  title := s!"drift: {added} added, {removed} removed (truncated)"
  evidence := Dict.ofList
    [("change", .str "summary"), ("added", .int added),
      ("removed", .int removed), ("truncated", .bool true)]
  createdAt := now

/-- `_drift`. -/
def driftRow (now : DateTime) (change : String) (row : ParityRow) : Finding where
  probeId := driftProbe
  algorithm := "N/A"
  classification := .info
  severity := .info
  title := "drift: " ++ change ++ " " ++ row.probeId ++ " " ++ row.algorithm
  evidence := Dict.ofList
    [("change", .str change), ("probe_id", .str row.probeId),
      ("algorithm", .str row.algorithm),
      ("title", .str (String.ofList (row.title.toList.take maxTitleNormalise)))]
  createdAt := now

/-- A changed key: the direction, the key and a row that carries it. -/
structure Change where
  change : String
  key : ParityKey
  row : ParityRow

/-- The sort key of a change. -/
def Change.order (change : Change) : List String :=
  [change.change, change.key.1, change.key.2.1, change.key.2.2]

/-- The keys of one side that the other side lacks. -/
def changesOf (label : String) (side other : Dict ParityKey ParityRow) :
    List Change :=
  (side.entries.filter fun entry => !other.keys.contains entry.1).map
    fun entry => ⟨label, entry.1, entry.2⟩

/-- `drift_rows`: the drift findings from `previous` to `current`, and the
true number of changes.  `now` gives the creation time of each row. -/
def driftRows (text : Text) (now : Nat → DateTime)
    (previous current : List ParityRow) : List Finding × Nat :=
  let prevRows := previous.filter (·.probeId != driftProbe)
  let curRows := current.filter (·.probeId != driftProbe)
  if prevRows.length + curRows.length > maxDriftNormalise then
    let raw := fun row : ParityRow => (row.probeId, row.algorithm, row.title)
    let before := (prevRows.map raw).eraseDups
    let after := (curRows.map raw).eraseDups
    let added := (after.filter (!before.contains ·)).length
    let removed := (before.filter (!after.contains ·)).length
    (if added + removed = 0 then [] else [driftSummary (now 0) added removed],
      added + removed)
  else
    let prev := rowsByKey text prevRows
    let cur := rowsByKey text curRows
    let changes :=
      (changesOf "added" cur prev ++ changesOf "removed" prev cur).mergeSort
        fun left right => !decide (right.order < left.order)
    let rows := (changes.take maxDriftRows).mapIdx fun index change =>
      driftRow (now index) change.change change.row
    let added := (changes.filter (·.change == "added")).length
    (if changes.length > maxDriftRows then
        rows ++ [driftSummary (now maxDriftRows) added (changes.length - added)]
      else rows,
      changes.length)

end Core
end PqcScan
