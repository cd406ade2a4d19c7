import PqcScan.Store.Summary

/-!
# SARIF

`renderers/sarif.py`: one result for each finding of a scan, one rule for each probe among
them, in the order in which the probes first occur.
-/

namespace PqcScan
namespace Renderers
namespace Sarif

open Library Python PqcScan.Core Store

/-- `_INFO_URI`. -/
def infoUri : String := "https://github.com/orengacademy/pqc-scanner2"

/-- `_LEVEL_BY_SEVERITY`. -/
def levelBySeverity : List (String × String) :=
  [("crit", "error"), ("high", "error"), ("med", "warning"), ("low", "note"),
    ("info", "note")]

/-- `_SECURITY_SEVERITY`. -/
def securitySeverity : List (String × String) :=
  [("crit", "9.5"), ("high", "8.0"), ("med", "5.5"), ("low", "3.0"), ("info", "1.0")]

/-- `table.get(key, default)`. -/
def tableGet (table : List (String × String)) (key default : String) : String :=
  (lookupEntry key table).getD default

/-- A rule. -/
structure Rule where
  id : String
  name : String
  shortDescription : String
  fullDescription : String
  helpUri : String
  level : String
  deriving DecidableEq

/-- A result. -/
structure Result where
  ruleId : String
  ruleIndex : Nat
  level : String
  message : String
  properties : List (String × Json)
  locations : List String

/-- What the interpreter adds: `str` of a value, `str.capitalize` and the
version of the program. -/
structure Interpreter where
  text : Text
  capitalize : List Char → List Char
  version : String

/-- `_rule_for`. -/
def ruleFor (py : Interpreter) (probeId : String) : Rule where
  id := probeId
  name :=
    let spelled := probeId.toList.map fun char => if char = '.' then '_' else char
    String.ofList ((spelled.splitOn '_').flatMap py.capitalize)
  shortDescription := "pqcscan probe " ++ probeId
  fullDescription :=
    "Post-quantum readiness finding from the " ++ probeId ++ " probe. " ++
      "See the finding message for the affected algorithm and the " ++
      "recommended NIST PQC migration target."
  helpUri := infoUri ++ "/blob/main/docs/STATUS.md"
  level := "warning"

/-- `mapping.get(key)` where it is true. -/
def truthy? (mapping : Dict String Json) (key : String) : Option Json :=
  (mapping.get? key).filter Json.truthy

/-- `_as_uri`. -/
def asUri (path : String) : String :=
  match path.toList.head? with
  | some '/' | some '\\' => "file://" ++ path
  | _ => path

/-- The fix of a snippet: what stands before it and after it. -/
def fixOf (remediation : Dict String Json) : List (String × Json) :=
  match remediation.get? "snippet" with
  | some (.object members) =>
      match (JsonObject.get? members "after").filter Json.truthy with
      | some after =>
          [("pqc_fix_before", (JsonObject.get? members "before").getD (.str "")),
            ("pqc_fix_after", after)]
      | none => []
  | _ => []

/-- The message of a finding. -/
def messageOf (py : Interpreter) (row : FindingRow) : String :=
  match truthy? row.remediation "replacement" with
  | none => row.title
  | some replacement =>
      let message := row.title ++ "  → migrate to " ++ replacement.toStr py.text
      match truthy? row.remediation "deadline" with
      | none => message
      | some deadline => message ++ " by " ++ deadline.toStr py.text

/-- `_result_for`, under the rule with the given index. -/
def resultFor (py : Interpreter) (ruleIndex : Nat) (row : FindingRow) : Result where
  ruleId := row.probeId
  ruleIndex := ruleIndex
  level := tableGet levelBySeverity row.severity "note"
  message := messageOf py row
  properties :=
    [("algorithm", .str row.algorithm),
      ("classification", .str row.classification),
      ("security-severity", .str (tableGet securitySeverity row.severity "1.0")),
      ("confidence", (row.evidence.get? "confidence").getD (.str "high"))] ++
    ((truthy? row.remediation "replacement").map fun value =>
      ("pqc_replacement", value)).toList ++
    ((truthy? row.remediation "deadline").map fun value =>
      ("migration_deadline", value)).toList ++
    ((truthy? row.remediation "hndl").map fun _ =>
      ("harvest_now_decrypt_later", Json.bool true)).toList ++
    fixOf row.remediation
  locations :=
    match row.evidence.get? "path" with
    | some (.str path) => if path = "" then [] else [asUri path]
    | _ => []

/-- The dictionaries and the list that `build_sarif` fills. -/
structure Log where
  rules : Dict String Rule
  ruleIndex : Dict String Nat
  results : List Result

/-- The body of the loop of `build_sarif`. -/
def visit (py : Interpreter) (log : Log) (row : FindingRow) : Log :=
  let log := match log.rules.get? row.probeId with
    | some _ => log
    | none =>
        { log with
          ruleIndex := log.ruleIndex.set row.probeId log.rules.length
          rules := log.rules.set row.probeId (ruleFor py row.probeId) }
  { log with
    results := log.results ++
      [resultFor py ((log.ruleIndex.get? row.probeId).getD 0) row] }

/-- The document. -/
structure Document where
  schema : String
  version : String
  toolName : String
  toolVersion : String
  informationUri : String
  rules : List Rule
  results : List Result

/-- `build_sarif`. -/
def buildSarif (py : Interpreter) (db : Database) (scanId : Nat) : Document :=
  let log := (Repo.listFindings db scanId).foldl (visit py) ⟨Dict.empty, Dict.empty, []⟩
  { schema := "https://json.schemastore.org/sarif-2.1.0.json"
    version := "2.1.0"
    toolName := "pqcscan"
    toolVersion := py.version
    informationUri := infoUri
    rules := log.rules.entries.map Prod.snd
    results := log.results }

/-! ## One result a finding -/

theorem foldl_visit_ruleIds (py : Interpreter) (rows : List FindingRow) (log : Log) :
    (rows.foldl (visit py) log).results.map Result.ruleId =
      log.results.map Result.ruleId ++ rows.map FindingRow.probeId := by
  induction rows generalizing log with
  | nil => simp
  | cons row rest inductionHypothesis =>
      have added : (visit py log row).results.map Result.ruleId =
          log.results.map Result.ruleId ++ [row.probeId] := by
        unfold visit
        dsimp only
        split
        all_goals rw [List.map_append]; rfl
      rw [List.foldl_cons, inductionHypothesis, added, List.append_assoc]
      rfl

/-- The results name the probes of the findings, in their order. -/
theorem results_ruleIds (py : Interpreter) (db : Database) (scanId : Nat) :
    (buildSarif py db scanId).results.map Result.ruleId =
      (Repo.listFindings db scanId).map FindingRow.probeId :=
  foldl_visit_ruleIds py _ _

end Sarif
end Renderers
end PqcScan
