import PqcScan.Probes.Terraform

/-!
# CloudFormation templates

`FsIacCloudformation` of `fs_iac_cloudformation.py`: templates and cert-manager manifests,
in YAML or JSON.  The two parsers are parameters.
-/

namespace PqcScan
namespace Probes

open Library Python PqcScan.Core

/-! ## Documents -/

/-- A value that a parser gives. -/
inductive Document
  | null
  | bool (value : Bool)
  | int (value : Int)
  | text (value : List Char)
  /-- A scalar of a further type, by what `str` gives of it. -/
  | other (printed : List Char)
  | list (items : List Document)
  | dict (entries : List (Document × Document))

namespace Document

/-- `isinstance(value, str)`. -/
def text? : Document → Option (List Char)
  | text value => some value
  | _ => none

/-- The entries of a `dict`. -/
def dict? : Document → Option (List (Document × Document))
  | dict entries => some entries
  | _ => none

/-- A value that a set can be asked for. -/
def hashable : Document → Bool
  | list _ => false
  | dict _ => false
  | _ => true

/-- `"NAME" == value`. -/
def named (name : String) (value : Document) : Bool := value.text? == some name.toList

end Document

/-- `entries.get("NAME")`. -/
def getEntry (entries : List (Document × Document)) (name : String) : Option Document :=
  (entries.find? fun entry => entry.1.named name).map (·.2)

/-- `entries.get("NAME")` where it is a `str`. -/
def getText (entries : List (Document × Document)) (name : String) : Option (List Char) :=
  (getEntry entries name).bind Document.text?

/-- `entries.get("NAME")` where it is a `dict`, and an empty one elsewhere. -/
def getDict (entries : List (Document × Document)) (name : String) :
    List (Document × Document) :=
  ((getEntry entries name).bind Document.dict?).getD []

/-- How `json.loads` ends: with a value, with a `ValueError`, or
with another exception. -/
inductive Loaded
  | value (document : Document)
  | refused
  | raised

/-- What the probe uses of the interpreter and of `yaml`. -/
structure Loaders where
  jsonLoads : List Char → Loaded
  /-- `yaml.load_all` with `_CfnLoader`, or nothing for an exception. -/
  yamlLoadAll : List Char → Option (List Document)
  /-- `str` of a list or a `dict`, or nothing where a number in
  it is too long to print. -/
  repr : Document → Option (List Char)

section Scans

variable (tables : CaseTables) (loaders : Loaders)

/-- `str` of a number, or nothing for a `ValueError`: the
interpreter limits it like `int`. -/
def printInt (value : Int) : Option (List Char) :=
  if tables.readable (toString value.natAbs).length then some (toString value).toList
  else none

/-- `str(value)`. -/
def strOf : Document → Option (List Char)
  | .null => some "None".toList
  | .bool true => some "True".toList
  | .bool false => some "False".toList
  | .int value => printInt tables value
  | .text value => some value
  | .other printed => some printed
  | document => loaders.repr document

/-- `_parse`; nothing stands for an exception that it lets through. -/
def parse (text suffix : List Char) : Option (List Document) :=
  if oneOf suffix [".json"] then
    match loaders.jsonLoads text with
    | .value document => some [document]
    | .refused => some []
    | .raised => none
  else
    some (((loaders.yamlLoadAll text).getD []).filter fun document =>
      match document with
      | .null => false
      | _ => true)

/-- `_looks_relevant`. -/
def looksRelevant (text : List Char) : Bool :=
  contains text "cert-manager.io" || contains text "AWSTemplateFormatVersion" ||
    (contains text "AWS::" && contains text "Resources")

/-- `_is_cfn`. -/
def isCfn (doc : List (Document × Document)) : Bool :=
  (getEntry doc "AWSTemplateFormatVersion").isSome ||
    (getDict doc "Resources").any fun entry =>
      ((entry.2.dict?.getD []) |> (getText · "Type")).any (startsWith · "AWS::")

/-- `_key_spec_finding`; the outer option stands for a `ValueError`. -/
def keySpecFinding (value : List Char) : Option (Option Rating) :=
  let v := tables.upper value
  if startsWith v "SYMMETRIC" then some none
  else if startsWith v "RSA" then (rsaRating tables v).map some
  else if startsWith v "ECC" || startsWith v "EC" then some (some (ecRating tables))
  else some none

/-- `_emit`. -/
def templateFinding (now : DateTime) (path : Path)
    (resourceType logicalOrKind : List Char) (field : String) (value : List Char)
    (rating : Rating) : Finding where
  probeId := "fs.iac.cloudformation"
  algorithm := String.ofList rating.1
  classification := rating.2
  severity := sevFor rating.2
  title := "cloudformation " ++ String.ofList resourceType ++ " " ++ field ++ "=" ++
    String.ofList value ++ " (" ++ String.ofList rating.1 ++ ") in " ++ path.str
  evidence := Dict.ofList [("path", .str path.str),
    ("resource_type", .str (String.ofList resourceType)),
    ("logical_id_or_kind", .str (String.ofList logicalOrKind)), ("field", .str field),
    ("value", .str (String.ofList value))]
  createdAt := now

/-- The finding for a listener without TLS. -/
def plaintextFinding (now : DateTime) (path : Path) (rtype logicalId proto : List Char) :
    Finding where
  probeId := "fs.iac.cloudformation"
  algorithm := "PLAINTEXT"
  classification := .info
  severity := .info
  title := "cloudformation " ++ String.ofList rtype ++
    " Protocol=HTTP (no TLS) in " ++ path.str
  evidence := Dict.ofList [("path", .str path.str),
    ("resource_type", .str (String.ofList rtype)),
    ("logical_id_or_kind", .str (String.ofList logicalId)), ("field", .str "Protocol"),
    ("value", .str (String.ofList proto))]
  createdAt := now

variable (now : DateTime) (path : Path)

/-- A property of a resource, reported by its rating. -/
def propertyFindings (rtype : List Char) (logicalId : Document)
    (props : List (Document × Document)) (field : String)
    (rating : List Char → Option (Option Rating)) : Option (List Finding) :=
  match getText props field with
  | none => some []
  | some value => do
      match ← rating value with
      | none => pure []
      | some rated =>
          let printed ← strOf tables loaders logicalId
          pure [templateFinding now path rtype printed field value rated]

/-- The loop of `_scan_cfn` over a resource. -/
def resourceFindings (entry : Document × Document) : Option (List Finding) :=
  match entry.2.dict? with
  | none => some []
  | some res =>
      match getText res "Type" with
      | none => some []
      | some rtype =>
          let props := getDict res "Properties"
          if oneOf rtype ["AWS::KMS::Key"] then
            propertyFindings tables loaders now path rtype entry.1 props "KeySpec"
              (keySpecFinding tables)
          else if oneOf rtype ["AWS::CertificateManager::Certificate"] then
            propertyFindings tables loaders now path rtype entry.1 props "KeyAlgorithm"
              (acmRating tables)
          else if oneOf rtype ["AWS::ElasticLoadBalancingV2::Listener"] then do
            let policy ← propertyFindings tables loaders now path rtype entry.1
                props "SslPolicy"
              (policyRating tables)
            match getText props "Protocol" with
            | none => pure policy
            | some proto =>
                if oneOf (tables.upper proto) ["HTTP"] then
                  let printed ← strOf tables loaders entry.1
                  pure (policy ++ [plaintextFinding now path rtype printed proto])
                else pure policy
          else some []

/-- `_scan_cfn`. -/
def scanCfn (doc : List (Document × Document)) : Option (List Finding) :=
  ((getDict doc "Resources").mapM (resourceFindings tables loaders now path)).map
    List.flatten

/-- The bits that a private key names, and how they print. -/
def keyBits (size : Option Document) : Option (Option (Int × Option (List Char))) :=
  match size with
  | none => some none
  | some .null => some none
  | some (.bool value) =>
      some (some (if value then 1 else 0, strOf tables loaders (.bool value)))
  | some (.int value) => some (some (value, printInt tables value))
  | some other => do
      let printed ← strOf tables loaders other
      let bits ← digits tables printed
      pure (bits.map fun bits => (bits, some (toString bits).toList))

/-- `_scan_certmanager`; nothing stands for an exception. -/
def scanCertmanager (doc : List (Document × Document)) : Option (List Finding) :=
  let kind := (getEntry doc "kind").getD .null
  if !kind.hashable then none
  else if !(["Certificate", "Issuer", "ClusterIssuer"].any (kind.named ·)) then some []
  else
    match (getEntry (getDict doc "spec") "privateKey").bind Document.dict? with
    | none => some []
    | some pk =>
        match getText pk "algorithm" with
        | none => some []
        | some algo => do
            let up := tables.upper algo
            let bits ← keyBits tables loaders (getEntry pk "size")
            if oneOf up ["RSA"] then
              let (bits, printed) := bits.getD (2048, some "2048".toList)
              let cls : Classification := if bits < 3072 then .sangatTinggi else .tinggi
              let printed ← printed
              let api ← strOf tables loaders ((getEntry doc "apiVersion").getD .null)
              let kind ← strOf tables loaders kind
              pure [templateFinding now path api kind "spec.privateKey.algorithm" algo
                ("RSA-".toList ++ printed, cls)]
            else if oneOf up ["ECDSA"] then
              let api ← strOf tables loaders ((getEntry doc "apiVersion").getD .null)
              let kind ← strOf tables loaders kind
              pure [templateFinding now path api kind "spec.privateKey.algorithm" algo
                (ecRating tables)]
            else pure []

/-- `_scan_doc`. -/
def scanDoc (doc : List (Document × Document)) : Option (List Finding) :=
  if (getText doc "apiVersion").any (startsWith · "cert-manager.io") then
    scanCertmanager tables loaders now path doc
  else if isCfn doc then scanCfn tables loaders now path doc
  else some []

/-- The findings of a parsed document. -/
def docFindings (doc : Document) : Option (List Finding) :=
  match doc.dict? with
  | none => some []
  | some entries => scanDoc tables loaders now path entries

end Scans

/-- `_SUFFIXES`. -/
def suffixes : List String := [".yaml", ".yml", ".json"]

/-- `FsIacCloudformation`: the limit and an exception end the run. -/
def fsIacCloudformation (tables : CaseTables) (loaders : Loaders) (now : DateTime) :
    FileProbe where
  patterns := [fun path => oneOf (tables.lower path.suffix) suffixes]
  scanFile path text :=
    if !looksRelevant text then ([], .finished)
    else
      match parse loaders text (tables.lower path.suffix) with
      | none => ([], .failed)
      | some docs => emitAll maxPerFile (docFindings tables loaders now path) 0 docs
  halts ending := ending != .finished

/-! ## The limit of a file -/

section Limits

variable (tables : CaseTables) (loaders : Loaders) (now : DateTime) (files : FileSystem)

/-- Of the Terraform file a number within the limit of findings is too long for `int`. -/
def terraformFails (path : Path) : Bool :=
  (files.readText path).any fun text =>
    let report := declFindings tables now path text
    (reported report (declared tables text)).length ≤ maxPerFile &&
      (declared tables text).any fun block => (report block).isNone

/-- The template has more findings than the limit, or one that raises. -/
def templateEnds (path : Path) : Bool :=
  (files.readText path).any fun text =>
    looksRelevant text &&
      match parse loaders text (tables.lower path.suffix) with
      | none => true
      | some docs =>
          let report := docFindings tables loaders now path
          maxPerFile < (reported report docs).length || docs.any fun doc =>
            (report doc).isNone

variable {tables loaders now files}

theorem terraform_ends : (fsIacTerraform tables now).ends files =
    terraformFails tables now files := by
  funext path
  rw [FileProbe.ends, FileProbe.outcome, terraformFails]
  cases files.readText path with
  | none => rfl
  | some text =>
      rw [Option.map_some, Option.getD_some, Option.any_some]
      simp only [fsIacTerraform, emitAll_eq (Nat.zero_le _), Nat.zero_add]
      by_cases full : maxPerFile < (reported (declFindings tables now path text)
          (declared tables text)).length
      · rw [if_pos full, decide_eq_false (Nat.not_le.mpr full)]
        rfl
      · rw [if_neg full, decide_eq_true (Nat.not_lt.mp full), Bool.true_and]
        cases (declared tables text).any fun block =>
          (declFindings tables now path text block).isNone
        · rfl
        · rfl

theorem template_ends : (fsIacCloudformation tables loaders now).ends files =
    templateEnds tables loaders now files := by
  funext path
  rw [FileProbe.ends, FileProbe.outcome, templateEnds]
  cases files.readText path with
  | none => rfl
  | some text =>
      rw [Option.map_some, Option.getD_some, Option.any_some]
      simp only [fsIacCloudformation]
      cases looksRelevant text with
      | false => rfl
      | true =>
          cases parse loaders text (tables.lower path.suffix) with
          | none => rfl
          | some docs =>
              simp only [Bool.not_true, Bool.false_eq_true, if_false, Bool.true_and,
                emitAll_eq (Nat.zero_le _), Nat.zero_add]
              by_cases full : maxPerFile <
                  (reported (docFindings tables loaders now path) docs).length
              · rw [if_pos full, decide_eq_true full]
                rfl
              · rw [if_neg full, decide_eq_false full, Bool.false_or]
                cases docs.any fun doc => (docFindings tables loaders now path doc).isNone
                · rfl
                · rfl

theorem terraform_capped (path : Path) :
    ((fsIacTerraform tables now).outcome files path).1.length ≤ maxPerFile := by
  rw [FileProbe.outcome]
  cases files.readText path with
  | none => exact Nat.zero_le _
  | some text =>
      simp only [Option.map_some, Option.getD_some, fsIacTerraform,
        emitAll_eq (Nat.zero_le _)]
      exact List.length_take_le _ _

theorem template_capped (path : Path) :
    ((fsIacCloudformation tables loaders now).outcome files path).1.length ≤
      maxPerFile := by
  rw [FileProbe.outcome]
  cases files.readText path with
  | none => exact Nat.zero_le _
  | some text =>
      simp only [Option.map_some, Option.getD_some, fsIacCloudformation]
      split
      · exact Nat.zero_le _
      · split
        · exact Nat.zero_le _
        · rw [emitAll_eq (Nat.zero_le _)]
          exact List.length_take_le _ _

end Limits

/-- A run reports of each file the first findings that the file has alone, exactly
when no file that ends the run comes before one with findings: for Terraform a file
with a number that `int` does not read, for CloudFormation also a file with more
findings than the limit. -/
theorem limit_stays_in_file_iff (tables : CaseTables) (loaders : Loaders) (now : DateTime)
    (files : FileSystem) (roots : List Path) :
    ((fsIacTerraform tables now).run files roots =
        ((fsIacTerraform tables now).visited files roots).flatMap (fun path =>
          ((fsIacTerraform tables now).run files [path]).take maxPerFile) ↔
      NoneLost (terraformFails tables now files)
      ((fsIacTerraform tables now).run files [·])
        ((fsIacTerraform tables now).visited files roots)) ∧
    ((fsIacCloudformation tables loaders now).run files roots =
        ((fsIacCloudformation tables loaders now).visited files roots).flatMap (fun path =>
          ((fsIacCloudformation tables loaders now).run files [path]).take maxPerFile) ↔
      NoneLost (templateEnds tables loaders now files)
        ((fsIacCloudformation tables loaders now).run files [·])
        ((fsIacCloudformation tables loaders now).visited files roots)) := by
  rw [← terraform_ends, ← template_ends]
  exact ⟨FileProbe.run_eq_flatMap_iff terraform_capped roots,
    FileProbe.run_eq_flatMap_iff template_capped roots⟩

/-! ## A long stream -/

/-- A manifest of a certificate with the default key. -/
def manifest : String :=
  "---\napiVersion: cert-manager.io/v1\nkind: Certificate\nspec: {privateKey: {algorithm: RSA}}\n"

/-- The manifest as `yaml` reads it. -/
def manifestDocument : Document :=
  .dict [(.text "apiVersion".toList, .text "cert-manager.io/v1".toList),
    (.text "kind".toList, .text "Certificate".toList),
    (.text "spec".toList, .dict [(.text "privateKey".toList,
      .dict [(.text "algorithm".toList, .text "RSA".toList)])])]

/-- A stream of manifests. -/
def manifests (count : Nat) : List Char := (List.replicate count manifest.toList).flatten

/-- Parsers that read a stream of manifests. -/
def manifestLoaders : Loaders where
  jsonLoads := fun _ => .refused
  yamlLoadAll := fun text =>
    some (List.replicate (text.length / manifest.toList.length) manifestDocument)
  repr := fun _ => none

/-- A file with 201 certificates, and one with a single certificate. -/
def manifestFiles : FileSystem where
  exists_ := fun _ => true
  isFile := fun _ => true
  below := fun _ => []
  readText := fun path =>
    some (if path.name = "fleet.yaml".toList then manifests 201 else manifests 1)
  exists_of_isFile := fun _ _ => rfl

theorem reported_replicate {α β : Type} {report : α → Option (List β)} {item : α}
    {single : β}
    (reports : report item = some [single]) (count : Nat) :
    reported report (List.replicate count item) = List.replicate count single := by
  induction count with
  | zero => rfl
  | succ count inductionHypothesis =>
      rw [List.replicate_succ, reported_some reports, inductionHypothesis]
      rfl

theorem parse_manifests (count : Nat) :
    parse manifestLoaders (manifests count) ".yaml".toList =
      some (List.replicate count manifestDocument) := by
  have length : (manifests count).length / manifest.toList.length = count := by
    rw [manifests, List.length_flatten, List.map_replicate, List.sum_replicate,
      smul_eq_mul]
    exact Nat.mul_div_cancel count (by decide)
  rw [parse, if_neg (by decide)]
  simp only [manifestLoaders, length, Option.getD_some, List.filter_replicate]
  rfl

theorem looksRelevant_manifests (count : Nat) :
    looksRelevant (manifests (count + 1)) = true := by
  have first : contains manifest.toList "cert-manager.io" = true := by decide
  have within : contains (manifests (count + 1)) "cert-manager.io" = true := by
    rw [contains_iff] at first ⊢
    rw [manifests, List.replicate_succ, List.flatten_cons]
    exact first.trans (List.prefix_append _ _).isInfix
  rw [looksRelevant, within]
  rfl

/-- The finding of the manifest. -/
def manifestFinding (path : Path) : Finding :=
  templateFinding 0 path "cert-manager.io/v1".toList "Certificate".toList
    "spec.privateKey.algorithm" "RSA".toList ("RSA-2048".toList, .sangatTinggi)

theorem docFindings_manifest (path : Path) :
    docFindings plainTables manifestLoaders 0 path manifestDocument =
      some [manifestFinding path] := by
  rfl

theorem scanFile_manifests {path : Path}
    (suffix : plainTables.lower path.suffix = ".yaml".toList)
    (count : Nat) :
    (fsIacCloudformation plainTables manifestLoaders 0).scanFile path
      (manifests (count + 1)) =
      (List.replicate (min maxPerFile (count + 1)) (manifestFinding path),
        if maxPerFile < count + 1 then .capped else .finished) := by
  have complete : (List.replicate (count + 1) manifestDocument).any (fun doc =>
      (docFindings plainTables manifestLoaders 0 path doc).isNone) = false := by
    rw [List.any_replicate, docFindings_manifest]
    rfl
  simp only [fsIacCloudformation, looksRelevant_manifests, suffix, parse_manifests,
    emitAll_eq (Nat.zero_le _), reported_replicate (docFindings_manifest path), complete,
    List.take_replicate, List.length_replicate, Nat.zero_add, Nat.sub_zero, Bool.not_true,
    Bool.false_eq_true, if_false]

/-- A file with 201 certificates ends the run before a file behind it. -/
theorem long_file_ends_run :
    (fsIacCloudformation plainTables manifestLoaders 0).run manifestFiles
        [⟨["fleet.yaml"]⟩, ⟨["web.yaml"]⟩] ≠
      ((fsIacCloudformation plainTables manifestLoaders 0).visited manifestFiles
        [⟨["fleet.yaml"]⟩, ⟨["web.yaml"]⟩]).flatMap (fun path =>
          ((fsIacCloudformation plainTables manifestLoaders 0).run manifestFiles
            [path]).take
            maxPerFile) := by
  have visited : (fsIacCloudformation plainTables manifestLoaders 0).visited manifestFiles
      [⟨["fleet.yaml"]⟩, ⟨["web.yaml"]⟩] = [⟨["fleet.yaml"]⟩, ⟨["web.yaml"]⟩] := by rfl
  have second : (⟨["web.yaml"]⟩ : Path) ∈
      (fsIacCloudformation plainTables manifestLoaders 0).visited
      manifestFiles [⟨["fleet.yaml"]⟩, ⟨["web.yaml"]⟩] := by
    rw [visited]
    exact List.mem_cons_of_mem _ List.mem_cons_self
  have ends : (fsIacCloudformation plainTables manifestLoaders 0).ends manifestFiles
      ⟨["fleet.yaml"]⟩ = true := by
    have read : manifestFiles.readText ⟨["fleet.yaml"]⟩ = some (manifests (200 + 1)) :=
      congrArg some (if_pos (by decide))
    rw [FileProbe.ends, FileProbe.outcome_of_readText read,
      scanFile_manifests (by decide)]
    rfl
  have alone : (fsIacCloudformation plainTables manifestLoaders 0).run manifestFiles
      [⟨["web.yaml"]⟩] = [manifestFinding ⟨["web.yaml"]⟩] := by
    have read : manifestFiles.readText ⟨["web.yaml"]⟩ = some (manifests (0 + 1)) :=
      congrArg some (if_neg (by decide))
    rw [FileProbe.run_alone second, FileProbe.outcome_of_readText read,
      scanFile_manifests (by decide)]
    rfl
  rw [Ne, FileProbe.run_eq_flatMap_iff template_capped]
  intro kept
  have lost := kept [] _ _ visited ends _ List.mem_cons_self
  cases alone.symm.trans lost

end Probes
end PqcScan
