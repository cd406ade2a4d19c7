import PqcScan.Core.Names
import PqcScan.Store.Summary

/-!
# The cryptography bill of materials

`cbom/builder.py`: one CycloneDX 1.7 component for each finding of a scan that is neither
`N/A` nor a drift marker.
-/

namespace PqcScan
namespace Renderers
namespace Cbom

open Library Python PqcScan.Core Store

/-- `_CURVE_ENUM`. -/
def curveEnum : List (String × String) :=
  [("BRAINPOOLP160R1", "brainpool/brainpoolP160r1"),
    ("BRAINPOOLP160T1", "brainpool/brainpoolP160t1"),
    ("BRAINPOOLP192R1", "brainpool/brainpoolP192r1"),
    ("BRAINPOOLP192T1", "brainpool/brainpoolP192t1"),
    ("BRAINPOOLP224R1", "brainpool/brainpoolP224r1"),
    ("BRAINPOOLP224T1", "brainpool/brainpoolP224t1"),
    ("BRAINPOOLP256R1", "brainpool/brainpoolP256r1"),
    ("BRAINPOOLP256T1", "brainpool/brainpoolP256t1"),
    ("BRAINPOOLP320R1", "brainpool/brainpoolP320r1"),
    ("BRAINPOOLP320T1", "brainpool/brainpoolP320t1"),
    ("BRAINPOOLP384R1", "brainpool/brainpoolP384r1"),
    ("BRAINPOOLP384T1", "brainpool/brainpoolP384t1"),
    ("BRAINPOOLP512R1", "brainpool/brainpoolP512r1"),
    ("BRAINPOOLP512T1", "brainpool/brainpoolP512t1"),
    ("PRIME256V1", "x962/prime256v1"),
    ("SECP256K1", "secg/secp256k1"),
    ("SECP256R1", "secg/secp256r1"),
    ("SECP384R1", "secg/secp384r1"),
    ("SECP521R1", "secg/secp521r1"),
    ("NISTP256", "nist/P-256"),
    ("NISTP384", "nist/P-384"),
    ("NISTP521", "nist/P-521"),
    ("CURVE25519", "other/Curve25519"),
    ("CURVE448", "other/Curve448"),
    ("ED25519", "other/Ed25519"),
    ("ED448", "other/Ed448"),
    ("X25519", "other/Curve25519"),
    ("X448", "other/Curve448"),
    ("P-256", "nist/P-256"),
    ("P256", "nist/P-256"),
    ("P-384", "nist/P-384"),
    ("P384", "nist/P-384"),
    ("P-521", "nist/P-521"),
    ("P521", "nist/P-521")]

/-- `_asset_type_for`. -/
def assetTypeFor (probeId : List Char) : String :=
  if startsWith probeId "net." then "protocol"
  else if startsWith probeId "fs.cert" then "certificate"
  else if startsWith probeId "fs.privkey" || endsWith probeId ".privkey" then "key"
  else "algorithm"

section Tables

variable (tables : CaseTables)

/-- `_primitive_for`. -/
def primitiveFor (algorithm : List Char) : String :=
  let name := tables.upper algorithm
  if ["ML-KEM", "X25519MLKEM", "KYBER"].any (startsWith name) then "kem"
  else if ["RSA", "ECDSA", "DSA", "ED25519", "ED448", "ML-DSA", "SLH-DSA", "FALCON"].any
      (startsWith name) then "signature"
  else if startsWith name "AES" then "block-cipher"
  else if startsWith name "CHACHA" then "stream-cipher"
  else if ["SHA", "MD"].any (startsWith name) then "hash"
  else if ["X25519", "X448", "ECDH", "DH"].any (startsWith name) then "key-agree"
  else "other"

/-- The rules of `_algorithm_family_for`, in their order. -/
def familyRules : List (List String × String) :=
  [(["ECDSA"], "ECDSA"), (["ECDH"], "ECDH"), (["ED25519", "ED448"], "EdDSA"),
    (["X25519", "X448"], "ECDH"), (["ML-KEM"], "ML-KEM"), (["ML-DSA"], "ML-DSA"),
    (["SLH-DSA"], "SLH-DSA"), (["AES"], "AES"), (["CHACHA"], "ChaCha20"),
    (["SHA-3", "SHA3"], "SHA-3"), (["SHA-1", "SHA1"], "SHA-1"), (["SHA"], "SHA-2"),
    (["3DES"], "3DES"), (["DES"], "DES"), (["DSA"], "DSA"), (["DH"], "FFDH")]

/-- `_algorithm_family_for`. -/
def algorithmFamilyFor (algorithm : List Char) : Option String :=
  (familyRules.find? fun rule =>
    rule.1.any (startsWith (tables.upper algorithm))).map (·.2)

/-- The tokens of `_elliptic_curve_for`: those of the evidence, then the algorithm. -/
def curveTokens (algorithm : List Char) (evidence : Dict String Json) :
    List (List Char) :=
  (["curve", "crv", "ec_curve", "group"].filterMap fun key =>
    match evidence.get? key with
    | some (.str token) => if token = "" then none else some token.toList
    | _ => none) ++ [algorithm]

/-- `_elliptic_curve_for`. -/
def ellipticCurveFor (algorithm : List Char) (evidence : Dict String Json) :
    Option String :=
  (curveTokens algorithm evidence).findSome? fun token =>
    (curveEnum.find? fun entry => contains (tables.upper token) entry.1).map (·.2)

end Tables

/-- `_nist_level_for`. -/
def nistLevelFor (classification : String) : Nat :=
  if classification = "pqc-ready" then 3
  else if classification = "rendah" then 2
  else if classification = "sederhana" then 1
  else 0

/-- A cryptographic asset. -/
structure Component where
  bomRef : String
  name : String
  description : String
  assetType : String
  primitive : String
  algorithmFamily : Option String
  parameterSetIdentifier : String
  ellipticCurve : Option String
  nistQuantumSecurityLevel : Nat
  properties : List (String × Json)
  locations : List Json

/-- The document. -/
structure Document where
  schema : String
  bomFormat : String
  specVersion : String
  serialNumber : String
  version : Nat
  timestamp : String
  toolVersion : String
  hostName : String
  hostRef : String
  components : List Component

/-- `f"finding-{f.id}"`. -/
def bomRef (row : FindingRow) : String := "finding-" ++ toString row.id

/-- The finding is a cryptographic asset. -/
def inventoried (row : FindingRow) : Bool :=
  row.algorithm != "N/A" && row.probeId != driftProbe

/-- The properties of the fleet attribution. -/
def fleetProperties (evidence : Dict String Json) : List (String × Json) :=
  match evidence.get? "_fleet" with
  | some (.object members) =>
      ["host", "machine_id"].filterMap fun key =>
        match JsonObject.get? members key with
        | some (.str value) => if value = "" then none
            else some ("pqcscan:" ++ key, .str value)
        | _ => none
  | _ => []

/-- `ev.get("path") or ev.get("file")`, where it is a text. -/
def occurrences (evidence : Dict String Json) : List Json :=
  let path := match evidence.get? "path" with
    | some path => if path.truthy then some path else evidence.get? "file"
    | none => evidence.get? "file"
  match path with
  | some (.str path) => if path = "" then [] else [.str path]
  | _ => []

/-- The component of a finding. -/
def componentOf (tables : CaseTables) (row : FindingRow) : Component where
  bomRef := bomRef row
  name := row.algorithm
  description := row.title
  assetType := assetTypeFor row.probeId.toList
  primitive := primitiveFor tables row.algorithm.toList
  algorithmFamily := algorithmFamilyFor tables row.algorithm.toList
  parameterSetIdentifier := row.algorithm
  ellipticCurve := ellipticCurveFor tables row.algorithm.toList row.evidence
  nistQuantumSecurityLevel := nistLevelFor row.classification
  properties :=
    [("pqcscan:confidence", (row.evidence.get? "confidence").getD (.str "high")),
      ("pqcscan:probe", .str row.probeId)] ++ fleetProperties row.evidence
  locations := occurrences row.evidence

/-- The components of findings. -/
def componentsOf (tables : CaseTables) (rows : List FindingRow) : List Component :=
  (rows.filter inventoried).map (componentOf tables)

/-- What the interpreter adds: a uuid, the time and the version of the program. -/
structure Stamp where
  uuid : String
  timestamp : String
  version : String

/-- `build_cbom`. -/
def buildCbom (tables : CaseTables) (stamp : Stamp) (db : Database) (scanId : Nat) :
    Except PyError Document :=
  match db.scans.get? scanId with
  | none => .error (.valueError ("scan " ++ toString scanId ++ " not found"))
  | some scan => .ok
      { schema := "http://cyclonedx.org/schema/bom-1.7.schema.json"
        bomFormat := "CycloneDX"
        specVersion := "1.7"
        serialNumber := "urn:uuid:" ++ stamp.uuid
        version := 1
        timestamp := stamp.timestamp
        toolVersion := stamp.version
        hostName := match scan.hostFingerprint with
          | some name => if name = "" then "host" else name
          | none => "host"
        hostRef := "host-scan-" ++ toString scanId
        components := componentsOf tables (Repo.listFindings db scanId) }

/-! ## The schema -/

/-- The values of `assetType`. -/
def assetTypes : List String :=
  ["algorithm", "certificate", "protocol", "related-crypto-material"]

/-- The values of `primitive`. -/
def primitives : List String :=
  ["drbg", "mac", "block-cipher", "stream-cipher", "signature", "hash", "pke",
    "xof", "kdf", "key-agree", "kem", "ae", "combiner", "key-wrap", "other", "unknown"]

/-- The enumerations of `cryptography-defs.schema.json`, which is not part of the program.
They have the names that the tables of the program quote from them. -/
structure CryptographyDefs where
  algorithmFamilies : List String
  ellipticCurves : List String
  families_listed : familyRules.map Prod.snd ⊆ algorithmFamilies
  curves_listed : curveEnum.map Prod.snd ⊆ ellipticCurves

/-- Parts of names of schemes over elliptic curves, and of families of curves. -/
def ellipticSchemes : List String :=
  ["ECDSA", "ECDH", "EDDSA", "ECIES", "ECMQV", "SM2", "SECP", "SECT", "BRAINPOOL"]

/-- Names of elliptic-curve keys and of the signatures of JSON Web Signature. -/
def ellipticNames : List String := ["EC", "ECC", "ES256", "ES256K", "ES384", "ES512"]

/-- A name stands in a text, not at the end of a longer word. -/
def Stands (text : List Char) (name : String) : Prop :=
  ∃ front back, text = front ++ (name.toList ++ back) ∧
    ∀ char ∈ front.getLast?, char.isAlpha = false

/-- An elliptic-curve algorithm, or a hybrid that contains one. -/
def Elliptic (tables : CaseTables) (algorithm : List Char) : Prop :=
  let name := tables.upper algorithm
  oneOf name ellipticNames = true ∨ ["EC-", "ECC-"].any (startsWith name) = true ∨
    ellipticSchemes.any (contains name) = true ∨ ∃ entry ∈ curveEnum, Stands name entry.1

/-- The document of a scan is clean and does not contradict the findings. -/
structure SchemaClean (defs : CryptographyDefs) (tables : CaseTables)
    (rows : List FindingRow)
    (document : Document) : Prop where
  complete : document.components.map (fun component =>
    (component.bomRef, component.name)) =
    (rows.filter fun row => row.algorithm ≠ "N/A" ∧ row.probeId ≠ "fleet.drift").map
      fun row => (bomRef row, row.algorithm)
  distinct : (document.hostRef :: document.components.map Component.bomRef).Nodup
  assetType : ∀ component ∈ document.components, component.assetType ∈ assetTypes
  primitive : ∀ component ∈ document.components, component.primitive ∈ primitives
  family : ∀ component ∈ document.components,
    ∀ family ∈ component.algorithmFamily, family ∈ defs.algorithmFamilies
  curve : ∀ component ∈ document.components,
    ∀ curve ∈ component.ellipticCurve, curve ∈ defs.ellipticCurves
  properties : ∀ component ∈ document.components,
    ∀ property ∈ component.properties, ∃ text, property.2 = .str text
  locations : ∀ component ∈ document.components,
    ∀ location ∈ component.locations, ∃ text, location = .str text
  privateKeys : ∀ component ∈ document.components,
    ("pqcscan:probe", Json.str "fs.cert.privkey") ∈ component.properties →
      component.assetType ≠ "certificate"
  elliptic : ∀ component ∈ document.components,
    component.ellipticCurve.isSome = true → Elliptic tables component.name.toList

/-- A finding whose component is clean. -/
structure Exportable (tables : CaseTables) (row : FindingRow) : Prop where
  key : startsWith row.probeId.toList "net." = true ∨
    startsWith row.probeId.toList "fs.cert" = true ∨
      startsWith row.probeId.toList "fs.privkey" = false ∧
        endsWith row.probeId.toList ".privkey" = false
  notPrivateKey : row.probeId ≠ "fs.cert.privkey"
  confidence : ∀ value, row.evidence.get? "confidence" = some value → ∃ text,
    value = .str text
  elliptic : ∀ token ∈ curveTokens row.algorithm.toList row.evidence, ∀ entry ∈ curveEnum,
    contains (tables.upper token) entry.1 = true → Elliptic tables row.algorithm.toList

/-! ## What is always clean -/

theorem primitiveFor_mem (tables : CaseTables) (algorithm : List Char) :
    primitiveFor tables algorithm ∈ primitives := by
  unfold primitiveFor
  dsimp only
  split_ifs <;> decide

theorem algorithmFamilyFor_mem (defs : CryptographyDefs) {tables : CaseTables}
    {algorithm : List Char} {family : String}
    (found : algorithmFamilyFor tables algorithm = some family) :
    family ∈ defs.algorithmFamilies := by
  rw [algorithmFamilyFor, Option.map_eq_some_iff] at found
  obtain ⟨rule, located, rfl⟩ := found
  exact defs.families_listed (List.mem_map_of_mem (List.mem_of_find?_eq_some located))

theorem ellipticCurveFor_mem (defs : CryptographyDefs) {tables : CaseTables}
    {algorithm : List Char} {evidence : Dict String Json} {curve : String}
    (found : ellipticCurveFor tables algorithm evidence = some curve) :
    curve ∈ defs.ellipticCurves := by
  obtain ⟨token, -, named⟩ := List.exists_of_findSome?_eq_some found
  rw [Option.map_eq_some_iff] at named
  obtain ⟨entry, located, rfl⟩ := named
  exact defs.curves_listed (List.mem_map_of_mem (List.mem_of_find?_eq_some located))

/-- A curve is given exactly when a token names one of the table. -/
theorem ellipticCurveFor_isSome {tables : CaseTables} {algorithm : List Char}
    {evidence : Dict String Json} :
    (ellipticCurveFor tables algorithm evidence).isSome = true ↔
      ∃ token ∈ curveTokens algorithm evidence, ∃ entry ∈ curveEnum,
        contains (tables.upper token) entry.1 = true := by
  rw [ellipticCurveFor, List.findSome?_isSome_iff]
  simp only [Option.isSome_map, List.find?_isSome]

theorem mem_fleetProperties {evidence : Dict String Json} {property : String × Json}
    (member : property ∈ fleetProperties evidence) :
    ∃ key ∈ ["host", "machine_id"], ∃ text,
      property = ("pqcscan:" ++ key, .str text) := by
  rw [fleetProperties] at member
  split at member
  · next members found =>
    obtain ⟨key, listed, given⟩ := List.mem_filterMap.mp member
    split at given
    · next value stated =>
      split at given
      · cases given
      · cases given
        exact ⟨key, listed, value, rfl⟩
    · cases given
  · cases member

theorem occurrences_str {evidence : Dict String Json} {location : Json}
    (member : location ∈ occurrences evidence) : ∃ text, location = .str text := by
  rw [occurrences] at member
  split at member
  · next path found =>
    split at member
    · cases member
    · exact ⟨path, List.mem_singleton.mp member⟩
  · cases member

theorem bomRef_injective {left right : FindingRow} (same : bomRef left = bomRef right) :
    left.id = right.id := by
  have texts := congrArg String.toList same
  rw [bomRef, bomRef, String.toList_append, String.toList_append,
    List.append_cancel_left_eq, Nat.toString_eq_repr, Nat.toString_eq_repr,
    Nat.toList_repr, Nat.toList_repr] at texts
  have numbers := congrArg (fun digits => Nat.ofDigitChars 10 digits 0) texts
  simpa only [Nat.ofDigitChars_ten_toDigits] using numbers

theorem bomRef_ne_hostRef (row : FindingRow) (scanId : Nat) :
    bomRef row ≠ "host-scan-" ++ toString scanId := by
  intro same
  have texts := congrArg String.toList same
  rw [bomRef, String.toList_append, String.toList_append] at texts
  have finding : "finding-".toList.head? = some 'f' := by decide
  have host : "host-scan-".toList.head? = some 'h' := by decide
  have letter := congrArg List.head? texts
  rw [List.head?_append, List.head?_append, finding, host] at letter
  cases letter

theorem ids_nodup (db : Database) (scanId : Nat) :
    ((Repo.listFindings db scanId).map FindingRow.id).Nodup := by
  have stored : (db.findings.rows.map FindingRow.id).Nodup :=
    List.pairwise_map.mpr (db.findings.ascending.imp fun below => below.ne)
  have permuted := List.perm_insertionSort
    (fun left right : FindingRow => left.createdAt ≤ right.createdAt)
    (db.findings.rows.filter (·.scanId == scanId))
  rw [Repo.listFindings, (permuted.map FindingRow.id).nodup_iff]
  exact stored.sublist (List.filter_sublist.map FindingRow.id)

theorem refs_nodup (tables : CaseTables) (db : Database) (scanId : Nat) :
    (("host-scan-" ++ toString scanId) ::
      (componentsOf tables (Repo.listFindings db scanId)).map
        Component.bomRef).Nodup := by
  rw [componentsOf, List.map_map, List.nodup_cons]
  constructor
  · intro member
    obtain ⟨row, -, same⟩ := List.mem_map.mp member
    exact bomRef_ne_hostRef row scanId same
  · have apart := (List.pairwise_map.mp (ids_nodup db scanId)).sublist
      (List.filter_sublist (p := inventoried))
    exact List.pairwise_map.mpr (apart.imp fun differ same =>
      differ (bomRef_injective same))

/-! ## What depends on the findings -/

theorem assetTypeFor_mem (probeId : List Char) :
    assetTypeFor probeId ∈ assetTypes ↔
      startsWith probeId "net." = true ∨ startsWith probeId "fs.cert" = true ∨
        startsWith probeId "fs.privkey" = false ∧
        endsWith probeId ".privkey" = false := by
  rw [assetTypeFor]
  cases startsWith probeId "net." with
  | true => simp [assetTypes]
  | false =>
      cases startsWith probeId "fs.cert" with
      | true => simp [assetTypes]
      | false =>
          cases startsWith probeId "fs.privkey" <;> cases endsWith probeId ".privkey" <;>
            simp [assetTypes]

theorem confidence_str {evidence : Dict String Json} :
    (∃ text, (evidence.get? "confidence").getD (.str "high") = .str text) ↔
      ∀ value, evidence.get? "confidence" = some value → ∃ text, value = .str text := by
  cases evidence.get? "confidence" with
  | none => simp
  | some value => simp

theorem properties_str (tables : CaseTables) (row : FindingRow) :
    (∀ property ∈ (componentOf tables row).properties, ∃ text, property.2 = .str text) ↔
      ∀ value, row.evidence.get? "confidence" = some value → ∃ text,
        value = .str text := by
  rw [← confidence_str, componentOf, List.forall_mem_append, List.forall_mem_cons,
    List.forall_mem_singleton]
  refine ⟨fun all => all.1.1, fun stated => ⟨⟨stated, _, rfl⟩, ?_⟩⟩
  intro property member
  obtain ⟨key, -, text, rfl⟩ := mem_fleetProperties member
  exact ⟨text, rfl⟩

/-- The provenance of a component is the probe of its finding. -/
theorem probe_mem_properties (tables : CaseTables) (row : FindingRow) {probe : String} :
    ("pqcscan:probe", Json.str probe) ∈ (componentOf tables row).properties ↔
      row.probeId = probe := by
  rw [componentOf, List.mem_append, List.mem_cons, List.mem_singleton]
  constructor
  · rintro ((other | same) | fleet)
    · exact absurd (Prod.mk.inj other).1 (by decide)
    · exact (Json.str.inj (Prod.mk.inj same).2).symm
    · have names : ∀ key ∈ ["host", "machine_id"],
          "pqcscan:probe" ≠ "pqcscan:" ++ key := by
        decide
      obtain ⟨key, listed, text, same⟩ := mem_fleetProperties fleet
      exact absurd (Prod.mk.inj same).1 (names key listed)
  · rintro rfl
    exact Or.inl (Or.inr rfl)

theorem privateKey_certificate (tables : CaseTables) {row : FindingRow}
    (probe : row.probeId = "fs.cert.privkey") :
    (componentOf tables row).assetType = "certificate" := by
  change assetTypeFor row.probeId.toList = "certificate"
  rw [probe]
  decide

theorem inventoried_iff (row : FindingRow) :
    inventoried row = true ↔ row.algorithm ≠ "N/A" ∧ row.probeId ≠ "fleet.drift" := by
  simp [inventoried, driftProbe]

theorem mem_componentsOf {tables : CaseTables} {rows : List FindingRow}
    {holds : Component → Prop} :
    (∀ component ∈ componentsOf tables rows, holds component) ↔
      ∀ row ∈ rows, row.algorithm ≠ "N/A" ∧ row.probeId ≠ "fleet.drift" →
        holds (componentOf tables row) := by
  simp only [componentsOf, List.forall_mem_map, List.mem_filter, inventoried_iff, and_imp]

/-- The document of a scan is clean exactly when each of its findings is exportable. -/
theorem schemaClean_iff (defs : CryptographyDefs) (tables : CaseTables) (stamp : Stamp)
    {db : Database} {scanId : Nat} {document : Document}
    (built : buildCbom tables stamp db scanId = .ok document) :
    SchemaClean defs tables (Repo.listFindings db scanId) document ↔
      ∀ row ∈ Repo.listFindings db scanId,
        row.algorithm ≠ "N/A" ∧ row.probeId ≠ "fleet.drift" → Exportable tables row := by
  rw [buildCbom] at built
  cases stored : db.scans.get? scanId with
  | none =>
      rw [stored] at built
      cases built
  | some scan =>
      rw [stored] at built
      injection built with equal
      have components :
          document.components = componentsOf tables (Repo.listFindings db scanId) := by
        rw [← equal]
      have hostRef : document.hostRef = "host-scan-" ++ toString scanId := by rw [← equal]
      constructor
      · intro clean row member counted
        have each := fun {holds : Component → Prop}
            (all : ∀ component ∈ document.components, holds component) =>
          mem_componentsOf.mp (components ▸ all) row member counted
        refine ⟨(assetTypeFor_mem _).mp (each clean.assetType), ?_, ?_, ?_⟩
        · intro probe
          exact each clean.privateKeys ((probe_mem_properties tables row).mpr probe)
            (privateKey_certificate tables probe)
        · exact (properties_str tables row).mp (each clean.properties)
        · intro token listed entry tabled within
          exact each clean.elliptic
            (ellipticCurveFor_isSome.mpr ⟨token, listed, entry, tabled, within⟩)
      · intro exportable
        have each : ∀ {holds : Component → Prop}, (∀ row ∈ Repo.listFindings db scanId,
            row.algorithm ≠ "N/A" ∧ row.probeId ≠ "fleet.drift" → Exportable tables row →
              holds (componentOf tables row)) →
            ∀ component ∈ document.components, holds component := by
          intro holds all
          rw [components, mem_componentsOf]
          exact fun row member counted =>
            all row member counted (exportable row member counted)
        refine ⟨?_, ?_, ?_, ?_, ?_, ?_, ?_, ?_, ?_, ?_⟩
        · have same : inventoried =
              fun row => decide (row.algorithm ≠ "N/A" ∧
                row.probeId ≠ "fleet.drift") := by
            funext row
            rw [Bool.eq_iff_iff, inventoried_iff, decide_eq_true_eq]
          rw [components, componentsOf, List.map_map, same]
          rfl
        · rw [hostRef, components]
          exact refs_nodup tables db scanId
        · exact each fun row _ _ clean => (assetTypeFor_mem _).mpr clean.key
        · exact each fun row _ _ _ => primitiveFor_mem tables _
        · exact each fun row _ _ _ family found => algorithmFamilyFor_mem defs found
        · exact each fun row _ _ _ curve found => ellipticCurveFor_mem defs found
        · exact each fun row _ _ clean => (properties_str tables row).mpr clean.confidence
        · exact each fun row _ _ _ location found => occurrences_str found
        · exact each fun row _ _ clean probe _ =>
            clean.notPrivateKey ((probe_mem_properties tables row).mp probe)
        · refine each fun row _ _ clean curved => ?_
          obtain ⟨token, listed, entry, tabled, within⟩ :=
            ellipticCurveFor_isSome.mp curved
          exact clean.elliptic token listed entry tabled within

/-- Enumerations with nothing but the names that the program quotes. -/
def quotedDefs : CryptographyDefs where
  algorithmFamilies := familyRules.map Prod.snd
  ellipticCurves := curveEnum.map Prod.snd
  families_listed := List.Subset.refl _
  curves_listed := List.Subset.refl _

/-- A scan. -/
def inventoryScan : Scan where
  id := 1
  startedAt := 0
  finishedAt := some 1
  hostFingerprint := none
  mode := "user"
  status := "done"
  label := none
  probeVersions := Dict.empty
  toolVersions := Dict.empty
  hostId := none
  scanUuid := none

/-- A finding of the scan about an RSA key. -/
def keyFinding (probeId : String) : FindingRow where
  id := 1
  scanId := 1
  componentId := none
  probeId := probeId
  algorithm := "RSA-2048"
  classification := "sangat-tinggi"
  severity := "crit"
  title := "RSA-2048 key"
  evidence := Dict.empty
  remediation := Dict.empty
  createdAt := 0

/-- The store with the scan and the finding. -/
def keyStore (probeId : String) : Database :=
  { (Database.empty.insertScan? inventoryScan).getD Database.empty with
    findings := Table.empty.add (keyFinding probeId) }

theorem listFindings_keyStore (probeId : String) :
    Repo.listFindings (keyStore probeId) 1 = [keyFinding probeId] := rfl

theorem schemaClean_certificate :
    ∃ document, buildCbom plainTables ⟨"", "", ""⟩
      (keyStore "fs.cert.x509") 1 = .ok document ∧
      SchemaClean quotedDefs plainTables (Repo.listFindings (keyStore "fs.cert.x509") 1)
        document := by
  refine ⟨_, rfl, (schemaClean_iff quotedDefs plainTables ⟨"", "", ""⟩ rfl).mpr ?_⟩
  intro row member _
  rw [listFindings_keyStore, List.mem_singleton] at member
  have absent : ∀ entry ∈ curveEnum,
      contains (plainTables.upper "RSA-2048".toList) entry.1 = false := by decide
  rw [member]
  refine ⟨by decide, by decide, nofun, ?_⟩
  intro token listed entry tabled within
  have token : token = "RSA-2048".toList := List.mem_singleton.mp listed
  rw [token, absent entry tabled] at within
  cases within

/-- A private key is exported as a certificate. -/
theorem privateKey_not_clean :
    ¬ ∀ (defs : CryptographyDefs) (tables : CaseTables) (stamp : Stamp) (db : Database)
        (scanId : Nat) (document : Document),
          buildCbom tables stamp db scanId = .ok document →
      SchemaClean defs tables (Repo.listFindings db scanId) document := by
  intro always
  have clean := always quotedDefs plainTables ⟨"", "",
    ""⟩ (keyStore "fs.cert.privkey") 1 _ rfl
  have component :=
    clean.privateKeys (componentOf plainTables (keyFinding "fs.cert.privkey"))
    List.mem_cons_self
  exact component ((probe_mem_properties plainTables _).mpr rfl)
    (privateKey_certificate plainTables rfl)

end Cbom
end Renderers
end PqcScan
