import PqcScan.Probes.Cloudformation

/-!
# Policies of a service mesh

`K8sMeshPolicy` of `k8s_mesh_policy.py` on a loaded manifest: the modes of Istio and the
private keys of cert-manager.
-/

namespace PqcScan
namespace Probes
namespace K8sMeshPolicy

open Library Python PqcScan.Core

/-- What the probe asks of a scalar that is neither a number nor
text, by what `str` gives. -/
structure Scalars where
  isTrue : List Char → Bool
  /-- `int` of a scalar: the inner option is for a `ValueError` or a `TypeError`, the
  outer one for an `OverflowError`. -/
  int : List Char → Option (Option Int)

section Scans

variable (tables : CaseTables) (loaders : Loaders) (scalars : Scalars)

/-- `bool(value)`. -/
def truthy : Document → Bool
  | .null => false
  | .bool value => value
  | .int value => value != 0
  | .text value => !value.isEmpty
  | .other printed => scalars.isTrue printed
  | .list items => !items.isEmpty
  | .dict entries => !entries.isEmpty

/-- `entries.get("NAME") or {}` where `get` is called on it; nothing stands for the
`AttributeError` of a value without it. -/
def section_ (entries : List (Document × Document)) (name : String) :
    Option (List (Document × Document)) :=
  match getEntry entries name with
  | none => some []
  | some value => if truthy scalars value then value.dict? else some []

/-- `str(entries.get("NAME", DEFAULT))`. -/
def printed (entries : List (Document × Document)) (name default : String) :
    Option (List Char) :=
  match getEntry entries name with
  | none => some default.toList
  | some value => strOf tables loaders value

/-- `_name`. -/
def name (doc : List (Document × Document)) : Option (List Char) :=
  match getEntry doc "metadata" with
  | none => printed tables loaders [] "name" "?"
  | some meta_ =>
      if truthy scalars meta_ then
        match meta_ with
        | .dict entries => printed tables loaders entries "name" "?"
        | _ => some "?".toList
      else printed tables loaders [] "name" "?"

/-- `str(entries.get("mode", "")).strip().upper()`. -/
def mode (entries : List (Document × Document)) : Option (List Char) :=
  (printed tables loaders entries "mode" "").map fun text => tables.upper (strip text)

variable (now : DateTime) (path : Path) (doc : List (Document × Document))

/-- `_peer_authentication`; nothing stands for an exception. -/
def peerAuthentication : Option (List Finding) := do
  let spec ← section_ scalars doc "spec"
  let mtls ← section_ scalars spec "mtls"
  let mode ← mode tables loaders mtls
  if mode = [] then pure []
  else
    let name ← name tables loaders scalars doc
    let evidence := Dict.ofList [("path", .str path.str),
      ("kind", .str "PeerAuthentication"), ("name", .str (String.ofList name)),
      ("mode", .str (String.ofList mode))]
    if oneOf mode ["DISABLE", "PERMISSIVE"] then
      pure [{
        probeId := "k8s.mesh.policy"
        algorithm := "mTLS"
        classification := .tinggi
        severity := .high
        title := "Istio PeerAuthentication " ++ String.ofList name ++ " mtls.mode=" ++
          String.ofList mode ++ " (plaintext or downgradeable mesh traffic)"
        evidence := evidence
        remediation := Dict.ofList [("snippet", .str "spec:\n  mtls:\n    mode: STRICT")]
        createdAt := now }]
    else if oneOf mode ["STRICT"] then
      pure [{
        probeId := "k8s.mesh.policy"
        algorithm := "mTLS"
        classification := .info
        severity := .info
        title := "Istio PeerAuthentication " ++ String.ofList name ++ " mtls.mode=STRICT"
        evidence := evidence
        createdAt := now }]
    else pure []

/-- `_destination_rule`; nothing stands for an exception. -/
def destinationRule : Option (List Finding) := do
  let spec ← section_ scalars doc "spec"
  let traffic ← section_ scalars spec "trafficPolicy"
  let tls ← section_ scalars traffic "tls"
  let mode ← mode tables loaders tls
  if !oneOf mode ["DISABLE"] then pure []
  else
    let name ← name tables loaders scalars doc
    pure [{
      probeId := "k8s.mesh.policy"
      algorithm := "mTLS"
      classification := .tinggi
      severity := .high
      title := "Istio DestinationRule " ++ String.ofList name ++
        " trafficPolicy.tls.mode=DISABLE (plaintext mesh traffic)"
      evidence := Dict.ofList [("path", .str path.str), ("kind", .str "DestinationRule"),
        ("name", .str (String.ofList name)), ("mode", .str (String.ofList mode))]
      remediation := Dict.ofList
        [("snippet", .str "spec:\n  trafficPolicy:\n    tls:\n      mode: ISTIO_MUTUAL")]
      createdAt := now }]

/-! ## Private keys -/

/-- `int(text)`, or nothing for a `ValueError`. -/
def intText (text : List Char) : Option Int :=
  let text := strip text
  let (sign, digits) := match text with
    | '-' :: rest => ((-1 : Int), rest)
    | '+' :: rest => (1, rest)
    | _ => (1, text)
  if (digits.splitOn '_').all fun group => !group.isEmpty && group.all tables.isDigit then
    (tables.intOf (digits.filter (· ≠ '_'))).map fun value => sign * value
  else none

/-- `int(size) if size is not None else None`, and `None` for a `ValueError` or a
`TypeError`; nothing stands for another exception. -/
def sizeInt : Option Document → Option (Option Int)
  | none => some none
  | some .null => some none
  | some (.bool value) => some (some (if value then 1 else 0))
  | some (.int value) => some (some value)
  | some (.text value) => some (intText tables value)
  | some (.other printed) => scalars.int printed
  | some (.list _) => some none
  | some (.dict _) => some none

/-- `RSA-{size_int}`; nothing stands for a `ValueError`. -/
def sizedName (size : Int) : Option (List Char) :=
  (printInt tables size).map fun digits => "RSA-".toList ++ digits

/-- `algorithm == "RSA" and size_int is not None and size_int < 2048`. -/
def weakRsa (algorithm : List Char) (size : Option Int) : Bool :=
  oneOf algorithm ["RSA"] && size.any (· < 2048)

/-- `alg_label`. -/
def algLabel (algorithm : List Char) (size : Option Int) : Option (List Char) :=
  match size with
  | none => some algorithm
  | some size =>
      if oneOf algorithm ["RSA"] && size != 0 then sizedName tables size
      else some algorithm

/-- The evidence on a private key. -/
def keyEvidence (kind name algorithm : List Char) (size : Option Int) :
    Dict String Json :=
  Dict.ofList [("path", .str path.str), ("kind", .str (String.ofList kind)),
    ("name", .str (String.ofList name)), ("algorithm", .str (String.ofList algorithm)),
    ("size", size.elim .null .int)]

/-- `_cert_manager`; nothing stands for an exception. -/
def certManager (kind : List Char) : Option (List Finding) := do
  let spec ← section_ scalars doc "spec"
  let privateKey ← section_ scalars spec "privateKey"
  let algorithm := tables.upper
    (strip (← printed tables loaders privateKey "algorithm" ""))
  if algorithm = [] then pure []
  else
    let size ← sizeInt tables scalars (getEntry privateKey "size")
    let name ← name tables loaders scalars doc
    if weakRsa algorithm size then
      let label ← sizedName tables (size.getD 0)
      pure [{
        probeId := "k8s.mesh.policy"
        algorithm := String.ofList label
        classification := .tinggi
        severity := .high
        title := "cert-manager " ++ String.ofList kind ++ " " ++ String.ofList name ++
          " privateKey " ++ String.ofList label ++
          " (<2048, classical/quantum-vulnerable)"
        evidence := keyEvidence path kind name algorithm size
        remediation := Dict.ofList
          [("snippet", .str "spec:\n  privateKey:\n    algorithm: RSA\n    size: 3072")]
        createdAt := now }]
    else
      let label ← algLabel tables algorithm size
      pure [{
        probeId := "k8s.mesh.policy"
        algorithm := String.ofList label
        classification := .sederhana
        severity := .med
        title := "cert-manager " ++ String.ofList kind ++ " " ++ String.ofList name ++
          " privateKey " ++ String.ofList label ++ " (classical/quantum-vulnerable)"
        evidence := keyEvidence path kind name algorithm size
        createdAt := now }]

/-- `_scan_doc`; nothing stands for an exception. -/
def scanDoc : Option (List Finding) := do
  let kind := strip (← printed tables loaders doc "kind" "")
  if oneOf kind ["PeerAuthentication"] then
    peerAuthentication tables loaders scalars now path doc
  else if oneOf kind ["DestinationRule"] then
    destinationRule tables loaders scalars now path doc
  else if oneOf kind ["Certificate", "Issuer", "ClusterIssuer"] then
    certManager tables loaders scalars now path doc kind
  else pure []

end Scans

/-- A private key that is read at all is rated by its own bound, and
never graver than high. -/
theorem certManager_cases {tables : CaseTables} {loaders : Loaders} {scalars : Scalars}
    {now : DateTime} {path : Path} {doc : List (Document × Document)} {kind : List Char}
    {findings : List Finding}
    (scanned : certManager tables loaders scalars now path doc kind = some findings) :
    findings = [] ∨ ∃ spec privateKey printedAlgorithm size finding,
      section_ scalars doc "spec" = some spec ∧
      section_ scalars spec "privateKey" = some privateKey ∧
      printed tables loaders privateKey "algorithm" "" = some printedAlgorithm ∧
      sizeInt tables scalars (getEntry privateKey "size") = some size ∧
      findings = [finding] ∧
      finding.classification =
        if weakRsa (tables.upper (strip printedAlgorithm)) size then .tinggi
        else .sederhana := by
  obtain ⟨spec, specified, scanned⟩ := Option.bind_eq_some_iff.mp scanned
  obtain ⟨privateKey, keyed, scanned⟩ := Option.bind_eq_some_iff.mp scanned
  obtain ⟨text, named, scanned⟩ := Option.bind_eq_some_iff.mp scanned
  simp only at scanned
  split at scanned
  · cases scanned
    exact .inl rfl
  · obtain ⟨size, sized, scanned⟩ := Option.bind_eq_some_iff.mp scanned
    obtain ⟨name, -, scanned⟩ := Option.bind_eq_some_iff.mp scanned
    refine .inr ⟨spec, privateKey, text, size, ?_⟩
    split at scanned
    · next weak =>
      obtain ⟨label, -, scanned⟩ := Option.bind_eq_some_iff.mp scanned
      cases scanned
      exact ⟨_, specified, keyed, named, sized, rfl, (if_pos weak).symm⟩
    · next strong =>
      obtain ⟨label, -, scanned⟩ := Option.bind_eq_some_iff.mp scanned
      cases scanned
      exact ⟨_, specified, keyed, named, sized, rfl, (if_neg strong).symm⟩

end K8sMeshPolicy
end Probes
end PqcScan
