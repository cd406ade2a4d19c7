import PqcScan.Library.FirstSeen
import PqcScan.Library.Grouping
import PqcScan.Probes.Decode
import PqcScan.Probes.Pcap
import PqcScan.Probes.Severity
import PqcScan.Probes.SniffLive
import PqcScan.Probes.Stream
import PqcScan.Probes.TlsHello

/-!
# Captures, read from a file and off the wire

`FsPcapCrypto._scan_file` of `probes/fs_pcap_crypto.py` and `NetSniffLive._process` of
`probes/net_sniff_live.py`.  The file is read segment by segment, the live capture flow by
flow.
-/

namespace PqcScan
namespace Probes

open Library Python PqcScan.Core Hello

/-! ## Tables -/

/-- `_TLS_VERSIONS`, as far as it is read. -/
def tlsVersions : List (Nat × String) :=
  [(0x0300, "SSLv3"), (0x0301, "TLS 1.0"), (0x0302, "TLS 1.1")]

/-- `_TLS_GROUPS`: the name, and whether the group is post-quantum. -/
def tlsGroups : List (Nat × String × Bool) :=
  [(0x001D, "x25519", false), (0x0017, "secp256r1", false), (0x0018, "secp384r1", false),
    (0x0019, "secp521r1", false), (0x0100, "ffdhe2048", false),
    (0x0101, "ffdhe3072", false), (0x0102, "ffdhe4096", false),
    (0x11EC, "X25519MLKEM768", true), (0x11EB, "SecP256r1MLKEM768", true),
    (0x11ED, "SecP384r1MLKEM1024", true), (0x6399, "X25519Kyber768Draft00", true),
    (0x639A, "SecP256r1Kyber768Draft00", true)]

/-- `_CIPHER_SUITES`. -/
def tlsCipherSuites : List (Nat × String) :=
  [(0x0000, "TLS_NULL_WITH_NULL_NULL"),
    (0x0001, "TLS_RSA_WITH_NULL_MD5"),
    (0x0002, "TLS_RSA_WITH_NULL_SHA"),
    (0x0004, "TLS_RSA_WITH_RC4_128_MD5"),
    (0x0005, "TLS_RSA_WITH_RC4_128_SHA"),
    (0x000A, "TLS_RSA_WITH_3DES_EDE_CBC_SHA"),
    (0x002F, "TLS_RSA_WITH_AES_128_CBC_SHA"),
    (0x0035, "TLS_RSA_WITH_AES_256_CBC_SHA"),
    (0x003C, "TLS_RSA_WITH_AES_128_CBC_SHA256"),
    (0x009C, "TLS_RSA_WITH_AES_128_GCM_SHA256"),
    (0x009D, "TLS_RSA_WITH_AES_256_GCM_SHA384"),
    (0x0033, "TLS_DHE_RSA_WITH_AES_128_CBC_SHA"),
    (0x0039, "TLS_DHE_RSA_WITH_AES_256_CBC_SHA"),
    (0x0067, "TLS_DHE_RSA_WITH_AES_128_CBC_SHA256"),
    (0x009E, "TLS_DHE_RSA_WITH_AES_128_GCM_SHA256"),
    (0x009F, "TLS_DHE_RSA_WITH_AES_256_GCM_SHA384"),
    (0xC007, "TLS_ECDHE_ECDSA_WITH_RC4_128_SHA"),
    (0xC009, "TLS_ECDHE_ECDSA_WITH_AES_128_CBC_SHA"),
    (0xC00A, "TLS_ECDHE_ECDSA_WITH_AES_256_CBC_SHA"),
    (0xC011, "TLS_ECDHE_RSA_WITH_RC4_128_SHA"),
    (0xC012, "TLS_ECDHE_RSA_WITH_3DES_EDE_CBC_SHA"),
    (0xC013, "TLS_ECDHE_RSA_WITH_AES_128_CBC_SHA"),
    (0xC014, "TLS_ECDHE_RSA_WITH_AES_256_CBC_SHA"),
    (0xC027, "TLS_ECDHE_RSA_WITH_AES_128_CBC_SHA256"),
    (0xC02B, "TLS_ECDHE_ECDSA_WITH_AES_128_GCM_SHA256"),
    (0xC02C, "TLS_ECDHE_ECDSA_WITH_AES_256_GCM_SHA384"),
    (0xC02F, "TLS_ECDHE_RSA_WITH_AES_128_GCM_SHA256"),
    (0xC030, "TLS_ECDHE_RSA_WITH_AES_256_GCM_SHA384"),
    (0xCCA8, "TLS_ECDHE_RSA_WITH_CHACHA20_POLY1305_SHA256"),
    (0xCCA9, "TLS_ECDHE_ECDSA_WITH_CHACHA20_POLY1305_SHA256"),
    (0x1301, "TLS_AES_128_GCM_SHA256"),
    (0x1302, "TLS_AES_256_GCM_SHA384"),
    (0x1303, "TLS_CHACHA20_POLY1305_SHA256"),
    (0x1304, "TLS_AES_128_CCM_SHA256")]

/-- What is said of a cipher suite that has a name and a class. -/
def suiteRow (code : Nat) : Option (String × Classification) :=
  (tlsCipherSuites.lookup code).bind fun name =>
    let cls := classifySuite name.toList
    if cls = .info then none else some (name, cls)

/-- The class of a key exchange. -/
def groupTier (isPqc : Bool) : Classification := if isPqc then .pqcReady else .tinggi

/-- What is said of a group that has a name. -/
def groupRow (code : Nat) : Option (String × Classification) :=
  (tlsGroups.lookup code).map fun entry => (entry.1, groupTier entry.2)

/-! ## A capture file -/

namespace FsPcapCrypto

/-- `_MAX_FINDINGS_PER_FILE`. -/
def maxFindingsPerFile : Nat := 512

/-- The protocol of an observation. -/
inductive Protocol
  | tls
  | ssh
  | quic
  deriving DecidableEq, Repr

/-- The text of a protocol in a record. -/
def Protocol.value : Protocol → String
  | .tls => "tls"
  | .ssh => "ssh"
  | .quic => "quic"

/-- What the readers of the other protocols say of a payload:
`parse_ssh_kexinit` with `_analyze_ssh` of a TCP payload, `extract_client_hello`
with what follows it of a UDP payload. -/
structure Readers where
  ssh : Bytes → List (String × Classification)
  quic : Bytes → List (String × Classification)

/-- `f"group-0x{code:04x}"`. -/
def unnamedGroup (code : Nat) : String :=
  let digits := Nat.toDigits 16 code
  String.ofList ("group-0x".toList ++ (List.replicate (4 - digits.length) '0' ++ digits))

/-- `tls["selected_version"] or tls["legacy_version"]`. -/
def effectiveVersion (fields : ServerFields) : Nat :=
  match fields.selectedVersion with
  | some version => if version = 0 then fields.legacyVersion else version
  | none => fields.legacyVersion

/-- The part of `_analyze_tls` for a ServerHello. -/
def serverHelloRows (fields : ServerFields) : List (String × Classification) :=
  ((tlsVersions.lookup (effectiveVersion fields)).map fun name =>
      (name, Classification.sangatTinggi)).toList ++
    ((suiteRow fields.cipher).toList ++
      (fields.group.map fun code =>
        (groupRow code).getD (unnamedGroup code, .tinggi)).toList)

/-- `_analyze_tls`. -/
def analyzeTls : HelloFields → List (String × Classification)
  | .clientHello fields =>
      fields.cipherSuites.filterMap suiteRow ++
        fields.groups.filterMap fun code =>
          (tlsGroups.lookup code).bind fun entry =>
            if entry.2 then some (entry.1, .pqcReady) else none
  | .serverHello fields => serverHelloRows fields

section Scan

variable (readers : Readers)

/-- `_analyze`. -/
def analyze (payload : Bytes) : Transport → List (Protocol × String × Classification)
  | .udp => (readers.quic payload).map (Prod.mk .quic)
  | .tcp =>
      match handshakeOf payload with
      | some tls => (analyzeTls tls).map (Prod.mk .tls)
      | none => (readers.ssh payload).map (Prod.mk .ssh)

/-- An observation and the segment it was made in. -/
abbrev Observed := Segment × Protocol × String × Classification

/-- What a packet of the file shows. -/
def observed (packet : Packet) : List Observed :=
  match decodePacket packet.1 packet.2 with
  | none => []
  | some seg =>
      if seg.payload = [] then []
      else (analyze readers seg.payload seg.proto).map (Prod.mk seg)

/-- `(proto, endpoint, alg)`. -/
def observedKey (entry : Observed) : Protocol × List Char × String :=
  (entry.2.1, entry.1.endpoint, entry.2.2.1)

/-- The loops of `_scan_file`. -/
def scan (data : Bytes) : Reporting Observed (Protocol × List Char × String) :=
  (iterPackets data).items.foldl
    (fun state packet =>
      (observed readers packet).foldl
        (Reporting.visit observedKey maxFindingsPerFile) state)
    Reporting.start

/-- `_finding`. -/
def finding (path name : String) (now : DateTime) (entry : Observed) : Finding :=
  let (seg, proto, alg, cls) := entry
  let src := String.ofList seg.src
  let dst := String.ofList seg.dst
  { probeId := "fs.pcap.crypto"
    algorithm := alg
    classification := cls
    severity := sevFor cls
    title := name ++ ": " ++ proto.value.toUpper ++ " " ++ alg ++
      " negotiated (" ++ src ++
      " -> " ++ dst ++ ")"
    evidence := Dict.ofList [("file", .str path), ("src", .str src), ("dst", .str dst),
      ("proto", .str proto.value)]
    createdAt := now }

/-- The note at the end of a list that was cut off. -/
def capNote (path name : String) (now : DateTime) : Finding :=
  { probeId := "fs.pcap.crypto"
    algorithm := "N/A"
    classification := .info
    severity := .info
    title := name ++ ": finding cap (" ++ maxFindingsPerFile.repr ++
      ") reached — output truncated"
    evidence := Dict.ofList [("file", .str path), ("cap", .int maxFindingsPerFile)]
    createdAt := now }

/-- `FsPcapCrypto._scan_file`; where the packets cannot be read on, it returns. -/
def scanFile (path name : String) (now : DateTime) (data : Bytes) : List Finding :=
  let state := scan readers data
  state.reports.map (finding path name now) ++
    if (iterPackets data).raised.isNone ∧ state.capped then [capNote path name now]
    else []

end Scan

end FsPcapCrypto

/-! ## A live capture -/

namespace NetSniffLive

/-- `_MAX_FINDINGS`. -/
def maxFindings : Nat := 500

/-- The kind of record an observation stems from. -/
inductive RecordKind
  | clientHello
  | serverHello
  | certificate
  deriving DecidableEq, Repr

/-- The text of a kind in a record. -/
def RecordKind.value : RecordKind → String
  | .clientHello => "client_hello"
  | .serverHello => "server_hello"
  | .certificate => "certificate"

/-- `_Observation`. -/
structure Observation where
  kind : RecordKind
  algorithm : String
  classification : Classification
  confidence : String
  advertised : Bool
  keyShare : Bool
  deriving DecidableEq, Repr

/-- `(src_ip, src_port, dst_ip, dst_port)`. -/
abbrev FlowKey := List Char × Nat × List Char × Nat

/-- The TCP segments with a payload, frame by frame. -/
def tcpSegments (frames : List Bytes) : List Segment :=
  frames.filterMap fun frame =>
    (decodePacket frame 1).filter fun seg => seg.proto = .tcp ∧ seg.payload ≠ []

/-- The dictionary of flows in `_reassemble_flows`. -/
def flows (frames : List Bytes) : Dict FlowKey (List (Nat × Bytes)) :=
  accumulate (fun seg => (seg.srcIp, seg.srcPort, seg.dstIp, seg.dstPort))
    (fun segs seg => segs ++ [(seg.seq, seg.payload)]) [] (tcpSegments frames) Dict.empty

/-- `_reassemble_flows`. -/
def reassembleFlows (frames : List Bytes) : List Segment :=
  (flows frames).entries.filterMap fun ((srcIp, srcPort, dstIp, dstPort), segs) =>
    let stream := reassembleStream segs
    if stream = [] then none else some ⟨.tcp, srcIp, srcPort, dstIp, dstPort, stream, 0⟩

/-- `_wrap_record`. -/
def wrapRecord (message : Bytes) : Bytes :=
  if 0xFFFF < message.length then []
  else [0x16, 0x03, 0x03] ++ u16 message.length ++ message

/-- `_client_hello_obs`. -/
def clientHelloObs (fields : ClientFields) : List Observation :=
  fields.groups.filterMap fun code =>
    (groupRow code).map fun row =>
      let offered := decide (code ∈ fields.keyShareGroups)
      ⟨.clientHello, row.1, row.2, if offered then "medium" else "low", true, offered⟩

/-- `_server_hello_obs`. -/
def serverHelloObs (fields : ServerFields) : List Observation :=
  ((suiteRow fields.cipher).toList ++ (fields.group.bind groupRow).toList).map fun row =>
    ⟨.serverHello, row.1, row.2, "medium", false, false⟩

/-- `_certificate_obs`.  `signatureOid` is the dotted identifier of the signature
algorithm of a certificate that can be loaded. -/
def certificateObs (signatureOid : Bytes → Option (List Char)) (payload : Bytes) :
    List Observation :=
  match extractCertificates payload with
  | [] => []
  | leaf :: _ =>
      match signatureOid leaf with
      | none => []
      | some oid =>
          let alg := normalise oid
          [⟨.certificate, String.ofList alg, classify alg, "high", false, false⟩]

/-- The loop of `_analyze` over the messages of a stream. -/
def messageObs (message : UInt8 × Bytes) : List Observation :=
  if message.1 = 0x01 then
    match handshakeOf (wrapRecord message.2) with
    | some (.clientHello fields) => clientHelloObs fields
    | _ => []
  else if message.1 = 0x02 then
    match handshakeOf (wrapRecord message.2) with
    | some (.serverHello fields) => serverHelloObs fields
    | _ => []
  else []

section Process

variable (signatureOid : Bytes → Option (List Char))

/-- `_analyze`. -/
def analyze (stream : Bytes) : List Observation :=
  (iterHandshakeMessages stream).flatMap messageObs ++ certificateObs signatureOid stream

/-- An observation and the flow it was made in. -/
abbrev Observed := Segment × Observation

/-- `(src_ip, dst_ip, dst_port, alg, kind)`. -/
def observedKey (entry : Observed) : List Char × List Char × Nat × String × RecordKind :=
  (entry.1.srcIp, entry.1.dstIp, entry.1.dstPort, entry.2.algorithm, entry.2.kind)

/-- The loops of `_process`. -/
def scan (frames : List Bytes) :
    Reporting Observed (List Char × List Char × Nat × String × RecordKind) :=
  (reassembleFlows frames).foldl
    (fun state seg =>
      ((analyze signatureOid seg.payload).map (Prod.mk seg)).foldl
        (Reporting.visit observedKey maxFindings) state)
    Reporting.start

/-- `_finding`. -/
def finding (now : DateTime) (entry : Observed) : Finding :=
  let (seg, obs) := entry
  let src := String.ofList seg.src
  let dst := String.ofList seg.dst
  let verb :=
    if obs.keyShare then "offered key_share for"
    else if obs.advertised then "advertised"
    else if obs.kind = .serverHello then "negotiated"
    else "served"
  { probeId := "net.sniff.live"
    algorithm := obs.algorithm
    classification := obs.classification
    severity := sevFor obs.classification
    title := "live: " ++ obs.kind.value ++ " " ++ verb ++ " " ++ obs.algorithm ++
      " (" ++ src ++
      " -> " ++ dst ++ ")"
    evidence := Dict.ofList ([("src", .str src), ("dst", .str dst),
      ("dst_port", .int seg.dstPort), ("record", .str obs.kind.value),
      ("algorithm", .str obs.algorithm), ("confidence", .str obs.confidence)] ++
      (if obs.advertised ∧ ¬ obs.keyShare then [("advertised", .bool true)] else []) ++
      if obs.keyShare then [("key_share_offered", .bool true)] else [])
    createdAt := now }

/-- `_info`. -/
def info (now : DateTime) (message : String) : Finding :=
  { probeId := "net.sniff.live"
    algorithm := "N/A"
    classification := .info
    severity := .info
    title := message
    evidence := Dict.ofList [("note", .str message)]
    createdAt := now }

/-- What the notes say of the capture: its seconds as printed, and `_iface_label`. -/
structure Window where
  seconds : String
  iface : String

/-- `NetSniffLive._process`. -/
def process (window : Window) (now : DateTime) (frames : List Bytes) : List Finding :=
  let state := scan signatureOid frames
  state.reports.map (finding now) ++
    (if state.capped then
      [info now ("finding cap (" ++ maxFindings.repr ++ ") reached on " ++ window.iface ++
        " — output truncated")]
    else []) ++
    if state.seen = [] then
      [info now ("no TLS handshakes observed in " ++ window.seconds ++ "s on " ++
        window.iface)]
    else []

end Process

end NetSniffLive

end Probes
end PqcScan
