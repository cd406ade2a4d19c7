import PqcScan.Probes.KrbRequest

/-!
# The Kerberos dialogue

`net_kerberos_etypes.py`: the AS-REQ that is sent, the reply of which a stream of bytes is
what arrives, and the findings.
-/

namespace PqcScan
namespace Probes
namespace NetKerberosEtypes

open Library Python PqcScan.Core Krb

/-! ## Encryption types -/

/-- `ETYPE_NAMES`. -/
def etypeNames : List (Int × String) :=
  [(1, "des-cbc-crc"), (2, "des-cbc-md4"), (3, "des-cbc-md5"), (16, "des3-cbc-sha1"),
    (17, "aes128-cts-hmac-sha1-96"), (18, "aes256-cts-hmac-sha1-96"),
    (19, "aes128-cts-hmac-sha256-128"), (20, "aes256-cts-hmac-sha384-192"),
    (23, "rc4-hmac"), (24, "rc4-hmac-exp")]

/-- `_etype_name`. -/
def etypeName (etype : Int) : String :=
  (etypeNames.lookup etype).getD ("etype-" ++ toString etype)

/-- `classify_etype`. -/
def classifyEtype (etype : Int) : Classification :=
  if etype ∈ ([1, 2, 3, 23, 24] : List Int) then .sangatTinggi
  else if etype ∈ ([16] : List Int) then .tinggi
  else if etype ∈ ([17, 19] : List Int) then .sederhana
  else if etype ∈ ([18, 20] : List Int) then .rendah
  else .info

/-- `_SEVERITY_FOR`, with its default. -/
def severityFor : Classification → Severity
  | .sangatTinggi => .crit
  | .tinggi => .high
  | .sederhana => .med
  | .rendah => .low
  | _ => .info

/-- `_OFFERED_ETYPES`. -/
def offeredEtypes : List Nat := [18, 20, 17, 19, 16, 23, 3, 2, 1, 24]

/-! ## Findings -/

/-- What is probed, and the time of the findings. -/
structure Kdc where
  host : String
  port : Int
  realm : String
  principal : String
  now : DateTime

namespace Kdc

variable (kdc : Kdc)

/-- The endpoint in the evidence. -/
def endpoint : String := kdc.host ++ ":" ++ toString kdc.port

/-- `None` or a number. -/
def number (value : Option Int) : Json := (value.map Json.int).getD .null

/-- The finding of an encryption type. -/
def supports (msgType : Option Nat) (etype : Int) : Finding where
  probeId := "net.kerberos.etypes"
  algorithm := "kerberos-etype/" ++ etypeName etype
  classification := classifyEtype etype
  severity := severityFor (classifyEtype etype)
  title := kdc.endpoint ++ " Kerberos KDC supports etype " ++ toString etype ++ " (" ++
    etypeName etype ++ ")"
  evidence := Dict.ofList [("host", .str kdc.host), ("port", .int kdc.port),
    ("realm", .str kdc.realm), ("etype", .int etype),
    ("etype_name", .str (etypeName etype)),
    ("msg_type", number (msgType.map fun type : Nat => (type : Int))),
    ("source", .str "as-rep/etype-info2")]
  createdAt := kdc.now

/-- `None` or a number in a title. -/
def shown (value : Option Int) : String :=
  (value.map fun code => toString code).getD "None"

/-- The finding of a reply without encryption types. -/
def reachable (reply : KdcReply) : Finding where
  probeId := "net.kerberos.etypes"
  algorithm := "Kerberos"
  classification := .info
  severity := .info
  title := kdc.endpoint ++ " Kerberos KDC reachable (error_code=" ++
    shown reply.errorCode ++
    "); etypes offered but not echoed"
  evidence := Dict.ofList [("host", .str kdc.host), ("port", .int kdc.port),
    ("realm", .str kdc.realm),
    ("msg_type", number (reply.msgType.map fun type : Nat => (type : Int))),
    ("error_code", number reply.errorCode),
    ("etypes_offered", .array (offeredEtypes.map fun etype : Nat =>
      .object [("etype", .int etype), ("name", .str (etypeName etype)),
        ("classification", .str (classifyEtype etype).value)])),
    ("note", .str ("KDC parsed the AS-REQ but did not return an ETYPE-INFO2 " ++
      "(unknown principal or no pre-auth data); the offered list " ++
      "shows which weak etypes this client would accept."))]
  createdAt := kdc.now

/-- What `run` makes of a reply. -/
def findings (reply : KdcReply) : List Finding :=
  if reply.etypes = [] then [kdc.reachable reply]
  else reply.etypes.map (kdc.supports reply.msgType)

end Kdc

/-! ## The dialogue -/

/-- What leaves `run` as an exception. -/
inductive Raised
  | unicodeEncodeError
  | read (error : ReadError)

/-- `_query`'s reads: the length, and a message of at most a mebibyte. -/
def readReply (stream : Bytes) : Option Bytes :=
  if stream.length < 4 then none
  else
    let size := min (bigEndian (stream.take 4)) (2 ^ 20)
    if (stream.drop 4).length < size then none else some ((stream.drop 4).take size)

/-- `_query`: what is sent, and what is read of the stream that
the centre answers with. -/
def query (kdc : Kdc) (answer : Bytes → Bytes) : Except Raised (Option KdcReply) :=
  match buildAsReq kdc.realm.toList kdc.principal.toList offeredEtypes with
  | none => .error .unicodeEncodeError
  | some request =>
      match readReply (answer (bigBytes 4 request.length ++ request)) with
      | none => .ok none
      | some body =>
          match parseKdcReply body with
          | .error error => .error (.read error)
          | .ok reply => .ok (some reply)

/-- `run` against a centre that can be reached. -/
def run (kdc : Kdc) (answer : Bytes → Bytes) : Except Raised (List Finding) :=
  match query kdc answer with
  | .error raised => .error raised
  | .ok none => .ok []
  | .ok (some reply) => .ok (kdc.findings reply)

/-! ## What a centre answers -/

/-- A well-formed reply. -/
inductive Reply
  | failure (error : KrbError)
  | ticket (reply : AsRep)

namespace Reply

/-- The reply as it is sent. -/
def bytes : Reply → Bytes
  | failure error => error.encode
  | ticket reply => reply.encode

/-- What it carries, each encryption type once. -/
def carries : Reply → KdcReply
  | failure error => ⟨some 30, error.etypes.eraseDups, some (error.code : Int)⟩
  | ticket reply => ⟨some 11, reply.etypes.eraseDups, none⟩

theorem parse_bytes (reply : Reply) (small : Small reply.bytes) :
    parseKdcReply reply.bytes = .ok reply.carries := by
  cases reply with
  | failure error =>
      rw [bytes, parseKdcReply_error error small, dedupe_eq_eraseDups]
      rfl
  | ticket reply =>
      rw [bytes, parseKdcReply_reply reply small, dedupe_eq_eraseDups]
      rfl

end Reply

/-- A centre: how it answers a request, and what it sends behind its reply. -/
structure Centre where
  decide : AsReq → Reply
  later : Bytes
  short : ∀ request, (decide request).bytes.length ≤ 2 ^ 20

/-- The stream of a centre that reads a request of the length in front of it; nothing
where it cannot read it. -/
def Centre.answer (centre : Centre) (sent : Bytes) : Bytes :=
  match readAsReq ((sent.drop 4).take (bigEndian (sent.take 4))) with
  | .error _ => []
  | .ok request =>
      bigBytes 4 (centre.decide request).bytes.length ++
        ((centre.decide request).bytes ++ centre.later)

/-- The request that the probe makes. -/
def Kdc.asks (kdc : Kdc) : AsReq where
  pvno := 5
  msgType := 10
  options := [0, 0, 0, 0, 0]
  cname := ⟨1, [asciiEncode kdc.principal.toList]⟩
  realm := asciiEncode kdc.realm.toList
  sname := ⟨2, [asciiEncode "krbtgt".toList, asciiEncode kdc.realm.toList]⟩
  till := asciiEncode defaultTill
  nonce := defaultNonce
  etypes := offeredEtypes.map fun etype : Nat => (etype : Int)

theorem small_of_le {bytes : Bytes} (short : bytes.length ≤ 2 ^ 20) : Small bytes :=
  lt_of_le_of_lt short (by decide +kernel)

theorem readReply_take {message : Bytes} (short : message.length ≤ 2 ^ 20) (later : Bytes)
    (cut : Nat) :
    readReply ((bigBytes 4 message.length ++ (message ++ later)).take cut) =
      if cut < 4 + message.length then none else some message := by
  have number : bigEndian (bigBytes 4 message.length) = message.length :=
    bigEndian_bigBytes (by omega)
  have size := length_bigBytes 4 message.length
  have length : ((bigBytes 4 message.length ++ (message ++ later)).take cut).length =
      min cut (4 + (message.length + later.length)) := by
    rw [List.length_take, List.length_append, size, List.length_append]
  unfold readReply
  by_cases none_ : cut < 4
  · rw [if_pos (by omega : cut < 4 + message.length)]
    exact if_pos (by omega)
  · have head : ((bigBytes 4 message.length ++ (message ++ later)).take cut).take 4 =
        bigBytes 4 message.length := by
      rw [List.take_take, Nat.min_eq_left (by omega), List.take_left' size]
    have rest : ((bigBytes 4 message.length ++ (message ++ later)).take cut).drop 4 =
        (message ++ later).take (cut - 4) := by
      rw [List.drop_take, List.drop_left' size]
    rw [if_neg (by omega), head, number, rest, Nat.min_eq_left short]
    dsimp only
    by_cases part : cut < 4 + message.length
    · rw [if_pos part, if_pos]
      rw [List.length_take]
      omega
    · rw [if_neg part, if_neg, List.take_take, Nat.min_eq_left (by omega),
        List.take_left' rfl]
      rw [List.length_take, List.length_append]
      omega

/-- Whatever a centre decides about the request, which it reads as it was meant,
and wherever its stream ends: the probe reports every encryption type of its reply
once and in order, or that it answered without any, when the reply has arrived
whole, and nothing before. -/
theorem run_centre {kdc : Kdc} {request : Bytes}
    (built : buildAsReq kdc.realm.toList kdc.principal.toList offeredEtypes =
      some request)
    (small : request.length < 256 ^ 4) (centre : Centre) (cut : Nat) :
    run kdc (fun sent => (centre.answer sent).take cut) =
      .ok (if cut < 4 + (centre.decide kdc.asks).bytes.length then []
        else kdc.findings (centre.decide kdc.asks).carries) := by
  have fits : Small request := lt_of_lt_of_le small (by decide +kernel)
  have size := length_bigBytes 4 request.length
  have sent : ((bigBytes 4 request.length ++ request).drop 4).take
      (bigEndian ((bigBytes 4 request.length ++ request).take 4)) = request := by
    rw [List.drop_left' size, List.take_left' size, bigEndian_bigBytes small,
      List.take_length]
  have reads : readAsReq request = .ok kdc.asks := readAsReq_buildAsReq built fits
  rw [run, query, built]
  dsimp only
  rw [Centre.answer, sent, reads]
  dsimp only
  rw [readReply_take (centre.short kdc.asks)]
  by_cases part : cut < 4 + (centre.decide kdc.asks).bytes.length
  · rw [if_pos part, if_pos part]
  · rw [if_neg part, if_neg part]
    dsimp only
    rw [Reply.parse_bytes _ (small_of_le (centre.short kdc.asks))]

/-- The centre of the samples. -/
def exampleKdc : Kdc := ⟨"kdc", 88, "EXAMPLE.ORG", "pqcscan-probe", 0⟩

theorem preauthRequired_short :
    (Reply.failure preauthRequired).bytes.length ≤ 2 ^ 20 := by
  decide +kernel

/-- A centre that asks for pre-authentication. -/
def preauthCentre : Centre :=
  ⟨fun _ => .failure preauthRequired, [], fun _ => preauthRequired_short⟩

theorem run_centre_preauth :
    ∃ findings, run exampleKdc (fun sent => (preauthCentre.answer sent).take 1000) =
      .ok findings ∧ findings.map Finding.algorithm =
        ["kerberos-etype/aes256-cts-hmac-sha1-96",
          "kerberos-etype/aes128-cts-hmac-sha1-96"] := by
  obtain ⟨request, built⟩ : ∃ request, buildAsReq exampleKdc.realm.toList
      exampleKdc.principal.toList offeredEtypes = some request := ⟨_, rfl⟩
  have small : request.length < 256 ^ 4 := by
    cases built
    decide +kernel
  refine ⟨_, run_centre built small preauthCentre 1000, ?_⟩
  decide +kernel

end NetKerberosEtypes
end Probes
end PqcScan
