import PqcScan.Probes.Handshake
import PqcScan.Library.Fallible

/-!
# The served TLS 1.3 chain

`probes/net_tls_cert_chain_tls13.py` with the key schedule of
`probes/_tls13_keyschedule.py`.  The hash functions, the key exchange and the
ciphers are parameters.  `_handshake` recovers the flight again after every
read and stops at the first recovered certificate.
-/

namespace PqcScan
namespace Probes

open Library Python Framing

/-! ## The key schedule -/

/-- What the cryptographic libraries compute; `none` stands for an exception. -/
structure Crypto where
  digest : String → Bytes → Bytes
  digestSize : String → Nat
  hmac : String → Bytes → Bytes → Bytes
  /-- The X25519 exchange of the probe's private key. -/
  exchange : Bytes → Option Bytes
  /-- ChaCha20-Poly1305 or AES-GCM: key, nonce, ciphertext and header. -/
  decrypt : Bool → Bytes → Bytes → Bytes → Bytes → Option Bytes

/-- An entry of `CIPHER_SUITES`. -/
structure CipherSuite where
  hashName : String
  keyLen : Nat
  isChacha : Bool
  deriving DecidableEq, Repr

/-- `CIPHER_SUITES`. -/
def cipherSuites (cipher : Nat) : Option CipherSuite :=
  match cipher with
  | 0x1301 => some ⟨"sha256", 16, false⟩
  | 0x1302 => some ⟨"sha384", 32, false⟩
  | 0x1303 => some ⟨"sha256", 32, true⟩
  | _ => none

/-- `_u16`. -/
def u16 (n : Nat) : Bytes := [UInt8.ofNat (n / 256), UInt8.ofNat n]

/-- A number of zero bytes. -/
def zeros (n : Nat) : Bytes := List.replicate n 0

/-- `str.encode` of US-ASCII text. -/
def ascii (text : String) : Bytes := text.toList.map fun char => UInt8.ofNat char.toNat

section Schedule

variable (crypto : Crypto)

/-- `hkdf_extract`. -/
def hkdfExtract (salt ikm : Bytes) (hashName : String) : Bytes :=
  crypto.hmac hashName (if salt = [] then zeros (crypto.digestSize hashName)
    else salt) ikm

/-- The loop of `hkdf_expand`: the blocks from number `i` on after the block `t`. -/
def hkdfBlocks (prk info : Bytes) (hashName : String) : Nat → Nat → Bytes → Bytes
  | 0, _, _ => []
  | n + 1, i, t =>
      let t := crypto.hmac hashName prk (t ++ info ++ [UInt8.ofNat i])
      t ++ hkdfBlocks prk info hashName n (i + 1) t

/-- `hkdf_expand`. -/
def hkdfExpand (prk info : Bytes) (length : Nat) (hashName : String) : Bytes :=
  let hashLen := crypto.digestSize hashName
  let n := (length + hashLen - 1) / hashLen
  (hkdfBlocks crypto prk info hashName n 1 []).take length

/-- `hkdf_expand_label`. -/
def hkdfExpandLabel (secret : Bytes) (label : String) (context : Bytes) (length : Nat)
    (hashName : String) : Bytes :=
  let fullLabel := ascii "tls13 " ++ ascii label
  let hkdfLabel := u16 length ++ [UInt8.ofNat fullLabel.length] ++ fullLabel ++
    [UInt8.ofNat context.length] ++ context
  hkdfExpand crypto secret hkdfLabel length hashName

/-- `derive_secret`. -/
def deriveSecret (secret : Bytes) (label : String) (transcript : Bytes)
    (hashName : String) : Bytes :=
  hkdfExpandLabel crypto secret label transcript (crypto.digestSize hashName) hashName

/-- The part of `HandshakeKeys` that opens records. -/
structure HandshakeKeys where
  isChacha : Bool
  serverKey : Bytes
  serverIv : Bytes

/-- `handshake_traffic_keys`. -/
def handshakeTrafficKeys (sharedSecret helloTranscript : Bytes) (suite : CipherSuite) :
    HandshakeKeys :=
  let hashName := suite.hashName
  let emptyHash := crypto.digest hashName []
  let th := crypto.digest hashName helloTranscript
  let earlySecret := hkdfExtract crypto [] (zeros (crypto.digestSize hashName)) hashName
  let derived := deriveSecret crypto earlySecret "derived" emptyHash hashName
  let handshakeSecret := hkdfExtract crypto derived sharedSecret hashName
  let serverHs := deriveSecret crypto handshakeSecret "s hs traffic" th hashName
  { isChacha := suite.isChacha
    serverKey := hkdfExpandLabel crypto serverHs "key" [] suite.keyLen hashName
    serverIv := hkdfExpandLabel crypto serverHs "iv" [] 12 hashName }

/-- `seq.to_bytes(size, "big")`. -/
def toBytes (seq size : Nat) : Bytes :=
  (List.range size).map fun i => UInt8.ofNat (seq / 256 ^ (size - 1 - i))

/-- `_record_nonce`. -/
def recordNonce (iv : Bytes) (seq : Nat) : Bytes :=
  iv.zipWith (· ^^^ ·) (toBytes seq iv.length)

/-- `aead_open`: strip the zero padding and the content type after it. -/
def aeadOpen (keys : HandshakeKeys) (seq : Nat) (record : Bytes) : Option Bytes :=
  if record.length < 5 then none
  else
    match crypto.decrypt keys.isChacha keys.serverKey (recordNonce keys.serverIv seq)
      (record.drop 5) (record.take 5) with
    | none => none
    | some inner =>
        match inner.reverse.dropWhile (· == 0) with
        | [] => none
        | _ :: content => some content.reverse

end Schedule

/-! ## The ServerHello -/

/-- `ServerHello`. -/
structure ServerHello where
  version : Nat
  cipher : Nat
  serverPub : Bytes
  deriving DecidableEq, Repr

theorem extensionHead_pos : 0 < 4 := by decide

/-- An extension: type and length. -/
def extensionFraming : Framing UInt8 :=
  ⟨4, extensionHead_pos, fun head => bigEndian (head.drop 2)⟩

/-- `struct.unpack(">H", …)` raises `struct.error` unless there are two bytes. -/
def unpackShort (bytes : Bytes) : Except String Nat :=
  if bytes.length = 2 then .ok (bigEndian bytes)
  else .error "unpack requires a buffer of 2 bytes"

/-- The loop over the extensions: the selected version and the server's share. -/
def readExtensions (extensions : Bytes) : Nat × Option Bytes :=
  (extensionFraming.read extensions).foldl (fun (version, serverPub) extension =>
    let et := bigEndian (extension.head.take 2)
    let ev := extension.body
    if et = 0x002B ∧ 2 ≤ ev.length then (bigEndian (ev.take 2), serverPub)
    else if et = 0x0033 ∧ 4 ≤ ev.length then
      let group := bigEndian (ev.take 2)
      let klen := bigEndian ((ev.drop 2).take 2)
      if group = 0x001D then (version, some ((ev.drop 4).take klen))
      else (version, serverPub)
    else (version, serverPub)) (0x0303, none)

/-- `parse_server_hello_tls13`.  Only an `IndexError` is caught. -/
def parseServerHello (hs : Bytes) : Except String (Option ServerHello) :=
  if hs.length < 4 ∨ typeByte hs ≠ 0x02 then .ok none
  else
    let hsLen := bigEndian ((hs.drop 1).take 3)
    let body := (hs.drop 4).take hsLen
    match body[34]? with
    | none => .ok none
    | some sidLen => do
        let off := 35 + sidLen.toNat
        let cipher ← unpackShort ((body.drop off).take 2)
        let extTotal ← unpackShort ((body.drop (off + 3)).take 2)
        let (version, serverPub) := readExtensions ((body.drop (off + 5)).take extTotal)
        match serverPub, cipherSuites cipher with
        | some serverPub, some _ => .ok (some ⟨version, cipher, serverPub⟩)
        | _, _ => .ok none

/-! ## Recovering a flight -/

/-- The content type of encrypted records. -/
def applicationType : UInt8 := 0x17

/-- The type of a CertificateVerify message. -/
def certificateVerifyType : UInt8 := 0x0F

/-- `_split_records`. -/
def splitRecords (data : Bytes) : List (Frame UInt8) := recordFraming.readWhole data

/-- `_reassemble`. -/
def reassembleMessages (payload : Bytes) : List (Frame UInt8) :=
  messageFraming.readWhole payload

/-- The loop of `extract_certificates_tls13`; `limit` is what is left up to
`end`, which shrinks in every round and is fuel enough. -/
def certificateEntries : Nat → Nat → Bytes → List Bytes
  | 0, _, _ => []
  | fuel + 1, limit, data =>
      if 3 ≤ limit then
        let clen := bigEndian (data.take 3)
        let cert := (data.drop 3).take clen
        let found := if cert.length = clen ∧ cert ≠ [] then [cert] else []
        let limit := limit - (3 + clen)
        let data := data.drop (3 + clen)
        if limit < 2 then found
        else
          let extLen := bigEndian (data.take 2)
          found ++ certificateEntries fuel (limit - (2 + extLen)) (data.drop (2 + extLen))
      else []

/-- `extract_certificates_tls13`. -/
def extractCertificatesTls13 (body : Bytes) : List Bytes :=
  match body with
  | [] => []
  | ctxLen :: _ =>
      let p := 1 + ctxLen.toNat
      if body.length < p + 3 then []
      else
        let listLen := bigEndian ((body.drop p).take 3)
        let limit := min listLen (body.length - (p + 3))
        certificateEntries limit limit (body.drop (p + 3))

/-- The plaintext of the encrypted records, numbered from `seq` on. -/
def openRecords (opener : Nat → Bytes → Option Bytes) : Nat → List (Frame UInt8) → Bytes
  | _, [] => []
  | seq, record :: rest =>
      if typeByte record.head = applicationType then
        (opener seq record.bytes).getD [] ++ openRecords opener (seq + 1) rest
      else openRecords opener seq rest

/-- The body of the loop over the messages. -/
def readMessage (chain : List Bytes × Option Nat) (message : Frame UInt8) :
    List Bytes × Option Nat :=
  if typeByte message.head = certificateType then
    (extractCertificatesTls13 message.body, chain.2)
  else if typeByte message.head = certificateVerifyType ∧ 2 ≤ message.body.length then
    (chain.1, some (bigEndian (message.body.take 2)))
  else chain

/-- The loop over the messages: the certificates and the signature scheme. -/
def readMessages (messages : List (Frame UInt8)) : List Bytes × Option Nat :=
  messages.foldl readMessage ([], none)

/-- What `recover_handshake` returns. -/
structure Recovered where
  version : Nat
  cipher : Nat
  certs : List Bytes
  certVerifyScheme : Option Nat
  deriving DecidableEq, Repr

section Recovery

variable (crypto : Crypto) (clientHello : Bytes)

/-- `recover_handshake`. -/
def recoverHandshake (serverData : Bytes) : Except String (Option Recovered) :=
  let records := splitRecords serverData
  match records.find? fun record => isHandshake record.head with
  | none => .ok none
  | some shRecord => do
      match ← parseServerHello shRecord.body with
      | none => .ok none
      | some sh =>
          match crypto.exchange sh.serverPub, cipherSuites sh.cipher with
          | some shared, some suite =>
              let keys := handshakeTrafficKeys crypto shared
                (clientHello.drop 5 ++ shRecord.body) suite
              let plaintext := openRecords (aeadOpen crypto keys) 0 records
              let (certs, scheme) := readMessages (reassembleMessages plaintext)
              .ok (some ⟨sh.version, sh.cipher, certs, scheme⟩)
          | _, _ => .ok none

/-- How much of a flight is read at most. -/
def handshakeLimit : Nat := 262144

/-- The loop of `_handshake` over what its reads return; the list ends when a
read fails or times out. -/
def handshakeLoop : Bytes → List Bytes → Except String (Option Recovered)
  | buf, [] => recoverHandshake crypto clientHello buf
  | buf, chunk :: rest =>
      if buf.length < handshakeLimit then
        if chunk = [] then recoverHandshake crypto clientHello buf
        else do
          let buf := buf ++ chunk
          match ← recoverHandshake crypto clientHello buf with
          | some result =>
              if result.certs ≠ [] then .ok (some result) else handshakeLoop buf rest
          | none => handshakeLoop buf rest
      else recoverHandshake crypto clientHello buf

/-- `_handshake` once it is connected. -/
def handshake (chunks : List Bytes) : Except String (Option Recovered) :=
  handshakeLoop crypto clientHello [] chunks

end Recovery

/-! ## What a server sends -/

/-- A flight that the negotiated keys open: a ServerHello, then records whose
plaintext is some messages, a Certificate, a CertificateVerify and some more. -/
structure EncryptedFlight (crypto : Crypto) (clientHello : Bytes) where
  hello : Frame UInt8
  rest : List (Frame UInt8)
  server : ServerHello
  shared : Bytes
  suite : CipherSuite
  before : List (Frame UInt8)
  certificate : Frame UInt8
  verify : Frame UInt8
  after : List (Frame UInt8)
  hello_handshake : isHandshake hello.head = true
  records_fit : ∀ record ∈ hello :: rest, recordFraming.Fits record
  parsed : parseServerHello hello.body = .ok (some server)
  exchanged : crypto.exchange server.serverPub = some shared
  negotiated : cipherSuites server.cipher = some suite
  decrypts : openRecords (aeadOpen crypto (handshakeTrafficKeys crypto shared
      (clientHello.drop 5 ++ hello.body) suite)) 0 (hello :: rest) =
    encode (before ++ certificate :: verify :: after)
  messages_fit : ∀ message ∈ before ++ certificate :: verify :: after,
    messageFraming.Fits message
  others : ∀ message ∈ before ++ after, typeByte message.head ≠ certificateType ∧
    typeByte message.head ≠ certificateVerifyType
  certificate_type : typeByte certificate.head = certificateType
  verify_type : typeByte verify.head = certificateVerifyType
  verify_scheme : 2 ≤ verify.body.length

namespace EncryptedFlight

variable {crypto : Crypto} {clientHello : Bytes}
  (flight : EncryptedFlight crypto clientHello)

/-- The records of the flight, the ServerHello first. -/
def records : List (Frame UInt8) := flight.hello :: flight.rest

/-- The bytes of the flight. -/
def bytes : Bytes := encode flight.records

/-- The plaintext of records. -/
def plaintext (records : List (Frame UInt8)) : Bytes :=
  openRecords (aeadOpen crypto (handshakeTrafficKeys crypto flight.shared
    (clientHello.drop 5 ++ flight.hello.body) flight.suite)) 0 records

/-- How many bytes of plaintext the complete records among the first
bytes of the flight carry. -/
def deciphered (count : Nat) : Nat :=
  (flight.plaintext (wholes flight.records count)).length

/-- Where the Certificate message ends in the plaintext. -/
def certificateEnd : Nat := (encode flight.before).length + flight.certificate.length

/-- Where the CertificateVerify message ends in the plaintext. -/
def verifyEnd : Nat := flight.certificateEnd + flight.verify.length

/-- The certificates of the Certificate message. -/
def certs : List Bytes := extractCertificatesTls13 flight.certificate.body

/-- The scheme of the CertificateVerify message. -/
def scheme : Nat := bigEndian (flight.verify.body.take 2)

/-- The Certificate message has arrived and the CertificateVerify has not. -/
def Between (count : Nat) : Prop :=
  flight.certificateEnd ≤ flight.deciphered count ∧
    flight.deciphered count < flight.verifyEnd

/-- Some read ends between the two messages. -/
def Interrupted (chunks : List Bytes) : Prop :=
  ∃ early late, chunks = early ++ late ∧ flight.Between early.flatten.length

end EncryptedFlight

/-! ## What is recovered from a prefix -/

/-- Opening goes record by record. -/
theorem openRecords_starts (opener : Nat → Bytes → Option Bytes) (seq : Nat)
    {records others : List (Frame UInt8)} (within : records <+: others) :
    openRecords opener seq records <+: openRecords opener seq others := by
  induction records generalizing seq others with
  | nil => exact List.nil_prefix
  | cons record rest inductionHypothesis =>
      obtain ⟨more, rfl⟩ := within
      rw [List.cons_append, openRecords, openRecords]
      have tail : rest <+: rest ++ more := List.prefix_append rest more
      split
      · exact (List.prefix_append_right_inj _).mpr (inductionHypothesis _ tail)
      · exact inductionHypothesis _ tail

/-- Messages of other types change nothing. -/
theorem foldl_others {messages : List (Frame UInt8)}
    (others : ∀ message ∈ messages, typeByte message.head ≠ certificateType ∧
      typeByte message.head ≠ certificateVerifyType)
    (chain : List Bytes × Option Nat) :
    messages.foldl readMessage chain = chain := by
  induction messages with
  | nil => rfl
  | cons message rest inductionHypothesis =>
      obtain ⟨notCertificate, notVerify⟩ := others message List.mem_cons_self
      rw [List.foldl_cons, readMessage, if_neg notCertificate,
        if_neg fun both => notVerify both.1]
      exact inductionHypothesis fun other member =>
        others other (List.mem_cons_of_mem _ member)

namespace EncryptedFlight

variable {crypto : Crypto} {clientHello : Bytes}
  (flight : EncryptedFlight crypto clientHello)

/-- The certificates and the scheme that the plaintext so far gives. -/
theorem readMessages_take (count : Nat) :
    readMessages (reassembleMessages
      ((encode (flight.before ++ flight.certificate :: flight.verify ::
        flight.after)).take
        count)) =
      if count < flight.certificateEnd then ([], none)
      else if count < flight.verifyEnd then (flight.certs, none)
      else (flight.certs, some flight.scheme) := by
  have different : certificateVerifyType ≠ certificateType := by decide
  have early := foldl_others fun message member =>
    flight.others message (List.mem_append_left _ member)
  have read : readMessage ([], none) flight.certificate = (flight.certs, none) :=
    if_pos flight.certificate_type
  unfold reassembleMessages readMessages
  rw [readWhole_take flight.messages_fit]
  split
  · next before =>
      rw [wholes_append_of_lt _ _ before]
      exact foldl_others (fun message member => flight.others message
        (List.mem_append_left _ (mem_of_mem_wholes member))) _
  · next reached =>
      have first : (encode (flight.before ++ [flight.certificate])).length =
          flight.certificateEnd := by
        rw [encode_append, List.length_append, length_encode_cons]
        rfl
      rw [List.append_cons, wholes_append_of_le _ (by omega), first, List.foldl_append,
        List.foldl_append, early, List.foldl_cons, read, List.foldl_nil, wholes]
      by_cases within : count < flight.verifyEnd
      · rw [if_pos within, if_neg (by unfold verifyEnd at within; omega), List.foldl_nil]
      · have verified : readMessage (flight.certs, none) flight.verify =
            (flight.certs, some flight.scheme) := by
          rw [readMessage, if_neg (by rw [flight.verify_type]; exact different),
            if_pos ⟨flight.verify_type, flight.verify_scheme⟩]
          rfl
        rw [if_neg within, if_pos (by unfold verifyEnd at within; omega), List.foldl_cons,
          verified]
        exact foldl_others (fun message member => flight.others message
          (List.mem_append_right _ (mem_of_mem_wholes member))) _

/-- What is recovered once the ServerHello has arrived. -/
def recovered (chain : List Bytes × Option Nat) : Recovered :=
  ⟨flight.server.version, flight.server.cipher, chain.1, chain.2⟩

theorem plaintext_wholes (count : Nat) :
    flight.plaintext (wholes flight.records count) =
      (encode (flight.before ++ flight.certificate :: flight.verify :: flight.after)).take
        (flight.deciphered count) := by
  have part := openRecords_starts (aeadOpen crypto (handshakeTrafficKeys crypto
    flight.shared (clientHello.drop 5 ++ flight.hello.body) flight.suite)) 0
    (wholes_starts flight.records count)
  rw [records, flight.decrypts] at part
  exact List.prefix_iff_eq_take.mp part

theorem splitRecords_take (count : Nat) :
    splitRecords (flight.bytes.take count) = wholes flight.records count :=
  readWhole_take flight.records_fit count

/-- Nothing is recovered without the ServerHello; with it, what the
plaintext so far gives. -/
theorem recoverHandshake_take (count : Nat) :
    recoverHandshake crypto clientHello (flight.bytes.take count) =
      .ok (if count < flight.hello.length then none
        else some (flight.recovered
          (if flight.deciphered count < flight.certificateEnd then ([], none)
          else if flight.deciphered count < flight.verifyEnd then (flight.certs, none)
          else (flight.certs, some flight.scheme)))) := by
  unfold recoverHandshake
  rw [splitRecords_take]
  dsimp only
  by_cases early : count < flight.hello.length
  · rw [if_pos early, records, wholes, if_neg (Nat.not_le.mpr early)]
    rfl
  · have found : (wholes flight.records count).find?
        (fun record => isHandshake record.head) = some flight.hello := by
      rw [records, wholes, if_pos (Nat.le_of_not_lt early)]
      exact List.find?_cons_of_pos flight.hello_handshake
    have chain := flight.readMessages_take (flight.deciphered count)
    rw [← flight.plaintext_wholes, plaintext] at chain
    rw [if_neg early, found]
    dsimp only
    rw [flight.parsed]
    dsimp only [bind, Except.bind]
    rw [flight.exchanged, flight.negotiated]
    dsimp only
    rw [chain]
    rfl

/-! ## The read loop -/

theorem deciphered_mono {count later : Nat} (before : count ≤ later) :
    flight.deciphered count ≤ flight.deciphered later :=
  (openRecords_starts _ 0 (wholes_mono flight.records before)).length_le

theorem verifyEnd_le_deciphered :
    flight.verifyEnd ≤ flight.deciphered flight.bytes.length := by
  unfold deciphered plaintext
  rw [bytes, wholes_of_le (le_refl _), records, flight.decrypts, encode_append,
    List.length_append, length_encode_cons, length_encode_cons, verifyEnd, certificateEnd]
  omega

theorem certificateEnd_lt_verifyEnd : flight.certificateEnd < flight.verifyEnd := by
  have scheme := flight.verify_scheme
  unfold verifyEnd
  rw [Frame.length]
  omega

/-- What the reads give: the certificates, and the scheme unless
some read ended before it. -/
def Outcome (interrupted : Prop) (result : Except String (Option Recovered)) : Prop :=
  (flight.certs ≠ [] ∧ interrupted ∧
    result = .ok (some (flight.recovered (flight.certs, none)))) ∨
    (¬ (flight.certs ≠ [] ∧ interrupted) ∧
      result = .ok (some (flight.recovered (flight.certs, some flight.scheme))))

theorem Outcome.congr {flight : EncryptedFlight crypto clientHello}
    {interrupted other : Prop} {result : Except String (Option Recovered)}
    (outcome : flight.Outcome interrupted result)
    (same : flight.certs ≠ [] → (interrupted ↔ other)) : flight.Outcome other result := by
  rcases outcome with ⟨some, cuts, result⟩ | ⟨quiet, result⟩
  · exact Or.inl ⟨some, (same some).mp cuts, result⟩
  · exact Or.inr ⟨fun both => quiet ⟨both.1, (same both.1).mpr both.2⟩, result⟩

/-- Plaintext comes after the ServerHello. -/
theorem hello_le_of_reached {count : Nat}
    (reached : flight.certificateEnd ≤ flight.deciphered count) :
    flight.hello.length ≤ count := by
  by_contra early
  have nothing : flight.deciphered count = 0 := by
    rw [deciphered, records, wholes, if_neg early]
    rfl
  have fits := (flight.messages_fit flight.certificate (by simp)).head
  have header : messageFraming.header = 4 := rfl
  unfold certificateEnd at reached
  rw [Frame.length] at reached
  omega

/-- With the Certificate message the certificates are recovered. -/
theorem recoverHandshake_reached {count : Nat}
    (reached : flight.certificateEnd ≤ flight.deciphered count) :
    recoverHandshake crypto clientHello (flight.bytes.take count) =
      .ok (some (flight.recovered (flight.certs,
        if flight.deciphered count < flight.verifyEnd then none
        else some flight.scheme))) := by
  rw [recoverHandshake_take, if_neg (Nat.not_lt.mpr (flight.hello_le_of_reached reached)),
    if_neg (Nat.not_lt.mpr reached)]
  split
  · rfl
  · rfl

/-- Until there are certificates the loop reads on. -/
theorem handshakeLoop_cons {buf chunk : Bytes} {rest : List Bytes}
    (same : (buf ++ chunk) ++ rest.flatten = flight.bytes) (some : chunk ≠ [])
    (more : buf.length < handshakeLimit)
    (none : flight.certs = [] ∨
      flight.deciphered (buf ++ chunk).length < flight.certificateEnd) :
    handshakeLoop crypto clientHello buf (chunk :: rest) =
      handshakeLoop crypto clientHello (buf ++ chunk) rest := by
  have part := flight.recoverHandshake_take (buf ++ chunk).length
  rw [← eq_take_of_append same] at part
  rw [handshakeLoop, if_pos more, if_neg some]
  dsimp only
  rw [part]
  by_cases early : (buf ++ chunk).length < flight.hello.length
  · rw [if_pos early]
    rfl
  · rw [if_neg early]
    dsimp only [bind, Except.bind]
    rw [if_neg]
    rcases none with none | before
    · rw [none]
      split_ifs <;> simp [recovered]
    · rw [if_pos before]
      simp [recovered]

/-- Once there are certificates the loop stops. -/
theorem handshakeLoop_reached {buf chunk : Bytes} {rest : List Bytes}
    (same : (buf ++ chunk) ++ rest.flatten = flight.bytes) (some : chunk ≠ [])
    (more : buf.length < handshakeLimit) (certs : flight.certs ≠ [])
    (reached : flight.certificateEnd ≤ flight.deciphered (buf ++ chunk).length) :
    handshakeLoop crypto clientHello buf (chunk :: rest) =
      .ok (Option.some (flight.recovered (flight.certs,
        if flight.deciphered (buf ++ chunk).length < flight.verifyEnd then none
        else Option.some flight.scheme))) := by
  have part := flight.recoverHandshake_reached reached
  rw [← eq_take_of_append same] at part
  rw [handshakeLoop, if_pos more, if_neg some]
  dsimp only
  rw [part]
  dsimp only [bind, Except.bind]
  rw [if_pos]
  exact certs

/-- The loop goes on while no certificate is recovered. -/
theorem handshakeLoop_outcome {buf : Bytes} {chunks : List Bytes}
    (same : buf ++ chunks.flatten = flight.bytes)
    (nonempty : ∀ chunk ∈ chunks, chunk ≠ [])
    (below : ∀ early chunk late, chunks = early ++ chunk :: late →
      (buf ++ early.flatten).length < handshakeLimit)
    (none : flight.certs ≠ [] → flight.deciphered buf.length < flight.certificateEnd) :
    flight.Outcome
      (∃ early late, chunks = early ++ late ∧
        flight.Between (buf ++ early.flatten).length)
      (handshakeLoop crypto clientHello buf chunks) := by
  induction chunks generalizing buf with
  | nil =>
      have complete := flight.verifyEnd_le_deciphered
      have order := flight.certificateEnd_lt_verifyEnd
      rw [List.flatten_nil, List.append_nil] at same
      have whole := flight.recoverHandshake_reached (order.le.trans complete)
      rw [List.take_length, if_neg (Nat.not_lt.mpr complete)] at whole
      refine Or.inr ⟨?_, by rw [handshakeLoop, same, whole]⟩
      rintro ⟨_, early, late, empty, between⟩
      have nothing := (List.append_eq_nil_iff.mp empty.symm).1
      rw [nothing, List.flatten_nil, List.append_nil, same] at between
      exact absurd between.2 (Nat.not_lt.mpr complete)
  | cons chunk rest inductionHypothesis =>
      have more : buf.length < handshakeLimit := by
        simpa using below [] chunk rest rfl
      have some := nonempty chunk List.mem_cons_self
      have next : (buf ++ chunk) ++ rest.flatten = flight.bytes := by
        rw [List.append_assoc, ← List.flatten_cons, same]
      by_cases reached : flight.certs ≠ [] ∧
          flight.certificateEnd ≤ flight.deciphered (buf ++ chunk).length
      · obtain ⟨certs, reached⟩ := reached
        rw [flight.handshakeLoop_reached next some more certs reached]
        by_cases between : flight.deciphered (buf ++ chunk).length < flight.verifyEnd
        · rw [if_pos between]
          refine Or.inl ⟨certs, ⟨[chunk], rest, rfl, ?_⟩, rfl⟩
          rw [List.flatten_singleton]
          exact ⟨reached, between⟩
        · rw [if_neg between]
          refine Or.inr ⟨?_, rfl⟩
          rintro ⟨_, early, late, split, cuts⟩
          cases early with
          | nil =>
              have before := none certs
              rw [List.flatten_nil, List.append_nil] at cuts
              exact absurd cuts.1 (Nat.not_le.mpr before)
          | cons first early =>
              obtain ⟨rfl, _⟩ := List.cons.inj split
              have later : flight.deciphered (buf ++ chunk).length ≤
                  flight.deciphered (buf ++ (chunk :: early).flatten).length := by
                apply flight.deciphered_mono
                simp only [List.length_append, List.flatten_cons]
                omega
              have before := cuts.2
              omega
      · have still : flight.certs ≠ [] →
            flight.deciphered (buf ++ chunk).length < flight.certificateEnd :=
          fun certs => Nat.lt_of_not_le fun arrived => reached ⟨certs, arrived⟩
        have either : flight.certs = [] ∨
            flight.deciphered (buf ++ chunk).length < flight.certificateEnd := by
          by_cases certs : flight.certs = []
          · exact Or.inl certs
          · exact Or.inr (still certs)
        rw [flight.handshakeLoop_cons next some more either]
        have later := inductionHypothesis next
          (fun other member => nonempty other (List.mem_cons_of_mem _ member))
          (fun early other late split => by
            simpa using below (chunk :: early) other late (by rw [split]; rfl)) still
        refine later.congr fun certs => ⟨?_, ?_⟩
        · rintro ⟨early, late, split, between⟩
          exact ⟨chunk :: early, late, by rw [split]; rfl, by simpa using between⟩
        · rintro ⟨early, late, split, between⟩
          cases early with
          | nil =>
              rw [List.flatten_nil, List.append_nil] at between
              exact absurd between.1 (Nat.not_le.mpr (none certs))
          | cons first early =>
              obtain ⟨rfl, tail⟩ := List.cons.inj split
              exact ⟨early, late, tail, by simpa using between⟩

end EncryptedFlight

/-- The certificates and the scheme of a result. -/
def chainOf (result : Except String (Option Recovered)) :
    Except String (Option (List Bytes × Option Nat)) :=
  result.map fun recovered =>
    recovered.map fun recovered => (recovered.certs, recovered.certVerifyScheme)

namespace EncryptedFlight

variable {crypto : Crypto} {clientHello : Bytes}
  (flight : EncryptedFlight crypto clientHello)

theorem handshake_outcome {chunks : List Bytes}
    (delivers : Delivers handshakeLimit flight.bytes chunks) :
    flight.Outcome (flight.Interrupted chunks) (handshake crypto clientHello chunks) := by
  have start : ([] : Bytes) ++ chunks.flatten = flight.bytes := delivers.whole
  refine flight.handshakeLoop_outcome start delivers.nonempty delivers.below fun _ => ?_
  by_contra reached
  have hello := flight.hello_le_of_reached (Nat.le_of_not_lt reached)
  have fits := (flight.records_fit flight.hello List.mem_cons_self).head
  have header : recordFraming.header = 5 := rfl
  rw [Frame.length, List.length_nil] at hello
  omega

/-- Two ways to cut a flight into reads give the same certificates and the same
scheme exactly when there are no certificates, or in both or neither of them some
read ends between the Certificate and the CertificateVerify message. -/
theorem same_chain_iff {chunks others : List Bytes}
    (delivers : Delivers handshakeLimit flight.bytes chunks)
    (otherDelivers : Delivers handshakeLimit flight.bytes others) :
    chainOf (handshake crypto clientHello chunks) =
        chainOf (handshake crypto clientHello others) ↔
      flight.certs = [] ∨ (flight.Interrupted chunks ↔ flight.Interrupted others) := by
  rcases flight.handshake_outcome delivers with ⟨certs, cuts, result⟩ | ⟨quiet, result⟩
  · rcases flight.handshake_outcome otherDelivers with
      ⟨_, otherCuts, other⟩ | ⟨otherQuiet, other⟩
    · rw [result, other]
      exact iff_of_true rfl (Or.inr (iff_of_true cuts otherCuts))
    · rw [result, other]
      refine iff_of_false nofun ?_
      rintro (none | same)
      · exact certs none
      · exact otherQuiet ⟨certs, same.mp cuts⟩
  · rcases flight.handshake_outcome otherDelivers with
      ⟨certs, otherCuts, other⟩ | ⟨otherQuiet, other⟩
    · rw [result, other]
      refine iff_of_false nofun ?_
      rintro (none | same)
      · exact certs none
      · exact quiet ⟨certs, same.mpr otherCuts⟩
    · rw [result, other]
      refine iff_of_true rfl ?_
      by_cases certs : flight.certs = []
      · exact Or.inl certs
      · exact Or.inr (iff_of_false (fun cuts => quiet ⟨certs, cuts⟩)
          fun cuts => otherQuiet ⟨certs, cuts⟩)

end EncryptedFlight

/-! ## A flight in two encrypted records -/

/-- A cipher that appends a tag of sixteen zeros. -/
def plainCrypto : Crypto where
  digest _ _ := zeros 32
  digestSize _ := 32
  hmac _ _ _ := zeros 32
  exchange share := some share
  decrypt _ _ _ ciphertext _ :=
    if ciphertext.length < 16 then none
    else some (ciphertext.take (ciphertext.length - 16))

/-- An encrypted record under that cipher. -/
def plainRecord (content : Bytes) : Frame UInt8 :=
  ⟨[0x17, 3, 3] ++ u16 (content ++ [22] ++ zeros 16).length, content ++ [22] ++ zeros 16⟩

/-- EncryptedExtensions and a Certificate in one record, CertificateVerify and
Finished in the next. -/
def twoRecords : EncryptedFlight plainCrypto [] where
  hello := ⟨[0x16, 3, 3, 0, 59],
    [2, 0, 0, 55, 3, 3] ++ zeros 32 ++ [0, 0x13, 0x01, 0, 0, 15,
      0, 0x2B, 0, 2, 3, 4, 0, 0x33, 0, 5, 0, 0x1D, 0, 1, 7]⟩
  rest :=
    [plainRecord [8, 0, 0, 2, 0, 0, 0x0B, 0, 0, 10, 0, 0, 0, 6, 0, 0, 1, 1, 0, 0],
      plainRecord [0x0F, 0, 0, 5, 4, 3, 0, 1, 9, 0x14, 0, 0, 1, 5]]
  server := ⟨0x0304, 0x1301, [7]⟩
  shared := [7]
  suite := ⟨"sha256", 16, false⟩
  before := [⟨[8, 0, 0, 2], [0, 0]⟩]
  certificate := ⟨[0x0B, 0, 0, 10], [0, 0, 0, 6, 0, 0, 1, 1, 0, 0]⟩
  verify := ⟨[0x0F, 0, 0, 5], [4, 3, 0, 1, 9]⟩
  after := [⟨[0x14, 0, 0, 1], [5]⟩]
  hello_handshake := by decide
  records_fit := by decide
  parsed := by decide
  exchanged := rfl
  negotiated := rfl
  decrypts := by decide
  messages_fit := by decide
  others := by decide
  certificate_type := by decide
  verify_type := by decide
  verify_scheme := by decide

/-- The bytes in one read. -/
def oneRead : List Bytes := [twoRecords.bytes]

/-- The bytes in two reads, the second of which brings the second record. -/
def twoReads : List Bytes := [twoRecords.bytes.take 106, twoRecords.bytes.drop 106]

theorem delivers_oneRead : Delivers handshakeLimit twoRecords.bytes oneRead :=
  delivers_of_short (by decide +kernel) (by decide +kernel) (by decide +kernel)

theorem delivers_twoReads : Delivers handshakeLimit twoRecords.bytes twoReads :=
  delivers_of_short (by decide +kernel) (by decide +kernel) (by decide +kernel)

theorem same_chain_iff_twoReads :
    chainOf (handshake plainCrypto [] oneRead) = chainOf
      (handshake plainCrypto [] twoReads) ↔
      twoRecords.certs = [] ∨
        (twoRecords.Interrupted oneRead ↔ twoRecords.Interrupted twoReads) :=
  twoRecords.same_chain_iff delivers_oneRead delivers_twoReads

/-- Read in two parts the flight gives its certificate without the scheme. -/
theorem scheme_lost :
    Delivers handshakeLimit twoRecords.bytes oneRead ∧
      Delivers handshakeLimit twoRecords.bytes twoReads ∧
      chainOf (handshake plainCrypto [] oneRead) = .ok (some ([[1]], some 0x0403)) ∧
      chainOf (handshake plainCrypto [] twoReads) = .ok (some ([[1]], none)) ∧
      chainOf (handshake plainCrypto [] oneRead) ≠ chainOf
        (handshake plainCrypto [] twoReads) :=
  ⟨delivers_oneRead, delivers_twoReads, by decide +kernel, by decide +kernel,
    by decide +kernel⟩

end Probes
end PqcScan
