import PqcScan.Probes.ServerHello

/-!
# Recovering a server's flight

The bytes a TLS 1.3 server sends: a ServerHello in its own record, and handshake
messages cut into encrypted records, with ChangeCipherSpec records anywhere
between.  `recover_handshake` reads back what was put in.
-/

namespace PqcScan
namespace Probes

open Library Python Framing

/-! ## Sealing records -/

/-- The cipher seals: opening undoes it, and the tag has sixteen bytes. -/
structure Seals (crypto : Crypto)
    (encrypt : Bool → Bytes → Bytes → Bytes → Bytes → Bytes) :
    Prop where
  opens : ∀ isChacha key nonce inner header,
    crypto.decrypt isChacha key nonce (encrypt isChacha key nonce inner header) header =
      some inner
  length : ∀ isChacha key nonce inner header,
    (encrypt isChacha key nonce inner header).length = inner.length + 16

/-- The hash function's values have the size it states. -/
structure Hashes (crypto : Crypto) : Prop where
  positive : ∀ hashName, 0 < crypto.digestSize hashName
  length : ∀ hashName key data,
    (crypto.hmac hashName key data).length = crypto.digestSize hashName

/-- A record number as eight bytes. -/
def sequenceNumber (seq : Nat) : Bytes :=
  [7, 6, 5, 4, 3, 2, 1, 0].map fun power => UInt8.ofNat (seq / 256 ^ power)

/-- The nonce of a record: its number, padded to the length of the iv, against the iv. -/
def serverNonce (iv : Bytes) (seq : Nat) : Bytes :=
  iv.zipWith (· ^^^ ·) (zeros (iv.length - 8) ++ sequenceNumber seq)

/-- What follows the ServerHello on the wire: a piece of the messages with its zero
padding, or a ChangeCipherSpec record. -/
inductive FlightItem
  | sealed (content : Bytes) (padding : Nat)
  | changeCipherSpec

namespace FlightItem

/-- The piece of the messages in a record. -/
def content : FlightItem → Bytes
  | .sealed content _ => content
  | .changeCipherSpec => []

/-- The length of a record is a 16-bit number. -/
def Fits : FlightItem → Prop
  | .sealed content padding => content.length + 1 + padding + 16 < 65536
  | .changeCipherSpec => True

end FlightItem

/-- A ChangeCipherSpec record. -/
def changeCipherSpecRecord : Frame UInt8 := ⟨[0x14, 3, 3, 0, 1], [1]⟩

/-- The TLSInnerPlaintext: the content, its type and the padding. -/
def innerPlaintext (content : Bytes) (padding : Nat) : Bytes :=
  content ++ handshakeType :: zeros padding

/-- The header of a sealed record. -/
def sealedHeader (inner : Bytes) : Bytes :=
  [applicationType, 3, 3] ++ u16 (inner.length + 16)

section Sealing

variable (encrypt : Bool → Bytes → Bytes → Bytes → Bytes → Bytes) (keys : HandshakeKeys)

/-- The encrypted record of the given number. -/
def sealedRecord (seq : Nat) (content : Bytes) (padding : Nat) : Frame UInt8 :=
  let inner := innerPlaintext content padding
  ⟨sealedHeader inner,
    encrypt keys.isChacha keys.serverKey (serverNonce keys.serverIv seq) inner
      (sealedHeader inner)⟩

/-- The records after the ServerHello; ChangeCipherSpec records have no number. -/
def sealItems : Nat → List FlightItem → List (Frame UInt8)
  | _, [] => []
  | seq, .sealed content padding :: rest =>
      sealedRecord encrypt keys seq content padding :: sealItems (seq + 1) rest
  | seq, .changeCipherSpec :: rest => changeCipherSpecRecord :: sealItems seq rest

end Sealing

/-! ## Handshake messages -/

/-- An entry of a Certificate message: a certificate and its extensions. -/
structure ServedCertificate where
  der : Bytes
  extensions : Bytes
  nonempty : der ≠ []
  der_small : der.length < 2 ^ 24
  extensions_small : extensions.length < 65536

/-- The entry as it is sent. -/
def ServedCertificate.bytes (entry : ServedCertificate) : Bytes :=
  u24 entry.der.length ++ entry.der ++ (u16 entry.extensions.length ++ entry.extensions)

/-- The entries of a certificate list. -/
def encodeEntries (entries : List ServedCertificate) : Bytes :=
  entries.flatMap ServedCertificate.bytes

/-- A handshake message of the flight. -/
inductive ServedMessage
  | certificate (context : Bytes) (entries : List ServedCertificate)
  | certificateVerify (scheme : Nat) (signature : Bytes)
  | other (type : UInt8) (body : Bytes)

namespace ServedMessage

/-- The type of a message. -/
def type : ServedMessage → UInt8
  | .certificate _ _ => certificateType
  | .certificateVerify _ _ => certificateVerifyType
  | .other type _ => type

/-- The body of a message. -/
def body : ServedMessage → Bytes
  | .certificate context entries =>
      UInt8.ofNat context.length :: context ++
        (u24 (encodeEntries entries).length ++ encodeEntries entries)
  | .certificateVerify scheme signature =>
      u16 scheme ++ (u16 signature.length ++ signature)
  | .other _ body => body

/-- The message as a frame. -/
def frame (message : ServedMessage) : Frame UInt8 :=
  ⟨message.type :: u24 message.body.length, message.body⟩

/-- The lengths and the scheme fit their fields, and another
message has its own type. -/
structure Valid (message : ServedMessage) : Prop where
  body_small : message.body.length < 2 ^ 24
  context_small : ∀ context entries, message = .certificate context entries →
    context.length < 256
  scheme_small : ∀ scheme signature, message = .certificateVerify scheme signature →
    scheme < 65536
  other_type : ∀ type body, message = .other type body →
    type ≠ certificateType ∧ type ≠ certificateVerifyType

/-- The certificates of a Certificate message. -/
def certs? : ServedMessage → Option (List Bytes)
  | .certificate _ entries => some (entries.map ServedCertificate.der)
  | _ => none

/-- The scheme of a CertificateVerify message. -/
def scheme? : ServedMessage → Option Nat
  | .certificateVerify scheme _ => some scheme
  | _ => none

end ServedMessage

/-- The certificates of the last Certificate message. -/
def lastCerts (messages : List ServedMessage) : List Bytes :=
  (messages.filterMap ServedMessage.certs?).getLastD []

/-- The scheme of the last CertificateVerify message. -/
def lastScheme (messages : List ServedMessage) : Option Nat :=
  (messages.filterMap ServedMessage.scheme?).getLast?

/-! ## The ServerHello -/

/-- The code of an extension. -/
def extensionType (extension : Frame UInt8) : Nat := bigEndian (extension.head.take 2)

/-- An extension. -/
def extensionFrame (type : Nat) (body : Bytes) : Frame UInt8 :=
  ⟨u16 type ++ u16 body.length, body⟩

/-- A ServerHello with one X25519 key share, a supported cipher suite and at most
one selected version. -/
structure ShareHello where
  hello : HelloMessage
  exts : List (Frame UInt8)
  share : Bytes
  version : Option Nat
  suite : CipherSuite
  present : hello.extensions = some exts
  negotiated : cipherSuites hello.cipher = some suite
  share_length : share.length = 32
  version_small : ∀ selected ∈ version, selected < 65536
  key_share : exts.filter (extensionType · == 0x0033) =
    [extensionFrame 0x0033 (u16 0x001D ++ (u16 share.length ++ share))]
  supported_versions : exts.filter (extensionType · == 0x002B) =
    (version.map fun selected => extensionFrame 0x002B (u16 selected)).toList
  message_small : hello.message.length < 65536

namespace ShareHello

/-- The record of the ServerHello. -/
def record (share : ShareHello) : Frame UInt8 :=
  ⟨[handshakeType, 3, 3] ++ u16 share.hello.message.length, share.hello.message⟩

/-- The version that is selected, TLS 1.2 without a selection. -/
def negotiatedVersion (share : ShareHello) : Nat := share.version.getD 0x0303

end ShareHello

/-! ## Reading it back -/

theorem bigEndian_u24_append {n : Nat} (small : n < 2 ^ 24) (rest : Bytes) :
    bigEndian ((u24 n ++ rest).take 3) = n := by
  rw [List.take_left' (length_u24 n), bigEndian_u24 small]

theorem bigEndian_u16_append {n : Nat} (small : n < 65536) (rest : Bytes) :
    bigEndian ((u16 n ++ rest).take 2) = n := by
  rw [List.take_left' (length_u16 n), bigEndian_u16 small]

theorem length_bytes (entry : ServedCertificate) :
    entry.bytes.length = 3 + entry.der.length + (2 + entry.extensions.length) := by
  simp only [ServedCertificate.bytes, List.length_append, length_u24, length_u16]

/-- The loop over the entries reads them all. -/
theorem certificateEntries_encode {entries : List ServedCertificate} {fuel : Nat}
    (enough : (encodeEntries entries).length ≤ fuel) :
    certificateEntries fuel (encodeEntries entries).length (encodeEntries entries) =
      entries.map ServedCertificate.der := by
  induction entries generalizing fuel with
  | nil =>
      cases fuel with
      | zero => rfl
      | succ fuel => rfl
  | cons entry rest inductionHypothesis =>
      have whole : (encodeEntries (entry :: rest)).length =
          3 + entry.der.length + (2 + entry.extensions.length) +
            (encodeEntries rest).length := by
        rw [encodeEntries, List.flatMap_cons, List.length_append, length_bytes]
        rfl
      cases fuel with
      | zero => omega
      | succ fuel =>
      have start : encodeEntries (entry :: rest) = u24 entry.der.length ++
          (entry.der ++ (u16 entry.extensions.length ++
            (entry.extensions ++ encodeEntries rest))) := by
        simp [encodeEntries, ServedCertificate.bytes, List.append_assoc]
      have length : bigEndian ((encodeEntries (entry :: rest)).take 3) =
          entry.der.length := by
        rw [start, bigEndian_u24_append entry.der_small]
      have cert : ((encodeEntries (entry :: rest)).drop 3).take entry.der.length =
          entry.der := by
        rw [start, List.drop_left' (length_u24 _), List.take_left' rfl]
      have after : (encodeEntries (entry :: rest)).drop (3 + entry.der.length) =
          u16 entry.extensions.length ++ (entry.extensions ++ encodeEntries rest) := by
        rw [start, ← List.drop_drop, List.drop_left' (length_u24 _), List.drop_left' rfl]
      have later : (u16 entry.extensions.length ++
          (entry.extensions ++ encodeEntries rest)).drop (2 + entry.extensions.length) =
            encodeEntries rest := by
        rw [← List.drop_drop, List.drop_left' (length_u16 _), List.drop_left' rfl]
      have left : (encodeEntries (entry :: rest)).length - (3 + entry.der.length) -
          (2 + entry.extensions.length) = (encodeEntries rest).length := by
        omega
      rw [certificateEntries, if_pos (by omega)]
      simp only [length, cert, after, later, left,
        bigEndian_u16_append entry.extensions_small, ne_eq, entry.nonempty,
        not_false_eq_true, and_self, if_true]
      rw [if_neg (by omega), inductionHypothesis (by omega)]
      rfl

/-- The extractor reads the certificates of a Certificate message. -/
theorem extractCertificates_certificate {context : Bytes}
    {entries : List ServedCertificate}
    (valid : (ServedMessage.certificate context entries).Valid) :
    extractCertificatesTls13 (ServedMessage.certificate context entries).body =
      entries.map ServedCertificate.der := by
  have small := valid.context_small context entries rfl
  have length : (UInt8.ofNat context.length).toNat = context.length := by
    rw [UInt8.toNat_ofNat', Nat.mod_eq_of_lt small]
  have bounded : (encodeEntries entries).length < 2 ^ 24 := by
    have body := valid.body_small
    simp only [ServedMessage.body, List.length_append, List.length_cons,
      length_u24] at body
    omega
  have after : (UInt8.ofNat context.length :: context ++
      (u24 (encodeEntries entries).length ++ encodeEntries entries)).drop
        (1 + context.length) =
        u24 (encodeEntries entries).length ++ encodeEntries entries := by
    apply List.drop_left'
    rw [List.length_cons, Nat.add_comm]
  have whole : (UInt8.ofNat context.length :: context ++
      (u24 (encodeEntries entries).length ++ encodeEntries entries)).length =
        1 + context.length + 3 + (encodeEntries entries).length := by
    simp only [List.length_append, List.length_cons, length_u24]
    omega
  rw [ServedMessage.body, List.cons_append, extractCertificatesTls13]
  dsimp only
  rw [← List.cons_append, length, whole, if_neg (by omega),
    after, ← List.drop_drop, after, List.drop_left' (length_u24 _),
    bigEndian_u24_append bounded]
  have limit : min (encodeEntries entries).length
      (1 + context.length + 3 + (encodeEntries entries).length -
        (1 + context.length + 3)) =
        (encodeEntries entries).length := by
    omega
  rw [limit]
  exact certificateEntries_encode (le_refl _)

theorem fits_frame {message : ServedMessage} (valid : message.Valid) :
    messageFraming.Fits message.frame :=
  ⟨rfl, (bigEndian_u24 valid.body_small).symm⟩

/-- One message changes what is known of the chain. -/
theorem readMessage_frame {message : ServedMessage} (valid : message.Valid)
    (chain : List Bytes × Option Nat) :
    readMessage chain message.frame =
      (message.certs?.getD chain.1, message.scheme?.or chain.2) := by
  have typed : typeByte message.frame.head = message.type := rfl
  rw [readMessage, typed]
  cases message with
  | certificate context entries =>
      rw [if_pos (by rfl)]
      exact congrArg (·, chain.2) (extractCertificates_certificate valid)
  | certificateVerify scheme signature =>
      rw [if_neg (by exact (by decide : certificateVerifyType ≠ certificateType)),
        if_pos ⟨rfl, by simp [ServedMessage.frame, ServedMessage.body]⟩]
      exact congrArg (chain.1, some ·)
        (bigEndian_u16_append (valid.scheme_small scheme signature rfl) _)
  | other type body =>
      obtain ⟨notCertificate, notVerify⟩ := valid.other_type type body rfl
      have neither : (ServedMessage.other type body).type ≠ certificateType :=
        notCertificate
      rw [if_neg neither, if_neg fun both => notVerify both.1]
      rfl

theorem readMessages_frames {messages : List ServedMessage}
    (valid : ∀ message ∈ messages, message.Valid) :
    readMessages (messages.map ServedMessage.frame) =
      (lastCerts messages, lastScheme messages) := by
  have fold : ∀ chain, (messages.map ServedMessage.frame).foldl readMessage chain =
      ((messages.filterMap ServedMessage.certs?).getLastD chain.1,
        ((messages.filterMap ServedMessage.scheme?).getLast?).or chain.2) := by
    induction messages with
    | nil => exact fun chain => rfl
    | cons message rest inductionHypothesis =>
        intro chain
        rw [List.map_cons, List.foldl_cons,
          readMessage_frame (valid message List.mem_cons_self),
          inductionHypothesis fun other member =>
            valid other (List.mem_cons_of_mem _ member)]
        cases certs : message.certs? <;> cases scheme : message.scheme? <;>
          simp [certs, scheme, List.getLast?_cons]
  rw [readMessages, fold]
  simp [lastCerts, lastScheme]

/-! ### Opening the records -/

/-- Padding and content type are stripped, whatever the content ends with. -/
theorem strip_innerPlaintext (content : Bytes) (padding : Nat) :
    (innerPlaintext content padding).reverse.dropWhile (· == 0) =
      handshakeType :: content.reverse := by
  have zero : ∀ byte ∈ zeros padding, (byte == 0) = true := by
    intro byte member
    rw [List.eq_of_mem_replicate member]
    rfl
  rw [innerPlaintext, List.reverse_append, List.reverse_cons, List.append_assoc,
    List.singleton_append, List.dropWhile_append_of_pos fun byte member =>
      zero byte (List.mem_reverse.mp member), List.dropWhile_cons_of_neg (by decide)]

/-- A number of at most eight bytes is padded with zeros. -/
theorem toBytes_add_eight (count : Nat) {seq : Nat} (small : seq < 2 ^ 64) :
    toBytes seq (count + 8) = zeros count ++ sequenceNumber seq := by
  rw [toBytes, List.range_add, List.map_append, List.map_map]
  congr 1
  · rw [zeros, List.eq_replicate_iff]
    refine ⟨by rw [List.length_map, List.length_range], fun byte member => ?_⟩
    obtain ⟨index, within, rfl⟩ := List.mem_map.mp member
    have below := List.mem_range.mp within
    have large : 256 ^ 8 ≤ 256 ^ (count + 8 - 1 - index) :=
      Nat.pow_le_pow_right (by decide) (by omega)
    rw [Nat.div_eq_of_lt (by omega)]
    rfl
  · change List.map _ [0, 1, 2, 3, 4, 5, 6, 7] = _
    simp [sequenceNumber]

/-- The probe's nonce is the server's. -/
theorem recordNonce_eq {iv : Bytes} (long : 8 ≤ iv.length) {seq : Nat}
    (small : seq < 2 ^ 64) :
    recordNonce iv seq = serverNonce iv seq := by
  obtain ⟨count, length⟩ : ∃ count, iv.length = count + 8 := ⟨iv.length - 8, by omega⟩
  rw [recordNonce, serverNonce, length, toBytes_add_eight count small, Nat.add_sub_cancel]

theorem length_hkdfBlocks {crypto : Crypto} (hashes : Hashes crypto) (prk info : Bytes)
    (hashName : String) (count i : Nat) (t : Bytes) :
    (hkdfBlocks crypto prk info hashName count i t).length =
      count * crypto.digestSize hashName := by
  induction count generalizing i t with
  | zero => rw [hkdfBlocks, List.length_nil, Nat.zero_mul]
  | succ count inductionHypothesis =>
      rw [hkdfBlocks, List.length_append, hashes.length, inductionHypothesis,
        Nat.succ_mul, Nat.add_comm]

/-- `hkdf_expand` gives as many bytes as it is asked for. -/
theorem length_hkdfExpand {crypto : Crypto} (hashes : Hashes crypto) (prk info : Bytes)
    (length : Nat) (hashName : String) :
    (hkdfExpand crypto prk info length hashName).length = length := by
  have positive := hashes.positive hashName
  rw [hkdfExpand, List.length_take, length_hkdfBlocks hashes, Nat.min_eq_left]
  rw [Nat.mul_comm]
  have round := Nat.lt_mul_div_succ (length + crypto.digestSize hashName - 1) positive
  rw [Nat.mul_add, Nat.mul_one] at round
  omega

section Records

variable {crypto : Crypto} {encrypt : Bool → Bytes → Bytes → Bytes → Bytes → Bytes}
  {keys : HandshakeKeys}

theorem aeadOpen_sealedRecord (seals : Seals crypto encrypt)
    (long : 8 ≤ keys.serverIv.length)
    {seq : Nat} (small : seq < 2 ^ 64) (content : Bytes) (padding : Nat) :
    aeadOpen crypto keys seq (sealedRecord encrypt keys seq content padding).bytes =
      some content := by
  have header : (sealedHeader (innerPlaintext content padding)).length = 5 := rfl
  rw [aeadOpen, Frame.bytes, sealedRecord]
  dsimp only
  rw [if_neg (by rw [List.length_append, header]; omega), List.drop_left' header,
    List.take_left' header, recordNonce_eq long small, seals.opens]
  dsimp only
  rw [strip_innerPlaintext]
  dsimp only
  rw [List.reverse_reverse]

/-- The records open to the pieces of the messages, one after the other. -/
theorem openRecords_sealItems (seals : Seals crypto encrypt)
    (long : 8 ≤ keys.serverIv.length)
    {seq : Nat} {items : List FlightItem} (few : seq + items.length < 2 ^ 64) :
    openRecords (aeadOpen crypto keys) seq (sealItems encrypt keys seq items) =
      items.flatMap FlightItem.content := by
  induction items generalizing seq with
  | nil => rfl
  | cons item rest inductionHypothesis =>
      rw [List.length_cons] at few
      cases item with
      | sealed content padding =>
          rw [sealItems, openRecords, if_pos (by rfl),
            aeadOpen_sealedRecord seals long (by omega), inductionHypothesis (by omega)]
          rfl
      | changeCipherSpec =>
          rw [sealItems, openRecords, if_neg (by decide), inductionHypothesis (by omega)]
          rfl

/-- Records that are not encrypted do not count. -/
theorem openRecords_append_of_plain {opener : Nat → Bytes → Option Bytes} {seq : Nat}
    {plain : List (Frame UInt8)} (rest : List (Frame UInt8))
    (types : ∀ record ∈ plain, typeByte record.head ≠ applicationType) :
    openRecords opener seq (plain ++ rest) = openRecords opener seq rest := by
  induction plain with
  | nil => rfl
  | cons record plain inductionHypothesis =>
      rw [List.cons_append, openRecords, if_neg (types record List.mem_cons_self)]
      exact inductionHypothesis fun other member =>
        types other (List.mem_cons_of_mem _ member)

theorem fits_sealItems (seals : Seals crypto encrypt) {seq : Nat}
    {items : List FlightItem}
    (fit : ∀ item ∈ items, item.Fits) :
    ∀ record ∈ sealItems encrypt keys seq items, recordFraming.Fits record := by
  induction items generalizing seq with
  | nil => nofun
  | cons item rest inductionHypothesis =>
      have later : ∀ item ∈ rest, item.Fits := fun other member =>
        fit other (List.mem_cons_of_mem _ member)
      have here := fit item List.mem_cons_self
      cases item with
      | sealed content padding =>
          intro record member
          rcases List.mem_cons.mp member with rfl | after
          · have length : (innerPlaintext content padding).length =
                content.length + 1 + padding := by
              simp only [innerPlaintext, List.length_append, List.length_cons, zeros,
                List.length_replicate]
              omega
            refine ⟨rfl, (seals.length _ _ _ _ _).trans ?_⟩
            exact (bigEndian_u16 (by rw [length]; exact here)).symm
          · exact inductionHypothesis later record after
      | changeCipherSpec =>
          intro record member
          rcases List.mem_cons.mp member with rfl | after
          · exact ⟨rfl, by decide⟩
          · exact inductionHypothesis later record after

end Records

/-! ### The ServerHello -/

/-- The version and the share are read from their own extensions. -/
theorem foldl_stepShare (exts : List (Frame UInt8)) (version : Nat)
    (share : Option Bytes) :
    exts.foldl (fun state extension =>
        stepShare state (bigEndian (extension.head.take 2)) extension.body)
          (version, share) =
      ((exts.filter (extensionType · == 0x002B)).foldl (fun version extension =>
          (stepShare (version, none) 0x002B extension.body).1) version,
        (exts.filter (extensionType · == 0x0033)).foldl (fun share extension =>
          (stepShare (0, share) 0x0033 extension.body).2) share) := by
  induction exts generalizing version share with
  | nil => rfl
  | cons extension rest inductionHypothesis =>
      rw [List.foldl_cons]
      change List.foldl _ (stepShare (version,
        share) (extensionType extension) extension.body)
        rest = _
      by_cases selects : extensionType extension = 0x002B
      · have step : stepShare (version, share) 0x002B extension.body =
            ((stepShare (version, none) 0x002B extension.body).1, share) := by
          unfold stepShare
          split <;> rfl
        rw [selects, step, inductionHypothesis,
          List.filter_cons_of_pos (by simp [selects]),
          List.filter_cons_of_neg (by simp [selects]), List.foldl_cons]
      · by_cases shares : extensionType extension = 0x0033
        · have step : stepShare (version, share) 0x0033 extension.body =
              (version, (stepShare (0, share) 0x0033 extension.body).2) := by
            have other : ¬ ((0x0033 : Nat) = 0x002B ∧ 2 ≤ extension.body.length) := by
              omega
            simp only [stepShare, other, if_false]
            split
            · split <;> rfl
            · rfl
          rw [shares, step, inductionHypothesis,
            List.filter_cons_of_neg (by simp [shares]),
            List.filter_cons_of_pos (by simp [shares]), List.foldl_cons]
        · have step : stepShare (version,
              share) (extensionType extension) extension.body =
              (version, share) := by
            rw [stepShare, if_neg fun both => selects both.1, if_neg fun both =>
              shares both.1]
          rw [step, inductionHypothesis, List.filter_cons_of_neg (by simpa using selects),
            List.filter_cons_of_neg (by simpa using shares)]

namespace ShareHello

variable (share : ShareHello)

theorem stepShare_share :
    (stepShare (0, none) 0x0033
      (u16 0x001D ++ (u16 share.share.length ++ share.share))).2 =
      some share.share := by
  have small : share.share.length < 65536 := by
    rw [share.share_length]
    decide
  have long : 4 ≤ (u16 0x001D ++ (u16 share.share.length ++ share.share)).length := by
    simp only [List.length_append, length_u16]
    omega
  have group : bigEndian
      ((u16 0x001D ++ (u16 share.share.length ++ share.share)).take 2) =
      0x001D := bigEndian_u16_append (by decide) _
  have after : (u16 0x001D ++ (u16 share.share.length ++ share.share)).drop 2 =
      u16 share.share.length ++ share.share := List.drop_left' rfl
  have key : (u16 0x001D ++ (u16 share.share.length ++ share.share)).drop 4 =
      share.share := by
    rw [show 4 = 2 + 2 from rfl, ← List.drop_drop, after, List.drop_left' (length_u16 _)]
  rw [stepShare, if_neg (by omega), if_pos ⟨rfl, long⟩, if_pos group, after,
    key, bigEndian_u16_append small, List.take_length]

/-- The parser reads the version, the cipher suite and the share. -/
theorem parse_message :
    parseServerHello share.hello.message =
      .ok (some ⟨share.negotiatedVersion, share.hello.cipher, share.share⟩) := by
  have version : ((share.version.map fun selected =>
      extensionFrame 0x002B (u16 selected)).toList).foldl (fun version extension =>
        (stepShare (version, none) 0x002B extension.body).1) 0x0303 =
          share.negotiatedVersion := by
    cases selected : share.version with
    | none => rw [negotiatedVersion, selected]; rfl
    | some value =>
        rw [negotiatedVersion, selected]
        change (stepShare (0x0303, none) 0x002B (u16 value)).1 = value
        rw [stepShare, if_pos ⟨rfl, by simp⟩]
        exact bigEndian_u16 (share.version_small value selected)
  have read := share.hello.readHello_message visitShare_eq (0x0303, none) selectShare
    share.present []
  rw [List.append_nil, foldl_stepShare, share.key_share, share.supported_versions,
    version] at read
  have parsed : parseServerHelloTls13 share.hello.message =
      .ok (some ⟨share.negotiatedVersion, share.hello.cipher, share.share⟩) := by
    rw [parseServerHelloTls13, read, List.foldl_cons, List.foldl_nil]
    change Except.ok (selectShare _ (_,
      (stepShare (0, none) 0x0033 (u16 0x001D ++ _)).2)) = _
    rw [stepShare_share, selectShare, share.negotiated]
    rfl
  rw [parseServerHelloTls13_eq] at parsed
  cases coarse : parseServerHello share.hello.message with
  | ok value =>
      rw [coarse] at parsed
      rw [Except.ok.inj parsed]
  | error message =>
      rw [coarse] at parsed
      cases parsed

end ShareHello

/-- A server's flight: ChangeCipherSpec records, the ServerHello, and what follows. -/
structure ServerFlight where
  leading : Nat
  share : ShareHello
  items : List FlightItem
  messages : List ServedMessage
  items_fit : ∀ item ∈ items, item.Fits
  items_few : items.length < 2 ^ 64
  valid : ∀ message ∈ messages, message.Valid
  carried : items.flatMap FlightItem.content = encode (messages.map ServedMessage.frame)

namespace ServerFlight

variable (flight : ServerFlight) (crypto : Crypto)
  (encrypt : Bool → Bytes → Bytes → Bytes → Bytes → Bytes) (clientHello shared : Bytes)

/-- The keys both sides derive from the shared secret and the two hellos. -/
def keys : HandshakeKeys :=
  handshakeTrafficKeys crypto shared (clientHello.drop 5 ++ flight.share.hello.message)
    flight.share.suite

/-- The records of the flight. -/
def records : List (Frame UInt8) :=
  List.replicate flight.leading changeCipherSpecRecord ++ flight.share.record ::
    sealItems encrypt (flight.keys crypto clientHello shared) 0 flight.items

/-- The bytes on the wire. -/
def bytes : Bytes := encode (flight.records crypto encrypt clientHello shared)

variable {flight crypto encrypt clientHello shared}

theorem records_fit (seals : Seals crypto encrypt) :
    ∀ record ∈ flight.records crypto encrypt clientHello shared,
      recordFraming.Fits record := by
  intro record member
  rcases List.mem_append.mp member with leading | after
  · rw [List.eq_of_mem_replicate leading]
    exact ⟨rfl, by decide⟩
  · rcases List.mem_cons.mp after with rfl | later
    · exact ⟨rfl, (bigEndian_u16 flight.share.message_small).symm⟩
    · exact fits_sealItems seals flight.items_fit record later

theorem find_hello :
    (flight.records crypto encrypt clientHello shared).find? (isHandshake ·.head) =
      some flight.share.record := by
  rw [records, List.find?_append, List.find?_replicate, List.find?_cons_of_pos (by rfl)]
  split <;> rfl

end ServerFlight

/-- The probe recovers what the server sent, however the
messages are cut into records. -/
theorem recoverHandshake_inverts {crypto : Crypto}
    {encrypt : Bool → Bytes → Bytes → Bytes → Bytes → Bytes}
    (seals : Seals crypto encrypt)
    (hashes : Hashes crypto) (clientHello : Bytes) (flight : ServerFlight)
    {shared : Bytes}
    (exchanged : crypto.exchange flight.share.share = some shared) :
    recoverHandshake crypto clientHello (flight.bytes crypto encrypt clientHello shared) =
      .ok (some ⟨flight.share.negotiatedVersion, flight.share.hello.cipher,
        lastCerts flight.messages, lastScheme flight.messages⟩) := by
  have split : splitRecords (flight.bytes crypto encrypt clientHello shared) =
      flight.records crypto encrypt clientHello shared :=
    readWhole_encode (ServerFlight.records_fit seals)
  have long : 8 ≤ (flight.keys crypto clientHello shared).serverIv.length := by
    rw [ServerFlight.keys, handshakeTrafficKeys]
    dsimp only
    rw [hkdfExpandLabel, length_hkdfExpand hashes]
    decide
  have few : 0 + flight.items.length < 2 ^ 64 := by
    rw [Nat.zero_add]
    exact flight.items_few
  have plaintext : openRecords (aeadOpen crypto (flight.keys crypto clientHello shared)) 0
      (flight.records crypto encrypt clientHello shared) =
        encode (flight.messages.map ServedMessage.frame) := by
    rw [ServerFlight.records, openRecords_append_of_plain, openRecords,
      if_neg (by exact (by decide : handshakeType ≠ applicationType)),
      openRecords_sealItems seals long few, flight.carried]
    intro record member
    rw [List.eq_of_mem_replicate member]
    decide
  have messages : reassembleMessages (encode (flight.messages.map ServedMessage.frame)) =
      flight.messages.map ServedMessage.frame := by
    apply readWhole_encode
    intro frame member
    obtain ⟨message, listed, rfl⟩ := List.mem_map.mp member
    exact fits_frame (flight.valid message listed)
  have chain : readMessages (reassembleMessages (openRecords (aeadOpen crypto
      (handshakeTrafficKeys crypto shared
        (clientHello.drop 5 ++ flight.share.hello.message)
        flight.share.suite)) 0 (flight.records crypto encrypt clientHello shared))) =
      (lastCerts flight.messages, lastScheme flight.messages) := by
    change readMessages (reassembleMessages (openRecords
      (aeadOpen crypto (flight.keys crypto clientHello shared)) 0 _)) = _
    rw [plaintext, messages, readMessages_frames flight.valid]
  have body : flight.share.record.body = flight.share.hello.message := rfl
  rw [recoverHandshake, split]
  dsimp only
  rw [ServerFlight.find_hello]
  dsimp only
  rw [body, flight.share.parse_message]
  simp only [bind, Except.bind, exchanged, flight.share.negotiated]
  rw [chain]

/-! ## A flight in two records -/

theorem length_version : ([3, 3] : Bytes).length = 2 := rfl

/-- A ServerHello that selects TLS 1.3. -/
def tls13Hello : HelloMessage where
  legacyVersion := [3, 3]
  random := zeros 32
  sessionId := []
  cipher := 0x1301
  compression := 0
  extensions := some
    [extensionFrame 0x002B (u16 0x0304),
      extensionFrame 0x0033 (u16 0x001D ++ (u16 32 ++ zeros 32))]
  version_length := length_version
  random_length := rfl
  sessionId_small := length_nil_lt
  cipher_small := by decide
  extensions_fit := by decide
  extensions_small := by decide

/-- A ServerHello with a share. -/
def sampleShare : ShareHello where
  hello := tls13Hello
  exts := [extensionFrame 0x002B (u16 0x0304),
    extensionFrame 0x0033 (u16 0x001D ++ (u16 32 ++ zeros 32))]
  share := zeros 32
  version := some 0x0304
  suite := ⟨"sha256", 16, false⟩
  present := rfl
  negotiated := rfl
  share_length := rfl
  version_small := by decide
  key_share := by decide
  supported_versions := by decide
  message_small := by decide

/-- EncryptedExtensions, a Certificate with one certificate, and a CertificateVerify. -/
def sampleMessages : List ServedMessage :=
  [.other 8 [0, 0], .certificate [] [⟨[1, 2, 3], [], by decide, by decide, by decide⟩],
    .certificateVerify 0x0403 [9]]

/-- The messages cut after five bytes, with padding and a ChangeCipherSpec record. -/
def sampleItems : List FlightItem :=
  let bytes := encode (sampleMessages.map ServedMessage.frame)
  [.changeCipherSpec, .sealed (bytes.take 5) 3, .changeCipherSpec,
    .sealed (bytes.drop 5) 0]

/-- A flight with two certificates. -/
def sampleFlight : ServerFlight where
  leading := 1
  share := sampleShare
  items := sampleItems
  messages := sampleMessages
  items_fit := by
    simp [sampleItems, FlightItem.Fits]
    decide
  items_few := by decide
  valid := by
    intro message member
    simp only [sampleMessages, List.mem_cons, List.not_mem_nil, or_false] at member
    rcases member with rfl | rfl | rfl
    · exact ⟨by decide, nofun, nofun, by rintro _ _ ⟨⟩; decide⟩
    · exact ⟨by decide, by rintro _ _ ⟨⟩; decide, nofun, nofun⟩
    · exact ⟨by decide, nofun, by rintro _ _ ⟨⟩; decide, nofun⟩
  carried := by decide

/-- The cipher that appends a tag of sixteen zeros. -/
theorem plainCrypto_seals :
    Seals plainCrypto fun _ _ _ inner _ => inner ++ zeros 16 := by
  constructor
  · intro isChacha key nonce inner header
    simp [plainCrypto, zeros]
  · intro isChacha key nonce inner header
    simp [zeros]

theorem plainCrypto_hashes : Hashes plainCrypto :=
  ⟨fun _ => (by decide : 0 < 32), fun _ _ _ => rfl⟩

theorem recoverHandshake_inverts_sample :
    recoverHandshake plainCrypto [] (sampleFlight.bytes plainCrypto
        (fun _ _ _ inner _ => inner ++ zeros 16) [] (zeros 32)) =
      .ok (some ⟨0x0304, 0x1301, [[1, 2, 3]], some 0x0403⟩) :=
  recoverHandshake_inverts plainCrypto_seals plainCrypto_hashes [] sampleFlight rfl

end Probes
end PqcScan
