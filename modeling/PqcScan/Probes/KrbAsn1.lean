import PqcScan.Probes.ByteOrder
import PqcScan.Probes.ServerHello

/-!
# Kerberos messages in DER

The encoders of `probes/_krb_asn1.py`, and `parse_kdc_reply`, which reads the error
code and the encryption types of a KRB-ERROR or an AS-REP.
-/

namespace PqcScan
namespace Probes
namespace Krb

open Library Python

/-! ## Encoders -/

/-- The loop of `_der_len` and `_der_int`: the bytes of a number, the highest first,
without leading zeros. -/
def magnitudeLoop : Nat → Nat → Bytes
  | 0, _ => []
  | fuel + 1, n => if n = 0 then [] else magnitudeLoop fuel (n / 256) ++ [UInt8.ofNat n]

/-- The bytes of a number, without leading zeros. -/
def magnitude (n : Nat) : Bytes := magnitudeLoop n n

/-- `_der_len`. -/
def derLen (n : Nat) : Bytes :=
  if n < 0x80 then [UInt8.ofNat n]
  else
    let body := magnitude n
    UInt8.ofNat (0x80 ||| body.length) :: body

/-- `_tlv`. -/
def tlv (tag : UInt8) (value : Bytes) : Bytes := [tag] ++ derLen value.length ++ value

/-- `_TAG_INTEGER`. -/
def integerTag : UInt8 := 0x02

/-- `_TAG_OCTET_STRING`. -/
def octetStringTag : UInt8 := 0x04

/-- `_TAG_SEQUENCE`. -/
def sequenceTag : UInt8 := 0x30

/-- `_TAG_APP_AS_REP`. -/
def asRepTag : UInt8 := 0x6B

/-- `_TAG_APP_KRB_ERROR`. -/
def krbErrorTag : UInt8 := 0x7E

/-- `_der_int` of a natural number. -/
def derInt (n : Nat) : Bytes :=
  if n = 0 then tlv integerTag [0]
  else
    let body := magnitude n
    if (typeByte body).toNat &&& 0x80 ≠ 0 then tlv integerTag (0 :: body)
    else tlv integerTag body

/-- `_seq`. -/
def seq (items : List Bytes) : Bytes := tlv sequenceTag items.flatten

/-- `_ctx`. -/
def ctx (n : Nat) (value : Bytes) : Bytes := tlv (UInt8.ofNat (0xA0 ||| n)) value

/-! ## Decoders -/

/-- `_read_tlv`: the tag, the value and the next offset. -/
def readTlv (data : Bytes) (off : Nat) : Except ReadError (Nat × Bytes × Nat) := do
  let tag ← byteAt data off
  let first ← byteAt data (off + 1)
  let num := if first &&& 0x80 ≠ 0 then first &&& 0x7F else 0
  let length := if first &&& 0x80 ≠ 0 then bigEndian ((data.drop (off + 2)).take num)
    else first
  let off := off + 2 + num
  let value := (data.drop off).take length
  if value.length ≠ length then .error (.valueError "truncated TLV")
  else .ok (tag, value, off + length)

/-- `while off < len(body): tag, value, off = _read_tlv(body, off); …`.  A read value
takes two bytes at least. -/
def scanTlvs (visit : σ → Nat → Bytes → Except ReadError σ) (body : Bytes) :
    Nat → Nat → σ → Except ReadError σ
  | 0, _, state => .ok state
  | fuel + 1, off, state =>
      if off < body.length then do
        let (tag, value, off) ← readTlv body off
        let state ← visit state tag value
        scanTlvs visit body fuel off state
      else .ok state

/-- `int.from_bytes(value, "big", signed=True)`. -/
def signedBigEndian (value : Bytes) : Int :=
  if 0x80 ≤ (typeByte value).toNat then (bigEndian value : Int) - 256 ^ value.length
  else bigEndian value

/-- `_decode_int`. -/
def decodeInt (tlvBytes : Bytes) : Except ReadError Int := do
  let (_, value, _) ← readTlv tlvBytes 0
  pure (signedBigEndian value)

/-- The body of the loop of `_context_fields`. -/
def contextField (fields : Dict Nat Bytes) (tag : Nat) (value : Bytes) :
    Except ReadError (Dict Nat Bytes) :=
  if 0xA0 ≤ tag ∧ tag ≤ 0xBF then .ok (fields.set (tag &&& 0x1F) value) else .ok fields

/-- `_context_fields`. -/
def contextFields (seqBody : Bytes) : Except ReadError (Dict Nat Bytes) :=
  scanTlvs contextField seqBody seqBody.length 0 Dict.empty

/-- The body of the loop of `_etypes_from_info`. -/
def infoEntry (out : List Int) (_tag : Nat) (entry : Bytes) :
    Except ReadError (List Int) := do
  let ef ← contextFields entry
  match ef.get? 0 with
  | some etype => do
      let etype ← decodeInt etype
      pure (out ++ [etype])
  | none => pure out

/-- `_etypes_from_info`. -/
def etypesFromInfo (infoDer : Bytes) : Except ReadError (List Int) := do
  let (_, body, _) ← readTlv infoDer 0
  scanTlvs infoEntry body body.length 0 []

/-- `_PA_ETYPE_INFO` and `_PA_ETYPE_INFO2`. -/
def etypeInfoTypes : List Int := [11, 19]

/-- The body of the loop of `_etypes_from_methoddata`. -/
def paData (out : List Int) (_tag : Nat) (pa : Bytes) : Except ReadError (List Int) := do
  let pf ← contextFields pa
  match pf.get? 1, pf.get? 2 with
  | some type, some padata => do
      let type ← decodeInt type
      if type ∈ etypeInfoTypes then
        let (_, pval, _) ← readTlv padata 0
        let etypes ← etypesFromInfo pval
        pure (out ++ etypes)
      else pure out
  | _, _ => pure out

/-- `_etypes_from_methoddata`. -/
def etypesFromMethoddata (methoddataDer : Bytes) : Except ReadError (List Int) := do
  let (_, body, _) ← readTlv methoddataDer 0
  scanTlvs paData body body.length 0 []

/-- `_dedupe`. -/
def dedupe (items : List Int) : List Int :=
  items.foldl (fun out item => if item ∈ out then out else out ++ [item]) []

/-- What `parse_kdc_reply` returns. -/
structure KdcReply where
  msgType : Option Nat
  etypes : List Int
  errorCode : Option Int
  deriving DecidableEq

/-- A reply of which nothing could be read. -/
def KdcReply.unread : KdcReply := ⟨none, [], none⟩

/-- The result so far, and how the statements that filled it ended. -/
abbrev Filled := KdcReply × Except ReadError Unit

/-- `except (IndexError, ValueError)`. -/
def caught : ReadError → Bool
  | .indexError _ => true
  | .valueError _ => true
  | .structError _ => false

/-- The encryption types of a field of e-data. -/
def edataEtypes (field : Bytes) : Except ReadError (List Int) := do
  let (_, edata, _) ← readTlv field 0
  etypesFromMethoddata edata

/-- The statements on a KRB-ERROR. -/
def fillError (fields : Dict Nat Bytes) : Filled :=
  let result : KdcReply := { KdcReply.unread with msgType := some 30 }
  match (fields.get? 6).mapM decodeInt with
  | .error error => (result, .error error)
  | .ok errorCode =>
      let result := { result with errorCode }
      match (fields.get? 12).mapM edataEtypes with
      | .error error => (result, .error error)
      | .ok none => (result, .ok ())
      | .ok (some etypes) => ({ result with etypes := dedupe etypes }, .ok ())

/-- The encryption type of an enc-part. -/
def encPartEtype (field : Bytes) : Except ReadError (List Int) := do
  let (_, enc, _) ← readTlv field 0
  let ef ← contextFields enc
  match ef.get? 0 with
  | some etype => do
      let etype ← decodeInt etype
      pure [etype]
  | none => pure []

/-- The statements on an AS-REP. -/
def fillReply (fields : Dict Nat Bytes) : Filled :=
  let result : KdcReply := { KdcReply.unread with msgType := some 11 }
  match (fields.get? 2).mapM etypesFromMethoddata with
  | .error error => (result, .error error)
  | .ok padata =>
      match (fields.get? 6).mapM encPartEtype with
      | .error error => (result, .error error)
      | .ok encPart =>
          ({ result with etypes := dedupe (padata.getD [] ++ encPart.getD []) }, .ok ())

/-- The first statements: the tag of the message and its fields. -/
def replyFields (data : Bytes) : Except ReadError (Nat × Dict Nat Bytes) := do
  let (tag, body, _) ← readTlv data 0
  let (_, seqBody, _) ← readTlv body 0
  let fields ← contextFields seqBody
  pure (tag, fields)

/-- The statements on the fields of a message with the given tag. -/
def fill (tag : Nat) (fields : Dict Nat Bytes) : Filled :=
  if tag = krbErrorTag.toNat then fillError fields
  else if tag = asRepTag.toNat then fillReply fields
  else (KdcReply.unread, .ok ())

/-- `parse_kdc_reply`. -/
def parseKdcReply (data : Bytes) : Except ReadError KdcReply :=
  match replyFields data with
  | .error error => if caught error then .ok KdcReply.unread else .error error
  | .ok (tag, fields) =>
      match fill tag fields with
      | (result, .ok ()) => .ok result
      | (result, .error error) => if caught error then .ok result else .error error

end Krb
end Probes
end PqcScan
