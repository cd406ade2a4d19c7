import PqcScan.Core.Bands
import PqcScan.Probes.ByteOrder
import PqcScan.Probes.ServerHello

/-!
# IKE_SA_INIT packets

`probes/_ike_packet.py` builds an IKE_SA_INIT request and reads the SA payload of a
reply.  Offsets into a message are what is left of it.
-/

namespace PqcScan
namespace Probes

open Library Python
open PqcScan.Core (Classification)

/-! ## Transforms -/

namespace Ike

/-- `PAYLOAD_NONE`. -/
def payloadNone : UInt8 := 0

/-- `PAYLOAD_SA`. -/
def payloadSa : UInt8 := 33

/-- `PAYLOAD_KE`. -/
def payloadKe : UInt8 := 34

/-- `PAYLOAD_NONCE`. -/
def payloadNonce : UInt8 := 40

/-- `T_ENCR`. -/
def encrType : Nat := 1

/-- `T_PRF`. -/
def prfType : Nat := 2

/-- `T_INTEG`. -/
def integType : Nat := 3

/-- `T_DH`. -/
def dhType : Nat := 4

/-- `ATTR_KEY_LENGTH`. -/
def attrKeyLengthType : Nat := 14

/-- `_TYPE_NAMES`. -/
def typeNames : Nat → Option String
  | 1 => some "ENCR"
  | 2 => some "PRF"
  | 3 => some "INTEG"
  | 4 => some "DH"
  | _ => none

/-- `_ENCR_NAMES`. -/
def encrNames : Nat → Option String
  | 2 => some "DES"
  | 3 => some "3DES"
  | 11 => some "NULL"
  | 12 => some "AES-CBC"
  | 13 => some "AES-CTR"
  | 20 => some "AES-GCM-16"
  | 28 => some "CHACHA20-POLY1305"
  | _ => none

/-- `_PRF_NAMES`. -/
def prfNames : Nat → Option String
  | 1 => some "PRF-HMAC-MD5"
  | 2 => some "PRF-HMAC-SHA1"
  | 5 => some "PRF-HMAC-SHA256"
  | 6 => some "PRF-HMAC-SHA384"
  | 7 => some "PRF-HMAC-SHA512"
  | _ => none

/-- `_INTEG_NAMES`. -/
def integNames : Nat → Option String
  | 0 => some "NONE"
  | 1 => some "HMAC-MD5-96"
  | 2 => some "HMAC-SHA1-96"
  | 12 => some "HMAC-SHA256-128"
  | 13 => some "HMAC-SHA384-192"
  | 14 => some "HMAC-SHA512-256"
  | _ => none

/-- `_DH_NAMES`. -/
def dhNames : Nat → Option String
  | 1 => some "MODP-768"
  | 2 => some "MODP-1024"
  | 5 => some "MODP-1536"
  | 14 => some "MODP-2048"
  | 15 => some "MODP-3072"
  | 16 => some "MODP-4096"
  | 19 => some "ECP-256"
  | 20 => some "ECP-384"
  | 21 => some "ECP-521"
  | 31 => some "Curve25519"
  | 32 => some "Curve448"
  | 35 => some "ML-KEM-512"
  | 36 => some "ML-KEM-768"
  | 37 => some "ML-KEM-1024"
  | _ => none

/-- `_PQC_DH_IDS`. -/
def pqcDhIds : List Nat := [35, 36, 37]

/-- `_TF_NAME_TABLES`. -/
def transformNames (tfType : Nat) : Nat → Option String :=
  match tfType with
  | 1 => encrNames
  | 2 => prfNames
  | 3 => integNames
  | 4 => dhNames
  | _ => fun _ => none

/-- `transform_name`. -/
def transformName (tfType tfId : Nat) (keyLen : Option Nat) : String :=
  match transformNames tfType tfId with
  | none =>
      let typeName := (typeNames tfType).getD ("TYPE" ++ toString tfType)
      typeName ++ "-ID" ++ toString tfId
  | some base =>
      match keyLen with
      | some length =>
          if tfType = encrType ∧ "AES".toList <+: base.toList then
            base ++ "-" ++ toString length
          else base
      | none => base

/-- `classify_transform`. -/
def classifyTransform (tfType tfId : Nat) (keyLen : Option Nat) : Classification :=
  if tfType = encrType then
    if tfId = 2 then .sangatTinggi
    else if tfId = 3 then .tinggi
    else if tfId ∈ [12, 13, 20] then
      if keyLen.any (192 ≤ ·) then .rendah else .sederhana
    else if tfId = 28 then .rendah
    else .info
  else if tfType = dhType then
    if tfId ∈ pqcDhIds then .pqcReady
    else if (dhNames tfId).isSome then .tinggi
    else .info
  else if tfType ∈ [prfType, integType] then
    let names := Python.contains (transformName tfType tfId none).toList
    if names "MD5" || names "SHA1" then .tinggi
    else if names "SHA256" then .sederhana
    else if names "SHA384" || names "SHA512" then .rendah
    else .info
  else .info

/-- What is told of a transform. -/
structure TransformInfo where
  type : Nat
  id : Nat
  keyLen : Option Nat
  name : String
  classification : Classification
  deriving DecidableEq

/-- `describe_transform`. -/
def describeTransform (tfType tfId : Nat) (keyLen : Option Nat) : TransformInfo where
  type := tfType
  id := tfId
  keyLen := keyLen
  name := transformName tfType tfId keyLen
  classification := classifyTransform tfType tfId keyLen

/-- A transform that is offered: type, id and key length. -/
structure TransformSpec where
  type : Nat
  id : Nat
  keyLen : Option Nat
  deriving DecidableEq

/-- What the reader makes of a transform. -/
def TransformSpec.describe (spec : TransformSpec) : TransformInfo :=
  describeTransform spec.type spec.id spec.keyLen

/-! ## Encoders -/

/-- The code of an unsigned integer in a format of `struct`. -/
def formatCode (width : Nat) : String :=
  if width = 1 then "B" else if width = 2 then "H" else "I"

/-- `struct.pack` of one unsigned integer, the highest byte first. -/
def pack (width n : Nat) : Except ReadError Bytes :=
  if n < 256 ^ width then .ok (bigBytes width n)
  else
    .error (.structError
      ("'" ++ formatCode width ++ "' format requires 0 <= number <= " ++
      toString (256 ^ width - 1)))

/-- `struct.pack(">BxH", first, second)`. -/
def packBxH (first second : Nat) : Except ReadError Bytes := do
  let front ← pack 1 first
  let back ← pack 2 second
  pure (front ++ 0 :: back)

/-- The attributes of `_transform`. -/
def packAttrs : Option Nat → Except ReadError Bytes
  | none => pure []
  | some keyLen => do
      let head ← pack 2 (0x8000 ||| attrKeyLengthType)
      let value ← pack 2 keyLen
      pure (head ++ value)

/-- `_transform`. -/
def transform (spec : TransformSpec) (more : Bool) : Except ReadError Bytes := do
  let attrs ← packAttrs spec.keyLen
  let fixed ← packBxH spec.type spec.id
  let body := fixed ++ attrs
  let header ← packBxH (if more then 3 else 0) (4 + body.length)
  pure (header ++ body)

/-- `_transforms_block`; all but the last are flagged. -/
def transformsBlock : List TransformSpec → Except ReadError Bytes
  | [] => pure []
  | spec :: rest => do
      let front ← transform spec (!rest.isEmpty)
      let back ← transformsBlock rest
      pure (front ++ back)

/-- `_proposal`. -/
def proposal (propNum : Nat) (specs : List TransformSpec) : Except ReadError Bytes := do
  let block ← transformsBlock specs
  let header ← packBxH 0 (8 + block.length)
  let number ← pack 1 propNum
  let count ← pack 1 specs.length
  pure (header ++ number ++ [1, 0] ++ count ++ block)

/-- `build_sa_payload`. -/
def buildSaPayload (specs : List TransformSpec) (nextPayload : Nat) :
    Except ReadError Bytes := do
  let body ← proposal 1 specs
  let header ← packBxH nextPayload (4 + body.length)
  pure (header ++ body)

/-- `_ke_payload`. -/
def kePayload (dhGroup : Nat) (keData : Bytes) (nextPayload : Nat) :
    Except ReadError Bytes := do
  let group ← pack 2 dhGroup
  let reserved ← pack 2 0
  let body := group ++ reserved ++ keData
  let header ← packBxH nextPayload (4 + body.length)
  pure (header ++ body)

/-- `_nonce_payload`. -/
def noncePayload (nonce : Bytes) (nextPayload : Nat) : Except ReadError Bytes := do
  let header ← packBxH nextPayload (4 + nonce.length)
  pure (header ++ nonce)

/-- `_OFFERED_SPECS`. -/
def offeredSpecs : List TransformSpec :=
  [⟨1, 20, some 256⟩, ⟨1, 12, some 256⟩, ⟨1, 12, some 128⟩, ⟨1, 3, none⟩,
    ⟨2, 7, none⟩, ⟨2, 6, none⟩, ⟨2, 5, none⟩, ⟨2, 2, none⟩,
    ⟨3, 14, none⟩, ⟨3, 13, none⟩, ⟨3, 12, none⟩, ⟨3, 2, none⟩,
    ⟨4, 36, none⟩, ⟨4, 31, none⟩, ⟨4, 21, none⟩, ⟨4, 20, none⟩, ⟨4, 19, none⟩,
    ⟨4, 15, none⟩, ⟨4, 14, none⟩]

/-- `offered_transforms`. -/
def offeredTransforms : List TransformInfo := offeredSpecs.map TransformSpec.describe

/-- `struct.pack("8s", bytes)`. -/
def packEight (bytes : Bytes) : Bytes := (bytes ++ zeros 8).take 8

/-- `build_ike_sa_init`, with the SPI and the nonce that are given or drawn. -/
def buildIkeSaInit (initiatorSpi nonce : Bytes) : Except ReadError Bytes := do
  let sa ← buildSaPayload offeredSpecs payloadKe.toNat
  let ke ← kePayload 14 (zeros 256) payloadNonce.toNat
  let ni ← noncePayload nonce payloadNone.toNat
  let payloads := sa ++ ke ++ ni
  let messageId ← pack 4 0
  let length ← pack 4 (28 + payloads.length)
  let header := packEight initiatorSpi ++ packEight (zeros 8) ++
    [payloadSa, 0x20, 34, 0x08] ++ messageId ++ length
  pure (header ++ payloads)

/-! ## Decoders -/

/-- `struct.unpack(">BxH", bytes)`. -/
def unpackBxH (bytes : Bytes) : Except ReadError (Nat × Nat) :=
  if bytes.length = 4 then .ok (bigEndian (bytes.take 1), bigEndian (bytes.drop 2))
  else .error (.structError "unpack requires a buffer of 4 bytes")

/-- `_attr_key_length`; every round takes four bytes at least. -/
def attrKeyLength : Nat → Bytes → Except ReadError (Option Nat)
  | 0, _ => .ok none
  | fuel + 1, attrs =>
      if 4 ≤ attrs.length then do
        let afType ← unpackU16 (attrs.take 2)
        if afType &&& 0x8000 ≠ 0 then
          let value ← unpackU16 ((attrs.drop 2).take 2)
          if afType &&& 0x7FFF = attrKeyLengthType then pure (some value)
          else attrKeyLength fuel (attrs.drop 4)
        else
          let alen ← unpackU16 ((attrs.drop 2).take 2)
          attrKeyLength fuel (attrs.drop (4 + alen))
      else .ok none

/-- The loop of `parse_sa_payload` from the offset of a transform on. -/
def parseTransforms (data : Bytes) (propEnd : Nat) :
    Nat → Nat → Except ReadError (List TransformInfo)
  | 0, _ => .ok []
  | count + 1, off =>
      if data.length < off + 8 then .ok []
      else do
        let (_, tfLen) ← unpackBxH ((data.drop off).take 4)
        let (tfType, tfId) ← unpackBxH ((data.drop (off + 4)).take 4)
        if tfLen < 8 ∨ data.length < off + tfLen ∨ propEnd ≤ off then pure []
        else
          let attrs := (data.take (off + tfLen)).drop (off + 8)
          let keyLen ← attrKeyLength attrs.length attrs
          let later ← parseTransforms data propEnd count (off + tfLen)
          pure (describeTransform tfType tfId keyLen :: later)

/-- `parse_sa_payload`; the protocol of the proposal is read and not looked at. -/
def parseSaPayload (data : Bytes) : Except ReadError (List TransformInfo) :=
  if data.length < 8 then .ok []
  else if data.length < 12 then .ok []
  else do
    let (_, propLen) ← unpackBxH ((data.drop 4).take 4)
    let spiSize ← byteAt data 10
    let numTf ← byteAt data 11
    let propEnd := if 8 ≤ propLen then min (4 + propLen) data.length else data.length
    parseTransforms data propEnd numTf (4 + 8 + spiSize)

/-- The loop of `extract_sa_payload`; every round takes four bytes at least. -/
def extractLoop : Nat → UInt8 → Bytes → Except ReadError (Option Bytes)
  | 0, _, _ => .ok none
  | fuel + 1, nextPayload, rest =>
      if nextPayload ≠ payloadNone ∧ 4 ≤ rest.length then do
        let nxt := typeByte rest
        let plen ← unpackU16 ((rest.drop 2).take 2)
        if plen < 4 ∨ rest.length < plen then pure none
        else if nextPayload = payloadSa then pure (some (rest.take plen))
        else extractLoop fuel nxt (rest.drop plen)
      else .ok none

/-- `extract_sa_payload`. -/
def extractSaPayload (msg : Bytes) : Except ReadError (Option Bytes) :=
  if msg.length < 28 then .ok none
  else extractLoop msg.length (typeByte (msg.drop 16)) (msg.drop 28)

end Ike

end Probes
end PqcScan
