import PqcScan.Library.Dict
import PqcScan.Probes.ServerFlight
import Mathlib.Data.List.Sort

/-!
# QUIC Initial packets

`probes/_quic.py`: the keys of a client's Initial packet come from its
destination connection id, header protection is taken off with a block of
AES-ECB, the payload is opened, and its CRYPTO frames are put together.  Every
read that may raise is a fallible one.
-/

namespace PqcScan
namespace Probes

open Library Python

/-! ## Keys -/

/-- The ciphers of a packet: the hash functions and AES-GCM of
`Crypto`, and a block of AES. -/
structure QuicCrypto where
  crypto : Crypto
  block : Bytes → Bytes → Bytes

/-- `_V1`. -/
def v1 : Nat := 0x00000001

/-- `_V2`. -/
def v2 : Nat := 0x6B3343CF

/-- `_VERSIONS`. -/
def versions (version : Nat) : Option (Bytes × String) :=
  if version = v1 then
    some ([0x38, 0x76, 0x2c, 0xf7, 0xf5, 0x59, 0x34, 0xb3, 0x4d, 0x17, 0x9a,
      0xe6, 0xa4, 0xc8, 0x0c, 0xad, 0xcc, 0xbb, 0x7f, 0x0a], "quic")
  else if version = v2 then
    some ([0x0d, 0xed, 0xe3, 0xde, 0xf7, 0x00, 0xa6, 0xdb, 0x81, 0x93, 0x81,
      0xbe, 0x6e, 0x26, 0x9d, 0xcb, 0xf9, 0xbd, 0x2e, 0xd9], "quicv2")
  else none

/-- `_INITIAL_TYPE`. -/
def initialType (version : Nat) : UInt8 := if version = v1 then 0 else 1

/-- `_SAMPLE_LEN`. -/
def sampleLen : Nat := 16

/-- `_MAX_QUIC`. -/
def maxQuic : Nat := 2 ^ 16

/-- The keys of a client's Initial packets. -/
structure InitialKeys where
  key : Bytes
  iv : Bytes
  hp : Bytes

/-- `derive_initial_keys`. -/
def deriveInitialKeys (crypto : Crypto) (dcid : Bytes) (version : Nat) :
    Option InitialKeys :=
  match versions version with
  | none => none
  | some (salt, pfx) =>
      let initialSecret := hkdfExtract crypto salt dcid "sha256"
      let cis := hkdfExpandLabel crypto initialSecret "client in" [] 32 "sha256"
      some
        { key := hkdfExpandLabel crypto cis s!"{pfx} key" [] 16 "sha256"
          iv := hkdfExpandLabel crypto cis s!"{pfx} iv" [] 12 "sha256"
          hp := hkdfExpandLabel crypto cis s!"{pfx} hp" [] 16 "sha256" }

/-! ## Reads -/

/-- `bytes[i]` as a byte. -/
def readByte (bytes : Bytes) (i : Nat) : Except ReadError UInt8 :=
  match bytes[i]? with
  | some byte => .ok byte
  | none => .error (.indexError "index out of range")

/-- The loop of `_varint` over the bytes after the first. -/
def varintTail (buf : Bytes) (off : Nat) : List Nat → Nat → Except ReadError Nat
  | [], val => .ok val
  | i :: rest, val => do
      let byte ← readByte buf (off + i)
      varintTail buf off rest (val <<< 8 ||| byte.toNat)

/-- `_varint`. -/
def varint (buf : Bytes) (off : Nat) : Except ReadError (Option (Nat × Nat)) :=
  if buf.length ≤ off then .ok none
  else do
    let first ← readByte buf off
    let length := 1 <<< (first.toNat >>> 6)
    if buf.length < off + length then pure none
    else
      let val ← varintTail buf off (List.range' 1 (length - 1)) (first.toNat &&& 0x3F)
      pure (some (val, off + length))

/-- `_aes_ecb_block`: the cipher takes keys of its own sizes and whole blocks. -/
def aesEcbBlock (block : Bytes → Bytes → Bytes) (hpKey sample : Bytes) :
    Except ReadError Bytes :=
  if [16, 24, 32].contains hpKey.length then
    if sample.length % 16 = 0 then .ok (block hpKey sample)
    else .error (.valueError
      "The length of the provided data is not a multiple of the block length.")
  else .error (.valueError "Invalid key size for AES.")

/-! ## Frames -/

/-- The loop over the fields of an ACK frame. -/
def skipFields (frames : Bytes) : Nat → Nat → Except ReadError (Option Nat)
  | 0, off => .ok (some off)
  | count + 1, off => do
      match ← varint frames off with
      | none => pure none
      | some (_, off) => skipFields frames count off

/-- The loop of `_reassemble_crypto`; every round moves on, so the length of the
frames is fuel enough. -/
def readFrames (frames : Bytes) :
    Nat → Nat → Dict Nat Bytes → Except ReadError (Dict Nat Bytes)
  | 0, _, chunks => .ok chunks
  | fuel + 1, off, chunks =>
      if off < frames.length then do
        let ftype ← readByte frames off
        if ftype = 0x00 ∨ ftype = 0x01 then readFrames frames fuel (off + 1) chunks
        else if ftype = 0x02 ∨ ftype = 0x03 then
          match ← skipFields frames 4 (off + 1) with
          | none => pure chunks
          | some off => readFrames frames fuel off chunks
        else if ftype = 0x06 then
          match ← varint frames (off + 1) with
          | none => pure chunks
          | some (cOff, p) =>
              match ← varint frames p with
              | none => pure chunks
              | some (cLen, p) =>
                  readFrames frames fuel (p + cLen)
                    (chunks.set cOff ((frames.drop p).take cLen))
        else pure chunks
      else .ok chunks

/-- The loop of `_join`. -/
def joinLoop (chunks : Dict Nat Bytes) : List Nat → Bytes → Bytes
  | [], out => out
  | offset :: rest, out =>
      if offset ≠ out.length then out
      else joinLoop chunks rest (out ++ (chunks.get? offset).getD [])

/-- `_join`. -/
def joinChunks (chunks : Dict Nat Bytes) : Option Bytes :=
  if chunks.length = 0 then none
  else
    let out := joinLoop chunks (chunks.keys.insertionSort (· ≤ ·)) []
    if out = [] then none else some out

/-- `_reassemble_crypto`. -/
def reassembleCrypto (frames : Bytes) : Except ReadError (Option Bytes) := do
  let chunks ← readFrames frames frames.length 0 Dict.empty
  pure (joinChunks chunks)

/-! ## Packets -/

/-- What the long header of an Initial packet tells. -/
structure LongHeader where
  dcid : Bytes
  length : Nat
  pnOffset : Nat

/-- The guarded reads of `extract_client_hello`. -/
def readLongHeader (b : Bytes) : Except ReadError (Option LongHeader) := do
  let dcidLen ← readByte b 5
  let off := 5 + 1
  let dcid := (b.drop off).take dcidLen.toNat
  let off := off + dcidLen.toNat
  let scidLen ← readByte b off
  let off := off + (1 + scidLen.toNat)
  match ← varint b off with
  | none => pure none
  | some (tokenLen, off) =>
      match ← varint b (off + tokenLen) with
      | none => pure none
      | some (length, pnOffset) => pure (some ⟨dcid, length, pnOffset⟩)

/-- `bytes(left[i] ^ right[j + i] for i in range(count))`, with the left side read
from an offset. -/
def xorBytes (left : Bytes) (leftOff : Nat) (right : Bytes) (rightOff count : Nat) :
    Except ReadError Bytes :=
  (List.range count).mapM fun i => do
    let first ← readByte left (leftOff + i)
    let second ← readByte right (rightOff + i)
    pure (first ^^^ second)

/-- The part of `extract_client_hello` after the keys are derived. -/
def openInitial (quic : QuicCrypto) (keys : InitialKeys) (header : LongHeader)
    (b : Bytes) :
    Except ReadError (Option Bytes) :=
  let pnOffset := header.pnOffset
  let sample := (b.drop (pnOffset + 4)).take sampleLen
  if sample.length < sampleLen then .ok none
  else do
    let mask ← aesEcbBlock quic.block keys.hp sample
    let protectedFirst ← readByte b 0
    let firstMask ← readByte mask 0
    let first := protectedFirst ^^^ (firstMask &&& 0x0F)
    let pnLen := (first &&& 0x03).toNat + 1
    if b.length < pnOffset + pnLen then pure none
    else
      let pnBytes ← xorBytes b pnOffset mask 1 pnLen
      let pn := bigEndian pnBytes
      let aad := first :: ((b.take pnOffset).drop 1 ++ pnBytes)
      let ciphertext := (b.take (pnOffset + header.length)).drop (pnOffset + pnLen)
      if ciphertext.length < 16 then pure none
      else
        let nonce ← xorBytes keys.iv 0 (toBytes pn 12) 0 12
        match quic.crypto.decrypt false keys.key nonce ciphertext aad with
        | none => pure none
        | some plaintext => reassembleCrypto plaintext

/-- `extract_client_hello`. -/
def extractClientHello (quic : QuicCrypto) (b : Bytes) :
    Except ReadError (Option Bytes) :=
  if b = [] ∨ typeByte b &&& 0x80 = 0 ∨ maxQuic < b.length ∨ b.length < 7 then .ok none
  else
    let version := bigEndian ((b.drop 1).take 4)
    match versions version with
    | none => .ok none
    | some _ =>
        if (typeByte b &&& 0x30) >>> 4 ≠ initialType version then .ok none
        else do
          match ← catchIndex (readLongHeader b) with
          | none => pure none
          | some none => pure none
          | some (some header) =>
              match deriveInitialKeys quic.crypto header.dcid version with
              | none => pure none
              | some keys => openInitial quic keys header b

/-! ## Totality -/

/-- A block of AES is sixteen bytes. -/
def BlockSized (block : Bytes → Bytes → Bytes) : Prop :=
  ∀ key sample, (block key sample).length = sample.length

theorem readByte_of_lt {bytes : Bytes} {i : Nat} (within : i < bytes.length) :
    readByte bytes i = .ok bytes[i] := by
  rw [readByte, List.getElem?_eq_getElem within]

/-- The value of the bytes at the given positions after what is read so far. -/
theorem varintTail_returns {buf : Bytes} {off : Nat} {positions : List Nat}
    (within : ∀ i ∈ positions, off + i < buf.length) (val : Nat) :
    Returns (varintTail buf off positions val) := by
  induction positions generalizing val with
  | nil => exact ⟨val, rfl⟩
  | cons i rest inductionHypothesis =>
      rw [varintTail, readByte_of_lt (within i List.mem_cons_self)]
      exact inductionHypothesis (fun other member =>
        within other (List.mem_cons_of_mem _ member)) _

/-- A number is read, or there is none; what follows it lies behind. -/
theorem varint_returns (buf : Bytes) (off : Nat) :
    ∃ result, varint buf off = .ok result ∧
      ∀ val next, result = some (val, next) → off < next ∧ next ≤ buf.length := by
  unfold varint
  split
  · exact ⟨none, rfl, nofun⟩
  · next within =>
      have here : off < buf.length := by omega
      rw [readByte_of_lt here]
      simp only [bind, Except.bind]
      split
      · exact ⟨none, rfl, nofun⟩
      · next fits =>
          have positive : 0 < 1 <<< (buf[off].toNat >>> 6) := by
            rw [Nat.one_shiftLeft]
            exact Nat.two_pow_pos _
          have tail : ∀ i ∈ List.range' 1 (1 <<< (buf[off].toNat >>> 6) - 1),
              off + i < buf.length := by
            intro i member
            have bounds := List.mem_range'_1.mp member
            omega
          obtain ⟨val, read⟩ := varintTail_returns tail (buf[off].toNat &&& 0x3F)
          rw [read]
          refine ⟨_, rfl, ?_⟩
          rintro _ _ ⟨⟩
          omega

theorem skipFields_returns (frames : Bytes) (count off : Nat) :
    ∃ result, skipFields frames count off = .ok result ∧
      ∀ next, result = some next → off ≤ next := by
  induction count generalizing off with
  | zero => exact ⟨some off, rfl, by rintro _ ⟨⟩; exact le_refl _⟩
  | succ count inductionHypothesis =>
      obtain ⟨result, read, behind⟩ := varint_returns frames off
      rw [skipFields, read]
      cases result with
      | none => exact ⟨none, rfl, nofun⟩
      | some field =>
          obtain ⟨rest, skipped, after⟩ := inductionHypothesis field.2
          refine ⟨rest, skipped, fun next found => ?_⟩
          have here := (behind field.1 field.2 rfl).1
          have later := after next found
          omega

theorem readFrames_returns (frames : Bytes) (fuel off : Nat) (chunks : Dict Nat Bytes) :
    Returns (readFrames frames fuel off chunks) := by
  induction fuel generalizing off chunks with
  | zero => exact ⟨chunks, rfl⟩
  | succ fuel inductionHypothesis =>
      rw [readFrames]
      split
      · next within =>
          rw [readByte_of_lt within]
          simp only [bind, Except.bind]
          split
          · exact inductionHypothesis _ _
          · split
            · obtain ⟨result, skipped, _⟩ := skipFields_returns frames 4 (off + 1)
              rw [skipped]
              cases result with
              | none => exact ⟨_, rfl⟩
              | some next => exact inductionHypothesis _ _
            · split
              · obtain ⟨result, read, _⟩ := varint_returns frames (off + 1)
                rw [read]
                cases result with
                | none => exact ⟨_, rfl⟩
                | some offset =>
                    obtain ⟨result, read, _⟩ := varint_returns frames offset.2
                    dsimp only
                    rw [read]
                    cases result with
                    | none => exact ⟨_, rfl⟩
                    | some length => exact inductionHypothesis _ _
              · exact ⟨_, rfl⟩
      · exact ⟨chunks, rfl⟩

/-- The loop over the frames ends before its fuel does. -/
theorem readFrames_fuel {frames : Bytes} {fuel off : Nat} (chunks : Dict Nat Bytes)
    (enough : frames.length ≤ off + fuel) :
    readFrames frames (fuel + 1) off chunks = readFrames frames fuel off chunks := by
  induction fuel generalizing off chunks with
  | zero =>
      conv_lhs => rw [readFrames]
      rw [if_neg (by omega)]
      rfl
  | succ fuel inductionHypothesis =>
      conv_lhs => rw [readFrames]
      conv_rhs => rw [readFrames]
      by_cases within : off < frames.length
      · rw [if_pos within, if_pos within, readByte_of_lt within]
        simp only [bind, Except.bind]
        by_cases skips : frames[off] = 0x00 ∨ frames[off] = 0x01
        · rw [if_pos skips, if_pos skips]
          exact inductionHypothesis chunks (by omega)
        rw [if_neg skips, if_neg skips]
        by_cases acks : frames[off] = 0x02 ∨ frames[off] = 0x03
        · rw [if_pos acks, if_pos acks]
          obtain ⟨result, skipped, behind⟩ := skipFields_returns frames 4 (off + 1)
          rw [skipped]
          cases result with
          | none => rfl
          | some next =>
              have later := behind next rfl
              exact inductionHypothesis chunks (by omega)
        rw [if_neg acks, if_neg acks]
        by_cases carries : frames[off] = 0x06
        · rw [if_pos carries, if_pos carries]
          obtain ⟨result, read, behind⟩ := varint_returns frames (off + 1)
          rw [read]
          cases result with
          | none => rfl
          | some offset =>
              have afterOffset := (behind offset.1 offset.2 rfl).1
              obtain ⟨result, read, behind⟩ := varint_returns frames offset.2
              dsimp only
              rw [read]
              cases result with
              | none => rfl
              | some length =>
                  have afterLength := (behind length.1 length.2 rfl).1
                  exact inductionHypothesis _ (by omega)
        · rw [if_neg carries, if_neg carries]
      · rw [if_neg within, if_neg within]

theorem reassembleCrypto_returns (frames : Bytes) :
    Returns (reassembleCrypto frames) := by
  obtain ⟨chunks, read⟩ := readFrames_returns frames frames.length 0 Dict.empty
  exact ⟨joinChunks chunks, by rw [reassembleCrypto, read]; rfl⟩

/-- The guarded reads raise nothing but what the guard catches. -/
theorem readLongHeader_returns (b : Bytes) : Returns (catchIndex (readLongHeader b)) := by
  have reads : ∀ i, (∃ byte, readByte b i = .ok byte) ∨
      ∃ message, readByte b i = .error (.indexError message) := by
    intro i
    unfold readByte
    cases b[i]? with
    | some byte => exact Or.inl ⟨byte, rfl⟩
    | none => exact Or.inr ⟨_, rfl⟩
  unfold readLongHeader
  rcases reads 5 with ⟨dcidLen, read⟩ | ⟨message, read⟩
  · rw [read]
    simp only [bind, Except.bind]
    rcases reads (5 + 1 + dcidLen.toNat) with ⟨scidLen, read⟩ | ⟨message, read⟩
    · rw [read]
      dsimp only
      obtain ⟨result, read, _⟩ :=
        varint_returns b (5 + 1 + dcidLen.toNat + (1 + scidLen.toNat))
      rw [read]
      cases result with
      | none => exact ⟨_, rfl⟩
      | some token =>
          obtain ⟨result, read, _⟩ := varint_returns b (token.2 + token.1)
          dsimp only
          rw [read]
          cases result with
          | none => exact ⟨_, rfl⟩
          | some length => exact ⟨_, rfl⟩
    · rw [read]
      exact ⟨_, rfl⟩
  · rw [read]
    exact ⟨_, rfl⟩

theorem xorBytes_eq {left right : Bytes} {leftOff rightOff count : Nat}
    (leftLong : leftOff + count ≤ left.length)
    (rightLong : rightOff + count ≤ right.length) :
    xorBytes left leftOff right rightOff count =
      .ok (((left.drop leftOff).take count).zipWith (· ^^^ ·)
        ((right.drop rightOff).take count)) := by
  have values : ∀ i ∈ List.range count, (do
      let first ← readByte left (leftOff + i)
      let second ← readByte right (rightOff + i)
      pure (first ^^^ second)) =
        Except.ok (left[leftOff + i]?.getD 0 ^^^ right[rightOff + i]?.getD 0) := by
    intro i member
    have below := List.mem_range.mp member
    have leftWithin : leftOff + i < left.length := by omega
    have rightWithin : rightOff + i < right.length := by omega
    rw [readByte_of_lt leftWithin, readByte_of_lt rightWithin,
      List.getElem?_eq_getElem leftWithin, List.getElem?_eq_getElem rightWithin]
    rfl
  rw [xorBytes, mapM_ok values]
  congr 1
  apply List.ext_getElem
  · simp only [List.length_map, List.length_range, List.length_zipWith, List.length_take,
      List.length_drop]
    omega
  · intro i leftBound _
    rw [List.length_map, List.length_range] at leftBound
    have leftWithin : leftOff + i < left.length := by omega
    have rightWithin : rightOff + i < right.length := by omega
    simp [leftWithin, rightWithin]

/-- Keys of the sizes the ciphers need. -/
structure InitialKeys.Sized (keys : InitialKeys) : Prop where
  iv : keys.iv.length = 12
  hp : keys.hp.length = 16

theorem deriveInitialKeys_sized {crypto : Crypto} (hashes : Hashes crypto) {dcid : Bytes}
    {version : Nat} {keys : InitialKeys}
    (derived : deriveInitialKeys crypto dcid version = some keys) : keys.Sized := by
  unfold deriveInitialKeys at derived
  split at derived
  · cases derived
  · cases derived
    exact ⟨length_hkdfExpand hashes _ _ _ _, length_hkdfExpand hashes _ _ _ _⟩

/-- The mask of a whole sample. -/
theorem aesEcbBlock_of_sized {block : Bytes → Bytes → Bytes} {key sample : Bytes}
    (keyLength : key.length = 16) (sampleLength : sample.length = 16) :
    aesEcbBlock block key sample = .ok (block key sample) := by
  rw [aesEcbBlock, keyLength, sampleLength, if_pos (by decide), if_pos (by decide)]

theorem length_toBytes (seq size : Nat) : (toBytes seq size).length = size := by
  rw [toBytes, List.length_map, List.length_range]

theorem openInitial_returns {quic : QuicCrypto} (sized : BlockSized quic.block)
    {keys : InitialKeys} (keysSized : keys.Sized) (header : LongHeader) (b : Bytes) :
    Returns (openInitial quic keys header b) := by
  unfold openInitial
  dsimp only
  split
  · exact ⟨none, rfl⟩
  · next whole =>
      have length : ((b.drop (header.pnOffset + 4)).take sampleLen).length = 16 := by
        have bounded := List.length_take_le sampleLen (b.drop (header.pnOffset + 4))
        unfold sampleLen at whole bounded ⊢
        omega
      have long : header.pnOffset + 20 ≤ b.length := by
        rw [List.length_take, List.length_drop, sampleLen] at length
        omega
      have mask := (sized keys.hp ((b.drop (header.pnOffset + 4)).take sampleLen)).trans
        length
      rw [aesEcbBlock_of_sized keysSized.hp length]
      simp only [bind, Except.bind]
      have first : 0 < b.length := by omega
      have masked :
          0 < (quic.block keys.hp
            ((b.drop (header.pnOffset + 4)).take sampleLen)).length := by
        omega
      rw [readByte_of_lt first, readByte_of_lt masked]
      dsimp only
      split
      · exact ⟨none, rfl⟩
      · have few : ∀ first : UInt8, (first &&& 0x03).toNat < 4 := by
          intro first
          rw [UInt8.toNat_and]
          exact Nat.lt_succ_of_le Nat.and_le_right
        have bound := few (b[0] ^^^
          ((quic.block keys.hp ((b.drop (header.pnOffset + 4)).take sampleLen))[0] &&&
            0x0F))
        rw [xorBytes_eq (by omega) (by omega)]
        dsimp only
        split
        · exact ⟨none, rfl⟩
        · rw [xorBytes_eq (by rw [keysSized.iv]) (by rw [length_toBytes])]
          dsimp only
          split
          · exact ⟨none, rfl⟩
          · exact reassembleCrypto_returns _

/-- Every byte string gives bytes or nothing. -/
theorem extractClientHello_returns {quic : QuicCrypto} (hashes : Hashes quic.crypto)
    (sized : BlockSized quic.block) (b : Bytes) :
    Returns (extractClientHello quic b) := by
  unfold extractClientHello
  split
  · exact ⟨none, rfl⟩
  · dsimp only
    split
    · exact ⟨none, rfl⟩
    · split
      · exact ⟨none, rfl⟩
      · obtain ⟨result, read⟩ := readLongHeader_returns b
        rw [read]
        simp only [bind, Except.bind]
        split
        · exact ⟨none, rfl⟩
        · exact ⟨none, rfl⟩
        · split
          · exact ⟨none, rfl⟩
          · next derived =>
              exact openInitial_returns sized (deriveInitialKeys_sized hashes derived) _ b

end Probes
end PqcScan
