import PqcScan.Probes.Quic

/-!
# Protected Initial packets

A client's Initial packet as its sender protects it.  `extract_client_hello` takes
the protection off again and sees the frames the sender put in, whatever follows
the packet in its datagram.
-/

namespace PqcScan
namespace Probes

open Library Python

/-! ## Variable-length integers -/

/-- A number in `2 ^ width` bytes whose two highest bits tell the width. -/
def encodeVarint (width val : Nat) : Bytes :=
  toBytes (width * 2 ^ (8 * 2 ^ width - 2) + val) (2 ^ width)

/-- The number fits the width. -/
def VarintFits (width val : Nat) : Prop := width < 4 ∧ val < 2 ^ (8 * 2 ^ width - 2)

theorem length_encodeVarint (width val : Nat) :
    (encodeVarint width val).length = 2 ^ width :=
  length_toBytes _ _

theorem readByte_append {front : Bytes} {off : Nat} (place : front.length = off)
    (byte : UInt8)
    (rest : Bytes) : readByte (front ++ byte :: rest) off = .ok byte := by
  rw [readByte, List.getElem?_append_right (by omega), place, Nat.sub_self]
  rfl

theorem readByte_middle {front middle rest : Bytes} {off i : Nat}
    (place : front.length = off)
    (within : i < middle.length) :
    readByte (front ++ (middle ++ rest)) (off + i) = .ok middle[i] := by
  rw [readByte, List.getElem?_append_right (by omega), place, Nat.add_sub_cancel_left,
    List.getElem?_append_left within, List.getElem?_eq_getElem within]

theorem shift_or {val : Nat} (byte : UInt8) :
    val <<< 8 ||| byte.toNat = val * 256 + byte.toNat := by
  rw [Nat.shiftLeft_eq, Nat.mul_comm]
  exact (Nat.two_pow_add_eq_or_of_lt byte.toNat_lt val).symm

/-- The loop reads the bytes after the first. -/
theorem varintTail_append {front middle rest : Bytes} {off : Nat}
    (place : front.length = off)
    {start count : Nat} (within : start + count ≤ middle.length) (val : Nat) :
    varintTail (front ++ (middle ++ rest)) off (List.range' start count) val =
      .ok (((middle.drop start).take count).foldl
        (fun val byte => val * 256 + byte.toNat) val) := by
  induction count generalizing start val with
  | zero => simp [varintTail]
  | succ count inductionHypothesis =>
      have here : start < middle.length := by omega
      rw [List.range'_succ, varintTail, readByte_middle place here]
      simp only [bind, Except.bind, shift_or]
      rw [inductionHypothesis (by omega), List.drop_eq_getElem_cons here,
        List.take_succ_cons, List.foldl_cons]

/-- The highest bits of the first byte are the width, the others start the number. -/
theorem encodeVarint_value {width val : Nat} (fits : VarintFits width val) :
    ∃ first rest, encodeVarint width val = first :: rest ∧ first.toNat >>> 6 = width ∧
      rest.foldl (fun val byte => val * 256 + byte.toNat)
      (first.toNat &&& 0x3F) = val := by
  obtain ⟨narrow, small⟩ := fits
  have low : ∀ byte : UInt8, byte.toNat &&& 0x3F = byte.toNat % 64 := fun byte =>
    Nat.and_two_pow_sub_one_eq_mod byte.toNat 6
  have high : ∀ byte : UInt8, byte.toNat >>> 6 = byte.toNat / 64 := fun byte =>
    Nat.shiftRight_eq_div_pow byte.toNat 6
  have cases : width = 0 ∨ width = 1 ∨ width = 2 ∨ width = 3 := by omega
  rcases cases with rfl | rfl | rfl | rfl
  all_goals
    refine ⟨_, _, rfl, ?_, ?_⟩
    · rw [high, UInt8.toNat_ofNat']
      simp at small ⊢
      omega
    · rw [low]
      simp at small ⊢
      omega

/-- A number is read back where it was written. -/
theorem varint_encode {front rest : Bytes} {off : Nat} (place : front.length = off)
    {width val : Nat} (fits : VarintFits width val) :
    varint (front ++ (encodeVarint width val ++ rest)) off =
      .ok (some (val, off + 2 ^ width)) := by
  obtain ⟨first, later, encoded, prefixed, value⟩ := encodeVarint_value fits
  have whole := length_encodeVarint width val
  have within : 1 + (2 ^ width - 1) ≤ (encodeVarint width val).length := by
    have positive := Nat.two_pow_pos width
    rw [whole]
    omega
  have tail := @varintTail_append front _ rest off place _ _ within (first.toNat &&& 0x3F)
  rw [encoded, List.length_cons] at whole
  rw [encoded, List.drop_one, List.tail_cons, List.take_of_length_le (by omega),
    value] at tail
  rw [encoded, varint,
    if_neg (by simp only [List.length_append, List.length_cons]; omega), List.cons_append,
    readByte_append place]
  simp only [bind, Except.bind, prefixed, Nat.one_shiftLeft]
  rw [if_neg (by simp only [List.length_append, List.length_cons]; omega),
    ← List.cons_append, tail]
  rfl

/-! ## Masks -/

/-- A mask that shares no bit with the ones that are looked at. -/
theorem masked_and {byte mask low bits : UInt8} (apart : low &&& bits = 0) :
    (byte ^^^ (mask &&& low)) &&& bits = byte &&& bits := by
  apply UInt8.toNat_inj.mp
  have none : low.toNat &&& bits.toNat = 0 := by
    rw [← UInt8.toNat_and, apart]
    rfl
  simp only [UInt8.toNat_and, UInt8.toNat_xor]
  rw [Nat.and_xor_distrib_right, Nat.and_assoc mask.toNat, none, Nat.and_zero,
    Nat.xor_zero]

theorem xor_xor (byte mask : UInt8) : byte ^^^ mask ^^^ mask = byte := by
  rw [UInt8.xor_assoc, UInt8.xor_self, UInt8.xor_zero]

/-- Masking twice changes nothing. -/
theorem zipWith_xor_xor {bytes mask : Bytes} (covers : bytes.length ≤ mask.length) :
    (bytes.zipWith (· ^^^ ·) mask).zipWith (· ^^^ ·) mask = bytes := by
  induction bytes generalizing mask with
  | nil => rfl
  | cons byte rest inductionHypothesis =>
      cases mask with
      | nil => cases covers
      | cons first mask =>
          rw [List.zipWith_cons_cons, List.zipWith_cons_cons, xor_xor,
            inductionHypothesis (Nat.le_of_succ_le_succ covers)]

theorem toBytes_succ (val size : Nat) :
    toBytes val (size + 1) = UInt8.ofNat (val / 256 ^ size) :: toBytes val size := by
  rw [toBytes, List.range_succ_eq_map, List.map_cons, List.map_map, toBytes]
  congr 1
  apply List.map_congr_left
  intro i _
  rw [Function.comp_apply, Nat.succ_eq_add_one,
    show size + 1 - 1 - (i + 1) = size - 1 - i by omega]

theorem foldl_toBytes (val size start : Nat) :
    (toBytes val size).foldl (fun value byte => value * 256 + byte.toNat) start =
      start * 256 ^ size + val % 256 ^ size := by
  induction size generalizing start with
  | zero => simp [toBytes, Nat.mod_one]
  | succ size inductionHypothesis =>
      have digit : val % (256 ^ size * 256) =
          val % 256 ^ size + 256 ^ size * (val / 256 ^ size % 256) := Nat.mod_mul
      have power : 256 ^ (size + 1) = 256 ^ size * 256 := Nat.pow_succ 256 size
      rw [toBytes_succ, List.foldl_cons, inductionHypothesis, UInt8.toNat_ofNat',
        power, digit]
      ring

theorem bigEndian_toBytes {val size : Nat} (small : val < 256 ^ size) :
    bigEndian (toBytes val size) = val := by
  rw [bigEndian, foldl_toBytes, Nat.zero_mul, Nat.zero_add, Nat.mod_eq_of_lt small]

/-! ## Packets -/

/-- The ciphers of QUIC: AES-GCM seals, AES keeps the size of a block. -/
structure Protects (quic : QuicCrypto)
    (encrypt : Bool → Bytes → Bytes → Bytes → Bytes → Bytes) :
    Prop where
  seals : Seals quic.crypto encrypt
  hashes : Hashes quic.crypto
  sized : BlockSized quic.block

/-- What the client puts into an Initial packet. -/
structure InitialPacket where
  version : Nat
  /-- The first byte before protection. -/
  first : UInt8
  dcid : Bytes
  scid : Bytes
  token : Bytes
  tokenWidth : Nat
  lengthWidth : Nat
  pnLen : Nat
  pn : Nat
  payload : Bytes
  supported : version = v1 ∨ version = v2
  long_header : first &&& 0x80 = 0x80
  initial : (first &&& 0x30) >>> 4 = initialType version
  number_length : (first &&& 0x03).toNat + 1 = pnLen
  dcid_small : dcid.length < 256
  scid_small : scid.length < 256
  token_fits : VarintFits tokenWidth token.length
  length_fits : VarintFits lengthWidth (pnLen + payload.length + 16)
  number_fits : pn < 256 ^ pnLen
  /-- Long enough for the sample of header protection. -/
  sampled : 4 ≤ pnLen + payload.length

namespace InitialPacket

variable (packet : InitialPacket) (quic : QuicCrypto)
  (encrypt : Bool → Bytes → Bytes → Bytes → Bytes → Bytes)

/-- The header from the version to the length. -/
def middle : Bytes :=
  toBytes packet.version 4 ++ UInt8.ofNat packet.dcid.length :: (packet.dcid ++
    UInt8.ofNat packet.scid.length :: (packet.scid ++
      (encodeVarint packet.tokenWidth packet.token.length ++ (packet.token ++
        encodeVarint packet.lengthWidth (packet.pnLen + packet.payload.length + 16)))))

/-- The packet number as it is before protection. -/
def number : Bytes := toBytes packet.pn packet.pnLen

/-- The unprotected header, which the payload's cipher authenticates. -/
def header : Bytes := packet.first :: (packet.middle ++ packet.number)

/-- The sealed payload. -/
def sealedPayload (keys : InitialKeys) : Bytes :=
  encrypt false keys.key (serverNonce keys.iv packet.pn) packet.payload packet.header

/-- The mask of header protection: a block over the sample that starts four bytes
after the packet number does. -/
def mask (keys : InitialKeys) : Bytes :=
  quic.block keys.hp
    (((packet.number ++ packet.sealedPayload encrypt keys).drop 4).take 16)

/-- The protected packet number. -/
def maskedNumber (keys : InitialKeys) : Bytes :=
  packet.number.zipWith (· ^^^ ·)
    (((packet.mask quic encrypt keys).drop 1).take packet.pnLen)

/-- The protected first byte: its low four bits are masked. -/
def maskedFirst (keys : InitialKeys) : UInt8 :=
  packet.first ^^^ (typeByte (packet.mask quic encrypt keys) &&& 0x0F)

/-- The protected packet. -/
def bytes (keys : InitialKeys) : Bytes :=
  packet.maskedFirst quic encrypt keys ::
    (packet.middle ++
      (packet.maskedNumber quic encrypt keys ++ packet.sealedPayload encrypt keys))

theorem pnLen_small : packet.pnLen ≤ 4 := by
  have few : (packet.first &&& 0x03).toNat ≤ 3 := by
    rw [UInt8.toNat_and]
    exact Nat.and_le_right
  have same := packet.number_length
  omega

theorem length_number : packet.number.length = packet.pnLen := length_toBytes _ _

/-- The keys both sides derive. -/
theorem exists_keys :
    ∃ keys, deriveInitialKeys quic.crypto packet.dcid packet.version = some keys := by
  rcases packet.supported with version | version
  · exact ⟨_, by rw [deriveInitialKeys, version, versions, if_pos rfl]⟩
  · exact ⟨_, by rw [deriveInitialKeys, version, versions, if_neg (by decide), if_pos rfl]⟩

variable {quic encrypt} (keys : InitialKeys)

theorem length_sealedPayload (protects : Protects quic encrypt) :
    (packet.sealedPayload encrypt keys).length = packet.payload.length + 16 :=
  protects.seals.length _ _ _ _ _

theorem length_sample (protects : Protects quic encrypt) :
    (((packet.number ++ packet.sealedPayload encrypt keys).drop 4).take 16).length =
      16 := by
  have sampled := packet.sampled
  rw [List.length_take, List.length_drop, List.length_append, length_number,
    packet.length_sealedPayload keys protects]
  omega

theorem length_mask (protects : Protects quic encrypt) :
    (packet.mask quic encrypt keys).length = 16 :=
  (protects.sized _ _).trans (packet.length_sample keys protects)

theorem length_maskedNumber (protects : Protects quic encrypt) :
    (packet.maskedNumber quic encrypt keys).length = packet.pnLen := by
  have small := packet.pnLen_small
  rw [maskedNumber, List.length_zipWith, length_number, List.length_take,
    List.length_drop, packet.length_mask keys protects]
  omega

theorem length_middle :
    packet.middle.length = 6 + packet.dcid.length + packet.scid.length +
      2 ^ packet.tokenWidth + packet.token.length + 2 ^ packet.lengthWidth := by
  simp only [middle, List.length_append, List.length_cons, length_toBytes,
    length_encodeVarint]
  omega

/-- The packet in its datagram. -/
theorem bytes_append (trailing : Bytes) :
    packet.bytes quic encrypt keys ++ trailing =
      (packet.maskedFirst quic encrypt keys :: packet.middle) ++
        (packet.maskedNumber quic encrypt keys ++
          (packet.sealedPayload encrypt keys ++ trailing)) := by
  simp [bytes, List.append_assoc]

/-- The long header is read as it was written. -/
theorem readLongHeader_bytes (first : UInt8) (later : Bytes) :
    readLongHeader ((first :: packet.middle) ++ later) =
      .ok (some ⟨packet.dcid, packet.pnLen + packet.payload.length + 16,
        1 + packet.middle.length⟩) := by
  have dcidLength : (UInt8.ofNat packet.dcid.length).toNat = packet.dcid.length := by
    rw [UInt8.toNat_ofNat', Nat.mod_eq_of_lt packet.dcid_small]
  have scidLength : (UInt8.ofNat packet.scid.length).toNat = packet.scid.length := by
    rw [UInt8.toNat_ofNat', Nat.mod_eq_of_lt packet.scid_small]
  have tokenOff : (first ::
      (toBytes packet.version 4 ++ (UInt8.ofNat packet.dcid.length ::
      (packet.dcid ++ UInt8.ofNat packet.scid.length :: packet.scid)))).length =
        5 + 1 + packet.dcid.length + (1 + packet.scid.length) := by
    simp only [List.length_append, List.length_cons, length_toBytes]
    omega
  have atDcid : readByte ((first :: packet.middle) ++ later) 5 =
      .ok (UInt8.ofNat packet.dcid.length) := by
    have place : (first :: toBytes packet.version 4).length = 5 := by
      rw [List.length_cons, length_toBytes]
    have read := readByte_append place (UInt8.ofNat packet.dcid.length)
    simpa [middle, List.append_assoc] using read _
  have dcid : (((first :: packet.middle) ++ later).drop (5 + 1)).take packet.dcid.length =
      packet.dcid := by
    have front : (first ::
        (toBytes packet.version 4 ++ [UInt8.ofNat packet.dcid.length])).length =
        5 + 1 := by
      simp [length_toBytes]
    have split : (first :: packet.middle) ++ later =
        (first :: (toBytes packet.version 4 ++
        [UInt8.ofNat packet.dcid.length])) ++
          (packet.dcid ++ (UInt8.ofNat packet.scid.length ::
          (packet.scid ++ (encodeVarint packet.tokenWidth packet.token.length ++
            (packet.token ++
            encodeVarint packet.lengthWidth
              (packet.pnLen + packet.payload.length + 16)))) ++
              later)) := by
      simp [middle, List.append_assoc]
    rw [split, List.drop_left' front, List.take_left' rfl]
  have atScid : readByte ((first :: packet.middle) ++ later)
      (5 + 1 + packet.dcid.length) =
      .ok (UInt8.ofNat packet.scid.length) := by
    have place : (first :: (toBytes packet.version 4 ++ UInt8.ofNat packet.dcid.length ::
        packet.dcid)).length = 5 + 1 + packet.dcid.length := by
      simp only [List.length_append, List.length_cons, length_toBytes]
      omega
    have read := readByte_append place (UInt8.ofNat packet.scid.length)
    simpa [middle, List.append_assoc] using read _
  have lengthOff : (first ::
      (toBytes packet.version 4 ++ (UInt8.ofNat packet.dcid.length ::
      (packet.dcid ++ UInt8.ofNat packet.scid.length :: (packet.scid ++
        (encodeVarint packet.tokenWidth packet.token.length ++ packet.token)))))).length =
          5 + 1 + packet.dcid.length + (1 + packet.scid.length) + 2 ^ packet.tokenWidth +
            packet.token.length := by
    simp only [List.length_append, List.length_cons, length_toBytes, length_encodeVarint]
    omega
  have token := @varint_encode _ (packet.token ++ (encodeVarint packet.lengthWidth
    (packet.pnLen + packet.payload.length + 16) ++ later)) _ tokenOff
      _ _ packet.token_fits
  have length := @varint_encode _ later _ lengthOff _ _ packet.length_fits
  simp only [List.cons_append, List.append_assoc] at token length
  have offset : 5 + 1 + packet.dcid.length + (1 + packet.scid.length) +
      2 ^ packet.tokenWidth +
      packet.token.length + 2 ^ packet.lengthWidth = 1 + packet.middle.length := by
    rw [length_middle]
    omega
  unfold readLongHeader
  simp only [bind, Except.bind, atDcid, atScid, dcidLength, scidLength, dcid]
  simp only [middle, List.cons_append, List.append_assoc, token, length, offset]
  rfl

theorem length_bytes_append (protects : Protects quic encrypt) (trailing : Bytes) :
    (packet.bytes quic encrypt keys ++ trailing).length =
      1 + packet.middle.length + packet.pnLen + (packet.payload.length + 16) +
        trailing.length := by
  rw [bytes_append, List.length_append, List.length_append, List.length_append,
    List.length_cons, packet.length_maskedNumber keys protects,
    packet.length_sealedPayload keys protects]
  omega

/-- The sample lies within the sealed payload. -/
theorem sample_bytes (protects : Protects quic encrypt) (trailing : Bytes) :
    ((packet.bytes quic encrypt keys ++ trailing).drop
      (1 + packet.middle.length + 4)).take 16 =
      ((packet.number ++ packet.sealedPayload encrypt keys).drop 4).take 16 := by
  have small := packet.pnLen_small
  have sampled := packet.sampled
  have masked := packet.length_maskedNumber keys protects
  have sealedLength := packet.length_sealedPayload keys protects
  have front : (packet.maskedFirst quic encrypt keys :: packet.middle).length =
      1 + packet.middle.length := by
    rw [List.length_cons, Nat.add_comm]
  have skip : ∀ {number : Bytes} (rest : Bytes), number.length = packet.pnLen →
      (number ++ rest).drop 4 = rest.drop (4 - packet.pnLen) := by
    intro number rest length
    rw [List.drop_append, List.drop_eq_nil_of_le (by omega), List.nil_append, length]
  rw [bytes_append, ← List.drop_drop, List.drop_left' front, skip _ masked,
    skip _ packet.length_number, List.drop_append_of_le_length (by omega),
    List.take_append_of_le_length]
  rw [List.length_drop]
  omega

theorem reassembled {opened : Option Bytes} {payload : Bytes} :
    opened = some payload →
      (match opened with
        | none => pure none
        | some plaintext => reassembleCrypto plaintext) = reassembleCrypto payload := by
  rintro rfl
  rfl

/-- Taking the protection off gives the payload back. -/
theorem openInitial_bytes (protects : Protects quic encrypt) (sized : keys.Sized)
    (trailing : Bytes) :
    openInitial quic keys ⟨packet.dcid, packet.pnLen + packet.payload.length + 16,
        1 + packet.middle.length⟩ (packet.bytes quic encrypt keys ++ trailing) =
      reassembleCrypto packet.payload := by
  have small := packet.pnLen_small
  have maskLength := packet.length_mask keys protects
  have masked := packet.length_maskedNumber keys protects
  have sealedLength := packet.length_sealedPayload keys protects
  have front : (packet.maskedFirst quic encrypt keys :: packet.middle).length =
      1 + packet.middle.length := by
    rw [List.length_cons, Nat.add_comm]
  have sample := packet.sample_bytes keys protects trailing
  have first : readByte (packet.bytes quic encrypt keys ++ trailing) 0 =
      .ok (packet.maskedFirst quic encrypt keys) := rfl
  have mask0 : readByte (packet.mask quic encrypt keys) 0 =
      .ok (typeByte (packet.mask quic encrypt keys)) := by
    cases whole : packet.mask quic encrypt keys with
    | nil =>
        rw [whole] at maskLength
        cases maskLength
    | cons byte rest => rfl
  have unmasked : packet.maskedFirst quic encrypt keys ^^^
      (typeByte (packet.mask quic encrypt keys) &&& 0x0F) = packet.first :=
    xor_xor _ _
  have long := packet.length_bytes_append keys protects trailing
  have number : xorBytes (packet.bytes quic encrypt keys ++ trailing)
      (1 + packet.middle.length)
      (packet.mask quic encrypt keys) 1 packet.pnLen = .ok packet.number := by
    rw [xorBytes_eq (by omega) (by omega), bytes_append, List.drop_left' front,
      List.take_left' masked, InitialPacket.maskedNumber, zipWith_xor_xor]
    rw [length_number, List.length_take, List.length_drop, maskLength]
    omega
  have aad : ((packet.bytes quic encrypt keys ++ trailing).take
      (1 + packet.middle.length)).drop 1 =
      packet.middle := by
    rw [bytes_append, List.take_left' front]
    rfl
  have ciphertext : ((packet.bytes quic encrypt keys ++ trailing).take
      (1 + packet.middle.length + (packet.pnLen + packet.payload.length + 16))).drop
        (1 + packet.middle.length + packet.pnLen) =
          packet.sealedPayload encrypt keys := by
    have lengths : 1 + packet.middle.length +
        (packet.pnLen + packet.payload.length + 16) -
        (1 + packet.middle.length + packet.pnLen) = packet.payload.length + 16 := by
      omega
    rw [List.drop_take, lengths, bytes_append, ← List.drop_drop, List.drop_left' front,
      List.drop_left' masked, List.take_left' sealedLength]
  have nonce : xorBytes keys.iv 0 (toBytes packet.pn 12) 0 12 =
      .ok (serverNonce keys.iv packet.pn) := by
    have bounded : packet.pn < 2 ^ 64 := by
      have grows : 256 ^ packet.pnLen ≤ 256 ^ 4 := Nat.pow_le_pow_right (by decide) small
      have fits := packet.number_fits
      omega
    rw [← recordNonce_eq (by rw [sized.iv]; decide) bounded, recordNonce, sized.iv,
      xorBytes_eq (by rw [sized.iv]) (by rw [length_toBytes]), List.drop_zero,
      List.drop_zero, List.take_of_length_le (by rw [sized.iv]),
      List.take_of_length_le (by rw [length_toBytes])]
  unfold openInitial
  dsimp only
  rw [sampleLen, sample, if_neg (by rw [packet.length_sample keys protects]; decide),
    aesEcbBlock_of_sized sized.hp (packet.length_sample keys protects)]
  have mask : quic.block keys.hp (((packet.number ++
      packet.sealedPayload encrypt keys).drop 4).take 16) =
        packet.mask quic encrypt keys := rfl
  have opened : quic.crypto.decrypt false keys.key (serverNonce keys.iv packet.pn)
      (packet.sealedPayload encrypt keys)
        (packet.first :: (packet.middle ++ packet.number)) =
        some packet.payload :=
    protects.seals.opens _ _ _ _ _
  simp only [bind, Except.bind, mask, first, mask0, unmasked, packet.number_length]
  rw [if_neg (by omega), number]
  dsimp only
  rw [ciphertext, if_neg (by omega), InitialPacket.number,
    bigEndian_toBytes packet.number_fits, nonce]
  dsimp only
  rw [aad]
  exact reassembled opened

end InitialPacket

/-- A protected Initial packet is decoded to the CRYPTO stream of its payload in every
datagram that is not too long, and every byte string gives bytes or nothing. -/
theorem extractClientHello_exact {quic : QuicCrypto}
    {encrypt : Bool → Bytes → Bytes → Bytes → Bytes → Bytes}
    (protects : Protects quic encrypt) :
    (∀ packet : InitialPacket, ∃ keys,
      deriveInitialKeys quic.crypto packet.dcid packet.version = some keys ∧
      ∀ trailing, (packet.bytes quic encrypt keys ++ trailing).length ≤ maxQuic →
        extractClientHello quic (packet.bytes quic encrypt keys ++ trailing) =
          reassembleCrypto packet.payload) ∧
      ∀ b, Returns (extractClientHello quic b) := by
  refine ⟨fun packet => ?_, extractClientHello_returns protects.hashes protects.sized⟩
  obtain ⟨keys, derived⟩ := packet.exists_keys quic
  refine ⟨keys, derived, fun trailing short => ?_⟩
  have version : bigEndian
      (((packet.bytes quic encrypt keys ++ trailing).drop 1).take 4) =
      packet.version := by
    have field : ((packet.bytes quic encrypt keys ++ trailing).drop 1).take 4 =
        toBytes packet.version 4 := by
      rw [InitialPacket.bytes_append, List.cons_append, List.drop_one, List.tail_cons,
        InitialPacket.middle, List.append_assoc, List.take_left' (length_toBytes _ _)]
    rw [field]
    apply bigEndian_toBytes
    rcases packet.supported with same | same <;> rw [same] <;> decide
  have long : 7 ≤ (packet.bytes quic encrypt keys ++ trailing).length := by
    have tokenWidth : 0 < 2 ^ packet.tokenWidth := Nat.two_pow_pos _
    have lengthWidth : 0 < 2 ^ packet.lengthWidth := Nat.two_pow_pos _
    rw [InitialPacket.bytes_append, List.length_append, List.length_cons,
      InitialPacket.length_middle]
    omega
  have header : packet.maskedFirst quic encrypt keys &&& 0x80 = 0x80 :=
    (masked_and (by decide)).trans packet.long_header
  have type : (packet.maskedFirst quic encrypt keys &&& 0x30) >>> 4 =
      initialType packet.version := by
    rw [InitialPacket.maskedFirst, masked_and (by decide), packet.initial]
  have entry : ∃ entry, versions packet.version = some entry := by
    rcases packet.supported with same | same <;> rw [same] <;> exact ⟨_, rfl⟩
  obtain ⟨entry, known⟩ := entry
  have guarded : ¬ (packet.bytes quic encrypt keys ++ trailing = [] ∨
      packet.maskedFirst quic encrypt keys &&& 0x80 = 0 ∨
      maxQuic < (packet.bytes quic encrypt keys ++ trailing).length ∨
      (packet.bytes quic encrypt keys ++ trailing).length < 7) := by
    rw [header]
    rintro (empty | zero | tooLong | tooShort)
    · rw [empty] at long
      cases long
    · cases zero
    · omega
    · omega
  have first : typeByte (packet.bytes quic encrypt keys ++ trailing) =
      packet.maskedFirst quic encrypt keys := rfl
  rw [extractClientHello, first, if_neg guarded]
  dsimp only
  rw [version, known]
  dsimp only
  rw [if_neg (not_not.mpr type), InitialPacket.bytes_append,
    InitialPacket.readLongHeader_bytes]
  simp only [catchIndex, bind, Except.bind, derived]
  rw [← InitialPacket.bytes_append]
  exact packet.openInitial_bytes keys protects
    (deriveInitialKeys_sized protects.hashes derived) trailing

/-- A datagram over the cap is not read. -/
theorem extractClientHello_of_long {quic : QuicCrypto} {b : Bytes}
    (long : maxQuic < b.length) :
    extractClientHello quic b = .ok none :=
  if_pos (Or.inr (Or.inr (Or.inl long)))

/-- A packet with one CRYPTO frame of three bytes. -/
def cryptoPacket : InitialPacket where
  version := v1
  first := 0xC0
  dcid := [1, 2, 3, 4]
  scid := []
  token := []
  tokenWidth := 0
  lengthWidth := 1
  pnLen := 1
  pn := 0
  payload := [6, 0, 3, 10, 11, 12]
  supported := Or.inl rfl
  long_header := rfl
  initial := rfl
  number_length := rfl
  dcid_small := by decide
  scid_small := length_nil_lt
  token_fits := ⟨by decide, by decide⟩
  length_fits := ⟨by decide, by decide⟩
  number_fits := by decide
  sampled := by decide

/-- The cipher that appends a tag of zeros, and blocks that are not changed. -/
def plainQuic : QuicCrypto where
  crypto := plainCrypto
  block _ sample := sample

theorem plainQuic_protects : Protects plainQuic fun _ _ _ inner _ => inner ++ zeros 16 :=
  ⟨plainCrypto_seals, plainCrypto_hashes, fun _ _ => rfl⟩

theorem extractClientHello_exact_sample :
    (∃ keys, deriveInitialKeys plainCrypto [1, 2, 3, 4] v1 = some keys ∧
      extractClientHello plainQuic (cryptoPacket.bytes plainQuic
        (fun _ _ _ inner _ => inner ++ zeros 16) keys ++ [7]) = .ok (some [10, 11, 12])) ∧
      Returns (extractClientHello plainQuic [1, 2]) := by
  have exact := extractClientHello_exact plainQuic_protects
  obtain ⟨keys, derived, decoded⟩ := exact.1 cryptoPacket
  refine ⟨⟨keys, derived, (decoded [7] ?_).trans (by decide)⟩, exact.2 [1, 2]⟩
  rw [InitialPacket.length_bytes_append _ _ plainQuic_protects,
    InitialPacket.length_middle]
  decide

/-- Behind a packet 65536 more bytes are too many. -/
theorem long_datagram_not_read :
    ¬ ∀ quic encrypt, Protects quic encrypt → ∀ packet : InitialPacket, ∀ keys trailing,
      deriveInitialKeys quic.crypto packet.dcid packet.version = some keys →
        extractClientHello quic (packet.bytes quic encrypt keys ++ trailing) =
          reassembleCrypto packet.payload := by
  intro always
  obtain ⟨keys, derived⟩ := cryptoPacket.exists_keys plainQuic
  have read := always plainQuic _ plainQuic_protects cryptoPacket keys
    (zeros maxQuic) derived
  rw [extractClientHello_of_long] at read
  · have bytes : reassembleCrypto cryptoPacket.payload = .ok (some [10, 11, 12]) := by
      decide
    rw [bytes] at read
    cases read
  · have trailing : (zeros maxQuic).length = maxQuic := List.length_replicate
    rw [List.length_append, trailing, InitialPacket.bytes, List.length_cons]
    omega

end Probes
end PqcScan
