import PqcScan.Probes.Decode
import PqcScan.Probes.Pcap

/-!
# Encapsulated segments

`decode_packet` of `probes/_pcap.py` with every read that may raise and the text of an
address as a parameter, and the frames it inverts: a TCP or UDP segment in IPv4 or IPv6,
behind an Ethernet, Linux cooked or raw-IP header and before link-layer padding.
-/

namespace PqcScan
namespace Probes

open Library Python

/-- What `socket.inet_ntop` gives of a packed address of either family. -/
structure Addresses where
  ipv4 : Bytes → List Char
  ipv6 : Bytes → List Char

/-- `socket.inet_ntop` raises unless the packed address has the length of its family. -/
def inetNtop (width : Nat) (text : Bytes → List Char) (packed : Bytes) :
    Except ReadError (List Char) :=
  if packed.length = width then .ok (text packed)
  else .error (.valueError "invalid length of packed IP address string")

/-! ## The decoder -/

namespace Raising

/-- `_decode_l4`. -/
def decodeL4 (proto : Nat) (src dst : List Char) (payload : Bytes) :
    Except ReadError (Option Segment) :=
  if proto = 6 then
    if payload.length < 20 then pure none
    else do
      let srcPort ← unpackU16 (payload.take 2)
      let dstPort ← unpackU16 ((payload.drop 2).take 2)
      let seq ← ByteOrder.big.unpack 4 ((payload.drop 4).take 4)
      let offset ← byteAt payload 12
      let dataOff := offset / 16 * 4
      if dataOff < 20 ∨ payload.length < dataOff then pure none
      else pure (some ⟨.tcp, src, srcPort, dst, dstPort, payload.drop dataOff, seq⟩)
  else if proto = 17 then
    if payload.length < 8 then pure none
    else do
      let srcPort ← unpackU16 (payload.take 2)
      let dstPort ← unpackU16 ((payload.drop 2).take 2)
      pure (some ⟨.udp, src, srcPort, dst, dstPort, payload.drop 8, 0⟩)
  else pure none

/-- `_decode_ipv4`. -/
def decodeIpv4 (addresses : Addresses) (data : Bytes) :
    Except ReadError (Option Segment) :=
  if data.length < 20 then pure none
  else do
    let first ← byteAt data 0
    let ihl := first % 16 * 4
    if ihl < 20 ∨ data.length < ihl then pure none
    else do
      let proto ← byteAt data 9
      let totalLen ← unpackU16 ((data.drop 2).take 2)
      let src ← inetNtop 4 addresses.ipv4 ((data.drop 12).take 4)
      let dst ← inetNtop 4 addresses.ipv4 ((data.drop 16).take 4)
      let payload := if ihl < totalLen ∧ totalLen ≤ data.length
        then (data.take totalLen).drop ihl else data.drop ihl
      decodeL4 proto src dst payload

/-- `_decode_ipv6`. -/
def decodeIpv6 (addresses : Addresses) (data : Bytes) :
    Except ReadError (Option Segment) :=
  if data.length < 40 then pure none
  else do
    let nextHdr ← byteAt data 6
    let plen ← unpackU16 ((data.drop 4).take 2)
    let src ← inetNtop 16 addresses.ipv6 ((data.drop 8).take 16)
    let dst ← inetNtop 16 addresses.ipv6 ((data.drop 24).take 16)
    let payload := if plen ≠ 0 then (data.drop 40).take plen else data.drop 40
    decodeL4 nextHdr src dst payload

/-- `_decode_l3`. -/
def decodeL3 (addresses : Addresses) (data : Bytes) (ethType : Nat) :
    Except ReadError (Option Segment) :=
  if ethType = 0x0800 then decodeIpv4 addresses data
  else if ethType = 0x86DD then decodeIpv6 addresses data
  else pure none

/-- The loop of `_decode_ethernet` over VLAN tags; every round takes four bytes. -/
def decodeTagged (addresses : Addresses) :
    Nat → Nat → Bytes → Except ReadError (Option Segment)
  | 0, _, _ => pure none
  | fuel + 1, ethType, rest =>
      if ethType = 0x8100 ∨ ethType = 0x88A8 then
        if rest.length < 4 then pure none
        else do
          let ethType ← unpackU16 ((rest.drop 2).take 2)
          decodeTagged addresses fuel ethType (rest.drop 4)
      else decodeL3 addresses rest ethType

/-- `_decode_ethernet`. -/
def decodeEthernet (addresses : Addresses) (frame : Bytes) :
    Except ReadError (Option Segment) :=
  if frame.length < 14 then pure none
  else do
    let ethType ← unpackU16 ((frame.drop 12).take 2)
    decodeTagged addresses frame.length ethType (frame.drop 14)

/-- The `try` block of `decode_packet`. -/
def decodeFrame (addresses : Addresses) (frame : Bytes) (linktype : Nat) :
    Except ReadError (Option Segment) :=
  if linktype = 1 then decodeEthernet addresses frame
  else if linktype = 113 then
    if frame.length < 16 then pure none
    else do
      let ethType ← unpackU16 ((frame.drop 14).take 2)
      decodeL3 addresses (frame.drop 16) ethType
  else if linktype ∈ [101, 12, 14] then
    if frame = [] then pure none
    else do
      let first ← byteAt frame 0
      let version := first / 16
      if version = 4 then decodeIpv4 addresses frame
      else if version = 6 then decodeIpv6 addresses frame
      else pure none
  else pure none

/-- `decode_packet` catches `struct.error`, `IndexError` and `ValueError`. -/
def decodePacket (addresses : Addresses) (frame : Bytes) (linktype : Nat) :
    Except ReadError (Option Segment) :=
  match decodeFrame addresses frame linktype with
  | .ok segment => .ok segment
  | .error (.structError _) => .ok none
  | .error (.indexError _) => .ok none
  | .error (.valueError _) => .ok none

end Raising

/-! ## No read raises -/

theorem byteAt_within {bytes : Bytes} {i : Nat} (within : i < bytes.length) :
    byteAt bytes i = .ok (typeByte (bytes.drop i)).toNat := by
  rw [byteAt, List.getElem?_eq_getElem within, List.drop_eq_getElem_cons within]
  rfl

theorem inetNtop_window {width start : Nat} {text : Bytes → List Char} {bytes : Bytes}
    (within : start + width ≤ bytes.length) :
    inetNtop width text ((bytes.drop start).take width) =
      .ok (text ((bytes.drop start).take width)) := by
  apply if_pos
  simp only [List.length_take, List.length_drop]
  omega

namespace Raising

variable (addresses : Addresses)

/-- The length checks leave nothing to raise. -/
theorem decodeL4_eq (proto : Nat) (src dst : List Char) (payload : Bytes) :
    decodeL4 proto src dst payload = .ok (Probes.decodeL4 proto src dst payload) := by
  have shift (byte : UInt8) : (byte >>> 4).toNat = byte.toNat / 16 := by
    rw [UInt8.toNat_shiftRight, Nat.shiftRight_eq_div_pow]
    rfl
  unfold decodeL4 Probes.decodeL4
  dsimp only
  split
  · split
    · rfl
    · next long =>
      rw [unpackU16_take (by omega), unpackU16_window (by omega),
        unpack_window (by omega), byteAt_within (by omega), shift]
      simp only [bind, Except.bind, ByteOrder.decode]
      split <;> rfl
  · split
    · split
      · rfl
      · rw [unpackU16_take (by omega), unpackU16_window (by omega)]
        rfl
    · rfl

theorem decodeIpv4_returns (data : Bytes) : Returns (decodeIpv4 addresses data) := by
  unfold decodeIpv4
  split
  · exact ⟨none, rfl⟩
  · rw [byteAt_within (by omega)]
    simp only [bind, Except.bind]
    split
    · exact ⟨none, rfl⟩
    · rw [byteAt_within (by omega), unpackU16_window (by omega),
        inetNtop_window (by omega), inetNtop_window (by omega)]
      exact ⟨_, decodeL4_eq _ _ _ _⟩

theorem decodeIpv6_returns (data : Bytes) : Returns (decodeIpv6 addresses data) := by
  unfold decodeIpv6
  split
  · exact ⟨none, rfl⟩
  · rw [byteAt_within (by omega), unpackU16_window (by omega), inetNtop_window (by omega),
      inetNtop_window (by omega)]
    exact ⟨_, decodeL4_eq _ _ _ _⟩

theorem decodeL3_returns (data : Bytes) (ethType : Nat) :
    Returns (decodeL3 addresses data ethType) := by
  unfold decodeL3
  split
  · exact decodeIpv4_returns addresses data
  · split
    · exact decodeIpv6_returns addresses data
    · exact ⟨none, rfl⟩

theorem decodeTagged_returns (fuel ethType : Nat) (rest : Bytes) :
    Returns (decodeTagged addresses fuel ethType rest) := by
  induction fuel generalizing ethType rest with
  | zero => exact ⟨none, rfl⟩
  | succ fuel inductionHypothesis =>
      unfold decodeTagged
      split
      · split
        · exact ⟨none, rfl⟩
        · rw [unpackU16_window (by omega)]
          exact inductionHypothesis _ _
      · exact decodeL3_returns addresses rest ethType

theorem decodeFrame_returns (frame : Bytes) (linktype : Nat) :
    Returns (decodeFrame addresses frame linktype) := by
  unfold decodeFrame decodeEthernet
  split
  · split
    · exact ⟨none, rfl⟩
    · rw [unpackU16_window (by omega)]
      exact decodeTagged_returns addresses _ _ _
  · split
    · split
      · exact ⟨none, rfl⟩
      · rw [unpackU16_window (by omega)]
        exact decodeL3_returns addresses _ _
    · split
      · split
        · exact ⟨none, rfl⟩
        · next filled =>
          rw [byteAt_within (List.length_pos_iff.mpr filled)]
          simp only [bind, Except.bind]
          split
          · exact decodeIpv4_returns addresses frame
          · split
            · exact decodeIpv6_returns addresses frame
            · exact ⟨none, rfl⟩
      · exact ⟨none, rfl⟩

/-- Every frame of every link type gives a segment or `None`. -/
theorem decodePacket_returns (frame : Bytes) (linktype : Nat) :
    Returns (decodePacket addresses frame linktype) := by
  obtain ⟨segment, decoded⟩ := decodeFrame_returns addresses frame linktype
  exact ⟨segment, by rw [decodePacket, decoded]⟩

end Raising

/-! ## The decoder of the captures

With the addresses of `inet_ntop` this is the decoder that the captures are read with. -/

namespace Raising

/-- `socket.inet_ntop` of either family. -/
def standard : Addresses := ⟨inetNtop4, inetNtop6⟩

theorem low_nibble (byte : UInt8) : (byte &&& 0x0F).toNat = byte.toNat % 16 := by
  rw [UInt8.toNat_and]
  exact Nat.and_two_pow_sub_one_eq_mod byte.toNat 4

theorem high_nibble (byte version : UInt8) :
    byte >>> 4 = version ↔ byte.toNat / 16 = version.toNat := by
  rw [← UInt8.toNat_inj, UInt8.toNat_shiftRight, Nat.shiftRight_eq_div_pow]
  rfl

theorem decodeIpv4_eq (data : Bytes) :
    decodeIpv4 standard data = .ok (Probes.decodeIpv4 data) := by
  unfold decodeIpv4 Probes.decodeIpv4
  dsimp only
  split
  · rfl
  · rw [byteAt_within (by omega), List.drop_zero, low_nibble]
    simp only [bind, Except.bind]
    split
    · rfl
    · rw [byteAt_within (by omega), unpackU16_window (by omega),
        inetNtop_window (by omega), inetNtop_window (by omega)]
      exact decodeL4_eq _ _ _ _

theorem decodeIpv6_eq (data : Bytes) :
    decodeIpv6 standard data = .ok (Probes.decodeIpv6 data) := by
  unfold decodeIpv6 Probes.decodeIpv6
  split
  · rfl
  · rw [byteAt_within (by omega), unpackU16_window (by omega), inetNtop_window (by omega),
      inetNtop_window (by omega)]
    exact decodeL4_eq _ _ _ _

theorem decodeL3_eq (data : Bytes) (ethType : Nat) :
    decodeL3 standard data ethType = .ok (Probes.decodeL3 data ethType) := by
  unfold decodeL3 Probes.decodeL3
  split
  · exact decodeIpv4_eq data
  · split
    · exact decodeIpv6_eq data
    · rfl

/-- The tags are read one after the other; the rest of the frame is the fuel. -/
theorem decodeTagged_eq {fuel ethType : Nat} {rest : Bytes}
    (enough : rest.length < fuel) :
    decodeTagged standard fuel ethType rest = .ok (Probes.decodeTagged ethType rest) := by
  induction fuel generalizing ethType rest with
  | zero => omega
  | succ fuel inductionHypothesis =>
      unfold decodeTagged
      match rest with
      | first :: second :: high :: low :: later =>
          rw [Probes.decodeTagged]
          split
          · rw [if_neg (by simp), unpackU16_window (by simp)]
            apply inductionHypothesis
            simp only [List.length_cons] at enough
            exact (by simp only [List.drop_succ_cons, List.drop_zero]; omega)
          · exact decodeL3_eq _ ethType
      | [] | [_] | [_, _] | [_, _, _] =>
          rw [Probes.decodeTagged.eq_2 _ _ (by simp)]
          split
          · rw [if_pos (by simp)]
            rfl
          · exact decodeL3_eq _ ethType

/-- The reads of `decode_packet` never raise, and it reads what the captures do. -/
theorem decodePacket_eq (frame : Bytes) (linktype : Nat) :
    decodePacket standard frame linktype = .ok (Probes.decodePacket frame linktype) := by
  have decoded : decodeFrame standard frame linktype =
      .ok (Probes.decodePacket frame linktype) := by
    unfold decodeFrame decodeEthernet Probes.decodePacket Probes.decodeEthernet
    split
    · split
      · rfl
      · rw [unpackU16_window (by omega)]
        exact decodeTagged_eq (by rw [List.length_drop]; omega)
    · split
      · split
        · rfl
        · rw [unpackU16_window (by omega)]
          exact decodeL3_eq _ _
      · split
        · dsimp only
          split
          · rfl
          · next filled =>
            rw [byteAt_within (List.length_pos_iff.mpr filled), List.drop_zero]
            have four : typeByte frame >>> 4 = 4 ↔ (typeByte frame).toNat / 16 = 4 :=
              high_nibble _ 4
            have six : typeByte frame >>> 4 = 6 ↔ (typeByte frame).toNat / 16 = 6 :=
              high_nibble _ 6
            simp only [bind, Except.bind, four, six]
            split
            · exact decodeIpv4_eq frame
            · split
              · exact decodeIpv6_eq frame
              · rfl
        · rfl
  rw [decodePacket, decoded]

end Raising

/-! ## Segments -/

/-- A TCP segment with its header. -/
structure TcpSegment where
  srcPort : UInt16
  dstPort : UInt16
  seq : UInt32
  ack : UInt32
  reserved : Fin 16
  flags : UInt8
  window : UInt16
  checksum : UInt16
  urgent : UInt16
  options : Bytes
  payload : Bytes
  aligned : options.length % 4 = 0
  fits : options.length ≤ 40

/-- The segment on the wire; its fourth word starts with the length of the header. -/
def TcpSegment.bytes (segment : TcpSegment) : Bytes :=
  bigBytes 2 segment.srcPort.toNat ++ bigBytes 2 segment.dstPort.toNat ++
    bigBytes 4 segment.seq.toNat ++ bigBytes 4 segment.ack.toNat ++
    [UInt8.ofNat ((5 + segment.options.length / 4) * 16 + segment.reserved),
      segment.flags] ++
    bigBytes 2 segment.window.toNat ++ bigBytes 2 segment.checksum.toNat ++
    bigBytes 2 segment.urgent.toNat ++ (segment.options ++ segment.payload)

/-- A UDP datagram with its header. -/
structure UdpDatagram where
  srcPort : UInt16
  dstPort : UInt16
  checksum : UInt16
  payload : Bytes

/-- The datagram on the wire, its length included. -/
def UdpDatagram.bytes (datagram : UdpDatagram) : Bytes :=
  bigBytes 2 datagram.srcPort.toNat ++ bigBytes 2 datagram.dstPort.toNat ++
    bigBytes 2 (8 + datagram.payload.length) ++ bigBytes 2 datagram.checksum.toNat ++
    datagram.payload

/-- What an IP packet carries. -/
inductive Carried
  | tcp (segment : TcpSegment)
  | udp (datagram : UdpDatagram)

namespace Carried

/-- What the packet carries, as it is sent. -/
def bytes : Carried → Bytes
  | tcp segment => segment.bytes
  | udp datagram => datagram.bytes

/-- The protocol number in the header of the packet. -/
def protocol : Carried → UInt8
  | tcp _ => 6
  | udp _ => 17

/-- What is carried between two addresses. -/
def segment (carried : Carried) (src dst : List Char) : Segment :=
  match carried with
  | tcp segment => ⟨.tcp, src, segment.srcPort.toNat, dst, segment.dstPort.toNat,
      segment.payload, segment.seq.toNat⟩
  | udp datagram => ⟨.udp, src, datagram.srcPort.toNat, dst, datagram.dstPort.toNat,
      datagram.payload, 0⟩

end Carried

theorem bigEndian_port (port : UInt16) : bigEndian (bigBytes 2 port.toNat) = port.toNat :=
  bigEndian_bigBytes port.toNat_lt

/-- The header says where the payload starts. -/
theorem decodeL4_tcp (segment : TcpSegment) (src dst : List Char) :
    decodeL4 6 src dst segment.bytes = some ((Carried.tcp segment).segment src dst) := by
  have reserved := segment.reserved.isLt
  have aligned := segment.aligned
  have fits := segment.fits
  have length : segment.bytes.length =
      20 + segment.options.length + segment.payload.length := by
    simp only [TcpSegment.bytes, List.length_append, length_bigBytes, List.length_cons,
      List.length_nil]
    omega
  have offset : (typeByte (segment.bytes.drop 12) >>> 4).toNat * 4 =
      20 + segment.options.length := by
    have byte : typeByte (segment.bytes.drop 12) =
        UInt8.ofNat ((5 + segment.options.length / 4) * 16 + segment.reserved) := rfl
    rw [byte, UInt8.toNat_shiftRight, Nat.shiftRight_eq_div_pow, UInt8.toNat_ofNat']
    change (_ % 256 / 16) * 4 = _
    omega
  have payload : segment.bytes.drop (20 + segment.options.length) = segment.payload := by
    have rest : segment.bytes.drop 20 = segment.options ++ segment.payload := rfl
    rw [← List.drop_drop, rest, List.drop_left]
  have srcPort : bigEndian (segment.bytes.take 2) = segment.srcPort.toNat :=
    bigEndian_port segment.srcPort
  have dstPort : bigEndian ((segment.bytes.drop 2).take 2) = segment.dstPort.toNat :=
    bigEndian_port segment.dstPort
  have seq : bigEndian ((segment.bytes.drop 4).take 4) = segment.seq.toNat :=
    @bigEndian_bigBytes 4 _ segment.seq.toNat_lt
  unfold decodeL4
  dsimp only
  rw [offset, payload, srcPort, dstPort, seq, if_pos rfl, if_neg (by omega),
    if_neg (by omega)]
  rfl

theorem decodeL4_udp (datagram : UdpDatagram) (src dst : List Char) :
    decodeL4 17 src dst datagram.bytes =
      some ((Carried.udp datagram).segment src dst) := by
  have long : ¬ datagram.bytes.length < 8 := by
    simp only [UdpDatagram.bytes, List.length_append, length_bigBytes]
    omega
  have payload : datagram.bytes.drop 8 = datagram.payload := rfl
  have srcPort : bigEndian (datagram.bytes.take 2) = datagram.srcPort.toNat :=
    bigEndian_port datagram.srcPort
  have dstPort : bigEndian ((datagram.bytes.drop 2).take 2) = datagram.dstPort.toNat :=
    bigEndian_port datagram.dstPort
  unfold decodeL4
  dsimp only
  rw [payload, srcPort, dstPort, if_neg (by decide), if_pos rfl, if_neg long]
  rfl

/-- What a packet carries is read between its addresses. -/
theorem decodeL4_carried (carried : Carried) (src dst : List Char) :
    Raising.decodeL4 carried.protocol.toNat src dst carried.bytes =
      .ok (some (carried.segment src dst)) := by
  rw [Raising.decodeL4_eq]
  cases carried with
  | tcp segment => exact congrArg Except.ok (decodeL4_tcp segment src dst)
  | udp datagram => exact congrArg Except.ok (decodeL4_udp datagram src dst)

theorem carried_nonempty (carried : Carried) : 0 < carried.bytes.length := by
  cases carried with
  | tcp segment =>
      simp only [Carried.bytes, TcpSegment.bytes, List.length_append, length_bigBytes]
      omega
  | udp datagram =>
      simp only [Carried.bytes, UdpDatagram.bytes, List.length_append, length_bigBytes]
      omega

/-! ## Packets -/

/-- An IPv4 packet that is no fragment. -/
structure Ipv4Packet where
  typeOfService : UInt8
  identification : UInt16
  dontFragment : Bool
  timeToLive : UInt8
  checksum : UInt16
  src : UInt32
  dst : UInt32
  options : Bytes
  carried : Carried
  aligned : options.length % 4 = 0
  fits : options.length ≤ 40
  small : 20 + options.length + carried.bytes.length < 65536

namespace Ipv4Packet

variable (packet : Ipv4Packet)

/-- `total_length`. -/
def totalLength : Nat := 20 + packet.options.length + packet.carried.bytes.length

/-- The header, options included. -/
def header : Bytes :=
  [UInt8.ofNat (4 * 16 + (5 + packet.options.length / 4)), packet.typeOfService] ++
    bigBytes 2 packet.totalLength ++ bigBytes 2 packet.identification.toNat ++
    [if packet.dontFragment then 0x40 else 0, 0, packet.timeToLive,
      packet.carried.protocol] ++
    bigBytes 2 packet.checksum.toNat ++ bigBytes 4 packet.src.toNat ++
    bigBytes 4 packet.dst.toNat ++ packet.options

/-- The packet as it is sent. -/
def bytes : Bytes := packet.header ++ packet.carried.bytes

/-- What the decoder reads of the packet. -/
def segment (addresses : Addresses) : Segment :=
  packet.carried.segment (addresses.ipv4 (bigBytes 4 packet.src.toNat))
    (addresses.ipv4 (bigBytes 4 packet.dst.toNat))

theorem length_header : packet.header.length = 20 + packet.options.length := by
  simp only [header, List.length_append, length_bigBytes, List.length_cons,
    List.length_nil]

theorem first_byte :
    UInt8.toNat (UInt8.ofNat (4 * 16 + (5 + packet.options.length / 4))) =
      4 * 16 + (5 + packet.options.length / 4) := by
  have fits := packet.fits
  rw [UInt8.toNat_ofNat']
  exact Nat.mod_eq_of_lt (by omega)

/-- What follows the total length of the packet is not its payload. -/
theorem decode (addresses : Addresses) (padding : Bytes) :
    Raising.decodeIpv4 addresses (packet.bytes ++ padding) =
      .ok (some (packet.segment addresses)) := by
  have aligned := packet.aligned
  have header := packet.length_header
  have length : (packet.bytes ++ padding).length =
      packet.totalLength + padding.length := by
    rw [List.length_append, bytes, List.length_append, header, totalLength]
  have least : 20 ≤ (packet.bytes ++ padding).length := by
    rw [length, totalLength]
    omega
  have first : (typeByte ((packet.bytes ++ padding).drop 0)).toNat % 16 * 4 =
      20 + packet.options.length := by
    have byte : typeByte ((packet.bytes ++ padding).drop 0) =
        UInt8.ofNat (4 * 16 + (5 + packet.options.length / 4)) := rfl
    have fits := packet.fits
    rw [byte, first_byte]
    omega
  have proto : typeByte ((packet.bytes ++ padding).drop 9) = packet.carried.protocol :=
    rfl
  have total : bigEndian (((packet.bytes ++ padding).drop 2).take 2) =
      packet.totalLength :=
    @bigEndian_bigBytes 2 _ packet.small
  have src : ((packet.bytes ++ padding).drop 12).take 4 = bigBytes 4 packet.src.toNat :=
    rfl
  have dst : ((packet.bytes ++ padding).drop 16).take 4 = bigBytes 4 packet.dst.toNat :=
    rfl
  have whole : (packet.bytes ++ padding).take packet.totalLength = packet.bytes := by
    apply List.take_left'
    rw [bytes, List.length_append, header, totalLength]
  have payload : packet.bytes.drop (20 + packet.options.length) = packet.carried.bytes :=
    List.drop_left' header
  have filled := carried_nonempty packet.carried
  unfold Raising.decodeIpv4
  rw [if_neg (by omega), byteAt_within (by omega), byteAt_within (by omega),
    unpackU16_window (by omega), inetNtop_window (by omega),
    inetNtop_window (by omega), proto, total, src, dst]
  simp only [bind, Except.bind, first]
  rw [if_neg (by rw [length, totalLength]; omega), if_pos, whole, payload]
  · exact decodeL4_carried packet.carried _ _
  · rw [length, totalLength]
    omega

end Ipv4Packet

/-- An IPv6 packet without extension headers. -/
structure Ipv6Packet where
  classAndLabel : Fin (2 ^ 28)
  hopLimit : UInt8
  src : BitVec 128
  dst : BitVec 128
  carried : Carried
  small : carried.bytes.length < 65536

namespace Ipv6Packet

variable (packet : Ipv6Packet)

/-- What stands before the addresses. -/
def opening : Bytes :=
  bigBytes 4 (6 * 2 ^ 28 + packet.classAndLabel) ++
    bigBytes 2 packet.carried.bytes.length ++
    [packet.carried.protocol, packet.hopLimit]

/-- The header. -/
def header : Bytes :=
  packet.opening ++ bigBytes 16 packet.src.toNat ++ bigBytes 16 packet.dst.toNat

/-- The packet as it is sent. -/
def bytes : Bytes := packet.header ++ packet.carried.bytes

/-- What the decoder reads of the packet. -/
def segment (addresses : Addresses) : Segment :=
  packet.carried.segment (addresses.ipv6 (bigBytes 16 packet.src.toNat))
    (addresses.ipv6 (bigBytes 16 packet.dst.toNat))

theorem length_opening : packet.opening.length = 8 := by
  simp only [opening, List.length_append, length_bigBytes, List.length_cons,
    List.length_nil]

theorem length_header : packet.header.length = 40 := by
  simp only [header, List.length_append, length_bigBytes, length_opening]

theorem decode (addresses : Addresses) (padding : Bytes) :
    Raising.decodeIpv6 addresses (packet.bytes ++ padding) =
      .ok (some (packet.segment addresses)) := by
  have long : 40 ≤ (packet.bytes ++ padding).length := by
    rw [List.length_append, bytes, List.length_append, length_header]
    omega
  have next : typeByte ((packet.bytes ++ padding).drop 6) = packet.carried.protocol := rfl
  have plen : bigEndian (((packet.bytes ++ padding).drop 4).take 2) =
      packet.carried.bytes.length := @bigEndian_bigBytes 2 _ packet.small
  have src : ((packet.bytes ++ padding).drop 8).take 16 =
      bigBytes 16 packet.src.toNat := by
    rw [bytes, header]
    simp only [List.append_assoc]
    exact window_append packet.length_opening (length_bigBytes _ _) _
  have dst : ((packet.bytes ++ padding).drop 24).take 16 =
      bigBytes 16 packet.dst.toNat := by
    have place : (packet.opening ++ bigBytes 16 packet.src.toNat).length = 24 := by
      rw [List.length_append, length_opening, length_bigBytes]
    rw [bytes, header, List.append_assoc, List.append_assoc]
    exact window_append place (length_bigBytes _ _) _
  have payload : ((packet.bytes ++ padding).drop 40).take packet.carried.bytes.length =
      packet.carried.bytes := by
    rw [bytes, List.append_assoc]
    exact window_append packet.length_header rfl padding
  have filled := carried_nonempty packet.carried
  unfold Raising.decodeIpv6
  rw [if_neg (by omega), byteAt_within (by omega), unpackU16_window (by omega),
    inetNtop_window (by omega), inetNtop_window (by omega), next, plen, src, dst]
  simp only [bind, Except.bind]
  rw [if_pos (by omega), payload]
  exact decodeL4_carried packet.carried _ _

end Ipv6Packet

/-- A packet of either version. -/
inductive IpPacket
  | ipv4 (packet : Ipv4Packet)
  | ipv6 (packet : Ipv6Packet)

namespace IpPacket

/-- The packet as it is sent. -/
def bytes : IpPacket → Bytes
  | ipv4 packet => packet.bytes
  | ipv6 packet => packet.bytes

/-- The EtherType of the version. -/
def etherType : IpPacket → UInt16
  | ipv4 _ => 0x0800
  | ipv6 _ => 0x86DD

/-- What the decoder reads of the packet. -/
def segment (addresses : Addresses) : IpPacket → Segment
  | ipv4 packet => packet.segment addresses
  | ipv6 packet => packet.segment addresses

theorem decodeL3 (addresses : Addresses) (packet : IpPacket) (padding : Bytes) :
    Raising.decodeL3 addresses (packet.bytes ++ padding) packet.etherType.toNat =
      .ok (some (packet.segment addresses)) := by
  cases packet with
  | ipv4 packet =>
      have etherType : (ipv4 packet).etherType.toNat = 0x0800 := rfl
      rw [etherType, Raising.decodeL3, if_pos rfl]
      exact packet.decode addresses padding
  | ipv6 packet =>
      have etherType : (ipv6 packet).etherType.toNat = 0x86DD := rfl
      rw [etherType, Raising.decodeL3, if_neg (by decide), if_pos rfl]
      exact packet.decode addresses padding

end IpPacket

/-! ## Frames -/

/-- A tag of 802.1Q, or of 802.1ad. -/
structure VlanTag where
  provider : Bool
  control : UInt16

/-- The EtherType of the tag. -/
def VlanTag.identifier (tag : VlanTag) : UInt16 := if tag.provider then 0x88A8 else 0x8100

/-- The tags, the type of the packet, and what follows it. -/
def taggedBytes (etherType : UInt16) (rest : Bytes) : List VlanTag → Bytes
  | [] => bigBytes 2 etherType.toNat ++ rest
  | tag :: tags => bigBytes 2 tag.identifier.toNat ++
      (bigBytes 2 tag.control.toNat ++ taggedBytes etherType rest tags)

/-- The header before a packet: Ethernet, Linux cooked capture, or none. -/
inductive Link
  | ethernet (dst src : BitVec 48) (tags : List VlanTag)
  | cooked (packetType hardware addressLength : UInt16) (address : UInt64)
  | rawIp (linktype : Nat) (raw : linktype ∈ [101, 12, 14])

namespace Link

/-- The link type of the capture. -/
def linktype : Link → Nat
  | ethernet _ _ _ => 1
  | cooked _ _ _ _ => 113
  | rawIp linktype _ => linktype

/-- The frame of a packet, and the bytes that pad it. -/
def frame (packet : IpPacket) (padding : Bytes) : Link → Bytes
  | ethernet dst src tags => bigBytes 6 dst.toNat ++ bigBytes 6 src.toNat ++
      taggedBytes packet.etherType (packet.bytes ++ padding) tags
  | cooked packetType hardware addressLength address =>
      bigBytes 2 packetType.toNat ++ bigBytes 2 hardware.toNat ++
        bigBytes 2 addressLength.toNat ++ bigBytes 8 address.toNat ++
        bigBytes 2 packet.etherType.toNat ++ (packet.bytes ++ padding)
  | rawIp _ _ => packet.bytes ++ padding

end Link

theorem untagged_etherType (packet : IpPacket) :
    ¬ (packet.etherType.toNat = 0x8100 ∨ packet.etherType.toNat = 0x88A8) := by
  cases packet <;> simp [IpPacket.etherType]

/-- The tags are skipped whatever they hold. -/
theorem decodeTagged_tags (addresses : Addresses) (packet : IpPacket) (padding : Bytes)
    (tags : List VlanTag) {fuel : Nat}
    (enough : (taggedBytes packet.etherType (packet.bytes ++ padding) tags).length ≤
      fuel) :
    Raising.decodeTagged addresses fuel
        (bigEndian ((taggedBytes packet.etherType (packet.bytes ++ padding) tags).take 2))
        ((taggedBytes packet.etherType (packet.bytes ++ padding) tags).drop 2) =
      .ok (some (packet.segment addresses)) := by
  induction tags generalizing fuel with
  | nil =>
      have etherType : bigEndian ((taggedBytes packet.etherType (packet.bytes ++ padding)
          []).take 2) = packet.etherType.toNat := bigEndian_port packet.etherType
      have rest : (taggedBytes packet.etherType (packet.bytes ++ padding) []).drop 2 =
          packet.bytes ++ padding := rfl
      rw [etherType, rest]
      cases fuel with
      | zero => simp [taggedBytes] at enough
      | succ fuel =>
          rw [Raising.decodeTagged, if_neg (untagged_etherType packet)]
          exact packet.decodeL3 addresses padding
  | cons tag tags inductionHypothesis =>
      have identifier : bigEndian ((taggedBytes packet.etherType (packet.bytes ++ padding)
          (tag :: tags)).take 2) = tag.identifier.toNat := bigEndian_port tag.identifier
      have rest : (taggedBytes packet.etherType (packet.bytes ++ padding)
          (tag :: tags)).drop 2 =
          bigBytes 2 tag.control.toNat ++
            taggedBytes packet.etherType (packet.bytes ++ padding) tags := rfl
      have tagged : tag.identifier.toNat = 0x8100 ∨ tag.identifier.toNat = 0x88A8 := by
        rw [VlanTag.identifier]
        cases tag.provider <;> decide
      have least : 2 ≤ (taggedBytes packet.etherType
          (packet.bytes ++ padding) tags).length := by
        cases tags <;> simp only [taggedBytes, List.length_append, length_bigBytes] <;>
          omega
      have length : (taggedBytes packet.etherType (packet.bytes ++ padding)
          (tag :: tags)).length =
            4 + (taggedBytes packet.etherType (packet.bytes ++ padding) tags).length := by
        simp only [taggedBytes, List.length_append, length_bigBytes]
        omega
      rw [identifier, rest]
      cases fuel with
      | zero => omega
      | succ fuel =>
          have window : 4 ≤ (bigBytes 2 tag.control.toNat ++
              taggedBytes packet.etherType (packet.bytes ++ padding) tags).length := by
            rw [List.length_append, length_bigBytes]
            omega
          rw [Raising.decodeTagged, if_pos tagged, if_neg (by omega),
            unpackU16_window (by omega)]
          exact inductionHypothesis (by omega)

namespace Link

theorem decodeFrame (addresses : Addresses) (packet : IpPacket) (padding : Bytes)
    (link : Link) :
    Raising.decodeFrame addresses (link.frame packet padding) link.linktype =
      .ok (some (packet.segment addresses)) := by
  cases link with
  | ethernet dst src tags =>
      have tagged : (frame packet padding (ethernet dst src tags)).drop 12 =
          taggedBytes packet.etherType (packet.bytes ++ padding) tags := rfl
      have length : (frame packet padding (ethernet dst src tags)).length =
          12 + (taggedBytes packet.etherType (packet.bytes ++ padding) tags).length := by
        simp only [frame, List.length_append, length_bigBytes]
      have least : 2 ≤ (taggedBytes packet.etherType
          (packet.bytes ++ padding) tags).length := by
        cases tags <;> simp only [taggedBytes, List.length_append, length_bigBytes] <;>
          omega
      have rest : (frame packet padding (ethernet dst src tags)).drop 14 =
          (taggedBytes packet.etherType (packet.bytes ++ padding) tags).drop 2 := by
        rw [← tagged, List.drop_drop]
      rw [linktype, Raising.decodeFrame, if_pos rfl, Raising.decodeEthernet,
        if_neg (by omega), unpackU16_window (by omega), tagged, rest]
      exact decodeTagged_tags addresses packet padding tags (by omega)
  | cooked packetType hardware addressLength address =>
      have etherType : bigEndian (((frame packet padding
          (cooked packetType hardware addressLength address)).drop 14).take 2) =
            packet.etherType.toNat := bigEndian_port packet.etherType
      have rest : (frame packet padding
          (cooked packetType hardware addressLength address)).drop 16 =
            packet.bytes ++ padding := rfl
      have long : 16 ≤ (frame packet padding
          (cooked packetType hardware addressLength address)).length := by
        simp only [frame, List.length_append, length_bigBytes]
        omega
      rw [linktype, Raising.decodeFrame, if_neg (by decide), if_pos rfl,
        if_neg (by omega), unpackU16_window (by omega), etherType, rest]
      exact packet.decodeL3 addresses padding
  | rawIp linktype raw =>
      have other : linktype ≠ 1 ∧ linktype ≠ 113 := by
        constructor <;> rintro rfl <;> revert raw <;> decide
      rw [Link.linktype, frame, Raising.decodeFrame, if_neg other.1,
        if_neg other.2, if_pos raw]
      cases packet with
      | ipv4 packet =>
          have first : byteAt (packet.bytes ++ padding) 0 =
              .ok (4 * 16 + (5 + packet.options.length / 4)) :=
            congrArg Except.ok packet.first_byte
          have fits := packet.fits
          have filled : packet.bytes ++ padding ≠ [] := List.cons_ne_nil _ _
          rw [IpPacket.bytes, if_neg filled, first]
          simp only [bind, Except.bind]
          rw [if_pos (by omega)]
          exact packet.decode addresses padding
      | ipv6 packet =>
          have value : UInt8.toNat (UInt8.ofNat
              ((6 * 2 ^ 28 + packet.classAndLabel.val) / 256 / 256 / 256)) / 16 = 6 := by
            have small := packet.classAndLabel.isLt
            rw [UInt8.toNat_ofNat']
            omega
          have first : byteAt (packet.bytes ++ padding) 0 = .ok (UInt8.toNat (UInt8.ofNat
              ((6 * 2 ^ 28 + packet.classAndLabel.val) / 256 / 256 / 256))) := rfl
          have filled : packet.bytes ++ padding ≠ [] := List.cons_ne_nil _ _
          rw [IpPacket.bytes, if_neg filled, first]
          simp only [bind, Except.bind]
          rw [if_neg (by omega), if_pos value]
          exact packet.decode addresses padding

end Link

/-- Decoding inverts encapsulation and raises on nothing. -/
theorem decodePacket_inverts (addresses : Addresses) :
    (∀ (link : Link) (packet : IpPacket) (padding : Bytes),
      Raising.decodePacket addresses (link.frame packet padding) link.linktype =
        .ok (some (packet.segment addresses))) ∧
    ∀ (frame : Bytes) (linktype : Nat),
      ∃ segment, Raising.decodePacket addresses frame linktype = .ok segment := by
  constructor
  · intro link packet padding
    rw [Raising.decodePacket, link.decodeFrame addresses packet padding]
  · exact Raising.decodePacket_returns addresses

/-! ### Two packets -/

/-- Dotted numbers, and groups of hexadecimal digits, as `inet_ntop` writes addresses
without leading zeros and runs of zeros. -/
def plainAddresses : Addresses where
  ipv4 packed := ['.'].intercalate (packed.map fun byte => Nat.toDigits 10 byte.toNat)
  ipv6 packed := [':'].intercalate (packed.toChunks 2 |>.map fun group =>
    Nat.toDigits 16 (bigEndian group))

/-- A segment with an option that is padded to a word. -/
def windowScaled : TcpSegment where
  srcPort := 443
  dstPort := 50000
  seq := 0xFFFFFFF0
  ack := 7
  reserved := 0
  flags := 0x18
  window := 512
  checksum := 0
  urgent := 0
  options := [3, 3, 7, 0]
  payload := [0x16, 3, 3, 0, 0]
  aligned := by decide
  fits := by decide

/-- The segment in an IPv4 packet with router alert. -/
def alertedPacket : Ipv4Packet where
  typeOfService := 0
  identification := 1
  dontFragment := true
  timeToLive := 64
  checksum := 0
  src := 0x0A000001
  dst := 0xC0A80102
  options := [0x94, 4, 0, 0]
  carried := .tcp windowScaled
  aligned := by decide
  fits := by decide
  small := by decide

/-- A datagram in an IPv6 packet. -/
def datagramPacket : Ipv6Packet where
  classAndLabel := 5
  hopLimit := 1
  src := 0x20010DB8000100020003000400050006
  dst := 0x20010DB8000100020003000400050007
  carried := .udp ⟨53, 1024, 0, [1, 2]⟩
  small := by decide

/-- The first behind a VLAN tag and with padding, the second in a cooked capture. -/
theorem decodePacket_inverts_twoPackets :
    Raising.decodePacket plainAddresses
        ((Link.ethernet 1 2 [⟨false, 100⟩]).frame (.ipv4 alertedPacket) [0, 0, 0]) 1 =
      .ok (some ⟨.tcp, "10.0.0.1".toList, 443, "192.168.1.2".toList, 50000,
        [0x16, 3, 3, 0, 0], 0xFFFFFFF0⟩) ∧
    Raising.decodePacket plainAddresses
        ((Link.cooked 0 1 6 9).frame (.ipv6 datagramPacket) []) 113 =
      .ok (some ⟨.udp, "2001:db8:1:2:3:4:5:6".toList, 53,
        "2001:db8:1:2:3:4:5:7".toList, 1024,
        [1, 2], 0⟩) := by
  have inverts := (decodePacket_inverts plainAddresses).1
  refine ⟨(inverts (.ethernet 1 2 [⟨false, 100⟩]) (.ipv4 alertedPacket) [0, 0,
    0]).trans ?_, (inverts (.cooked 0 1 6 9) (.ipv6 datagramPacket) []).trans ?_⟩
  · decide +kernel
  · decide +kernel

end Probes
end PqcScan
