import PqcScan.Probes.Handshake
import PqcScan.Python.Str

/-!
# Segments of a capture

`decode_packet` of `probes/_pcap.py`: one link-layer frame down to the payload of a TCP or
UDP segment and its endpoints.
-/

namespace PqcScan
namespace Probes

open Library Python

/-! ## Addresses -/

/-- `socket.inet_ntop(AF_INET, …)`. -/
def inetNtop4 (bytes : Bytes) : List Char :=
  List.intercalate ['.'] (bytes.map fun byte => Nat.toDigits 10 byte.toNat)

/-- The eight words of an address. -/
def addressWords (bytes : Bytes) : List Nat :=
  (List.range 8).map fun i => bigEndian ((bytes.drop (2 * i)).take 2)

/-- The first longest run of two zero words or more, where it
starts and how long it is. -/
def longestRun (words : List Nat) : Option (Nat × Nat) :=
  (List.range 8).foldl
    (fun best i =>
      let length := ((words.drop i).takeWhile (· == 0)).length
      if (best.map Prod.snd).getD 1 < length then some (i, length) else best)
    none

/-- The words of an address in hexadecimal. -/
def hexWords (words : List Nat) : List Char :=
  List.intercalate [':'] (words.map (Nat.toDigits 16))

/-- `socket.inet_ntop(AF_INET6, …)`: the longest run of zero words is left out, and an
embedded IPv4 address keeps its own form. -/
def inetNtop6 (bytes : Bytes) : List Char :=
  let words := addressWords bytes
  match longestRun words with
  | none => hexWords words
  | some (base, length) =>
      if base = 0 ∧ (length = 6 ∨ (length = 5 ∧ words.getD 5 0 = 0xFFFF)) then
        [':', ':'] ++ (((words.take 6).drop length).flatMap fun word =>
          Nat.toDigits 16 word ++ [':']) ++ inetNtop4 (bytes.drop 12)
      else hexWords (words.take base) ++ [':', ':'] ++
        hexWords (words.drop (base + length))

/-! ## Frames -/

/-- What carries a segment. -/
inductive Transport
  | tcp
  | udp
  deriving DecidableEq, Repr

/-- `Segment`. -/
structure Segment where
  proto : Transport
  srcIp : List Char
  srcPort : Nat
  dstIp : List Char
  dstPort : Nat
  payload : Bytes
  seq : Nat := 0
  deriving DecidableEq, Repr

namespace Segment

/-- The address and the port that the segment is from. -/
def src (segment : Segment) : List Char :=
  segment.srcIp ++ ':' :: Nat.toDigits 10 segment.srcPort

/-- The address and the port that the segment is for. -/
def dst (segment : Segment) : List Char :=
  segment.dstIp ++ ':' :: Nat.toDigits 10 segment.dstPort

end Segment

/-- `_decode_l4`. -/
def decodeL4 (proto : Nat) (src dst : List Char) (payload : Bytes) : Option Segment :=
  let srcPort := bigEndian (payload.take 2)
  let dstPort := bigEndian ((payload.drop 2).take 2)
  if proto = 6 then
    let dataOff := (typeByte (payload.drop 12) >>> 4).toNat * 4
    if payload.length < 20 then none
    else if dataOff < 20 ∨ payload.length < dataOff then none
    else some ⟨.tcp, src, srcPort, dst, dstPort, payload.drop dataOff,
      bigEndian ((payload.drop 4).take 4)⟩
  else if proto = 17 then
    if payload.length < 8 then none
    else some ⟨.udp, src, srcPort, dst, dstPort, payload.drop 8, 0⟩
  else none

/-- `_decode_ipv4`. -/
def decodeIpv4 (data : Bytes) : Option Segment :=
  let ihl := (typeByte data &&& 0x0F).toNat * 4
  if data.length < 20 then none
  else if ihl < 20 ∨ data.length < ihl then none
  else
    let totalLen := bigEndian ((data.drop 2).take 2)
    let payload := if ihl < totalLen ∧ totalLen ≤ data.length
      then (data.take totalLen).drop ihl else data.drop ihl
    decodeL4 (typeByte (data.drop 9)).toNat (inetNtop4 ((data.drop 12).take 4))
      (inetNtop4 ((data.drop 16).take 4)) payload

/-- `_decode_ipv6`. -/
def decodeIpv6 (data : Bytes) : Option Segment :=
  if data.length < 40 then none
  else
    let plen := bigEndian ((data.drop 4).take 2)
    let payload := if plen ≠ 0 then (data.drop 40).take plen else data.drop 40
    decodeL4 (typeByte (data.drop 6)).toNat (inetNtop6 ((data.drop 8).take 16))
      (inetNtop6 ((data.drop 24).take 16)) payload

/-- `_decode_l3`. -/
def decodeL3 (data : Bytes) (ethType : Nat) : Option Segment :=
  if ethType = 0x0800 then decodeIpv4 data
  else if ethType = 0x86DD then decodeIpv6 data
  else none

/-- The loop of `_decode_ethernet` over VLAN tags. -/
def decodeTagged (ethType : Nat) : Bytes → Option Segment
  | first :: second :: high :: low :: rest =>
      if ethType = 0x8100 ∨ ethType = 0x88A8 then
        decodeTagged (bigEndian [high, low]) rest
      else decodeL3 (first :: second :: high :: low :: rest) ethType
  | short => if ethType = 0x8100 ∨ ethType = 0x88A8 then none else decodeL3 short ethType

/-- `_decode_ethernet`. -/
def decodeEthernet (frame : Bytes) : Option Segment :=
  if frame.length < 14 then none
  else decodeTagged (bigEndian ((frame.drop 12).take 2)) (frame.drop 14)

/-- `decode_packet`; its length checks leave nothing to raise. -/
def decodePacket (frame : Bytes) (linktype : Nat) : Option Segment :=
  if linktype = 1 then decodeEthernet frame
  else if linktype = 113 then
    if frame.length < 16 then none
    else decodeL3 (frame.drop 16) (bigEndian ((frame.drop 14).take 2))
  else if linktype ∈ [101, 12, 14] then
    let version := typeByte frame >>> 4
    if frame = [] then none
    else if version = 4 then decodeIpv4 frame
    else if version = 6 then decodeIpv6 frame
    else none
  else none

/-! ## Endpoints -/

/-- A text without the dash that joins two endpoints. -/
def Undashed (text : List Char) : Prop := '-' ∉ text

theorem Undashed.append {left right : List Char} (first : Undashed left)
    (second : Undashed right) : Undashed (left ++ right) := by
  intro member
  exact (List.mem_append.mp member).elim first second

theorem undashed_intercalate {separator : List Char} {texts : List (List Char)}
    (between : Undashed separator) (each : ∀ text ∈ texts, Undashed text) :
    Undashed (List.intercalate separator texts) := by
  induction texts with
  | nil => exact List.not_mem_nil
  | cons text rest inductionHypothesis =>
      have later := inductionHypothesis fun other member =>
        each other (List.mem_cons_of_mem _ member)
      cases rest with
      | nil => simpa [Undashed] using each text List.mem_cons_self
      | cons next rest =>
          rw [List.intercalate_cons_cons]
          exact ((each text List.mem_cons_self).append between).append later

theorem undashed_toDigits {base : Nat} (least : 1 < base) (number : Nat) :
    Undashed (Nat.toDigits base number) := by
  induction number using Nat.base_induction base least with
  | single digit small =>
      rw [Nat.toDigits_of_lt_base small, Undashed, List.mem_singleton]
      exact (Nat.digitChar_ne '-' (by decide)).symm
  | digit high low small positive inductionHypothesis =>
      rw [← Nat.toDigits_append_toDigits least positive small]
      apply inductionHypothesis.append
      rw [Nat.toDigits_of_lt_base small, Undashed, List.mem_singleton]
      exact (Nat.digitChar_ne '-' (by decide)).symm

theorem undashed_inetNtop4 (bytes : Bytes) : Undashed (inetNtop4 bytes) := by
  apply undashed_intercalate (by unfold Undashed; decide)
  intro text member
  obtain ⟨byte, _, rfl⟩ := List.mem_map.mp member
  exact undashed_toDigits (by decide) _

theorem undashed_hexWords (words : List Nat) : Undashed (hexWords words) := by
  apply undashed_intercalate (by unfold Undashed; decide)
  intro text member
  obtain ⟨word, _, rfl⟩ := List.mem_map.mp member
  exact undashed_toDigits (by decide) _

theorem undashed_inetNtop6 (bytes : Bytes) : Undashed (inetNtop6 bytes) := by
  unfold inetNtop6
  dsimp only
  split
  · exact undashed_hexWords _
  · split
    · refine Undashed.append (Undashed.append (by unfold Undashed; decide) ?_)
        (undashed_inetNtop4 _)
      intro member
      obtain ⟨word, -, within⟩ := List.mem_flatMap.mp member
      exact (undashed_toDigits (by decide) word).append
        (by unfold Undashed; decide) within
    · refine Undashed.append (Undashed.append (undashed_hexWords _) ?_)
        (undashed_hexWords _)
      unfold Undashed
      decide

theorem srcIp_decodeL4 {proto : Nat} {src dst : List Char} {payload : Bytes}
    {segment : Segment} (decoded : decodeL4 proto src dst payload = some segment) :
    segment.srcIp = src := by
  unfold decodeL4 at decoded
  dsimp only at decoded
  split_ifs at decoded <;> cases decoded <;> rfl

theorem undashed_decodeIpv4 {data : Bytes} {segment : Segment}
    (decoded : decodeIpv4 data = some segment) : Undashed segment.srcIp := by
  unfold decodeIpv4 at decoded
  dsimp only at decoded
  split_ifs at decoded <;> rw [srcIp_decodeL4 decoded] <;> exact undashed_inetNtop4 _

theorem undashed_decodeIpv6 {data : Bytes} {segment : Segment}
    (decoded : decodeIpv6 data = some segment) : Undashed segment.srcIp := by
  unfold decodeIpv6 at decoded
  dsimp only at decoded
  split_ifs at decoded <;> rw [srcIp_decodeL4 decoded] <;> exact undashed_inetNtop6 _

theorem undashed_decodeL3 {data : Bytes} {ethType : Nat} {segment : Segment}
    (decoded : decodeL3 data ethType = some segment) : Undashed segment.srcIp := by
  unfold decodeL3 at decoded
  split_ifs at decoded
  · exact undashed_decodeIpv4 decoded
  · exact undashed_decodeIpv6 decoded

/-- The tags of a frame change nothing of what its packet holds. -/
theorem undashed_decodeTagged {ethType : Nat} {rest : Bytes} {segment : Segment}
    (decoded : decodeTagged ethType rest = some segment) : Undashed segment.srcIp := by
  induction ethType, rest using decodeTagged.induct with
  | case1 ethType first second high low rest tagged inductionHypothesis =>
      rw [decodeTagged, if_pos tagged] at decoded
      exact inductionHypothesis decoded
  | case2 ethType first second high low rest untagged =>
      rw [decodeTagged, if_neg untagged] at decoded
      exact undashed_decodeL3 decoded
  | case3 ethType short isShort tagged =>
      rw [decodeTagged, if_pos tagged] at decoded
      · cases decoded
      · exact isShort
  | case4 ethType short isShort untagged =>
      rw [decodeTagged, if_neg untagged] at decoded
      · exact undashed_decodeL3 decoded
      · exact isShort

/-- The source of whatever is decoded has no dash. -/
theorem undashed_decodePacket {frame : Bytes} {linktype : Nat} {segment : Segment}
    (decoded : decodePacket frame linktype = some segment) : Undashed segment.src := by
  have address : Undashed segment.srcIp := by
    unfold decodePacket decodeEthernet at decoded
    dsimp only at decoded
    split_ifs at decoded
    · exact undashed_decodeTagged decoded
    · exact undashed_decodeL3 decoded
    · exact undashed_decodeIpv4 decoded
    · exact undashed_decodeIpv6 decoded
  have colon : Undashed [':'] := by
    unfold Undashed
    decide
  have port : Undashed ([':'] ++ Nat.toDigits 10 segment.srcPort) :=
    colon.append (undashed_toDigits (by decide) _)
  exact address.append port

/-- `f"{seg.src}->{seg.dst}"`. -/
def Segment.endpoint (segment : Segment) : List Char :=
  segment.src ++ '-' :: '>' :: segment.dst

theorem beforeFirst_endpoint {segment : Segment} (undashed : Undashed segment.src) :
    beforeFirst '-' segment.endpoint = segment.src := by
  rw [Segment.endpoint, beforeFirst_append undashed, beforeFirst_cons, List.append_nil]

/-- The joined text tells the two endpoints. -/
theorem endpoint_inj {first second : Segment} (undashed : Undashed first.src)
    (other : Undashed second.src) (same : first.endpoint = second.endpoint) :
    first.src = second.src ∧ first.dst = second.dst := by
  constructor
  · rw [← beforeFirst_endpoint undashed, ← beforeFirst_endpoint other, same]
  · have later := congrArg (afterFirst '-') same
    rw [Segment.endpoint, Segment.endpoint, afterFirst_append undashed,
      afterFirst_append other] at later
    exact (List.cons.inj later).2

/-- An IPv4 segment behind a VLAN tag, and the addresses of its endpoints. -/
example :
    (decodePacket ([0, 0, 0, 0, 0, 0, 0, 0, 0, 0, 0, 0, 0x81, 0, 0, 5, 8, 0] ++
      [0x45, 0, 0, 41, 0, 0, 0, 0, 64, 6, 0, 0, 10, 0, 0, 1, 10, 0, 0, 2] ++
      [1, 187, 0, 80, 0, 0, 0, 7, 0, 0, 0, 0, 0x50, 0, 0, 0, 0, 0, 0, 0, 9]) 1).map
        (fun segment => (segment.src, segment.payload)) =
      some ("10.0.0.1:443".toList, [9]) := by
  decide

end Probes
end PqcScan
