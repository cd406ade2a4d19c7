import PqcScan.Probes.Pcap
import Mathlib.Data.List.TakeWhile

/-!
# Writing capture files

The layouts of classic pcap and pcapng files.  All packets are read back from a
classic file unless one is empty, and from a pcapng file unless a simple packet
block is cut within a word by the snap length of its interface.
-/

namespace PqcScan
namespace Probes

open Library Python

namespace Generated

/-- Yield the items and go on. -/
def prepend (items : List α) (rest : Generated α) : Generated α :=
  ⟨items ++ rest.items, rest.raised⟩

theorem prepend_prepend (items items' : List α) (rest : Generated α) :
    prepend items (prepend items' rest) = prepend (items ++ items') rest := by
  simp [prepend]

@[simp] theorem prepend_done (items : List α) : prepend items done = ⟨items, none⟩ := by
  simp [prepend, done]

end Generated

open Generated

/-! ## Classic files -/

/-- A packet record: timestamp, captured and original length, captured bytes. -/
structure ClassicRecord where
  timestamp : Bytes
  origLen : Bytes
  data : Bytes
  timestamp_length : timestamp.length = 8
  origLen_length : origLen.length = 4
  data_small : data.length < 256 ^ 4

/-- A classic file; `fields` are the version, the time zone, the accuracy of the
timestamps and the snap length. -/
structure ClassicFile where
  order : ByteOrder
  nanoseconds : Bool
  fields : Bytes
  linktype : Nat
  records : List ClassicRecord
  fields_length : fields.length = 16
  linktype_small : linktype < 256 ^ 4

namespace ClassicRecord

/-- The record as it lies in the file. -/
def bytes (order : ByteOrder) (record : ClassicRecord) : Bytes :=
  record.timestamp ++ (order.pack 4 record.data.length ++ (record.origLen ++ record.data))

end ClassicRecord

namespace ClassicFile

variable (file : ClassicFile)

/-- The magic number of the file. -/
def magic : Bytes :=
  file.order.pack 4 (if file.nanoseconds then 0xA1B23C4D else 0xA1B2C3D4)

/-- The file. -/
def bytes : Bytes :=
  file.magic ++ (file.fields ++ (file.order.pack 4 file.linktype ++
    file.records.flatMap (ClassicRecord.bytes file.order)))

/-- The packets of the file. -/
def packets : List Packet := file.records.map fun record => (record.data, file.linktype)

end ClassicFile

/-- A record is read, and the loop goes on behind it, unless its packet is empty. -/
theorem classicLoop_record (order : ByteOrder) (linktype fuel : Nat)
    (record : ClassicRecord)
    (rest : Bytes) :
    classicLoop order linktype (fuel + 1) (record.bytes order ++ rest) =
      if record.data = [] then .done
      else .yield (record.data, linktype) (classicLoop order linktype fuel rest) := by
  have stamp := record.timestamp_length
  have orig := record.origLen_length
  have head : record.bytes order ++ rest =
      (record.timestamp ++ order.pack 4 record.data.length ++ record.origLen) ++
        (record.data ++ rest) := by
    simp [ClassicRecord.bytes, List.append_assoc]
  have length : ((record.bytes order ++ rest).drop 8).take 4 =
      order.pack 4 record.data.length := by
    rw [ClassicRecord.bytes, List.append_assoc, List.drop_left' stamp, List.append_assoc,
      List.take_left' (order.length_pack 4 _)]
  have after : (record.bytes order ++ rest).drop 16 = record.data ++ rest := by
    rw [head, List.drop_left']
    simp [stamp, orig]
  have long : 16 ≤ (record.bytes order ++ rest).length := by
    simp [head, stamp, orig]
    omega
  rw [classicLoop_succ long, length, after, order.decode_pack record.data_small]
  dsimp only
  by_cases empty : record.data = []
  · rw [if_pos empty, if_pos (Or.inl (by rw [empty]; rfl))]
  · have filled : record.data.length ≠ 0 := fun none =>
      empty (List.length_eq_zero_iff.mp none)
    have within : ¬ (record.data ++ rest).length < record.data.length := by
      rw [List.length_append]
      omega
    rw [if_neg empty, if_neg (not_or.mpr ⟨filled, within⟩), List.take_left' rfl,
      List.drop_left' rfl]

/-- The records up to the first empty packet are read. -/
theorem classicLoop_records (order : ByteOrder) (linktype fuel : Nat)
    (records : List ClassicRecord) :
    classicLoop order linktype (records.length + fuel)
        (records.flatMap (ClassicRecord.bytes order)) =
      ⟨(records.takeWhile fun record => record.data ≠ []).map fun record =>
        (record.data, linktype), none⟩ := by
  induction records with
  | nil => exact classicLoop_of_short (Nat.zero_lt_succ 15)
  | cons record rest inductionHypothesis =>
      have one : (record :: rest).length + fuel = rest.length + fuel + 1 := by
        rw [List.length_cons]
        omega
      rw [one, List.flatMap_cons, classicLoop_record]
      by_cases empty : record.data = []
      · rw [if_pos empty, List.takeWhile_cons_of_neg (by simpa using empty)]
        rfl
      · rw [if_neg empty, inductionHypothesis,
          List.takeWhile_cons_of_pos (by simpa using empty)]
        rfl

namespace ClassicFile

variable (file : ClassicFile)

theorem length_records (order : ByteOrder) (records : List ClassicRecord) :
    records.length ≤ (records.flatMap (ClassicRecord.bytes order)).length := by
  induction records with
  | nil => exact le_refl _
  | cons record rest inductionHypothesis =>
      have stamp := record.timestamp_length
      simp only [List.flatMap_cons, List.length_append, List.length_cons,
        ClassicRecord.bytes]
      omega

/-- The magic number tells the byte order. -/
theorem iterPackets_bytes :
    iterPackets file.bytes = iterClassic file.bytes file.order := by
  have fields := file.fields_length
  have magic : file.bytes.take 4 = file.magic :=
    List.take_left' (file.order.length_pack 4 _)
  have long : ¬ file.bytes.length < 4 := by
    simp [bytes, ClassicFile.magic]
  rw [iterPackets, if_neg long, magic, ClassicFile.magic]
  generalize file.nanoseconds = nanoseconds
  cases file.order with
  | big =>
      rw [if_pos]
      revert nanoseconds
      decide
  | little =>
      rw [if_neg, if_pos]
      · revert nanoseconds
        decide
      · revert nanoseconds
        decide

/-- The packets up to the first empty one are read. -/
theorem iterClassic_bytes :
    iterClassic file.bytes file.order =
      ⟨(file.records.takeWhile fun record => record.data ≠ []).map fun record =>
        (record.data, file.linktype), none⟩ := by
  have fields := file.fields_length
  have sized : file.magic.length = 4 := file.order.length_pack 4 _
  have front : (file.magic ++ file.fields).length = 20 := by
    rw [List.length_append, sized, fields]
  have linktype : file.bytes.drop 20 = file.order.pack 4 file.linktype ++
      file.records.flatMap (ClassicRecord.bytes file.order) := by
    rw [bytes, ← List.append_assoc, List.drop_left' front]
  have records : file.bytes.drop 24 =
      file.records.flatMap (ClassicRecord.bytes file.order) := by
    have sum : 24 = 20 + 4 := rfl
    rw [sum, ← List.drop_drop, linktype, List.drop_left' (file.order.length_pack 4 _)]
  have long : 24 + file.records.length ≤ file.bytes.length := by
    have many := length_records file.order file.records
    simp only [bytes, List.length_append, sized, fields, ByteOrder.length_pack]
    omega
  obtain ⟨fuel, enough⟩ := Nat.exists_eq_add_of_le (by omega :
    file.records.length ≤ file.bytes.length)
  rw [iterClassic, if_neg (by omega), unpack_window (by omega), linktype,
    file.order.decode_take_pack file.linktype_small]
  change classicLoop file.order file.linktype file.bytes.length (file.bytes.drop 24) = _
  rw [enough, records, classicLoop_records]

/-- All packets are read exactly when none is empty. -/
theorem packets_read_iff :
    iterPackets file.bytes = ⟨file.packets, none⟩ ↔
      ∀ record ∈ file.records, record.data ≠ [] := by
  rw [iterPackets_bytes, iterClassic_bytes, packets, Generated.mk.injEq,
    and_iff_left rfl]
  constructor
  · intro same
    have lengths := congrArg List.length same
    rw [List.length_map, List.length_map] at lengths
    have whole := (List.takeWhile_prefix (l := file.records)
      fun record => decide (record.data ≠ [])).eq_of_length lengths
    simpa using List.takeWhile_eq_self_iff.mp whole
  · intro filled
    rw [List.takeWhile_eq_self_iff.mpr (by simpa using filled)]

end ClassicFile

/-! ## pcapng files -/

/-- What an interface block tells of an interface; a snap length of zero is no limit. -/
structure Interface where
  linktype : Nat
  snapLen : Nat

/-- How many bytes of a packet an interface captures. -/
def Interface.captured (iface : Interface) (origLen : Nat) : Nat :=
  if iface.snapLen = 0 then origLen else min origLen iface.snapLen

/-- A block of a section; `padding` fills the captured bytes up to a whole word. -/
inductive PcapngBlock
  | interfaceDescription (iface : Interface) (reserved options : Bytes)
  | enhancedPacket (ifaceId : Nat) (timestamp : Bytes) (origLen : Nat)
      (data padding options : Bytes)
  | simplePacket (origLen : Nat) (data padding : Bytes)
  | other (type : Nat) (body : Bytes)

/-- The padding fills the last word of the data. -/
def Padded (data padding : Bytes) : Prop :=
  padding.length < 4 ∧ (data.length + padding.length) % 4 = 0

namespace PcapngBlock

/-- The type of a block. -/
def type : PcapngBlock → Nat
  | .interfaceDescription _ _ _ => 1
  | .enhancedPacket _ _ _ _ _ _ => 6
  | .simplePacket _ _ _ => 3
  | .other type _ => type

/-- What stands between the lengths of a block. -/
def body (order : ByteOrder) : PcapngBlock → Bytes
  | .interfaceDescription iface reserved options =>
      order.pack 2 iface.linktype ++ (reserved ++ (order.pack 4 iface.snapLen ++ options))
  | .enhancedPacket ifaceId timestamp origLen data padding options =>
      order.pack 4 ifaceId ++ (timestamp ++ (order.pack 4 data.length ++
        (order.pack 4 origLen ++ (data ++ (padding ++ options)))))
  | .simplePacket origLen data padding => order.pack 4 origLen ++ (data ++ padding)
  | .other _ body => body

/-- The total length of a block with this body. -/
def totalLength (body : Bytes) : Nat := 12 + body.length

/-- A block of the given type: the total length stands before and after the body. -/
def wrap (order : ByteOrder) (type : Nat) (body : Bytes) : Bytes :=
  order.pack 4 type ++ (order.pack 4 (totalLength body) ++
    (body ++ order.pack 4 (totalLength body)))

/-- The block as it lies in the file. -/
def bytes (order : ByteOrder) (block : PcapngBlock) : Bytes :=
  wrap order block.type (block.body order)

/-- The interfaces of the section after the block. -/
def declare (ifaces : List Interface) : PcapngBlock → List Interface
  | .interfaceDescription iface _ _ => ifaces ++ [iface]
  | _ => ifaces

/-- The packet of the block, with the link type of its interface. -/
def packet? (ifaces : List Interface) : PcapngBlock → Option Packet
  | .enhancedPacket ifaceId _ _ data _ _ =>
      ifaces[ifaceId]?.map fun iface => (data, iface.linktype)
  | .simplePacket _ data _ => ifaces.head?.map fun iface => (data, iface.linktype)
  | _ => none

/-- The fields fit, and a packet belongs to an interface of the section.  A simple
packet is captured under the snap length of the first one. -/
def Fits (order : ByteOrder) (ifaces : List Interface) (block : PcapngBlock) : Prop :=
  totalLength (block.body order) < 256 ^ 4 ∧
    match block with
    | .interfaceDescription iface reserved _ =>
        iface.linktype < 256 ^ 2 ∧ iface.snapLen < 256 ^ 4 ∧ reserved.length = 2
    | .enhancedPacket ifaceId timestamp origLen data padding _ =>
        ifaceId < ifaces.length ∧ ifaceId < 256 ^ 4 ∧ timestamp.length = 8 ∧
          origLen < 256 ^ 4 ∧ Padded data padding
    | .simplePacket origLen data padding =>
        origLen < 256 ^ 4 ∧ Padded data padding ∧
          ∃ iface ∈ ifaces.head?, data.length = iface.captured origLen
    | .other type _ => type < 256 ^ 4 ∧ type ∉ [1, 3, 6, 0x0A0D0D0A]

/-- A simple packet is captured whole, or up to the end of a word. -/
def Aligned : PcapngBlock → Prop
  | .simplePacket origLen data _ => origLen = data.length ∨ data.length % 4 = 0
  | _ => True

end PcapngBlock

/-- The blocks of a section fit, each after those before it. -/
def BlocksFit (order : ByteOrder) : List Interface → List PcapngBlock → Prop
  | _, [] => True
  | ifaces, block :: rest =>
      block.Fits order ifaces ∧ BlocksFit order (block.declare ifaces) rest

/-- The packets of the blocks of a section. -/
def blockPackets : List Interface → List PcapngBlock → List Packet
  | _, [] => []
  | ifaces, block :: rest =>
      (block.packet? ifaces).toList ++ blockPackets (block.declare ifaces) rest

/-- A section; `info` holds the version, the length of the section and options. -/
structure PcapngSection where
  order : ByteOrder
  info : Bytes
  blocks : List PcapngBlock
  info_length : 12 ≤ info.length
  info_small : info.length + 16 < 256 ^ 4
  blocks_fit : BlocksFit order [] blocks

namespace PcapngSection

/-- The body of the section header block. -/
def headerBody (sect : PcapngSection) : Bytes :=
  sect.order.pack 4 0x1A2B3C4D ++ sect.info

/-- The section as it lies in the file. -/
def bytes (sect : PcapngSection) : Bytes :=
  PcapngBlock.wrap sect.order 0x0A0D0D0A sect.headerBody ++
    sect.blocks.flatMap (PcapngBlock.bytes sect.order)

/-- The packets that are read of the section. -/
def packets (sect : PcapngSection) : List Packet := blockPackets [] sect.blocks

end PcapngSection

/-- The bytes of a pcapng file. -/
def pcapngBytes (sections : List PcapngSection) : Bytes :=
  sections.flatMap PcapngSection.bytes

/-- The packets of a pcapng file. -/
def pcapngPackets (sections : List PcapngSection) : List Packet :=
  sections.flatMap PcapngSection.packets

/-! ## Reading a block -/

namespace PcapngBlock

/-- What is read of a block: a simple packet with what its original
length takes of the padding. -/
def read? (ifaces : List Interface) : PcapngBlock → Option Packet
  | .simplePacket origLen data padding =>
      ifaces.head?.map fun iface => ((data ++ padding).take origLen, iface.linktype)
  | block => block.packet? ifaces

section Wrap

variable (order : ByteOrder) (type : Nat) (body rest : Bytes)

theorem length_wrap : (wrap order type body).length = totalLength body := by
  simp only [wrap, totalLength, List.length_append, ByteOrder.length_pack]
  omega

theorem drop_wrap : (wrap order type body ++ rest).drop (totalLength body) = rest :=
  List.drop_left' (length_wrap order type body)

theorem take_wrap : (wrap order type body ++ rest).take 4 = order.pack 4 type := by
  rw [wrap, List.append_assoc, List.take_left' (order.length_pack 4 type)]

theorem length_in_wrap :
    ((wrap order type body ++ rest).drop 4).take 4 = order.pack 4 (totalLength body) := by
  rw [wrap, List.append_assoc, List.drop_left' (order.length_pack 4 type),
    List.append_assoc, List.take_left' (order.length_pack 4 _)]

theorem after_wrap_head :
    (wrap order type body ++ rest).drop 8 =
      body ++ (order.pack 4 (totalLength body) ++ rest) := by
  have sum : 8 = 4 + 4 := rfl
  rw [wrap, sum, ← List.drop_drop, List.append_assoc,
    List.drop_left' (order.length_pack 4 type), List.append_assoc,
    List.drop_left' (order.length_pack 4 _), List.append_assoc]

theorem body_in_wrap :
    ((wrap order type body ++ rest).take (totalLength body - 4)).drop 8 = body := by
  rw [List.drop_take, after_wrap_head, totalLength]
  apply List.take_left'
  omega

theorem le_length_wrap : totalLength body ≤ (wrap order type body ++ rest).length := by
  rw [List.length_append, length_wrap]
  omega

end Wrap

/-- The reads of a wrapped block. -/
theorem readBlock_wrap {order : ByteOrder} {type : Nat} {body : Bytes} (rest : Bytes)
    (ifaceLts : List Nat) (type_small : type < 256 ^ 4)
    (small : totalLength body < 256 ^ 4)
    {read : Option Packet × List Nat}
    (inner : pcapngBlock type body ifaceLts order = .ok read) :
    readBlock (wrap order type body ++ rest) ifaceLts order =
      .ok (totalLength body, read) := by
  have long := le_length_wrap order type body rest
  have twelve : 12 ≤ totalLength body := Nat.le_add_right _ _
  rw [readBlock, unpack_window (by omega), unpack_head (by omega),
    length_in_wrap, take_wrap, order.decode_pack small, order.decode_pack type_small]
  simp only [bind, Except.bind]
  rw [if_pos long, body_in_wrap, inner]
  rfl

theorem unpack_pack_append {order : ByteOrder} {width n : Nat} (small : n < 256 ^ width)
    (rest : Bytes) : order.unpack width ((order.pack width n ++ rest).take width) =
      .ok n := by
  rw [List.take_left' (order.length_pack width n), unpack_eq (order.length_pack width n),
    order.decode_pack small]

/-- What `_pcapng_block` makes of a block that fits. -/
theorem pcapngBlock_body {order : ByteOrder} {ifaces : List Interface}
    {block : PcapngBlock}
    (fits : block.Fits order ifaces) :
    pcapngBlock block.type (block.body order) (ifaces.map Interface.linktype) order =
      .ok (block.read? ifaces, (block.declare ifaces).map Interface.linktype) := by
  obtain ⟨small, fits⟩ := fits
  cases block with
  | interfaceDescription iface reserved options =>
      obtain ⟨linktype, -, -⟩ := fits
      have long : 2 ≤ (order.pack 2 iface.linktype ++
          (reserved ++ (order.pack 4 iface.snapLen ++ options))).length := by
        rw [List.length_append, ByteOrder.length_pack]
        omega
      change pcapngBlock 1 _ _ _ = _
      rw [pcapngBlock, if_pos rfl, body, if_pos long, unpack_pack_append linktype]
      simp [bind, Except.bind, pure, Except.pure, read?, packet?, declare]
  | enhancedPacket ifaceId timestamp origLen data padding options =>
      obtain ⟨declared, ifaceId_small, stamp, -, -⟩ := fits
      have data_small : data.length < 256 ^ 4 := by
        apply lt_of_le_of_lt _ small
        simp only [totalLength, body, List.length_append]
        omega
      have caplen : ((order.pack 4 ifaceId ++ (timestamp ++ (order.pack 4 data.length ++
          (order.pack 4 origLen ++ (data ++ (padding ++ options)))))).drop 12).take 4 =
            order.pack 4 data.length := by
        rw [← List.append_assoc, List.drop_left' (by simp [stamp]),
          List.take_left' (order.length_pack 4 _)]
      have captured : ((order.pack 4 ifaceId ++ (timestamp ++ (order.pack 4 data.length ++
          (order.pack 4 origLen ++ (data ++ (padding ++ options)))))).drop 20).take
            data.length = data := by
        rw [← List.append_assoc, ← List.append_assoc, ← List.append_assoc,
          List.drop_left' (by simp [stamp]), List.take_left' rfl]
      have long : ¬ (order.pack 4 ifaceId ++ (timestamp ++ (order.pack 4 data.length ++
          (order.pack 4 origLen ++ (data ++ (padding ++ options)))))).length < 20 := by
        simp only [List.length_append, ByteOrder.length_pack, stamp]
        omega
      change pcapngBlock 6 _ _ _ = _
      rw [pcapngBlock, if_neg (by decide), if_pos rfl, body, if_neg long,
        unpack_pack_append ifaceId_small, caplen, unpack_eq (order.length_pack 4 _),
        order.decode_pack data_small]
      simp [bind, Except.bind, pure, Except.pure, read?, packet?, declare,
        captured, declared]
  | simplePacket origLen data padding =>
      obtain ⟨origLen_small, -, iface, first, -⟩ := fits
      have long : ¬ (order.pack 4 origLen ++ (data ++ padding)).length < 4 := by
        rw [List.length_append, ByteOrder.length_pack]
        omega
      have head : (ifaces.map Interface.linktype).headD 1 = iface.linktype := by
        rw [List.headD_eq_head?_getD, List.head?_map, first]
        rfl
      change pcapngBlock 3 _ _ _ = _
      rw [pcapngBlock, if_neg (by decide), if_neg (by decide), if_pos rfl, body,
        if_neg long, unpack_pack_append origLen_small]
      simp only [bind, Except.bind, pure, Except.pure, read?, declare]
      rw [head, List.drop_left' (order.length_pack 4 _), first]
      rfl
  | other type body =>
      obtain ⟨-, unknown⟩ := fits
      simp only [List.mem_cons, List.not_mem_nil, or_false, not_or] at unknown
      simp [PcapngBlock.type, pcapngBlock, unknown, pure, Except.pure, read?,
        packet?, declare]

/-- No other block looks like the start of a section. -/
theorem pack_type_ne {order : ByteOrder} {ifaces : List Interface} {block : PcapngBlock}
    (fits : block.Fits order ifaces) :
    block.type < 256 ^ 4 ∧ order.pack 4 block.type ≠ sectionHeader := by
  have known : block.type < 256 ^ 4 ∧ block.type ≠ 0x0A0D0D0A := by
    obtain ⟨-, fits⟩ := fits
    cases block with
    | interfaceDescription iface reserved options => exact ⟨by simp [type], nofun⟩
    | enhancedPacket ifaceId timestamp origLen data padding options =>
        exact ⟨by simp [type], nofun⟩
    | simplePacket origLen data padding => exact ⟨by simp [type], nofun⟩
    | other type body =>
        obtain ⟨type_small, unknown⟩ := fits
        refine ⟨type_small, ?_⟩
        rintro rfl
        simp at unknown
  refine ⟨known.1, fun same => known.2 ?_⟩
  have decoded := congrArg order.decode same
  rw [order.decode_pack known.1] at decoded
  rw [decoded]
  cases order with
  | big => decide
  | little => decide

/-- A block is read, and the loop goes on behind it. -/
theorem pcapngLoop_bytes {order : ByteOrder} {ifaces : List Interface}
    {block : PcapngBlock}
    (fits : block.Fits order ifaces) (fuel : Nat) (rest : Bytes) :
    pcapngLoop (fuel + 1) order (ifaces.map Interface.linktype)
    (block.bytes order ++ rest) =
      prepend (block.read? ifaces).toList
        (pcapngLoop fuel order ((block.declare ifaces).map Interface.linktype) rest) := by
  obtain ⟨type_small, other⟩ := pack_type_ne fits
  have long := le_length_wrap order block.type (block.body order) rest
  have twelve : 12 ≤ totalLength (block.body order) := Nat.le_add_right _ _
  have read := readBlock_wrap rest (ifaces.map Interface.linktype) type_small fits.1
    (pcapngBlock_body fits)
  have header : (wrap order block.type (block.body order) ++ rest).take 4 ≠
      sectionHeader := by
    rw [take_wrap]
    exact other
  rw [bytes, pcapngLoop_block (by omega) header read, if_neg (by omega), drop_wrap]
  rfl

/-- A block gives a packet if its reading does. -/
theorem length_read? (ifaces : List Interface) (block : PcapngBlock) :
    (block.read? ifaces).toList.length = (block.packet? ifaces).toList.length := by
  cases block with
  | simplePacket origLen data padding =>
      rw [read?, packet?]
      cases ifaces.head? with
      | none => rfl
      | some iface => rfl
  | _ => rfl

/-- The packet of a block is read as it was captured exactly when it
is not cut within a word. -/
theorem read?_eq_iff {order : ByteOrder} {ifaces : List Interface} {block : PcapngBlock}
    (fits : block.Fits order ifaces) :
    (block.read? ifaces).toList = (block.packet? ifaces).toList ↔ block.Aligned := by
  cases block with
  | simplePacket origLen data padding =>
      obtain ⟨-, -, ⟨fewer, filled⟩, iface, first, captured⟩ := fits
      have within : data.length ≤ origLen := by
        rw [captured, Interface.captured]
        split
        · exact le_refl _
        · exact Nat.min_le_left _ _
      have exact_ : (data ++ padding).take origLen = data ↔
          origLen = data.length ∨ data.length % 4 = 0 := by
        rw [List.take_append, List.take_of_length_le within, List.append_right_eq_self,
          List.take_eq_nil_iff, ← List.length_eq_zero_iff]
        omega
      rw [read?, packet?, first, Aligned, ← exact_]
      simp
  | interfaceDescription iface reserved options => exact iff_of_true rfl trivial
  | enhancedPacket ifaceId timestamp origLen data padding options =>
      exact iff_of_true rfl trivial
  | other type body => exact iff_of_true rfl trivial

end PcapngBlock

/-! ## Reading a file -/

/-- What is read of the blocks of a section. -/
def blockReads : List Interface → List PcapngBlock → List Packet
  | _, [] => []
  | ifaces, block :: rest =>
      (block.read? ifaces).toList ++ blockReads (block.declare ifaces) rest

/-- The blocks are read one after the other. -/
theorem pcapngLoop_blocks {order : ByteOrder} {ifaces : List Interface}
    {blocks : List PcapngBlock} (fit : BlocksFit order ifaces blocks) (fuel : Nat)
    (rest : Bytes) :
    ∃ ifaceLts, pcapngLoop (blocks.length + fuel) order (ifaces.map Interface.linktype)
        (blocks.flatMap (PcapngBlock.bytes order) ++ rest) =
      prepend (blockReads ifaces blocks) (pcapngLoop fuel order ifaceLts rest) := by
  induction blocks generalizing ifaces with
  | nil =>
      refine ⟨ifaces.map Interface.linktype, ?_⟩
      rw [List.length_nil, Nat.zero_add]
      rfl
  | cons block blocks inductionHypothesis =>
      obtain ⟨ifaceLts, later⟩ := inductionHypothesis fit.2
      refine ⟨ifaceLts, ?_⟩
      have one : (block :: blocks).length + fuel = blocks.length + fuel + 1 := by
        rw [List.length_cons]
        omega
      rw [one, List.flatMap_cons, List.append_assoc,
        PcapngBlock.pcapngLoop_bytes fit.1, later, prepend_prepend]
      rfl

/-- The blocks are read as they were captured exactly when none is cut within a word. -/
theorem blockReads_eq_iff {order : ByteOrder} {ifaces : List Interface}
    {blocks : List PcapngBlock} (fit : BlocksFit order ifaces blocks) :
    blockReads ifaces blocks = blockPackets ifaces blocks ↔
      ∀ block ∈ blocks, block.Aligned := by
  induction blocks generalizing ifaces with
  | nil => exact iff_of_true rfl nofun
  | cons block blocks inductionHypothesis =>
      rw [blockReads, blockPackets, List.forall_mem_cons, ← inductionHypothesis fit.2,
        ← PcapngBlock.read?_eq_iff fit.1]
      constructor
      · intro same
        exact List.append_inj same (PcapngBlock.length_read? ifaces block)
      · rintro ⟨here, later⟩
        rw [here, later]

theorem length_blockReads (ifaces : List Interface) (blocks : List PcapngBlock) :
    (blockReads ifaces blocks).length = (blockPackets ifaces blocks).length := by
  induction blocks generalizing ifaces with
  | nil => rfl
  | cons block blocks inductionHypothesis =>
      rw [blockReads, blockPackets, List.length_append, List.length_append,
        PcapngBlock.length_read?, inductionHypothesis]

namespace PcapngSection

variable (sect : PcapngSection)

/-- What is read of a section. -/
def reads : List Packet := blockReads [] sect.blocks

theorem ofMark_pack (order : ByteOrder) :
    ByteOrder.ofMark (order.pack 4 0x1A2B3C4D) = some order := by
  cases order with
  | big => decide
  | little => decide

theorem pack_sectionHeader (order : ByteOrder) :
    order.pack 4 0x0A0D0D0A = sectionHeader := by
  cases order with
  | big => decide
  | little => decide

/-- A section is read whatever came before it. -/
theorem pcapngLoop_bytes (order : ByteOrder) (ifaceLts : List Nat) (fuel : Nat)
    (rest : Bytes) :
    ∃ ifaceLts', pcapngLoop (sect.blocks.length + 1 + fuel) order ifaceLts
        (sect.bytes ++ rest) =
      prepend sect.reads (pcapngLoop fuel sect.order ifaceLts' rest) := by
  obtain ⟨ifaceLts', blocks⟩ := pcapngLoop_blocks sect.blocks_fit fuel rest
  refine ⟨ifaceLts', ?_⟩
  have one : sect.blocks.length + 1 + fuel = sect.blocks.length + fuel + 1 := by omega
  have sized : PcapngBlock.totalLength sect.headerBody = 16 + sect.info.length := by
    simp only [PcapngBlock.totalLength, headerBody, List.length_append,
      ByteOrder.length_pack]
    omega
  have small : PcapngBlock.totalLength sect.headerBody < 256 ^ 4 := by
    have bound := sect.info_small
    omega
  rw [one, bytes, List.append_assoc]
  generalize later : sect.blocks.flatMap (PcapngBlock.bytes sect.order) ++ rest = tail
  rw [later] at blocks
  have long := PcapngBlock.le_length_wrap sect.order 0x0A0D0D0A sect.headerBody tail
  have marked : ByteOrder.ofMark
      (((PcapngBlock.wrap sect.order 0x0A0D0D0A sect.headerBody ++
      tail).drop 8).take 4) = some sect.order := by
    rw [PcapngBlock.after_wrap_head, headerBody, List.append_assoc,
      List.take_left' (sect.order.length_pack 4 _), ofMark_pack]
  have header : (PcapngBlock.wrap sect.order 0x0A0D0D0A sect.headerBody ++ tail).take 4 =
      sectionHeader := by
    rw [PcapngBlock.take_wrap, pack_sectionHeader]
  rw [pcapngLoop_section (by omega) header marked, PcapngBlock.length_in_wrap,
    sect.order.decode_pack small]
  dsimp only
  rw [if_neg (by omega), PcapngBlock.drop_wrap]
  exact blocks

end PcapngSection

/-- The sections are read one after the other. -/
theorem pcapngLoop_sections (order : ByteOrder) (ifaceLts : List Nat)
    (sections : List PcapngSection) (fuel : Nat) :
    pcapngLoop ((sections.map fun sect => sect.blocks.length + 1).sum +
      fuel) order ifaceLts
        (pcapngBytes sections) =
      ⟨sections.flatMap PcapngSection.reads, none⟩ := by
  induction sections generalizing order ifaceLts with
  | nil => exact pcapngLoop_of_short (by decide)
  | cons sect rest inductionHypothesis =>
      obtain ⟨ifaceLts', here⟩ := sect.pcapngLoop_bytes order ifaceLts
        ((rest.map fun sect => sect.blocks.length + 1).sum + fuel) (pcapngBytes rest)
      rw [List.map_cons, List.sum_cons, Nat.add_assoc, pcapngBytes, List.flatMap_cons]
      exact here.trans (congrArg (prepend sect.reads)
        (inductionHypothesis sect.order ifaceLts'))

/-- Every block has twelve bytes at least. -/
theorem blocks_le_length (sections : List PcapngSection) :
    (sections.map fun sect => sect.blocks.length + 1).sum ≤
      (pcapngBytes sections).length := by
  have blocks_le (order : ByteOrder) (blocks : List PcapngBlock) :
      blocks.length ≤ (blocks.flatMap (PcapngBlock.bytes order)).length := by
    induction blocks with
    | nil => exact le_refl _
    | cons block rest inductionHypothesis =>
        have sized : (block.bytes order).length = 12 + (block.body order).length :=
          PcapngBlock.length_wrap _ _ _
        rw [List.flatMap_cons, List.length_append, List.length_cons, sized]
        omega
  induction sections with
  | nil => exact le_refl _
  | cons sect rest inductionHypothesis =>
      have here := blocks_le sect.order sect.blocks
      rw [List.map_cons, List.sum_cons, pcapngBytes, List.flatMap_cons,
        List.length_append, PcapngSection.bytes, List.length_append,
        PcapngBlock.length_wrap, PcapngBlock.totalLength]
      unfold pcapngBytes at inductionHypothesis
      omega

/-- What is read of a pcapng file. -/
theorem iterPackets_pcapng (sections : List PcapngSection) :
    iterPackets (pcapngBytes sections) =
      ⟨sections.flatMap PcapngSection.reads, none⟩ := by
  cases sections with
  | nil => rfl
  | cons sect rest =>
      have header : (pcapngBytes (sect :: rest)).take 4 = sectionHeader := by
        rw [pcapngBytes, List.flatMap_cons, PcapngSection.bytes, List.append_assoc,
          PcapngBlock.take_wrap, PcapngSection.pack_sectionHeader]
      have many := blocks_le_length (sect :: rest)
      have long : ¬ (pcapngBytes (sect :: rest)).length < 4 := by
        intro short
        have less := congrArg List.length header
        rw [List.length_take] at less
        change _ = 4 at less
        omega
      obtain ⟨fuel, enough⟩ := Nat.exists_eq_add_of_le many
      rw [iterPackets, if_neg long, header, iterPcapng, enough]
      exact pcapngLoop_sections _ _ _ fuel

/-- All packets of a pcapng file are read exactly when none is cut within a word. -/
theorem pcapng_read_iff (sections : List PcapngSection) :
    iterPackets (pcapngBytes sections) = ⟨pcapngPackets sections, none⟩ ↔
      ∀ sect ∈ sections, ∀ block ∈ sect.blocks, block.Aligned := by
  rw [iterPackets_pcapng, Generated.mk.injEq, and_iff_left rfl, pcapngPackets]
  induction sections with
  | nil => exact iff_of_true rfl nofun
  | cons sect rest inductionHypothesis =>
      rw [List.flatMap_cons, List.flatMap_cons,
        List.forall_mem_cons, ← inductionHypothesis, ← blockReads_eq_iff sect.blocks_fit]
      constructor
      · intro same
        exact List.append_inj same (length_blockReads [] sect.blocks)
      · rintro ⟨here, later⟩
        rw [later]
        exact congrArg (· ++ _) here

/-- All packets of a classic file are read exactly when none is empty, and all packets of
a pcapng file exactly when no simple packet is cut within a word.  On every byte string
the loops end, nothing is raised, and the packets are slices of the data in order. -/
theorem captures_read_iff (file : ClassicFile) (sections : List PcapngSection)
    (data : Bytes)
    (order : ByteOrder) (rest : Bytes) (more : Nat) :
    (iterPackets file.bytes = ⟨file.packets, none⟩ ↔
        ∀ record ∈ file.records, record.data ≠ []) ∧
      (iterPackets (pcapngBytes sections) = ⟨pcapngPackets sections, none⟩ ↔
        ∀ sect ∈ sections, ∀ block ∈ sect.blocks, block.Aligned) ∧
      ((iterPackets data).raised = none ∧
        Sliced data ((iterPackets data).items.map Prod.fst)) ∧
      (∀ linktype, classicLoop order linktype (rest.length + more) rest =
        classicLoop order linktype rest.length rest) ∧
      ∀ ifaceLts, pcapngLoop (rest.length + more) order ifaceLts rest =
        pcapngLoop rest.length order ifaceLts rest := by
  refine ⟨file.packets_read_iff, pcapng_read_iff sections, sound_iterPackets data, ?_, ?_⟩
  · intro linktype
    exact classicLoop_congr (by omega) (le_refl _)
  · intro ifaceLts
    exact pcapngLoop_congr (by omega) (le_refl _)

/-- A packet after an empty one. -/
def emptyFirst : ClassicFile where
  order := .little
  nanoseconds := false
  fields := [2, 0, 4, 0, 0, 0, 0, 0, 0, 0, 0, 0, 0, 0, 4, 0]
  linktype := 1
  records :=
    [⟨[0, 0, 0, 0, 0, 0, 0, 0], [0, 0, 0, 0], [], rfl, rfl, by decide⟩,
      ⟨[1, 0, 0, 0, 0, 0, 0, 0], [1, 0, 0, 0], [7], rfl, rfl, by decide⟩]
  fields_length := rfl
  linktype_small := by decide

/-- A simple packet of two bytes, captured up to the first. -/
def snapped : PcapngSection where
  order := .big
  info := [0, 1, 0, 0, 255, 255, 255, 255, 255, 255, 255, 255]
  blocks :=
    [.interfaceDescription ⟨1, 1⟩ [0, 0] [], .simplePacket 2 [7] [0, 0, 0]]
  info_length := by decide
  info_small := by decide
  blocks_fit := by
    refine ⟨⟨by decide, by decide, by decide, by decide⟩, ⟨by decide, by decide, ?_, ?_⟩,
      trivial⟩
    · exact ⟨by decide, by decide⟩
    · exact ⟨⟨1, 1⟩, rfl, by decide⟩

/-- The packet after an empty one is lost, and a snapped packet is read
with a byte of its padding. -/
theorem captures_misread :
    ¬ ((∀ file : ClassicFile, iterPackets file.bytes = ⟨file.packets, none⟩) ∧
        ∀ sections : List PcapngSection,
          iterPackets (pcapngBytes sections) = ⟨pcapngPackets sections, none⟩) ∧
      iterPackets emptyFirst.bytes = ⟨[], none⟩ ∧
      emptyFirst.packets = [([], 1), ([7], 1)] ∧
      iterPackets (pcapngBytes [snapped]) = ⟨[([7, 0], 1)], none⟩ ∧
      pcapngPackets [snapped] = [([7], 1)] := by
  have lost : iterPackets emptyFirst.bytes = ⟨[], none⟩ := by decide +kernel
  refine ⟨?_, lost, rfl, by decide +kernel, by decide +kernel⟩
  rintro ⟨read, -⟩
  have same := read emptyFirst
  rw [lost] at same
  cases same

end Probes
end PqcScan
