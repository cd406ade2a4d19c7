import PqcScan.Library.Slices
import PqcScan.Probes.ByteOrder
import PqcScan.Probes.ServerHello

/-!
# Capture files

`iter_packets` of `probes/_pcap.py`: the packets of a classic pcap file or of a
pcapng file with their link types.  Positions in the file are what is left of it.
-/

namespace PqcScan
namespace Probes

open Library Python

/-! ## Reads -/

/-- `struct.unpack` of one unsigned integer. -/
def ByteOrder.unpack (order : ByteOrder) (width : Nat) (bytes : Bytes) :
    Except ReadError Nat :=
  if bytes.length = width then .ok (order.decode bytes)
  else .error (.structError
    ("unpack requires a buffer of " ++ toString width ++ " bytes"))

/-- `try: … except struct.error: return`. -/
def catchStruct : Except ReadError α → Except ReadError (Option α)
  | .ok value => .ok (some value)
  | .error (.structError _) => .ok none
  | .error error => .error error

/-- `try: … except (struct.error, IndexError): return`. -/
def catchRead : Except ReadError α → Except ReadError (Option α)
  | .ok value => .ok (some value)
  | .error (.valueError message) => .error (.valueError message)
  | .error _ => .ok none

/-- What a generator yields, and what it raises at its end. -/
structure Generated (α : Type) where
  items : List α
  raised : Option ReadError
  deriving DecidableEq

namespace Generated

/-- The generator returns. -/
def done : Generated α := ⟨[], none⟩

/-- A generator that raises. -/
def raise (error : ReadError) : Generated α := ⟨[], some error⟩

/-- Yield an item and go on. -/
def yield (item : α) (rest : Generated α) : Generated α :=
  ⟨item :: rest.items, rest.raised⟩

/-- `if item is not None: yield item`. -/
def yieldSome (item : Option α) (rest : Generated α) : Generated α :=
  ⟨item.toList ++ rest.items, rest.raised⟩

end Generated

/-- The bytes of a packet and its link type. -/
abbrev Packet := Bytes × Nat

/-! ## Classic files -/

/-- The loop of `_iter_classic`; every round takes sixteen bytes at least. -/
def classicLoop (order : ByteOrder) (linktype : Nat) : Nat → Bytes → Generated Packet
  | 0, _ => .done
  | fuel + 1, rest =>
      if 16 ≤ rest.length then
        match catchStruct (order.unpack 4 ((rest.drop 8).take 4)) with
        | .error error => .raise error
        | .ok none => .done
        | .ok (some inclLen) =>
            let rest := rest.drop 16
            if inclLen = 0 ∨ rest.length < inclLen then .done
            else
              .yield (rest.take inclLen, linktype)
                (classicLoop order linktype fuel (rest.drop inclLen))
      else .done

/-- `_iter_classic`. -/
def iterClassic (data : Bytes) (order : ByteOrder) : Generated Packet :=
  if data.length < 24 then .done
  else
    match catchStruct (order.unpack 4 ((data.drop 20).take 4)) with
    | .error error => .raise error
    | .ok none => .done
    | .ok (some linktype) => classicLoop order linktype data.length (data.drop 24)

/-! ## pcapng files -/

/-- `_PCAPNG_SHB`. -/
def sectionHeader : Bytes := [0x0A, 0x0D, 0x0D, 0x0A]

/-- The byte order mark of a section. -/
def ByteOrder.mark : ByteOrder → Bytes
  | .big => [0x1A, 0x2B, 0x3C, 0x4D]
  | .little => [0x4D, 0x3C, 0x2B, 0x1A]

/-- The byte order that a mark tells. -/
def ByteOrder.ofMark (bom : Bytes) : Option ByteOrder :=
  if bom = ByteOrder.big.mark then some .big
  else if bom = ByteOrder.little.mark then some .little
  else none

/-- `_pcapng_block`: a packet or none, and the link types of the interfaces so far. -/
def pcapngBlock (blockType : Nat) (body : Bytes) (ifaceLts : List Nat)
    (order : ByteOrder) :
    Except ReadError (Option Packet × List Nat) :=
  if blockType = 1 then
    if 2 ≤ body.length then do
      let lt ← order.unpack 2 (body.take 2)
      pure (none, ifaceLts ++ [lt])
    else pure (none, ifaceLts)
  else if blockType = 6 then
    if body.length < 20 then pure (none, ifaceLts)
    else do
      let ifaceId ← order.unpack 4 (body.take 4)
      let caplen ← order.unpack 4 ((body.drop 12).take 4)
      pure (some ((body.drop 20).take caplen, ifaceLts.getD ifaceId 1), ifaceLts)
  else if blockType = 3 then
    if body.length < 4 then pure (none, ifaceLts)
    else do
      let origlen ← order.unpack 4 (body.take 4)
      pure (some ((body.drop 4).take origlen, ifaceLts.headD 1), ifaceLts)
  else pure (none, ifaceLts)

/-- The reads of a block that starts no section: its total length, and the packet
and the link types once the block is complete. -/
def readBlock (rest : Bytes) (ifaceLts : List Nat) (order : ByteOrder) :
    Except ReadError (Nat × Option Packet × List Nat) := do
  let totalLen ← order.unpack 4 ((rest.drop 4).take 4)
  let blockType ← order.unpack 4 (rest.take 4)
  if totalLen ≤ rest.length then
    let read ← pcapngBlock blockType ((rest.take (totalLen - 4)).drop 8) ifaceLts order
    pure (totalLen, read)
  else pure (totalLen, none, ifaceLts)

/-- The loop of `_iter_pcapng`; every round takes twelve bytes at least.
The first block starts a section, so a total length below four leaves every
other block without a body. -/
def pcapngLoop : Nat → ByteOrder → List Nat → Bytes → Generated Packet
  | 0, _, _, _ => .done
  | fuel + 1, order, ifaceLts, rest =>
      if 12 ≤ rest.length then
        if rest.take 4 = sectionHeader then
          match ByteOrder.ofMark ((rest.drop 8).take 4) with
          | none => .done
          | some order =>
              match catchRead (order.unpack 4 ((rest.drop 4).take 4)) with
              | .error error => .raise error
              | .ok none => .done
              | .ok (some totalLen) =>
                  if totalLen < 12 ∨ rest.length < totalLen then .done
                  else pcapngLoop fuel order [] (rest.drop totalLen)
        else
          match catchRead (readBlock rest ifaceLts order) with
          | .error error => .raise error
          | .ok none => .done
          | .ok (some (totalLen, pkt, ifaceLts)) =>
              .yieldSome pkt
                (if totalLen < 12 ∨ rest.length < totalLen then .done
                else pcapngLoop fuel order ifaceLts (rest.drop totalLen))
      else .done

/-- `_iter_pcapng`. -/
def iterPcapng (data : Bytes) : Generated Packet :=
  pcapngLoop data.length .little [] data

/-- `_PCAP_MAGIC_BE` and `_PCAP_MAGIC_LE`. -/
def pcapMagic : ByteOrder → List Bytes
  | .big => [[0xA1, 0xB2, 0xC3, 0xD4], [0xA1, 0xB2, 0x3C, 0x4D]]
  | .little => [[0xD4, 0xC3, 0xB2, 0xA1], [0x4D, 0x3C, 0xB2, 0xA1]]

/-- `iter_packets`. -/
def iterPackets (data : Bytes) : Generated Packet :=
  if data.length < 4 then .done
  else
    let magic := data.take 4
    if (pcapMagic .big).contains magic then iterClassic data .big
    else if (pcapMagic .little).contains magic then iterClassic data .little
    else if magic = sectionHeader then iterPcapng data
    else .done

/-! ## Totality -/

theorem unpack_eq {order : ByteOrder} {width : Nat} {bytes : Bytes}
    (sized : bytes.length = width) :
    order.unpack width bytes = .ok (order.decode bytes) :=
  if_pos sized

/-- An integer that lies within the bytes is read. -/
theorem unpack_window {order : ByteOrder} {width start : Nat} {bytes : Bytes}
    (within : start + width ≤ bytes.length) :
    order.unpack width ((bytes.drop start).take width) =
      .ok (order.decode ((bytes.drop start).take width)) := by
  apply unpack_eq
  simp only [List.length_take, List.length_drop]
  omega

theorem unpack_head {order : ByteOrder} {width : Nat} {bytes : Bytes}
    (within : width ≤ bytes.length) :
    order.unpack width (bytes.take width) = .ok (order.decode (bytes.take width)) :=
  unpack_eq (List.length_take_of_le within)

/-- A round of the classic loop. -/
theorem classicLoop_succ {order : ByteOrder} {linktype fuel : Nat} {rest : Bytes}
    (long : 16 ≤ rest.length) :
    classicLoop order linktype (fuel + 1) rest =
      (let inclLen := order.decode ((rest.drop 8).take 4)
      if inclLen = 0 ∨ (rest.drop 16).length < inclLen then .done
      else
        .yield ((rest.drop 16).take inclLen, linktype)
          (classicLoop order linktype fuel ((rest.drop 16).drop inclLen))) := by
  rw [classicLoop, if_pos long, unpack_window (by omega)]
  rfl

theorem classicLoop_of_short {order : ByteOrder} {linktype fuel : Nat} {rest : Bytes}
    (short : rest.length < 16) : classicLoop order linktype fuel rest = .done := by
  cases fuel with
  | zero => rfl
  | succ fuel => rw [classicLoop, if_neg (by omega)]

/-- A generator raises nothing and yields slices of the data, in order. -/
def Sound (data : Bytes) (generated : Generated Packet) : Prop :=
  generated.raised = none ∧ Sliced data (generated.items.map Prod.fst)

theorem sound_done (data : Bytes) : Sound data .done := ⟨rfl, .nil data⟩

theorem Sound.of_drop {data : Bytes} (count : Nat) {generated : Generated Packet}
    (sound : Sound (data.drop count) generated) : Sound data generated :=
  ⟨sound.1, sound.2.of_drop count⟩

theorem sound_classicLoop (order : ByteOrder) (linktype fuel : Nat) (rest : Bytes) :
    Sound rest (classicLoop order linktype fuel rest) := by
  induction fuel generalizing rest with
  | zero => exact sound_done rest
  | succ fuel inductionHypothesis =>
      by_cases long : 16 ≤ rest.length
      · rw [classicLoop_succ long]
        dsimp only
        split
        · exact sound_done rest
        · next fits =>
            rw [not_or, Nat.not_lt] at fits
            obtain ⟨none, later⟩ := inductionHypothesis
              ((rest.drop 16).drop (order.decode ((rest.drop 8).take 4)))
            refine ⟨none, ?_⟩
            apply Sliced.of_drop 16
            apply Sliced.cons_of_le (Nat.zero_le _) _ later
            exact List.prefix_refl _
      · rw [classicLoop_of_short (by omega)]
        exact sound_done rest

theorem sound_iterClassic (data : Bytes) (order : ByteOrder) :
    Sound data (iterClassic data order) := by
  unfold iterClassic
  split
  · exact sound_done data
  · rw [unpack_window (by omega)]
    exact (sound_classicLoop order _ _ _).of_drop 24

/-- A block is read, and its packet lies in its body. -/
theorem pcapngBlock_returns (blockType : Nat) (body : Bytes) (ifaceLts : List Nat)
    (order : ByteOrder) :
    ∃ pkt ifaceLts', pcapngBlock blockType body ifaceLts order = .ok (pkt, ifaceLts') ∧
      ∀ packet ∈ pkt, ∃ start, start ≤ body.length ∧ 0 < body.length ∧
        packet.1 <+: body.drop start := by
  unfold pcapngBlock
  split
  · split
    · next long =>
        rw [unpack_head long]
        exact ⟨none, _, rfl, nofun⟩
    · exact ⟨none, _, rfl, nofun⟩
  · split
    · split
      · exact ⟨none, _, rfl, nofun⟩
      · next long =>
          rw [unpack_head (by omega), unpack_window (by omega)]
          refine ⟨some _, _, rfl, ?_⟩
          intro packet member
          rw [← Option.some_inj.mp member]
          exact ⟨20, by omega, by omega, List.take_prefix _ _⟩
    · split
      · split
        · exact ⟨none, _, rfl, nofun⟩
        · next long =>
            rw [unpack_head (by omega)]
            refine ⟨some _, _, rfl, ?_⟩
            intro packet member
            rw [← Option.some_inj.mp member]
            exact ⟨4, by omega, by omega, List.take_prefix _ _⟩
      · exact ⟨none, _, rfl, nofun⟩

/-- A block is read whatever it tells of its length. -/
theorem readBlock_returns {rest : Bytes} (long : 12 ≤ rest.length) (ifaceLts : List Nat)
    (order : ByteOrder) :
    ∃ pkt ifaceLts', readBlock rest ifaceLts order =
        .ok (order.decode ((rest.drop 4).take 4), pkt, ifaceLts') ∧
      ∀ packet ∈ pkt, ∃ start, start ≤ order.decode ((rest.drop 4).take 4) ∧
        packet.1 <+: (rest.take (order.decode ((rest.drop 4).take 4))).drop start := by
  unfold readBlock
  rw [unpack_window (by omega), unpack_head (by omega)]
  generalize order.decode ((rest.drop 4).take 4) = totalLen
  simp only [bind, Except.bind]
  split
  · obtain ⟨pkt, ifaceLts', read, within⟩ := pcapngBlock_returns
      (order.decode (rest.take 4)) ((rest.take (totalLen - 4)).drop 8) ifaceLts order
    rw [read]
    refine ⟨pkt, ifaceLts', rfl, ?_⟩
    intro packet member
    obtain ⟨start, inside, nonempty, placed⟩ := within packet member
    simp only [List.length_drop, List.length_take] at inside nonempty
    refine ⟨8 + start, by omega, placed.trans ?_⟩
    rw [List.drop_drop]
    apply List.IsPrefix.drop
    rw [← Nat.min_eq_left (Nat.sub_le totalLen 4), ← List.take_take]
    exact List.take_prefix _ _
  · exact ⟨none, ifaceLts, rfl, nofun⟩

/-- A round of the loop on a block that starts no section. -/
theorem pcapngLoop_block {order : ByteOrder} {ifaceLts ifaceLts' : List Nat} {fuel : Nat}
    {rest : Bytes} (long : 12 ≤ rest.length) (other : rest.take 4 ≠ sectionHeader)
    {totalLen : Nat} {pkt : Option Packet}
    (read : readBlock rest ifaceLts order = .ok (totalLen, pkt, ifaceLts')) :
    pcapngLoop (fuel + 1) order ifaceLts rest =
      .yieldSome pkt
        (if totalLen < 12 ∨ rest.length < totalLen then .done
        else pcapngLoop fuel order ifaceLts' (rest.drop totalLen)) := by
  rw [pcapngLoop, if_pos long, if_neg other, read]
  rfl

/-- A round of the loop on the block that starts a section. -/
theorem pcapngLoop_section {order order' : ByteOrder} {ifaceLts : List Nat} {fuel : Nat}
    {rest : Bytes} (long : 12 ≤ rest.length) (header : rest.take 4 = sectionHeader)
    (marked : ByteOrder.ofMark ((rest.drop 8).take 4) = some order') :
    pcapngLoop (fuel + 1) order ifaceLts rest =
      (let totalLen := order'.decode ((rest.drop 4).take 4)
      if totalLen < 12 ∨ rest.length < totalLen then .done
      else pcapngLoop fuel order' [] (rest.drop totalLen)) := by
  rw [pcapngLoop, if_pos long, if_pos header, marked]
  dsimp only
  rw [unpack_window (by omega)]
  rfl

/-- Without a byte order mark the loop ends. -/
theorem pcapngLoop_unmarked {order : ByteOrder} {ifaceLts : List Nat} {fuel : Nat}
    {rest : Bytes} (header : rest.take 4 = sectionHeader)
    (marked : ByteOrder.ofMark ((rest.drop 8).take 4) = none) :
    pcapngLoop (fuel + 1) order ifaceLts rest = .done := by
  rw [pcapngLoop, if_pos header, marked]
  exact ite_self _

theorem pcapngLoop_of_short {order : ByteOrder} {ifaceLts : List Nat} {fuel : Nat}
    {rest : Bytes} (short : rest.length < 12) :
    pcapngLoop fuel order ifaceLts rest = .done := by
  cases fuel with
  | zero => rfl
  | succ fuel => rw [pcapngLoop, if_neg (by omega)]

theorem sound_pcapngLoop (order : ByteOrder) (ifaceLts : List Nat) (fuel : Nat)
    (rest : Bytes) : Sound rest (pcapngLoop fuel order ifaceLts rest) := by
  induction fuel generalizing order ifaceLts rest with
  | zero => exact sound_done rest
  | succ fuel inductionHypothesis =>
      by_cases long : 12 ≤ rest.length
      · by_cases header : rest.take 4 = sectionHeader
        · cases marked : ByteOrder.ofMark ((rest.drop 8).take 4) with
          | none =>
              rw [pcapngLoop_unmarked header marked]
              exact sound_done rest
          | some order' =>
              rw [pcapngLoop_section long header marked]
              dsimp only
              split
              · exact sound_done rest
              · exact (inductionHypothesis order' [] _).of_drop _
        · obtain ⟨pkt, ifaceLts', read, within⟩ := readBlock_returns long ifaceLts order
          rw [pcapngLoop_block long header read]
          generalize order.decode ((rest.drop 4).take 4) = totalLen at within
          have later : Sound (rest.drop totalLen)
              (if totalLen < 12 ∨ rest.length < totalLen then .done
              else pcapngLoop fuel order ifaceLts' (rest.drop totalLen)) := by
            split
            · exact sound_done _
            · exact inductionHypothesis order ifaceLts' _
          cases pkt with
          | none => exact later.of_drop totalLen
          | some packet =>
              obtain ⟨start, inside, placed⟩ := within packet rfl
              exact ⟨later.1, Sliced.cons_of_le inside placed later.2⟩
      · rw [pcapngLoop_of_short (by omega)]
        exact sound_done rest

/-! ## Termination -/

/-- Each record takes sixteen bytes at least, so the classic loop ends within the fuel. -/
theorem classicLoop_congr {order : ByteOrder} {linktype fuel fuel' : Nat} {rest : Bytes}
    (enough : rest.length ≤ fuel) (enough' : rest.length ≤ fuel') :
    classicLoop order linktype fuel rest = classicLoop order linktype fuel' rest := by
  induction fuel generalizing fuel' rest with
  | zero => rw [classicLoop_of_short (by omega), classicLoop_of_short (by omega)]
  | succ fuel inductionHypothesis =>
      by_cases long : 16 ≤ rest.length
      · obtain ⟨less, rfl⟩ : ∃ less, fuel' = less + 1 := ⟨fuel' - 1, by omega⟩
        rw [classicLoop_succ long, classicLoop_succ long]
        dsimp only
        split
        · rfl
        · apply congrArg
          apply inductionHypothesis
          all_goals
            simp only [List.length_drop]
            omega
      · rw [classicLoop_of_short (by omega), classicLoop_of_short (by omega)]

/-- The loop goes on only behind a block of twelve bytes at least, so
it ends within the fuel. -/
theorem pcapngLoop_congr {order : ByteOrder} {ifaceLts : List Nat} {fuel fuel' : Nat}
    {rest : Bytes} (enough : rest.length ≤ fuel) (enough' : rest.length ≤ fuel') :
    pcapngLoop fuel order ifaceLts rest = pcapngLoop fuel' order ifaceLts rest := by
  induction fuel generalizing fuel' order ifaceLts rest with
  | zero => rw [pcapngLoop_of_short (by omega), pcapngLoop_of_short (by omega)]
  | succ fuel inductionHypothesis =>
      by_cases long : 12 ≤ rest.length
      · obtain ⟨less, rfl⟩ : ∃ less, fuel' = less + 1 := ⟨fuel' - 1, by omega⟩
        have advance : ∀ (order : ByteOrder) (ifaceLts : List Nat) (totalLen : Nat),
            (if totalLen < 12 ∨ rest.length < totalLen then Generated.done
              else pcapngLoop fuel order ifaceLts (rest.drop totalLen)) =
            if totalLen < 12 ∨ rest.length < totalLen then Generated.done
              else pcapngLoop less order ifaceLts (rest.drop totalLen) := by
          intro order ifaceLts totalLen
          split
          · rfl
          · apply inductionHypothesis
            all_goals
              simp only [List.length_drop]
              omega
        by_cases header : rest.take 4 = sectionHeader
        · cases marked : ByteOrder.ofMark ((rest.drop 8).take 4) with
          | none =>
              rw [pcapngLoop_unmarked header marked, pcapngLoop_unmarked header marked]
          | some order' =>
              rw [pcapngLoop_section long header marked,
                pcapngLoop_section long header marked]
              exact advance order' [] _
        · obtain ⟨pkt, ifaceLts', read, -⟩ := readBlock_returns long ifaceLts order
          rw [pcapngLoop_block long header read, pcapngLoop_block long header read]
          exact congrArg _ (advance order ifaceLts' _)
      · rw [pcapngLoop_of_short (by omega), pcapngLoop_of_short (by omega)]

/-- On every byte string the packets are slices of it in order, and nothing is raised. -/
theorem sound_iterPackets (data : Bytes) : Sound data (iterPackets data) := by
  unfold iterPackets
  split
  · exact sound_done data
  · dsimp only
    split_ifs
    · exact sound_iterClassic data .big
    · exact sound_iterClassic data .little
    · exact sound_pcapngLoop _ _ _ _
    · exact sound_done data

end Probes
end PqcScan
