import PqcScan.Probes.IkePacket

/-!
# Reading IKE packets back

`parse_sa_payload` undoes `build_sa_payload`, `extract_sa_payload` finds the first SA
payload of a chain, and both return on every byte string.
-/

namespace PqcScan
namespace Probes
namespace Ike

open Library Python

/-! ## Totality -/

theorem unpackBxH_window {bytes : Bytes} {off : Nat} (within : off + 4 ≤ bytes.length) :
    unpackBxH ((bytes.drop off).take 4) =
      .ok (bigEndian ((bytes.drop off).take 1),
        bigEndian ((bytes.drop (off + 2)).take 2)) := by
  rw [unpackBxH, if_pos, List.take_take, List.drop_take, List.drop_drop]
  · rfl
  · simp only [List.length_take, List.length_drop]
    omega

/-- A round of the loop over the attributes. -/
theorem attrKeyLength_succ {fuel : Nat} {attrs : Bytes} (long : 4 ≤ attrs.length) :
    attrKeyLength (fuel + 1) attrs =
      (let afType := bigEndian (attrs.take 2)
      let value := bigEndian ((attrs.drop 2).take 2)
      if afType &&& 0x8000 ≠ 0 then
        if afType &&& 0x7FFF = attrKeyLengthType then .ok (some value)
        else attrKeyLength fuel (attrs.drop 4)
      else attrKeyLength fuel (attrs.drop (4 + value))) := by
  rw [attrKeyLength, if_pos long, unpackU16_take (by omega), unpackU16_window (by omega)]
  rfl

theorem attrKeyLength_of_short {fuel : Nat} {attrs : Bytes} (short : attrs.length < 4) :
    attrKeyLength fuel attrs = .ok none := by
  cases fuel with
  | zero => rfl
  | succ fuel => rw [attrKeyLength, if_neg (by omega)]

theorem returns_attrKeyLength (fuel : Nat) (attrs : Bytes) :
    Returns (attrKeyLength fuel attrs) := by
  induction fuel generalizing attrs with
  | zero => exact ⟨none, rfl⟩
  | succ fuel inductionHypothesis =>
      by_cases long : 4 ≤ attrs.length
      · rw [attrKeyLength_succ long]
        dsimp only
        split_ifs
        · exact ⟨_, rfl⟩
        · exact inductionHypothesis _
        · exact inductionHypothesis _
      · exact ⟨none, attrKeyLength_of_short (by omega)⟩

/-- An attribute takes four bytes at least, so the loop ends within the fuel. -/
theorem attrKeyLength_congr {fuel fuel' : Nat} {attrs : Bytes}
    (enough : attrs.length ≤ fuel) (enough' : attrs.length ≤ fuel') :
    attrKeyLength fuel attrs = attrKeyLength fuel' attrs := by
  induction fuel generalizing fuel' attrs with
  | zero => rw [attrKeyLength_of_short (by omega), attrKeyLength_of_short (by omega)]
  | succ fuel inductionHypothesis =>
      by_cases long : 4 ≤ attrs.length
      · obtain ⟨less, rfl⟩ : ∃ less, fuel' = less + 1 := ⟨fuel' - 1, by omega⟩
        have later : ∀ count, 4 ≤ count →
            attrKeyLength fuel (attrs.drop count) =
              attrKeyLength less (attrs.drop count) := by
          intro count many
          apply inductionHypothesis
          all_goals
            rw [List.length_drop]
            omega
        rw [attrKeyLength_succ long, attrKeyLength_succ long]
        dsimp only
        rw [later 4 (le_refl 4), later _ (Nat.le_add_right 4 _)]
      · rw [attrKeyLength_of_short (by omega), attrKeyLength_of_short (by omega)]

/-- The loop over the transforms ends here. -/
def Stops (data : Bytes) (propEnd off : Nat) : Prop :=
  let tfLen := bigEndian ((data.drop (off + 2)).take 2)
  tfLen < 8 ∨ data.length < off + tfLen ∨ propEnd ≤ off

/-- A round of the loop that ends it. -/
theorem parseTransforms_of_stops {data : Bytes} {propEnd count off : Nat}
    (within : off + 8 ≤ data.length) (stops : Stops data propEnd off) :
    parseTransforms data propEnd (count + 1) off = .ok [] := by
  rw [parseTransforms, if_neg (by omega), unpackBxH_window (by omega),
    unpackBxH_window (by omega)]
  exact if_pos stops

/-- A round of the loop that reads a transform. -/
theorem parseTransforms_succ {data : Bytes} {propEnd count off : Nat}
    (within : off + 8 ≤ data.length) (goes : ¬ Stops data propEnd off) :
    parseTransforms data propEnd (count + 1) off =
      (let tfLen := bigEndian ((data.drop (off + 2)).take 2)
      let tfType := bigEndian ((data.drop (off + 4)).take 1)
      let tfId := bigEndian ((data.drop (off + 6)).take 2)
      let attrs := (data.take (off + tfLen)).drop (off + 8)
      (attrKeyLength attrs.length attrs).bind fun keyLen =>
        (parseTransforms data propEnd count (off + tfLen)).map
          (describeTransform tfType tfId keyLen :: ·)) := by
  rw [parseTransforms, if_neg (by omega), unpackBxH_window (by omega),
    unpackBxH_window (by omega)]
  simp only [bind, Except.bind]
  rw [if_neg (show ¬ (_ ∨ _ ∨ _) from goes)]
  cases attrKeyLength _ _ with
  | error error => rfl
  | ok keyLen =>
      dsimp only
      cases parseTransforms _ _ _ _ with
      | error error => rfl
      | ok later => rfl

theorem returns_parseTransforms (data : Bytes) (propEnd count off : Nat) :
    Returns (parseTransforms data propEnd count off) := by
  induction count generalizing off with
  | zero => exact ⟨[], rfl⟩
  | succ count inductionHypothesis =>
      by_cases within : off + 8 ≤ data.length
      · by_cases stops : Stops data propEnd off
        · exact ⟨[], parseTransforms_of_stops within stops⟩
        · rw [parseTransforms_succ within stops]
          dsimp only
          obtain ⟨keyLen, told⟩ := returns_attrKeyLength
            ((data.take (off + bigEndian ((data.drop (off + 2)).take 2))).drop
              (off + 8)).length
            ((data.take (off + bigEndian ((data.drop (off + 2)).take 2))).drop (off + 8))
          obtain ⟨later, read⟩ := inductionHypothesis
            (off + bigEndian ((data.drop (off + 2)).take 2))
          rw [told, read]
          exact ⟨_, rfl⟩
      · exact ⟨[], if_pos (by omega)⟩

/-- What `parse_sa_payload` does with a proposal. -/
theorem parseSaPayload_of_long {data : Bytes} (long : 12 ≤ data.length) :
    parseSaPayload data =
      (let propLen := bigEndian ((data.drop 6).take 2)
      let propEnd := if 8 ≤ propLen then min (4 + propLen) data.length else data.length
      parseTransforms data propEnd (typeByte (data.drop 11)).toNat
        (12 + (typeByte (data.drop 10)).toNat)) := by
  have byte : ∀ i, i < data.length →
      byteAt data i = .ok (typeByte (data.drop i)).toNat := by
    intro i inside
    rw [byteAt, List.getElem?_eq_getElem inside, typeByte,
      List.drop_eq_getElem_cons inside]
    rfl
  rw [parseSaPayload, if_neg (by omega), if_neg (by omega), unpackBxH_window (by omega),
    byte 10 (by omega), byte 11 (by omega)]
  rfl

theorem returns_parseSaPayload (data : Bytes) : Returns (parseSaPayload data) := by
  by_cases long : 12 ≤ data.length
  · rw [parseSaPayload_of_long long]
    exact returns_parseTransforms _ _ _ _
  · refine ⟨[], ?_⟩
    unfold parseSaPayload
    split
    · rfl
    · rw [if_pos (by omega)]

/-- A round of the walk over the payloads. -/
theorem extractLoop_succ {fuel : Nat} {nextPayload : UInt8} {rest : Bytes}
    (some_ : nextPayload ≠ payloadNone) (long : 4 ≤ rest.length) :
    extractLoop (fuel + 1) nextPayload rest =
      (let plen := bigEndian ((rest.drop 2).take 2)
      if plen < 4 ∨ rest.length < plen then .ok none
      else if nextPayload = payloadSa then .ok (some (rest.take plen))
      else extractLoop fuel (typeByte rest) (rest.drop plen)) := by
  rw [extractLoop, if_pos ⟨some_, long⟩, unpackU16_window (by omega)]
  rfl

theorem extractLoop_of_end {fuel : Nat} {nextPayload : UInt8} {rest : Bytes}
    (beyond : ¬ (nextPayload ≠ payloadNone ∧ 4 ≤ rest.length)) :
    extractLoop fuel nextPayload rest = .ok none := by
  cases fuel with
  | zero => rfl
  | succ fuel => rw [extractLoop, if_neg beyond]

theorem returns_extractLoop (fuel : Nat) (nextPayload : UInt8) (rest : Bytes) :
    Returns (extractLoop fuel nextPayload rest) := by
  induction fuel generalizing nextPayload rest with
  | zero => exact ⟨none, rfl⟩
  | succ fuel inductionHypothesis =>
      by_cases goes : nextPayload ≠ payloadNone ∧ 4 ≤ rest.length
      · rw [extractLoop_succ goes.1 goes.2]
        dsimp only
        split_ifs
        · exact ⟨none, rfl⟩
        · exact ⟨_, rfl⟩
        · exact inductionHypothesis _ _
      · exact ⟨none, extractLoop_of_end goes⟩

/-- A payload takes four bytes at least, so the walk ends within the fuel. -/
theorem extractLoop_congr {fuel fuel' : Nat} {nextPayload : UInt8} {rest : Bytes}
    (enough : rest.length ≤ fuel) (enough' : rest.length ≤ fuel') :
    extractLoop fuel nextPayload rest = extractLoop fuel' nextPayload rest := by
  induction fuel generalizing fuel' nextPayload rest with
  | zero => rw [extractLoop_of_end (by omega), extractLoop_of_end (by omega)]
  | succ fuel inductionHypothesis =>
      by_cases goes : nextPayload ≠ payloadNone ∧ 4 ≤ rest.length
      · obtain ⟨less, rfl⟩ : ∃ less, fuel' = less + 1 := ⟨fuel' - 1, by omega⟩
        rw [extractLoop_succ goes.1 goes.2, extractLoop_succ goes.1 goes.2]
        dsimp only
        split_ifs
        · rfl
        · rfl
        · apply inductionHypothesis
          all_goals
            rw [List.length_drop]
            omega
      · rw [extractLoop_of_end goes, extractLoop_of_end goes]

theorem returns_extractSaPayload (msg : Bytes) : Returns (extractSaPayload msg) := by
  unfold extractSaPayload
  split
  · exact ⟨none, rfl⟩
  · exact returns_extractLoop _ _ _

/-! ## Transforms on the wire -/

/-- A transform with any attributes, and the key length that they tell. -/
structure WireTransform where
  more : UInt8
  reserved : UInt8
  type : UInt8
  reserved' : UInt8
  id : Nat
  attrs : Bytes
  keyLen : Option Nat
  id_small : id < 256 ^ 2
  attrs_small : 8 + attrs.length < 256 ^ 2
  attrs_tell : attrKeyLength attrs.length attrs = .ok keyLen

namespace WireTransform

/-- The transform as it is sent. -/
def bytes (wire : WireTransform) : Bytes :=
  [wire.more, wire.reserved] ++ (bigBytes 2 (8 + wire.attrs.length) ++
    ([wire.type, wire.reserved'] ++ (bigBytes 2 wire.id ++ wire.attrs)))

/-- The description of the transform. -/
def info (wire : WireTransform) : TransformInfo :=
  describeTransform wire.type.toNat wire.id wire.keyLen

theorem length_bytes (wire : WireTransform) :
    wire.bytes.length = 8 + wire.attrs.length := by
  simp only [bytes, List.length_append, length_bigBytes, List.length_cons,
    List.length_nil]
  omega

/-- A transform is read, and the loop goes on behind it. -/
theorem parseTransforms_bytes {wire : WireTransform} {data rest : Bytes}
    {propEnd off : Nat} (placed : data.drop off = wire.bytes ++ rest)
    (inside : off < propEnd) (count : Nat) :
    parseTransforms data propEnd (count + 1) off =
      (parseTransforms data propEnd count (off + wire.bytes.length)).map
        (wire.info :: ·) := by
  have sized := wire.length_bytes
  have long : off + wire.bytes.length ≤ data.length := by
    have lengths := congrArg List.length placed
    rw [List.length_drop, List.length_append] at lengths
    omega
  have window : ∀ start, data.drop (off + start) = (wire.bytes ++ rest).drop start := by
    intro start
    rw [← List.drop_drop, placed]
  have length : bigEndian ((data.drop (off + 2)).take 2) = wire.bytes.length := by
    have here : ((wire.bytes ++ rest).drop 2).take 2 =
        bigBytes 2 (8 + wire.attrs.length) := rfl
    rw [window, here, bigEndian_bigBytes wire.attrs_small, sized]
  have kind : bigEndian ((data.drop (off + 4)).take 1) = wire.type.toNat := by
    have here : ((wire.bytes ++ rest).drop 4).take 1 = [wire.type] := rfl
    rw [window, here]
    exact Nat.zero_add _
  have id : bigEndian ((data.drop (off + 6)).take 2) = wire.id := by
    have here : ((wire.bytes ++ rest).drop 6).take 2 = bigBytes 2 wire.id := rfl
    rw [window, here, bigEndian_bigBytes wire.id_small]
  have attrs : (data.take (off + wire.bytes.length)).drop (off + 8) = wire.attrs := by
    have here : (wire.bytes ++ rest).drop 8 = wire.attrs ++ rest := rfl
    rw [List.drop_take, window, here, List.take_left']
    omega
  have goes : ¬ Stops data propEnd off := by
    unfold Stops
    rw [length]
    omega
  rw [parseTransforms_succ (by omega) goes]
  dsimp only
  rw [length, kind, id, attrs, wire.attrs_tell]
  rfl

/-- Transforms one after the other are read. -/
theorem parseTransforms_all {wires : List WireTransform} {data rest : Bytes}
    {propEnd off : Nat} (placed : data.drop off = wires.flatMap bytes ++ rest)
    (inside : off + (wires.flatMap bytes).length ≤ propEnd) (count : Nat) :
    parseTransforms data propEnd (wires.length + count) off =
      (parseTransforms data propEnd count (off + (wires.flatMap bytes).length)).map
        (wires.map info ++ ·) := by
  induction wires generalizing off with
  | nil =>
      have same : parseTransforms data propEnd count off =
          (parseTransforms data propEnd count off).map ([] ++ ·) := by
        cases parseTransforms data propEnd count off with
        | error error => rfl
        | ok later => rfl
      simpa using same
  | cons wire wires inductionHypothesis =>
      have sized := wire.length_bytes
      rw [List.flatMap_cons, List.append_assoc] at placed
      rw [List.flatMap_cons, List.length_append] at inside
      have later : data.drop (off + wire.bytes.length) = wires.flatMap bytes ++ rest := by
        rw [← List.drop_drop, placed, List.drop_left' rfl]
      have one : (wire :: wires).length + count = wires.length + count + 1 := by
        rw [List.length_cons]
        omega
      rw [one, parseTransforms_bytes placed (by omega),
        inductionHypothesis later (by omega), List.flatMap_cons, List.length_append,
        Nat.add_assoc]
      cases parseTransforms data propEnd count _ with
      | error error => rfl
      | ok later => rfl

end WireTransform

/-! ## SA payloads -/

/-- The bytes before the transforms of a payload with one proposal. -/
structure SaHeader where
  generic : Bytes
  first : UInt8
  reserved : UInt8
  propLen : Nat
  propNum : UInt8
  protocol : UInt8
  spi : Bytes
  numTf : UInt8
  generic_length : generic.length = 4
  propLen_small : propLen < 256 ^ 2
  spi_small : spi.length < 256

namespace SaHeader

variable (header : SaHeader)

/-- The header as it is sent. -/
def bytes : Bytes :=
  header.generic ++ ([header.first, header.reserved] ++ (bigBytes 2 header.propLen ++
    ([header.propNum, header.protocol, UInt8.ofNat header.spi.length, header.numTf] ++
      header.spi)))

theorem length_bytes : header.bytes.length = 12 + header.spi.length := by
  simp only [bytes, List.length_append, length_bigBytes, header.generic_length,
    List.length_cons, List.length_nil]
  omega

/-- What follows the generic payload header. -/
theorem drop_bytes (rest : Bytes) (count : Nat) :
    (header.bytes ++ rest).drop (4 + count) =
      ([header.first, header.reserved] ++ (bigBytes 2 header.propLen ++
        ([header.propNum, header.protocol, UInt8.ofNat header.spi.length, header.numTf] ++
          (header.spi ++ rest)))).drop count := by
  rw [← List.drop_drop, bytes, List.append_assoc, List.drop_left' header.generic_length]
  simp only [List.append_assoc]

/-- The loop over the transforms of a payload. -/
theorem parseSaPayload_bytes (rest : Bytes) :
    parseSaPayload (header.bytes ++ rest) =
      parseTransforms (header.bytes ++ rest)
        (if 8 ≤ header.propLen then
          min (4 + header.propLen) (header.bytes ++ rest).length
        else (header.bytes ++ rest).length)
        header.numTf.toNat header.bytes.length := by
  have sized := header.length_bytes
  have long : 12 ≤ (header.bytes ++ rest).length := by
    rw [List.length_append]
    omega
  have propLen : bigEndian (((header.bytes ++ rest).drop 6).take 2) = header.propLen := by
    have here : ((header.bytes ++ rest).drop 6).take 2 = bigBytes 2 header.propLen := by
      rw [header.drop_bytes rest 2]
      rfl
    rw [here, bigEndian_bigBytes header.propLen_small]
  have spiSize : (typeByte ((header.bytes ++ rest).drop 10)).toNat =
      header.spi.length := by
    have here : typeByte ((header.bytes ++ rest).drop 10) =
        UInt8.ofNat header.spi.length := by
      rw [header.drop_bytes rest 6]
      rfl
    rw [here, UInt8.toNat_ofNat', Nat.mod_eq_of_lt header.spi_small]
  have numTf : typeByte ((header.bytes ++ rest).drop 11) = header.numTf := by
    rw [header.drop_bytes rest 7]
    rfl
  rw [parseSaPayload_of_long long, propLen, spiSize, numTf, sized]

end SaHeader

/-- No transform starts here: the length field is missing, too small or too large. -/
def Malformed (rest : Bytes) : Prop :=
  rest.length < 8 ∨ bigEndian ((rest.drop 2).take 2) < 8 ∨
    rest.length < bigEndian ((rest.drop 2).take 2)

/-- The transforms before the first malformed point are read;
nothing is read after it. -/
theorem parseSaPayload_transforms (header : SaHeader) (wires : List WireTransform)
    (rest : Bytes) (counted : wires.length ≤ header.numTf.toNat)
    (inside : header.propLen < 8 ∨
      8 + header.spi.length + (wires.flatMap WireTransform.bytes).length ≤
        header.propLen) :
    ∃ later, parseSaPayload
      (header.bytes ++ (wires.flatMap WireTransform.bytes ++ rest)) =
        .ok (wires.map WireTransform.info ++ later) ∧
      (Malformed rest → later = []) := by
  have sized := header.length_bytes
  have placed : (header.bytes ++ (wires.flatMap WireTransform.bytes ++ rest)).drop
      header.bytes.length = wires.flatMap WireTransform.bytes ++ rest :=
        List.drop_left' rfl
  have whole : (header.bytes ++ (wires.flatMap WireTransform.bytes ++ rest)).length =
      header.bytes.length +
        ((wires.flatMap WireTransform.bytes).length + rest.length) := by
    rw [List.length_append, List.length_append]
  obtain ⟨count, split⟩ := Nat.exists_eq_add_of_le counted
  rw [header.parseSaPayload_bytes, split, WireTransform.parseTransforms_all placed]
  · generalize (if 8 ≤ header.propLen then _ else _ : Nat) = propEnd
    obtain ⟨later, read⟩ := returns_parseTransforms
      (header.bytes ++ (wires.flatMap WireTransform.bytes ++ rest)) propEnd count
      (header.bytes.length + (wires.flatMap WireTransform.bytes).length)
    refine ⟨later, by rw [read]; rfl, ?_⟩
    intro malformed
    have next : (header.bytes ++ (wires.flatMap WireTransform.bytes ++ rest)).drop
        (header.bytes.length + (wires.flatMap WireTransform.bytes).length) = rest := by
      rw [← List.drop_drop, placed, List.drop_left' rfl]
    have ends : parseTransforms
        (header.bytes ++ (wires.flatMap WireTransform.bytes ++ rest))
        propEnd count (header.bytes.length + (wires.flatMap WireTransform.bytes).length) =
          .ok [] := by
      cases count with
      | zero => rfl
      | succ count =>
          by_cases within :
            header.bytes.length + (wires.flatMap WireTransform.bytes).length + 8 ≤
              (header.bytes ++ (wires.flatMap WireTransform.bytes ++ rest)).length
          · apply parseTransforms_of_stops within
            unfold Stops
            rw [← List.drop_drop, next]
            unfold Malformed at malformed
            dsimp only
            omega
          · exact if_pos (by omega)
    rw [ends] at read
    exact (Except.ok.inj read).symm
  · split
    · omega
    · omega

/-! ## Built payloads -/

theorem pack_eq {width n : Nat} (small : n < 256 ^ width) :
    pack width n = .ok (bigBytes width n) :=
  if_pos small

theorem packBxH_eq {first second : Nat} (first_small : first < 256 ^ 1)
    (second_small : second < 256 ^ 2) :
    packBxH first second = .ok ([UInt8.ofNat first, 0] ++ bigBytes 2 second) := by
  rw [packBxH, pack_eq first_small, pack_eq second_small]
  rfl

namespace TransformSpec

/-- The fields of a specification fit. -/
structure Fits (spec : TransformSpec) : Prop where
  type_small : spec.type < 256 ^ 1
  id_small : spec.id < 256 ^ 2
  keyLen_small : ∀ keyLen ∈ spec.keyLen, keyLen < 256 ^ 2

/-- The attributes of a transform. -/
def attrs (spec : TransformSpec) : Bytes :=
  match spec.keyLen with
  | none => []
  | some keyLen => bigBytes 2 (0x8000 ||| attrKeyLengthType) ++ bigBytes 2 keyLen

theorem length_attrs (spec : TransformSpec) : spec.attrs.length ≤ 4 := by
  unfold attrs
  split
  · exact Nat.zero_le _
  · exact le_refl _

/-- The attributes tell the key length. -/
theorem attrs_tell {spec : TransformSpec} (fits : spec.Fits) :
    attrKeyLength spec.attrs.length spec.attrs = .ok spec.keyLen := by
  have small := fits.keyLen_small
  unfold attrs
  split
  · next absent =>
      rw [absent]
      rfl
  · next keyLen present =>
      have value : bigEndian (((bigBytes 2 (0x8000 ||| attrKeyLengthType) ++
          bigBytes 2 keyLen).drop 2).take 2) = keyLen :=
        bigEndian_bigBytes (small keyLen present)
      have head : bigEndian ((bigBytes 2 (0x8000 ||| attrKeyLengthType) ++
          bigBytes 2 keyLen).take 2) = 0x8000 ||| attrKeyLengthType := by
        rw [List.take_left' (length_bigBytes 2 _)]
        exact bigEndian_bigBytes (by decide)
      rw [present, List.length_append, length_bigBytes, length_bigBytes,
        attrKeyLength_succ (le_refl 4)]
      dsimp only
      rw [value, head, if_pos (by decide), if_pos (by decide)]

/-- The transform that is built. -/
def wire {spec : TransformSpec} (fits : spec.Fits) (more : Bool) : WireTransform where
  more := if more then 3 else 0
  reserved := 0
  type := UInt8.ofNat spec.type
  reserved' := 0
  id := spec.id
  attrs := spec.attrs
  keyLen := spec.keyLen
  id_small := fits.id_small
  attrs_small := by
    have short := spec.length_attrs
    omega
  attrs_tell := attrs_tell fits

theorem info_wire {spec : TransformSpec} (fits : spec.Fits) (more : Bool) :
    (wire fits more).info = spec.describe := by
  have small : spec.type < 256 := fits.type_small
  have same : (UInt8.ofNat spec.type).toNat = spec.type := by
    rw [UInt8.toNat_ofNat', Nat.mod_eq_of_lt small]
  rw [WireTransform.info, wire, same]
  rfl

theorem transform_eq {spec : TransformSpec} (fits : spec.Fits) (more : Bool) :
    transform spec more = .ok (wire fits more).bytes := by
  have short := spec.length_attrs
  have attrs : packAttrs spec.keyLen = .ok spec.attrs := by
    have small := fits.keyLen_small
    unfold TransformSpec.attrs
    cases present : spec.keyLen with
    | none => rfl
    | some keyLen =>
        rw [packAttrs, pack_eq (by decide), pack_eq (small keyLen present)]
        rfl
  have sized : 4 + ([UInt8.ofNat spec.type, 0] ++ bigBytes 2 spec.id ++
      spec.attrs).length =
      8 + spec.attrs.length := by
    simp only [List.length_append, length_bigBytes, List.length_cons, List.length_nil]
    omega
  rw [transform, attrs, packBxH_eq fits.type_small fits.id_small]
  simp only [bind, Except.bind]
  rw [sized, packBxH_eq (by split <;> decide) (by omega)]
  simp only [pure, Except.pure, WireTransform.bytes, wire, List.append_assoc]
  cases more with
  | false => rfl
  | true => rfl

/-- The transforms that are built, one after the other. -/
theorem transformsBlock_eq {specs : List TransformSpec}
    (fit : ∀ spec ∈ specs, spec.Fits) :
    ∃ wires : List WireTransform,
      transformsBlock specs = .ok (wires.flatMap WireTransform.bytes) ∧
        wires.map WireTransform.info = specs.map describe ∧
        (wires.flatMap WireTransform.bytes).length ≤ 12 * specs.length := by
  induction specs with
  | nil => exact ⟨[], rfl, rfl, le_refl _⟩
  | cons spec rest inductionHypothesis =>
      have fits := fit spec List.mem_cons_self
      obtain ⟨wires, built, told, short⟩ := inductionHypothesis
        fun other member => fit other (List.mem_cons_of_mem spec member)
      refine ⟨wire fits (!rest.isEmpty) :: wires, ?_, ?_, ?_⟩
      · rw [transformsBlock, transform_eq fits, built]
        rfl
      · rw [List.map_cons, List.map_cons, info_wire, told]
      · have here := spec.length_attrs
        have sized := (wire fits (!rest.isEmpty)).length_bytes
        change _ = 8 + spec.attrs.length at sized
        rw [List.flatMap_cons, List.length_append, List.length_cons, sized]
        omega

end TransformSpec

/-- What `build_sa_payload` builds: a header and the transforms. -/
theorem buildSaPayload_eq {specs : List TransformSpec} (fit : ∀ spec ∈ specs, spec.Fits)
    (few : specs.length ≤ 255) {nextPayload : Nat} (next_small : nextPayload < 256) :
    ∃ (header : SaHeader) (wires : List WireTransform),
      buildSaPayload specs nextPayload =
          .ok (header.bytes ++ wires.flatMap WireTransform.bytes) ∧
        header.generic = [UInt8.ofNat nextPayload, 0] ++
          bigBytes 2 (header.bytes ++ wires.flatMap WireTransform.bytes).length ∧
        (header.bytes ++ wires.flatMap WireTransform.bytes).length < 256 ^ 2 ∧
        wires.map WireTransform.info = specs.map TransformSpec.describe ∧
        wires.length = header.numTf.toNat ∧
        header.propLen =
          8 + header.spi.length + (wires.flatMap WireTransform.bytes).length := by
  obtain ⟨wires, built, told, short⟩ := TransformSpec.transformsBlock_eq fit
  have counted : wires.length = specs.length := by
    have lengths := congrArg List.length told
    rwa [List.length_map, List.length_map] at lengths
  generalize block : wires.flatMap WireTransform.bytes = bytes at built short
  let header : SaHeader :=
    { generic := [UInt8.ofNat nextPayload, 0] ++ bigBytes 2 (12 + bytes.length)
      first := 0
      reserved := 0
      propLen := 8 + bytes.length
      propNum := 1
      protocol := 1
      spi := []
      numTf := UInt8.ofNat specs.length
      generic_length := rfl
      propLen_small := by omega
      spi_small := by decide }
  have whole : (header.bytes ++ bytes).length = 12 + bytes.length := by
    rw [List.length_append, header.length_bytes]
    rfl
  have inner : proposal 1 specs =
      .ok (([0, 0] ++ bigBytes 2 (8 + bytes.length) ++ [1] ++ [1, 0] ++
        [UInt8.ofNat specs.length] ++ bytes)) := by
    rw [proposal, built]
    simp only [bind, Except.bind]
    rw [packBxH_eq (by decide) (by omega), pack_eq (by decide), pack_eq (by omega)]
    rfl
  have sized : 4 + ([0, 0] ++ bigBytes 2 (8 + bytes.length) ++ [1] ++ [1, 0] ++
      [UInt8.ofNat specs.length] ++ bytes).length = 12 + bytes.length := by
    simp only [List.length_append, length_bigBytes, List.length_cons, List.length_nil]
    omega
  refine ⟨header, wires, ?_, ?_, ?_, told, ?_, ?_⟩
  · rw [buildSaPayload, inner]
    simp only [bind, Except.bind]
    rw [sized, packBxH_eq (by omega) (by omega), block]
    simp only [pure, Except.pure, SaHeader.bytes, header, List.append_assoc]
    rfl
  · rw [block, whole]
  · rw [block, whole]
    omega
  · have small : specs.length < 256 := by omega
    rw [counted]
    change _ = (UInt8.ofNat specs.length).toNat
    rw [UInt8.toNat_ofNat', Nat.mod_eq_of_lt small]
  · rw [block]
    rfl

/-- Parsing undoes building. -/
theorem parseSaPayload_build {specs : List TransformSpec}
    (fit : ∀ spec ∈ specs, spec.Fits)
    (few : specs.length ≤ 255) {nextPayload : Nat} (next_small : nextPayload < 256) :
    ∃ payload, buildSaPayload specs nextPayload = .ok payload ∧
      parseSaPayload payload = .ok (specs.map TransformSpec.describe) := by
  obtain ⟨header, wires, built, -, -, told, counted, propLen⟩ :=
    buildSaPayload_eq fit few next_small
  refine ⟨_, built, ?_⟩
  obtain ⟨later, read, ends⟩ :=
    parseSaPayload_transforms header wires [] (le_of_eq counted)
    (Or.inr (le_of_eq propLen.symm))
  rw [List.append_nil] at read
  rw [read, told, ends (Or.inl (by decide)), List.append_nil]

/-! ## Chains of payloads -/

/-- A payload: its type, which the one before it tells, and its body. -/
structure Payload where
  type : UInt8
  critical : UInt8
  body : Bytes
  type_ne : type ≠ payloadNone
  body_small : 4 + body.length < 256 ^ 2

/-- The type of the first payload, or that there is none. -/
def firstType : List Payload → UInt8
  | [] => payloadNone
  | payload :: _ => payload.type

/-- The bytes of a payload before the others. -/
def Payload.bytes (payload : Payload) (rest : List Payload) : Bytes :=
  [firstType rest, payload.critical] ++
    (bigBytes 2 (4 + payload.body.length) ++ payload.body)

/-- The bytes of a chain. -/
def chainBytes : List Payload → Bytes
  | [] => []
  | payload :: rest => payload.bytes rest ++ chainBytes rest

/-- The bytes of the first SA payload. -/
def firstSa : List Payload → Option Bytes
  | [] => none
  | payload :: rest => if payload.type = payloadSa then some (payload.bytes rest)
      else firstSa rest

/-- A message: the SPIs, the type of the first payload, the other fields of the header
and the payloads. -/
structure Message where
  spis : Bytes
  fields : Bytes
  payloads : List Payload
  spis_length : spis.length = 16
  fields_length : fields.length = 11

/-- The message as it is sent. -/
def Message.bytes (message : Message) : Bytes :=
  message.spis ++ ([firstType message.payloads] ++ (message.fields ++
    chainBytes message.payloads))

theorem Payload.length_bytes (payload : Payload) (rest : List Payload) :
    (payload.bytes rest).length = 4 + payload.body.length := by
  simp only [bytes, List.length_append, length_bigBytes, List.length_cons,
    List.length_nil]
  omega

/-- The walk finds the first SA payload. -/
theorem extractLoop_chain (payloads : List Payload) (fuel : Nat) :
    extractLoop (payloads.length + fuel) (firstType payloads) (chainBytes payloads) =
      .ok (firstSa payloads) := by
  induction payloads with
  | nil => exact extractLoop_of_end fun goes => goes.1 rfl
  | cons payload rest inductionHypothesis =>
      have sized := payload.length_bytes rest
      have one : (payload :: rest).length + fuel = rest.length + fuel + 1 := by
        rw [List.length_cons]
        omega
      have length : bigEndian (((payload.bytes rest ++ chainBytes rest).drop 2).take 2) =
          (payload.bytes rest).length := by
        have here : ((payload.bytes rest ++ chainBytes rest).drop 2).take 2 =
            bigBytes 2 (4 + payload.body.length) := rfl
        rw [here, bigEndian_bigBytes payload.body_small, sized]
      have next : typeByte (payload.bytes rest ++ chainBytes rest) = firstType rest := rfl
      have whole : (payload.bytes rest).length ≤
          (payload.bytes rest ++ chainBytes rest).length := by
        rw [List.length_append]
        omega
      rw [one, chainBytes, firstType, extractLoop_succ payload.type_ne (by omega)]
      dsimp only
      rw [length, next, if_neg (by omega), List.take_left' rfl, List.drop_left' rfl,
        inductionHypothesis, firstSa]
      split
      · rfl
      · rfl

theorem length_le_chainBytes (payloads : List Payload) :
    payloads.length ≤ (chainBytes payloads).length := by
  induction payloads with
  | nil => exact le_refl _
  | cons payload rest inductionHypothesis =>
      have sized := payload.length_bytes rest
      rw [chainBytes, List.length_append, List.length_cons]
      omega

/-- The first SA payload of a message is found. -/
theorem extractSaPayload_message (message : Message) :
    extractSaPayload message.bytes = .ok (firstSa message.payloads) := by
  have spis := message.spis_length
  have fields := message.fields_length
  have first : typeByte (message.bytes.drop 16) = firstType message.payloads := by
    rw [Message.bytes, List.drop_left' spis]
    rfl
  have chain : message.bytes.drop 28 = chainBytes message.payloads := by
    rw [Message.bytes, ← List.append_assoc, ← List.append_assoc, List.drop_left']
    simp [spis, fields]
  have long : message.bytes.length = 28 + (chainBytes message.payloads).length := by
    simp only [Message.bytes, List.length_append, spis, fields, List.length_singleton]
    omega
  have many := length_le_chainBytes message.payloads
  obtain ⟨fuel, enough⟩ := Nat.exists_eq_add_of_le
    (by omega : message.payloads.length ≤ message.bytes.length)
  rw [extractSaPayload, if_neg (by omega), first, chain, enough, extractLoop_chain]

/-! ## The request -/

theorem offeredSpecs_fit : ∀ spec ∈ offeredSpecs, spec.Fits := by
  have small : ∀ spec ∈ offeredSpecs, spec.type < 256 ^ 1 ∧ spec.id < 256 ^ 2 ∧
      ∀ keyLen ∈ spec.keyLen, keyLen < 256 ^ 2 := by decide
  intro spec member
  obtain ⟨type, id, keyLen⟩ := small spec member
  exact ⟨type, id, keyLen⟩

theorem length_packEight (bytes : Bytes) : (packEight bytes).length = 8 := by
  rw [packEight, List.length_take, List.length_append, zeros, List.length_replicate]
  omega

/-- The SA payload of the request. -/
theorem buildSaPayload_offered :
    ∃ body : Bytes, 4 + body.length < 256 ^ 2 ∧
      buildSaPayload offeredSpecs payloadKe.toNat =
        .ok ([payloadKe, 0] ++ (bigBytes 2 (4 + body.length) ++ body)) ∧
      parseSaPayload ([payloadKe, 0] ++ (bigBytes 2 (4 + body.length) ++ body)) =
        .ok offeredTransforms := by
  obtain ⟨header, wires, built, generic, small, -⟩ :=
    @buildSaPayload_eq _ offeredSpecs_fit (by decide) payloadKe.toNat (by decide)
  obtain ⟨payload, same, read⟩ :=
    @parseSaPayload_build _ offeredSpecs_fit (by decide) payloadKe.toNat (by decide)
  obtain ⟨body, split⟩ : ∃ body, header.bytes ++ wires.flatMap WireTransform.bytes =
      header.generic ++ body := by
    rw [SaHeader.bytes, List.append_assoc]
    exact ⟨_, rfl⟩
  have sized : (header.bytes ++ wires.flatMap WireTransform.bytes).length =
      4 + body.length := by
    rw [split, List.length_append, header.generic_length]
  have whole : header.bytes ++ wires.flatMap WireTransform.bytes =
      [payloadKe, 0] ++ (bigBytes 2 (4 + body.length) ++ body) := by
    rw [← sized, ← List.append_assoc]
    exact split.trans (congrArg (· ++ body) generic)
  rw [built, whole] at same
  refine ⟨body, by omega, by rw [built, whole], ?_⟩
  rw [Except.ok.inj same]
  exact read

theorem kePayload_eq {dhGroup nextPayload : Nat} {keData : Bytes}
    (group_small : dhGroup < 256 ^ 2) (next_small : nextPayload < 256 ^ 1)
    (short : 8 + keData.length < 256 ^ 2) :
    kePayload dhGroup keData nextPayload =
      .ok ([UInt8.ofNat nextPayload, 0] ++ (bigBytes 2 (8 + keData.length) ++
        (bigBytes 2 dhGroup ++ (bigBytes 2 0 ++ keData)))) := by
  have sized : 4 + (bigBytes 2 dhGroup ++ bigBytes 2 0 ++ keData).length =
      8 + keData.length := by
    simp only [List.length_append, length_bigBytes]
    omega
  rw [kePayload, pack_eq group_small, pack_eq (by decide)]
  simp only [bind, Except.bind]
  rw [sized, packBxH_eq next_small short]
  simp only [pure, Except.pure, List.append_assoc]

theorem noncePayload_eq {nonce : Bytes} {nextPayload : Nat}
    (next_small : nextPayload < 256 ^ 1)
    (short : 4 + nonce.length < 256 ^ 2) :
    noncePayload nonce nextPayload =
      .ok ([UInt8.ofNat nextPayload, 0] ++ (bigBytes 2 (4 + nonce.length) ++ nonce)) := by
  rw [noncePayload, packBxH_eq next_small short]
  exact congrArg Except.ok (List.append_assoc _ _ _)

/-- The request of three payloads. -/
theorem buildIkeSaInit_eq {spi nonce sa ke ni : Bytes}
    (saBuilt : buildSaPayload offeredSpecs payloadKe.toNat = .ok sa)
    (keBuilt : kePayload 14 (zeros 256) payloadNonce.toNat = .ok ke)
    (niBuilt : noncePayload nonce payloadNone.toNat = .ok ni)
    (small : 28 + (sa ++ ke ++ ni).length < 256 ^ 4) :
    buildIkeSaInit spi nonce =
      .ok (packEight spi ++ packEight (zeros 8) ++ [payloadSa, 0x20, 34, 0x08] ++
        bigBytes 4 0 ++
        bigBytes 4 (28 + (sa ++ ke ++ ni).length) ++ (sa ++ ke ++ ni)) := by
  rw [buildIkeSaInit, saBuilt, keBuilt, niBuilt]
  simp only [bind, Except.bind]
  rw [pack_eq (by decide), pack_eq small]
  rfl

/-- The SA payload of the request is found in it. -/
theorem extractSaPayload_build (spi : Bytes) {nonce : Bytes}
    (short : 4 + nonce.length < 256 ^ 2) :
    ∃ message sa, buildIkeSaInit spi nonce = .ok message ∧
      buildSaPayload offeredSpecs payloadKe.toNat = .ok sa ∧
      extractSaPayload message = .ok (some sa) ∧
      parseSaPayload sa = .ok offeredTransforms := by
  obtain ⟨body, small, saBuilt, read⟩ := buildSaPayload_offered
  have keLength : (zeros 256).length = 256 := List.length_replicate
  have keBuilt : kePayload 14 (zeros 256) payloadNonce.toNat = _ :=
    kePayload_eq (by decide) (by decide) (by rw [keLength]; decide)
  have niBuilt : noncePayload nonce payloadNone.toNat = _ :=
    noncePayload_eq (by decide) short
  have built := fun fits => @buildIkeSaInit_eq spi _ _ _ _ saBuilt keBuilt niBuilt fits
  generalize zeros 256 = keData at keLength built
  let sa : Payload := ⟨payloadSa, 0, body, by decide, small⟩
  let ke : Payload :=
    ⟨payloadKe, 0, bigBytes 2 14 ++ (bigBytes 2 0 ++ keData), by decide, by
    simp [keLength]⟩
  let ni : Payload := ⟨payloadNonce, 0, nonce, by decide, short⟩
  have keBytes : ke.bytes [ni] = [payloadNonce, 0] ++ (bigBytes 2 (8 + keData.length) ++
      (bigBytes 2 14 ++ (bigBytes 2 0 ++ keData))) := by
    have sized : 4 + (bigBytes 2 14 ++ (bigBytes 2 0 ++ keData)).length =
        8 + keData.length := by
      simp only [List.length_append, length_bigBytes]
      omega
    rw [Payload.bytes, sized]
    rfl
  have payloads : chainBytes [sa, ke, ni] =
      [payloadKe, 0] ++ (bigBytes 2 (4 + body.length) ++ body) ++
      ([UInt8.ofNat payloadNonce.toNat, 0] ++ (bigBytes 2 (8 + keData.length) ++
        (bigBytes 2 14 ++ (bigBytes 2 0 ++ keData)))) ++
      ([UInt8.ofNat payloadNone.toNat, 0] ++
        (bigBytes 2 (4 + nonce.length) ++ nonce)) := by
    rw [chainBytes, chainBytes, chainBytes, keBytes, chainBytes, List.append_nil,
      ← List.append_assoc]
    rfl
  rw [← payloads] at built
  have sized : (chainBytes [sa, ke, ni]).length =
      4 + body.length + (264 + (4 + nonce.length)) := by
    rw [chainBytes, chainBytes, chainBytes, keBytes]
    simp only [chainBytes, List.length_append, Payload.length_bytes, List.length_nil,
      List.length_cons, length_bigBytes, keLength]
    rfl
  let message : Message :=
    { spis := packEight spi ++ packEight (zeros 8)
      fields := [0x20, 34, 0x08] ++ (bigBytes 4 0 ++
        bigBytes 4 (28 + (chainBytes [sa, ke, ni]).length))
      payloads := [sa, ke, ni]
      spis_length := by rw [List.length_append, length_packEight, length_packEight]
      fields_length := by simp }
  have bytes : message.bytes = packEight spi ++ packEight (zeros 8) ++
      [payloadSa, 0x20, 34, 0x08] ++ bigBytes 4 0 ++
        bigBytes 4 (28 + (chainBytes [sa, ke, ni]).length) ++
        chainBytes [sa, ke, ni] := by
    simp only [Message.bytes, message, firstType, List.append_assoc]
    rfl
  refine ⟨message.bytes, sa.bytes [ke, ni], ?_, saBuilt,
    extractSaPayload_message message, read⟩
  rw [built (by omega), bytes]

/-- A nonce that is too long for a payload is refused. -/
theorem buildIkeSaInit_of_long (spi : Bytes) {nonce : Bytes}
    (long : ¬ 4 + nonce.length < 256 ^ 2) :
    ∃ error, buildIkeSaInit spi nonce = .error error := by
  obtain ⟨body, -, saBuilt, -⟩ := buildSaPayload_offered
  have keLength : (zeros 256).length = 256 := List.length_replicate
  have keBuilt : kePayload 14 (zeros 256) payloadNonce.toNat = _ :=
    kePayload_eq (by decide) (by decide) (by rw [keLength]; decide)
  have refused : ∃ error, noncePayload nonce payloadNone.toNat = .error error := by
    rw [noncePayload, packBxH, pack_eq (by decide)]
    unfold pack
    rw [if_neg long]
    exact ⟨_, rfl⟩
  obtain ⟨error, niRefused⟩ := refused
  refine ⟨error, ?_⟩
  rw [buildIkeSaInit, saBuilt, keBuilt, niRefused]
  rfl

/-- Parsing gives back each transform that was built; the first SA payload of a chain is
found, also in the request, which is built unless the nonce is too long; both parsers
return on every byte string, and the transforms before a malformed point are kept. -/
theorem saPayload_round_trip :
    (∀ specs : List TransformSpec, (∀ spec ∈ specs, spec.Fits) → specs.length ≤ 255 →
        ∀ nextPayload < 256, ∃ payload, buildSaPayload specs nextPayload = .ok payload ∧
          parseSaPayload payload = .ok (specs.map TransformSpec.describe)) ∧
      (∀ message : Message,
        extractSaPayload message.bytes = .ok (firstSa message.payloads)) ∧
      (∀ spi nonce : Bytes,
        (4 + nonce.length < 256 ^ 2 ∧
          ∃ message sa, buildIkeSaInit spi nonce = .ok message ∧
            buildSaPayload offeredSpecs payloadKe.toNat = .ok sa ∧
            extractSaPayload message = .ok (some sa) ∧
            parseSaPayload sa = .ok offeredTransforms) ∨
        (256 ^ 2 ≤ 4 + nonce.length ∧ ∃ error, buildIkeSaInit spi nonce = .error error)) ∧
      (∀ data, Returns (parseSaPayload data) ∧ Returns (extractSaPayload data)) ∧
      (∀ (header : SaHeader) (wires : List WireTransform) (rest : Bytes),
        wires.length ≤ header.numTf.toNat →
        (header.propLen < 8 ∨
          8 + header.spi.length + (wires.flatMap WireTransform.bytes).length ≤
            header.propLen) →
        ∃ later, parseSaPayload
          (header.bytes ++ (wires.flatMap WireTransform.bytes ++ rest)) =
            .ok (wires.map WireTransform.info ++ later) ∧
          (Malformed rest → later = [])) ∧
      ∀ (data : Bytes) (more : Nat),
        attrKeyLength (data.length + more) data = attrKeyLength data.length data ∧
          ∀ nextPayload, extractLoop (data.length + more) nextPayload data =
            extractLoop data.length nextPayload data := by
  refine ⟨?_, extractSaPayload_message, ?_, ?_, parseSaPayload_transforms, ?_⟩
  · intro specs fit few nextPayload next_small
    exact parseSaPayload_build fit few next_small
  · intro spi nonce
    by_cases short : 4 + nonce.length < 256 ^ 2
    · exact Or.inl ⟨short, extractSaPayload_build spi short⟩
    · exact Or.inr ⟨Nat.le_of_not_lt short, buildIkeSaInit_of_long spi short⟩
  · intro data
    exact ⟨returns_parseSaPayload data, returns_extractSaPayload data⟩
  · intro data more
    exact ⟨attrKeyLength_congr (by omega) (le_refl _),
      fun nextPayload => extractLoop_congr (by omega) (le_refl _)⟩

/-- An AES and an ML-KEM transform. -/
theorem saPayload_round_trip_sample :
    ∃ payload, buildSaPayload [⟨1, 20, some 256⟩, ⟨4, 36, none⟩] 34 = .ok payload ∧
      parseSaPayload payload =
        .ok [describeTransform 1 20 (some 256), describeTransform 4 36 none] := by
  have offered : ∀ spec ∈ [(⟨1, 20, some 256⟩ : TransformSpec), ⟨4, 36, none⟩],
      spec ∈ offeredSpecs := by decide
  exact saPayload_round_trip.1 [⟨1, 20, some 256⟩, ⟨4, 36, none⟩]
    (fun spec member => offeredSpecs_fit spec (offered spec member))
      (by decide) 34 (by decide)

end Ike
end Probes
end PqcScan
