import PqcScan.Library.Fallible
import PqcScan.Probes.KrbAsn1

/-!
# Reading Kerberos replies back

The decoders undo the encoders at every length, `parse_kdc_reply` reads what a KRB-ERROR
or an AS-REP carries, and it returns on every byte string.
-/

namespace PqcScan
namespace Probes
namespace Krb

open Library Python

/-! ## Lengths and integers -/

theorem bigEndian_magnitudeLoop {fuel n : Nat} (enough : n ≤ fuel) :
    bigEndian (magnitudeLoop fuel n) = n := by
  induction fuel generalizing n with
  | zero =>
      rw [Nat.le_zero.mp enough]
      rfl
  | succ fuel inductionHypothesis =>
      rw [magnitudeLoop]
      split
      · next zero => rw [zero]; rfl
      · rw [bigEndian_concat, inductionHypothesis (by omega), UInt8.toNat_ofNat']
        omega

theorem bigEndian_magnitude (n : Nat) : bigEndian (magnitude n) = n :=
  bigEndian_magnitudeLoop (le_refl n)

theorem length_magnitudeLoop_le {fuel n width : Nat} (small : n < 256 ^ width) :
    (magnitudeLoop fuel n).length ≤ width := by
  induction fuel generalizing n width with
  | zero => exact Nat.zero_le _
  | succ fuel inductionHypothesis =>
      rw [magnitudeLoop]
      split
      · exact Nat.zero_le _
      · next positive =>
          cases width with
          | zero => omega
          | succ width =>
              have high : n / 256 < 256 ^ width := by
                apply Nat.div_lt_of_lt_mul
                rwa [Nat.pow_succ, Nat.mul_comm] at small
              have front := inductionHypothesis high
              rw [List.length_append, List.length_singleton]
              omega

/-- Encoded data of a length that 127 bytes can tell; no object in memory is longer. -/
def Small (bytes : Bytes) : Prop := bytes.length < 256 ^ 127

theorem Small.of_le {bytes inner : Bytes} (small : Small bytes)
    (shorter : inner.length ≤ bytes.length) : Small inner :=
  lt_of_le_of_lt shorter small

/-- Seven bits leave the highest bit of a byte to tell a short length from a long one. -/
theorem sevenBits :
    ∀ low : Fin 128, low.val &&& 0x80 = 0 ∧ (0x80 ||| low.val) &&& 0x80 ≠ 0 ∧
      (0x80 ||| low.val) &&& 0x7F = low.val ∧ 0x80 ||| low.val < 256 := by
  decide

theorem byteAt_drop (data : Bytes) (off i : Nat) :
    byteAt data (off + i) = byteAt (data.drop off) i := by
  unfold byteAt
  rw [List.getElem?_drop]

/-- The length and the value after a tag. -/
theorem readTlv_of_first {data : Bytes} {off first num length : Nat} {tag : UInt8}
    {value : Bytes} (tagged : byteAt data off = .ok tag.toNat)
    (read : byteAt data (off + 1) = .ok first)
    (counted : (if first &&& 0x80 ≠ 0 then first &&& 0x7F else 0) = num)
    (told : (if first &&& 0x80 ≠ 0 then bigEndian ((data.drop (off + 2)).take num)
      else first) =
      length)
    (placed : (data.drop (off + 2 + num)).take length = value)
    (whole : value.length = length) :
    readTlv data off = .ok (tag.toNat, value, off + 2 + num + length) := by
  rw [readTlv, tagged, read]
  simp only [bind, Except.bind]
  rw [counted, told, placed, if_neg (not_not.mpr whole)]

/-- `_read_tlv` undoes `_tlv`. -/
theorem readTlv_tlv {data rest value : Bytes} {off : Nat} {tag : UInt8}
    (placed : data.drop off = tlv tag value ++ rest) (small : Small value) :
    readTlv data off = .ok (tag.toNat, value, off + (tlv tag value).length) := by
  have tagged : byteAt data off = .ok tag.toNat := by
    have here := byteAt_drop data off 0
    rw [Nat.add_zero, placed] at here
    exact here
  by_cases short : value.length < 0x80
  · have bits := (sevenBits ⟨value.length, short⟩).1
    have encoded : tlv tag value ++ rest =
        [tag, UInt8.ofNat value.length] ++ (value ++ rest) := by
      rw [tlv, derLen, if_pos short, List.append_assoc]
      rfl
    have read : byteAt data (off + 1) = .ok value.length := by
      rw [byteAt_drop, placed, encoded]
      change Except.ok (UInt8.ofNat value.length).toNat = _
      rw [UInt8.toNat_ofNat', Nat.mod_eq_of_lt (by omega)]
    have inner : (data.drop (off + 2 + 0)).take value.length = value := by
      rw [Nat.add_zero, ← List.drop_drop, placed, encoded]
      exact List.take_left' rfl
    have sized : (tlv tag value).length = 2 + 0 + value.length := by
      rw [tlv, derLen, if_pos short]
      simp only [List.length_append, List.length_singleton]
    rw [readTlv_of_first tagged read (if_neg (not_not.mpr bits))
      (if_neg (not_not.mpr bits))
      inner rfl, sized]
    congr 3
    omega
  · have few : (magnitude value.length).length < 128 := by
      have bound : (magnitude value.length).length ≤ 127 := length_magnitudeLoop_le small
      omega
    obtain ⟨-, long, num, byte⟩ := sevenBits ⟨(magnitude value.length).length, few⟩
    simp only at long num byte
    have encoded : tlv tag value ++ rest =
        [tag, UInt8.ofNat (0x80 ||| (magnitude value.length).length)] ++
          (magnitude value.length ++ (value ++ rest)) := by
      rw [tlv, derLen, if_neg short]
      simp
    have read : byteAt data (off + 1) =
        .ok (0x80 ||| (magnitude value.length).length) := by
      rw [byteAt_drop, placed, encoded]
      change Except.ok (UInt8.ofNat (0x80 ||| (magnitude value.length).length)).toNat = _
      rw [UInt8.toNat_ofNat', Nat.mod_eq_of_lt byte]
    have after : data.drop (off + 2) = magnitude value.length ++ (value ++ rest) := by
      rw [← List.drop_drop, placed, encoded]
      rfl
    have length : bigEndian ((data.drop (off + 2)).take (magnitude value.length).length) =
        value.length := by
      rw [after, List.take_left' rfl, bigEndian_magnitude]
    have inner : (data.drop (off + 2 + (magnitude value.length).length)).take
        value.length =
        value := by
      rw [← List.drop_drop, after, List.drop_left' rfl, List.take_left' rfl]
    have sized : (tlv tag value).length =
        2 + (magnitude value.length).length + value.length := by
      rw [tlv, derLen, if_neg short]
      simp only [List.length_append, List.length_cons, List.length_nil]
      omega
    rw [readTlv_of_first tagged read ((if_pos long).trans num)
      ((if_pos long).trans length)
      inner rfl, sized]
    congr 3
    omega

/-- The value at the head of some data. -/
theorem readTlv_head {value : Bytes} {tag : UInt8} (small : Small value) (rest : Bytes) :
    readTlv (tlv tag value ++ rest) 0 = .ok
      (tag.toNat, value, (tlv tag value).length) := by
  rw [readTlv_tlv rfl small, Nat.zero_add]

theorem readTlv_self {value : Bytes} {tag : UInt8} (small : Small value) :
    readTlv (tlv tag value) 0 = .ok (tag.toNat, value, (tlv tag value).length) := by
  have alone := @readTlv_head value tag small []
  rwa [List.append_nil] at alone

theorem length_le_tlv (tag : UInt8) (value : Bytes) :
    value.length ≤ (tlv tag value).length := by
  rw [tlv, List.length_append]
  omega

theorem Small.of_tlv {tag : UInt8} {value : Bytes} (small : Small (tlv tag value)) :
    Small value :=
  small.of_le (length_le_tlv tag value)

/-- A number whose highest byte leaves the sign bit free is read as it is. -/
theorem signedBigEndian_of_low {value : Bytes} (low : (typeByte value).toNat < 0x80) :
    signedBigEndian value = bigEndian value :=
  if_neg (Nat.not_le.mpr low)

theorem bigEndian_zero_cons (bytes : Bytes) :
    bigEndian (0 :: bytes) = bigEndian bytes := rfl

/-- `_decode_int` undoes `_der_int`. -/
theorem decodeInt_derInt {n : Nat} (small : Small (derInt n)) :
    decodeInt (derInt n) = .ok (n : Int) := by
  have highBit : ∀ byte : Fin 256, byte.val &&& 0x80 = 0 → byte.val < 0x80 := by
    decide +kernel
  have read : ∀ value, Small (tlv integerTag value) → decodeInt (tlv integerTag value) =
      .ok (signedBigEndian value) := by
    intro value fits
    rw [decodeInt, readTlv_self fits.of_tlv]
    rfl
  unfold derInt at small ⊢
  split at small
  · next zero =>
      rw [if_pos zero, read _ small, zero]
      rfl
  · next positive =>
      rw [if_neg positive]
      dsimp only at small ⊢
      split at small
      · next high =>
          have low : (typeByte (0 :: magnitude n)).toNat < 0x80 := by
            change (0 : UInt8).toNat < 0x80
            decide
          rw [if_pos high, read _ small, signedBigEndian_of_low low, bigEndian_zero_cons,
            bigEndian_magnitude]
      · next low =>
          rw [if_neg low, read _ small, signedBigEndian_of_low, bigEndian_magnitude]
          exact highBit ⟨_, (typeByte (magnitude n)).toNat_lt⟩ (not_not.mp low)

/-! ## Loops over encoded values -/

theorem readTlv_advances {data value : Bytes} {off tag next : Nat}
    (read : readTlv data off = .ok (tag, value, next)) : off + 2 ≤ next := by
  unfold readTlv at read
  rw [bind_eq_ok] at read
  obtain ⟨tagByte, -, rest⟩ := read
  rw [bind_eq_ok] at rest
  obtain ⟨first, -, rest⟩ := rest
  dsimp only at rest
  generalize (if first &&& 0x80 ≠ 0 then first &&& 0x7F else 0) = num at rest
  split_ifs at rest with long whole whole
  all_goals
    injection rest with pair
    have nexts := congrArg (fun read : Nat × Bytes × Nat => read.2.2) pair
    dsimp only at nexts
    omega

/-- The rounds allowed never end the loop: it stops at the end of the body. -/
theorem scanTlvs_of_le (visit : σ → Nat → Bytes → Except ReadError σ) (body : Bytes)
    {fuel more off : Nat} (state : σ) (enough : body.length ≤ off + fuel)
    (le : fuel ≤ more) :
    scanTlvs visit body more off state = scanTlvs visit body fuel off state := by
  induction fuel generalizing more off state with
  | zero =>
      cases more with
      | zero => rfl
      | succ more => exact if_neg (by omega)
  | succ fuel inductionHypothesis =>
      cases more with
      | zero => omega
      | succ more =>
          rw [scanTlvs, scanTlvs]
          split
          · cases read : readTlv body off with
            | error error => rfl
            | ok parts =>
                have advanced := readTlv_advances read
                simp only [bind, Except.bind]
                cases visit state parts.1 parts.2.1 with
                | error error => rfl
                | ok state =>
                    apply inductionHypothesis
                    · omega
                    · omega
          · rfl

/-- A loop over encoded values visits each of them. -/
theorem scanTlvs_items (visit : σ → Nat → Bytes → Except ReadError σ) {body : Bytes}
    {items : List (UInt8 × Bytes)} {fuel off : Nat} (state : σ)
    (placed : body.drop off = (items.map fun item => tlv item.1 item.2).flatten)
    (inside : off ≤ body.length) (enough : items.length ≤ fuel)
    (small : ∀ item ∈ items, Small item.2) :
    scanTlvs visit body fuel off state =
      items.foldlM (fun state item => visit state item.1.toNat item.2) state := by
  induction items generalizing fuel off state with
  | nil =>
      have ended : ¬ off < body.length := by
        rw [List.map_nil, List.flatten_nil, List.drop_eq_nil_iff] at placed
        omega
      cases fuel with
      | zero => rfl
      | succ fuel => exact if_neg ended
  | cons item items inductionHypothesis =>
      cases fuel with
      | zero => cases enough
      | succ fuel =>
          rw [List.map_cons, List.flatten_cons] at placed
          have sizes := congrArg List.length placed
          have positive : 2 ≤ (tlv item.1 item.2).length := by
            have advanced := readTlv_advances
              (readTlv_tlv placed (small item List.mem_cons_self))
            omega
          rw [List.length_drop, List.length_append] at sizes
          rw [scanTlvs, if_pos (by omega),
            readTlv_tlv placed (small item List.mem_cons_self), List.foldlM_cons]
          change (visit state item.1.toNat item.2 >>= fun state => _) = _
          congr 1
          funext state
          apply inductionHypothesis
          · rw [← List.drop_drop, placed, List.drop_left' rfl]
          · omega
          · exact Nat.le_of_succ_le_succ enough
          · intro other member
            exact small other (List.mem_cons_of_mem _ member)

/-- Every encoded value counts in the length of the body. -/
theorem length_items_le (items : List (UInt8 × Bytes)) :
    items.length ≤ (items.map fun item => tlv item.1 item.2).flatten.length := by
  induction items with
  | nil => exact Nat.le_refl 0
  | cons item items inductionHypothesis =>
      have positive : 1 ≤ (tlv item.1 item.2).length := by
        rw [tlv, List.length_append, List.length_append, List.length_singleton]
        omega
      rw [List.map_cons, List.flatten_cons, List.length_append, List.length_cons]
      omega

theorem length_item_le {items : List (UInt8 × Bytes)} {item : UInt8 × Bytes}
    (member : item ∈ items) :
    item.2.length ≤ (items.map fun item => tlv item.1 item.2).flatten.length := by
  have inner : (tlv item.1 item.2).Sublist
      (items.map fun item => tlv item.1 item.2).flatten :=
    List.sublist_flatten_of_mem (List.mem_map.mpr ⟨item, member, rfl⟩)
  exact (length_le_tlv item.1 item.2).trans inner.length_le

/-- The whole loop, over the encodings of some items that the visitor understands. -/
theorem scanTlvs_encoded {α : Type} {items : List α} {tag : α → UInt8} {value : α → Bytes}
    {visit : σ → Nat → Bytes → Except ReadError σ} {next : σ → α → σ} (state : σ)
    (small : Small (items.map fun item => tlv (tag item) (value item)).flatten)
    (understood : ∀ item ∈ items, ∀ state,
      visit state (tag item).toNat (value item) = .ok (next state item)) :
    scanTlvs visit (items.map fun item => tlv (tag item) (value item)).flatten
        (items.map fun item => tlv (tag item) (value item)).flatten.length 0 state =
      .ok (items.foldl next state) := by
  have pairs : (items.map fun item => tlv (tag item) (value item)) =
      (items.map fun item => (tag item, value item)).map fun pair =>
        tlv pair.1 pair.2 := by
    rw [List.map_map]
    rfl
  rw [pairs] at small ⊢
  rw [scanTlvs_items visit state rfl (Nat.zero_le _) (length_items_le _), List.foldlM_map]
  · apply foldlM_ok
    exact understood
  · intro pair member
    exact small.of_le (length_item_le member)

end Krb
end Probes
end PqcScan
