import PqcScan.Probes.Handshake

/-!
# Integers in bytes

`struct.pack` and `struct.unpack` of unsigned integers in either byte order, and
`int.from_bytes`.
-/

namespace PqcScan
namespace Probes

open Python

/-- The byte order of a format: `>` or `<`. -/
inductive ByteOrder
  | big
  | little
  deriving DecidableEq, Repr

/-- The lowest bytes of an integer, the highest of them first. -/
def bigBytes : Nat → Nat → Bytes
  | 0, _ => []
  | width + 1, n => bigBytes width (n / 256) ++ [UInt8.ofNat n]

@[simp] theorem length_bigBytes (width n : Nat) : (bigBytes width n).length = width := by
  induction width generalizing n with
  | zero => rfl
  | succ width inductionHypothesis =>
      rw [bigBytes, List.length_append, inductionHypothesis, List.length_singleton]

theorem bigEndian_concat (bytes : Bytes) (byte : UInt8) :
    bigEndian (bytes ++ [byte]) = bigEndian bytes * 256 + byte.toNat := by
  rw [bigEndian, List.foldl_append]
  rfl

theorem bigEndian_bigBytes {width n : Nat} (small : n < 256 ^ width) :
    bigEndian (bigBytes width n) = n := by
  induction width generalizing n with
  | zero =>
      have nothing : n = 0 := by simpa using small
      rw [nothing]
      rfl
  | succ width inductionHypothesis =>
      have high : n / 256 < 256 ^ width := by
        apply Nat.div_lt_of_lt_mul
        rwa [Nat.pow_succ, Nat.mul_comm] at small
      rw [bigBytes, bigEndian_concat, inductionHypothesis high, UInt8.toNat_ofNat']
      omega

namespace ByteOrder

/-- `struct.pack` of one unsigned integer of the given width. -/
def pack (order : ByteOrder) (width n : Nat) : Bytes :=
  match order with
  | .big => bigBytes width n
  | .little => (bigBytes width n).reverse

/-- The unsigned integer of some bytes. -/
def decode (order : ByteOrder) (bytes : Bytes) : Nat :=
  match order with
  | .big => bigEndian bytes
  | .little => bigEndian bytes.reverse

@[simp] theorem length_pack (order : ByteOrder) (width n : Nat) :
    (order.pack width n).length = width := by
  cases order with
  | big => exact length_bigBytes width n
  | little => rw [pack, List.length_reverse, length_bigBytes]

theorem decode_pack (order : ByteOrder) {width n : Nat} (small : n < 256 ^ width) :
    order.decode (order.pack width n) = n := by
  cases order with
  | big => exact bigEndian_bigBytes small
  | little =>
      rw [decode, pack, List.reverse_reverse]
      exact bigEndian_bigBytes small

/-- The integer at the head of what follows its encoding. -/
theorem decode_take_pack (order : ByteOrder) {width n : Nat} (small : n < 256 ^ width)
    (rest : Bytes) : order.decode ((order.pack width n ++ rest).take width) = n := by
  rw [List.take_left' (length_pack order width n), decode_pack order small]

end ByteOrder

end Probes
end PqcScan
