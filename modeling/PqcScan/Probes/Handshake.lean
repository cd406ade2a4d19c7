import PqcScan.Library.Framing
import PqcScan.Python.Value

/-!
# TLS records and handshake messages

The byte layouts that `probes/net_tls_cert_chain.py` and
`probes/net_tls_cert_chain_tls13.py` read: records, handshake messages, and the
entries of a TLS 1.2 certificate list.
-/

namespace PqcScan
namespace Probes

open Library Python

/-- `int.from_bytes(bytes, "big")`, and `struct.unpack(">H", …)` of two bytes. -/
def bigEndian (bytes : Bytes) : Nat :=
  bytes.foldl (fun value byte => value * 256 + byte.toNat) 0

/-- `_u24`. -/
def u24 (n : Nat) : Bytes :=
  [UInt8.ofNat (n / 65536), UInt8.ofNat (n / 256), UInt8.ofNat n]

@[simp] theorem length_u24 (n : Nat) : (u24 n).length = 3 := rfl

theorem bigEndian_u24 {n : Nat} (small : n < 2 ^ 24) : bigEndian (u24 n) = n := by
  simp only [bigEndian, u24, List.foldl_cons, List.foldl_nil, UInt8.toNat_ofNat']
  omega

/-- A record: content type, version and length. -/
def recordFraming : Framing UInt8 := ⟨5, by decide, fun head => bigEndian (head.drop 3)⟩

/-- A handshake message: type and length. -/
def messageFraming : Framing UInt8 := ⟨4, by decide, fun head => bigEndian (head.drop 1)⟩

/-- An entry of a TLS 1.2 certificate list: length and certificate. -/
def certificateFraming : Framing UInt8 := ⟨3, by decide, bigEndian⟩

/-- The content type of a record or the type of a message. -/
def typeByte (head : Bytes) : UInt8 := head.headD 0

/-- The type of a Certificate message. -/
def certificateType : UInt8 := 0x0B

/-- The content type of handshake records. -/
def handshakeType : UInt8 := 0x16

/-- The record carries a handshake. -/
def isHandshake (head : Bytes) : Bool := typeByte head == handshakeType

/-! ## Reads -/

/-- The reads of a loop bring all the bytes, one nonempty chunk after the other,
before the buffer has reached its limit. -/
structure Delivers (limit : Nat) (bytes : Bytes) (chunks : List Bytes) : Prop where
  whole : chunks.flatten = bytes
  nonempty : ∀ chunk ∈ chunks, chunk ≠ []
  below : ∀ early chunk late, chunks = early ++ chunk :: late →
    early.flatten.length < limit

/-- Bytes that fit into the buffer are read whole. -/
theorem delivers_of_short {limit : Nat} {bytes : Bytes} {chunks : List Bytes}
    (whole : chunks.flatten = bytes) (nonempty : ∀ chunk ∈ chunks, chunk ≠ [])
    (short : bytes.length < limit) : Delivers limit bytes chunks := by
  refine ⟨whole, nonempty, fun early chunk late split => ?_⟩
  rw [← whole, split, List.flatten_append, List.length_append] at short
  omega

/-- The buffer is a prefix of what is read. -/
theorem eq_take_of_append {buf rest bytes : Bytes} (same : buf ++ rest = bytes) :
    buf = bytes.take buf.length := by
  rw [← same, List.take_left' rfl]

end Probes
end PqcScan
