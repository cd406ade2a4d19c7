import PqcScan.Library.Regions
import PqcScan.Probes.ByteOrder
import PqcScan.Python.Str
import Mathlib.Algebra.GroupWithZero.Nat
import Mathlib.Data.List.Forall2

/-!
# Records of integers

`struct.pack` and `struct.unpack` of several unsigned integers without padding, and
strings that end with a NUL.
-/

namespace PqcScan
namespace Probes

open Library Python

namespace ByteOrder

variable (order : ByteOrder)

/-- The integers of the given widths, one after the other. -/
def fields : List Nat → Bytes → List Nat
  | [], _ => []
  | width :: widths, bytes =>
      order.decode (bytes.take width) :: fields widths (bytes.drop width)

/-- `struct.unpack`, or nothing on `struct.error`. -/
def unpackAll (widths : List Nat) (bytes : Bytes) : Option (List Nat) :=
  if bytes.length = widths.sum then some (order.fields widths bytes) else none

/-- `struct.pack`. -/
def packAll : List Nat → List Nat → Bytes
  | width :: widths, value :: values => order.pack width value ++ packAll widths values
  | _, _ => []

end ByteOrder

/-- Every value has its width. -/
def Fits (widths values : List Nat) : Prop :=
  List.Forall₂ (fun width value => value < 256 ^ width) widths values

instance (widths values : List Nat) : Decidable (Fits widths values) :=
  inferInstanceAs (Decidable (List.Forall₂ _ widths values))

namespace Fits

variable {widths values : List Nat}

theorem length_packAll (fits : Fits widths values) (order : ByteOrder) :
    (order.packAll widths values).length = widths.sum := by
  induction fits with
  | nil => rfl
  | cons small fits inductionHypothesis =>
      rw [ByteOrder.packAll, List.length_append, ByteOrder.length_pack,
        inductionHypothesis, List.sum_cons]

theorem fields_packAll (fits : Fits widths values) (order : ByteOrder) :
    order.fields widths (order.packAll widths values) = values := by
  induction fits with
  | nil => rfl
  | @cons width value widths values small fits inductionHypothesis =>
      rw [ByteOrder.packAll, ByteOrder.fields, ByteOrder.decode_take_pack order small,
        List.drop_left' (ByteOrder.length_pack order width value), inductionHypothesis]

/-- What was packed is unpacked. -/
theorem unpackAll_packAll (fits : Fits widths values) (order : ByteOrder) :
    order.unpackAll widths (order.packAll widths values) = some values := by
  rw [ByteOrder.unpackAll, if_pos (fits.length_packAll order), fits.fields_packAll order]

/-- What was packed in the data is unpacked from it. -/
theorem unpackAll_window (fits : Fits widths values) {order : ByteOrder} {data : Bytes}
    {place size : Nat} (sized : size = widths.sum)
    (lies : Lies data place (order.packAll widths values)) :
    order.unpackAll widths ((data.drop place).take size) = some values := by
  have window := lies.window
  rw [fits.length_packAll order, ← sized] at window
  rw [window, fits.unpackAll_packAll]

end Fits

/-! ## Tables -/

section Tables

variable {ι : Type} {order : ByteOrder} {widths : List Nat} {size :
  Nat} {records : List ι}
  {values : ι → List Nat} {data : Bytes} {base : Nat}

theorem length_packed (order : ByteOrder) (sized : size = widths.sum)
    (fit : ∀ record ∈ records, Fits widths (values record)) :
    ∀ entry ∈ records.map fun record => order.packAll widths (values record),
      entry.length = size := by
  intro entry member
  obtain ⟨record, inside, rfl⟩ := List.mem_map.mp member
  rw [(fit record inside).length_packAll, sized]

/-- A table of records at places of a stride is read up to the cap. -/
theorem entries_spread (sized : size = widths.sum)
    (fit : ∀ record ∈ records, Fits widths (values record)) {stride : Nat}
    (lies : ∀ index record, records[index]? = some record →
      Lies data (base + index * stride) (order.packAll widths (values record)))
        (cap : Nat) :
    entries data base stride size (min records.length cap) =
      (records.take cap).map fun record => order.packAll widths (values record) := by
  have table := @entries_take UInt8 data base stride size _
    (length_packed order sized fit) (fun index entry here => by
      rw [List.getElem?_map, Option.map_eq_some_iff] at here
      obtain ⟨record, there, rfl⟩ := here
      exact lies index record there) cap
  rwa [List.length_map, ← List.map_take] at table

/-- A table of records without gaps is read up to the cap. -/
theorem entries_packed (sized : size = widths.sum)
    (fit : ∀ record ∈ records, Fits widths (values record))
    (lies : Lies data base
      (records.map fun record => order.packAll widths (values record)).flatten)
        (cap : Nat) :
    entries data base size size (min records.length cap) =
      (records.take cap).map fun record => order.packAll widths (values record) := by
  refine entries_spread sized fit (fun index record here => ?_) cap
  refine lies_flatten (length_packed order sized fit) lies index _ ?_
  rw [List.getElem?_map, here, Option.map_some]

end Tables

/-! ## Strings -/

/-- `raw.decode("ascii", "ignore")`. -/
def decodeAsciiIgnore (raw : Bytes) : List Char :=
  (raw.filter (· < 128)).map fun byte => Char.ofNat byte.toNat

/-- `_cstr`; `none` is an end at the end of the buffer. -/
def cstr (buf : Bytes) (start : Nat) (stop : Option Nat) : List Char :=
  if buf.length ≤ start then []
  else
    let stop := min (stop.getD buf.length) buf.length
    decodeAsciiIgnore (((buf.take stop).drop start).takeWhile (· != 0))

/-- A name that a string can hold. -/
structure PlainName (name : List Char) : Prop where
  nonempty : name ≠ []
  ascii : ∀ char ∈ name, char.toNat < 128
  nonzero : ∀ char ∈ name, char.toNat ≠ 0

/-- The bytes of an ASCII name. -/
def nameBytes (name : List Char) : Bytes := name.map fun char => UInt8.ofNat char.toNat

namespace PlainName

variable {name : List Char}

theorem toNat_byte (plain : PlainName name) {char : Char} (member : char ∈ name) :
    (UInt8.ofNat char.toNat).toNat = char.toNat := by
  have small := plain.ascii char member
  rw [UInt8.toNat_ofNat']
  omega

theorem nameBytes_ne_zero (plain : PlainName name) : ∀ byte ∈ nameBytes name,
      byte ≠ 0 := by
  intro byte member zero
  obtain ⟨char, inside, rfl⟩ := List.mem_map.mp member
  apply plain.nonzero char inside
  rw [← plain.toNat_byte inside, zero]
  rfl

theorem decode_nameBytes (plain : PlainName name) :
    decodeAsciiIgnore (nameBytes name) = name := by
  have kept : (nameBytes name).filter (· < 128) = nameBytes name := by
    rw [List.filter_eq_self]
    intro byte member
    obtain ⟨char, inside, rfl⟩ := List.mem_map.mp member
    rw [decide_eq_true_iff, UInt8.lt_iff_toNat_lt, plain.toNat_byte inside]
    exact plain.ascii char inside
  rw [decodeAsciiIgnore, kept, nameBytes, List.map_map]
  refine (List.map_congr_left fun char inside => ?_).trans (List.map_id name)
  rw [Function.comp_apply, plain.toNat_byte inside, Char.ofNat_toNat]
  rfl

/-- A name with its NUL inside the bounds is read back. -/
theorem cstr_eq (plain : PlainName name) {data : Bytes} {start : Nat} {stop : Option Nat}
    (lies : Lies data start (nameBytes name ++ [0]))
    (inside : ∀ bound, stop = some bound → start + name.length < bound) :
    cstr data start stop = name := by
  have size := lies.length_le (by simp)
  have width : (nameBytes name).length = name.length := List.length_map _
  rw [List.length_append, width, List.length_singleton] at size
  have bound : start + name.length + 1 ≤ min (stop.getD data.length) data.length := by
    cases stop with
    | none => rw [Option.getD_none, Nat.min_self]; omega
    | some stop =>
        have := inside stop rfl
        rw [Option.getD_some]
        omega
  have cut : Lies (data.take (min (stop.getD data.length) data.length)) start
      (nameBytes name ++ [0]) := lies.take (by
    rw [List.length_append, width, List.length_singleton]
    omega)
  obtain ⟨rest, split⟩ := cut
  rw [cstr, if_neg (by omega)]
  dsimp only
  rw [← split, List.append_assoc, List.takeWhile_append_of_pos, List.singleton_append,
    List.takeWhile_cons_of_neg (by simp), List.append_nil, plain.decode_nameBytes]
  intro byte member
  simpa using plain.nameBytes_ne_zero byte member

end PlainName

end Probes
end PqcScan
