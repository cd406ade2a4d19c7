import PqcScan.Python.Value

/-!
# Encoders of the standard library

`json.dumps`, `gzip.compress` and the two `isoformat` methods.  The model takes
them as given, like the decoders of `Runtime`; what a proof needs is that one
undoes the other on the values at hand.  The encoder at the end is executable.
-/

namespace PqcScan
namespace Python

open Library

/-- The encoders at the time of one call. -/
structure Encoder where
  jsonDumps : Json → Except PyError Bytes
  compress : Bytes → Bytes
  datetimeIso : DateTime → String
  dateIso : Date → String

namespace Encoder

/-- The decoders undo the encoders on one document. -/
structure Decodes (encoder : Encoder) (py : Runtime) (document : Json) : Prop where
  json : ∀ raw, encoder.jsonDumps document = .ok raw → py.jsonLoads raw = .ok document
  gzip : ∀ raw limit, encoder.jsonDumps document = .ok raw → raw.length < limit →
    py.decompress (encoder.compress raw) limit = .ok (raw, [])

/-- Only two of the decoders matter. -/
theorem Decodes.congr {encoder : Encoder} {py other : Runtime} {document : Json}
    (decodes : encoder.Decodes py document) (json : other.jsonLoads = py.jsonLoads)
    (gzip : other.decompress = py.decompress) : encoder.Decodes other document := by
  constructor
  · rw [json]
    exact decodes.json
  · rw [gzip]
    exact decodes.gzip

/-- `fromisoformat` undoes `isoformat` on the listed values. -/
structure ReadsIso (encoder : Encoder) (py : Runtime) (times : List DateTime)
    (dates : List Date) : Prop where
  datetime : ∀ time ∈ times, encoder.datetimeIso time ≠ "" ∧
    py.datetimeFromIso (encoder.datetimeIso time) = some time
  date : ∀ date ∈ dates, encoder.dateIso date ≠ "" ∧
    py.dateFromIso (encoder.dateIso date) = some date

end Encoder

/-- `_iso`. -/
def iso {α : Type} (format : α → String) : Option α → Json
  | none => .null
  | some value => .str (format value)

/-! ## An executable encoder -/

/-- Eight steps of the CRC-32 register. -/
def crcShift : Nat → UInt32 → UInt32
  | 0, register => register
  | count + 1, register =>
      crcShift count
        (if register &&& 1 = 1 then (register >>> 1) ^^^ 0xedb88320 else register >>> 1)

/-- The CRC-32 of the content, low byte first. -/
def crc32 (raw : Bytes) : Bytes :=
  let register := raw.foldl (fun register byte => crcShift 8 (register ^^^ byte.toUInt32))
    0xffffffff ^^^ 0xffffffff
  [register.toUInt8, (register >>> 8).toUInt8, (register >>> 16).toUInt8,
    (register >>> 24).toUInt8]

/-- A number in decimal, padded with zeros. -/
def padded (width value : Nat) : String :=
  String.ofList (List.leftpad width '0' (Nat.toDigits 10 value))

/-- `date.isoformat`, for days counted from 1970-01-01. -/
def isoDate (date : Date) : String :=
  let shifted := date + 719468
  let era := shifted / 146097
  let ofEra := (shifted % 146097).toNat
  let yearOfEra := (ofEra - ofEra / 1460 + ofEra / 36524 - ofEra / 146096) / 365
  let ofYear := ofEra - (365 * yearOfEra + yearOfEra / 4 - yearOfEra / 100)
  let march := (5 * ofYear + 2) / 153
  let day := ofYear - (153 * march + 2) / 5 + 1
  let month := if march < 10 then march + 3 else march - 9
  let year := (era * 400).toNat + yearOfEra + if month ≤ 2 then 1 else 0
  padded 4 year ++ "-" ++ padded 2 month ++ "-" ++ padded 2 day

/-- `datetime.isoformat`, for microseconds counted from 1970-01-01. -/
def isoDateTime (time : DateTime) : String :=
  let date := time / 86400000000
  let seconds := (time % 86400000000).toNat / 1000000
  let micros := (time % 1000000).toNat
  isoDate date ++ "T" ++ padded 2 (seconds / 3600) ++ ":" ++
    padded 2 (seconds / 60 % 60) ++ ":" ++ padded 2 (seconds % 60) ++
    if micros = 0 then "" else "." ++ padded 6 micros

/-- The JSON text of a document as bytes. -/
def jsonBytes (document : Json) : Bytes :=
  (jsonDumps asciiText document).map fun char => UInt8.ofNat char.toNat

/-- The encoder whose gzip streams have one stored block. -/
def Encoder.stored : Encoder where
  jsonDumps document := .ok (jsonBytes document)
  compress raw := storedGzip raw (crc32 raw)
  datetimeIso := isoDateTime
  dateIso := isoDate

/-- The document with the checksum of its text. -/
def Document.ofJson (value : Json) : Document where
  value
  crc := crc32 (jsonBytes value)

/-- A runtime that knows a document reads what the encoder writes for it. -/
theorem Encoder.stored_decodes (document : Json) :
    Encoder.stored.Decodes (Runtime.ofDocuments [Document.ofJson document]) document := by
  constructor
  · intro raw encoded
    cases encoded
    simp [Runtime.ofDocuments, Document.ofJson, Document.raw, jsonBytes]
  · intro raw limit encoded short
    cases encoded
    have same : (Document.ofJson document).data =
        Encoder.stored.compress (jsonBytes document) := rfl
    have text : (Document.ofJson document).raw = jsonBytes document := rfl
    simp only [Runtime.ofDocuments, List.find?_cons, same, beq_self_eq_true, text]
    rw [List.take_of_length_le (by omega), List.drop_eq_nil_of_le (by omega)]

end Python
end PqcScan
