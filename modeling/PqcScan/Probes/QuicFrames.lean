import PqcScan.Probes.QuicPacket

/-!
# Frames of an Initial packet

The frames a client may put in an Initial packet, as RFC 9000 encodes them.
`_reassemble_crypto` skips four fields of an ACK frame; the fields after them are
read as frames of their own.
-/

namespace PqcScan
namespace Probes

open Library Python

/-! ## Frames -/

/-- A number in one of the widths that hold it. -/
structure Varint where
  width : Nat
  val : Nat
  fits : VarintFits width val

namespace Varint

/-- The number as it is sent. -/
def bytes (number : Varint) : Bytes := encodeVarint number.width number.val

/-- A number below 64 in one byte. -/
def small (val : Nat) (bound : val < 64) : Varint := ⟨0, val, by decide, bound⟩

theorem bytes_small {number : Varint} (narrow : number.width = 0) :
    number.bytes = [UInt8.ofNat number.val] ∧ number.val < 64 := by
  obtain ⟨width, val, fits⟩ := number
  obtain rfl : width = 0 := narrow
  have bound : val < 64 := fits.2
  constructor
  · simp [bytes, encodeVarint, toBytes]
  · exact bound

/-- The first byte of a wider number is no frame type that is known. -/
theorem bytes_wide {number : Varint} (wide : number.width ≠ 0) :
    ∃ first rest, number.bytes = first :: rest ∧ 64 ≤ first.toNat := by
  obtain ⟨first, rest, encoded, prefixed, -⟩ := encodeVarint_value number.fits
  refine ⟨first, rest, encoded, ?_⟩
  by_contra low
  rw [Nat.shiftRight_eq_div_pow, Nat.div_eq_of_lt (by omega)] at prefixed
  exact wide prefixed.symm

end Varint

/-- An ACK frame (types 0x02 and 0x03). -/
structure AckFrame where
  largest : Varint
  delay : Varint
  countWidth : Nat
  first : Varint
  /-- The gap and the length of each additional range. -/
  ranges : List (Varint × Varint)
  /-- The counts of a frame of type 0x03. -/
  ecn : Option (Varint × Varint × Varint)
  countFits : VarintFits countWidth ranges.length

namespace AckFrame

/-- The number of the further ranges. -/
def count (frame : AckFrame) : Varint :=
  ⟨frame.countWidth, frame.ranges.length, frame.countFits⟩

/-- The fields after the first range. -/
def later (frame : AckFrame) : List Varint :=
  frame.ranges.flatMap (fun range => [range.1, range.2]) ++
    match frame.ecn with
    | none => []
    | some (ect0, ect1, ce) => [ect0, ect1, ce]

/-- The type of the frame: with or without ECN counts. -/
def type (frame : AckFrame) : UInt8 := if frame.ecn.isSome then 0x03 else 0x02

end AckFrame

/-- A CRYPTO frame (type 0x06). -/
structure CryptoFrame where
  offset : Varint
  lengthWidth : Nat
  data : Bytes
  lengthFits : VarintFits lengthWidth data.length

/-- The frames of the claim on an Initial packet's payload. -/
inductive QuicFrame
  | padding
  | ping
  | ack (frame : AckFrame)
  | crypto (frame : CryptoFrame)

/-- Numbers one after the other. -/
def encodeFields (fields : List Varint) : Bytes := fields.flatMap Varint.bytes

/-- The frame as it is sent. -/
def CryptoFrame.bytes (frame : CryptoFrame) : Bytes :=
  0x06 :: (frame.offset.bytes ++
    (encodeVarint frame.lengthWidth frame.data.length ++ frame.data))

/-- The frame as it is sent. -/
def AckFrame.bytes (frame : AckFrame) : Bytes :=
  frame.type :: (encodeFields [frame.largest, frame.delay, frame.count, frame.first] ++
    encodeFields frame.later)

/-- The frame as it is sent. -/
def QuicFrame.bytes : QuicFrame → Bytes
  | .padding => [0x00]
  | .ping => [0x01]
  | .ack frame => frame.bytes
  | .crypto frame => frame.bytes

/-- The payload of a packet. -/
def encodeFrames (frames : List QuicFrame) : Bytes := frames.flatMap QuicFrame.bytes

@[simp] theorem encodeFrames_nil : encodeFrames [] = [] := rfl

@[simp] theorem encodeFrames_cons (frame : QuicFrame) (frames : List QuicFrame) :
    encodeFrames (frame :: frames) = frame.bytes ++ encodeFrames frames :=
  List.flatMap_cons

@[simp] theorem encodeFrames_append (before after : List QuicFrame) :
    encodeFrames (before ++ after) = encodeFrames before ++ encodeFrames after :=
  List.flatMap_append

/-- The chunks that a frame adds. -/
def QuicFrame.collect (chunks : Dict Nat Bytes) : QuicFrame → Dict Nat Bytes
  | .crypto frame => chunks.set frame.offset.val frame.data
  | _ => chunks

/-- The CRYPTO frames of a list, the later of two at one offset. -/
def collected (frames : List QuicFrame) : Dict Nat Bytes :=
  frames.foldl QuicFrame.collect Dict.empty

/-! ## Reading a suffix -/

theorem readByte_suffix (front rest : Bytes) (off : Nat) :
    readByte (front ++ rest) (front.length + off) = readByte rest off := by
  rw [readByte, readByte, List.getElem?_append_right (by omega), Nat.add_sub_cancel_left]

theorem varintTail_suffix (front rest : Bytes) (off : Nat) (positions : List Nat)
    (val : Nat) :
    varintTail (front ++ rest) (front.length + off) positions val =
      varintTail rest off positions val := by
  induction positions generalizing val with
  | nil => rfl
  | cons i positions inductionHypothesis =>
      rw [varintTail, varintTail, Nat.add_assoc, readByte_suffix]
      cases readByte rest (off + i) with
      | error problem => rfl
      | ok byte => exact inductionHypothesis _

/-- The bytes before a number do not matter. -/
theorem varint_suffix (front rest : Bytes) (off : Nat) :
    varint (front ++ rest) (front.length + off) =
      (varint rest off).map
        (Option.map fun result => (result.1, front.length + result.2)) := by
  unfold varint
  by_cases outside : rest.length ≤ off
  · rw [if_pos outside, if_pos (by rw [List.length_append]; omega)]
    rfl
  · rw [if_neg outside, if_neg (by rw [List.length_append]; omega), readByte_suffix]
    cases readByte rest off with
    | error problem => rfl
    | ok first =>
        simp only [bind, Except.bind]
        by_cases short : rest.length < off + 1 <<< (first.toNat >>> 6)
        · rw [if_pos short, if_pos (by rw [List.length_append]; omega)]
          rfl
        · rw [if_neg short, if_neg (by rw [List.length_append]; omega), varintTail_suffix]
          cases varintTail rest off (List.range' 1 (1 <<< (first.toNat >>> 6) - 1))
              (first.toNat &&& 0x3F) with
          | error problem => rfl
          | ok val =>
              rw [Nat.add_assoc]
              rfl

theorem skipFields_suffix (front rest : Bytes) (count off : Nat) :
    skipFields (front ++ rest) count (front.length + off) =
      (skipFields rest count off).map (Option.map (front.length + ·)) := by
  induction count generalizing off with
  | zero => rfl
  | succ count inductionHypothesis =>
      rw [skipFields, skipFields, varint_suffix]
      cases varint rest off with
      | error problem => rfl
      | ok result =>
          cases result with
          | none => rfl
          | some field => exact inductionHypothesis field.2

/-- The bytes before a frame do not matter. -/
theorem readFrames_suffix (front rest : Bytes) (fuel off : Nat)
    (chunks : Dict Nat Bytes) :
    readFrames (front ++ rest) fuel (front.length + off) chunks =
      readFrames rest fuel off chunks := by
  induction fuel generalizing off chunks with
  | zero => rfl
  | succ fuel inductionHypothesis =>
      rw [readFrames, readFrames]
      by_cases within : off < rest.length
      · rw [if_pos within, if_pos (by rw [List.length_append]; omega), readByte_suffix,
          Nat.add_assoc front.length off 1, skipFields_suffix, varint_suffix,
          inductionHypothesis]
        cases readByte rest off with
        | error problem => rfl
        | ok ftype =>
            simp only [bind, Except.bind]
            split_ifs
            · rfl
            · cases skipFields rest 4 (off + 1) with
              | error problem => rfl
              | ok next =>
                  cases next with
                  | none => rfl
                  | some next => exact inductionHypothesis next chunks
            · cases varint rest (off + 1) with
              | error problem => rfl
              | ok offset =>
                  cases offset with
                  | none => rfl
                  | some offset =>
                      simp only [Except.map, Option.map, varint_suffix]
                      cases varint rest offset.2 with
                      | error problem => rfl
                      | ok length =>
                          cases length with
                          | none => rfl
                          | some length =>
                              dsimp only
                              rw [List.drop_append, List.drop_eq_nil_of_le (by omega),
                                List.nil_append, Nat.add_sub_cancel_left, Nat.add_assoc,
                                inductionHypothesis]
            · rfl
      · rw [if_neg within, if_neg (by rw [List.length_append]; omega)]

/-- What the loop makes of the bytes left. -/
def readRest (rest : Bytes) (chunks : Dict Nat Bytes) :
    Except ReadError (Dict Nat Bytes) :=
  readFrames rest rest.length 0 chunks

/-- More fuel than bytes changes nothing. -/
theorem readFrames_eq_readRest {rest : Bytes} {fuel : Nat} (enough : rest.length ≤ fuel)
    (chunks : Dict Nat Bytes) : readFrames rest fuel 0 chunks = readRest rest chunks := by
  obtain ⟨spare, rfl⟩ := Nat.exists_eq_add_of_le enough
  induction spare with
  | zero => rfl
  | succ spare inductionHypothesis =>
      rw [← Nat.add_assoc, readFrames_fuel chunks (by omega)]
      exact inductionHypothesis (by omega)

/-- The loop goes on behind what it read. -/
theorem readFrames_behind {front rest : Bytes} {fuel : Nat} (enough : rest.length ≤ fuel)
    (chunks : Dict Nat Bytes) :
    readFrames (front ++ rest) fuel front.length chunks = readRest rest chunks := by
  have same := readFrames_suffix front rest fuel 0 chunks
  rw [Nat.add_zero] at same
  rw [same, readFrames_eq_readRest enough]

theorem reassembleCrypto_eq (frames : Bytes) :
    reassembleCrypto frames = (readRest frames Dict.empty).map joinChunks := by
  rw [reassembleCrypto, readRest]
  cases readFrames frames frames.length 0 Dict.empty with
  | error problem => rfl
  | ok chunks => rfl

@[simp] theorem readRest_nil (chunks : Dict Nat Bytes) :
    readRest [] chunks = .ok chunks := rfl

/-- A round of the loop over the byte of a frame's type. -/
theorem readRest_cons (ftype : UInt8) (rest : Bytes) (chunks : Dict Nat Bytes) :
    readRest (ftype :: rest) chunks =
      if ftype = 0x00 ∨ ftype = 0x01 then readRest rest chunks
      else if ftype = 0x02 ∨ ftype = 0x03 then do
        match ← skipFields (ftype :: rest) 4 1 with
        | none => pure chunks
        | some off => readFrames (ftype :: rest) rest.length off chunks
      else if ftype = 0x06 then do
        match ← varint (ftype :: rest) 1 with
        | none => pure chunks
        | some (cOff, p) =>
            match ← varint (ftype :: rest) p with
            | none => pure chunks
            | some (cLen, p) =>
                readFrames (ftype :: rest) rest.length (p + cLen)
                  (chunks.set cOff (((ftype :: rest).drop p).take cLen))
      else .ok chunks := by
  rw [readRest, List.length_cons, readFrames, if_pos (by simp)]
  simp only [readByte, List.getElem?_cons_zero, bind, Except.bind]
  split_ifs
  · exact @readFrames_behind [ftype] rest rest.length (le_refl _) chunks
  · rfl
  · rfl
  · rfl

/-! ## One frame -/

theorem varint_field (front rest : Bytes) (number : Varint) :
    varint (front ++ (number.bytes ++ rest)) front.length =
      .ok (some (number.val, (front ++ number.bytes).length)) := by
  rw [List.length_append, Varint.bytes, length_encodeVarint]
  exact varint_encode rfl number.fits

/-- The loop over the fields of an ACK frame passes over encoded fields. -/
theorem skipFields_encode (front rest : Bytes) (fields : List Varint) :
    skipFields (front ++ (encodeFields fields ++ rest)) fields.length front.length =
      .ok (some (front ++ encodeFields fields).length) := by
  induction fields generalizing front with
  | nil => simp [encodeFields, skipFields]
  | cons field fields inductionHypothesis =>
      have split : encodeFields (field :: fields) = field.bytes ++ encodeFields fields :=
        List.flatMap_cons
      have later := inductionHypothesis (front ++ field.bytes)
      rw [List.append_assoc, List.append_assoc] at later
      rw [List.length_cons, skipFields, split, List.append_assoc, varint_field]
      exact later

theorem readRest_padding (rest : Bytes) (chunks : Dict Nat Bytes) :
    readRest (0x00 :: rest) chunks = readRest rest chunks := by
  rw [readRest_cons, if_pos (Or.inl rfl)]

theorem readRest_ping (rest : Bytes) (chunks : Dict Nat Bytes) :
    readRest (0x01 :: rest) chunks = readRest rest chunks := by
  rw [readRest_cons, if_pos (Or.inr rfl)]

theorem readRest_unknown {ftype : UInt8} (rest : Bytes) (chunks : Dict Nat Bytes)
    (unknown : 3 < ftype.toNat) (notCrypto : ftype.toNat ≠ 6) :
    readRest (ftype :: rest) chunks = .ok chunks := by
  have differs : ∀ other : UInt8, ftype.toNat ≠ other.toNat → ftype ≠ other := by
    rintro other apart rfl
    exact apart rfl
  rw [readRest_cons, if_neg, if_neg, if_neg]
  · exact differs 0x06 notCrypto
  · rintro (same | same)
    · exact differs 0x02 (by change ftype.toNat ≠ 2; omega) same
    · exact differs 0x03 (by change ftype.toNat ≠ 3; omega) same
  · rintro (same | same)
    · exact differs 0x00 (by change ftype.toNat ≠ 0; omega) same
    · exact differs 0x01 (by change ftype.toNat ≠ 1; omega) same

/-- The byte of an ACK frame's type and four fields are skipped. -/
theorem readRest_ack {ftype : UInt8} (isAck : ftype = 0x02 ∨ ftype = 0x03)
    {fields : List Varint}
    (four : fields.length = 4) (rest : Bytes) (chunks : Dict Nat Bytes) :
    readRest (ftype :: (encodeFields fields ++ rest)) chunks = readRest rest chunks := by
  have notSkip : ¬ (ftype = 0x00 ∨ ftype = 0x01) := by
    rcases isAck with rfl | rfl
    · decide
    · decide
  have skipped := skipFields_encode [ftype] rest fields
  rw [four] at skipped
  rw [readRest_cons, if_neg notSkip, if_pos isAck, ← List.singleton_append]
  rw [show (1 : Nat) = [ftype].length from rfl, skipped]
  simp only [bind, Except.bind]
  rw [← List.append_assoc]
  apply readFrames_behind
  rw [List.length_append]
  omega

/-- A CRYPTO frame's header is read, and its data as far as there are any. -/
theorem readRest_crypto (offset length : Varint) (rest : Bytes)
    (chunks : Dict Nat Bytes) :
    readRest (0x06 :: (offset.bytes ++ (length.bytes ++ rest))) chunks =
      readRest (rest.drop length.val) (chunks.set offset.val (rest.take length.val)) := by
  have readOffset := varint_field [0x06] (length.bytes ++ rest) offset
  have readLength := varint_field ([0x06] ++ offset.bytes) rest length
  rw [List.append_assoc] at readLength
  have data : (([0x06] ++ (offset.bytes ++ (length.bytes ++ rest))).drop
      ([0x06] ++ offset.bytes ++ length.bytes).length) = rest := by
    rw [← List.append_assoc, ← List.append_assoc, List.drop_left]
  rw [readRest_cons, if_neg (by decide), if_neg (by decide), if_pos rfl,
    ← List.singleton_append]
  rw [show (1 : Nat) = [(0x06 : UInt8)].length from rfl, readOffset]
  simp only [bind, Except.bind]
  rw [readLength]
  dsimp only
  rw [data, ← List.append_assoc, ← List.append_assoc]
  by_cases within : length.val ≤ rest.length
  · have place : ([0x06] ++ offset.bytes ++ length.bytes ++ rest.take length.val).length =
        ([0x06] ++ offset.bytes ++ length.bytes).length + length.val := by
      rw [List.length_append, List.length_take_of_le within]
    conv_lhs => rw [← List.take_append_drop length.val rest, ← List.append_assoc, ← place]
    rw [List.take_append_drop]
    apply readFrames_behind
    simp only [List.length_append, List.length_drop]
    omega
  · rw [List.drop_eq_nil_of_le (by omega), readRest_nil]
    have ends := readFrames_suffix ([0x06] ++ offset.bytes ++ length.bytes) rest
      (offset.bytes ++ (length.bytes ++ rest)).length length.val
      (chunks.set offset.val (rest.take length.val))
    rw [ends]
    cases (offset.bytes ++ (length.bytes ++ rest)).length with
    | zero => rfl
    | succ fuel => rw [readFrames, if_neg (by omega)]

/-- A frame of the list is passed over with what it carries, but for the fields that the
loop over an ACK frame leaves. -/
theorem readRest_frame (frame : QuicFrame) (rest : Bytes) (chunks : Dict Nat Bytes) :
    readRest (frame.bytes ++ rest) chunks =
      match frame with
      | .ack ack => readRest (encodeFields ack.later ++ rest) chunks
      | frame => readRest rest (frame.collect chunks) := by
  cases frame with
  | padding => exact readRest_padding rest chunks
  | ping => exact readRest_ping rest chunks
  | ack ack =>
      have isAck : ack.type = 0x02 ∨ ack.type = 0x03 := by
        unfold AckFrame.type
        split
        · exact Or.inr rfl
        · exact Or.inl rfl
      rw [QuicFrame.bytes, AckFrame.bytes, List.cons_append, List.append_assoc]
      exact readRest_ack isAck rfl _ chunks
  | crypto crypto =>
      rw [QuicFrame.bytes, CryptoFrame.bytes, List.cons_append, List.append_assoc,
        List.append_assoc]
      have read := readRest_crypto crypto.offset ⟨crypto.lengthWidth, _,
        crypto.lengthFits⟩
        (crypto.data ++ rest) chunks
      rw [List.drop_left, List.take_left] at read
      exact read

/-! ## The fields that are left -/

/-- The fields read as frames that are passed over: one-byte zeros and ones, and one-byte
twos and threes with four fields behind them. -/
def readsAsSkips : List Varint → Bool
  | [] => true
  | field :: rest =>
      if field.width ≠ 0 then false
      else if field.val ≤ 1 then readsAsSkips rest
      else if field.val ≤ 3 then
        match rest with
        | _ :: _ :: _ :: _ :: rest => readsAsSkips rest
        | _ => false
      else false

/-- The loop passes over the frame: it is no ACK frame, or what is left of it reads as
frames that are passed over. -/
def QuicFrame.Skipped : QuicFrame → Prop
  | .ack frame => readsAsSkips frame.later = true
  | _ => True

theorem encodeFields_cons (field : Varint) (fields : List Varint) :
    encodeFields (field :: fields) = field.bytes ++ encodeFields fields :=
  List.flatMap_cons

/-- One-byte frame types. -/
theorem readRest_field {field : Varint} (narrow : field.width = 0) (rest : Bytes)
    (chunks : Dict Nat Bytes) :
    readRest (field.bytes ++ rest) chunks =
      readRest (UInt8.ofNat field.val :: rest) chunks := by
  rw [(Varint.bytes_small narrow).1]
  rfl

theorem readRest_zero_or_one {field : Varint} (narrow : field.width = 0)
    (low : field.val ≤ 1)
    (rest : Bytes) (chunks : Dict Nat Bytes) :
    readRest (field.bytes ++ rest) chunks = readRest rest chunks := by
  rw [readRest_field narrow]
  have cases : field.val = 0 ∨ field.val = 1 := by omega
  rcases cases with zero | one
  · rw [zero]
    exact readRest_padding rest chunks
  · rw [one]
    exact readRest_ping rest chunks

theorem readRest_two_or_three {field : Varint} (narrow : field.width = 0)
    (above : 1 < field.val)
    (low : field.val ≤ 3) {fields : List Varint} (four : fields.length = 4) (rest : Bytes)
    (chunks : Dict Nat Bytes) :
    readRest (field.bytes ++ (encodeFields fields ++ rest)) chunks =
      readRest rest chunks := by
  rw [readRest_field narrow]
  have cases : field.val = 2 ∨ field.val = 3 := by omega
  rcases cases with two | three
  · rw [two]
    exact readRest_ack (Or.inl rfl) four rest chunks
  · rw [three]
    exact readRest_ack (Or.inr rfl) four rest chunks

/-- The loop stops at any other field. -/
theorem readRest_stops {field : Varint} (unknown : field.width ≠ 0 ∨ 3 < field.val)
    (notCrypto : field.width ≠ 0 ∨ field.val ≠ 6) (rest : Bytes)
    (chunks : Dict Nat Bytes) :
    readRest (field.bytes ++ rest) chunks = .ok chunks := by
  by_cases narrow : field.width = 0
  · have small := (Varint.bytes_small narrow).2
    have value : (UInt8.ofNat field.val).toNat = field.val := by
      rw [UInt8.toNat_ofNat', Nat.mod_eq_of_lt (by omega)]
    rw [readRest_field narrow]
    apply readRest_unknown
    · rw [value]
      exact unknown.resolve_left fun wide => wide narrow
    · rw [value]
      exact notCrypto.resolve_left fun wide => wide narrow
  · obtain ⟨first, later, encoded, high⟩ := Varint.bytes_wide narrow
    rw [encoded, List.cons_append]
    apply readRest_unknown
    · omega
    · omega

/-- The fields of `0x06 0x00 0x07 0x07 …`, a CRYPTO frame with seven bytes of data. -/
def sevenFields : List Varint :=
  [.small 6 (by decide), .small 0 (by decide)] ++ List.replicate 8 (.small 7 (by decide))

/-- Seven bytes at offset 0. -/
def sevenBytes : CryptoFrame where
  offset := .small 0 (by decide)
  lengthWidth := 0
  data := List.replicate 7 7
  lengthFits := ⟨by decide, by decide⟩

theorem bytes_sevenBytes : sevenBytes.bytes = encodeFields sevenFields := by
  decide

/-- The frame after the fields is not read as what it is. -/
def Blinds (fields : List Varint) : Prop :=
  (readRest (encodeFields fields ++ sevenBytes.bytes) Dict.empty).map joinChunks ≠
    .ok (some sevenBytes.data)

/-- The chunk that was read at some offset is forgotten. -/
def Forgets (fields : List Varint) : Prop :=
  ∃ offset : Varint, ∀ (rest : Bytes) (chunks : Dict Nat Bytes) (first second : Bytes),
    readRest (encodeFields fields ++ rest) (chunks.set offset.val first) =
      readRest (encodeFields fields ++ rest) (chunks.set offset.val second)

/-- A field before the others is passed over. -/
theorem misread_of_passed {front fields : List Varint}
    (passed : ∀ rest chunks, readRest (encodeFields (front ++ fields) ++ rest) chunks =
      readRest (encodeFields fields ++ rest) chunks)
    (misread : Blinds fields ∨ Forgets fields) :
    Blinds (front ++ fields) ∨ Forgets (front ++ fields) := by
  rcases misread with blinds | ⟨offset, forgets⟩
  · left
    rw [Blinds, passed]
    exact blinds
  · refine Or.inr ⟨offset, fun rest chunks first second => ?_⟩
    rw [passed, passed]
    exact forgets rest chunks first second

/-- An ACK frame's type with fewer than four fields left takes the next frame's bytes. -/
theorem blinds_of_short {field : Varint} (narrow : field.width = 0)
    (above : 1 < field.val)
    (low : field.val ≤ 3) {fields : List Varint} (short : fields.length < 4) :
    Blinds (field :: fields) := by
  have taken : (fields ++ sevenFields.take (4 - fields.length)).length = 4 := by
    rw [List.length_append,
      List.length_take_of_le (by change 4 - fields.length ≤ 10; omega)]
    omega
  have whole : encodeFields (field :: fields) ++ sevenBytes.bytes =
      field.bytes ++ (encodeFields (fields ++ sevenFields.take (4 - fields.length)) ++
        encodeFields (sevenFields.drop (4 - fields.length))) := by
    rw [bytes_sevenBytes, encodeFields_cons, List.append_assoc, encodeFields,
      encodeFields, encodeFields,
      encodeFields, ← List.flatMap_append, ← List.flatMap_append, List.append_assoc,
      List.take_append_drop]
  have few : fields.length = 0 ∨ fields.length = 1 ∨ fields.length = 2 ∨
      fields.length = 3 := by
    omega
  rw [Blinds, whole, readRest_two_or_three narrow above low taken]
  rcases few with count | count | count | count
  all_goals
    rw [count]
    decide

/-- A CRYPTO frame's type with fewer than two fields left takes the next frame's bytes. -/
theorem blinds_of_header {field : Varint} (narrow : field.width = 0) (six : field.val = 6)
    {fields : List Varint} (short : fields.length < 2) : Blinds (field :: fields) := by
  rw [Blinds, encodeFields_cons, List.append_assoc, readRest_field narrow, six]
  cases fields with
  | nil => decide
  | cons offset fields =>
      obtain rfl : fields = [] := List.eq_nil_of_length_eq_zero (by
        rw [List.length_cons] at short
        omega)
      have tail : sevenBytes.bytes =
          (Varint.small 6 (by decide)).bytes ++ encodeFields (sevenFields.drop 1) := by
        decide
      rw [encodeFields_cons, List.append_assoc, tail]
      change Except.map joinChunks (readRest (0x06 :: (offset.bytes ++
        ((Varint.small 6 (by decide)).bytes ++ encodeFields (sevenFields.drop 1))))
          Dict.empty) ≠ _
      rw [readRest_crypto]
      have stops : readRest ((encodeFields (sevenFields.drop 1)).drop 6)
          (Dict.empty.set offset.val ((encodeFields (sevenFields.drop 1)).take 6)) =
            .ok (Dict.empty.set offset.val
              ((encodeFields (sevenFields.drop 1)).take 6)) :=
        readRest_unknown _ _ (by decide) (by decide)
      rw [show (Varint.small 6 (by decide)).val = 6 from rfl, stops]
      by_cases zero : offset.val = 0
      · rw [zero]
        decide
      · have gap : joinChunks (Dict.empty.set offset.val
            ((encodeFields (sevenFields.drop 1)).take 6)) = none := by
          simp [joinChunks, joinLoop, Dict.set, Dict.keys, Dict.length, Dict.empty,
            setEntry, zero]
        rw [Except.map, gap]
        simp

/-- A whole header of a CRYPTO frame overwrites the chunk at its offset. -/
theorem forgets_of_header {field : Varint} (narrow : field.width = 0)
    (six : field.val = 6)
    (offset length : Varint) (fields : List Varint) :
    Forgets (field :: offset :: length :: fields) := by
  refine ⟨offset, fun rest chunks first second => ?_⟩
  rw [encodeFields_cons, encodeFields_cons, encodeFields_cons, List.append_assoc,
    List.append_assoc, List.append_assoc, readRest_field narrow,
    readRest_field narrow, six]
  change readRest (0x06 :: _) _ = readRest (0x06 :: _) _
  rw [readRest_crypto, readRest_crypto, Dict.set_set, Dict.set_set]

/-- Fields that are not all passed over are misread. -/
theorem misread_of_not_skips {fields : List Varint} (kept : readsAsSkips fields = false) :
    Blinds fields ∨ Forgets fields := by
  induction fields using readsAsSkips.induct with
  | case1 => cases kept
  | case2 field rest wide =>
      left
      rw [Blinds, encodeFields_cons, List.append_assoc,
        readRest_stops (Or.inl wide) (Or.inl wide)]
      decide
  | case3 field rest narrow low inductionHypothesis =>
      unfold readsAsSkips at kept
      rw [if_neg narrow, if_pos low] at kept
      apply @misread_of_passed [field] rest _ (inductionHypothesis kept)
      intro after chunks
      rw [List.singleton_append, encodeFields_cons, List.append_assoc]
      exact readRest_zero_or_one (not_not.mp narrow) low _ chunks
  | case4 field narrow above low a b c d rest inductionHypothesis =>
      unfold readsAsSkips at kept
      rw [if_neg narrow, if_neg above, if_pos low] at kept
      apply @misread_of_passed [field, a, b, c, d] rest _ (inductionHypothesis kept)
      intro after chunks
      have split : encodeFields ([field, a, b, c, d] ++ rest) ++ after =
          field.bytes ++ (encodeFields [a, b, c, d] ++ (encodeFields rest ++ after)) := by
        simp [encodeFields, List.append_assoc]
      rw [split]
      exact readRest_two_or_three (not_not.mp narrow)
        (Nat.lt_of_not_le above) low rfl _ chunks
  | case5 field rest narrow above low short =>
      left
      apply blinds_of_short (not_not.mp narrow) (Nat.lt_of_not_le above) low
      by_contra long
      match rest, short, long with
      | a :: b :: c :: d :: rest, short, _ => exact short a b c d rest rfl
      | [], _, long => exact long (by simp)
      | [_], _, long => exact long (by simp)
      | [_, _], _, long => exact long (by simp)
      | [_, _, _], _, long => exact long (by simp)
  | case6 field rest narrow above high =>
      by_cases six : field.val = 6
      · match rest with
        | [] => exact Or.inl (blinds_of_header (not_not.mp narrow) six (by decide))
        | [offset] => exact Or.inl (blinds_of_header (not_not.mp narrow) six (by simp))
        | offset :: length :: rest =>
            exact Or.inr (forgets_of_header (not_not.mp narrow) six offset length rest)
      · left
        rw [Blinds, encodeFields_cons, List.append_assoc,
          readRest_stops (Or.inr (Nat.lt_of_not_le high)) (Or.inr six)]
        decide

/-- Fields that are all passed over leave what is behind them. -/
theorem readRest_skips {fields : List Varint} (skips : readsAsSkips fields = true)
    (rest : Bytes)
    (chunks : Dict Nat Bytes) :
    readRest (encodeFields fields ++ rest) chunks = readRest rest chunks := by
  induction fields using readsAsSkips.induct with
  | case1 => rfl
  | case2 field fields wide =>
      unfold readsAsSkips at skips
      rw [if_pos wide] at skips
      cases skips
  | case3 field fields narrow low inductionHypothesis =>
      unfold readsAsSkips at skips
      rw [if_neg narrow, if_pos low] at skips
      rw [encodeFields_cons, List.append_assoc,
        readRest_zero_or_one (not_not.mp narrow) low]
      exact inductionHypothesis skips
  | case4 field narrow above low a b c d fields inductionHypothesis =>
      unfold readsAsSkips at skips
      rw [if_neg narrow, if_neg above, if_pos low] at skips
      have split : encodeFields (field :: a :: b :: c :: d :: fields) ++ rest =
          field.bytes ++ (encodeFields [a, b, c, d] ++
            (encodeFields fields ++ rest)) := by
        simp [encodeFields, List.append_assoc]
      rw [split, readRest_two_or_three (not_not.mp narrow)
        (Nat.lt_of_not_le above) low rfl]
      exact inductionHypothesis skips
  | case5 field fields narrow above low short =>
      unfold readsAsSkips at skips
      rw [if_neg narrow, if_neg above, if_pos low] at skips
      split at skips
      · next a b c d fields => exact absurd rfl (short a b c d fields)
      · cases skips
  | case6 field fields narrow above high =>
      unfold readsAsSkips at skips
      rw [if_neg narrow, if_neg above, if_neg high] at skips
      cases skips

/-! ## Lists of frames -/

/-- The CRYPTO frames of the list are collected, and nothing else. -/
def ReadExactly (frames : List QuicFrame) : Prop :=
  reassembleCrypto (encodeFrames frames) = .ok (joinChunks (collected frames))

/-- A frame that is passed over adds what it carries. -/
theorem readRest_of_skipped {frame : QuicFrame} (skipped : frame.Skipped) (rest : Bytes)
    (chunks : Dict Nat Bytes) :
    readRest (frame.bytes ++ rest) chunks = readRest rest (frame.collect chunks) := by
  rw [readRest_frame]
  cases frame with
  | padding => rfl
  | ping => rfl
  | ack frame => exact readRest_skips skipped rest chunks
  | crypto frame => rfl

theorem readRest_frames {frames : List QuicFrame}
    (skipped : ∀ frame ∈ frames, frame.Skipped)
    (rest : Bytes) (chunks : Dict Nat Bytes) :
    readRest (encodeFrames frames ++ rest) chunks =
      readRest rest (frames.foldl QuicFrame.collect chunks) := by
  induction frames generalizing chunks with
  | nil => rfl
  | cons frame frames inductionHypothesis =>
      rw [encodeFrames_cons, List.append_assoc,
        readRest_of_skipped (skipped frame List.mem_cons_self)]
      exact inductionHypothesis (fun other member =>
        skipped other (List.mem_cons_of_mem _ member)) _

theorem readExactly_of_skipped {frames : List QuicFrame}
    (skipped : ∀ frame ∈ frames, frame.Skipped) : ReadExactly frames := by
  have read := readRest_frames skipped [] Dict.empty
  rw [List.append_nil] at read
  rw [ReadExactly, reassembleCrypto_eq, read]
  rfl

/-- A chunk of zeros up to an offset, and a byte there. -/
def marked (offset : Varint) (byte : UInt8) : List QuicFrame :=
  [.crypto ⟨.small 0 (by decide), offset.width, List.replicate offset.val 0,
      by rw [List.length_replicate]; exact offset.fits⟩,
    .crypto ⟨offset, 0, [byte], ⟨by decide, by simp⟩⟩]

theorem collected_marked (offset : Varint) (byte : UInt8) :
    collected (marked offset byte) =
      (Dict.empty.set 0 (List.replicate offset.val 0)).set offset.val [byte] := rfl

theorem joinChunks_marked (offset : Varint) (byte : UInt8) :
    joinChunks (collected (marked offset byte)) =
      some (List.replicate offset.val 0 ++ [byte]) := by
  rw [collected_marked]
  by_cases zero : offset.val = 0
  · rw [zero]
    rfl
  · have apart : (0 : Nat) ≠ offset.val := fun same => zero same.symm
    simp [joinChunks, joinLoop, Dict.set, Dict.keys, Dict.length, Dict.empty,
      Dict.get?, setEntry, lookupEntry, apart]

/-- An ACK frame of which a part is read as something else is
misread between some frames. -/
theorem not_readExactly_of_not_skipped {frame : QuicFrame} (kept : ¬ frame.Skipped) :
    ∃ before after : List QuicFrame, (∀ other ∈ before ++ after, other.Skipped) ∧
      ¬ ReadExactly (before ++ frame :: after) := by
  cases frame with
  | padding => exact absurd trivial kept
  | ping => exact absurd trivial kept
  | crypto frame => exact absurd trivial kept
  | ack frame =>
      have read := fun rest chunks => readRest_frame (.ack frame) rest chunks
      rcases misread_of_not_skips (Bool.eq_false_iff.mpr kept) with blinds | ⟨offset,
        forgets⟩
      · refine ⟨[], [.crypto sevenBytes], by simp [QuicFrame.Skipped], fun exactly => ?_⟩
        apply blinds
        have bytes : encodeFrames ([] ++ [.ack frame, .crypto sevenBytes]) =
            (QuicFrame.ack frame).bytes ++ sevenBytes.bytes := by
          simp [QuicFrame.bytes]
        rw [ReadExactly, reassembleCrypto_eq, bytes, read] at exactly
        rw [exactly]
        rfl
      · -- What was read at the offset before does not matter.
        by_contra every
        push Not at every
        have reads : ∀ byte, (readRest (encodeFields frame.later ++ [])
            ((Dict.empty.set 0 (List.replicate offset.val 0)).set offset.val [byte])).map
              joinChunks = .ok (some (List.replicate offset.val 0 ++ [byte])) := by
          intro byte
          have exactly := every (marked offset byte) []
            (by simp [marked, QuicFrame.Skipped])
          have same : collected (marked offset byte ++ [.ack frame]) =
              collected (marked offset byte) := rfl
          have front := @readRest_frames (marked offset byte)
            (by simp [marked, QuicFrame.Skipped]) (QuicFrame.ack frame).bytes Dict.empty
          rw [ReadExactly, reassembleCrypto_eq, same, joinChunks_marked,
            encodeFrames_append, encodeFrames_cons, encodeFrames_nil, List.append_nil,
            front, ← List.append_nil
              (QuicFrame.ack frame).bytes, read] at exactly
          exact exactly
        have zero := reads 0
        rw [forgets [] _ [0] [1], reads 1] at zero
        simp at zero

/-- A frame is read as what it is, and is not missed where it is left out, between any
frames that are passed over: exactly when it is passed over itself. -/
theorem reassembleCrypto_exact_iff (frame : QuicFrame) :
    (∀ before after : List QuicFrame, (∀ other ∈ before ++ after, other.Skipped) →
      ReadExactly (before ++ frame :: after) ∧
        ((∀ crypto, frame ≠ .crypto crypto) →
          reassembleCrypto (encodeFrames (before ++ frame :: after)) =
            reassembleCrypto (encodeFrames (before ++ after)))) ↔ frame.Skipped := by
  constructor
  · intro every
    by_contra kept
    obtain ⟨before, after, skipped, misread⟩ := not_readExactly_of_not_skipped kept
    exact misread (every before after skipped).1
  · intro skipped before after others
    have whole : ReadExactly (before ++ frame :: after) := by
      apply readExactly_of_skipped
      intro other member
      rcases List.mem_append.mp member with front | back
      · exact others other (List.mem_append_left _ front)
      · rcases List.mem_cons.mp back with rfl | back
        · exact skipped
        · exact others other (List.mem_append_right _ back)
    refine ⟨whole, fun notCrypto => ?_⟩
    have same : collected (before ++ frame :: after) = collected (before ++ after) := by
      rw [collected, collected, List.foldl_append, List.foldl_append, List.foldl_cons]
      cases frame with
      | padding => rfl
      | ping => rfl
      | ack frame => rfl
      | crypto crypto => exact absurd rfl (notCrypto crypto)
    exact whole.trans ((congrArg (Except.ok ∘ joinChunks) same).trans
      (readExactly_of_skipped others).symm)

/-- Packets 10 and 1 are acknowledged. -/
def twoRanges : AckFrame where
  largest := .small 10 (by decide)
  delay := .small 0 (by decide)
  countWidth := 0
  first := .small 0 (by decide)
  ranges := [(.small 7 (by decide), .small 0 (by decide))]
  ecn := none
  countFits := ⟨by decide, by decide⟩

/-- The additional range hides the CRYPTO frame behind it. -/
theorem reassembleCrypto_not_exact :
    ¬ ∀ frames : List QuicFrame, ReadExactly frames := by
  intro always
  have read := always [.ack twoRanges, .crypto sevenBytes]
  have lost : reassembleCrypto (encodeFrames [.ack twoRanges, .crypto sevenBytes]) =
      .ok none := by
    decide
  rw [ReadExactly, lost] at read
  exact absurd read (by decide)

end Probes
end PqcScan
