import PqcScan.Probes.CertChain
import PqcScan.Probes.ServerHello

/-!
# Handshake messages of a sniffed stream

`_iter_handshake_messages` of `probes/net_sniff_live.py` reads the messages of a
reassembled TCP stream.  The records that carry them may cut them anywhere, and
the capture may end anywhere.
-/

namespace PqcScan
namespace Probes

open Library Python Framing

/-- `_iter_handshake_messages`: the type of each complete message, and the message
with its header; the loop ends at the first incomplete one. -/
def iterHandshakeMessages (stream : Bytes) : List (UInt8 × Bytes) :=
  (messageFraming.readWhole (reassembleHandshake stream)).map fun message =>
    (typeByte message.head, message.bytes)

/-- A complete handshake message. -/
structure HandshakeMessage where
  type : UInt8
  body : Bytes
  body_small : body.length < 2 ^ 24

namespace HandshakeMessage

/-- The message as a frame. -/
def frame (message : HandshakeMessage) : Frame UInt8 :=
  ⟨message.type :: u24 message.body.length, message.body⟩

/-- The type and the bytes of a message. -/
def yielded (message : HandshakeMessage) : UInt8 × Bytes :=
  (message.type, message.frame.bytes)

theorem frame_fits (message : HandshakeMessage) : messageFraming.Fits message.frame :=
  ⟨rfl, (bigEndian_u24 message.body_small).symm⟩

end HandshakeMessage

/-- A handshake record: two bytes of version and a fragment of the messages. -/
structure HandshakeRecord where
  major : UInt8
  minor : UInt8
  fragment : Bytes
  fragment_small : fragment.length < 65536

namespace HandshakeRecord

/-- The record as a frame. -/
def frame (record : HandshakeRecord) : Frame UInt8 :=
  ⟨[handshakeType, record.major, record.minor] ++ u16 record.fragment.length,
    record.fragment⟩

theorem frame_fits (record : HandshakeRecord) : recordFraming.Fits record.frame :=
  ⟨rfl, (bigEndian_u16 record.fragment_small).symm⟩

/-- The records carry their fragments. -/
theorem payload_frames (records : List HandshakeRecord) :
    payload isHandshake (records.map frame) = records.flatMap fragment := by
  unfold payload
  rw [List.filter_eq_self.mpr, List.flatMap_map]
  · rfl
  · intro record member
    obtain ⟨source, _, rfl⟩ := List.mem_map.mp member
    rfl

end HandshakeRecord

/-- Messages, and records that carry their bytes. -/
structure Fragmentation where
  messages : List HandshakeMessage
  records : List HandshakeRecord
  carries : records.flatMap HandshakeRecord.fragment =
    encode (messages.map HandshakeMessage.frame)

namespace Fragmentation

variable (fragmentation : Fragmentation)

/-- The messages as frames. -/
def messageFrames : List (Frame UInt8) :=
  fragmentation.messages.map HandshakeMessage.frame

/-- The records as frames. -/
def recordFrames : List (Frame UInt8) := fragmentation.records.map HandshakeRecord.frame

/-- The byte stream. -/
def stream : Bytes := encode fragmentation.recordFrames

/-- How many bytes of the messages the first bytes of the stream carry. -/
def received (count : Nat) : Nat :=
  recordFraming.carried isHandshake fragmentation.recordFrames count

theorem messageFrames_fit :
    ∀ message ∈ fragmentation.messageFrames, messageFraming.Fits message := by
  intro message member
  obtain ⟨source, _, rfl⟩ := List.mem_map.mp member
  exact source.frame_fits

theorem recordFrames_fit :
    ∀ record ∈ fragmentation.recordFrames, recordFraming.Fits record := by
  intro record member
  obtain ⟨source, _, rfl⟩ := List.mem_map.mp member
  exact source.frame_fits

theorem reassembleHandshake_take (count : Nat) :
    reassembleHandshake (fragmentation.stream.take count) =
      (encode fragmentation.messageFrames).take (fragmentation.received count) := by
  unfold reassembleHandshake stream received
  rw [read_take fragmentation.recordFrames_fit,
    payload_cut fragmentation.recordFrames_fit]
  apply congrArg (List.take _)
  rw [recordFrames, HandshakeRecord.payload_frames, fragmentation.carries]
  rfl

/-- From the first bytes the messages that lie wholly within them are read. -/
theorem iterHandshakeMessages_take (count : Nat) :
    iterHandshakeMessages (fragmentation.stream.take count) =
      (wholes fragmentation.messageFrames (fragmentation.received count)).map
        fun message => (typeByte message.head, message.bytes) := by
  unfold iterHandshakeMessages
  rw [reassembleHandshake_take, readWhole_take fragmentation.messageFrames_fit]

/-- The whole stream carries all messages. -/
theorem received_stream :
    fragmentation.received fragmentation.stream.length =
      (encode fragmentation.messageFrames).length := by
  unfold received stream
  rw [carried_length fragmentation.recordFrames_fit, recordFrames,
    HandshakeRecord.payload_frames, fragmentation.carries]
  rfl

theorem yielded_messageFrames :
    (fragmentation.messageFrames.map fun message =>
      (typeByte message.head, message.bytes)) =
      fragmentation.messages.map HandshakeMessage.yielded := by
  unfold messageFrames
  rw [List.map_map]
  rfl

/-- However the messages are cut into records and wherever the stream
ends, the messages read are the first ones, each as it was sent; from the
whole stream all are read. -/
theorem messages_read :
    (∀ count, iterHandshakeMessages (fragmentation.stream.take count) <+:
        fragmentation.messages.map HandshakeMessage.yielded) ∧
      iterHandshakeMessages fragmentation.stream =
        fragmentation.messages.map HandshakeMessage.yielded := by
  constructor
  · intro count
    rw [iterHandshakeMessages_take, ← yielded_messageFrames]
    exact (wholes_starts _ _).map _
  · have whole := fragmentation.iterHandshakeMessages_take fragmentation.stream.length
    rwa [List.take_length, received_stream, wholes_of_le (le_refl _),
      yielded_messageFrames] at whole

/-- Two messages in three records, the first cut inside the length of a message. -/
def twoMessages : Fragmentation where
  messages := [⟨1, [7, 8, 9], by decide⟩, ⟨11, [4, 5], by decide⟩]
  records := [⟨3, 1, [1, 0, 0], by decide⟩, ⟨3, 3, [3, 7, 8, 9, 11], by decide⟩,
    ⟨3, 3, [0, 0, 2, 4, 5], by decide⟩]
  carries := by decide

/-- Without its last byte the stream gives the first message, and then both. -/
theorem messages_read_twoMessages :
    iterHandshakeMessages (twoMessages.stream.take 27) <+: [(1, [1, 0, 0, 3, 7, 8, 9]),
        (11, [11, 0, 0, 2, 4, 5])] ∧
      iterHandshakeMessages twoMessages.stream = [(1, [1, 0, 0, 3, 7, 8, 9]),
        (11, [11, 0, 0, 2, 4, 5])] :=
  ⟨twoMessages.messages_read.1 27, twoMessages.messages_read.2⟩

end Fragmentation

/-- A message in two records, the second of which also starts the next message. -/
example :
    iterHandshakeMessages [22, 3, 3, 0, 5, 1, 0, 0, 2, 7, 22, 3, 3, 0, 3, 8, 2, 0] =
      [(1, [1, 0, 0, 2, 7, 8])] := by
  decide

end Probes
end PqcScan
