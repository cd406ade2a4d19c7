import PqcScan.Library.Coverage
import PqcScan.Library.Tiling
import PqcScan.Probes.QuicFrames

/-!
# The handshake stream in CRYPTO frames

A client cuts its handshake stream into chunks and may send them in any order, again,
and cut otherwise.  `_reassemble_crypto` keeps the last chunk at each offset and
`_join` goes on while a chunk starts where the one before it ended.
-/

namespace PqcScan
namespace Probes

open Library Python

/-- The positions of the stream that a frame carries. -/
def CryptoFrame.span (frame : CryptoFrame) : Span := ⟨frame.offset.val, frame.data.length⟩

/-- The size of the last chunk at an offset. -/
def keptSize (frames : List CryptoFrame) (offset : Nat) : Option Nat :=
  ((frames.filter fun frame => frame.offset.val = offset).getLast?).map
    fun frame => frame.data.length

/-- Each frame carries the bytes of the stream at its offset. -/
def CutFrom (stream : Bytes) (frames : List CryptoFrame) : Prop :=
  ∀ frame ∈ frames, frame.data = (stream.drop frame.offset.val).take frame.data.length

/-! ## The chunks -/

/-- What `_reassemble_crypto` writes for each frame. -/
def chunkPairs (frames : List CryptoFrame) : List (Nat × Bytes) :=
  frames.map fun frame => (frame.offset.val, frame.data)

theorem collected_map (frames : List CryptoFrame) :
    collected (frames.map .crypto) = Dict.ofList (chunkPairs frames) := by
  rw [collected, Dict.ofList, chunkPairs, List.foldl_map, List.foldl_map]
  rfl

theorem get?_collected (frames : List CryptoFrame) (offset : Nat) :
    ((collected (frames.map .crypto)).get? offset).map List.length =
      keptSize frames offset := by
  rw [collected_map, Dict.get?_ofList, chunkPairs, List.filter_map, List.getLast?_map,
    Option.map_map, Option.map_map]
  rfl

/-- A chunk that is kept is one of the frames'. -/
theorem mem_of_get?_collected {frames : List CryptoFrame} {offset : Nat} {data : Bytes}
    (kept : (collected (frames.map .crypto)).get? offset = some data) :
    ∃ frame ∈ frames, frame.offset.val = offset ∧ frame.data = data := by
  rw [collected_map, Dict.get?_ofList, Option.map_eq_some_iff] at kept
  obtain ⟨pair, last, rfl⟩ := kept
  have member := List.mem_filter.mp (List.mem_of_getLast? last)
  obtain ⟨frame, listed, rfl⟩ := List.mem_map.mp member.1
  exact ⟨frame, listed, of_decide_eq_true member.2, rfl⟩

theorem mem_keys_collected (frames : List CryptoFrame) (offset : Nat) :
    offset ∈ (collected (frames.map .crypto)).keys ↔
    (keptSize frames offset).isSome = true := by
  rw [collected_map, Dict.mem_keys_ofList, keptSize, Option.isSome_map,
    List.getLast?_isSome, List.mem_map]
  constructor
  · rintro ⟨pair, member, rfl⟩ empty
    obtain ⟨frame, listed, rfl⟩ := List.mem_map.mp member
    have among : frame ∈ frames.filter fun other => other.offset.val = frame.offset.val :=
      List.mem_filter.mpr ⟨listed, decide_eq_true rfl⟩
    rw [empty] at among
    cases among
  · intro nonempty
    obtain ⟨frame, member⟩ := List.exists_mem_of_ne_nil _ nonempty
    obtain ⟨listed, same⟩ := List.mem_filter.mp member
    exact ⟨_, List.mem_map_of_mem listed, of_decide_eq_true same⟩

/-! ## The join -/

/-- While each chunk continues the stream, the bytes joined are the stream's. -/
theorem joinLoop_eq_take {stream : Bytes} {chunks : Dict Nat Bytes}
    {piece : Nat → Option Nat}
    (cut : ∀ offset data, chunks.get? offset = some data →
      data = (stream.drop offset).take data.length)
    (sizes : ∀ offset, (chunks.get? offset).map List.length = piece offset)
    {offsets : List Nat} {next : Nat} (within : next ≤ stream.length) :
    joinLoop chunks offsets (stream.take next) = stream.take (walk piece offsets next) ∧
      walk piece offsets next ≤ stream.length := by
  induction offsets generalizing next with
  | nil => exact ⟨rfl, within⟩
  | cons offset rest inductionHypothesis =>
      rw [joinLoop, walk, List.length_take_of_le within]
      by_cases same : offset = next
      · subst same
        rw [if_neg (not_not.mpr rfl), if_neg (not_not.mpr rfl), ← sizes]
        cases kept : chunks.get? offset with
        | none =>
            rw [Option.getD_none, List.append_nil]
            exact inductionHypothesis within
        | some data =>
            have bytes := cut offset data kept
            have size : data.length ≤ stream.length - offset := by
              rw [bytes, List.length_take, List.length_drop]
              omega
            have joined : stream.take offset ++ data =
                stream.take (offset + data.length) := by
              rw [List.take_add, ← bytes]
            rw [Option.getD_some, joined]
            exact inductionHypothesis (by omega)
      · rw [if_pos same, if_pos same]
        exact ⟨rfl, within⟩

/-- The bytes of a list of chunks, or nothing when there are none. -/
theorem joinChunks_eq_take {stream : Bytes} {frames : List CryptoFrame}
    (cut : CutFrom stream frames) :
    ∃ reached ≤ stream.length,
      joinChunks (collected (frames.map .crypto)) =
        (if reached = 0 then none else some (stream.take reached)) ∧
      reached = walk (keptSize frames)
        ((collected (frames.map .crypto)).keys.insertionSort (· ≤ ·)) 0 := by
  have chunksCut : ∀ offset data,
      (collected (frames.map .crypto)).get? offset = some data →
      data = (stream.drop offset).take data.length := by
    intro offset data kept
    obtain ⟨frame, member, rfl, rfl⟩ := mem_of_get?_collected kept
    exact cut frame member
  obtain ⟨joined, within⟩ :=
    @joinLoop_eq_take stream _ _ chunksCut (get?_collected frames)
    ((collected (frames.map .crypto)).keys.insertionSort (· ≤ ·)) 0 (Nat.zero_le _)
  rw [List.take_zero] at joined
  refine ⟨_, within, ?_, rfl⟩
  rw [joinChunks, joined]
  dsimp only
  split
  · next none_ =>
      have keys : (collected (frames.map .crypto)).keys = [] := by
        rw [← List.length_eq_zero_iff, Dict.length_keys, none_]
      rw [keys, List.insertionSort_nil, walk, if_pos rfl]
  · by_cases zero : walk (keptSize frames)
        ((collected (frames.map .crypto)).keys.insertionSort (· ≤ ·)) 0 = 0
    · rw [zero, if_pos rfl]
      rfl
    · rw [if_neg zero, if_neg]
      intro empty
      have length := congrArg List.length empty
      rw [List.length_take_of_le within] at length
      exact zero length

/-- The bytes returned are what the chunks cover from the start without a gap, exactly
when the chunks that are kept tile it. -/
theorem reassembleCrypto_covered_iff (stream : Bytes) (frames : List CryptoFrame)
    (cut : CutFrom stream frames) {stop : Nat}
    (runs : Span.RunEnds (frames.map CryptoFrame.span) 0 stop) :
    reassembleCrypto (encodeFrames (frames.map .crypto)) =
        .ok (if stop = 0 then none else some (stream.take stop)) ↔
      stop = 0 ∨ Tiles (keptSize frames) 0 stop := by
  have exactly : ReadExactly (frames.map .crypto) := by
    apply readExactly_of_skipped
    intro frame member
    obtain ⟨crypto, -, rfl⟩ := List.mem_map.mp member
    trivial
  obtain ⟨reached, within, joined, walked⟩ := joinChunks_eq_take cut
  have covered : stop ≤ stream.length := by
    by_contra beyond
    obtain ⟨span, member, starts, inside⟩ :=
      runs.covered stream.length (Nat.zero_le _) (by omega)
    obtain ⟨frame, listed, rfl⟩ := List.mem_map.mp member
    have length := congrArg List.length (cut frame listed)
    rw [List.length_take, List.length_drop] at length
    change frame.offset.val ≤ stream.length at starts
    change stream.length < frame.offset.val + frame.data.length at inside
    omega
  have ends : ∀ size, keptSize frames stop = some size → size = 0 := by
    intro size kept
    rw [keptSize, Option.map_eq_some_iff] at kept
    obtain ⟨frame, last, rfl⟩ := kept
    obtain ⟨listed, same⟩ := List.mem_filter.mp (List.mem_of_getLast? last)
    have place := of_decide_eq_true same
    by_contra positive
    apply runs.ends
    refine ⟨frame.span, List.mem_map_of_mem listed, le_of_eq place, ?_⟩
    change stop < frame.offset.val + frame.data.length
    omega
  have sorted : ((collected (frames.map .crypto)).keys.insertionSort (· ≤ ·)).Pairwise
      (· < ·) := by
    have distinct : ((collected (frames.map .crypto)).keys.insertionSort (· ≤ ·)).Nodup :=
      (List.perm_insertionSort _ _).nodup_iff.mpr (collected (frames.map .crypto)).nodup
    have ordered := List.pairwise_insertionSort (· ≤ ·)
      (collected (frames.map .crypto)).keys
    exact (ordered.and distinct).imp fun both => Nat.lt_of_le_of_ne both.1 both.2
  have complete : ∀ offset,
      offset ∈ (collected (frames.map .crypto)).keys.insertionSort (· ≤ ·) ↔
      (keptSize frames offset).isSome = true := by
    intro offset
    rw [List.mem_insertionSort, mem_keys_collected]
  rw [exactly, joined, ← walk_eq_iff sorted complete ends, ← walked, Except.ok.injEq]
  constructor
  · intro same
    split at same
    · next zero =>
        split at same
        · next none_ => rw [zero, none_]
        · cases same
    · split at same
      · cases same
      · rw [Option.some.injEq] at same
        have length := congrArg List.length same
        rwa [List.length_take_of_le within, List.length_take_of_le covered] at length
  · rintro rfl
    rfl

/-- One chunk of a stream. -/
def chunkOf (stream : Bytes) (offset : Varint) (lengthWidth size : Nat)
    (fits : VarintFits lengthWidth ((stream.drop offset.val).take size).length) :
    CryptoFrame :=
  ⟨offset, lengthWidth, (stream.drop offset.val).take size, fits⟩

theorem offset_zero_small : 0 < 64 := by decide

/-- A stream of four bytes. -/
def fourBytes : Bytes := [1, 2, 3, 4]

/-- The second half, an empty chunk behind the end, and the first half. -/
def twoHalves : List CryptoFrame :=
  [chunkOf fourBytes (.small 2 (by decide)) 0 2 ⟨by decide, by decide⟩,
    chunkOf fourBytes (.small 4 (by decide)) 1 5 ⟨by decide, by decide⟩,
    chunkOf fourBytes (.small 0 offset_zero_small) 0 2 ⟨by decide, by decide⟩]

theorem reassembleCrypto_twoHalves :
    reassembleCrypto (encodeFrames (twoHalves.map .crypto)) = .ok (some fourBytes) := by
  have cut : CutFrom fourBytes twoHalves := by
    intro frame member
    simp only [twoHalves, List.mem_cons, List.not_mem_nil, or_false] at member
    rcases member with rfl | rfl | rfl
    · rfl
    · rfl
    · rfl
  have runs : Span.RunEnds (twoHalves.map CryptoFrame.span) 0 4 :=
    Span.RunEnds.congr (@Span.runEnds_scan [⟨0, 2⟩, ⟨2, 2⟩, ⟨4, 0⟩] 0 (by decide))
      (by
        intro position
        simp [Span.Covers, Span.stop, twoHalves, chunkOf, CryptoFrame.span, fourBytes,
          Varint.small]
        omega)
  have front : keptSize twoHalves 0 = some 2 := by decide
  have back : keptSize twoHalves 2 = some 2 := by decide
  have tiles : Tiles (keptSize twoHalves) 0 4 := by
    apply Tiles.step front (by decide)
    · intro other after before
      obtain rfl : other = 1 := by omega
      decide
    · exact Tiles.last back
  exact (reassembleCrypto_covered_iff fourBytes twoHalves cut runs).mpr (Or.inr tiles)

/-- The whole stream is sent, and a shorter chunk at the same offset after it. -/
theorem reassembleCrypto_not_covered :
    ¬ ∀ (stream : Bytes) (frames : List CryptoFrame), CutFrom stream frames → ∀ stop,
      Span.RunEnds (frames.map CryptoFrame.span) 0 stop →
        reassembleCrypto (encodeFrames (frames.map .crypto)) =
          .ok (if stop = 0 then none else some (stream.take stop)) := by
  intro always
  have read := always fourBytes
    [chunkOf fourBytes (.small 0 (by decide)) 0 4 ⟨by decide, by decide⟩,
      chunkOf fourBytes (.small 0 (by decide)) 0 2 ⟨by decide, by decide⟩]
    (by
      intro frame member
      simp only [List.mem_cons, List.not_mem_nil, or_false] at member
      rcases member with rfl | rfl
      · rfl
      · rfl)
    4 (Span.runEnds_scan 0 (by decide))
  exact absurd read (by decide)

end Probes
end PqcScan
