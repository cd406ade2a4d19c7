import PqcScan.Library.Coverage
import PqcScan.Python.Value
import Mathlib.Order.Bounds.Basic

/-!
# Reassembly of a TCP stream

`_reassemble_stream` of `probes/net_sniff_live.py`: the segments of one flow are
sorted by their offset from the smallest sequence number and joined up to the
first gap.  Sequence numbers count modulo 2³², so the smallest one need not be
the first of the stream.
-/

namespace PqcScan
namespace Probes

open Library Python Span

/-- `_MAX_STREAM_BYTES`. -/
def maxStreamBytes : Nat := 262144

/-- `(seq - base) & _SEQ_MASK`. -/
def offsetFrom (base seq : Nat) : Nat := (((seq : Int) - base) % 2 ^ 32).toNat

/-- The loop of `_reassemble_stream` over the sorted segments. -/
def appendSegments (base : Nat) : List (Nat × Bytes) → Bytes → Nat → Bytes
  | [], buf, _ => buf
  | (seq, payload) :: rest, buf, nxt =>
      let off := offsetFrom base seq
      if nxt < off then buf
      else
        let stop := off + payload.length
        if stop ≤ nxt then appendSegments base rest buf nxt
        else
          let buf := buf ++ payload.drop (nxt - off)
          if maxStreamBytes ≤ buf.length then buf.take maxStreamBytes
          else appendSegments base rest buf stop

/-- `_reassemble_stream`. -/
def reassembleStream (segs : List (Nat × Bytes)) : Bytes :=
  match (segs.map Prod.fst).min? with
  | none => []
  | some base =>
      let ordered := segs.insertionSort fun left right =>
        offsetFrom base left.1 ≤ offsetFrom base right.1
      appendSegments base ordered [] 0

/-! ## The loop as a scan -/

/-- The positions a segment fills, counted from the base. -/
def spanFrom (base : Nat) (segment : Nat × Bytes) : Span :=
  ⟨offsetFrom base segment.1, segment.2.length⟩

/-- A segment that is not out of reach carries bytes of the stream. -/
def Agrees (base : Nat) (stream : Bytes) (segment : Nat × Bytes) : Prop :=
  (spanFrom base segment).first ≤ stream.length →
    (spanFrom base segment).stop ≤ stream.length ∧
      segment.2 = (stream.drop (spanFrom base segment).first).take segment.2.length

/-- The new tail of a segment continues what has been read. -/
theorem take_append_tail {stream payload : Bytes} {first next : Nat}
    (same : payload = (stream.drop first).take payload.length) (reached : first ≤ next)
    (longer : next ≤ first + payload.length) :
    stream.take next ++ payload.drop (next - first) =
      stream.take (first + payload.length) := by
  have tail : payload.drop (next - first) =
      (stream.drop next).take (first + payload.length - next) := by
    conv_lhs => rw [same]
    rw [List.drop_take, List.drop_drop]
    congr 1
    · omega
    · congr 1
      omega
  rw [tail, ← List.take_add]
  congr 1
  omega

theorem appendSegments_eq {base : Nat} {stream : Bytes}
    (short : stream.length ≤ maxStreamBytes) {segs : List (Nat × Bytes)}
    (agree : ∀ segment ∈ segs, Agrees base stream segment) {next : Nat}
    (inside : next ≤ stream.length) :
    appendSegments base segs (stream.take next) next =
      stream.take (scan (segs.map (spanFrom base)) next) := by
  induction segs generalizing next with
  | nil => rfl
  | cons segment rest inductionHypothesis =>
      rcases segment with ⟨seq, payload⟩
      have later : ∀ segment ∈ rest, Agrees base stream segment :=
        fun segment member => agree segment (List.mem_cons_of_mem _ member)
      have here : Agrees base stream (seq, payload) := agree _ List.mem_cons_self
      rw [List.map_cons]
      unfold appendSegments
      dsimp only
      split
      · next gap => rw [scan_of_gap gap]
      · next reached =>
          rw [scan_of_reached reached]
          change ¬ next < (spanFrom base (seq, payload)).first at reached
          obtain ⟨stops, same⟩ := here (by omega)
          dsimp only [spanFrom, Span.stop] at reached stops same ⊢
          split
          · next known =>
              rw [Nat.max_eq_left known]
              exact inductionHypothesis later inside
          · next new =>
              rw [take_append_tail same (by omega) (by omega),
                Nat.max_eq_right (by omega)]
              split
              · next full =>
                  -- The cap is reached only by a stream that is complete.
                  have beyond := le_scan (rest.map (spanFrom base))
                    (offsetFrom base seq + payload.length)
                  rw [List.length_take] at full
                  have complete : stream.length ≤
                      offsetFrom base seq + payload.length := by
                    omega
                  rw [List.take_of_length_le complete, List.take_of_length_le short,
                    List.take_of_length_le (complete.trans beyond)]
              · exact inductionHypothesis later stops

/-- The sorted segments cover what the segments cover. -/
theorem reassembleStream_eq {segs : List (Nat × Bytes)} {base : Nat}
    (least : (segs.map Prod.fst).min? = some base) {stream : Bytes}
    (short : stream.length ≤ maxStreamBytes)
    (agree : ∀ segment ∈ segs, Agrees base stream segment) :
    ∃ stop, RunEnds (segs.map (spanFrom base)) 0 stop ∧
      reassembleStream segs = stream.take stop := by
  let ordered := segs.insertionSort fun left right =>
    offsetFrom base left.1 ≤ offsetFrom base right.1
  have same : ordered.Perm segs := List.perm_insertionSort _ segs
  have sorted : (ordered.map (spanFrom base)).Pairwise fun left right =>
      left.first ≤ right.first := by
    rw [List.pairwise_map]
    have total : Std.Total fun left right : Nat × Bytes =>
        offsetFrom base left.1 ≤ offsetFrom base right.1 := ⟨fun _ _ => Nat.le_total _ _⟩
    have transitive : IsTrans (Nat × Bytes) fun left right =>
        offsetFrom base left.1 ≤ offsetFrom base right.1 :=
      ⟨fun _ _ _ => Nat.le_trans⟩
    exact List.pairwise_insertionSort _ segs
  refine ⟨scan (ordered.map (spanFrom base)) 0,
    (runEnds_scan 0 sorted).congr fun position => ?_, ?_⟩
  · simp only [Covers, (same.map (spanFrom base)).mem_iff]
  · unfold reassembleStream
    rw [least]
    have loop := appendSegments_eq short
      (fun segment member => agree segment (same.mem_iff.mp member)) (Nat.zero_le _)
    exact loop

/-! ## The segments of a stream -/

/-- A part of a stream. -/
structure Piece (stream : Bytes) where
  offset : Nat
  length : Nat
  inside : offset ≤ stream.length

namespace Piece

variable {stream : Bytes}

/-- `S[offset:offset+len]`. -/
def payload (piece : Piece stream) : Bytes :=
  (stream.drop piece.offset).take piece.length

/-- The segment of a stream that starts at the sequence number `isn`. -/
def segment (isn : Nat) (piece : Piece stream) : Nat × Bytes :=
  ((isn + piece.offset) % 2 ^ 32, piece.payload)

/-- The bytes of the stream the piece carries. -/
def span (piece : Piece stream) : Span := ⟨piece.offset, piece.payload.length⟩

/-- Its sequence number is past the wrap. -/
def Wraps (isn : Nat) (piece : Piece stream) : Prop := 2 ^ 32 ≤ isn + piece.offset

instance (isn : Nat) (piece : Piece stream) : Decidable (piece.Wraps isn) :=
  inferInstanceAs (Decidable (_ ≤ _))

theorem stop_le (piece : Piece stream) : piece.span.stop ≤ stream.length := by
  have inside := piece.inside
  simp only [span, stop, payload, List.length_take, List.length_drop]
  omega

theorem payload_eq (piece : Piece stream) :
    piece.payload = (stream.drop piece.offset).take piece.payload.length := by
  simp [payload]

end Piece

/-- The bytes from `first` on that the spans cover without a gap. -/
def RunBytes (stream : Bytes) (spans : List Span) (first : Nat) (bytes : Bytes) : Prop :=
  ∃ stop, RunEnds spans first stop ∧ bytes = (stream.drop first).take (stop - first)

theorem RunBytes.unique {stream : Bytes} {spans : List Span} {first : Nat}
    {left right : Bytes} (leftRuns : RunBytes stream spans first left)
    (rightRuns : RunBytes stream spans first right) : left = right := by
  obtain ⟨stop, leftEnds, rfl⟩ := leftRuns
  obtain ⟨other, rightEnds, rfl⟩ := rightRuns
  rw [leftEnds.unique rightEnds]

section Streams

variable {stream : Bytes} {isn : Nat} {pieces : List (Piece stream)}

/-- The bases: the smallest sequence number. -/
theorem base_eq {base : Nat} (member : ∃ piece ∈ pieces, (piece.segment isn).1 = base)
    (least : ∀ piece ∈ pieces, base ≤ (piece.segment isn).1) :
    ((pieces.map (Piece.segment isn)).map Prod.fst).min? = some base := by
  rw [List.min?_eq_some_iff]
  refine ⟨?_, fun seq among => ?_⟩
  · obtain ⟨piece, among, rfl⟩ := member
    exact List.mem_map_of_mem (List.mem_map_of_mem among)
  · simp only [List.map_map, List.mem_map, Function.comp_apply] at among
    obtain ⟨piece, among, rfl⟩ := among
    exact least piece among

/-- Without a wrap the gapless run from the start is read. -/
theorem reassembleStream_unwrapped (short : stream.length ≤ maxStreamBytes)
    (bounded : isn < 2 ^ 32) (starts : ∃ piece ∈ pieces, piece.offset = 0)
    (unwrapped : ∀ piece ∈ pieces, ¬ piece.Wraps isn) :
    RunBytes stream (pieces.map Piece.span) 0
      (reassembleStream (pieces.map (Piece.segment isn))) := by
  have seq : ∀ piece ∈ pieces, (piece.segment isn).1 = isn + piece.offset := by
    intro piece member
    have := unwrapped piece member
    simp only [Piece.Wraps] at this
    exact Nat.mod_eq_of_lt (by omega)
  have spans : ∀ piece ∈ pieces, spanFrom isn (piece.segment isn) = piece.span := by
    intro piece member
    have := unwrapped piece member
    simp only [Piece.Wraps] at this
    simp only [spanFrom, seq piece member, offsetFrom, Piece.span]
    congr 1
    omega
  have least : ((pieces.map (Piece.segment isn)).map Prod.fst).min? = some isn := by
    apply base_eq
    · obtain ⟨piece, member, zero⟩ := starts
      exact ⟨piece, member, by rw [seq piece member, zero, Nat.add_zero]⟩
    · intro piece member
      rw [seq piece member]
      exact Nat.le_add_right _ _
  obtain ⟨stop, runs, result⟩ := reassembleStream_eq least short (by
    intro segment among
    obtain ⟨piece, member, rfl⟩ := List.mem_map.mp among
    unfold Agrees
    rw [spans piece member]
    exact fun _ => ⟨piece.stop_le, piece.payload_eq⟩)
  have same : (pieces.map (Piece.segment isn)).map (spanFrom isn) =
      pieces.map Piece.span := by
    rw [List.map_map]
    exact List.map_congr_left spans
  rw [same] at runs
  exact ⟨stop, runs, by rw [result, List.drop_zero, Nat.sub_zero]⟩

/-- Past a wrap the gapless run of the wrapped pieces is read. -/
theorem reassembleStream_wrapped (short : stream.length ≤ maxStreamBytes)
    (bounded : isn < 2 ^ 32) {first : Nat}
    (least : IsLeast {offset | ∃ piece ∈ pieces, piece.Wraps isn ∧
      piece.offset = offset} first) :
    RunBytes stream ((pieces.filter (·.Wraps isn)).map Piece.span) first
      (reassembleStream (pieces.map (Piece.segment isn))) := by
  obtain ⟨⟨head, headMember, headWraps, rfl⟩, lowest⟩ := least
  have headInside := head.inside
  simp only [Piece.Wraps] at headWraps
  have bound : maxStreamBytes = 262144 := rfl
  obtain ⟨base, base_eq'⟩ : ∃ base, isn + head.offset = base + 2 ^ 32 :=
    ⟨isn + head.offset - 2 ^ 32, by omega⟩
  have below : ∀ piece ∈ pieces, piece.Wraps isn → head.offset ≤ piece.offset :=
    fun piece member wraps => lowest ⟨piece, member, wraps, rfl⟩
  have wrapped : ∀ piece ∈ pieces, piece.Wraps isn →
      spanFrom base (piece.segment isn) =
        ⟨piece.offset - head.offset, piece.payload.length⟩ := by
    intro piece member wraps
    have := below piece member wraps
    have := piece.inside
    simp only [Piece.Wraps] at wraps
    simp only [spanFrom, Piece.segment, offsetFrom]
    congr 1
    omega
  have unwrapped : ∀ piece ∈ pieces, ¬ piece.Wraps isn →
      stream.length - head.offset < (spanFrom base (piece.segment isn)).first := by
    intro piece member apart
    simp only [Piece.Wraps] at apart
    simp only [spanFrom, Piece.segment, offsetFrom]
    omega
  have smallest : ((pieces.map (Piece.segment isn)).map Prod.fst).min? = some base := by
    apply base_eq
    · exact ⟨head, headMember, by simp only [Piece.segment]; omega⟩
    · intro piece member
      have := piece.inside
      simp only [Piece.segment]
      by_cases wraps : piece.Wraps isn
      · have := below piece member wraps
        simp only [Piece.Wraps] at wraps
        omega
      · simp only [Piece.Wraps] at wraps
        omega
  have shorter : (stream.drop head.offset).length ≤ maxStreamBytes := by
    rw [List.length_drop]
    omega
  obtain ⟨stop, runs, result⟩ := reassembleStream_eq smallest shorter (by
      intro segment among
      obtain ⟨piece, member, rfl⟩ := List.mem_map.mp among
      unfold Agrees
      rw [List.length_drop]
      by_cases wraps : piece.Wraps isn
      · have after := below piece member wraps
        have stops := piece.stop_le
        rw [wrapped piece member wraps]
        simp only [Piece.span, Span.stop] at stops ⊢
        refine fun _ => ⟨by omega, ?_⟩
        rw [List.drop_drop, Nat.add_sub_cancel' after]
        exact piece.payload_eq
      · have := unwrapped piece member wraps
        omega)
  have covers : ∀ position ≤ stream.length - head.offset,
      Covers ((pieces.map (Piece.segment isn)).map (spanFrom base)) position ↔
        Covers ((pieces.filter (·.Wraps isn)).map Piece.span)
          (head.offset + position) := by
    intro position inside
    simp only [Covers, List.map_map, List.mem_map, List.mem_filter,
      decide_eq_true_eq, Function.comp_apply, exists_exists_and_eq_and]
    constructor
    · rintro ⟨piece, member, starts, stops⟩
      by_cases wraps : piece.Wraps isn
      · have after := below piece member wraps
        rw [wrapped piece member wraps] at starts stops
        refine ⟨piece, ⟨member, wraps⟩, ?_⟩
        simp only [Piece.span, Span.stop] at starts stops ⊢
        omega
      · have := unwrapped piece member wraps
        omega
    · rintro ⟨piece, ⟨member, wraps⟩, starts, stops⟩
      have after := below piece member wraps
      refine ⟨piece, member, ?_⟩
      rw [wrapped piece member wraps]
      simp only [Piece.span, Span.stop] at starts stops ⊢
      omega
  have reaches : stop ≤ stream.length - head.offset := by
    by_contra beyond
    have covered := (covers _ (le_refl _)).mp
      (runs.covered (stream.length - head.offset) (Nat.zero_le _) (by omega))
    obtain ⟨span, among, _, stops⟩ := covered
    obtain ⟨piece, _, rfl⟩ := List.mem_map.mp among
    have := piece.stop_le
    omega
  refine ⟨head.offset + stop, ⟨Nat.le_add_right _ _, ?_, ?_⟩, ?_⟩
  · intro position after before
    have covered := (covers (position - head.offset) (by omega)).mp
      (runs.covered _ (Nat.zero_le _) (by omega))
    rwa [Nat.add_sub_cancel' after] at covered
  · exact fun covered => runs.ends ((covers stop reaches).mpr covered)
  · rw [result, Nat.add_sub_cancel_left]

/-- The reassembled bytes are the longest prefix the segments cover without a
gap exactly when no sequence number is past the wrap, or the bytes covered from
the first wrapped one on happen to be the same. -/
theorem reassembleStream_iff (short : stream.length ≤ maxStreamBytes)
    (bounded : isn < 2 ^ 32) (starts : ∃ piece ∈ pieces, piece.offset = 0) :
    RunBytes stream (pieces.map Piece.span) 0
        (reassembleStream (pieces.map (Piece.segment isn))) ↔
      (∀ piece ∈ pieces, ¬ piece.Wraps isn) ∨
        ∃ first bytes, IsLeast {offset | ∃ piece ∈ pieces, piece.Wraps isn ∧
            piece.offset = offset} first ∧
          RunBytes stream ((pieces.filter (·.Wraps isn)).map Piece.span) first bytes ∧
          RunBytes stream (pieces.map Piece.span) 0 bytes := by
  constructor
  · intro reads
    by_cases unwrapped : ∀ piece ∈ pieces, ¬ piece.Wraps isn
    · exact Or.inl unwrapped
    · simp only [not_forall, not_not] at unwrapped
      obtain ⟨piece, member, wraps⟩ := unwrapped
      have some : ∃ offset, ∃ piece ∈ pieces, piece.Wraps isn ∧
          piece.offset = offset := ⟨_, piece, member, wraps, rfl⟩
      classical
      have least : IsLeast {offset | ∃ piece ∈ pieces, piece.Wraps isn ∧
          piece.offset = offset} (Nat.find some) :=
        ⟨Nat.find_spec some, fun _ other => Nat.find_min' some other⟩
      exact Or.inr ⟨_, _, least, reassembleStream_wrapped short bounded least, reads⟩
  · rintro (unwrapped | ⟨first, bytes, least, wrapped, reads⟩)
    · exact reassembleStream_unwrapped short bounded starts unwrapped
    · have same := (reassembleStream_wrapped short bounded least).unique wrapped
      rwa [same]

end Streams

/-- Two bytes in one segment each. -/
def twoPieces : List (Piece [65, 66]) := [⟨0, 1, by decide⟩, ⟨1, 1, by decide⟩]

theorem runEnds_twoPieces : RunEnds (twoPieces.map Piece.span) 0 2 := by
  have sorted : (twoPieces.map Piece.span).Pairwise fun left right =>
      left.first ≤ right.first := by decide
  exact runEnds_scan 0 sorted

/-- Any isn below the last keeps both bytes. -/
theorem reassembleStream_iff_unwrapped :
    RunBytes [65, 66] (twoPieces.map Piece.span) 0
        (reassembleStream (twoPieces.map (Piece.segment 7))) ↔
      (∀ piece ∈ twoPieces, ¬ piece.Wraps 7) ∨
        ∃ first bytes, IsLeast {offset | ∃ piece ∈ twoPieces, piece.Wraps 7 ∧
            piece.offset = offset} first ∧
          RunBytes [65, 66] ((twoPieces.filter (·.Wraps 7)).map Piece.span) first bytes ∧
          RunBytes [65, 66] (twoPieces.map Piece.span) 0 bytes :=
  reassembleStream_iff (by decide) (by decide) (by decide)

/-- With the last sequence number as the first, the first byte is lost. -/
theorem first_segment_lost :
    ¬ RunBytes [65, 66] (twoPieces.map Piece.span) 0
      (reassembleStream (twoPieces.map (Piece.segment (2 ^ 32 - 1)))) := by
  intro reads
  have whole : RunBytes [65, 66] (twoPieces.map Piece.span) 0 [65, 66] :=
    ⟨2, runEnds_twoPieces, rfl⟩
  have same := reads.unique whole
  revert same
  decide

end Probes
end PqcScan
