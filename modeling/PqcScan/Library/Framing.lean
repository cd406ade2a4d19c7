import Mathlib.Data.List.Basic
import Mathlib.Tactic.Ring

/-!
# Framed data

A framing cuts data into frames: a head of fixed size, which tells the size of
the body, and the body.  Data that ends early leaves a last frame with a short
body.  What is read from a prefix of framed data is a cut of its frames.
-/

namespace PqcScan
namespace Library

/-- A head of `header` items tells the size of the body after it. -/
structure Framing (β : Type) where
  header : Nat
  positive : 0 < header
  size : List β → Nat

/-- A head and the body after it. -/
structure Frame (β : Type) where
  head : List β
  body : List β
  deriving DecidableEq

variable {β : Type}

namespace Frame

/-- The frame as it is sent. -/
def bytes (frame : Frame β) : List β := frame.head ++ frame.body

/-- How long the frame is. -/
def length (frame : Frame β) : Nat := frame.head.length + frame.body.length

@[simp] theorem length_bytes (frame : Frame β) :
    frame.bytes.length = frame.length :=
  List.length_append

end Frame

/-- Frames one after the other. -/
def encode (frames : List (Frame β)) : List β := frames.flatMap Frame.bytes

@[simp] theorem encode_nil : encode ([] : List (Frame β)) = [] := rfl

@[simp] theorem encode_cons (frame : Frame β) (rest : List (Frame β)) :
    encode (frame :: rest) = frame.bytes ++ encode rest := rfl

@[simp] theorem encode_append (left right : List (Frame β)) :
    encode (left ++ right) = encode left ++ encode right := by
  simp [encode]

theorem length_encode_cons (frame : Frame β) (rest : List (Frame β)) :
    (encode (frame :: rest)).length = frame.length + (encode rest).length := by
  rw [encode_cons, List.length_append, Frame.length_bytes]

namespace Framing

variable (framing : Framing β)

/-- The frame has the head and the body its head tells of. -/
structure Fits (frame : Frame β) : Prop where
  head : frame.head.length = framing.header
  body : frame.body.length = framing.size frame.head

instance (frame : Frame β) : Decidable (framing.Fits frame) :=
  decidable_of_iff
    (frame.head.length = framing.header ∧ frame.body.length = framing.size frame.head)
    ⟨fun both => ⟨both.1, both.2⟩, fun fits => ⟨fits.head, fits.body⟩⟩

/-- Read frames while a head fits into the data and into the limit. -/
def readLoop : Nat → Nat → List β → List (Frame β)
  | 0, _, _ => []
  | fuel + 1, limit, data =>
      if framing.header ≤ limit ∧ framing.header ≤ data.length then
        let head := data.take framing.header
        let rest := data.drop framing.header
        ⟨head, rest.take (framing.size head)⟩ ::
          readLoop fuel (limit - (framing.header + framing.size head))
            (rest.drop (framing.size head))
      else []

/-- The frames of the data whose heads lie within the limit. -/
def readWithin (limit : Nat) (data : List β) : List (Frame β) :=
  framing.readLoop data.length limit data

/-- The frames of the data; the body of the last may be short. -/
def read (data : List β) : List (Frame β) := framing.readWithin data.length data

/-- The frames whose bodies are complete. -/
def readWhole (data : List β) : List (Frame β) :=
  (framing.read data).takeWhile fun frame => frame.body.length == framing.size frame.head

variable {framing}

/-- Neither fuel nor a limit beyond the data matters. -/
theorem readLoop_congr {fuel fuel' limit limit' : Nat} {data : List β}
    (enough : data.length ≤ fuel) (enough' : data.length ≤ fuel')
    (beyond : data.length ≤ limit) (beyond' : data.length ≤ limit') :
    framing.readLoop fuel limit data = framing.readLoop fuel' limit' data := by
  have positive := framing.positive
  induction fuel generalizing fuel' limit limit' data with
  | zero =>
      have none : data.length = 0 := Nat.le_zero.mp enough
      cases fuel' with
      | zero => rfl
      | succ fuel' =>
          rw [readLoop, readLoop, if_neg (by omega)]
  | succ fuel inductionHypothesis =>
      cases fuel' with
      | zero =>
          have none : data.length = 0 := Nat.le_zero.mp enough'
          rw [readLoop, readLoop, if_neg (by omega)]
      | succ fuel' =>
          rw [readLoop, readLoop]
          by_cases fits : framing.header ≤ data.length
          · rw [if_pos ⟨fits.trans beyond, fits⟩, if_pos ⟨fits.trans beyond', fits⟩]
            dsimp only
            congr 1
            apply inductionHypothesis
            all_goals
              simp only [List.length_drop]
              omega
          · rw [if_neg (fun both => fits both.2), if_neg (fun both => fits both.2)]

theorem readWithin_of_le {limit : Nat} {data : List β} (beyond : data.length ≤ limit) :
    framing.readWithin limit data = framing.read data :=
  readLoop_congr (le_refl _) (le_refl _) beyond (le_refl _)

theorem read_of_short {data : List β} (short : data.length < framing.header) :
    framing.read data = [] := by
  unfold read readWithin
  cases data.length with
  | zero => rfl
  | succ length =>
      rw [readLoop, if_neg]
      omega

theorem read_of_le {data : List β} (fits : framing.header ≤ data.length) :
    framing.read data =
      ⟨data.take framing.header,
        (data.drop framing.header).take (framing.size (data.take framing.header))⟩ ::
        framing.read ((data.drop framing.header).drop
          (framing.size (data.take framing.header))) := by
  have positive := framing.positive
  obtain ⟨length, same⟩ : ∃ length, data.length = length + 1 :=
    ⟨data.length - 1, by omega⟩
  conv_lhs => unfold read readWithin
  rw [same, readLoop, if_pos (by omega)]
  dsimp only
  congr 1
  apply readLoop_congr
  all_goals
    simp only [List.length_drop]
    omega

/-! ## Prefixes of framed data -/

/-- What of the frames lies within the first items. -/
def cut (framing : Framing β) : List (Frame β) → Nat → List (Frame β)
  | [], _ => []
  | frame :: rest, count =>
      if count < framing.header then []
      else
        ⟨frame.head, frame.body.take (count - framing.header)⟩ ::
          cut framing rest (count - frame.length)

/-- What is read from a prefix of framed data is a cut of the frames. -/
theorem read_take {frames : List (Frame β)} (fit : ∀ frame ∈ frames, framing.Fits frame)
    (count : Nat) :
    framing.read ((encode frames).take count) = framing.cut frames count := by
  have positive := framing.positive
  induction frames generalizing count with
  | nil => exact read_of_short (by simpa using positive)
  | cons frame rest inductionHypothesis =>
      have here := fit frame List.mem_cons_self
      have later := fun other member => fit other (List.mem_cons_of_mem frame member)
      have whole : frame.length = framing.header + framing.size frame.head := by
        rw [Frame.length, here.head, here.body]
      unfold cut
      split
      · next short =>
          apply read_of_short
          rw [List.length_take]
          omega
      · next reached =>
          have start : ((encode (frame :: rest)).take count).take framing.header =
              frame.head := by
            rw [List.take_take, Nat.min_eq_left (by omega), encode_cons, Frame.bytes,
              List.append_assoc, List.take_left' here.head]
          have after : ((encode (frame :: rest)).take count).drop framing.header =
              (frame.body ++ encode rest).take (count - framing.header) := by
            rw [List.drop_take, encode_cons, Frame.bytes, List.append_assoc,
              List.drop_left' here.head]
          have long : framing.header ≤ ((encode (frame :: rest)).take count).length := by
            rw [List.length_take, length_encode_cons]
            omega
          rw [read_of_le long, start, after, ← here.body]
          congr 1
          · rw [List.take_take, Nat.min_comm, ← List.take_take, List.take_left' rfl]
          · have sized := here.body
            rw [List.drop_take, List.drop_left' rfl, inductionHypothesis later]
            congr 1
            omega

theorem cut_zero (frames : List (Frame β)) : framing.cut frames 0 = [] := by
  cases frames with
  | nil => rfl
  | cons frame rest => exact if_pos framing.positive

/-- A cut leaves heads as they are. -/
theorem head_of_mem_cut {frames : List (Frame β)} {count : Nat} {frame : Frame β}
    (member : frame ∈ framing.cut frames count) :
    ∃ other ∈ frames, other.head = frame.head := by
  induction frames generalizing count with
  | nil => exact absurd member List.not_mem_nil
  | cons first rest inductionHypothesis =>
      unfold cut at member
      split at member
      · exact absurd member List.not_mem_nil
      · rcases List.mem_cons.mp member with rfl | later
        · exact ⟨first, List.mem_cons_self, rfl⟩
        · obtain ⟨other, among, same⟩ := inductionHypothesis later
          exact ⟨other, List.mem_cons_of_mem _ among, same⟩

/-- A cut within the first frames. -/
theorem cut_append_of_lt {frames : List (Frame β)} (rest : List (Frame β)) {count : Nat}
    (within : count < (encode frames).length) :
    framing.cut (frames ++ rest) count = framing.cut frames count := by
  induction frames generalizing count with
  | nil => exact absurd within (Nat.not_lt_zero count)
  | cons frame frames inductionHypothesis =>
      rw [length_encode_cons] at within
      rw [List.cons_append, cut, cut]
      split
      · rfl
      · congr 1
        by_cases later : count - frame.length < (encode frames).length
        · exact inductionHypothesis later
        · have nothing : count - frame.length = 0 := by omega
          rw [nothing, cut_zero, cut_zero]

/-- A cut beyond the first frames takes them whole. -/
theorem cut_append_of_le {frames : List (Frame β)}
    (fit : ∀ frame ∈ frames, framing.Fits frame) (rest : List (Frame β)) {count : Nat}
    (beyond : (encode frames).length ≤ count) :
    framing.cut (frames ++ rest) count =
      frames ++ framing.cut rest (count - (encode frames).length) := by
  induction frames generalizing count with
  | nil => rfl
  | cons frame frames inductionHypothesis =>
      have here := (fit frame List.mem_cons_self).head
      have later := fun other member => fit other (List.mem_cons_of_mem frame member)
      rw [length_encode_cons, Frame.length, here] at beyond
      rw [List.cons_append, cut, if_neg (by omega),
        inductionHypothesis later (by rw [Frame.length, here]; omega),
        List.take_of_length_le (by omega), List.cons_append, length_encode_cons,
        Nat.sub_add_eq]

/-! ## Complete frames -/

/-- The frames that lie wholly within the first items. -/
def wholes : List (Frame β) → Nat → List (Frame β)
  | [], _ => []
  | frame :: rest, count =>
      if frame.length ≤ count then frame :: wholes rest (count - frame.length) else []

theorem wholes_of_le {frames : List (Frame β)} {count : Nat}
    (beyond : (encode frames).length ≤ count) : wholes frames count = frames := by
  induction frames generalizing count with
  | nil => rfl
  | cons frame rest inductionHypothesis =>
      rw [length_encode_cons] at beyond
      rw [wholes, if_pos (by omega), inductionHypothesis (by omega)]

/-- All frames lie within the first items only if their encoding does. -/
theorem le_of_wholes {frames : List (Frame β)} {count : Nat}
    (all : wholes frames count = frames) : (encode frames).length ≤ count := by
  induction frames generalizing count with
  | nil => exact Nat.zero_le _
  | cons frame rest inductionHypothesis =>
      unfold wholes at all
      split at all
      · have tail := inductionHypothesis (List.cons.inj all).2
        rw [length_encode_cons]
        omega
      · cases all

theorem wholes_append_of_le {frames : List (Frame β)} (rest : List (Frame β))
    {count : Nat} (beyond : (encode frames).length ≤ count) :
    wholes (frames ++ rest) count =
      frames ++ wholes rest (count - (encode frames).length) := by
  induction frames generalizing count with
  | nil => rfl
  | cons frame frames inductionHypothesis =>
      rw [length_encode_cons] at beyond
      rw [List.cons_append, wholes, if_pos (by omega),
        inductionHypothesis (by omega), List.cons_append, length_encode_cons,
        Nat.sub_add_eq]

/-- The frame after the first ones has not arrived. -/
theorem wholes_append_of_lt {frames : List (Frame β)} (frame : Frame β)
    (rest : List (Frame β)) {count : Nat}
    (before : count < (encode frames).length + frame.length) :
    wholes (frames ++ frame :: rest) count = wholes frames count := by
  induction frames generalizing count with
  | nil =>
      rw [encode_nil, List.length_nil, Nat.zero_add] at before
      rw [List.nil_append, wholes, wholes, if_neg (Nat.not_le.mpr before)]
  | cons first frames inductionHypothesis =>
      rw [length_encode_cons] at before
      rw [List.cons_append, wholes, wholes]
      split
      · rw [inductionHypothesis (by omega)]
      · rfl

theorem wholes_mono (frames : List (Frame β)) {count later : Nat}
    (before : count ≤ later) : wholes frames count <+: wholes frames later := by
  induction frames generalizing count later with
  | nil => exact List.prefix_refl _
  | cons frame rest inductionHypothesis =>
      unfold wholes
      split
      · next fits =>
          rw [if_pos (fits.trans before)]
          exact (List.prefix_cons_inj frame).mpr (inductionHypothesis (by omega))
      · exact List.nil_prefix

theorem wholes_starts (frames : List (Frame β)) (count : Nat) :
    wholes frames count <+: frames := by
  induction frames generalizing count with
  | nil => exact List.prefix_refl _
  | cons frame rest inductionHypothesis =>
      unfold wholes
      split
      · exact (List.prefix_cons_inj frame).mpr (inductionHypothesis _)
      · exact List.nil_prefix

theorem mem_of_mem_wholes {frames : List (Frame β)} {count : Nat} {frame : Frame β}
    (member : frame ∈ wholes frames count) : frame ∈ frames :=
  (wholes_starts frames count).subset member

/-- A cut is the frames within it and at most one with a short body. -/
theorem cut_eq {frames : List (Frame β)} (fit : ∀ frame ∈ frames, framing.Fits frame)
    (count : Nat) :
    ∃ short, framing.cut frames count = wholes frames count ++ short ∧
      ∀ frame ∈ short, frame.body.length ≠ framing.size frame.head := by
  induction frames generalizing count with
  | nil => exact ⟨[], rfl, nofun⟩
  | cons frame rest inductionHypothesis =>
      have here := fit frame List.mem_cons_self
      have later := fun other member => fit other (List.mem_cons_of_mem frame member)
      have whole : frame.length = framing.header + frame.body.length := by
        rw [Frame.length, here.head]
      unfold cut wholes
      by_cases complete : frame.length ≤ count
      · obtain ⟨short, same, lacking⟩ := inductionHypothesis later (count - frame.length)
        refine ⟨short, ?_, lacking⟩
        rw [if_neg (by omega), if_pos complete, List.take_of_length_le (by omega), same,
          List.cons_append]
      · rw [if_neg complete]
        split
        · exact ⟨[], rfl, nofun⟩
        · have nothing : count - frame.length = 0 := by omega
          refine ⟨_, rfl, ?_⟩
          rw [nothing, cut_zero]
          intro other member
          rw [List.mem_singleton.mp member, ← here.body]
          simp only [List.length_take]
          omega

theorem complete_of_mem_wholes {frames : List (Frame β)}
    (fit : ∀ frame ∈ frames, framing.Fits frame) {count : Nat} {frame : Frame β}
    (member : frame ∈ wholes frames count) :
    (frame.body.length == framing.size frame.head) = true := by
  simpa using (fit frame (mem_of_mem_wholes member)).body

/-- The frames of a cut whose bodies are complete are those within it. -/
theorem complete_cut {frames : List (Frame β)}
    (fit : ∀ frame ∈ frames, framing.Fits frame) (count : Nat) :
    ((framing.cut frames count).filter fun frame =>
      frame.body.length == framing.size frame.head) = wholes frames count := by
  obtain ⟨short, same, lacking⟩ := cut_eq fit count
  have none : (short.filter fun frame =>
      frame.body.length == framing.size frame.head) = [] :=
    List.filter_eq_nil_iff.mpr fun frame member => by simpa using lacking frame member
  have all : ((wholes frames count).filter fun frame =>
      frame.body.length == framing.size frame.head) = wholes frames count :=
    List.filter_eq_self.mpr fun frame member => complete_of_mem_wholes fit member
  rw [same, List.filter_append, none, all, List.append_nil]

theorem readWhole_take {frames : List (Frame β)}
    (fit : ∀ frame ∈ frames, framing.Fits frame) (count : Nat) :
    framing.readWhole ((encode frames).take count) = wholes frames count := by
  unfold readWhole
  obtain ⟨short, same, lacking⟩ := cut_eq fit count
  rw [read_take fit, same, List.takeWhile_append_of_pos
    fun frame member => complete_of_mem_wholes fit member]
  cases short with
  | nil => exact List.append_nil _
  | cons frame rest =>
      have fails := lacking frame List.mem_cons_self
      rw [List.takeWhile_cons_of_neg (by simpa using fails), List.append_nil]

/-- What is read from framed data is its frames. -/
theorem read_encode {frames : List (Frame β)}
    (fit : ∀ frame ∈ frames, framing.Fits frame) :
    framing.read (encode frames) = frames := by
  have whole := read_take fit (encode frames).length
  have cut := cut_append_of_le fit [] (le_refl (encode frames).length)
  rw [List.append_nil, Framing.cut, List.append_nil] at cut
  rwa [List.take_length, cut] at whole

theorem readWhole_encode {frames : List (Frame β)}
    (fit : ∀ frame ∈ frames, framing.Fits frame) :
    framing.readWhole (encode frames) = frames := by
  have whole := readWhole_take fit (encode frames).length
  rwa [List.take_length, wholes_of_le (le_refl _)] at whole

/-! ## Selected bodies -/

/-- The bodies of the frames with a selected head. -/
def payload (select : List β → Bool) (frames : List (Frame β)) : List β :=
  (frames.filter fun frame => select frame.head).flatMap Frame.body

/-- How many items of selected bodies lie within the first items. -/
def carried (framing : Framing β) (select : List β → Bool) : List (Frame β) → Nat → Nat
  | [], _ => 0
  | frame :: rest, count =>
      (if select frame.head then min frame.body.length (count - framing.header) else 0) +
        carried framing select rest (count - frame.length)

theorem carried_zero (select : List β → Bool) (frames : List (Frame β)) :
    framing.carried select frames 0 = 0 := by
  induction frames with
  | nil => rfl
  | cons frame rest inductionHypothesis =>
      simp [carried, inductionHypothesis]

theorem carried_mono (select : List β → Bool) (frames : List (Frame β))
    {count later : Nat} (before : count ≤ later) :
    framing.carried select frames count ≤ framing.carried select frames later := by
  induction frames generalizing count later with
  | nil => exact le_refl _
  | cons frame rest inductionHypothesis =>
      have tail := inductionHypothesis
        (by omega : count - frame.length ≤ later - frame.length)
      unfold carried
      split
      · omega
      · omega

/-- Everything carries the selected bodies. -/
theorem carried_length {frames : List (Frame β)}
    (fit : ∀ frame ∈ frames, framing.Fits frame) (select : List β → Bool) :
    framing.carried select frames (encode frames).length =
      (payload select frames).length := by
  induction frames with
  | nil => rfl
  | cons frame rest inductionHypothesis =>
      have here := (fit frame List.mem_cons_self).head
      have tail := inductionHypothesis
        fun other member => fit other (List.mem_cons_of_mem frame member)
      have whole : frame.length = framing.header + frame.body.length := by
        rw [Frame.length, here]
      unfold carried payload
      unfold payload at tail
      rw [length_encode_cons, Nat.add_sub_cancel_left, tail, Nat.min_eq_left (by omega)]
      by_cases selected : select frame.head = true
      · rw [if_pos selected, List.filter_cons_of_pos (by exact selected),
          List.flatMap_cons, List.length_append]
      · rw [if_neg selected, List.filter_cons_of_neg (by exact selected), Nat.zero_add]

/-- The selected bodies of a cut are a prefix of the selected bodies. -/
theorem payload_cut {frames : List (Frame β)}
    (fit : ∀ frame ∈ frames, framing.Fits frame) (select : List β → Bool)
    (count : Nat) :
    payload select (framing.cut frames count) =
      (payload select frames).take (framing.carried select frames count) := by
  induction frames generalizing count with
  | nil => rfl
  | cons frame rest inductionHypothesis =>
      have here := (fit frame List.mem_cons_self).head
      have later := fun other member => fit other (List.mem_cons_of_mem frame member)
      have tail := inductionHypothesis later (count - frame.length)
      have whole : frame.length = framing.header + frame.body.length := by
        rw [Frame.length, here]
      unfold cut carried
      split
      · have nothing : count - frame.length = 0 := by omega
        have none : count - framing.header = 0 := by omega
        rw [nothing, none, carried_zero]
        simp [payload]
      · unfold payload at tail ⊢
        by_cases selected : select frame.head = true
        · rw [List.filter_cons_of_pos (by exact selected), List.flatMap_cons, tail,
            List.filter_cons_of_pos (by exact selected), List.flatMap_cons,
            if_pos selected]
          by_cases complete : frame.body.length ≤ count - framing.header
          · rw [List.take_of_length_le complete, Nat.min_eq_left complete,
              List.take_length_add_append]
          · have nothing : count - frame.length = 0 := by omega
            rw [nothing, carried_zero, List.take_zero, List.append_nil,
              Nat.min_eq_right (by omega), Nat.add_zero, List.take_append_of_le_length]
            omega
        · rw [List.filter_cons_of_neg (by exact selected),
            List.filter_cons_of_neg (by exact selected), if_neg selected,
            Nat.zero_add, tail]

end Framing

end Library
end PqcScan
