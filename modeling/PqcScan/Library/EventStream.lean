import Mathlib.Data.List.TakeWhile
import Mathlib.Tactic.NormNum

/-!
# Event streams

The text of a stream of server-sent events, and what a client reads of it however much has
arrived.
-/

namespace PqcScan
namespace Library
namespace EventStream

/-! ## Lines -/

/-- The lines that are ended, by a line feed, a carriage return or both;
`returned` tells that the text follows a carriage return, and `line` is what has
been read of the first line. -/
def lines : Bool → List Char → List Char → List (List Char)
  | _, _, [] => []
  | returned, line, char :: rest =>
      if char = '\n' then
        if returned then lines false [] rest else line :: lines false [] rest
      else if char = '\r' then line :: lines true [] rest
      else lines false (line ++ [char]) rest

/-- Text of one line. -/
def Plain (text : List Char) : Prop := ∀ char ∈ text, char ≠ '\n' ∧ char ≠ '\r'

theorem Plain.append {left right : List Char} (first : Plain left)
    (second : Plain right) :
    Plain (left ++ right) := by
  intro char member
  rcases List.mem_append.mp member with old | new
  · exact first char old
  · exact second char new

theorem lines_plain {text : List Char} (plain : Plain text) (line : List Char) :
    lines false line text = [] := by
  induction text generalizing line with
  | nil => rfl
  | cons char rest inductionHypothesis =>
      have first := plain char List.mem_cons_self
      rw [lines, if_neg first.1, if_neg first.2]
      exact inductionHypothesis (fun other member =>
        plain other (List.mem_cons_of_mem _ member)) _

theorem lines_feed {text : List Char} (plain : Plain text) (line rest : List Char) :
    lines false line (text ++ '\n' :: rest) = (line ++ text) :: lines false [] rest := by
  induction text generalizing line with
  | nil => simp [lines]
  | cons char text inductionHypothesis =>
      have first := plain char List.mem_cons_self
      rw [List.cons_append, lines, if_neg first.1, if_neg first.2,
        inductionHypothesis
          (fun other member => plain other (List.mem_cons_of_mem _ member)),
        List.append_assoc, List.singleton_append]

/-- A line is there once its line feed has arrived. -/
theorem lines_take {text : List Char} (plain : Plain text) (rest : List Char)
    (cut : Nat) :
    lines false [] ((text ++ '\n' :: rest).take cut) =
      if cut ≤ text.length then []
      else text :: lines false [] (rest.take (cut - (text.length + 1))) := by
  by_cases inside : cut ≤ text.length
  · rw [if_pos inside, List.take_append_of_le_length inside]
    exact lines_plain (fun char member => plain char (List.mem_of_mem_take member)) []
  · obtain ⟨more, rfl⟩ := Nat.exists_eq_add_of_lt (Nat.lt_of_not_le inside)
    have part : (text ++ '\n' :: rest).take (text.length + more + 1) =
        text ++ '\n' :: rest.take more := by
      rw [Nat.add_assoc, List.take_length_add_append, List.take_succ_cons]
    have left : text.length + more + 1 - (text.length + 1) = more := by omega
    rw [if_neg inside, part, lines_feed plain, List.nil_append, left]

/-! ## Events -/

/-- An event that a client gets. -/
structure Message where
  kind : List Char
  data : List Char
  deriving DecidableEq

/-- The buffers of a client. -/
structure Pending where
  kind : List Char
  data : List Char
  deriving DecidableEq

/-- Nothing read yet. -/
def Pending.empty : Pending := ⟨[], []⟩

/-- A field with its value. -/
def Pending.set (pending : Pending) (name value : List Char) : Pending :=
  if name = "event".toList then { pending with kind := value }
  else if name = "data".toList then
    { pending with data := pending.data ++ value ++ ['\n'] }
  else pending

/-- The value of a field, without the one space that may precede it. -/
def fieldValue : List Char → List Char
  | [] => []
  | char :: rest => if char = ' ' then rest else char :: rest

/-- A line that is not empty: a field, or a comment, which has no name. -/
def Pending.take (pending : Pending) (line : List Char) : Pending :=
  pending.set (line.takeWhile (· != ':'))
    (fieldValue ((line.dropWhile (· != ':')).drop 1))

/-- The event of an empty line, if there is data. -/
def Pending.dispatch (pending : Pending) : List Message :=
  if pending.data = [] then []
  else
    [⟨if pending.kind = [] then "message".toList else pending.kind,
      pending.data.dropLast⟩]

/-- The events of the lines; what is pending at the end is lost. -/
def readLines : Pending → List (List Char) → List Message
  | _, [] => []
  | pending, line :: rest =>
      if line = [] then pending.dispatch ++ readLines .empty rest
      else readLines (pending.take line) rest

/-- The events of a text. -/
def read (text : List Char) : List Message := readLines .empty (lines false [] text)

/-! ## Frames -/

/-- The lines with their line feeds, and the empty line. -/
def block (fields : List (List Char)) : List Char :=
  fields.flatMap (· ++ ['\n']) ++ ['\n']

theorem block_cons (line : List Char) (fields : List (List Char)) :
    block (line :: fields) = line ++ '\n' :: block fields := by
  rw [block, List.flatMap_cons, List.append_assoc, List.append_assoc]
  rfl

/-- What a server sends: an event, or a comment to keep the connection open. -/
inductive Frame
  | event (message : Message)
  | comment (text : List Char)
  deriving DecidableEq

namespace Frame

/-- The line of a frame, or its two lines. -/
def fields : Frame → List (List Char)
  | event message => ["event: ".toList ++ message.kind, "data: ".toList ++ message.data]
  | comment text => [':' :: text]

/-- The frame as it is sent. -/
def text (frame : Frame) : List Char := block frame.fields

/-- The message of a frame that is no comment. -/
def message? : Frame → Option Message
  | event message => some message
  | comment _ => none

/-- No line ends inside. -/
def Sendable : Frame → Prop
  | event message => message.kind ≠ [] ∧ Plain message.kind ∧ Plain message.data
  | comment text => Plain text

theorem plain_event : Plain "event: ".toList := by simp [Plain]

theorem plain_data : Plain "data: ".toList := by simp [Plain]

theorem plain_colon : Plain [':'] := by simp [Plain]

theorem plain_fields {frame : Frame} (sendable : frame.Sendable) :
    ∀ line ∈ frame.fields, Plain line ∧ line ≠ [] := by
  intro line member
  cases frame with
  | event message =>
      rcases List.mem_cons.mp member with rfl | member
      · exact ⟨plain_event.append sendable.2.1, List.cons_ne_nil _ _⟩
      · rw [List.mem_singleton.mp member]
        exact ⟨plain_data.append sendable.2.2, List.cons_ne_nil _ _⟩
  | comment text =>
      rw [List.mem_singleton.mp member]
      exact ⟨plain_colon.append sendable, List.cons_ne_nil _ _⟩

end Frame

/-- The buffers after some lines. -/
theorem readLines_fields {fields : List (List Char)} (filled : ∀ line ∈ fields, line ≠ [])
    (pending : Pending) (rest : List (List Char)) :
    readLines pending (fields ++ rest) = readLines
      (fields.foldl Pending.take pending) rest := by
  induction fields generalizing pending with
  | nil => rfl
  | cons line fields inductionHypothesis =>
      rw [List.forall_mem_cons] at filled
      rw [List.cons_append, readLines, if_neg filled.1, inductionHypothesis filled.2,
        List.foldl_cons]

/-- The lines of a block that has arrived. -/
theorem lines_block {fields : List (List Char)} (plain : ∀ line ∈ fields, Plain line)
    (rest : List Char) {cut : Nat} (arrived : (block fields).length ≤ cut) :
    lines false [] ((block fields ++ rest).take cut) =
      fields ++ [] :: lines false [] (rest.take (cut - (block fields).length)) := by
  induction fields generalizing cut with
  | nil =>
      have none_ : Plain [] := by simp [Plain]
      have step := lines_take none_ rest cut
      rw [if_neg (Nat.not_le.mpr arrived)] at step
      exact step
  | cons line fields inductionHypothesis =>
      rw [List.forall_mem_cons] at plain
      rw [block_cons, List.length_append, List.length_cons] at arrived
      have left : cut - (line.length + 1) - (block fields).length =
          cut - (line.length + ((block fields).length + 1)) := by omega
      rw [block_cons, List.append_assoc, List.cons_append, lines_take plain.1,
        if_neg (by omega), inductionHypothesis plain.2 (by omega), left,
        List.length_append, List.length_cons, List.cons_append]

/-- A block that is cut short has no empty line. -/
theorem lines_block_short {fields : List (List Char)}
    (plain : ∀ line ∈ fields, Plain line) (filled : ∀ line ∈ fields, line ≠ [])
    (rest : List Char) {cut : Nat} (short : cut < (block fields).length) :
    ∀ line ∈ lines false [] ((block fields ++ rest).take cut), line ≠ [] := by
  induction fields generalizing cut with
  | nil =>
      have nothing : cut = 0 := Nat.lt_one_iff.mp short
      simp [nothing, lines]
  | cons line fields inductionHypothesis =>
      rw [List.forall_mem_cons] at plain filled
      rw [block_cons, List.length_append, List.length_cons] at short
      rw [block_cons, List.append_assoc, List.cons_append, lines_take plain.1]
      split
      · simp
      · rw [List.forall_mem_cons]
        exact ⟨filled.1, inductionHypothesis plain.2 filled.2 (by omega)⟩

theorem readLines_of_filled {fields : List (List Char)}
    (filled : ∀ line ∈ fields, line ≠ [])
    (pending : Pending) : readLines pending fields = [] := by
  have whole := readLines_fields filled pending []
  rw [List.append_nil] at whole
  exact whole

theorem dispatch_fields {frame : Frame} (sendable : frame.Sendable) :
    (frame.fields.foldl Pending.take .empty).dispatch = frame.message?.toList := by
  cases frame with
  | event message =>
      have kind : Pending.empty.take ("event: ".toList ++ message.kind) =
          ⟨message.kind, []⟩ := rfl
      have data : (⟨message.kind, []⟩ : Pending).take ("data: ".toList ++ message.data) =
          ⟨message.kind, message.data ++ ['\n']⟩ := rfl
      rw [Frame.fields, List.foldl_cons, List.foldl_cons, List.foldl_nil, kind, data,
        Pending.dispatch,
        if_neg (List.append_ne_nil_of_right_ne_nil _ (List.cons_ne_nil _ _)),
        if_neg sendable.1, List.dropLast_concat]
      rfl
  | comment text => rfl

/-- The items whose text lies within the first `cut` characters of all texts. -/
def arrived {α : Type} (text : α → List Char) : Nat → List α → List α
  | _, [] => []
  | cut, item :: rest =>
      if (text item).length ≤ cut then
        item :: arrived text (cut - (text item).length) rest
      else []

theorem arrived_map {α β : Type} (text : β → List Char) (send : α → β) (cut : Nat)
    (items : List α) :
    arrived text cut (items.map send) =
      (arrived (fun item => text (send item)) cut items).map send := by
  induction items generalizing cut with
  | nil => rfl
  | cons item items inductionHypothesis =>
      rw [List.map_cons, arrived, arrived]
      split
      · rw [inductionHypothesis, List.map_cons]
      · rfl

/-- However much has arrived of what is sent, the client has read the events that have
arrived whole, and nothing else. -/
theorem read_take {frames : List Frame} (sendable : ∀ frame ∈ frames, frame.Sendable)
    (cut : Nat) :
    read ((frames.flatMap Frame.text).take cut) =
      (arrived Frame.text cut frames).filterMap Frame.message? := by
  induction frames generalizing cut with
  | nil => simp [read, lines, readLines, arrived]
  | cons frame frames inductionHypothesis =>
      rw [List.forall_mem_cons] at sendable
      have plain : ∀ line ∈ frame.fields, Plain line := fun line member =>
        (Frame.plain_fields sendable.1 line member).1
      have filled : ∀ line ∈ frame.fields, line ≠ [] := fun line member =>
        (Frame.plain_fields sendable.1 line member).2
      rw [List.flatMap_cons, arrived, read, Frame.text]
      by_cases whole : (block frame.fields).length ≤ cut
      · have later := inductionHypothesis sendable.2 (cut - (block frame.fields).length)
        rw [read] at later
        rw [if_pos whole, lines_block plain _ whole, readLines_fields filled, readLines,
          if_pos rfl, dispatch_fields sendable.1, later]
        cases frame with
        | event message => rfl
        | comment text => rfl
      · rw [if_neg whole]
        exact readLines_of_filled
          (lines_block_short plain filled _ (Nat.lt_of_not_le whole)) .empty

end EventStream
end Library
end PqcScan
