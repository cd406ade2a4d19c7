import PqcScan.Library.EventStream
import PqcScan.Python.JsonText
import PqcScan.Runner.EventOrder

/-!
# Live progress

`event_to_sse`, what `sse_stream` yields, and the script of `scan_detail.html` that
follows a scan: what the page shows after any number of connections, each broken off
anywhere.
-/

namespace PqcScan
namespace Daemon
namespace LiveProgress

open Library Python Runner
open Library.EventStream Python.JsonText Runner.EventBus

/-! ## The stream -/

/-- The kind that `event_to_sse` writes. -/
def kind : Event → String
  | .stageStarted _ _ => "stage_started"
  | .stageCompleted _ _ => "stage_completed"
  | .findingDiscovered _ _ _ _ _ _ => "finding"
  | .scanCompleted _ => "scan_completed"

/-- `asdict(event)`. -/
def asdict : Event → List (String × Scalar)
  | .stageStarted scanId stage => [("scan_id", .number scanId), ("stage", .text stage)]
  | .stageCompleted scanId stage => [("scan_id", .number scanId), ("stage", .text stage)]
  | .findingDiscovered scanId probeId title algorithm classification severity =>
      [("scan_id", .number scanId), ("probe_id", .text probeId), ("title", .text title),
        ("algorithm", .text algorithm), ("classification", .text classification),
        ("severity", .text severity)]
  | .scanCompleted scanId => [("scan_id", .number scanId)]

/-- `event_to_sse`. -/
def eventToSse (event : Event) : List Char :=
  "event: ".toList ++ (kind event).toList ++ "\ndata: ".toList ++ dumps (asdict event) ++
    "\n\n".toList

/-- The text that `sse_stream` yields. -/
def chunkText : Chunk → List Char
  | .message event => eventToSse event
  | .keepalive => ": keepalive\n\n".toList

/-! ## The page -/

/-- The count, the code units of the stage, and whether the page still listens. -/
structure Page where
  count : Nat
  stage : List Nat
  listening : Bool
  deriving DecidableEq

namespace Page

/-- The page when its script starts. -/
def loaded (count : Nat) (stage : List Nat) : Page := ⟨count, stage, true⟩

/-- A member as text. -/
def shown : Value → List Nat
  | .units text => text
  | .number value => utf16 (toString value).toList

/-- The text of `JSON.parse(e.data).stage`; of two members of
one name the later counts. -/
def stageOf (data : List Char) : Option (List Nat) :=
  (readObject data).map fun members =>
    ((members.reverse.find? fun member => member.1 == utf16 "stage".toList).map
      fun member => shown member.2).getD []

/-- The listeners of the page. -/
def receive (page : Page) (message : Message) : Page :=
  if page.listening then
    if message.kind = "finding".toList then { page with count := page.count + 1 }
    else if message.kind = "stage_started".toList then
      { page with stage := (stageOf message.data).getD page.stage }
    else if message.kind = "scan_completed".toList then { page with listening := false }
    else page
  else page

/-- A connection over which the first `cut` characters of a stream arrive. -/
def connect (page : Page) (chunks : List Chunk) (cut : Nat) : Page :=
  (read ((chunks.flatMap chunkText).take cut)).foldl receive page

/-- One connection after the other. -/
def run (page : Page) (connections : List (List Chunk × Nat)) : Page :=
  connections.foldl (fun page connection => page.connect connection.1 connection.2) page

end Page

/-! ## What is to be shown -/

/-- A `FindingDiscovered`. -/
def isFinding : Event → Bool
  | .findingDiscovered _ _ _ _ _ _ => true
  | _ => false

/-- A `ScanCompleted`. -/
def isCompletion : Event → Bool
  | .scanCompleted _ => true
  | _ => false

/-- The stage of a `StageStarted`. -/
def startedStage : Event → Option String
  | .stageStarted _ stage => some stage
  | _ => none

/-- The events up to the first that completes the scan. -/
def untilCompletion : List Event → List Event
  | [] => []
  | event :: rest => if isCompletion event then [event] else event :: untilCompletion rest

/-- The events of a connection that arrive whole. -/
def arrivedEvents (connection : List Chunk × Nat) : List Event :=
  messages (arrived chunkText connection.2 connection.1)

/-! ## The text is a stream of frames -/

/-- The frame that a chunk is sent as. -/
def frame : Chunk → Frame
  | .message event => .event ⟨(kind event).toList, dumps (asdict event)⟩
  | .keepalive => .comment " keepalive".toList

theorem text_frame (chunk : Chunk) : (frame chunk).text = chunkText chunk := by
  cases chunk with
  | message event =>
      change block ["event: ".toList ++ (kind event).toList,
        "data: ".toList ++ dumps (asdict event)] = eventToSse event
      unfold eventToSse
      rw [block_cons, block_cons]
      simp [block]
  | keepalive =>
      change block [':' :: " keepalive".toList] = ": keepalive\n\n".toList
      rw [block_cons]
      simp [block]

theorem asdict_ne_nil (event : Event) : asdict event ≠ [] := by
  cases event with
  | stageStarted scanId stage => exact List.cons_ne_nil _ _
  | stageCompleted scanId stage => exact List.cons_ne_nil _ _
  | findingDiscovered scanId probeId title algorithm classification severity =>
      exact List.cons_ne_nil _ _
  | scanCompleted scanId => exact List.cons_ne_nil _ _

theorem plain_of_printable {text : List Char} (printable : Printable text) :
    Plain text := by
  intro char member
  have bounds := printable char member
  constructor
  · rintro rfl
    exact absurd bounds (by decide)
  · rintro rfl
    exact absurd bounds (by decide)

theorem printable_of_mem :
    ∀ name ∈ ["stage_started", "stage_completed", "finding", "scan_completed"],
      name.toList ≠ [] ∧ ∀ char ∈ name.toList, 0x20 ≤ char.toNat ∧ char.toNat < 0x7f := by
  decide

theorem printable_kind (event : Event) :
    (kind event).toList ≠ [] ∧ Printable (kind event).toList := by
  cases event with
  | stageStarted scanId stage => exact printable_of_mem "stage_started" (by simp)
  | stageCompleted scanId stage => exact printable_of_mem "stage_completed" (by simp)
  | findingDiscovered scanId probeId title algorithm classification severity =>
      exact printable_of_mem "finding" (by simp)
  | scanCompleted scanId => exact printable_of_mem "scan_completed" (by simp)

theorem sendable_frame (chunk : Chunk) : (frame chunk).Sendable := by
  cases chunk with
  | message event =>
      exact ⟨(printable_kind event).1, plain_of_printable (printable_kind event).2,
        plain_of_printable (printable_dumps (asdict_ne_nil event))⟩
  | keepalive =>
      change Plain " keepalive".toList
      unfold Plain
      decide

/-- What the client reads of a connection. -/
theorem read_connection (chunks : List Chunk) (cut : Nat) :
    read ((chunks.flatMap chunkText).take cut) =
      (arrivedEvents (chunks, cut)).map fun event => ⟨(kind event).toList,
        dumps (asdict event)⟩ := by
  have sendable : ∀ sent ∈ chunks.map frame, sent.Sendable := by
    intro sent member
    obtain ⟨chunk, -, rfl⟩ := List.mem_map.mp member
    exact sendable_frame chunk
  have text : chunks.flatMap chunkText = (chunks.map frame).flatMap Frame.text := by
    rw [List.flatMap_map]
    exact List.flatMap_congr fun chunk _ => (text_frame chunk).symm
  have texts : (fun chunk => (frame chunk).text) = chunkText := funext text_frame
  rw [text, read_take sendable, arrived_map, texts, List.filterMap_map,
    arrivedEvents, messages, List.map_filterMap]
  refine List.filterMap_congr fun chunk _ => ?_
  cases chunk with
  | message event => rfl
  | keepalive => rfl

/-! ## What the page makes of an event -/

theorem stageOf_started (scanId : Nat) (stage : String) :
    Page.stageOf (dumps (asdict (.stageStarted scanId stage))) =
      some (utf16 stage.toList) := by
  rw [Page.stageOf, readObject_dumps (asdict_ne_nil _)]
  have other : (utf16 "scan_id".toList == utf16 "stage".toList) = false := by decide
  have same : (utf16 "stage".toList == utf16 "stage".toList) = true := by decide
  simp only [asdict, List.map_cons, List.map_nil, List.reverse_cons, List.reverse_nil,
    List.nil_append, List.singleton_append, List.find?_cons, same, Option.map_some,
    Option.getD_some]
  rfl

/-- The page after an event. -/
def Page.afterEvent (page : Page) (event : Event) : Page where
  count := page.count + if isFinding event then 1 else 0
  stage := ((startedStage event).map fun stage => utf16 stage.toList).getD page.stage
  listening := page.listening && !isCompletion event

theorem receive_event {page : Page} (listening : page.listening = true) (event : Event) :
    page.receive ⟨(kind event).toList, dumps (asdict event)⟩ = page.afterEvent event := by
  obtain ⟨count, shown, open_⟩ := page
  obtain rfl : open_ = true := listening
  cases event with
  | stageStarted scanId stage =>
      simp [Page.receive, kind, stageOf_started, Page.afterEvent, isFinding, isCompletion,
        startedStage]
  | stageCompleted scanId stage =>
      simp [Page.receive, kind, Page.afterEvent, isFinding, isCompletion, startedStage]
  | findingDiscovered scanId probeId title algorithm classification severity =>
      simp [Page.receive, kind, Page.afterEvent, isFinding, isCompletion, startedStage]
  | scanCompleted scanId =>
      simp [Page.receive, kind, Page.afterEvent, isFinding, isCompletion, startedStage]

theorem receive_of_deaf {page : Page} (deaf : page.listening = false)
    (messages : List Message) :
    messages.foldl Page.receive page = page := by
  induction messages with
  | nil => rfl
  | cons message messages inductionHypothesis =>
      have same : page.receive message = page := by
        rw [Page.receive, if_neg (by simp [deaf])]
      rw [List.foldl_cons, same, inductionHypothesis]

/-- What the page shows of the events that reach it. -/
def Page.after (page : Page) (events : List Event) : Page where
  count := page.count + events.countP isFinding
  stage := ((events.filterMap startedStage).getLast?.map fun stage =>
    utf16 stage.toList).getD page.stage
  listening := page.listening && !events.any isCompletion

theorem after_cons (page : Page) (event : Event) {events : List Event}
    (running : isCompletion event = false) :
    page.after (event :: events) = (page.afterEvent event).after events := by
  have count : page.count + (event :: events).countP isFinding =
      (page.afterEvent event).count + events.countP isFinding := by
    rw [List.countP_cons, Page.afterEvent, Nat.add_assoc, Nat.add_comm (List.countP _ _)]
  have stage : ((event :: events).filterMap startedStage).getLast?.map
      (fun stage => utf16 stage.toList) =
        ((events.filterMap startedStage).getLast?.or (startedStage event)).map
          fun stage => utf16 stage.toList := by
    rw [List.filterMap_cons]
    cases startedStage event with
    | none => simp
    | some stage =>
        rw [List.getLast?_cons]
        cases (events.filterMap startedStage).getLast? with
        | none => rfl
        | some last => rfl
  unfold Page.after
  rw [count, stage, List.any_cons, running, Bool.false_or]
  congr 1
  · cases (events.filterMap startedStage).getLast? with
    | none => rfl
    | some last => rfl
  · simp [Page.afterEvent, running]

/-- What the page shows of the events that are sent to it. -/
theorem receive_events {page : Page} (listening : page.listening = true)
    (events : List Event) :
    (events.map fun event =>
      (⟨(kind event).toList, dumps (asdict event)⟩ : Message)).foldl
        Page.receive page =
      page.after (untilCompletion events) := by
  induction events generalizing page with
  | nil =>
      rw [List.map_nil, List.foldl_nil, untilCompletion, Page.after]
      simp [← listening]
  | cons event events inductionHypothesis =>
      rw [List.map_cons, List.foldl_cons, receive_event listening, untilCompletion]
      cases last : isCompletion event with
      | true =>
          have deaf : (page.afterEvent event).listening = false := by
            simp [Page.afterEvent, last]
          rw [receive_of_deaf deaf, if_pos rfl]
          cases event with
          | stageStarted scanId stage => cases last
          | stageCompleted scanId stage => cases last
          | findingDiscovered scanId probeId title algorithm classification severity =>
              cases last
          | scanCompleted scanId =>
              simp [Page.after, Page.afterEvent, isFinding, isCompletion, startedStage]
      | false =>
          have open_ : (page.afterEvent event).listening = true := by
            simp [Page.afterEvent, last, listening]
          rw [if_neg Bool.false_ne_true, inductionHypothesis open_,
            after_cons page event last]

/-- However often the connection breaks and wherever, the page counts the findings and
shows the last stage among the events that have arrived whole, up to the first that
completes the scan, and then stops listening. -/
theorem run_connections (count : Nat) (stage : List Nat)
    (connections : List (List Chunk × Nat)) :
    (Page.loaded count stage).run connections =
      (Page.loaded count stage).after
        (untilCompletion (connections.flatMap arrivedEvents)) := by
  have whole : ∀ page : Page, page.run connections =
      ((connections.flatMap arrivedEvents).map fun event =>
        (⟨(kind event).toList, dumps (asdict event)⟩ : Message)).foldl
          Page.receive page := by
    intro page
    induction connections generalizing page with
    | nil => rfl
    | cons connection connections inductionHypothesis =>
        rw [List.flatMap_cons, List.map_append, List.foldl_append, ← inductionHypothesis,
          Page.run, List.foldl_cons, Page.connect, read_connection]
        rfl
  rw [whole, receive_events rfl]

end LiveProgress
end Daemon
end PqcScan
