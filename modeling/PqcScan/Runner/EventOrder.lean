import PqcScan.Runner.EventBus

/-!
# What a stream carries

A stream sends the events of its scan in the order in which they were published while it
listened, and all of them as long as its backlog has room.
-/

namespace PqcScan
namespace Runner
namespace EventBus

open Library

/-- The events of a scan. -/
def ofScan (scanId : Nat) (events : List Event) : List Event :=
  events.filter fun event => event.scanId == scanId

@[simp] theorem ofScan_nil (scanId : Nat) : ofScan scanId [] = [] := rfl

@[simp] theorem ofScan_append (scanId : Nat) (left right : List Event) :
    ofScan scanId (left ++ right) = ofScan scanId left ++ ofScan scanId right :=
  List.filter_append left right

theorem ofScan_of_ne {scanId : Nat} {event : Event} (other : event.scanId ≠ scanId) :
    ofScan scanId [event] = [] := by
  simp [ofScan, other]

/-- The events of the messages. -/
def messages (chunks : List Chunk) : List Event :=
  chunks.filterMap fun chunk =>
    match chunk with
    | .message event => some event
    | .keepalive => none

@[simp] theorem messages_append (left right : List Chunk) :
    messages (left ++ right) = messages left ++ messages right :=
  List.filterMap_append

theorem messages_map (events : List Event) : messages (events.map .message) = events := by
  rw [messages, List.filterMap_map]
  exact List.filterMap_some

/-! ## What a stream listens to -/

/-- What the actions tell of the queue with a number: whether it is in `_subscribers`, and
the events published while it was. -/
structure Ear where
  next : Nat
  listening : Bool
  heard : List Event

/-- What an action is for the subscriber of a number. -/
def Ear.hear (number : Nat) (ear : Ear) : Action → Ear
  | .subscribe _ _ =>
      { ear with
        next := ear.next + 1
        listening := ear.listening || ear.next == number }
  | .publish _ event =>
      if ear.listening then { ear with heard := ear.heard ++ [event] } else ear
  | .idle other | .leave other =>
      if other = number then { ear with listening := false } else ear
  | .deliver _ | .published _ | .callback _ | .take _ | .close _ => ear

/-- What the subscriber of a number hears in all. -/
def earOf (number : Nat) (actions : List Action) : Ear :=
  actions.foldl (Ear.hear number) ⟨0, false, []⟩

/-- The events of a scan that were published while the queue listened. -/
def addressed (number scanId : Nat) (actions : List Action) : List Event :=
  ofScan scanId (earOf number actions).heard

/-! ## What is on its way -/

/-- The events for the queue among callbacks. -/
def forQueue (number : Nat) (callbacks : List (Nat × Event)) : List Event :=
  callbacks.filterMap fun entry => if entry.1 = number then some entry.2 else none

@[simp] theorem forQueue_append (number : Nat) (left right : List (Nat × Event)) :
    forQueue number (left ++ right) = forQueue number left ++ forQueue number right :=
  List.filterMap_append

/-- The event that a publish still has to hand to the queue. -/
def inFlight (number : Nat) : Option (Event × List Nat) → List Event
  | none => []
  | some (event, rest) => if number ∈ rest then [event] else []

section Orders

variable (home : Nat → Nat) (number : Nat)

/-- The stream has room for one more event, and its loop runs. -/
def Roomy (bus : Bus) : Prop :=
  ∀ subscriber, bus.subscribers[number]? = some subscriber →
    subscriber.queue.length < queueMax ∧ bus.closed subscriber.loop = false

/-- What was sent and what waits are, in order, events that the stream was to get. -/
structure Flow (whole : Prop) (heard sent queue ready flight : List Event)
    (scanId : Nat) :
    Prop where
  kept : (sent ++ ofScan scanId (queue ++ ready ++ flight)).Sublist (ofScan scanId heard)
  counted : whole →
    (sent ++ ofScan scanId (queue ++ ready ++ flight)).length =
      (ofScan scanId heard).length

end Orders

namespace Flow

variable {whole : Prop} {heard sent queue ready flight : List Event} {scanId : Nat}
  {event : Event}

/-- Moves that leave the events of the scan in their order. -/
theorem congr (flow : Flow whole heard sent queue ready flight scanId)
    {sent' queue' ready' flight' : List Event}
    (same : sent' ++ ofScan scanId (queue' ++ ready' ++ flight') =
      sent ++ ofScan scanId (queue ++ ready ++ flight)) :
    Flow whole heard sent' queue' ready' flight' scanId :=
  ⟨same ▸ flow.kept, same ▸ flow.counted⟩

/-- A publish for the stream. -/
theorem publish (flow : Flow whole heard sent queue ready [] scanId) (event : Event) :
    Flow whole (heard ++ [event]) sent queue ready [event] scanId := by
  have grown : sent ++ ofScan scanId (queue ++ ready ++ [event]) =
      (sent ++ ofScan scanId (queue ++ ready ++ [])) ++ ofScan scanId [event] := by
    simp
  have longer := ofScan_append scanId heard [event]
  refine ⟨?_, fun exactly => ?_⟩
  · rw [grown, longer]
    exact flow.kept.append (List.Sublist.refl _)
  · rw [grown, longer, List.length_append, flow.counted exactly, List.length_append]

/-- An event that the stream does not get. -/
theorem lose (flow : Flow whole heard sent queue ready flight scanId) (partial_ : ¬ whole)
    {queue' ready' flight' : List Event}
    (less : (ofScan scanId (queue' ++ ready' ++ flight')).Sublist
      (ofScan scanId (queue ++ ready ++ flight))) :
    Flow whole heard sent queue' ready' flight' scanId :=
  ⟨((List.Sublist.refl sent).append less).trans flow.kept, fun exactly =>
    absurd exactly partial_⟩

/-- An event of another scan is published. -/
theorem other (flow : Flow whole heard sent queue ready flight scanId)
    (foreign : event.scanId ≠ scanId) :
    Flow whole (heard ++ [event]) sent queue ready flight scanId := by
  have same : ofScan scanId (heard ++ [event]) = ofScan scanId heard := by
    rw [ofScan_append, ofScan_of_ne foreign, List.append_nil]
  exact ⟨same ▸ flow.kept, same ▸ flow.counted⟩

end Flow

/-! ## One step -/

section Steps

variable (whole : Prop) (home : Nat → Nat) (number : Nat)

/-- A stream that keeps to what it listens to. -/
structure Stream (ear : Ear) (bus : Bus) (subscriber : Subscriber) : Prop where
  listening : ear.listening = subscriber.listed
  direct : home subscriber.scanId = subscriber.loop →
    ofScan subscriber.scanId (forQueue number (bus.ready subscriber.loop)) = []
  bounded : subscriber.queue.length ≤ queueMax
  shape : ∃ events : List Event, subscriber.sent = events.map .message ∨
    subscriber.listed = false ∧ subscriber.sent = events.map .message ++ [.keepalive]
  flow : Flow whole ear.heard (messages subscriber.sent) subscriber.queue
    (forQueue number (bus.ready subscriber.loop))
    (inFlight number (bus.publishing (home subscriber.scanId))) subscriber.scanId

/-- The queue with the number, before and after it is there. -/
structure Carries (ear : Ear) (bus : Bus) : Prop where
  next : ear.next = bus.subscribers.length
  early : bus.subscribers.length ≤ number → ear.listening = false ∧ ear.heard = []
  called : ∀ loop, forQueue number (bus.ready loop) ≠ [] →
    ∃ subscriber, bus.subscribers[number]? = some subscriber ∧ subscriber.loop = loop
  publishes : ∀ loop event rest, bus.publishing loop = some (event, rest) →
    loop = home event.scanId ∧ rest.Nodup ∧
      (number ∈ rest → number < bus.subscribers.length)
  stream : ∀ subscriber, bus.subscribers[number]? = some subscriber →
    Stream whole home number ear bus subscriber

end Steps

section Carried

variable {whole : Prop} {home : Nat → Nat} {number : Nat} {ear : Ear} {bus : Bus}

theorem carries_initial : Carries whole home number ⟨0, false, []⟩ .initial where
  next := rfl
  early _ := ⟨rfl, rfl⟩
  called loop some_ := absurd rfl some_
  publishes loop event rest going := by cases going
  stream subscriber here := by cases here

theorem Carries.subscribe (carries : Carries whole home number ear bus)
    (scanId loop : Nat) :
    Carries whole home number (ear.hear number (.subscribe scanId loop))
      { bus with subscribers := bus.subscribers ++ [⟨scanId, loop, true, [], []⟩] } where
  next := by
    rw [Ear.hear, carries.next, List.length_append, List.length_singleton]
  early late := by
    rw [List.length_append, List.length_singleton] at late
    obtain ⟨silent, nothing⟩ := carries.early (by omega)
    refine ⟨?_, nothing⟩
    have other : (ear.next == number) = false := beq_false_of_ne (by
      rw [carries.next]
      omega)
    rw [Ear.hear, silent, other]
    rfl
  called := by
    intro place some_
    obtain ⟨subscriber, here, home_⟩ := carries.called place some_
    exact ⟨subscriber, (List.getElem?_append_left
      (List.getElem?_eq_some_iff.mp here).1).trans here, home_⟩
  publishes := by
    intro place event rest going
    obtain ⟨homed, distinct, inside⟩ := carries.publishes place event rest going
    refine ⟨homed, distinct, fun member => ?_⟩
    rw [List.length_append]
    exact Nat.lt_add_right _ (inside member)
  stream := by
    intro subscriber here
    rcases Nat.lt_or_ge number bus.subscribers.length with old | new
    · rw [List.getElem?_append_left old] at here
      have stream := carries.stream subscriber here
      refine { stream with listening := ?_ }
      have other : (ear.next == number) = false := beq_false_of_ne (by
        rw [carries.next]
        omega)
      rw [Ear.hear, other, Bool.or_false, stream.listening]
    · obtain ⟨silent, nothing⟩ := carries.early new
      rw [List.getElem?_append_right new] at here
      have place : number = bus.subscribers.length := by
        have bound := (List.getElem?_eq_some_iff.mp here).1
        rw [List.length_singleton] at bound
        omega
      rw [place, Nat.sub_self, List.getElem?_cons_zero, Option.some_inj] at here
      subst here
      have uncalled : forQueue number (bus.ready loop) = [] := by
        refine Classical.byContradiction fun some_ => ?_
        obtain ⟨subscriber, there, -⟩ := carries.called loop some_
        exact absurd (List.getElem?_eq_some_iff.mp there).1 (by omega)
      have unpublished : inFlight number (bus.publishing (home scanId)) = [] := by
        cases going : bus.publishing (home scanId) with
        | none => rfl
        | some publish =>
            obtain ⟨-, -, inside⟩ := carries.publishes _ publish.1 publish.2 going
            exact if_neg fun member => absurd (inside member) (by omega)
      refine ⟨?_, fun _ => ?_, Nat.zero_le _, ⟨[], Or.inl rfl⟩, ?_⟩
      · rw [Ear.hear, carries.next, beq_iff_eq.mpr place.symm, Bool.or_true]
      · exact congrArg (ofScan scanId) uncalled
      · simp only [uncalled, unpublished, Ear.hear, nothing]
        exact ⟨List.Sublist.refl _, fun _ => rfl⟩

/-- What the other steps do to a stream: the callbacks for it and the publish that is
under way stay the same as far as it goes. -/
theorem Stream.frame {subscriber : Subscriber} {next : Bus}
    (stream : Stream whole home number ear bus subscriber)
    (ready : forQueue number (next.ready subscriber.loop) =
      forQueue number (bus.ready subscriber.loop))
    (flight : ofScan subscriber.scanId
        (inFlight number (next.publishing (home subscriber.scanId))) =
      ofScan subscriber.scanId
        (inFlight number (bus.publishing (home subscriber.scanId)))) :
    Stream whole home number ear next subscriber where
  listening := stream.listening
  direct homed := (congrArg _ ready).trans (stream.direct homed)
  bounded := stream.bounded
  shape := stream.shape
  flow := stream.flow.congr (by simp only [ofScan_append, ready, flight])

theorem nodup_targets (bus : Bus) : bus.targets.Nodup :=
  List.nodup_range.filter _

theorem mem_targets {bus : Bus} {subscriber : Subscriber}
    (here : bus.subscribers[number]? = some subscriber) :
    number ∈ bus.targets ↔ subscriber.listed := by
  simp only [Bus.targets, List.mem_filter, List.mem_range, here, Option.any_some,
    (List.getElem?_eq_some_iff.mp here).1, true_and]

theorem inFlight_targets {bus : Bus} {subscriber : Subscriber} {event : Event}
    (here : bus.subscribers[number]? = some subscriber) :
    inFlight number (some (event, bus.targets)) = if subscriber.listed then [event]
      else [] := by
  simp only [inFlight, mem_targets here]

theorem hear_publish (number : Nat) (ear : Ear) (loop : Nat) (event : Event) :
    ear.hear number (.publish loop event) =
      { ear with heard := ear.heard ++ if ear.listening then [event] else [] } := by
  rw [Ear.hear]
  split
  · rfl
  · rw [List.append_nil]

theorem Carries.publish (carries : Carries whole home number ear bus) {loop : Nat}
    {event : Event}
    (homed : loop = home event.scanId) (free : bus.publishing loop = none) :
    Carries whole home number (ear.hear number (.publish loop event))
      { bus with
        publishing := Function.update bus.publishing loop
          (some (event, bus.targets)) } where
  next := by
    rw [Ear.hear]
    split <;> exact carries.next
  early late := by
    have silent := carries.early late
    rw [Ear.hear, if_neg (by simp [silent.1])]
    exact silent
  called := carries.called
  publishes := by
    intro place other rest going
    dsimp only at going
    by_cases same : place = loop
    · subst same
      rw [Function.update_self] at going
      cases going
      exact ⟨homed, nodup_targets bus, fun member =>
        List.mem_range.mp (List.mem_filter.mp member).1⟩
    · rw [Function.update_of_ne same] at going
      exact carries.publishes place other rest going
  stream := by
    intro subscriber (here : bus.subscribers[number]? = some subscriber)
    have stream := carries.stream subscriber here
    have hears := hear_publish number ear loop event
    rw [stream.listening] at hears
    refine ⟨by rw [hears], stream.direct, stream.bounded, stream.shape, ?_⟩
    rw [hears]
    dsimp only
    by_cases mine : event.scanId = subscriber.scanId
    · have flow := stream.flow
      rw [← mine, ← homed, free] at flow
      rw [← mine, ← homed, Function.update_self, inFlight_targets here]
      cases subscriber.listed with
      | true => exact flow.publish event
      | false => simpa only [if_neg Bool.false_ne_true, List.append_nil,
          inFlight] using flow
    · have heard : Flow whole (ear.heard ++ if subscriber.listed then [event] else [])
          (messages subscriber.sent) subscriber.queue
          (forQueue number (bus.ready subscriber.loop))
          (inFlight number (bus.publishing (home subscriber.scanId)))
            subscriber.scanId := by
        cases subscriber.listed with
        | true => exact stream.flow.other mine
        | false => simpa only [if_neg Bool.false_ne_true,
            List.append_nil] using stream.flow
      refine heard.congr ?_
      by_cases same : home subscriber.scanId = loop
      · have nothing : ofScan subscriber.scanId (if subscriber.listed then [event]
            else []) =
            [] := by
          cases subscriber.listed with
          | true => exact ofScan_of_ne mine
          | false => rfl
        rw [same, Function.update_self, inFlight_targets here, free]
        simp only [ofScan_append, nothing, inFlight, ofScan_nil]
      · rw [Function.update_of_ne same]

/-- The publishes of the next state are among those of this one,
with fewer queues left. -/
def Shrinks (bus next : Bus) : Prop :=
  ∀ loop event rest, next.publishing loop = some (event, rest) →
    ∃ earlier, bus.publishing loop = some (event, earlier) ∧ rest.Sublist earlier

theorem Shrinks.refl (bus : Bus) : Shrinks bus bus :=
  fun _ _ rest going => ⟨rest, going, List.Sublist.refl rest⟩

theorem shrinks_update {next : Bus} {loop : Nat} {event : Event} {earlier : List Nat}
    {publish : Option (Event × List Nat)}
    (going : bus.publishing loop = some (event, earlier))
    (fewer : ∀ rest, publish = some rest → rest.1 = event ∧ rest.2.Sublist earlier)
    (updated : next.publishing = Function.update bus.publishing loop publish) :
    Shrinks bus next := by
  intro place other rest later
  rw [updated] at later
  by_cases same : place = loop
  · subst same
    rw [Function.update_self] at later
    obtain ⟨rfl, sublist⟩ := fewer _ later
    exact ⟨earlier, going, sublist⟩
  · rw [Function.update_of_ne same] at later
    exact ⟨rest, later, List.Sublist.refl rest⟩

theorem Shrinks.publishes {next : Bus} (shrinks : Shrinks bus next)
    (carries : Carries whole home number ear bus) {loop : Nat} {event : Event}
    {rest : List Nat}
    (going : next.publishing loop = some (event, rest)) :
    loop = home event.scanId ∧ rest.Nodup ∧
    (number ∈ rest → number < bus.subscribers.length) := by
  obtain ⟨earlier, before, fewer⟩ := shrinks loop event rest going
  obtain ⟨homed, distinct, inside⟩ := carries.publishes loop event earlier before
  exact ⟨homed, distinct.sublist fewer, fun member => inside (fewer.subset member)⟩

/-- A step that does not touch the stream. -/
theorem Carries.frame {next : Bus} (carries : Carries whole home number ear bus)
    (length : next.subscribers.length = bus.subscribers.length)
    (same : next.subscribers[number]? = bus.subscribers[number]?)
    (ready : ∀ loop, forQueue number (next.ready loop) = forQueue number (bus.ready loop))
    (shrinks : Shrinks bus next)
    (flight : ∀ loop, inFlight number (next.publishing loop) =
      inFlight number (bus.publishing loop)) :
    Carries whole home number ear next where
  next := carries.next.trans length.symm
  early late := carries.early (length ▸ late)
  called loop some_ := by
    rw [same]
    exact carries.called loop (ready loop ▸ some_)
  publishes loop event rest going := length ▸ shrinks.publishes carries going
  stream subscriber here :=
    (carries.stream subscriber (same ▸ here)).frame (ready _) (congrArg _ (flight _))

/-- A step of the stream. -/
theorem Carries.move {next : Bus} {subscriber moved : Subscriber} {ear' : Ear}
    (carries : Carries whole home number ear bus)
    (here : bus.subscribers[number]? = some subscriber)
    (there : next.subscribers[number]? = some moved)
    (length : next.subscribers.length = bus.subscribers.length)
    (loop : moved.loop = subscriber.loop)
    (ready : ∀ place, place ≠ subscriber.loop →
      forQueue number (next.ready place) = forQueue number (bus.ready place))
    (shrinks : Shrinks bus next) (count : ear'.next = ear.next)
    (stream : Stream whole home number ear' next moved) :
    Carries whole home number ear' next where
  next := (count.trans carries.next).trans length.symm
  early late := absurd (List.getElem?_eq_some_iff.mp there).1 (Nat.not_lt.mpr late)
  called place some_ := by
    refine ⟨moved, there, loop.trans ?_⟩
    refine Classical.byContradiction fun elsewhere => ?_
    obtain ⟨owner, owned, homed⟩ :=
      carries.called place (ready place (Ne.symm elsewhere) ▸ some_)
    rw [here] at owned
    cases owned
    exact elsewhere homed
  publishes place event rest going := length ▸ shrinks.publishes carries going
  stream owner owned := by
    rw [there] at owned
    cases owned
    exact stream

/-! ### Handing over -/

theorem change_other (bus : Bus) {target number : Nat} (other : target ≠ number)
    (update : Subscriber → Subscriber) :
    (bus.change target update).subscribers[number]? = bus.subscribers[number]? :=
  List.getElem?_modify_ne update bus.subscribers other

theorem change_self {bus : Bus} {subscriber : Subscriber}
    (here : bus.subscribers[number]? = some subscriber)
    (update : Subscriber → Subscriber) :
    (bus.change number update).subscribers[number]? = some (update subscriber) := by
  rw [Bus.change, List.getElem?_modify_eq, here]
  rfl

theorem length_change (bus : Bus) (target : Nat) (update : Subscriber → Subscriber) :
    (bus.change target update).subscribers.length = bus.subscribers.length :=
  List.length_modify ..

theorem length_hand (bus : Bus) (loop target : Nat) (event : Event) :
    (bus.hand loop target event).subscribers.length = bus.subscribers.length := by
  rw [Bus.hand]
  split
  · rfl
  · split
    · exact length_change ..
    · split <;> rfl

theorem hand_other (bus : Bus) {loop target number : Nat} {event : Event}
    (other : target ≠ number) :
    (bus.hand loop target event).subscribers[number]? = bus.subscribers[number]? ∧
      ∀ place, forQueue number ((bus.hand loop target event).ready place) =
        forQueue number (bus.ready place) := by
  rw [Bus.hand]
  split
  · exact ⟨rfl, fun _ => rfl⟩
  · split
    · exact ⟨change_other bus other _, fun _ => rfl⟩
    · split
      · exact ⟨rfl, fun _ => rfl⟩
      · rename_i subscriber _ _ _
        refine ⟨rfl, fun place => ?_⟩
        dsimp only
        by_cases same : place = subscriber.loop
        · subst same
          rw [Function.update_self, forQueue_append]
          simp [forQueue, other]
        · rw [Function.update_of_ne same]

/-- An event is put into the queue of the stream; a full queue drops it. -/
theorem Stream.offer {subscriber : Subscriber} {next : Bus} {event : Event}
    (stream : Stream whole home number ear bus subscriber)
    (room : whole → subscriber.queue.length < queueMax)
    (direct : home subscriber.scanId = subscriber.loop →
      ofScan subscriber.scanId (forQueue number (next.ready subscriber.loop)) = [])
    (moved : ofScan subscriber.scanId
      ([event] ++ forQueue number (next.ready subscriber.loop) ++
        inFlight number (next.publishing (home subscriber.scanId))) =
      ofScan subscriber.scanId (forQueue number (bus.ready subscriber.loop) ++
        inFlight number (bus.publishing (home subscriber.scanId)))) :
    Stream whole home number ear next (subscriber.offer event) := by
  have flow := stream.flow
  rw [Subscriber.offer]
  split
  · rename_i fits
    refine ⟨stream.listening, direct, ?_, stream.shape, flow.congr ?_⟩
    · rw [List.length_append]
      exact fits
    · simp only [List.append_assoc, ofScan_append] at moved ⊢
      rw [moved]
  · rename_i full
    refine ⟨stream.listening, direct, stream.bounded, stream.shape,
      flow.lose (fun exactly => full (room exactly)) ?_⟩
    simp only [List.append_assoc, ofScan_append] at moved ⊢
    rw [← moved]
    exact (List.Sublist.refl _).append (List.sublist_append_right ..)

/-- An event is handed to the stream, to its queue or to its loop. -/
theorem Stream.hand {subscriber : Subscriber} {loop : Nat} {event : Event}
    {publishing : Nat → Option (Event × List Nat)}
    (stream : Stream whole home number ear bus subscriber)
    (here : bus.subscribers[number]? = some subscriber) (roomy : whole → Roomy number bus)
    (homed : loop = home event.scanId)
    (flight : ofScan subscriber.scanId (inFlight number
        (bus.publishing (home subscriber.scanId))) =
      ofScan subscriber.scanId [event] ++ ofScan subscriber.scanId (inFlight number
        (publishing (home subscriber.scanId)))) :
    ∃ moved, (bus.hand loop number event).subscribers[number]? = some moved ∧
      moved.loop = subscriber.loop ∧
      (∀ place, place ≠ subscriber.loop →
        forQueue number ((bus.hand loop number event).ready place) =
          forQueue number (bus.ready place)) ∧
      Stream whole home number ear
        { bus.hand loop number event with publishing := publishing } moved := by
  simp only [Bus.hand, here]
  split
  · rename_i near
    refine ⟨subscriber.offer event, change_self here _, ?_, fun _ _ => rfl,
      stream.offer (fun exactly => (roomy exactly subscriber here).1) stream.direct ?_⟩
    · rw [Subscriber.offer]
      split <;> rfl
    · simp only [ofScan_append, flight, ← List.append_assoc]
      by_cases mine : event.scanId = subscriber.scanId
      · have none_ := stream.direct (mine ▸ (near.trans homed).symm)
        simp only [Bus.change, none_, List.append_nil, List.nil_append]
      · rw [ofScan_of_ne mine, List.append_nil, List.nil_append]
        rfl
  · rename_i far
    split
    · rename_i gone
      refine ⟨subscriber, here, rfl, fun _ _ => rfl, stream.listening, stream.direct,
        stream.bounded, stream.shape, stream.flow.lose (fun exactly => ?_) ?_⟩
      · rw [(roomy exactly subscriber here).2] at gone
        exact Bool.false_ne_true gone
      · simp only [ofScan_append, flight]
        exact (List.Sublist.refl _).append (List.sublist_append_right ..)
    · refine ⟨subscriber, here, rfl, fun place elsewhere => ?_, ?_⟩
      · dsimp only
        rw [Function.update_of_ne elsewhere]
      · have called : forQueue number (Function.update bus.ready subscriber.loop
            (bus.ready subscriber.loop ++ [(number, event)]) subscriber.loop) =
              forQueue number (bus.ready subscriber.loop) ++ [event] := by
          rw [Function.update_self, forQueue_append]
          simp [forQueue]
        refine ⟨stream.listening, fun home_ => ?_, stream.bounded, stream.shape,
          stream.flow.congr ?_⟩
        · have foreign : event.scanId ≠ subscriber.scanId :=
            fun mine => far (home_ ▸ mine ▸ homed.symm)
          rw [called, ofScan_append, stream.direct home_, ofScan_of_ne foreign]
          rfl
        · rw [called]
          simp only [ofScan_append, flight, List.append_assoc]

/-- A round of the loop of a publish. -/
theorem Carries.deliver (carries : Carries whole home number ear bus)
    (roomy : whole → Roomy number bus) {loop target : Nat} {event : Event}
    {rest : List Nat}
    (going : bus.publishing loop = some (event, target :: rest)) :
    Carries whole home number ear
      { bus.hand loop target event with
        publishing := Function.update bus.publishing loop (some (event, rest)) } := by
  have shrinks : Shrinks bus { bus.hand loop target event with
      publishing := Function.update bus.publishing loop (some (event, rest)) } := by
    refine shrinks_update going (fun later same => ?_) rfl
    cases same
    exact ⟨rfl, List.sublist_cons_self ..⟩
  obtain ⟨homed, distinct, inside⟩ := carries.publishes loop event _ going
  by_cases other : target = number
  · subst other
    have absent : target ∉ rest := (List.nodup_cons.mp distinct).1
    have before : inFlight target (bus.publishing loop) = [event] := by
      rw [going, inFlight, if_pos List.mem_cons_self]
    have after : inFlight target (some (event, rest)) = [] := if_neg absent
    obtain ⟨subscriber, here⟩ : ∃ subscriber,
        bus.subscribers[target]? = some subscriber :=
      ⟨_, List.getElem?_eq_getElem (inside List.mem_cons_self)⟩
    have stream := carries.stream subscriber here
    have flight : ofScan subscriber.scanId (inFlight target
          (bus.publishing (home subscriber.scanId))) =
        ofScan subscriber.scanId [event] ++ ofScan subscriber.scanId (inFlight target
          (Function.update bus.publishing loop (some (event, rest))
            (home subscriber.scanId))) := by
      by_cases same : home subscriber.scanId = loop
      · rw [same, Function.update_self, before, after, ofScan_nil, List.append_nil]
      · have foreign : event.scanId ≠ subscriber.scanId := fun mine =>
          same (mine ▸ homed.symm)
        rw [Function.update_of_ne same, ofScan_of_ne foreign, List.nil_append]
    obtain ⟨moved, there, same, elsewhere, later⟩ := stream.hand here roomy homed flight
    exact carries.move here there (length_hand ..) same elsewhere shrinks rfl later
  · refine carries.frame (length_hand ..) (hand_other bus other).1
      (hand_other bus other).2
      shrinks fun place => ?_
    dsimp only
    by_cases same : place = loop
    · subst same
      rw [Function.update_self, going, inFlight, inFlight]
      simp only [List.mem_cons, Ne.symm other, false_or]
    · rw [Function.update_of_ne same]

theorem Carries.published (carries : Carries whole home number ear bus) {loop : Nat}
    {event : Event} (going : bus.publishing loop = some (event, [])) :
    Carries whole home number ear
      { bus with publishing := Function.update bus.publishing loop none } := by
  refine carries.frame rfl rfl (fun _ => rfl) (shrinks_update going ?_ rfl) fun place =>
    ?_
  · intro rest nothing
    cases nothing
  · dsimp only
    by_cases same : place = loop
    · subst same
      rw [Function.update_self, going]
      rfl
    · rw [Function.update_of_ne same]

/-- A callback of a loop. -/
theorem Carries.callback (carries : Carries whole home number ear bus)
    (roomy : whole → Roomy number bus) {loop target : Nat} {event : Event}
    {rest : List (Nat × Event)} (ready : bus.ready loop = (target, event) :: rest) :
    Carries whole home number ear
      { bus.change target (·.offer event) with
        ready := Function.update bus.ready loop rest } := by
  have shrinks : Shrinks bus { bus.change target (·.offer event) with
      ready := Function.update bus.ready loop rest } := Shrinks.refl bus
  by_cases other : target = number
  · subst other
    have called : forQueue target (bus.ready loop) = event :: forQueue target rest := by
      rw [ready]
      exact List.filterMap_cons_some (if_pos rfl)
    obtain ⟨subscriber, here, homed⟩ := carries.called loop (by rw [called]; simp)
    subst homed
    have stream := carries.stream subscriber here
    refine carries.move here (change_self here _) (length_change ..) ?_ ?_ shrinks rfl
      (stream.offer (fun exactly => (roomy exactly subscriber here).1) ?_ ?_)
    · rw [Subscriber.offer]
      split <;> rfl
    · intro place elsewhere
      dsimp only
      rw [Function.update_of_ne elsewhere]
    · intro home_
      have nothing := stream.direct home_
      rw [called, ofScan, List.filter_eq_nil_iff] at nothing
      dsimp only
      rw [Function.update_self]
      exact List.filter_eq_nil_iff.mpr fun later member =>
        nothing later (List.mem_cons_of_mem _ member)
    · dsimp only
      rw [Function.update_self, called]
      rfl
  · refine carries.frame (length_change ..) (change_other bus other _) (fun place =>
      ?_) shrinks
      fun _ => rfl
    dsimp only
    by_cases same : place = loop
    · subst same
      rw [Function.update_self, ready]
      simp [forQueue, other]
    · rw [Function.update_of_ne same]

/-- A step of the generator of a stream. -/
theorem Carries.change (carries : Carries whole home number ear bus) {target : Nat}
    {ear' : Ear}
    {update : Subscriber → Subscriber} {subscriber : Subscriber}
    (here : bus.subscribers[target]? = some subscriber)
    (other : target ≠ number → ear' = ear) (count : ear'.next = ear.next)
    (loop : (update subscriber).loop = subscriber.loop)
    (stream : target = number → Stream whole home number ear bus subscriber →
      Stream whole home number ear' bus (update subscriber)) :
    Carries whole home number ear' (bus.change target update) := by
  by_cases same : target = number
  · subst same
    have later := stream rfl (carries.stream subscriber here)
    exact carries.move here (change_self here _) (length_change ..) loop (fun _ _ => rfl)
      (Shrinks.refl bus) count (later.frame rfl rfl)
  · rw [other same]
    exact carries.frame (length_change ..) (change_other bus same _) (fun _ => rfl)
      (Shrinks.refl bus) fun _ => rfl

/-- The generator takes an event from its queue and sends it if it is one of its scan. -/
theorem Stream.take {subscriber : Subscriber} {event : Event} {rest : List Event}
    (stream : Stream whole home number ear bus subscriber)
    (waiting : subscriber.queue = event :: rest) (listed : subscriber.listed) :
    Stream whole home number ear bus
      { subscriber with
        queue := rest
        sent :=
          if event.scanId = subscriber.scanId then subscriber.sent ++ [.message event]
          else subscriber.sent } := by
  have bounded := stream.bounded
  rw [waiting, List.length_cons] at bounded
  have flow := stream.flow
  rw [waiting] at flow
  obtain ⟨events, shape | ⟨gone, -⟩⟩ := stream.shape
  · split
    · rename_i mine
      have told : messages (subscriber.sent ++ [.message event]) =
          messages subscriber.sent ++ [event] := by
        rw [messages_append]
        rfl
      refine ⟨stream.listening, stream.direct, Nat.le_of_succ_le bounded,
        ⟨events ++ [event], Or.inl (by rw [shape, List.map_append]; rfl)⟩, flow.congr ?_⟩
      dsimp only
      rw [told, List.append_assoc]
      simp [ofScan, mine]
    · rename_i foreign
      refine ⟨stream.listening, stream.direct, Nat.le_of_succ_le bounded,
        stream.shape, flow.congr ?_⟩
      simp [ofScan, foreign]
  · rw [listed] at gone
    cases gone

theorem messages_keepalive (sent : List Chunk) :
    messages (sent ++ [.keepalive]) = messages sent := by
  rw [messages_append]
  exact List.append_nil _

/-- After a keepalive nothing more is sent. -/
theorem Stream.idle {subscriber : Subscriber}
    (stream : Stream whole home number ear bus subscriber) (listed : subscriber.listed) :
    Stream whole home number { ear with listening := false } bus
      { subscriber with listed := false, sent := subscriber.sent ++ [.keepalive] } := by
  obtain ⟨events, shape | ⟨gone, -⟩⟩ := stream.shape
  · refine ⟨rfl, stream.direct, stream.bounded, ⟨events, Or.inr ⟨rfl, by rw [shape]⟩⟩, ?_⟩
    rw [messages_keepalive]
    exact stream.flow
  · rw [listed] at gone
    cases gone

theorem Stream.leave {subscriber : Subscriber}
    (stream : Stream whole home number ear bus subscriber) :
    Stream whole home number { ear with listening := false } bus
      { subscriber with listed := false } where
  listening := rfl
  direct := stream.direct
  bounded := stream.bounded
  shape := by
    obtain ⟨events, shape | ⟨-, shape⟩⟩ := stream.shape
    · exact ⟨events, Or.inl shape⟩
    · exact ⟨events, Or.inr ⟨rfl, shape⟩⟩
  flow := stream.flow

/-- One step of the system. -/
theorem Carries.step {action : Action} {next : Bus}
    (carries : Carries whole home number ear bus) (roomy : whole → Roomy number bus)
    (taken : Steps home bus action next) :
    Carries whole home number (ear.hear number action) next := by
  obtain ⟨taken, homed⟩ := taken
  cases action with
  | subscribe scanId loop =>
      cases taken
      exact carries.subscribe scanId loop
  | publish loop event =>
      rw [EventBus.step] at taken
      cases free : bus.publishing loop with
      | some publish => simp [free] at taken
      | none =>
          simp only [free, Option.some_inj] at taken
          subst taken
          exact carries.publish (homed loop event rfl) free
  | deliver loop =>
      rw [EventBus.step] at taken
      split at taken
      · rename_i event target rest going
        cases taken
        exact carries.deliver roomy going
      · cases taken
  | published loop =>
      rw [EventBus.step] at taken
      split at taken
      · rename_i event going
        cases taken
        exact carries.published going
      · cases taken
  | callback loop =>
      rw [EventBus.step] at taken
      split at taken
      · cases taken
      · rename_i target event rest ready
        split at taken
        · cases taken
        · cases taken
          exact carries.callback roomy ready
  | take target =>
      rw [EventBus.step] at taken
      split at taken
      · cases taken
      · rename_i subscriber here
        split at taken
        · cases taken
        · rename_i event rest waiting
          split at taken
          · rename_i listed
            cases taken
            exact carries.change here (fun _ => rfl) rfl rfl
              fun _ stream => stream.take waiting listed
          · cases taken
  | idle target =>
      rw [EventBus.step] at taken
      split at taken
      · cases taken
      · rename_i subscriber here
        split at taken
        · rename_i listed
          cases taken
          refine carries.change here (fun other => if_neg other) ?_ rfl fun same stream =>
            ?_
          · rw [Ear.hear]
            split <;> rfl
          · rw [Ear.hear, if_pos same]
            exact stream.idle listed
        · cases taken
  | leave target =>
      rw [EventBus.step] at taken
      split at taken
      · cases taken
      · rename_i subscriber here
        cases taken
        refine carries.change here (fun other => if_neg other) ?_ rfl fun same stream =>
          ?_
        · rw [Ear.hear]
          split <;> rfl
        · rw [Ear.hear, if_pos same]
          exact stream.leave
  | close loop =>
      cases taken
      exact carries.frame rfl rfl (fun _ => rfl) (Shrinks.refl bus) fun _ => rfl

end Carried

/-! ## A whole run -/

/-- A step from a state in which the stream has room. -/
def RoomySteps (home : Nat → Nat) (number : Nat) (bus : Bus) (action : Action)
    (next : Bus) :
    Prop :=
  Steps home bus action next ∧ Roomy number bus

theorem carries_run {home : Nat → Nat} {actions : List Action} {bus : Bus} (number : Nat)
    (run : Run (Steps home) .initial actions bus) :
    Carries False home number (earOf number actions) bus := by
  refine run.history (fun past state =>
    Carries False home number (earOf number past) state)
    carries_initial fun past before action after _ carries taken => ?_
  rw [earOf, List.foldl_append]
  exact carries.step False.elim taken

theorem carries_roomyRun {home : Nat → Nat} {actions : List Action} {bus : Bus}
    {number : Nat}
    (run : Run (RoomySteps home number) .initial actions bus) :
    Carries True home number (earOf number actions) bus := by
  refine run.history (fun past state =>
    Carries True home number (earOf number past) state)
    carries_initial fun past before action after _ carries taken => ?_
  rw [earOf, List.foldl_append]
  exact carries.step (fun _ => taken.2) taken.1

/-- In every run a stream sends events of its own scan only, in the order in which they
were published while it was listed, each at most once; a keepalive ends it, and its
backlog is bounded. -/
theorem stream_order {home : Nat → Nat} {actions : List Action} {bus : Bus} {number : Nat}
    {subscriber : Subscriber} (run : Run (Steps home) .initial actions bus)
    (here : bus.subscribers[number]? = some subscriber) :
    (messages subscriber.sent ++ ofScan subscriber.scanId subscriber.queue).Sublist
        (addressed number subscriber.scanId actions) ∧
      (subscriber.sent = (messages subscriber.sent).map .message ∨
        subscriber.listed = false ∧
          subscriber.sent = (messages subscriber.sent).map .message ++ [.keepalive]) ∧
      subscriber.queue.length ≤ queueMax := by
  have stream := (carries_run number run).stream subscriber here
  refine ⟨?_, ?_, stream.bounded⟩
  · refine List.Sublist.trans ?_ stream.flow.kept
    simp only [ofScan_append, List.append_assoc]
    exact (List.Sublist.refl _).append (List.sublist_append_left ..)
  · obtain ⟨events, shape | ⟨gone, shape⟩⟩ := stream.shape
    · exact Or.inl (by rw [shape, messages_map])
    · exact Or.inr ⟨gone, by rw [shape, messages_keepalive, messages_map]⟩

/-- As long as the backlog of a stream has room and its loop runs, nothing is lost: what
it has sent, what waits in its queue, what its loop is to put there and what is being
published are together the events of its scan that were published while it was listed. -/
theorem stream_complete {home : Nat → Nat} {actions : List Action} {bus : Bus}
    {number : Nat}
    {subscriber : Subscriber} (run : Run (RoomySteps home number) .initial actions bus)
    (here : bus.subscribers[number]? = some subscriber) :
    messages subscriber.sent ++ ofScan subscriber.scanId
        (subscriber.queue ++ forQueue number (bus.ready subscriber.loop) ++
          inFlight number (bus.publishing (home subscriber.scanId))) =
      addressed number subscriber.scanId actions := by
  have flow := ((carries_roomyRun run).stream subscriber here).flow
  exact flow.kept.eq_of_length (flow.counted trivial)

/-! ## A run -/

/-- The step of a run in which a stream has room, when it is one. -/
def roomyStep (home : Nat → Nat) (number : Nat) (bus : Bus) (action : Action) :
    Option Bus :=
  let homed : Bool :=
    match action with
    | .publish loop event => loop == home event.scanId
    | _ => true
  let roomy := bus.subscribers[number]?.all fun subscriber =>
    decide (subscriber.queue.length < queueMax) && !bus.closed subscriber.loop
  if homed && roomy then step bus action else none

theorem roomySteps_of_roomyStep {home : Nat → Nat} {number : Nat} {bus next : Bus}
    {action : Action} (taken : roomyStep home number bus action = some next) :
    RoomySteps home number bus action next := by
  simp only [roomyStep, Option.ite_none_right_eq_some, Bool.and_eq_true] at taken
  obtain ⟨⟨homed, roomy⟩, taken⟩ := taken
  refine ⟨⟨taken, ?_⟩, ?_⟩
  · rintro loop event rfl
    exact beq_iff_eq.mp homed
  · intro subscriber here
    simpa [here] using roomy

/-- A stream of scan 1 on the loop of the server, and two events of the scan; the second
is still on its way. -/
def twoEvents : List Action :=
  [.subscribe 1 0, .publish 1 (.stageStarted 1 "tls"), .deliver 1, .published 1,
    .publish 1 (.scanCompleted 1), .deliver 1, .callback 0, .take 0]

theorem twoEvents_run : ∃ bus, Run (RoomySteps (fun _ => 1) 0) .initial twoEvents bus ∧
    bus.subscribers[0]? = some ⟨1, 0, true, [], [.message (.stageStarted 1 "tls")]⟩ := by
  have executed : (twoEvents.foldlM (roomyStep (fun _ => 1) 0) .initial).map
      (fun bus => bus.subscribers[0]?) =
        some (some ⟨1, 0, true, [], [.message (.stageStarted 1 "tls")]⟩) := rfl
  obtain ⟨bus, steps, here⟩ := Option.map_eq_some_iff.mp executed
  exact ⟨bus, (Run.of_foldlM steps).mono fun _ _ _ => roomySteps_of_roomyStep, here⟩

/-- The stream has sent the first event; the second waits for its loop. -/
theorem stream_complete_twoEvents :
    ∃ bus, Run (RoomySteps (fun _ => 1) 0) .initial twoEvents bus ∧
      [.stageStarted 1 "tls"] ++ ofScan 1 ([] ++ forQueue 0 (bus.ready 0) ++
          inFlight 0 (bus.publishing 1)) = addressed 0 1 twoEvents ∧
      addressed 0 1 twoEvents = [.stageStarted 1 "tls", .scanCompleted 1] := by
  obtain ⟨bus, run, here⟩ := twoEvents_run
  exact ⟨bus, run, stream_complete run here, rfl⟩

theorem stream_order_twoEvents :
    ∃ bus, Run (Steps fun _ => 1) .initial twoEvents bus ∧
      [.stageStarted 1 "tls"].Sublist (addressed 0 1 twoEvents) := by
  obtain ⟨bus, run, here⟩ := twoEvents_run
  have steps : Run (Steps fun _ => 1) .initial twoEvents bus :=
    run.mono fun _ _ _ taken => taken.1
  exact ⟨bus, steps, (stream_order steps here).1⟩

end EventBus
end Runner
end PqcScan
