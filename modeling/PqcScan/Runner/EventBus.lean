import PqcScan.Library.Transition
import Mathlib.Data.List.Nodup
import Mathlib.Logic.Function.Basic

/-!
# The event bus

`EventBus` and `sse_stream`: publishers and subscribers on several event loops.  A publish
takes the list of subscribers under the lock and hands the event to one queue after the
other, to those of another loop through callbacks of that loop; everything else may happen
in between.
-/

namespace PqcScan
namespace Runner

open Library

/-- `StageStarted`, `StageCompleted`, `FindingDiscovered` and `ScanCompleted`. -/
inductive Event
  | stageStarted (scanId : Nat) (stage : String)
  | stageCompleted (scanId : Nat) (stage : String)
  | findingDiscovered
      (scanId : Nat) (probeId title algorithm classification severity : String)
  | scanCompleted (scanId : Nat)
  deriving DecidableEq, Repr

/-- `event.scan_id`. -/
def Event.scanId : Event → Nat
  | .stageStarted scanId _ => scanId
  | .stageCompleted scanId _ => scanId
  | .findingDiscovered scanId _ _ _ _ _ => scanId
  | .scanCompleted scanId => scanId

namespace EventBus

/-- `_QUEUE_MAX`. -/
def queueMax : Nat := 2000

/-- What a stream has yielded: a message or `: keepalive`. -/
inductive Chunk
  | message (event : Event)
  | keepalive
  deriving DecidableEq

/-- A stream of the events of one scan: `sse_stream` over `subscribe`. -/
structure Subscriber where
  scanId : Nat
  loop : Nat
  /-- The queue is in `_subscribers`; after that the generator is done. -/
  listed : Bool
  queue : List Event
  sent : List Chunk
  deriving DecidableEq

/-- The queues by number, the callbacks that each loop has to run, the loops that are
closed, and the publishes that are under way with the queues that are left. -/
structure Bus where
  subscribers : List Subscriber
  ready : Nat → List (Nat × Event)
  closed : Nat → Bool
  publishing : Nat → Option (Event × List Nat)

/-- Nobody has subscribed. -/
def Bus.initial : Bus := ⟨[], fun _ => [], fun _ => false, fun _ => none⟩

/-- `_offer`. -/
def Subscriber.offer (subscriber : Subscriber) (event : Event) : Subscriber :=
  if subscriber.queue.length < queueMax then
    { subscriber with queue := subscriber.queue ++ [event] }
  else subscriber

namespace Bus

variable (bus : Bus)

/-- The queues in `_subscribers`. -/
def targets : List Nat :=
  (List.range bus.subscribers.length).filter fun number =>
    bus.subscribers[number]?.any Subscriber.listed

/-- Change the subscriber of a number. -/
def change (number : Nat) (update : Subscriber → Subscriber) : Bus :=
  { bus with subscribers := bus.subscribers.modify number update }

/-- Hand the event to a queue, or to the loop of the queue. -/
def hand (loop number : Nat) (event : Event) : Bus :=
  match bus.subscribers[number]? with
  | none => bus
  | some subscriber =>
      if subscriber.loop = loop then bus.change number (·.offer event)
      else if bus.closed subscriber.loop then bus
      else
        { bus with
          ready := Function.update bus.ready subscriber.loop
            (bus.ready subscriber.loop ++ [(number, event)]) }

end Bus

/-- What may happen on the bus. -/
inductive Action
  /-- `_subscribers.append`. -/
  | subscribe (scanId loop : Nat)
  /-- `subs = list(self._subscribers)`. -/
  | publish (loop : Nat) (event : Event)
  /-- A round of the loop of `publish`. -/
  | deliver (loop : Nat)
  | published (loop : Nat)
  /-- A callback of a loop. -/
  | callback (loop : Nat)
  /-- `await q.get()` returns. -/
  | take (number : Nat)
  /-- Nothing comes for a heartbeat: the wait is cancelled, which ends the generator. -/
  | idle (number : Nat)
  /-- The client is gone. -/
  | leave (number : Nat)
  | close (loop : Nat)
  deriving DecidableEq

/-- One action. -/
def step (bus : Bus) : Action → Option Bus
  | .subscribe scanId loop =>
      some { bus with
        subscribers := bus.subscribers ++ [⟨scanId, loop, true, [], []⟩] }
  | .publish loop event =>
      match bus.publishing loop with
      | some _ => none
      | none =>
          some { bus with
            publishing := Function.update bus.publishing loop
              (some (event, bus.targets)) }
  | .deliver loop =>
      match bus.publishing loop with
      | some (event, number :: rest) =>
          some { bus.hand loop number event with
            publishing := Function.update bus.publishing loop (some (event, rest)) }
      | _ => none
  | .published loop =>
      match bus.publishing loop with
      | some (_, []) =>
          some { bus with publishing := Function.update bus.publishing loop none }
      | _ => none
  | .callback loop =>
      match bus.ready loop with
      | [] => none
      | (number, event) :: rest =>
          if bus.closed loop then none
          else
            some { bus.change number (·.offer event) with
              ready := Function.update bus.ready loop rest }
  | .take number =>
      match bus.subscribers[number]? with
      | none => none
      | some subscriber =>
          match subscriber.queue with
          | [] => none
          | event :: rest =>
              if subscriber.listed then
                some (bus.change number fun subscriber =>
                  { subscriber with
                    queue := rest
                    sent :=
                      if event.scanId = subscriber.scanId then
                        subscriber.sent ++ [.message event]
                      else subscriber.sent })
              else none
  | .idle number =>
      match bus.subscribers[number]? with
      | none => none
      | some subscriber =>
          if subscriber.listed then
            some (bus.change number fun subscriber =>
              { subscriber with listed := false,
                                sent := subscriber.sent ++ [.keepalive] })
          else none
  | .leave number =>
      match bus.subscribers[number]? with
      | none => none
      | some _ => some (bus.change number fun subscriber =>
          { subscriber with listed := false })
  | .close loop => some { bus with closed := Function.update bus.closed loop true }

/-- A step in which an event is published on the loop that runs its scan. -/
def Steps (home : Nat → Nat) (bus : Bus) (action : Action) (next : Bus) : Prop :=
  step bus action = some next ∧
    ∀ loop event, action = .publish loop event → loop = home event.scanId

end EventBus
end Runner
end PqcScan
