import Mathlib.Data.Int.Notation
import ReactNative.Foundation.Coalescing
import ReactNative.Foundation.Runs

/-! Any thread sends events: what `sendEvent` does under the lock is one action, and posting the
block that flushes the queue, after the lock has been released, is another one. -/
namespace ReactNative

/-- The part of the protocol of events that the queue uses. -/
class RCTEvent (Event : Type) (Name : outParam Type) where
  viewTag : Event → ℤ
  eventName : Event → Name
  canCoalesce : Event → Bool
  coalescingKey : Event → BitVec 16
  /-- The older event is the receiver. -/
  coalesceWithEvent : Event → Event → Event

/-- The tag is read as an `int`, which is sign-extended. -/
def getEventID (viewTag : ℤ) (nameHash : BitVec 64) (coalescingKey : BitVec 16) : BitVec 64 :=
  (BitVec.ofInt 32 viewTag).signExtend 64 ||| (nameHash &&& 0xFFFF) <<< 32 |||
    coalescingKey.setWidth 64 <<< 48

structure RCTEventDispatcher (Event : Type) where
  events : BitVec 64 → Option Event := fun _ => none
  eventQueue : List (BitVec 64) := []
  eventsDispatchScheduled : Bool := false
  /-- It is static, so that it may have any value at the start. -/
  uniqueCoalescingKeyGenerator : BitVec 16
  senders : ℕ := 0
  blocks : ℕ := 0
  flushing : List (Option Event) := []
  dispatched : List (Option Event) := []
  /-- What was sent until each flush since the one before it. -/
  flushed : List (List Event) := []
  /-- What each flush has taken to be dispatched. -/
  taken : List (List (Option Event)) := []
  sentSinceFlush : List Event := []

inductive RCTDispatcherAction (Event : Type) where
  | sendEvent (event : Event)
  | dispatchBlock
  | flushEventsQueue
  | dispatchEvent

namespace RCTEventDispatcher

open RCTEvent

variable {Event Name : Type} [RCTEvent Event Name] (nameHash : Name → BitVec 64)

def eventID (event : Event) (coalescingKey : BitVec 16) : BitVec 64 :=
  getEventID (viewTag event) (nameHash (eventName event)) coalescingKey

def setBridge (uniqueCoalescingKeyGenerator : BitVec 16) : RCTEventDispatcher Event :=
  { uniqueCoalescingKeyGenerator := uniqueCoalescingKeyGenerator }

variable (dispatcher : RCTEventDispatcher Event)

/-- An event that is not merged with the previous one with its id. -/
def enqueue (id : BitVec 64) (event : Event) : RCTEventDispatcher Event :=
  { dispatcher with
    eventQueue := dispatcher.eventQueue ++ [id]
    events := Function.update dispatcher.events id (some event) }

/-- Only the sender that sets the flag dispatches a block. -/
def schedule : RCTEventDispatcher Event :=
  if dispatcher.eventsDispatchScheduled then dispatcher
  else { dispatcher with
    eventsDispatchScheduled := true
    senders := dispatcher.senders + 1 }

def add (event : Event) : RCTEventDispatcher Event :=
  if canCoalesce event then
    let id := eventID nameHash event (coalescingKey event)
    match dispatcher.events id with
    | some previousEvent => { dispatcher with
        events :=
          Function.update dispatcher.events id (some (coalesceWithEvent previousEvent event)) }
    | none => dispatcher.enqueue id event
  else
    let id := eventID nameHash event dispatcher.uniqueCoalescingKeyGenerator
    { dispatcher.enqueue id event with
      uniqueCoalescingKeyGenerator := dispatcher.uniqueCoalescingKeyGenerator + 1 }

def sendEvent (event : Event) : RCTEventDispatcher Event :=
  { (dispatcher.add nameHash event).schedule with
    sentSinceFlush := dispatcher.sentSinceFlush ++ [event] }

def flushEventsQueue : RCTEventDispatcher Event :=
  { dispatcher with
    events := fun _ => none
    eventQueue := []
    eventsDispatchScheduled := false
    blocks := dispatcher.blocks - 1
    flushing := dispatcher.eventQueue.map dispatcher.events
    flushed := dispatcher.flushed ++ [dispatcher.sentSinceFlush]
    taken := dispatcher.taken ++ [dispatcher.eventQueue.map dispatcher.events]
    sentSinceFlush := [] }

/-- The JS thread runs a block only after the one before it. -/
def step : RCTDispatcherAction Event → Option (RCTEventDispatcher Event)
  | .sendEvent event => some (dispatcher.sendEvent nameHash event)
  | .dispatchBlock =>
    if 0 < dispatcher.senders then some { dispatcher with
      senders := dispatcher.senders - 1
      blocks := dispatcher.blocks + 1 }
    else none
  | .flushEventsQueue =>
    if 0 < dispatcher.blocks ∧ dispatcher.flushing.isEmpty then some dispatcher.flushEventsQueue
    else none
  | .dispatchEvent =>
    match dispatcher.flushing with
    | [] => none
    | event :: rest => some { dispatcher with
        flushing := rest
        dispatched := dispatcher.dispatched ++ [event] }

end RCTEventDispatcher

end ReactNative

