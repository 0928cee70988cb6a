import Mathlib.Data.List.ReduceOption
import Mathlib.Data.List.Sort
import ReactNative.Foundation.Runs

/-! Events are staged by the thread that dispatches them. -/
namespace ReactNative

/-- An event that was passed to `dispatchEvent`. The calls are numbered by `id`: the caller gives
the object away, so a number stands for an object. -/
structure Event (Content : Type) where
  id : ℕ
  viewTag : BitVec 32
  eventName : String
  canCoalesce : Bool
  coalescingKey : BitVec 16
  timestampMs : ℤ
  content : Content
  deriving DecidableEq

namespace Event

variable {Content : Type}

/-- The more recent of two events, or the first one if they are of the same time. -/
def coalesce (event otherEvent : Event Content) : Event Content :=
  if otherEvent.timestampMs ≤ event.timestampMs then event else otherEvent

/-- `EVENT_COMPARATOR` on entries of the queue, which can be null: not greater. -/
def notAfter : Option (Event Content) → Option (Event Content) → Bool
  | none, _ => true
  | some _, none => false
  | some lhs, some rhs => lhs.timestampMs - rhs.timestampMs ≤ 0

end Event

/-- The masks of the three parts only hold if the view tag is not negative: it is sign-extended. -/
def getEventCookie (viewTag : BitVec 32) (eventTypeId coalescingKey : BitVec 16) : BitVec 64 :=
  viewTag.signExtend 64 ||| eventTypeId.zeroExtend 64 <<< 32 ||| coalescingKey.zeroExtend 64 <<< 48

/-- What the two locks protect, and what has become of the events. -/
structure EventQueues (Content : Type) where
  eventStaging : List (Event Content) := []
  eventsToDispatch : List (Option (Event Content)) := []
  eventCookieToLastEventIdx : BitVec 64 → Option ℕ := fun _ => none
  eventNameToEventId : String → Option (BitVec 16) := fun _ => none
  nextEventTypeId : BitVec 16 := 0
  staged : List (Event Content) := []
  dispatched : List (Event Content) := []
  /-- The events that were disposed because of another one, with that one. -/
  coalesced : List (Event Content × Event Content) := []

namespace EventQueues

variable {Content : Type} (queues : EventQueues Content) (event : Event Content)

/-- The synchronized part of `dispatchEvent`. -/
def stage : EventQueues Content :=
  let event := { event with id := queues.staged.length }
  { queues with
    eventStaging := queues.eventStaging ++ [event]
    staged := queues.staged ++ [event] }

def addEventToEventsToDispatch : EventQueues Content :=
  { queues with eventsToDispatch := queues.eventsToDispatch ++ [some event] }

/-- The number of an event name, which is given when the name is first seen. -/
def getEventTypeId (eventName : String) : EventQueues Content × BitVec 16 :=
  match queues.eventNameToEventId eventName with
  | some eventTypeId => (queues, eventTypeId)
  | none =>
    ({ queues with
        nextEventTypeId := queues.nextEventTypeId + 1
        eventNameToEventId :=
          Function.update queues.eventNameToEventId eventName (some queues.nextEventTypeId) },
      queues.nextEventTypeId)

def putLastEventIdx (eventCookie : BitVec 64) : EventQueues Content :=
  { queues with
    eventCookieToLastEventIdx := Function.update queues.eventCookieToLastEventIdx eventCookie
      (some queues.eventsToDispatch.length) }

/-- The branch for an event whose cookie is in the table. -/
def coalesceWithLast (eventCookie : BitVec 64)
    (lastEventIdx : ℕ) (lastEvent : Event Content) : EventQueues Content :=
  let coalescedEvent := event.coalesce lastEvent
  if coalescedEvent.id ≠ lastEvent.id then
    let put := queues.putLastEventIdx eventCookie
    addEventToEventsToDispatch
      { put with
        eventsToDispatch := put.eventsToDispatch.set lastEventIdx none
        coalesced := put.coalesced ++ [(lastEvent, coalescedEvent)] }
      coalescedEvent
  else { queues with coalesced := queues.coalesced ++ [(event, lastEvent)] }

def moveEvent : Option (EventQueues Content) :=
  if event.canCoalesce = false then some (queues.addEventToEventsToDispatch event)
  else
    let (queues, eventTypeId) := queues.getEventTypeId event.eventName
    let eventCookie := getEventCookie event.viewTag eventTypeId event.coalescingKey
    match queues.eventCookieToLastEventIdx eventCookie with
    | none => some ((queues.putLastEventIdx eventCookie).addEventToEventsToDispatch event)
    | some lastEventIdx =>
      match queues.eventsToDispatch[lastEventIdx]? with
      | some (some lastEvent) =>
        some (queues.coalesceWithLast event eventCookie lastEventIdx lastEvent)
      | _ => none

def moveEvents : List (Event Content) → EventQueues Content → Option (EventQueues Content)
  | [], queues => some queues
  | event :: rest, queues => (queues.moveEvent event).bind (moveEvents rest)

def moveStagedEventsToDispatchQueue : Option (EventQueues Content) :=
  (moveEvents queues.eventStaging queues).map fun moved => { moved with eventStaging := [] }

def dispatchEvents : EventQueues Content :=
  if queues.eventsToDispatch.length > 0 then
    let sorted :=
      if queues.eventsToDispatch.length > 1 then queues.eventsToDispatch.mergeSort Event.notAfter
      else queues.eventsToDispatch
    { queues with
      dispatched := queues.dispatched ++ sorted.reduceOption
      eventsToDispatch := []
      eventCookieToLastEventIdx := fun _ => none }
  else queues

def waiting : List (Event Content) := queues.eventsToDispatch.reduceOption ++ queues.eventStaging

end EventQueues

/-! ### The threads -/

/-- Where a call of `dispatchEvent` on another thread than the UI thread is. -/
inductive DispatchingThread where
  | idle
  /-- About to read `mIsPosted`. -/
  | reading
  /-- About to have `maybePost` run on the UI thread. -/
  | scheduling
  deriving DecidableEq

inductive UIThread where
  | idle
  /-- In `dispatchEvent`, about to read `mIsPosted`. -/
  | reading
  /-- In `maybePost`, about to read `mIsPosted`. -/
  | maybePosting
  /-- In `maybePost`, about to post the callback. -/
  | posting
  /-- In `doFrame`, about to read `mShouldStop`. -/
  | beginningFrame
  /-- In `doFrame`, about to move the staged events. -/
  | moving
  /-- In `doFrame`, about to read `mHasDispatchScheduled`. -/
  | testing
  /-- In `doFrame`, about to set `mHasDispatchScheduled`. -/
  | setting
  /-- In `doFrame`, about to enqueue the runnable. -/
  | enqueueing
  deriving DecidableEq

inductive JSThread where
  | idle
  /-- In the runnable, about to clear `mHasDispatchScheduled`. -/
  | clearing
  /-- In the runnable, about to dispatch the events. -/
  | dispatching
  deriving DecidableEq

structure EventDispatcher (Content : Type) where
  queues : EventQueues Content := {}
  isPosted : Bool := false
  shouldStop : Bool := false
  hasDispatchScheduled : Bool := false
  uiThread : UIThread := .idle
  threads : ℕ → DispatchingThread := fun _ => .idle
  jsThread : JSThread := .idle
  frameCallbacks : ℕ := 0
  maybePosts : ℕ := 0
  runnables : ℕ := 0

/-- The thread of a call is the UI thread if it is not given. -/
inductive DispatcherAction (Content : Type) where
  | dispatchEvent (thread : Option ℕ) (event : Event Content)
  /-- `dispatchAllEvents` or `onHostResume`. -/
  | dispatchAllEvents (thread : Option ℕ)
  | continueThread (thread : ℕ)
  | runMaybePost
  | doFrame
  /-- `onHostPause`, `onHostDestroy` or what `onCatalystInstanceDestroyed` hands to the UI
  thread. -/
  | stopFrameCallback
  | continueUI
  | run
  | continueJS

namespace EventDispatcher

variable {Content : Type} (dispatcher : EventDispatcher Content)

/-- A thread that is not in a call enters `maybePostFrameCallbackFromNonUI`. -/
def maybePostFrameCallbackFromNonUI : Option ℕ → Option (EventDispatcher Content)
  | none =>
    if dispatcher.uiThread = .idle then some { dispatcher with uiThread := .reading } else none
  | some thread =>
    if dispatcher.threads thread = .idle then
      some { dispatcher with threads := Function.update dispatcher.threads thread .reading }
    else none

def continueThread (thread : ℕ) : Option (EventDispatcher Content) :=
  match dispatcher.threads thread with
  | .idle => none
  | .reading =>
    some { dispatcher with
      threads := Function.update dispatcher.threads thread
        (if dispatcher.isPosted then .idle else .scheduling) }
  | .scheduling =>
    some { dispatcher with
      threads := Function.update dispatcher.threads thread .idle
      maybePosts := dispatcher.maybePosts + 1 }

def continueUI : Option (EventDispatcher Content) :=
  match dispatcher.uiThread with
  | .idle => none
  | .reading =>
    some { dispatcher with uiThread := if dispatcher.isPosted then .idle else .maybePosting }
  | .maybePosting =>
    if dispatcher.isPosted then some { dispatcher with uiThread := .idle }
    else some { dispatcher with isPosted := true, uiThread := .posting }
  | .posting =>
    some { dispatcher with frameCallbacks := dispatcher.frameCallbacks + 1, uiThread := .idle }
  | .beginningFrame =>
    if dispatcher.shouldStop then some { dispatcher with isPosted := false, uiThread := .moving }
    else
      some { dispatcher with frameCallbacks := dispatcher.frameCallbacks + 1, uiThread := .moving }
  | .moving =>
    dispatcher.queues.moveStagedEventsToDispatchQueue.map fun queues =>
      { dispatcher with queues := queues, uiThread := .testing }
  | .testing =>
    some { dispatcher with
      uiThread := if dispatcher.hasDispatchScheduled then .idle else .setting }
  | .setting => some { dispatcher with hasDispatchScheduled := true, uiThread := .enqueueing }
  | .enqueueing =>
    some { dispatcher with runnables := dispatcher.runnables + 1, uiThread := .idle }

def continueJS : Option (EventDispatcher Content) :=
  match dispatcher.jsThread with
  | .idle => none
  | .clearing => some { dispatcher with hasDispatchScheduled := false, jsThread := .dispatching }
  | .dispatching =>
    some { dispatcher with queues := dispatcher.queues.dispatchEvents, jsThread := .idle }

def step : DispatcherAction Content → Option (EventDispatcher Content)
  | .dispatchEvent thread event =>
    ({ dispatcher with queues := dispatcher.queues.stage event }
      : EventDispatcher Content).maybePostFrameCallbackFromNonUI thread
  | .dispatchAllEvents thread => dispatcher.maybePostFrameCallbackFromNonUI thread
  | .continueThread thread => dispatcher.continueThread thread
  | .runMaybePost =>
    if dispatcher.uiThread = .idle ∧ 0 < dispatcher.maybePosts then
      some { dispatcher with maybePosts := dispatcher.maybePosts - 1, uiThread := .maybePosting }
    else none
  | .doFrame =>
    if dispatcher.uiThread = .idle ∧ 0 < dispatcher.frameCallbacks then
      some { dispatcher with
        frameCallbacks := dispatcher.frameCallbacks - 1, uiThread := .beginningFrame }
    else none
  | .stopFrameCallback =>
    if dispatcher.uiThread = .idle then some { dispatcher with shouldStop := true } else none
  | .continueUI => dispatcher.continueUI
  | .run =>
    if dispatcher.jsThread = .idle ∧ 0 < dispatcher.runnables then
      some { dispatcher with runnables := dispatcher.runnables - 1, jsThread := .clearing }
    else none
  | .continueJS => dispatcher.continueJS

end EventDispatcher

end ReactNative

