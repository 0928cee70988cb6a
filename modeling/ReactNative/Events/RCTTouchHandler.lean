import Mathlib.Data.Rat.Defs
import ReactNative.Events.RCTEventDispatcher

/-! The handler keeps the touches that are down, sends an event for each callback of the system, and
gives moves the coalescing key that the last start, end or cancel has left. -/
namespace ReactNative

inductive RCTTouchEventName where
  | touchStart
  | touchMove
  | touchEnd
  | touchCancel
  deriving DecidableEq

/-- A touch of a callback. It has a target if a touchable view is found. -/
structure NativeTouch (Touch Location : Type) where
  touch : Touch
  target : Option ℤ
  location : Location
  timestamp : ℚ
  deriving DecidableEq

structure ReactTouch (Location : Type) where
  target : ℤ
  identifier : ℕ
  location : Option Location := none
  timestamp : Option ℚ := none
  deriving DecidableEq

structure RCTTouchEvent (Touch Location : Type) where
  eventName : RCTTouchEventName
  viewTag : ℤ
  reactTouches : List (ReactTouch Location)
  changedIndexes : List ℕ
  coalescingKey : BitVec 16
  nativeTouches : List Touch
  touches : List (NativeTouch Touch Location)
  deriving DecidableEq

namespace RCTTouchEvent

variable {Touch Location : Type}

def canCoalesce (event : RCTTouchEvent Touch Location) : Bool := event.eventName = .touchMove

/-- The double value of no number is zero. -/
def newTouchIsMoreRecent (touch newTouch : ReactTouch Location) : Bool :=
  !(touch.timestamp.getD 0 > newTouch.timestamp.getD 0)

/-- The events have equally many touches, else the code throws. -/
def coalesceWithEvent (event newEvent : RCTTouchEvent Touch Location) :
    RCTTouchEvent Touch Location :=
  let newEventIsMoreRecent := (event.reactTouches.zip newEvent.reactTouches).any fun touches =>
    newTouchIsMoreRecent touches.1 touches.2
  if newEventIsMoreRecent then newEvent else event

instance : RCTEvent (RCTTouchEvent Touch Location) RCTTouchEventName where
  viewTag := viewTag
  eventName := eventName
  canCoalesce := canCoalesce
  coalescingKey := coalescingKey
  coalesceWithEvent := coalesceWithEvent

end RCTTouchEvent

structure RCTTouchHandler (Touch Location : Type) where
  viewTag : ℤ
  nativeTouches : List Touch := []
  reactTouches : List (ReactTouch Location) := []
  coalescingKey : BitVec 16 := 0
  eventDispatcher : RCTEventDispatcher (RCTTouchEvent Touch Location)

inductive TouchHandlerAction (Touch Location : Type) where
  | interactionsBegan (touches : List (NativeTouch Touch Location))
  | interactionsMoved (touches : List (NativeTouch Touch Location))
  | interactionsEnded (touches : List (NativeTouch Touch Location))
  | interactionsCancelled (touches : List (NativeTouch Touch Location))
  /-- The touches that are down have locations and timestamps. -/
  | reset (current : Touch → Location × ℚ)
  | dispatchBlock
  | flushEventsQueue
  | dispatchEvent

namespace RCTTouchHandler

variable {Touch Location : Type} [DecidableEq Touch]

def RCTMaxTouches : ℕ := 11

def skipUsedIDs : ℕ → List (ReactTouch Location) → ℕ
  | touchID, [] => touchID
  | touchID, reactTouch :: rest =>
    if reactTouch.identifier = touchID then skipUsedIDs (touchID + 1) rest
    else if reactTouch.identifier > touchID then touchID
    else skipUsedIDs touchID rest

variable (reactTouches : List (ReactTouch Location))

def newTouchID : ℕ :=
  let lastID := (reactTouches.getLast?.map ReactTouch.identifier).getD 0
  skipUsedIDs ((lastID + 1) % RCTMaxTouches) reactTouches

variable (handler : RCTTouchHandler Touch Location) (touch : NativeTouch Touch Location)

/-- The set of native touches is ordered. -/
def recordNewTouch : RCTTouchHandler Touch Location :=
  match touch.target with
  | none => handler
  | some reactTag => { handler with
      nativeTouches :=
        if touch.touch ∈ handler.nativeTouches then handler.nativeTouches
        else handler.nativeTouches ++ [touch.touch]
      reactTouches := handler.reactTouches ++
        [{ target := reactTag, identifier := newTouchID handler.reactTouches }] }

variable (touches : List (NativeTouch Touch Location))

def recordNewTouches : RCTTouchHandler Touch Location := touches.foldl recordNewTouch handler

def recordRemovedTouch : RCTTouchHandler Touch Location :=
  match handler.nativeTouches.idxOf? touch.touch with
  | none => handler
  | some index => { handler with
      nativeTouches := handler.nativeTouches.eraseIdx index
      reactTouches := handler.reactTouches.eraseIdx index }

def recordRemovedTouches : RCTTouchHandler Touch Location :=
  touches.foldl recordRemovedTouch handler

def updateReactTouchAtIndex (touchIndex : ℕ)
    (nativeTouch : NativeTouch Touch Location) : List (ReactTouch Location) :=
  reactTouches.modify touchIndex fun reactTouch => { reactTouch with
    location := some nativeTouch.location
    timestamp := some nativeTouch.timestamp }

/-- The touches that are down after an update, and the changed indexes. -/
def updateTouches (nativeTouches : List Touch) (reactTouches : List (ReactTouch Location)) :
    List (NativeTouch Touch Location) → List (ReactTouch Location) × List ℕ
  | [] => (reactTouches, [])
  | touch :: rest =>
    match nativeTouches.idxOf? touch.touch with
    | none => updateTouches nativeTouches reactTouches rest
    | some index =>
      let updates := updateTouches nativeTouches
        (updateReactTouchAtIndex reactTouches index touch) rest
      (updates.1, index :: updates.2)

variable (nameHash : RCTTouchEventName → BitVec 64) (handler : RCTTouchHandler Touch Location)

variable (touches : List (NativeTouch Touch Location))

def updateAndDispatchTouches (eventName : RCTTouchEventName) : RCTTouchHandler Touch Location :=
  let updates := updateTouches handler.nativeTouches handler.reactTouches touches
  let changedIndexes := updates.2
  let handler := { handler with reactTouches := updates.1 }
  if changedIndexes.length = 0 then handler
  else
    let canBeCoalesced := eventName = .touchMove
    let coalescingKey := if canBeCoalesced then handler.coalescingKey else handler.coalescingKey + 1
    let event : RCTTouchEvent Touch Location :=
      { eventName := eventName
        viewTag := handler.viewTag
        reactTouches := handler.reactTouches
        changedIndexes := changedIndexes
        coalescingKey := coalescingKey
        nativeTouches := handler.nativeTouches
        touches := touches }
    { handler with
      coalescingKey := if canBeCoalesced then coalescingKey else coalescingKey + 1
      eventDispatcher := handler.eventDispatcher.sendEvent nameHash event }

/-- New touches are recorded before the event. -/
def interactionsBegan : RCTTouchHandler Touch Location :=
  (handler.recordNewTouches touches).updateAndDispatchTouches nameHash touches .touchStart

def interactionsMoved : RCTTouchHandler Touch Location :=
  handler.updateAndDispatchTouches nameHash touches .touchMove

/-- Removed touches are so after the event. -/
def interactionsEnded : RCTTouchHandler Touch Location :=
  (handler.updateAndDispatchTouches nameHash touches .touchEnd).recordRemovedTouches touches

def interactionsCancelled : RCTTouchHandler Touch Location :=
  (handler.updateAndDispatchTouches nameHash touches .touchCancel).recordRemovedTouches touches

variable (current : Touch → Location × ℚ)

def currentTouches : List (NativeTouch Touch Location) :=
  handler.nativeTouches.map fun touch => ⟨touch, none, (current touch).1, (current touch).2⟩

def reset : RCTTouchHandler Touch Location :=
  if handler.nativeTouches.length ≠ 0 then
    { handler.updateAndDispatchTouches nameHash (handler.currentTouches current) .touchCancel with
      nativeTouches := []
      reactTouches := [] }
  else handler

def dispatcherStep (action : RCTDispatcherAction (RCTTouchEvent Touch Location)) :
    Option (RCTTouchHandler Touch Location) :=
  (handler.eventDispatcher.step nameHash action).map fun eventDispatcher =>
    { handler with eventDispatcher := eventDispatcher }

def step : TouchHandlerAction Touch Location → Option (RCTTouchHandler Touch Location)
  | .interactionsBegan touches => some (handler.interactionsBegan nameHash touches)
  | .interactionsMoved touches => some (handler.interactionsMoved nameHash touches)
  | .interactionsEnded touches => some (handler.interactionsEnded nameHash touches)
  | .interactionsCancelled touches => some (handler.interactionsCancelled nameHash touches)
  | .reset current => some (handler.reset nameHash current)
  | .dispatchBlock => handler.dispatcherStep nameHash .dispatchBlock
  | .flushEventsQueue => handler.dispatcherStep nameHash .flushEventsQueue
  | .dispatchEvent => handler.dispatcherStep nameHash .dispatchEvent

end RCTTouchHandler

end ReactNative

