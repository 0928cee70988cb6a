import ReactNative.Events.EventDispatcher

/-! Motion events become touch events, which take their coalescing key from a helper that counts the
pointers going down and up in each gesture, and are dispatched as any other events. -/
namespace ReactNative

inductive TouchEventType where
  | START
  | END
  | MOVE
  | CANCEL
  deriving DecidableEq

namespace TouchEventType

def getJSEventName : TouchEventType → String
  | .START => "topTouchStart"
  | .END => "topTouchEnd"
  | .MOVE => "topTouchMove"
  | .CANCEL => "topTouchCancel"

def canCoalesce : TouchEventType → Bool
  | .START | .END | .CANCEL => false
  | .MOVE => true

end TouchEventType

inductive MotionAction where
  | down
  | up
  | pointerDown
  | pointerUp
  | move
  | cancel
  deriving DecidableEq

/-- The type that `JSTouchDispatcher` gives to the touch event. -/
def MotionAction.touchEventType : MotionAction → TouchEventType
  | .down | .pointerDown => .START
  | .up | .pointerUp => .END
  | .move => .MOVE
  | .cancel => .CANCEL

/-- The keys are 32-bit integers, by the low 32 bits of the down time. -/
structure TouchEventCoalescingKeyHelper where
  downTimeToCoalescingKey : BitVec 32 → Option (BitVec 32) := fun _ => none

namespace TouchEventCoalescingKeyHelper

variable (helper : TouchEventCoalescingKeyHelper) (downTime : ℤ)

def put (value : BitVec 32) : TouchEventCoalescingKeyHelper :=
  ⟨Function.update helper.downTimeToCoalescingKey (BitVec.ofInt 32 downTime) (some value)⟩

def get : BitVec 32 := (helper.downTimeToCoalescingKey (BitVec.ofInt 32 downTime)).getD (-1)

def addCoalescingKey : TouchEventCoalescingKeyHelper := helper.put downTime 0

/-- Throws if there is no key, for which `-1` stands. -/
def incrementCoalescingKey : Option TouchEventCoalescingKeyHelper :=
  let currentValue := helper.get downTime
  if currentValue = -1 then none else some (helper.put downTime (currentValue + 1))

def getCoalescingKey : Option (BitVec 16) :=
  let currentValue := helper.get downTime
  if currentValue = -1 then none else some (currentValue.truncate 16)

def removeCoalescingKey : TouchEventCoalescingKeyHelper :=
  ⟨Function.update helper.downTimeToCoalescingKey (BitVec.ofInt 32 downTime) none⟩

/-- What `TouchEvent.init` does with the helper: the key of the event, unless it throws. -/
def init (action : MotionAction) (gestureStartTime : ℤ) :
    Option (TouchEventCoalescingKeyHelper × BitVec 16) :=
  match action with
  | .down => some (helper.addCoalescingKey gestureStartTime, 0)
  | .up | .cancel => some (helper.removeCoalescingKey gestureStartTime, 0)
  | .pointerDown | .pointerUp =>
    (helper.incrementCoalescingKey gestureStartTime).map fun helper => (helper, 0)
  | .move => (helper.getCoalescingKey gestureStartTime).map fun key => (helper, key)

end TouchEventCoalescingKeyHelper

structure Gesture where
  viewTag : BitVec 32
  downTime : ℤ
  pointerChanges : ℕ := 0

/-- What a touch event has beyond what every event has, and how far its gesture was. -/
structure Touch where
  touchEventType : TouchEventType
  downTime : ℤ
  pointerChanges : ℕ
  deriving DecidableEq

/-- The touch events on their way, the gesture in progress, and the clock. -/
structure TouchDispatch where
  queues : EventQueues Touch := {}
  helper : TouchEventCoalescingKeyHelper := {}
  gesture : Option Gesture := none
  /-- The down times of the gestures so far. -/
  downTimes : List ℤ := []
  uptimeMillis : ℕ := 0

inductive TouchStep where
  | elapse (milliseconds : ℕ)
  | down (viewTag : BitVec 32) (downTime : ℤ)
  /-- A motion event of the gesture in progress. -/
  | motion (action : MotionAction)
  | moveStagedEventsToDispatchQueue
  | dispatchEvents

namespace TouchDispatch

def nextGesture (gesture : Gesture) : MotionAction → Option Gesture
  | .down | .move => some gesture
  | .pointerDown | .pointerUp => some { gesture with pointerChanges := gesture.pointerChanges + 1 }
  | .up | .cancel => none

variable (dispatch : TouchDispatch)

def handleTouchEvent (gesture : Gesture) (action : MotionAction) : Option TouchDispatch :=
  (dispatch.helper.init action gesture.downTime).map fun (helper, coalescingKey) =>
    { dispatch with
      helper := helper
      gesture := nextGesture gesture action
      queues := dispatch.queues.stage
        { id := 0
          viewTag := gesture.viewTag
          eventName := action.touchEventType.getJSEventName
          canCoalesce := action.touchEventType.canCoalesce
          coalescingKey := coalescingKey
          timestampMs := dispatch.uptimeMillis
          content := ⟨action.touchEventType, gesture.downTime, gesture.pointerChanges⟩ } }

def step : TouchStep → Option TouchDispatch
  | .elapse milliseconds =>
    some { dispatch with uptimeMillis := dispatch.uptimeMillis + milliseconds }
  | .down viewTag downTime =>
    if dispatch.gesture = none ∧ downTime ∉ dispatch.downTimes then
      ({ dispatch with downTimes := downTime :: dispatch.downTimes }
        : TouchDispatch).handleTouchEvent { viewTag, downTime } .down
    else none
  | .motion action =>
    dispatch.gesture.bind fun gesture =>
      if action = .down then none else dispatch.handleTouchEvent gesture action
  | .moveStagedEventsToDispatchQueue =>
    dispatch.queues.moveStagedEventsToDispatchQueue.map fun queues =>
      { dispatch with queues := queues }
  | .dispatchEvents => some { dispatch with queues := dispatch.queues.dispatchEvents }

end TouchDispatch

end ReactNative

