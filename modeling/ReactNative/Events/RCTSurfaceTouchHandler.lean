import ReactNative.Core.ShadowNode
import ReactNative.Foundation.Runs

/-! The handler keeps a table of the touches that are active. Each one has an identifier out of a
pool of eleven, and the event emitter of the component that it began on, if there is one. -/
namespace ReactNative

/-- What is known of where a touch is. -/
structure SurfaceTouchLocation where
  pagePoint : Point := {}
  offsetPoint : Point := {}
  screenPoint : Point := {}
  force : ℚ := 0
  timestamp : ℚ := 0
  deriving DecidableEq

structure SurfaceTouch where
  identifier : ℕ
  target : Tag := 0
  location : SurfaceTouchLocation := {}
  deriving DecidableEq

structure UITouch (T Emitter : Type) where
  touch : T
  target : Tag := 0
  eventEmitter : Option Emitter := none
  location : SurfaceTouchLocation := {}

structure ActiveTouch (Emitter : Type) where
  touch : SurfaceTouch
  eventEmitter : Option Emitter

/-- Sets of touches compare them by their identifiers. -/
structure SurfaceTouchEvent where
  touches : List SurfaceTouch
  changedTouches : List SurfaceTouch
  targetTouches : List SurfaceTouch
  deriving DecidableEq

inductive RCTTouchEventType where
  | touchStart
  | touchMove
  | touchEnd
  | touchCancel
  deriving DecidableEq

def maxTouches : ℕ := 11

structure IdentifierPool where
  usage : ℕ → Bool := fun _ => false
  lastIndex : ℕ := 0

namespace IdentifierPool

variable (pool : IdentifierPool)

def enqueue (index : ℕ) : IdentifierPool :=
  { pool with usage := Function.update pool.usage index false }

/-- The `while` loop, for so many rounds. -/
def dequeueLoop : ℕ → IdentifierPool → Option (ℕ × IdentifierPool)
  | 0, _ => none
  | rounds + 1, pool =>
    if pool.usage pool.lastIndex then
      dequeueLoop rounds { pool with lastIndex := (pool.lastIndex + 1) % maxTouches }
    else
      some (pool.lastIndex, { pool with usage := Function.update pool.usage pool.lastIndex true })

/-- Where all identifiers are in use, the loop has come back to the first one after as many rounds as
there are, and does not end. -/
def dequeue : Option (ℕ × IdentifierPool) := dequeueLoop maxTouches pool

def reset : IdentifierPool := { pool with usage := fun _ => false }

end IdentifierPool

structure RCTSurfaceTouchHandler (T Emitter : Type) where
  activeTouches : List (T × ActiveTouch Emitter) := []
  identifierPool : IdentifierPool := {}

/-- What an event emitter is handed. -/
structure TouchDispatched (Emitter : Type) where
  eventType : RCTTouchEventType
  receiver : Emitter
  event : SurfaceTouchEvent

inductive SurfaceTouchCallback (T Emitter : Type) where
  | touchesBegan (touches : List (UITouch T Emitter))
  | touchesMoved (touches : List (UITouch T Emitter))
  | touchesEnded (touches : List (UITouch T Emitter))
  | touchesCancelled (touches : List (UITouch T Emitter))
  | reset

/-- A touch goes into a set that has none with its identifier. -/
def insertTouch (touches : List SurfaceTouch) (touch : SurfaceTouch) : List SurfaceTouch :=
  if touches.any (·.identifier = touch.identifier) then touches else touches ++ [touch]

namespace RCTSurfaceTouchHandler

variable {T Emitter : Type} [DecidableEq T] [DecidableEq Emitter]

def createTouchWithUITouch (uiTouch : UITouch T Emitter) (identifier : ℕ) : ActiveTouch Emitter where
  touch := ⟨identifier, uiTouch.target, uiTouch.location⟩
  eventEmitter := uiTouch.eventEmitter

variable (activeTouches : List (T × ActiveTouch Emitter))

/-- A touch that is in the table already keeps its entry. -/
def emplace (touch : T) (activeTouch : ActiveTouch Emitter) : List (T × ActiveTouch Emitter) :=
  if activeTouches.any (·.1 = touch) then activeTouches else activeTouches ++ [(touch, activeTouch)]

def registerTouches (handler : RCTSurfaceTouchHandler T Emitter) :
    List (UITouch T Emitter) → Option (RCTSurfaceTouchHandler T Emitter)
  | [] => some handler
  | touch :: rest =>
    match handler.identifierPool.dequeue with
    | none => none
    | some (identifier, identifierPool) =>
      registerTouches {
        activeTouches := emplace handler.activeTouches touch.touch
          (createTouchWithUITouch touch identifier)
        identifierPool := identifierPool } rest

def updateTouch (touch : UITouch T Emitter) : List (T × ActiveTouch Emitter) :=
  activeTouches.map fun entry =>
    if entry.1 = touch.touch then
      (entry.1, { entry.2 with touch := { entry.2.touch with location := touch.location } })
    else entry

variable (handler : RCTSurfaceTouchHandler T Emitter) (touches : List (UITouch T Emitter))

def updateTouches : RCTSurfaceTouchHandler T Emitter :=
  { handler with activeTouches := touches.foldl updateTouch handler.activeTouches }

def unregisterTouch (touch : UITouch T Emitter) : RCTSurfaceTouchHandler T Emitter :=
  match handler.activeTouches.find? (·.1 = touch.touch) with
  | none => handler
  | some entry =>
    { activeTouches := handler.activeTouches.filter (·.1 ≠ touch.touch)
      identifierPool := handler.identifierPool.enqueue entry.2.touch.identifier }

def unregisterTouches : RCTSurfaceTouchHandler T Emitter := touches.foldl unregisterTouch handler

def activeTouchesFromTouches : List (ActiveTouch Emitter) :=
  touches.filterMap fun touch =>
    (handler.activeTouches.find? (·.1 = touch.touch)).map Prod.snd

/-- The touches of the table that a set is made of. -/
def touchesOf (among : ActiveTouch Emitter → Bool) : List SurfaceTouch :=
  ((activeTouches.map Prod.snd).filter among).map ActiveTouch.touch

/-- The events of a callback, one for each emitter of its touches. The touches of a component are
looked for in the whole table. -/
def dispatchActiveTouches
    (activeTouches : List (ActiveTouch Emitter)) (eventType : RCTTouchEventType) :
    List (TouchDispatched Emitter) :=
  let isEndishEventType := eventType = .touchEnd || eventType = .touchCancel
  let changedTouches := ((activeTouches.filter (·.eventEmitter.isSome)).map
    ActiveTouch.touch).foldl insertTouch []
  let uniqueEventEmitters := (activeTouches.filterMap ActiveTouch.eventEmitter).dedup
  let touches := (touchesOf handler.activeTouches fun activeTouch =>
    activeTouch.eventEmitter.isSome && !(isEndishEventType &&
      changedTouches.any (·.identifier = activeTouch.touch.identifier))).foldl insertTouch []
  uniqueEventEmitters.map fun eventEmitter =>
    { eventType := eventType
      receiver := eventEmitter
      event := {
        touches := touches
        changedTouches := changedTouches
        targetTouches := (touchesOf handler.activeTouches
          (·.eventEmitter = some eventEmitter)).foldl insertTouch [] } }

/-! ### Callbacks -/

/-- What is done with the table before the events. -/
def prepare : SurfaceTouchCallback T Emitter → Option (RCTSurfaceTouchHandler T Emitter)
  | .touchesBegan touches => handler.registerTouches touches
  | .touchesMoved touches | .touchesEnded touches | .touchesCancelled touches =>
    some (handler.updateTouches touches)
  | .reset => some handler

def dispatches : SurfaceTouchCallback T Emitter → List (TouchDispatched Emitter)
  | .touchesBegan touches =>
    handler.dispatchActiveTouches (handler.activeTouchesFromTouches touches) .touchStart
  | .touchesMoved touches =>
    handler.dispatchActiveTouches (handler.activeTouchesFromTouches touches) .touchMove
  | .touchesEnded touches =>
    handler.dispatchActiveTouches (handler.activeTouchesFromTouches touches) .touchEnd
  | .touchesCancelled touches =>
    handler.dispatchActiveTouches (handler.activeTouchesFromTouches touches) .touchCancel
  | .reset =>
    if handler.activeTouches.length ≠ 0 then
      handler.dispatchActiveTouches (handler.activeTouches.map Prod.snd) .touchCancel
    else []

def finish : SurfaceTouchCallback T Emitter → RCTSurfaceTouchHandler T Emitter
  | .touchesBegan _ | .touchesMoved _ => handler
  | .touchesEnded touches | .touchesCancelled touches => handler.unregisterTouches touches
  | .reset =>
    if handler.activeTouches.length ≠ 0 then
      { activeTouches := [], identifierPool := handler.identifierPool.reset }
    else handler

def step (callback : SurfaceTouchCallback T Emitter) : Option (RCTSurfaceTouchHandler T Emitter) :=
  (handler.prepare callback).map (finish · callback)

end RCTSurfaceTouchHandler

end ReactNative

