import Mathlib.Algebra.Order.Ring.Rat
import ReactNative.Foundation.Runs

/-! `Pressability` turns the responder events of a view, the measuring of its region and four kinds
of timers into callbacks. Its touch state follows a table of signals; a signal that the table does
not expect is an error. -/
namespace ReactNative

namespace Pressability

inductive PlatformOS where
  | ios
  | android
  | macos
  | web
  deriving DecidableEq

structure TouchPoint where
  pageX : ℚ
  pageY : ℚ
  deriving DecidableEq

/-- What a responder is told by: a tag, or a host component with one. -/
inductive ResponderID where
  | number (tag : ℤ)
  | hostComponent (tag : ℤ)
  deriving DecidableEq

/-- A list of touches that is missing is an empty one. -/
structure PressEvent where
  currentTarget : ResponderID
  touches : List TouchPoint := []
  changedTouches : List TouchPoint := []
  nativeEvent : TouchPoint
  deriving DecidableEq

def getTouchFromPressEvent (event : PressEvent) : TouchPoint :=
  match event.touches, event.changedTouches with
  | touch :: _, _ => touch
  | [], touch :: _ => touch
  | [], [] => event.nativeEvent

structure Rect where
  bottom : Option ℚ := none
  left : Option ℚ := none
  right : Option ℚ := none
  top : Option ℚ := none

inductive RectOrSize where
  | rect (rect : Rect)
  | size (size : ℚ)

def createSquare (size : ℚ) : Rect := ⟨some size, some size, some size, some size⟩

def normalizeRect : Option RectOrSize → Option Rect
  | none => none
  | some (.rect rect) => some rect
  | some (.size size) => some (createSquare size)

structure ResponderRegion where
  bottom : ℚ
  left : ℚ
  right : ℚ
  top : ℚ

/-- Of a callback it matters whether it is given, and what it returns. -/
structure PressabilityConfig where
  hitSlop : Option RectOrSize := none
  pressRectOffset : Option RectOrSize := none
  android_disableSound : Bool := false
  delayHoverIn : Option ℚ := none
  delayHoverOut : Option ℚ := none
  delayLongPress : Option ℚ := none
  delayPressIn : Option ℚ := none
  delayPressOut : Option ℚ := none
  minPressDuration : Option ℚ := none
  onHoverIn : Bool := false
  onHoverOut : Bool := false
  onLongPress : Bool := false
  onPress : Bool := false
  onPressIn : Bool := false
  onPressMove : Bool := false
  onPressOut : Bool := false
  onLongPressShouldCancelPress_DEPRECATED : Option Bool := none

inductive TouchState where
  | notResponder
  | responderInactivePressIn
  | responderInactivePressOut
  | responderActivePressIn
  | responderActivePressOut
  | responderActiveLongPressIn
  | responderActiveLongPressOut
  | error
  deriving DecidableEq

inductive TouchSignal where
  | delay
  | responderGrant
  | responderRelease
  | responderTerminated
  | enterPressRect
  | leavePressRect
  | longPressDetected
  deriving DecidableEq

def transitions : TouchState → TouchSignal → TouchState
  | .notResponder, .responderGrant => .responderInactivePressIn
  | .notResponder, _ => .error
  | .responderInactivePressIn, .delay => .responderActivePressIn
  | .responderInactivePressIn, .responderRelease => .notResponder
  | .responderInactivePressIn, .responderTerminated => .notResponder
  | .responderInactivePressIn, .enterPressRect => .responderInactivePressIn
  | .responderInactivePressIn, .leavePressRect => .responderInactivePressOut
  | .responderInactivePressIn, _ => .error
  | .responderInactivePressOut, .delay => .responderActivePressOut
  | .responderInactivePressOut, .responderRelease => .notResponder
  | .responderInactivePressOut, .responderTerminated => .notResponder
  | .responderInactivePressOut, .enterPressRect => .responderInactivePressIn
  | .responderInactivePressOut, .leavePressRect => .responderInactivePressOut
  | .responderInactivePressOut, _ => .error
  | .responderActivePressIn, .responderRelease => .notResponder
  | .responderActivePressIn, .responderTerminated => .notResponder
  | .responderActivePressIn, .enterPressRect => .responderActivePressIn
  | .responderActivePressIn, .leavePressRect => .responderActivePressOut
  | .responderActivePressIn, .longPressDetected => .responderActiveLongPressIn
  | .responderActivePressIn, _ => .error
  | .responderActivePressOut, .responderRelease => .notResponder
  | .responderActivePressOut, .responderTerminated => .notResponder
  | .responderActivePressOut, .enterPressRect => .responderActivePressIn
  | .responderActivePressOut, .leavePressRect => .responderActivePressOut
  | .responderActivePressOut, _ => .error
  | .responderActiveLongPressIn, .responderRelease => .notResponder
  | .responderActiveLongPressIn, .responderTerminated => .notResponder
  | .responderActiveLongPressIn, .enterPressRect => .responderActiveLongPressIn
  | .responderActiveLongPressIn, .leavePressRect => .responderActiveLongPressOut
  | .responderActiveLongPressIn, .longPressDetected => .responderActiveLongPressIn
  | .responderActiveLongPressIn, _ => .error
  | .responderActiveLongPressOut, .responderRelease => .notResponder
  | .responderActiveLongPressOut, .responderTerminated => .notResponder
  | .responderActiveLongPressOut, .enterPressRect => .responderActiveLongPressIn
  | .responderActiveLongPressOut, .leavePressRect => .responderActiveLongPressOut
  | .responderActiveLongPressOut, _ => .error
  | .error, .responderGrant => .responderInactivePressIn
  | .error, _ => .notResponder

def isActiveSignal : TouchState → Bool
  | .responderActivePressIn | .responderActiveLongPressIn => true
  | _ => false

def isActivationSignal : TouchState → Bool
  | .responderActivePressOut | .responderActivePressIn => true
  | _ => false

def isPressInSignal : TouchState → Bool
  | .responderInactivePressIn | .responderActivePressIn | .responderActiveLongPressIn => true
  | _ => false

def isTerminalSignal : TouchSignal → Bool
  | .responderTerminated | .responderRelease => true
  | _ => false

def defaultLongPressDelayMs : ℚ := 500

def defaultPressRectOffsets : ResponderRegion := ⟨30, 20, 20, 20⟩

def defaultMinPressDuration : ℚ := 130

def normalizeDelay (delay : Option ℚ) (min fallback : ℚ) : ℚ := max min (delay.getD fallback)

inductive DelayTimeout where
  | hoverIn
  | hoverOut
  | longPress
  | press
  | pressOut
  deriving DecidableEq

inductive TimerCallback where
  | receiveDelay (event : PressEvent)
  | handleLongPress (event : PressEvent)
  | onPressOut (event : PressEvent)
  | onHoverIn
  | onHoverOut
  deriving DecidableEq

structure PendingTimer where
  id : ℕ
  callback : TimerCallback
  delay : ℚ

inductive Call where
  | onPress (event : PressEvent)
  | onPressIn (event : PressEvent)
  | onPressMove (event : PressEvent)
  | onPressOut (event : PressEvent)
  | onLongPress (event : PressEvent)
  | onHoverIn
  | onHoverOut
  | measure (responderID : ResponderID)
  | playTouchSound
  deriving DecidableEq

structure InvalidSignal where
  signal : TouchSignal
  state : TouchState
  responderID : Option ResponderID

end Pressability

open Pressability in
structure Pressability where
  config : PressabilityConfig
  delayTimeout : DelayTimeout → Option ℕ := fun _ => none
  isHovered : Bool := false
  responderID : Option ResponderID := none
  responderRegion : Option ResponderRegion := none
  touchActivatePosition : Option TouchPoint := none
  touchActivateTime : Option ℚ := none
  touchState : TouchState := .notResponder
  timers : List PendingTimer := []
  timeouts : ℕ := 0
  readings : ℕ := 0
  calls : List Call := []

namespace Pressability

variable (self : Pressability)

def configure (config : PressabilityConfig) : Pressability :=
  { self with config := config }

def call (self : Pressability) (call : Call) : Pressability :=
  { self with calls := self.calls ++ [call] }

/-! ### Timers -/

def setTimeout (field : DelayTimeout) (callback : TimerCallback) (delay : ℚ) : Pressability :=
  { self with
    timers := self.timers ++ [⟨self.timeouts, callback, delay⟩]
    timeouts := self.timeouts + 1
    delayTimeout := Function.update self.delayTimeout field (some self.timeouts) }

def cancelDelayTimeout (field : DelayTimeout) (self : Pressability) : Pressability :=
  match self.delayTimeout field with
  | none => self
  | some timeout => { self with
      timers := self.timers.filter (·.id ≠ timeout)
      delayTimeout := Function.update self.delayTimeout field none }

def cancelHoverInDelayTimeout : Pressability → Pressability := cancelDelayTimeout .hoverIn

def cancelHoverOutDelayTimeout : Pressability → Pressability := cancelDelayTimeout .hoverOut

def cancelLongPressDelayTimeout : Pressability → Pressability := cancelDelayTimeout .longPress

def cancelPressDelayTimeout : Pressability → Pressability := cancelDelayTimeout .press

def cancelPressOutDelayTimeout : Pressability → Pressability := cancelDelayTimeout .pressOut

def reset : Pressability :=
  self.cancelHoverInDelayTimeout.cancelHoverOutDelayTimeout.cancelLongPressDelayTimeout
    |>.cancelPressDelayTimeout.cancelPressOutDelayTimeout

/-! ### The region of the responder -/

def measureResponderRegion : Pressability :=
  match self.responderID with
  | none => self
  | some responderID => self.call (.measure responderID)

def measureCallback (left top width height pageX pageY : ℚ) : Pressability :=
  if left = 0 ∧ top = 0 ∧ width = 0 ∧ height = 0 ∧ pageX = 0 ∧ pageY = 0 then self
  else { self with responderRegion := some {
    bottom := pageY + height
    left := pageX
    right := pageX + width
    top := pageY } }

def isTouchWithinResponderRegion (touch : TouchPoint) (responderRegion : ResponderRegion) : Bool :=
  let hitSlop := normalizeRect self.config.hitSlop
  let pressRectOffset := normalizeRect self.config.pressRectOffset
  let regionBottom := responderRegion.bottom + ((hitSlop.bind Rect.bottom).getD 0) +
    (pressRectOffset.bind Rect.bottom).getD defaultPressRectOffsets.bottom
  let regionLeft := responderRegion.left - ((hitSlop.bind Rect.left).getD 0) -
    (pressRectOffset.bind Rect.left).getD defaultPressRectOffsets.left
  let regionRight := responderRegion.right + ((hitSlop.bind Rect.right).getD 0) +
    (pressRectOffset.bind Rect.right).getD defaultPressRectOffsets.right
  let regionTop := responderRegion.top - ((hitSlop.bind Rect.top).getD 0) -
    (pressRectOffset.bind Rect.top).getD defaultPressRectOffsets.top
  touch.pageX > regionLeft ∧ touch.pageX < regionRight ∧ touch.pageY > regionTop ∧
    touch.pageY < regionBottom

/-- A distance of more than ten. -/
def movedFar (first second : TouchPoint) : Bool :=
  (first.pageX - second.pageX) ^ 2 + (first.pageY - second.pageY) ^ 2 > 10 ^ 2

/-! ### Signals -/

section

variable (clock : ℕ → ℚ) (os : PlatformOS)

def activate (event : PressEvent) (self : Pressability) : Pressability :=
  let touch := getTouchFromPressEvent event
  let self := { self with
    touchActivatePosition := some touch
    touchActivateTime := some (clock self.readings)
    readings := self.readings + 1 }
  if self.config.onPressIn then self.call (.onPressIn event) else self

def deactivate (event : PressEvent) (self : Pressability) : Pressability :=
  let self :=
    if self.config.onPressOut then
      let minPressDuration := normalizeDelay self.config.minPressDuration 0 defaultMinPressDuration
      let pressDuration := clock self.readings - self.touchActivateTime.getD 0
      let delayPressOut :=
        max (minPressDuration - pressDuration) (normalizeDelay self.config.delayPressOut 0 0)
      let self := { self with readings := self.readings + 1 }
      if delayPressOut > 0 then self.setTimeout .pressOut (.onPressOut event) delayPressOut
      else self.call (.onPressOut event)
    else self
  { self with touchActivateTime := none }

variable (self : Pressability)

def shouldLongPressCancelPress : Bool :=
  self.config.onLongPressShouldCancelPress_DEPRECATED.getD true

def releasePress (prevState nextState : TouchState) (event : PressEvent) (self : Pressability) :
    Pressability :=
  if self.config.onPress then
    let isPressCanceledByLongPress := self.config.onLongPress &&
      prevState = .responderActiveLongPressIn && self.shouldLongPressCancelPress
    if isPressCanceledByLongPress then self
    else
      -- A press that was never activated is now, and deactivated.
      let self :=
        if !isActiveSignal nextState && !isActiveSignal prevState then
          (self.activate clock event).deactivate clock event
        else self
      let self :=
        if os = .android && !self.config.android_disableSound then self.call .playTouchSound
        else self
      self.call (.onPress event)
  else self

def performTransitionSideEffects (prevState nextState : TouchState) (signal : TouchSignal)
    (event : PressEvent) (self : Pressability) : Pressability :=
  let self :=
    if isTerminalSignal signal then
      { self with touchActivatePosition := none }.cancelLongPressDelayTimeout
    else self
  let isInitialTransition := prevState = .notResponder && nextState = .responderInactivePressIn
  let isActivationTransition := !isActivationSignal prevState && isActivationSignal nextState
  let self :=
    if isInitialTransition || isActivationTransition then self.measureResponderRegion else self
  let self :=
    if isPressInSignal prevState && signal = .longPressDetected && self.config.onLongPress then
      self.call (.onLongPress event)
    else self
  let self :=
    if !isActiveSignal prevState && isActiveSignal nextState then self.activate clock event
    else if isActiveSignal prevState && !isActiveSignal nextState then self.deactivate clock event
    else self
  let self :=
    if isPressInSignal prevState && signal = .responderRelease then
      self.releasePress clock os prevState nextState event
    else self
  self.cancelPressDelayTimeout

def receiveSignal (signal : TouchSignal) (event : PressEvent) : Except InvalidSignal Pressability :=
  let prevState := self.touchState
  let nextState := transitions prevState signal
  if self.responderID = none ∧ signal = .responderRelease then .ok self
  else if nextState = .error then .error ⟨signal, prevState, self.responderID⟩
  else if prevState ≠ nextState then
    .ok { self.performTransitionSideEffects clock os prevState nextState signal event with
      touchState := nextState }
  else .ok self

variable (event : PressEvent)

def handleLongPress : Except InvalidSignal Pressability :=
  if self.touchState = .responderActivePressIn ∨ self.touchState = .responderActiveLongPressIn then
    self.receiveSignal clock os .longPressDetected event
  else .ok self

/-! ### Event handlers -/

def onResponderGrant : Except InvalidSignal Pressability := do
  let self := self.cancelPressOutDelayTimeout
  let self := { self with
    responderID := some event.currentTarget
    touchState := .notResponder }
  let self ← self.receiveSignal clock os .responderGrant event
  let delayPressIn := normalizeDelay self.config.delayPressIn 0 0
  let self ←
    if delayPressIn > 0 then pure (self.setTimeout .press (.receiveDelay event) delayPressIn)
    else self.receiveSignal clock os .delay event
  let delayLongPress :=
    normalizeDelay self.config.delayLongPress 10 (defaultLongPressDelayMs - delayPressIn)
  return self.setTimeout .longPress (.handleLongPress event) (delayLongPress + delayPressIn)

/-- There is always a touch. -/
def onResponderMove : Except InvalidSignal Pressability :=
  let self := if self.config.onPressMove then self.call (.onPressMove event) else self
  match self.responderRegion with
  | none => .ok self
  | some responderRegion =>
    let touch := getTouchFromPressEvent event
    let self :=
      if self.touchActivatePosition.any (movedFar · touch) then self.cancelLongPressDelayTimeout
      else self
    if self.isTouchWithinResponderRegion touch responderRegion then
      self.receiveSignal clock os .enterPressRect event
    else self.cancelLongPressDelayTimeout.receiveSignal clock os .leavePressRect event

def onResponderRelease : Except InvalidSignal Pressability :=
  self.receiveSignal clock os .responderRelease event

def onResponderTerminate : Except InvalidSignal Pressability :=
  self.receiveSignal clock os .responderTerminated event

/-- Where touches only come from fingers there are no handlers of mouse events. -/
def hasMouseEvents : PlatformOS → Bool
  | .ios | .android => false
  | .macos | .web => true

def onMouseEnter (isHoverEnabled : Bool) : Pressability :=
  if isHoverEnabled then
    let self := { self with isHovered := true }.cancelHoverOutDelayTimeout
    if self.config.onHoverIn then
      let delayHoverIn := normalizeDelay self.config.delayHoverIn 0 0
      if delayHoverIn > 0 then self.setTimeout .hoverIn .onHoverIn delayHoverIn
      else self.call .onHoverIn
    else self
  else self

/-- The timer of a leave is kept in the field of the timer of an enter. -/
def onMouseLeave : Pressability :=
  if self.isHovered then
    let self := { self with isHovered := false }.cancelHoverInDelayTimeout
    if self.config.onHoverOut then
      let delayHoverOut := normalizeDelay self.config.delayHoverOut 0 0
      if delayHoverOut > 0 then self.setTimeout .hoverIn .onHoverOut delayHoverOut
      else self.call .onHoverOut
    else self
  else self

def callBack : TimerCallback → Except InvalidSignal Pressability
  | .receiveDelay event => self.receiveSignal clock os .delay event
  | .handleLongPress event => self.handleLongPress clock os event
  | .onPressOut event => .ok (self.call (.onPressOut event))
  | .onHoverIn => .ok (self.call .onHoverIn)
  | .onHoverOut => .ok (self.call .onHoverOut)

def fireTimer (id : ℕ) : Except InvalidSignal Pressability :=
  match self.timers.find? (·.id = id) with
  | none => .ok self
  | some timer =>
    { self with timers := self.timers.filter (·.id ≠ id) }.callBack clock os timer.callback

end

end Pressability

inductive PressabilityEvent where
  | responderGrant (event : Pressability.PressEvent)
  | responderMove (event : Pressability.PressEvent)
  | responderRelease (event : Pressability.PressEvent)
  | responderTerminate (event : Pressability.PressEvent)
  | measured (left top width height pageX pageY : ℚ)
  | timer (id : ℕ)
  | mouseEnter (isHoverEnabled : Bool)
  | mouseLeave
  | configure (config : Pressability.PressabilityConfig)
  | reset

namespace Pressability

def handle (clock : ℕ → ℚ) (os : PlatformOS) (self : Pressability) :
    PressabilityEvent → Except InvalidSignal Pressability
  | .responderGrant event => self.onResponderGrant clock os event
  | .responderMove event => self.onResponderMove clock os event
  | .responderRelease event => self.onResponderRelease clock os event
  | .responderTerminate event => self.onResponderTerminate clock os event
  | .measured left top width height pageX pageY =>
    .ok (self.measureCallback left top width height pageX pageY)
  | .timer id => self.fireTimer clock os id
  | .mouseEnter isHoverEnabled =>
    .ok (if hasMouseEvents os then self.onMouseEnter isHoverEnabled else self)
  | .mouseLeave => .ok (if hasMouseEvents os then self.onMouseLeave else self)
  | .configure config => .ok (self.configure config)
  | .reset => .ok self.reset

end Pressability

end ReactNative

