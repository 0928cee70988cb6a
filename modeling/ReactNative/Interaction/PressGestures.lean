import Mathlib.Data.List.Count
import ReactNative.Interaction.Pressability

/-! The responder system grants a press, lets it move, and releases or terminates it. -/
namespace ReactNative

open Runs Pressability List Function TimerCallback

structure PressGestures where
  self : Pressability
  isResponder : Bool := false
  grantedCalls : ℕ := 0
  grantedTimeouts : ℕ := 0

namespace PressGestures

variable (gestures : PressGestures)

/-- The events that can come next: a grant while the view is no responder, moves and the end of the
gesture while it is, and a timer while it is pending. -/
def Allowed : PressabilityEvent → Prop
  | .responderGrant _ => gestures.isResponder = false
  | .responderMove _ | .responderRelease _ | .responderTerminate _ => gestures.isResponder = true
  | .timer id => ∃ timer ∈ gestures.self.timers, timer.id = id
  | .measured .. | .mouseEnter _ | .mouseLeave | .configure _ | .reset => True

instance (gestures : PressGestures) : ∀ event, Decidable (gestures.Allowed event)
  | .responderGrant _ => inferInstanceAs (Decidable (_ = false))
  | .responderMove _ | .responderRelease _ | .responderTerminate _ =>
    inferInstanceAs (Decidable (_ = true))
  | .timer id => inferInstanceAs (Decidable (∃ timer ∈ gestures.self.timers, timer.id = id))
  | .measured .. | .mouseEnter _ | .mouseLeave | .configure _ | .reset => .isTrue trivial

def record (event : PressabilityEvent) (next : Pressability) : PressGestures :=
  match event with
  | .responderGrant _ =>
    ⟨next, true, gestures.self.calls.length, gestures.self.timeouts⟩
  | .responderRelease _ | .responderTerminate _ =>
    { gestures with self := next, isResponder := false }
  | .responderMove _ | .timer _ | .measured .. | .mouseEnter _ | .mouseLeave | .configure _
  | .reset => { gestures with self := next }

/-- There is no next state after an error. -/
def step (clock : ℕ → ℚ) (os : PlatformOS) (gestures : PressGestures) (event : PressabilityEvent) :
    Option PressGestures :=
  match gestures.self.handle clock os event with
  | .error _ => none
  | .ok next => some (gestures.record event next)

def initial (config : PressabilityConfig) : PressGestures := { self := { config := config } }

end PressGestures

namespace Pressability

def Call.isPress : Call → Bool
  | .onPress _ => true
  | _ => false

def Call.isLongPress : Call → Bool
  | .onLongPress _ => true
  | _ => false

namespace TimerCallback

def isDelay : TimerCallback → Bool
  | .receiveDelay _ => true
  | _ => false

def isLongPress : TimerCallback → Bool
  | .handleLongPress _ => true
  | _ => false

def isPressOut : TimerCallback → Bool
  | .onPressOut _ => true
  | _ => false

/-- The timers that send a signal. -/
def isSignal (callback : TimerCallback) : Bool := callback.isDelay || callback.isLongPress

theorem notSignal_of_isPressOut {callback : TimerCallback} (isPressOut : callback.isPressOut = true) :
    callback.isDelay = false ∧ callback.isLongPress = false := by
  cases callback with
  | onPressOut => exact ⟨rfl, rfl⟩
  | _ => cases isPressOut

end TimerCallback

end Pressability

namespace PressGestures

variable (gestures : PressGestures)

def callsOfGesture : List Call := gestures.self.calls.drop gestures.grantedCalls

def newCalls (gestures next : PressGestures) : List Call :=
  next.self.calls.drop gestures.self.calls.length

/-- A gesture presses at most once, and has no timer left when it is over but the one of
`onPressOut`. -/
structure PressesOnce : Prop where
  press : gestures.callsOfGesture.countP Call.isPress ≤ 1
  longPress : gestures.callsOfGesture.countP Call.isLongPress ≤ 1
  timers : ∀ timer ∈ gestures.self.timers, timer.callback.isSignal = true →
    gestures.isResponder = true ∧ gestures.grantedTimeouts ≤ timer.id

/-- `onPress` is called when a press is released inside, and `onLongPress` while it is active
inside. -/
structure PressesInside (event : PressabilityEvent) (next : PressGestures) : Prop where
  press : ∀ call ∈ gestures.newCalls next, call.isPress = true →
    (∃ release, event = .responderRelease release) ∧ isPressInSignal gestures.self.touchState = true
  longPress : ∀ call ∈ gestures.newCalls next, call.isLongPress = true →
    isActiveSignal gestures.self.touchState = true

end PressGestures

namespace Pressability

/-! ### What the parts of a signal leave -/

/-- The state goes on with so many presses and long presses called. The timers that send signals
stay, with their fields, and what is new waits to call `onPressOut`. -/
structure Continues (presses longPresses : ℕ) (before after : Pressability) : Prop where
  config : after.config = before.config
  responderID : after.responderID = before.responderID
  touchState : after.touchState = before.touchState
  timeouts : before.timeouts ≤ after.timeouts
  press : after.delayTimeout .press = before.delayTimeout .press
  longPress : after.delayTimeout .longPress = before.delayTimeout .longPress
  timers : ∀ timer ∈ after.timers, timer ∈ before.timers ∨
    timer.callback.isPressOut = true ∧ before.timeouts ≤ timer.id ∧ timer.id < after.timeouts
  calls : ∃ new, after.calls = before.calls ++ new ∧ new.countP Call.isPress = presses ∧
    new.countP Call.isLongPress = longPresses

namespace Continues

variable {presses longPresses : ℕ} {before middle after : Pressability}

theorem refl (self : Pressability) : Continues 0 0 self self :=
  ⟨rfl, rfl, rfl, Nat.le_refl _, rfl, rfl, fun _ => .inl, [], by simp, rfl, rfl⟩

theorem trans {more moreLong : ℕ} (first : Continues presses longPresses before middle)
    (second : Continues more moreLong middle after) :
    Continues (presses + more) (longPresses + moreLong) before after := by
  obtain ⟨new, calls, press, longPress⟩ := first.calls
  obtain ⟨others, callsAfter, pressAfter, longPressAfter⟩ := second.calls
  refine ⟨second.config.trans first.config, second.responderID.trans first.responderID,
    second.touchState.trans first.touchState, first.timeouts.trans second.timeouts,
    second.press.trans first.press, second.longPress.trans first.longPress, ?_, new ++ others, ?_⟩
  · intro timer member
    rcases second.timers timer member with old | ⟨isPressOut, notBefore, known⟩
    · rcases first.timers timer old with older | ⟨isPressOut, notBefore, known⟩
      · exact .inl older
      · exact .inr ⟨isPressOut, notBefore, known.trans_le second.timeouts⟩
    · exact .inr ⟨isPressOut, first.timeouts.trans notBefore, known⟩
  · simp [calls, callsAfter, press, longPress, pressAfter, longPressAfter]

theorem trans_quiet (first : Continues 0 0 before middle)
    (second : Continues presses longPresses middle after) :
    Continues presses longPresses before after := by
  simpa using first.trans second

theorem trans_press (first : Continues 0 longPresses before middle)
    (second : Continues presses 0 middle after) : Continues presses longPresses before after := by
  simpa using first.trans second

end Continues

variable (clock : ℕ → ℚ) (os : PlatformOS) (event : PressEvent)

theorem call_continues {presses longPresses : ℕ} (self : Pressability) (call : Call)
    (press : [call].countP Call.isPress = presses)
    (longPress : [call].countP Call.isLongPress = longPresses) :
    Continues presses longPresses self (self.call call) :=
  ⟨rfl, rfl, rfl, Nat.le_refl _, rfl, rfl, fun _ => .inl, [call], rfl, press, longPress⟩

variable (self : Pressability)

theorem measureResponderRegion_continues : Continues 0 0 self self.measureResponderRegion := by
  unfold measureResponderRegion
  split
  · exact .refl self
  · exact call_continues self _ rfl rfl

theorem activate_continues : Continues 0 0 self (self.activate clock event) := by
  have began : Continues 0 0 self { self with
      touchActivatePosition := some (getTouchFromPressEvent event)
      touchActivateTime := some (clock self.readings)
      readings := self.readings + 1 } :=
    ⟨rfl, rfl, rfl, Nat.le_refl _, rfl, rfl, fun _ => .inl, [], by simp, rfl, rfl⟩
  unfold activate
  dsimp only
  split
  · exact began.trans_quiet (call_continues _ _ rfl rfl)
  · exact began

theorem setTimeout_continues (delay : ℚ) :
    Continues 0 0 self (self.setTimeout .pressOut (.onPressOut event) delay) := by
  refine ⟨rfl, rfl, rfl, Nat.le_succ _, rfl, rfl, ?_, [], by simp [setTimeout], rfl, rfl⟩
  intro timer member
  rcases mem_append.mp member with old | new
  · exact .inl old
  · obtain rfl := mem_singleton.mp new
    exact .inr ⟨rfl, Nat.le_refl _, Nat.lt_succ_self _⟩

theorem deactivate_continues : Continues 0 0 self (self.deactivate clock event) := by
  have read : Continues 0 0 self { self with readings := self.readings + 1 } :=
    ⟨rfl, rfl, rfl, Nat.le_refl _, rfl, rfl, fun _ => .inl, [], by simp, rfl, rfl⟩
  have ended : ∀ after, Continues 0 0 self after →
      Continues 0 0 self { after with touchActivateTime := none } :=
    fun after went => ⟨went.config, went.responderID, went.touchState, went.timeouts, went.press,
      went.longPress, went.timers, went.calls⟩
  unfold deactivate
  dsimp only
  apply ended
  split
  · split
    · exact read.trans_quiet (setTimeout_continues event _ _)
    · exact read.trans_quiet (call_continues _ _ rfl rfl)
  · exact .refl self

theorem releasePress_continues (prevState nextState : TouchState) (self : Pressability) :
    ∃ presses ≤ 1, Continues presses 0 self
      (self.releasePress clock os prevState nextState event) := by
  unfold releasePress
  split
  · dsimp only
    split
    · exact ⟨0, Nat.zero_le 1, .refl self⟩
    · refine ⟨1, Nat.le_refl 1, Continues.trans_quiet ?_ (call_continues _ _ rfl rfl)⟩
      have activated : ∀ after, Continues 0 0 self after →
          Continues 0 0 self (if (os = .android && !after.config.android_disableSound) = true
            then after.call .playTouchSound else after) := by
        intro after went
        split
        · exact went.trans_quiet (call_continues _ _ rfl rfl)
        · exact went
      apply activated
      split
      · exact (activate_continues clock event self).trans_quiet (deactivate_continues clock event _)
      · exact .refl self
  · exact ⟨0, Nat.zero_le 1, .refl self⟩

/-! ### What a signal leaves -/

structure Held (state : Pressability) : Prop where
  known : ∀ timer ∈ state.timers, timer.id < state.timeouts
  press : ∀ timer ∈ state.timers, timer.callback.isDelay = true →
    state.delayTimeout .press = some timer.id
  longPress : ∀ timer ∈ state.timers, timer.callback.isLongPress = true →
    state.delayTimeout .longPress = some timer.id

theorem cancelDelayTimeout_timers (field : DelayTimeout) (self : Pressability) :
    (cancelDelayTimeout field self).timers =
      self.timers.filter fun timer => self.delayTimeout field ≠ some timer.id := by
  unfold cancelDelayTimeout
  split
  next none => simp [none]
  next timeout held => simp [held, eq_comm]

theorem cancelDelayTimeout_eq (field : DelayTimeout) (self : Pressability) :
    cancelDelayTimeout field self = { self with
      timers := (cancelDelayTimeout field self).timers
      delayTimeout := Function.update self.delayTimeout field none } := by
  unfold cancelDelayTimeout
  split
  next none => rw [← none, update_eq_self]
  next => rfl

variable {self : Pressability}

theorem mem_cancelDelayTimeout {field : DelayTimeout} {timer : PendingTimer} :
    timer ∈ (cancelDelayTimeout field self).timers ↔
      timer ∈ self.timers ∧ self.delayTimeout field ≠ some timer.id := by
  rw [cancelDelayTimeout_timers, mem_filter, decide_eq_true_iff]

/-- What is left after a transition. Its timers are old ones that do not wait to activate the press,
or new ones that wait to call `onPressOut`. -/
structure Transited (prevState : TouchState) (signal : TouchSignal) (before after : Pressability) :
    Prop where
  config : after.config = before.config
  responderID : after.responderID = before.responderID
  timeouts : before.timeouts ≤ after.timeouts
  longPress : isTerminalSignal signal = false →
    after.delayTimeout .longPress = before.delayTimeout .longPress
  timers : ∀ timer ∈ after.timers, timer ∈ before.timers ∧ timer.callback.isDelay = false ∧
        (isTerminalSignal signal = true → timer.callback.isLongPress = false) ∨
      timer.callback.isPressOut = true ∧ before.timeouts ≤ timer.id ∧ timer.id < after.timeouts
  calls : ∃ new, after.calls = before.calls ++ new ∧
    new.countP Call.isPress ≤ (isPressInSignal prevState && signal = .responderRelease).toNat ∧
    new.countP Call.isLongPress ≤ (isPressInSignal prevState && signal = .longPressDetected).toNat

def transitionCalls (prevState nextState : TouchState) (signal : TouchSignal) (self : Pressability) :
    Pressability :=
  let isInitialTransition := prevState = .notResponder && nextState = .responderInactivePressIn
  let isActivationTransition := !isActivationSignal prevState && isActivationSignal nextState
  let self :=
    if isInitialTransition || isActivationTransition then self.measureResponderRegion else self
  let self :=
    if isPressInSignal prevState && signal = .longPressDetected && self.config.onLongPress then
      self.call (.onLongPress event)
    else self
  let self :=
    if !isActiveSignal prevState && isActiveSignal nextState then self.activate clock event
    else if isActiveSignal prevState && !isActiveSignal nextState then self.deactivate clock event
    else self
  if isPressInSignal prevState && signal = .responderRelease then
    self.releasePress clock os prevState nextState event
  else self

theorem performTransitionSideEffects_eq (prevState nextState : TouchState) (signal : TouchSignal)
    (self : Pressability) :
    self.performTransitionSideEffects clock os prevState nextState signal event =
      cancelPressDelayTimeout (transitionCalls clock os event prevState nextState signal
        (if isTerminalSignal signal then
          { self with touchActivatePosition := none }.cancelLongPressDelayTimeout
        else self)) := rfl

theorem transitionCalls_continues (prevState nextState : TouchState) (signal : TouchSignal)
    (self : Pressability) :
    ∃ presses ≤ (isPressInSignal prevState && signal = .responderRelease).toNat,
      ∃ longPresses ≤ (isPressInSignal prevState && signal = .longPressDetected).toNat,
        Continues presses longPresses self
          (self.transitionCalls clock os event prevState nextState signal) := by
  unfold transitionCalls
  dsimp only
  -- One part after the other.
  have measured : ∀ isMeasured : Bool, Continues 0 0 self
      (if isMeasured then self.measureResponderRegion else self) := by
    intro isMeasured
    split
    · exact measureResponderRegion_continues self
    · exact .refl self
  have longPressed : ∀ {before : Pressability}, Continues 0 0 self before →
      ∃ longPresses ≤ (isPressInSignal prevState && signal = .longPressDetected).toNat,
        Continues 0 longPresses self
          (if isPressInSignal prevState && signal = .longPressDetected && before.config.onLongPress
            then before.call (.onLongPress event) else before) := by
    intro before went
    split
    next called =>
      rw [Bool.and_eq_true] at called
      rw [called.1]
      exact ⟨1, Nat.le_refl 1, went.trans_quiet (call_continues _ _ rfl rfl)⟩
    next => exact ⟨0, Nat.zero_le _, went⟩
  have activated : ∀ {before : Pressability} {longPresses : ℕ}, Continues 0 longPresses self before →
      Continues 0 longPresses self
        (if !isActiveSignal prevState && isActiveSignal nextState then before.activate clock event
        else if isActiveSignal prevState && !isActiveSignal nextState then
          before.deactivate clock event
        else before) := by
    intro before longPresses went
    split
    · exact went.trans_press (activate_continues clock event before)
    · split
      · exact went.trans_press (deactivate_continues clock event before)
      · exact went
  obtain ⟨longPresses, few, went⟩ := longPressed (measured _)
  split
  next released =>
    rw [released]
    obtain ⟨presses, one, pressed⟩ := releasePress_continues clock os event prevState nextState _
    exact ⟨presses, one, longPresses, few, (activated went).trans_press pressed⟩
  next => exact ⟨0, Nat.zero_le _, longPresses, few, activated went⟩

theorem performTransitionSideEffects_transited (held : self.Held)
    (prevState nextState : TouchState) (signal : TouchSignal) :
    Transited prevState signal self
      (self.performTransitionSideEffects clock os prevState nextState signal event) := by
  rw [performTransitionSideEffects_eq]
  -- Before the calls the timer of a long press is gone if the gesture ends.
  obtain ⟨began, isBegun, config, responderID, timeouts, press, calls, longPress, timers⟩ :
      ∃ began, began = (if isTerminalSignal signal then
          { self with touchActivatePosition := none }.cancelLongPressDelayTimeout else self) ∧
        began.config = self.config ∧ began.responderID = self.responderID ∧
        began.timeouts = self.timeouts ∧ began.delayTimeout .press = self.delayTimeout .press ∧
        began.calls = self.calls ∧
        (isTerminalSignal signal = false →
          began.delayTimeout .longPress = self.delayTimeout .longPress) ∧
        ∀ timer ∈ began.timers, timer ∈ self.timers ∧
          (isTerminalSignal signal = true → timer.callback.isLongPress = false) := by
    refine ⟨_, rfl, ?_⟩
    split
    next terminal =>
      rw [cancelLongPressDelayTimeout, cancelDelayTimeout_eq]
      refine ⟨rfl, rfl, rfl, rfl, rfl, ?_, ?_⟩
      · intro notTerminal
        rw [terminal] at notTerminal
        cases notTerminal
      · intro timer member
        obtain ⟨old, isOther⟩ := mem_cancelDelayTimeout.mp member
        refine ⟨old, fun _ => ?_⟩
        by_contra isLongPress
        exact isOther (held.longPress timer old (by simpa using isLongPress))
    next notTerminal =>
      exact ⟨rfl, rfl, rfl, rfl, rfl, fun _ => rfl,
        fun timer member => ⟨member, fun terminal => absurd terminal notTerminal⟩⟩
  rw [← isBegun]
  obtain ⟨_, fewPresses, _, fewLong, went⟩ :=
    transitionCalls_continues clock os event prevState nextState signal began
  obtain ⟨new, callsAfter, isPresses, isLong⟩ := went.calls
  rw [cancelPressDelayTimeout, cancelDelayTimeout_eq]
  refine ⟨went.config.trans config, went.responderID.trans responderID, timeouts ▸ went.timeouts,
    fun notTerminal => went.longPress.trans (longPress notTerminal), ?_, new, ?_, ?_, ?_⟩
  · intro timer member
    obtain ⟨present, isOther⟩ := mem_cancelDelayTimeout.mp member
    rw [← timeouts]
    refine (went.timers timer present).imp_left fun old => ?_
    obtain ⟨older, notLong⟩ := timers timer old
    refine ⟨older, ?_, notLong⟩
    by_contra isDelay
    rw [went.press, press] at isOther
    exact isOther (held.press timer older (by simpa using isDelay))
  · rw [← calls]
    exact callsAfter
  · rw [isPresses]
    exact fewPresses
  · rw [isLong]
    exact fewLong

variable {signal : TouchSignal}

theorem receiveSignal_ok (held : self.Held) (responder : self.responderID ≠ none)
    (expected : transitions self.touchState signal ≠ .error) :
    ∃ after, self.receiveSignal clock os signal event = .ok after ∧
      after.touchState = transitions self.touchState signal ∧
      (after = self ∨ self.touchState ≠ after.touchState ∧
        Transited self.touchState signal self after) := by
  unfold receiveSignal
  dsimp only
  rw [if_neg fun unknown => responder unknown.1, if_neg expected]
  split
  next changes =>
    have done := performTransitionSideEffects_transited clock os event held self.touchState
      (transitions self.touchState signal) signal
    exact ⟨_, rfl, rfl, .inr ⟨changes, done.config, done.responderID, done.timeouts, done.longPress,
      done.timers, done.calls⟩⟩
  next same =>
    rw [not_not] at same
    exact ⟨self, rfl, same, .inl rfl⟩

def isGoing : TouchState → Bool
  | .notResponder | .error => false
  | _ => true

def isLongPressed : TouchState → Bool
  | .responderActiveLongPressIn | .responderActiveLongPressOut => true
  | _ => false

variable {state : TouchState}

theorem transitions_going (going : isGoing state = true)
    (expected : transitions state signal ≠ .error) :
    (isTerminalSignal signal = true → transitions state signal = .notResponder) ∧
      (isTerminalSignal signal = false → isGoing (transitions state signal) = true) := by
  revert going expected
  cases state <;> cases signal <;> decide

theorem transitions_expected (going : isGoing state = true)
    (sent : isTerminalSignal signal = true ∨ signal = .enterPressRect ∨ signal = .leavePressRect) :
    transitions state signal ≠ .error := by
  revert going sent
  cases state <;> cases signal <;> decide

theorem longPressed_transitions (expected : transitions state signal ≠ .error)
    (changes : state ≠ transitions state signal) (notTerminal : isTerminalSignal signal = false) :
    (isLongPressed state).toNat + (isPressInSignal state && signal = .longPressDetected).toNat ≤
      (isLongPressed (transitions state signal)).toNat := by
  revert expected changes notTerminal
  cases state <;> cases signal <;> decide

theorem setTimeout_delayTimeout (self : Pressability) (field : DelayTimeout)
    (callback : TimerCallback) (delay : ℚ) :
    (self.setTimeout field callback delay).delayTimeout =
      Function.update self.delayTimeout field (some self.timeouts) := rfl

theorem setTimeout_held (held : self.Held) {field : DelayTimeout}
    {callback : TimerCallback} (delay : ℚ) (press : field = .press ↔ callback.isDelay = true)
    (longPress : field = .longPress ↔ callback.isLongPress = true)
    (alone : ∀ timer ∈ self.timers, (callback.isDelay = true → timer.callback.isDelay = false) ∧
      (callback.isLongPress = true → timer.callback.isLongPress = false)) :
    (self.setTimeout field callback delay).Held := by
  constructor
  · intro timer member
    rcases mem_append.mp member with old | new
    · exact (held.known timer old).trans (Nat.lt_succ_self _)
    · obtain rfl := mem_singleton.mp new
      exact Nat.lt_succ_self _
  · intro timer member isDelay
    rcases mem_append.mp member with old | new
    · have other : DelayTimeout.press ≠ field := by
        rintro rfl
        have notDelay := (alone timer old).1 (press.mp rfl)
        rw [isDelay] at notDelay
        cases notDelay
      rw [setTimeout_delayTimeout, update_of_ne other]
      exact held.press timer old isDelay
    · obtain rfl := mem_singleton.mp new
      obtain rfl := press.mpr isDelay
      rw [setTimeout_delayTimeout, update_self]
  · intro timer member isLongPress
    rcases mem_append.mp member with old | new
    · have other : DelayTimeout.longPress ≠ field := by
        rintro rfl
        have notLong := (alone timer old).2 (longPress.mp rfl)
        rw [isLongPress] at notLong
        cases notLong
      rw [setTimeout_delayTimeout, update_of_ne other]
      exact held.longPress timer old isLongPress
    · obtain rfl := mem_singleton.mp new
      obtain rfl := longPress.mpr isLongPress
      rw [setTimeout_delayTimeout, update_self]

theorem cancelDelayTimeout_held (held : self.Held) (field : DelayTimeout) :
    (cancelDelayTimeout field self).Held := by
  -- A timer that is left was not in the field that was cleared.
  have kept : ∀ timer ∈ (cancelDelayTimeout field self).timers, ∀ other,
      self.delayTimeout other = some timer.id →
      (cancelDelayTimeout field self).delayTimeout other = some timer.id := by
    intro timer member other held
    have differs : other ≠ field := by
      rintro rfl
      exact (mem_cancelDelayTimeout.mp member).2 held
    rw [cancelDelayTimeout_eq]
    exact (update_of_ne differs _ _).trans held
  constructor
  · intro timer member
    have known := held.known timer (mem_cancelDelayTimeout.mp member).1
    rw [cancelDelayTimeout_eq]
    exact known
  · intro timer member isDelay
    exact kept timer member _ (held.press timer (mem_cancelDelayTimeout.mp member).1 isDelay)
  · intro timer member isLongPress
    exact kept timer member _ (held.longPress timer (mem_cancelDelayTimeout.mp member).1 isLongPress)

namespace Transited

variable {prevState : TouchState} {signal : TouchSignal} {before after : Pressability}
  {timer : PendingTimer}

section

variable (transited : Transited prevState signal before after)
include transited

theorem notDelay (member : timer ∈ after.timers) : timer.callback.isDelay = false := by
  rcases transited.timers timer member with ⟨-, notDelay, -⟩ | ⟨isPressOut, -⟩
  · exact notDelay
  · exact (notSignal_of_isPressOut isPressOut).1

theorem old_of_isLongPress (member : timer ∈ after.timers)
    (isLongPress : timer.callback.isLongPress = true) :
    timer ∈ before.timers ∧ isTerminalSignal signal = false := by
  rcases transited.timers timer member with ⟨old, -, notLong⟩ | ⟨isPressOut, -⟩
  · refine ⟨old, ?_⟩
    by_contra terminal
    rw [notLong (by simpa using terminal)] at isLongPress
    cases isLongPress
  · rw [(notSignal_of_isPressOut isPressOut).2] at isLongPress
    cases isLongPress

theorem held (held : before.Held) : after.Held := by
  constructor
  · intro timer member
    rcases transited.timers timer member with ⟨old, -⟩ | ⟨-, -, known⟩
    · exact (held.known timer old).trans_le transited.timeouts
    · exact known
  · intro timer member isDelay
    rw [transited.notDelay member] at isDelay
    cases isDelay
  · intro timer member isLongPress
    obtain ⟨old, notTerminal⟩ := transited.old_of_isLongPress member isLongPress
    exact (transited.longPress notTerminal).trans (held.longPress timer old isLongPress)

end

end Transited

end Pressability

namespace PressGestures

/-! ### Runs -/

structure Inv (gestures : PressGestures) : Prop where
  held : gestures.self.Held
  waiting : ∀ timer ∈ gestures.self.timers, timer.callback.isDelay = true →
    gestures.self.touchState = .responderInactivePressIn
  timers : ∀ timer ∈ gestures.self.timers, timer.callback.isSignal = true →
    gestures.isResponder = true ∧ gestures.grantedTimeouts ≤ timer.id
  granted : gestures.grantedCalls ≤ gestures.self.calls.length
  grantedTimeouts : gestures.grantedTimeouts ≤ gestures.self.timeouts
  going : gestures.isResponder = true →
    isGoing gestures.self.touchState = true ∧ gestures.self.responderID ≠ none
  idle : gestures.isResponder = false → gestures.self.touchState = .notResponder
  press : gestures.callsOfGesture.countP Call.isPress ≤ (!gestures.isResponder).toNat
  longPress : gestures.callsOfGesture.countP Call.isLongPress ≤
    (isLongPressed gestures.self.touchState || !gestures.isResponder).toNat

variable {gestures : PressGestures}

theorem Inv.pressesOnce (inv : gestures.Inv) : gestures.PressesOnce :=
  ⟨inv.press.trans (Bool.toNat_le _), inv.longPress.trans (Bool.toNat_le _), inv.timers⟩

theorem initial_inv (config : PressabilityConfig) : (initial config).Inv where
  held := ⟨nofun, nofun, nofun⟩
  waiting _ member := absurd member not_mem_nil
  timers _ member := absurd member not_mem_nil
  granted := Nat.le_refl 0
  grantedTimeouts := Nat.le_refl 0
  going responder := by cases responder
  idle _ := rfl
  press := Nat.zero_le _
  longPress := Nat.zero_le _

theorem callsOfGesture_append (inv : gestures.Inv) (next : PressGestures) {new : List Call}
    (granted : next.grantedCalls = gestures.grantedCalls)
    (calls : next.self.calls = gestures.self.calls ++ new) :
    next.callsOfGesture = gestures.callsOfGesture ++ new := by
  rw [callsOfGesture, callsOfGesture, calls, granted, drop_append_of_le_length inv.granted]

/-- What is new among the calls is a press or a long press only if it may be one. -/
def CallsOnly (mayPress mayLongPress : Prop) (before after : Pressability) : Prop :=
  ∃ new, after.calls = before.calls ++ new ∧
    ∀ call ∈ new, (call.isPress = true → mayPress) ∧ (call.isLongPress = true → mayLongPress)

variable {mayPress mayLongPress : Prop} {before middle after : Pressability}

theorem CallsOnly.trans (first : CallsOnly mayPress mayLongPress before middle)
    (second : CallsOnly mayPress mayLongPress middle after) :
    CallsOnly mayPress mayLongPress before after := by
  obtain ⟨new, calls, only⟩ := first
  obtain ⟨others, callsAfter, onlyAfter⟩ := second
  refine ⟨new ++ others, by rw [callsAfter, calls, append_assoc], ?_⟩
  intro call member
  exact (mem_append.mp member).elim (only call) (onlyAfter call)

structure Quiet (before after : Pressability) : Prop where
  held : after.Held
  timeouts : before.timeouts ≤ after.timeouts
  touchState : after.touchState = before.touchState
  responderID : after.responderID = before.responderID
  timers : ∀ timer ∈ after.timers, timer ∈ before.timers ∨ timer.callback.isSignal = false
  calls : ∃ new, after.calls = before.calls ++ new ∧ new.countP Call.isPress = 0 ∧
    new.countP Call.isLongPress = 0

theorem Inv.quiet (inv : gestures.Inv) {next : Pressability} (quiet : Quiet gestures.self next) :
    Inv { gestures with self := next } := by
  obtain ⟨_, calls, press, longPress⟩ := quiet.calls
  have old : ∀ timer ∈ next.timers, timer.callback.isSignal = true → timer ∈ gestures.self.timers := by
    intro timer member isSignal
    refine (quiet.timers timer member).resolve_right fun other => ?_
    rw [isSignal] at other
    cases other
  have calledNow := callsOfGesture_append inv { gestures with self := next } rfl calls
  constructor
  · exact quiet.held
  · intro timer member isDelay
    rw [quiet.touchState]
    exact inv.waiting timer (old timer member (by rw [TimerCallback.isSignal, isDelay]; rfl)) isDelay
  · exact fun timer member isSignal => inv.timers timer (old timer member isSignal) isSignal
  · rw [calls, length_append]
    exact inv.granted.trans (Nat.le_add_right _ _)
  · exact inv.grantedTimeouts.trans quiet.timeouts
  · rw [quiet.touchState, quiet.responderID]
    exact inv.going
  · rw [quiet.touchState]
    exact inv.idle
  · rw [calledNow, countP_append, press]
    exact inv.press
  · rw [calledNow, countP_append, longPress, quiet.touchState]
    exact inv.longPress

variable (clock : ℕ → ℚ) (os : PlatformOS) (event : PressEvent) {signal : TouchSignal}

/-- **A signal of a gesture** is no error and keeps what is known, if the table expects it. -/
theorem Inv.receiveSignal (inv : gestures.Inv) (responder : gestures.isResponder = true)
    (expected : transitions gestures.self.touchState signal ≠ .error) :
    ∃ after, gestures.self.receiveSignal clock os signal event = .ok after ∧
      Inv { gestures with self := after, isResponder := !isTerminalSignal signal } ∧
      CallsOnly (isPressInSignal gestures.self.touchState = true ∧ signal = .responderRelease)
        (isPressInSignal gestures.self.touchState = true ∧ signal = .longPressDetected)
        gestures.self after ∧
      (∀ timer ∈ after.timers, timer.callback.isLongPress = true → timer ∈ gestures.self.timers) ∧
      after.touchState = transitions gestures.self.touchState signal := by
  obtain ⟨going, known⟩ := inv.going responder
  obtain ⟨after, received, nextState, outcome⟩ :=
    receiveSignal_ok clock os event inv.held known expected
  refine ⟨after, received, ?_⟩
  obtain ⟨ends, goesOn⟩ := transitions_going going expected
  rcases outcome with rfl | ⟨changes, transited⟩
  · -- The end of a gesture changes the state.
    have notTerminal : isTerminalSignal signal = false := by
      by_contra terminal
      rw [← nextState] at ends
      rw [ends (by simpa using terminal)] at going
      cases going
    refine ⟨?_, ?_, fun _ member _ => member, nextState⟩
    · rw [notTerminal, Bool.not_false, ← responder]
      exact inv
    · exact ⟨[], (append_nil _).symm, nofun⟩
  · obtain ⟨new, calls, press, longPress⟩ := transited.calls
    have calledNow := callsOfGesture_append inv
      { gestures with self := after, isResponder := !isTerminalSignal signal } rfl calls
    have before := inv.press
    have beforeLong := inv.longPress
    rw [responder, Bool.not_true, Bool.toNat_false] at before
    rw [responder, Bool.not_true, Bool.or_false] at beforeLong
    refine ⟨?_, ?_, ?_, nextState⟩
    · constructor
      · exact transited.held inv.held
      · intro timer member isDelay
        rw [transited.notDelay member] at isDelay
        cases isDelay
      · intro timer member isSignal
        rw [TimerCallback.isSignal, transited.notDelay member, Bool.false_or] at isSignal
        obtain ⟨old, notTerminal⟩ := transited.old_of_isLongPress member isSignal
        have oldSignal := inv.timers timer old (by rw [TimerCallback.isSignal, isSignal, Bool.or_true])
        exact ⟨by rw [notTerminal, Bool.not_false], oldSignal.2⟩
      · dsimp only
        rw [calls, length_append]
        exact inv.granted.trans (Nat.le_add_right _ _)
      · exact inv.grantedTimeouts.trans transited.timeouts
      · intro notTerminal
        dsimp only at notTerminal ⊢
        rw [nextState, transited.responderID]
        exact ⟨goesOn (by simpa using notTerminal), known⟩
      · intro terminal
        dsimp only at terminal ⊢
        rw [nextState]
        exact ends (by simpa using terminal)
      · -- A press is called at the end only.
        rw [calledNow, countP_append, Bool.not_not]
        refine (Nat.add_le_add before press).trans ?_
        cases signal <;> simp [isTerminalSignal, Bool.toNat_le]
      · rw [calledNow, countP_append, Bool.not_not]
        dsimp only
        rw [nextState]
        refine (Nat.add_le_add beforeLong longPress).trans ?_
        cases terminal : isTerminalSignal signal with
        | false =>
          rw [Bool.or_false]
          exact longPressed_transitions expected (nextState ▸ changes) terminal
        | true =>
          have other : signal ≠ .longPressDetected := by
            rintro rfl
            cases terminal
          simp [other, Bool.toNat_le]
    · refine ⟨new, calls, ?_⟩
      intro call member
      constructor
      · intro isPress
        have one := (countP_pos_iff.mpr ⟨call, member, isPress⟩).trans_le press
        simpa [Nat.pos_iff_ne_zero] using one
      · intro isLongPress
        have one := (countP_pos_iff.mpr ⟨call, member, isLongPress⟩).trans_le longPress
        simpa [Nat.pos_iff_ne_zero] using one
    · exact fun timer member isLongPress => (transited.old_of_isLongPress member isLongPress).1

/-! ### Quiet changes -/

theorem Quiet.calls_only (quiet : Quiet before after) (mayPress mayLongPress : Prop) :
    CallsOnly mayPress mayLongPress before after := by
  obtain ⟨new, calls, press, longPress⟩ := quiet.calls
  refine ⟨new, calls, fun call member => ⟨fun isPress => ?_, fun isLongPress => ?_⟩⟩
  · exact absurd isPress (countP_eq_zero.mp press call member)
  · exact absurd isLongPress (countP_eq_zero.mp longPress call member)

variable {self : Pressability}

theorem Quiet.refl (held : self.Held) : Quiet self self :=
  ⟨held, Nat.le_refl _, rfl, rfl, fun _ => .inl, [], (append_nil _).symm, rfl, rfl⟩

theorem Quiet.trans (first : Quiet before middle) (second : Quiet middle after) :
    Quiet before after := by
  obtain ⟨new, calls, press, longPress⟩ := first.calls
  obtain ⟨others, callsAfter, pressAfter, longPressAfter⟩ := second.calls
  refine ⟨second.held, first.timeouts.trans second.timeouts, second.touchState.trans first.touchState,
    second.responderID.trans first.responderID, ?_, new ++ others, ?_, ?_, ?_⟩
  · intro timer member
    exact (second.timers timer member).elim (first.timers timer) .inr
  · rw [callsAfter, calls, append_assoc]
  · rw [countP_append, press, pressAfter]
  · rw [countP_append, longPress, longPressAfter]

theorem call_quiet (held : self.Held) {call : Call} (press : call.isPress = false)
    (longPress : call.isLongPress = false) : Quiet self (self.call call) := by
  refine ⟨⟨held.known, held.press, held.longPress⟩, Nat.le_refl _, rfl, rfl, fun _ => .inl, [call],
    rfl, ?_, ?_⟩
  · simp [press]
  · simp [longPress]

theorem cancelDelayTimeout_quiet (held : self.Held) (field : DelayTimeout) :
    Quiet self (cancelDelayTimeout field self) := by
  refine ⟨cancelDelayTimeout_held held field, ?_, ?_, ?_, ?_, [], ?_, rfl, rfl⟩
  · rw [cancelDelayTimeout_eq]
  · rw [cancelDelayTimeout_eq]
  · rw [cancelDelayTimeout_eq]
  · exact fun timer member => .inl (mem_cancelDelayTimeout.mp member).1
  · rw [cancelDelayTimeout_eq, append_nil]

variable {field : DelayTimeout} {callback : TimerCallback}

section

variable (held : self.Held)
include held

theorem setTimeout_quiet (delay : ℚ) (other : field ≠ .press ∧ field ≠ .longPress)
    (isSignal : callback.isSignal = false) : Quiet self (self.setTimeout field callback delay) := by
  obtain ⟨notDelay, notLong⟩ := Bool.or_eq_false_iff.mp isSignal
  refine ⟨setTimeout_held held delay ?_ ?_ ?_, Nat.le_succ _, rfl, rfl, ?_, [],
    (append_nil _).symm, rfl, rfl⟩
  · simp [other.1, notDelay]
  · simp [other.2, notLong]
  · simp [notDelay, notLong]
  · intro timer member
    rcases mem_append.mp member with old | new
    · exact .inl old
    · obtain rfl := mem_singleton.mp new
      exact .inr isSignal

theorem reset_quiet : Quiet self self.reset := by
  have hoverIn := cancelDelayTimeout_quiet held .hoverIn
  have hoverOut := hoverIn.trans (cancelDelayTimeout_quiet hoverIn.held .hoverOut)
  have longPress := hoverOut.trans (cancelDelayTimeout_quiet hoverOut.held .longPress)
  have press := longPress.trans (cancelDelayTimeout_quiet longPress.held .press)
  exact press.trans (cancelDelayTimeout_quiet press.held .pressOut)

theorem hover_quiet (isHovered isGiven : Bool) (delay : ℚ) {call : Call}
    (isHover : callback.isSignal = false ∧ call.isPress = false ∧ call.isLongPress = false) :
    Quiet self (let hovered := cancelDelayTimeout field { self with isHovered := isHovered }
      if isGiven then
        if delay > 0 then hovered.setTimeout .hoverIn callback delay else hovered.call call
      else hovered) := by
  have hovered : Quiet self { self with isHovered := isHovered } :=
    ⟨⟨held.known, held.press, held.longPress⟩, Nat.le_refl _, rfl, rfl, fun _ => .inl, [],
      (append_nil _).symm, rfl, rfl⟩
  have cancelled := hovered.trans (cancelDelayTimeout_quiet hovered.held field)
  dsimp only
  split
  · split
    · exact cancelled.trans (setTimeout_quiet cancelled.held _ (by decide) isHover.1)
    · exact cancelled.trans (call_quiet cancelled.held isHover.2.1 isHover.2.2)
  · exact cancelled

theorem onMouseEnter_quiet (isHoverEnabled : Bool) :
    Quiet self (self.onMouseEnter isHoverEnabled) := by
  unfold onMouseEnter
  split
  · exact hover_quiet held true _ _ ⟨rfl, rfl, rfl⟩
  · exact .refl held

theorem onMouseLeave_quiet : Quiet self self.onMouseLeave := by
  unfold onMouseLeave
  split
  · exact hover_quiet held false _ _ ⟨rfl, rfl, rfl⟩
  · exact .refl held

theorem measureCallback_quiet (left top width height pageX pageY : ℚ) :
    Quiet self (self.measureCallback left top width height pageX pageY) := by
  unfold measureCallback
  split
  · exact .refl held
  · exact ⟨⟨held.known, held.press, held.longPress⟩, Nat.le_refl _, rfl, rfl, fun _ => .inl, [],
      (append_nil _).symm, rfl, rfl⟩

theorem removeTimer_quiet (id : ℕ) :
    Quiet self { self with timers := self.timers.filter (·.id ≠ id) } := by
  have old : ∀ timer ∈ self.timers.filter (·.id ≠ id), timer ∈ self.timers :=
    fun timer member => mem_of_mem_filter member
  exact ⟨⟨fun timer member => held.known timer (old timer member),
    fun timer member => held.press timer (old timer member),
    fun timer member => held.longPress timer (old timer member)⟩, Nat.le_refl _, rfl, rfl,
    fun timer member => .inl (old timer member), [], (append_nil _).symm, rfl, rfl⟩

end

/-! ### Events -/

/-- An event is no error, keeps what is known, and calls for a press only where it may. -/
def Handled (gestures : PressGestures) (event : PressabilityEvent)
    (result : Except InvalidSignal Pressability) : Prop :=
  ∃ next, result = .ok next ∧ Inv (gestures.record event next) ∧
    CallsOnly ((∃ release, event = .responderRelease release) ∧
        isPressInSignal gestures.self.touchState = true)
      (isActiveSignal gestures.self.touchState = true) gestures.self next

theorem Inv.signalAfter (inv : gestures.Inv) {next : Pressability}
    (quiet : Quiet gestures.self next) (responder : gestures.isResponder = true)
    (expected : transitions gestures.self.touchState signal ≠ .error) :
    ∃ after, next.receiveSignal clock os signal event = .ok after ∧
      Inv { gestures with self := after, isResponder := !isTerminalSignal signal } ∧
      CallsOnly (isPressInSignal gestures.self.touchState = true ∧ signal = .responderRelease)
        (isPressInSignal gestures.self.touchState = true ∧ signal = .longPressDetected)
        gestures.self after := by
  have expectedNext : transitions next.touchState signal ≠ .error := by
    rw [quiet.touchState]
    exact expected
  obtain ⟨after, received, invAfter, calls, -⟩ :=
    Inv.receiveSignal clock os event (inv.quiet quiet) responder expectedNext
  have sameState : ({ gestures with self := next } : PressGestures).self.touchState =
      gestures.self.touchState := quiet.touchState
  rw [sameState] at calls
  exact ⟨after, received, invAfter, (quiet.calls_only _ _).trans calls⟩

theorem CallsOnly.mono {press longPress : Prop}
    (calls : CallsOnly mayPress mayLongPress before after) (ifPress : mayPress → press)
    (ifLongPress : mayLongPress → longPress) : CallsOnly press longPress before after := by
  obtain ⟨new, eq, only⟩ := calls
  exact ⟨new, eq, fun call member =>
    ⟨fun isPress => ifPress ((only call member).1 isPress),
      fun isLongPress => ifLongPress ((only call member).2 isLongPress)⟩⟩

section

variable (inv : gestures.Inv)
include inv

section

variable (responder : gestures.isResponder = true)
include responder

theorem Inv.onResponderMove :
    Handled gestures (.responderMove event) (gestures.self.onResponderMove clock os event) := by
  have stays : ∀ {next : Pressability} {signal : TouchSignal}, Quiet gestures.self next →
      signal = .enterPressRect ∨ signal = .leavePressRect →
      Handled gestures (.responderMove event) (next.receiveSignal clock os signal event) := by
    intro next signal quiet moves
    have expected := transitions_expected (inv.going responder).1 (.inr moves)
    obtain ⟨after, received, invAfter, calls⟩ :=
      inv.signalAfter clock os event quiet responder expected
    have goesOn : (!isTerminalSignal signal) = gestures.isResponder := by
      rcases moves with rfl | rfl <;> exact responder.symm
    rw [goesOn] at invAfter
    refine ⟨after, received, invAfter, calls.mono ?_ ?_⟩
    · rintro ⟨-, rfl⟩
      rcases moves with isEnter | isLeave
      · cases isEnter
      · cases isLeave
    · rintro ⟨-, rfl⟩
      rcases moves with isEnter | isLeave
      · cases isEnter
      · cases isLeave
  have cancelled : ∀ {next : Pressability}, Quiet gestures.self next →
      Quiet gestures.self next.cancelLongPressDelayTimeout :=
    fun quiet => quiet.trans (cancelDelayTimeout_quiet quiet.held .longPress)
  have began : Quiet gestures.self
      (if gestures.self.config.onPressMove then gestures.self.call (.onPressMove event)
        else gestures.self) := by
    split
    · exact call_quiet inv.held rfl rfl
    · exact .refl inv.held
  unfold Pressability.onResponderMove
  dsimp only
  generalize (if gestures.self.config.onPressMove then gestures.self.call (.onPressMove event)
    else gestures.self) = moved at began
  split
  · exact ⟨moved, rfl, inv.quiet began, began.calls_only _ _⟩
  · have far : Quiet gestures.self
        (if moved.touchActivatePosition.any (movedFar · (getTouchFromPressEvent event))
          then moved.cancelLongPressDelayTimeout else moved) := by
      split
      · exact cancelled began
      · exact began
    generalize (if moved.touchActivatePosition.any (movedFar · (getTouchFromPressEvent event))
      then moved.cancelLongPressDelayTimeout else moved) = near at far
    split
    · exact stays far (.inl rfl)
    · exact stays (cancelled far) (.inr rfl)

theorem Inv.ends (terminal : isTerminalSignal signal = true) :
    ∃ after, gestures.self.receiveSignal clock os signal event = .ok after ∧
      Inv { gestures with self := after, isResponder := false } ∧
      CallsOnly (isPressInSignal gestures.self.touchState = true ∧ signal = .responderRelease)
        (isPressInSignal gestures.self.touchState = true ∧ signal = .longPressDetected)
        gestures.self after := by
  have expected := transitions_expected (inv.going responder).1 (.inl terminal)
  obtain ⟨after, received, invAfter, calls⟩ :=
    inv.signalAfter clock os event (.refl inv.held) responder expected
  rw [terminal] at invAfter
  exact ⟨after, received, invAfter, calls⟩

theorem Inv.onResponderRelease :
    Handled gestures (.responderRelease event)
      (gestures.self.onResponderRelease clock os event) := by
  have terminal : isTerminalSignal .responderRelease = true := rfl
  obtain ⟨after, received, invAfter, calls⟩ := inv.ends clock os event responder terminal
  refine ⟨after, received, invAfter, calls.mono ?_ ?_⟩
  · exact fun may => ⟨⟨event, rfl⟩, may.1⟩
  · rintro ⟨-, same⟩
    cases same

theorem Inv.onResponderTerminate :
    Handled gestures (.responderTerminate event)
      (gestures.self.onResponderTerminate clock os event) := by
  have terminal : isTerminalSignal .responderTerminated = true := rfl
  obtain ⟨after, received, invAfter, calls⟩ := inv.ends clock os event responder terminal
  refine ⟨after, received, invAfter, calls.mono ?_ ?_⟩
  · rintro ⟨-, same⟩
    cases same
  · rintro ⟨-, same⟩
    cases same

end

theorem Inv.fireTimer (id : ℕ) :
    Handled gestures (.timer id) (gestures.self.fireTimer clock os id) := by
  unfold Pressability.fireTimer
  split
  · exact ⟨gestures.self, rfl, inv, (Quiet.refl inv.held).calls_only _ _⟩
  next timer found =>
    have member := mem_of_find?_eq_some found
    have removed := removeTimer_quiet inv.held id
    generalize { gestures.self with timers := gestures.self.timers.filter (·.id ≠ id) } = left
      at removed
    have quietly : ∀ {after : Pressability}, Quiet left after →
        Handled gestures (.timer id) (.ok after) :=
      fun quiet => ⟨_, rfl, inv.quiet (removed.trans quiet), (removed.trans quiet).calls_only _ _⟩
    cases isCallback : timer.callback with
    | receiveDelay event =>
      have isDelay : timer.callback.isDelay = true := by rw [isCallback]; rfl
      have state := inv.waiting timer member isDelay
      have responder := (inv.timers timer member (by rw [isCallback]; rfl)).1
      have expected : transitions gestures.self.touchState .delay ≠ .error := by
        rw [state]
        decide
      obtain ⟨after, received, invAfter, calls⟩ :=
        inv.signalAfter clock os event removed responder expected
      rw [show (!isTerminalSignal .delay) = gestures.isResponder from responder.symm] at invAfter
      refine ⟨after, received, invAfter, calls.mono ?_ ?_⟩
      · rintro ⟨-, same⟩
        cases same
      · rintro ⟨-, same⟩
        cases same
    | handleLongPress event =>
      unfold callBack Pressability.handleLongPress
      dsimp only
      split
      next active =>
        rw [removed.touchState] at active
        have responder := (inv.timers timer member (by rw [isCallback]; rfl)).1
        have expected : transitions gestures.self.touchState .longPressDetected ≠ .error := by
          rcases active with same | same <;> rw [same] <;> decide
        obtain ⟨after, received, invAfter, calls⟩ :=
          inv.signalAfter clock os event removed responder expected
        rw [show (!isTerminalSignal .longPressDetected) = gestures.isResponder from responder.symm]
          at invAfter
        refine ⟨after, received, invAfter, calls.mono ?_ ?_⟩
        · rintro ⟨-, same⟩
          cases same
        · intro
          rcases active with same | same <;> rw [same] <;> rfl
      next => exact quietly (.refl removed.held)
    | onPressOut event => exact quietly (call_quiet removed.held rfl rfl)
    | onHoverIn => exact quietly (call_quiet removed.held rfl rfl)
    | onHoverOut => exact quietly (call_quiet removed.held rfl rfl)

theorem Inv.setTimeout (responder : gestures.isResponder = true) (delay : ℚ)
    (press : field = .press ↔ callback.isDelay = true)
    (longPress : field = .longPress ↔ callback.isLongPress = true)
    (alone : ∀ timer ∈ gestures.self.timers,
      (callback.isDelay = true → timer.callback.isDelay = false) ∧
        (callback.isLongPress = true → timer.callback.isLongPress = false))
    (waits : callback.isDelay = true → gestures.self.touchState = .responderInactivePressIn) :
    Inv { gestures with self := gestures.self.setTimeout field callback delay } where
  held := setTimeout_held inv.held delay press longPress alone
  waiting := by
    intro timer member isDelay
    rcases mem_append.mp member with old | new
    · exact inv.waiting timer old isDelay
    · obtain rfl := mem_singleton.mp new
      exact waits isDelay
  timers := by
    intro timer member isSignal
    rcases mem_append.mp member with old | new
    · exact inv.timers timer old isSignal
    · obtain rfl := mem_singleton.mp new
      exact ⟨responder, inv.grantedTimeouts⟩
  granted := inv.granted
  grantedTimeouts := inv.grantedTimeouts.trans (Nat.le_succ _)
  going := inv.going
  idle := inv.idle
  press := inv.press
  longPress := inv.longPress

theorem Inv.granted_ok (idle : gestures.isResponder = false) :
    ∃ next, { gestures.self.cancelPressOutDelayTimeout with
          responderID := some event.currentTarget
          touchState := .notResponder }.receiveSignal clock os .responderGrant event = .ok next ∧
      Inv (gestures.record (.responderGrant event) next) ∧
      next.touchState = .responderInactivePressIn ∧
      (∀ timer ∈ next.timers, timer.callback.isSignal = false) ∧
      ∀ mayPress mayLongPress, CallsOnly mayPress mayLongPress gestures.self next := by
  have cancelled := cancelDelayTimeout_quiet inv.held .pressOut
  have noSignal : ∀ timer ∈ gestures.self.cancelPressOutDelayTimeout.timers,
      timer.callback.isSignal = false := by
    intro timer member
    by_contra isSignal
    have old := (mem_cancelDelayTimeout.mp member).1
    have responder := (inv.timers timer old (by simpa using isSignal)).1
    rw [idle] at responder
    cases responder
  have sameCalls : gestures.self.cancelPressOutDelayTimeout.calls = gestures.self.calls := by
    rw [cancelPressOutDelayTimeout, cancelDelayTimeout_eq]
  generalize isBegun : { gestures.self.cancelPressOutDelayTimeout with
    responderID := some event.currentTarget
    touchState := TouchState.notResponder } = began
  have held : began.Held := by
    subst isBegun
    exact ⟨cancelled.held.known, cancelled.held.press, cancelled.held.longPress⟩
  have state : began.touchState = .notResponder := by rw [← isBegun]
  have expected : transitions began.touchState .responderGrant ≠ .error := by
    rw [state]
    decide
  obtain ⟨next, received, nextState, outcome⟩ := receiveSignal_ok clock os event held
    (by rw [← isBegun]; exact Option.some_ne_none _) expected
  rw [state] at nextState
  refine ⟨next, received, ?_⟩
  rcases outcome with rfl | ⟨-, transited⟩
  · rw [state] at nextState
    cases nextState
  obtain ⟨new, calls, press, longPress⟩ := transited.calls
  rw [state] at press longPress
  have noPress : new.countP Call.isPress = 0 := Nat.le_zero.mp press
  have noLongPress : new.countP Call.isLongPress = 0 := Nat.le_zero.mp longPress
  have callsAfter : next.calls = gestures.self.calls ++ new := by
    rw [calls, ← isBegun, ← sameCalls]
  have noSignalAfter : ∀ timer ∈ next.timers, timer.callback.isSignal = false := by
    intro timer member
    rcases transited.timers timer member with ⟨old, -⟩ | ⟨isPressOut, -⟩
    · rw [← isBegun] at old
      exact noSignal timer old
    · obtain ⟨notDelay, notLong⟩ := notSignal_of_isPressOut isPressOut
      rw [TimerCallback.isSignal, notDelay, notLong]
      rfl
  have newCalls : (gestures.record (.responderGrant event) next).callsOfGesture = new := by
    rw [callsOfGesture, record]
    dsimp only
    rw [callsAfter, drop_left]
  refine ⟨?_, nextState, noSignalAfter, fun _ _ => ⟨new, callsAfter, fun call member =>
    ⟨fun isPress => absurd isPress (countP_eq_zero.mp noPress call member),
      fun isLongPress => absurd isLongPress (countP_eq_zero.mp noLongPress call member)⟩⟩⟩
  constructor
  · exact transited.held held
  · intro timer member isDelay
    exact nextState
  · intro timer member isSignal
    rw [noSignalAfter timer member] at isSignal
    cases isSignal
  · change gestures.self.calls.length ≤ next.calls.length
    rw [callsAfter, length_append]
    exact Nat.le_add_right _ _
  · refine Nat.le_trans ?_ transited.timeouts
    rw [← isBegun]
    exact cancelled.timeouts
  · intro
    change isGoing next.touchState = true ∧ next.responderID ≠ none
    rw [nextState, transited.responderID, ← isBegun]
    exact ⟨rfl, Option.some_ne_none _⟩
  · nofun
  · rw [newCalls, noPress]
    exact Nat.zero_le _
  · rw [newCalls, noLongPress]
    exact Nat.zero_le _

theorem Inv.onResponderGrant (idle : gestures.isResponder = false) :
    Handled gestures (.responderGrant event) (gestures.self.onResponderGrant clock os event) := by
  obtain ⟨granted, received, invGranted, state, noSignal, calls⟩ :=
    inv.granted_ok clock os event idle
  -- The press is active at once, or a timer waits to activate it.
  obtain ⟨pressed, activated, invPressed, noLong, callsPressed⟩ : ∃ pressed,
      (if normalizeDelay granted.config.delayPressIn 0 0 > 0 then
        pure (granted.setTimeout .press (.receiveDelay event)
          (normalizeDelay granted.config.delayPressIn 0 0))
      else granted.receiveSignal clock os .delay event) = Except.ok pressed ∧
      Inv (gestures.record (.responderGrant event) pressed) ∧
      (∀ timer ∈ pressed.timers, timer.callback.isLongPress = false) ∧
      ∀ mayLongPress, CallsOnly ((∃ release, PressabilityEvent.responderGrant event =
          .responderRelease release) ∧ isPressInSignal gestures.self.touchState = true) mayLongPress
        gestures.self pressed := by
    have apart : ∀ timer ∈ granted.timers, timer.callback.isDelay = false ∧
        timer.callback.isLongPress = false :=
      fun timer member => Bool.or_eq_false_iff.mp (noSignal timer member)
    split
    · refine ⟨_, rfl, ?_, ?_, fun _ => calls _ _⟩
      · exact invGranted.setTimeout rfl _ (by simp [isDelay])
          (by simp [isLongPress])
          (fun timer member => ⟨fun _ => (apart timer member).1,
            fun isLongPress => absurd isLongPress Bool.false_ne_true⟩) fun _ => state
      · intro timer member
        rcases mem_append.mp member with old | new
        · exact (apart timer old).2
        · obtain rfl := mem_singleton.mp new
          rfl
    · have expected : transitions (gestures.record (.responderGrant event) granted).self.touchState
          .delay ≠ .error := by
        change transitions granted.touchState .delay ≠ .error
        rw [state]
        decide
      obtain ⟨pressed, activated, invPressed, callsPressed, noLong, -⟩ :=
        invGranted.receiveSignal clock os event rfl expected
      refine ⟨pressed, activated, invPressed, ?_, ?_⟩
      · intro timer member
        by_contra isLongPress
        have isLong : timer.callback.isLongPress = true := by simpa using isLongPress
        have old := noLong timer member isLong
        rw [(apart timer old).2] at isLong
        cases isLong
      · intro mayLongPress
        refine (calls _ _).trans (callsPressed.mono ?_ ?_)
        · rintro ⟨-, same⟩
          cases same
        · rintro ⟨-, same⟩
          cases same
  refine ⟨pressed.setTimeout .longPress (.handleLongPress event)
    (normalizeDelay pressed.config.delayLongPress 10
      (defaultLongPressDelayMs - normalizeDelay granted.config.delayPressIn 0 0) +
      normalizeDelay granted.config.delayPressIn 0 0), ?_, ?_, callsPressed _⟩
  · unfold Pressability.onResponderGrant
    simp only [received, bind, Except.bind]
    split at activated
    next delayed =>
      cases activated
      rw [if_pos delayed]
      rfl
    next direct =>
      rw [if_neg direct, activated]
      rfl
  · exact invPressed.setTimeout rfl _ (by simp [isDelay])
      (by simp [isLongPress])
      (fun timer member => ⟨fun isDelay => absurd isDelay Bool.false_ne_true,
        fun _ => noLong timer member⟩)
      fun isDelay => absurd isDelay Bool.false_ne_true

theorem Inv.handle {event : PressabilityEvent} (allowed : gestures.Allowed event) :
    Handled gestures event (gestures.self.handle clock os event) := by
  -- Whatever is no part of a gesture is quiet.
  have quietly : ∀ {next : Pressability}, Quiet gestures.self next →
      gestures.record event next = { gestures with self := next } →
      Handled gestures event (.ok next) := by
    intro next quiet same
    refine ⟨next, rfl, ?_, quiet.calls_only _ _⟩
    rw [same]
    exact inv.quiet quiet
  have configured : ∀ config, Quiet gestures.self (gestures.self.configure config) :=
    fun config => ⟨⟨inv.held.known, inv.held.press, inv.held.longPress⟩, Nat.le_refl _, rfl, rfl,
      fun _ => .inl, [], (append_nil _).symm, rfl, rfl⟩
  cases event with
  | responderGrant event => exact inv.onResponderGrant clock os event allowed
  | responderMove event => exact inv.onResponderMove clock os event allowed
  | responderRelease event => exact inv.onResponderRelease clock os event allowed
  | responderTerminate event => exact inv.onResponderTerminate clock os event allowed
  | timer id => exact inv.fireTimer clock os id
  | measured left top width height pageX pageY =>
    exact quietly (measureCallback_quiet inv.held left top width height pageX pageY) rfl
  | configure config => exact quietly (configured config) rfl
  | reset => exact quietly (reset_quiet inv.held) rfl
  | mouseEnter isHoverEnabled =>
    refine quietly ?_ rfl
    split
    · exact onMouseEnter_quiet inv.held isHoverEnabled
    · exact .refl inv.held
  | mouseLeave =>
    refine quietly ?_ rfl
    split
    · exact onMouseLeave_quiet inv.held
    · exact .refl inv.held

theorem Inv.step {event : PressabilityEvent} (allowed : gestures.Allowed event) :
    ∃ next, gestures.step clock os event = some next ∧ next.Inv ∧
      gestures.PressesInside event next := by
  obtain ⟨next, handled, invNext, new, calls, only⟩ := inv.handle clock os allowed
  refine ⟨gestures.record event next, ?_, invNext, ?_⟩
  · rw [PressGestures.step, handled]
  · have same : (gestures.record event next).self = next := by cases event <;> rfl
    have isNew : gestures.newCalls (gestures.record event next) = new := by
      rw [newCalls, same, calls, drop_left]
    constructor
    · rw [isNew]
      exact fun call member => (only call member).1
    · rw [isNew]
      exact fun call member => (only call member).2

end

/-- **Gestures press at most once**, with any configuration and in any order of what the responder
system, the measuring and the timers do: no signal is an error, `onPress` and `onLongPress` are
called at most once in a gesture and only where they may be, and a gesture that is over has no timer
left but the one of `onPressOut`. -/
theorem gestures_pressOnce (config : PressabilityConfig) (events : List PressabilityEvent)
    (allowed : Along (PressGestures.step clock os) Allowed (initial config) events) :
    (∃ final, run (PressGestures.step clock os) (initial config) events = some final ∧
      final.PressesOnce) ∧
    ∀ taken event rest, events = taken ++ event :: rest → ∃ before after,
      run (PressGestures.step clock os) (initial config) taken = some before ∧
        before.step clock os event = some after ∧ before.PressesOnce ∧
          before.PressesInside event after := by
  have goesOn : ∀ {taken}, Along (PressGestures.step clock os) Allowed (initial config) taken →
      ∃ final, run (PressGestures.step clock os) (initial config) taken = some final ∧ final.Inv := by
    intro taken allowed
    refine run_progress ?_ (initial_inv config) allowed
    intro gestures event inv isAllowed
    obtain ⟨next, stepped, invNext, -⟩ := inv.step clock os isAllowed
    exact ⟨next, stepped, invNext⟩
  constructor
  · obtain ⟨final, ran, inv⟩ := goesOn allowed
    exact ⟨final, ran, inv.pressesOnce⟩
  · rintro taken event rest rfl
    obtain ⟨first, later⟩ := along_append allowed
    obtain ⟨before, ran, inv⟩ := goesOn first
    obtain ⟨after, stepped, -, inside⟩ := inv.step clock os (later before ran).1
    exact ⟨before, after, ran, stepped, inv.pressesOnce, inside⟩

def touchDown : PressEvent := { currentTarget := .number 1, nativeEvent := ⟨5, 5⟩ }

def allCallbacks : PressabilityConfig :=
  { onPress := true, onPressIn := true, onPressOut := true, onLongPress := true }

def longTap : List PressabilityEvent :=
  [.responderGrant touchDown, .measured 0 0 10 10 1 1, .timer 0, .responderRelease touchDown,
    .timer 1]

theorem gestures_pressOnce_longTap :
    ∃ final, run (PressGestures.step (fun _ => 0) .macos) (initial allCallbacks) longTap =
      some final ∧ final.PressesOnce :=
  (gestures_pressOnce (fun _ => 0) .macos allCallbacks longTap (by decide +kernel)).1

end PressGestures

end ReactNative

