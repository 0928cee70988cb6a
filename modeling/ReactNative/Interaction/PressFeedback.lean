import ReactNative.Interaction.PressGestures

/-! `onPressIn` and `onPressOut` are called when a press becomes active and when it is so no longer,
the second one perhaps later, by a timer. The timer is cancelled by the next grant only. -/
namespace ReactNative

open Runs Pressability List

namespace Pressability

def feedbackAfter : Bool → Call → Bool
  | _, .onPressIn _ => true
  | _, .onPressOut _ => false
  | told, _ => told

variable (self : Pressability)

def toldPressIn : Bool := self.calls.foldl feedbackAfter false

def TimerCallback.isHover : TimerCallback → Bool
  | .onHoverIn | .onHoverOut => true
  | _ => false

def Settled : Prop :=
  self.toldPressIn = false ∨ ∃ timer ∈ self.timers, timer.callback.isPressOut = true

instance (self : Pressability) : Decidable self.Settled :=
  inferInstanceAs (Decidable (self.toldPressIn = false ∨
    ∃ timer ∈ self.timers, timer.callback.isPressOut = true))

/-- The touch is found outside the region, if that was measured. -/
def leavesRegion (event : PressEvent) : Bool :=
  self.responderRegion.any fun region =>
    !self.isTouchWithinResponderRegion (getTouchFromPressEvent event) region

end Pressability

namespace PressGestures

variable (gestures : PressGestures)

/-- When no timer of a press is pending, the last feedback was `onPressIn` exactly if the press is
active and inside. -/
def FeedbackMatches : Prop :=
  (∀ timer ∈ gestures.self.timers, timer.callback.isHover = true) →
    gestures.self.toldPressIn = isActiveSignal gestures.self.touchState

instance (gestures : PressGestures) : Decidable gestures.FeedbackMatches :=
  inferInstanceAs (Decidable ((∀ timer ∈ gestures.self.timers, timer.callback.isHover = true) →
    gestures.self.toldPressIn = isActiveSignal gestures.self.touchState))

/-- A press that waits to become active has cancelled the `onPressOut` of the one before. -/
def OwesPressOut : Prop :=
  gestures.self.touchState = .responderInactivePressIn ∧ ¬ gestures.self.Settled

instance (gestures : PressGestures) : Decidable gestures.OwesPressOut :=
  inferInstanceAs (Decidable (_ ∧ _))

/-- No `onPressOut` comes while the press is active again, and a press that owes one does not end or
get left before it is active. The configuration stays as it is. -/
def KeepsFeedback : PressabilityEvent → Prop
  | .timer id => isActiveSignal gestures.self.touchState = true →
    ∀ timer ∈ gestures.self.timers, timer.id = id → timer.callback.isPressOut = false
  | .responderMove event => gestures.OwesPressOut → gestures.self.leavesRegion event = false
  | .responderRelease _ => gestures.OwesPressOut → gestures.self.config.onPress = true
  | .responderTerminate _ => ¬ gestures.OwesPressOut
  | .configure _ | .reset => False
  | .responderGrant _ | .measured .. | .mouseEnter _ | .mouseLeave => True

instance (gestures : PressGestures) : ∀ event, Decidable (gestures.KeepsFeedback event)
  | .timer id => inferInstanceAs (Decidable (isActiveSignal gestures.self.touchState = true →
      ∀ timer ∈ gestures.self.timers, timer.id = id → timer.callback.isPressOut = false))
  | .responderMove event =>
    inferInstanceAs (Decidable (gestures.OwesPressOut → gestures.self.leavesRegion event = false))
  | .responderRelease _ =>
    inferInstanceAs (Decidable (gestures.OwesPressOut → gestures.self.config.onPress = true))
  | .responderTerminate _ => inferInstanceAs (Decidable (¬ gestures.OwesPressOut))
  | .configure _ | .reset => .isFalse not_false
  | .responderGrant _ | .measured .. | .mouseEnter _ | .mouseLeave => .isTrue trivial

end PressGestures

namespace Pressability

/-! ### Fields and their timers -/

def TimerCallback.keptIn : TimerCallback → DelayTimeout
  | .receiveDelay _ => .press
  | .handleLongPress _ => .longPress
  | .onPressOut _ => .pressOut
  | .onHoverIn | .onHoverOut => .hoverIn

/-- A field has no timer of another kind, and no two timers have one id. -/
structure Owned (state : Pressability) : Prop where
  timers : ∀ timer ∈ state.timers, timer.id < state.timeouts
  fields : ∀ field id, state.delayTimeout field = some id → id < state.timeouts
  kind : ∀ timer ∈ state.timers, ∀ field, state.delayTimeout field = some timer.id →
    timer.callback.keptIn = field
  distinct : ∀ timer ∈ state.timers, ∀ other ∈ state.timers, timer.id = other.id → timer = other

variable {self : Pressability} {field : DelayTimeout}

theorem Owned.setTimeout (owned : self.Owned)
    {callback : TimerCallback} (kept : callback.keptIn = field) (delay : ℚ) :
    (self.setTimeout field callback delay).Owned where
  timers := by
    intro timer member
    rcases mem_append.mp member with old | new
    · exact (owned.timers timer old).trans (Nat.lt_succ_self _)
    · obtain rfl := mem_singleton.mp new
      exact Nat.lt_succ_self _
  fields := by
    intro other id held
    rw [setTimeout_delayTimeout, Function.update_apply] at held
    split at held
    · cases held
      exact Nat.lt_succ_self _
    · exact (owned.fields other id held).trans (Nat.lt_succ_self _)
  kind := by
    intro timer member other held
    rw [setTimeout_delayTimeout, Function.update_apply] at held
    rcases mem_append.mp member with old | new
    · split at held
      · -- The field has the new timer now.
        have known := owned.timers timer old
        rw [← Option.some.inj held] at known
        exact absurd known (Nat.lt_irrefl _)
      · exact owned.kind timer old other held
    · obtain rfl := mem_singleton.mp new
      split at held
      next same => exact kept.trans same.symm
      next => exact absurd (owned.fields other _ held) (Nat.lt_irrefl _)
  distinct := by
    intro timer member other present same
    rcases mem_append.mp member with old | new
    · rcases mem_append.mp present with otherOld | otherNew
      · exact owned.distinct timer old other otherOld same
      · obtain rfl := mem_singleton.mp otherNew
        exact absurd (same ▸ owned.timers timer old) (Nat.lt_irrefl _)
    · obtain rfl := mem_singleton.mp new
      rcases mem_append.mp present with otherOld | otherNew
      · exact absurd (same ▸ owned.timers other otherOld) (Nat.lt_irrefl _)
      · exact (mem_singleton.mp otherNew).symm

variable {after : Pressability}

theorem Owned.subset (owned : self.Owned) (timeouts : after.timeouts = self.timeouts)
    (timers : ∀ timer ∈ after.timers, timer ∈ self.timers)
    (fields : ∀ field id, after.delayTimeout field = some id →
      self.delayTimeout field = some id) : after.Owned where
  timers timer member := timeouts ▸ owned.timers timer (timers timer member)
  fields field id held := timeouts ▸ owned.fields field id (fields field id held)
  kind timer member field held :=
    owned.kind timer (timers timer member) field (fields field timer.id held)
  distinct timer member other present :=
    owned.distinct timer (timers timer member) other (timers other present)

theorem Owned.cancelDelayTimeout (owned : self.Owned) (field : DelayTimeout) :
    (Pressability.cancelDelayTimeout field self).Owned := by
  apply owned.subset
  · rw [cancelDelayTimeout_eq]
  · exact fun timer member => (mem_cancelDelayTimeout.mp member).1
  · intro other id held
    rw [cancelDelayTimeout_eq] at held
    change Function.update self.delayTimeout field none other = some id at held
    rw [Function.update_apply] at held
    split at held
    · cases held
    · exact held

theorem Owned.mem_cancelDelayTimeout (owned : self.Owned)
    {timer : PendingTimer} (member : timer ∈ self.timers) (other : timer.callback.keptIn ≠ field) :
    timer ∈ (Pressability.cancelDelayTimeout field self).timers :=
  Pressability.mem_cancelDelayTimeout.mpr
    ⟨member, fun held => other (owned.kind timer member field held)⟩

/-! ### Feedback of the parts of a transition -/

structure Keeps (before after : Pressability) : Prop where
  owned : before.Owned → after.Owned
  config : after.config = before.config
  timers : ∀ timer ∈ before.timers, timer ∈ after.timers

theorem Keeps.refl (self : Pressability) : Keeps self self := ⟨id, rfl, fun _ => id⟩

variable {before : Pressability}

theorem Keeps.trans {middle : Pressability} (first : Keeps before middle)
    (second : Keeps middle after) : Keeps before after :=
  ⟨second.owned ∘ first.owned, second.config.trans first.config,
    fun timer member => second.timers timer (first.timers timer member)⟩

theorem Settled.keeps (settled : before.Settled)
    (keeps : Keeps before after) (told : after.toldPressIn = before.toldPressIn) : after.Settled := by
  refine settled.imp (told.trans ·) ?_
  rintro ⟨timer, member, isPressOut⟩
  exact ⟨timer, keeps.timers timer member, isPressOut⟩

@[simp]
theorem call_toldPressIn (self : Pressability) (call : Call) :
    (self.call call).toldPressIn = feedbackAfter self.toldPressIn call := by
  rw [toldPressIn, Pressability.call, foldl_append]
  rfl

theorem call_keeps (self : Pressability) (call : Call) : Keeps self (self.call call) :=
  ⟨fun owned => owned.subset rfl (fun _ => id) fun _ _ => id, rfl, fun _ => id⟩

theorem measureResponderRegion_keeps (self : Pressability) :
    Keeps self self.measureResponderRegion ∧
      self.measureResponderRegion.toldPressIn = self.toldPressIn := by
  unfold measureResponderRegion
  split
  · exact ⟨.refl self, rfl⟩
  · exact ⟨call_keeps self _, call_toldPressIn self _⟩

variable (clock : ℕ → ℚ) (os : PlatformOS) (event : PressEvent)

theorem activate_keeps (self : Pressability) : Keeps self (self.activate clock event) := by
  unfold activate
  dsimp only
  split
  · exact ⟨fun owned => owned.subset rfl (fun _ => id) fun _ _ => id, rfl, fun _ => id⟩
  · exact ⟨fun owned => owned.subset rfl (fun _ => id) fun _ _ => id, rfl, fun _ => id⟩

theorem activate_toldPressIn (given : self.config.onPressIn = true) :
    (self.activate clock event).toldPressIn = true := by
  unfold activate
  rw [if_pos given, call_toldPressIn]
  rfl

theorem deactivate_keeps (self : Pressability) : Keeps self (self.deactivate clock event) := by
  unfold deactivate
  dsimp only
  split
  · split
    · refine ⟨fun owned => ?_, rfl, fun _ => mem_append_left _⟩
      have read : { self with readings := self.readings + 1 }.Owned :=
        owned.subset rfl (fun _ => id) fun _ _ => id
      have kept : (TimerCallback.onPressOut event).keptIn = .pressOut := rfl
      exact (read.setTimeout kept _).subset rfl (fun _ => id) fun _ _ => id
    · exact ⟨fun owned => owned.subset rfl (fun _ => id) fun _ _ => id, rfl, fun _ => id⟩
  · exact ⟨fun owned => owned.subset rfl (fun _ => id) fun _ _ => id, rfl, fun _ => id⟩

theorem deactivate_settled (given : self.config.onPressOut = true) :
    (self.deactivate clock event).Settled := by
  unfold deactivate
  dsimp only
  rw [if_pos given]
  split
  · exact .inr ⟨_, mem_append_right _ (mem_singleton_self _), rfl⟩
  · exact .inl (call_toldPressIn _ _)

def callPress (self : Pressability) : Pressability :=
  let self :=
    if os = .android && !self.config.android_disableSound then self.call .playTouchSound else self
  self.call (.onPress event)

theorem callPress_keeps (self : Pressability) : Keeps self (self.callPress os event) ∧
      (self.callPress os event).toldPressIn = self.toldPressIn := by
  unfold callPress
  split
  · exact ⟨(call_keeps self _).trans (call_keeps _ _), by simp [feedbackAfter]⟩
  · exact ⟨call_keeps self _, by simp [feedbackAfter]⟩

theorem releasePress_feedback (prevState nextState : TouchState)
    (given : self.config.onPressOut = true) :
    Keeps self (self.releasePress clock os prevState nextState event) ∧
      ((self.releasePress clock os prevState nextState event).toldPressIn = self.toldPressIn ∨
        isActiveSignal nextState = false ∧ isActiveSignal prevState = false ∧
          (self.releasePress clock os prevState nextState event).Settled) ∧
      (self.config.onPress = true → isActiveSignal nextState = false →
        isActiveSignal prevState = false →
        (self.releasePress clock os prevState nextState event).Settled) := by
  unfold releasePress
  split
  next pressed =>
    dsimp only
    split
    next cancelled =>
      refine ⟨.refl self, .inl rfl, fun _ _ inactive => ?_⟩
      -- A long press was active.
      simp only [Bool.and_eq_true, decide_eq_true_eq] at cancelled
      rw [cancelled.1.2] at inactive
      cases inactive
    next =>
      split
      next both =>
        simp only [Bool.and_eq_true, Bool.not_eq_true'] at both
        have activated := activate_keeps clock event self
        have deactivated := deactivate_keeps clock event (self.activate clock event)
        have stillGiven : (self.activate clock event).config.onPressOut = true :=
          activated.config ▸ given
        have settled := deactivate_settled clock event stillGiven
        obtain ⟨called, told⟩ := callPress_keeps os event
          ((self.activate clock event).deactivate clock event)
        have settledAfter := settled.keeps called told
        exact ⟨(activated.trans deactivated).trans called, .inr ⟨both.1, both.2, settledAfter⟩,
          fun _ _ _ => settledAfter⟩
      next notBoth =>
        obtain ⟨called, told⟩ := callPress_keeps os event self
        refine ⟨called, .inl told, fun _ nextInactive inactive => ?_⟩
        simp [nextInactive, inactive] at notBoth
  next notPressed =>
    exact ⟨.refl self, .inl rfl, fun pressed => absurd pressed notPressed⟩

theorem transitionCalls_feedback (prevState nextState : TouchState) (signal : TouchSignal)
    (givenIn : self.config.onPressIn = true) (givenOut : self.config.onPressOut = true) :
    let after := self.transitionCalls clock os event prevState nextState signal
    Keeps self after ∧ (isActiveSignal nextState = true →
        after.toldPressIn = (self.toldPressIn || !isActiveSignal prevState)) ∧
      (isActiveSignal nextState = false → isActiveSignal prevState = true ∨ self.Settled ∨
          isPressInSignal prevState = true ∧ signal = .responderRelease ∧
            self.config.onPress = true → after.Settled) := by
  intro after
  -- The calls before the feedback do not matter.
  obtain ⟨began, quiet, told, isAfter⟩ : ∃ began, Keeps self began ∧
      began.toldPressIn = self.toldPressIn ∧
      after = let fed :=
          if !isActiveSignal prevState && isActiveSignal nextState then began.activate clock event
          else if isActiveSignal prevState && !isActiveSignal nextState then
            began.deactivate clock event
          else began
        if isPressInSignal prevState && signal = .responderRelease then
          fed.releasePress clock os prevState nextState event
        else fed := by
    obtain ⟨measured, isMeasured, keeps, told⟩ : ∃ measured,
        (if (prevState = .notResponder && nextState = .responderInactivePressIn) ||
            (!isActivationSignal prevState && isActivationSignal nextState) then
          self.measureResponderRegion else self) = measured ∧ Keeps self measured ∧
        measured.toldPressIn = self.toldPressIn := by
      refine ⟨_, rfl, ?_⟩
      split
      · exact measureResponderRegion_keeps self
      · exact ⟨.refl self, rfl⟩
    refine ⟨if isPressInSignal prevState && signal = .longPressDetected &&
      measured.config.onLongPress then measured.call (.onLongPress event) else measured, ?_, ?_, ?_⟩
    · split
      · exact keeps.trans (call_keeps _ _)
      · exact keeps
    · split
      · rw [call_toldPressIn, told]
        rfl
      · exact told
    · rw [← isMeasured]
      rfl
  obtain ⟨fed, isFed, keepsFed, active, inactive⟩ : ∃ fed,
      (if !isActiveSignal prevState && isActiveSignal nextState then began.activate clock event
        else if isActiveSignal prevState && !isActiveSignal nextState then
          began.deactivate clock event
        else began) = fed ∧ Keeps began fed ∧
      (isActiveSignal nextState = true →
        fed.toldPressIn = (self.toldPressIn || !isActiveSignal prevState)) ∧
      (isActiveSignal nextState = false →
        isActiveSignal prevState = true ∨ self.Settled → fed.Settled) := by
    refine ⟨_, rfl, ?_⟩
    cases isPrev : isActiveSignal prevState <;> cases isNext : isActiveSignal nextState
    · refine ⟨.refl began, fun active => absurd active Bool.false_ne_true, fun _ settled => ?_⟩
      exact (settled.resolve_left Bool.false_ne_true).keeps quiet told
    · refine ⟨activate_keeps clock event began, fun _ => ?_,
        fun inactive => absurd inactive.symm Bool.false_ne_true⟩
      rw [Bool.not_false, Bool.or_true]
      exact activate_toldPressIn clock event (quiet.config ▸ givenIn)
    · exact ⟨deactivate_keeps clock event began, fun active => absurd active Bool.false_ne_true,
        fun _ _ => deactivate_settled clock event (quiet.config ▸ givenOut)⟩
    · exact ⟨.refl began, fun _ => by simpa using told,
        fun inactive => absurd inactive.symm Bool.false_ne_true⟩
  rw [isAfter]
  rw [isFed]
  split
  next released =>
    have config : fed.config = self.config := keepsFed.config.trans quiet.config
    have stillGiven : fed.config.onPressOut = true := config ▸ givenOut
    obtain ⟨keeps, toldAfter, presses⟩ :=
      releasePress_feedback clock os event prevState nextState stillGiven
    refine ⟨(quiet.trans keepsFed).trans keeps, fun isActive => ?_, fun notActive settles => ?_⟩
    · rcases toldAfter with same | ⟨notActive, -, -⟩
      · rw [same]
        exact active isActive
      · rw [isActive] at notActive
        cases notActive
    · rcases toldAfter with same | ⟨-, -, settled⟩
      · by_cases fedSettled : fed.Settled
        · exact fedSettled.keeps keeps same
        · -- Neither was it active nor settled, so that it is pressed.
          rcases settles with wasActive | settled | ⟨-, -, onPress⟩
          · exact absurd (inactive notActive (.inl wasActive)) fedSettled
          · exact absurd (inactive notActive (.inr settled)) fedSettled
          · by_cases wasActive : isActiveSignal prevState = true
            · exact absurd (inactive notActive (.inl wasActive)) fedSettled
            · exact presses (config ▸ onPress) notActive (by simpa using wasActive)
      · exact settled
  next notReleased =>
    refine ⟨quiet.trans keepsFed, active, fun notActive settles => ?_⟩
    rcases settles with wasActive | settled | ⟨isPressIn, isRelease, -⟩
    · exact inactive notActive (.inl wasActive)
    · exact inactive notActive (.inr settled)
    · simp [isPressIn, isRelease] at notReleased

/-! ### Feedback of signals -/

theorem Settled.cancelDelayTimeout (owned : self.Owned)
    (settled : self.Settled) (other : field ≠ .pressOut) :
    (Pressability.cancelDelayTimeout field self).Settled := by
  rcases settled with told | ⟨timer, member, isPressOut⟩
  · left
    rw [toldPressIn, cancelDelayTimeout_eq]
    exact told
  · refine .inr ⟨timer, owned.mem_cancelDelayTimeout member ?_, isPressOut⟩
    cases isCallback : timer.callback with
    | onPressOut => exact other.symm
    | receiveDelay | handleLongPress | onHoverIn | onHoverOut =>
      rw [isCallback] at isPressOut
      cases isPressOut

theorem performTransitionSideEffects_feedback (prevState nextState : TouchState)
    (signal : TouchSignal) (owned : self.Owned)
    (givenIn : self.config.onPressIn = true) (givenOut : self.config.onPressOut = true) :
    let after := self.performTransitionSideEffects clock os prevState nextState signal event
    after.Owned ∧ after.config = self.config ∧ (isActiveSignal nextState = true →
        after.toldPressIn = (self.toldPressIn || !isActiveSignal prevState)) ∧
      (isActiveSignal nextState = false → isActiveSignal prevState = true ∨ self.Settled ∨
          isPressInSignal prevState = true ∧ signal = .responderRelease ∧
            self.config.onPress = true → after.Settled) := by
  obtain ⟨began, isBegun, ownedBegan, config, told, settles⟩ : ∃ began,
      (if isTerminalSignal signal then
        { self with touchActivatePosition := none }.cancelLongPressDelayTimeout else self) =
          began ∧ began.Owned ∧ began.config = self.config ∧
      began.toldPressIn = self.toldPressIn ∧ (self.Settled → began.Settled) := by
    refine ⟨_, rfl, ?_⟩
    split
    · have moved : { self with touchActivatePosition := none }.Owned :=
        owned.subset rfl (fun _ => id) fun _ _ => id
      refine ⟨moved.cancelDelayTimeout .longPress, ?_, ?_, ?_⟩
      · rw [cancelLongPressDelayTimeout, cancelDelayTimeout_eq]
      · rw [toldPressIn, cancelLongPressDelayTimeout, cancelDelayTimeout_eq]
        rfl
      · exact fun settled => Settled.cancelDelayTimeout moved settled (by decide)
    · exact ⟨owned, rfl, rfl, id⟩
  rw [performTransitionSideEffects_eq, isBegun]
  have stillIn : began.config.onPressIn = true := config ▸ givenIn
  have stillOut : began.config.onPressOut = true := config ▸ givenOut
  obtain ⟨keeps, active, inactive⟩ :=
    transitionCalls_feedback clock os event prevState nextState signal stillIn stillOut
  have ownedAfter := keeps.owned ownedBegan
  refine ⟨ownedAfter.cancelDelayTimeout .press, ?_, fun isActive => ?_, fun notActive settled => ?_⟩
  · rw [cancelPressDelayTimeout, cancelDelayTimeout_eq]
    exact keeps.config.trans config
  · rw [← told, ← active isActive, toldPressIn, cancelPressDelayTimeout, cancelDelayTimeout_eq]
    rfl
  · refine Settled.cancelDelayTimeout ownedAfter (inactive notActive ?_) (by decide)
    rw [config]
    exact settled.imp_right (·.imp_left settles)

variable {signal : TouchSignal}

/-- **What a signal tells.** If `onPressIn` was told wherever the press is active, it is afterwards.
If the press is not active afterwards, the feedback is settled or nothing has changed, unless it was
not settled before and there was neither an activation nor a press. -/
theorem receiveSignal_feedback (owned : self.Owned) (givenIn : self.config.onPressIn = true)
    (givenOut : self.config.onPressOut = true)
    (received : self.receiveSignal clock os signal event = .ok after)
    (active : isActiveSignal self.touchState = true → self.toldPressIn = true) :
    after.Owned ∧ after.config = self.config ∧
      (isActiveSignal after.touchState = true → after.toldPressIn = true) ∧
      (isActiveSignal after.touchState = false →
        (isActiveSignal self.touchState = false → ¬ self.Settled →
          after.touchState = self.touchState ∨ isPressInSignal self.touchState = true ∧
            signal = .responderRelease ∧ self.config.onPress = true) →
        after.Settled ∨ after = self) := by
  unfold receiveSignal at received
  dsimp only at received
  split at received
  · cases received
    exact ⟨owned, rfl, active, fun _ _ => .inr rfl⟩
  · split at received
    · cases received
    · split at received
      next changes =>
        obtain ⟨ownedAfter, config, activeAfter, inactiveAfter⟩ :=
          performTransitionSideEffects_feedback clock os event self.touchState
            (transitions self.touchState signal) signal owned givenIn givenOut
        cases received
        refine ⟨ownedAfter.subset rfl (fun _ => id) fun _ _ => id, config, fun isActive => ?_,
          fun notActive owes => .inl ?_⟩
        · refine (activeAfter isActive).trans ?_
          cases wasActive : isActiveSignal self.touchState with
          | true => simp [active wasActive]
          | false => simp
        · refine inactiveAfter notActive ?_
          by_cases wasActive : isActiveSignal self.touchState = true
          · exact .inl wasActive
          · by_cases settled : self.Settled
            · exact .inr (.inl settled)
            · rcases owes (by simpa using wasActive) settled with same | pressed
              · exact absurd same.symm changes
              · exact .inr (.inr pressed)
      · cases received
        exact ⟨owned, rfl, active, fun _ _ => .inr rfl⟩

/-! ### Runs -/

structure Fed (state : Pressability) : Prop where
  owned : state.Owned
  onPressIn : state.config.onPressIn = true
  onPressOut : state.config.onPressOut = true
  active : isActiveSignal state.touchState = true → state.toldPressIn = true
  inactive : isActiveSignal state.touchState = false → state.Settled ∨
    state.touchState = .responderInactivePressIn ∧
      ∃ timer ∈ state.timers, timer.callback.isDelay = true

structure KeepsFed (before after : Pressability) : Prop where
  owned : after.Owned
  config : after.config = before.config
  touchState : after.touchState = before.touchState
  told : after.toldPressIn = before.toldPressIn
  timers : ∀ timer ∈ before.timers, timer.callback.isPressOut = true ∨ timer.callback.isDelay = true →
    timer ∈ after.timers

theorem KeepsFed.trans {middle : Pressability} (first : KeepsFed before middle)
    (second : KeepsFed middle after) : KeepsFed before after :=
  ⟨second.owned, second.config.trans first.config, second.touchState.trans first.touchState,
    second.told.trans first.told, fun timer member kind =>
      second.timers timer (first.timers timer member kind) kind⟩

theorem KeepsFed.settled (keeps : KeepsFed before after)
    (settled : before.Settled) : after.Settled := by
  refine settled.imp (keeps.told.trans ·) ?_
  rintro ⟨timer, member, isPressOut⟩
  exact ⟨timer, keeps.timers timer member (.inl isPressOut), isPressOut⟩

theorem Fed.keeps (fed : before.Fed) (keeps : KeepsFed before after) : after.Fed where
  owned := keeps.owned
  onPressIn := keeps.config ▸ fed.onPressIn
  onPressOut := keeps.config ▸ fed.onPressOut
  active := by
    rw [keeps.touchState, keeps.told]
    exact fed.active
  inactive := by
    rw [keeps.touchState]
    intro inactive
    refine (fed.inactive inactive).imp keeps.settled ?_
    rintro ⟨state, timer, member, isDelay⟩
    exact ⟨state, timer, keeps.timers timer member (.inr isDelay), isDelay⟩

section

variable (owned : self.Owned)
include owned

theorem KeepsFed.refl : KeepsFed self self :=
  ⟨owned, rfl, rfl, rfl, fun _ member _ => member⟩

theorem call_keepsFed {call : Call} (same : ∀ told, feedbackAfter told call = told) :
    KeepsFed self (self.call call) :=
  ⟨(call_keeps self call).owned owned, rfl, rfl, by rw [call_toldPressIn, same],
    fun _ member _ => member⟩

theorem cancelDelayTimeout_keepsFed (other : field ≠ .pressOut ∧ field ≠ .press) :
    KeepsFed self (cancelDelayTimeout field self) := by
  refine ⟨owned.cancelDelayTimeout field, ?_, ?_, ?_, ?_⟩
  · rw [cancelDelayTimeout_eq]
  · rw [cancelDelayTimeout_eq]
  · rw [toldPressIn, cancelDelayTimeout_eq]
    rfl
  · intro timer member kind
    refine owned.mem_cancelDelayTimeout member fun kept => ?_
    subst kept
    cases isCallback : timer.callback <;>
      simp [isCallback, TimerCallback.keptIn, TimerCallback.isPressOut,
        TimerCallback.isDelay] at other kind

theorem setTimeout_keepsFed {callback : TimerCallback} (kept : callback.keptIn = field)
    (delay : ℚ) : KeepsFed self (self.setTimeout field callback delay) :=
  ⟨owned.setTimeout kept delay, rfl, rfl, rfl, fun _ member _ => mem_append_left _ member⟩

theorem removeTimer_keepsFed {timer : PendingTimer} (member : timer ∈ self.timers)
    (kind : timer.callback.isPressOut = false) (notDelay : timer.callback.isDelay = false) :
    KeepsFed self { self with timers := self.timers.filter (·.id ≠ timer.id) } := by
  refine ⟨owned.subset rfl (fun _ present => mem_of_mem_filter present) fun _ _ => id,
    rfl, rfl, rfl, ?_⟩
  intro other present otherKind
  refine mem_filter.mpr ⟨present, decide_eq_true fun same => ?_⟩
  rw [owned.distinct other present timer member same, kind, notDelay] at otherKind
  simp at otherKind

end

theorem Fed.receiveSignal (fed : self.Fed)
    (received : self.receiveSignal clock os signal event = .ok after)
    (owes : isActiveSignal self.touchState = false → ¬ self.Settled →
      isActiveSignal after.touchState = true ∨ after.touchState = self.touchState ∨
        isPressInSignal self.touchState = true ∧ signal = .responderRelease ∧
          self.config.onPress = true) : after.Fed := by
  obtain ⟨owned, config, active, inactive⟩ := receiveSignal_feedback clock os event fed.owned
    fed.onPressIn fed.onPressOut received fed.active
  refine ⟨owned, config ▸ fed.onPressIn, config ▸ fed.onPressOut, active, fun notActive => ?_⟩
  have outcome := inactive notActive fun wasInactive unsettled =>
    (owes wasInactive unsettled).resolve_left fun isActive => by
      rw [isActive] at notActive
      cases notActive
  rcases outcome with settled | rfl
  · exact .inl settled
  · exact fed.inactive notActive

theorem receiveSignal_touchState (received : self.receiveSignal clock os signal event = .ok after)
    (moves : signal ≠ .responderRelease) :
    after.touchState = transitions self.touchState signal := by
  unfold Pressability.receiveSignal at received
  rw [if_neg fun ignored => moves ignored.2] at received
  split at received
  · cases received
  · split at received
    · cases received
      rfl
    next same =>
      cases received
      exact (not_not.mp same)

theorem Fed.activated (owned : self.Owned)
    (givenIn : self.config.onPressIn = true) (givenOut : self.config.onPressOut = true)
    (received : self.receiveSignal clock os signal event = .ok after)
    (inactive : isActiveSignal self.touchState = false)
    (active : isActiveSignal after.touchState = true) : after.Fed := by
  obtain ⟨ownedAfter, config, told, -⟩ := receiveSignal_feedback clock os event owned givenIn givenOut
    received fun wasActive => by
      rw [wasActive] at inactive
      cases inactive
  refine ⟨ownedAfter, config ▸ givenIn, config ▸ givenOut, told, fun notActive => ?_⟩
  rw [active] at notActive
  cases notActive

end Pressability

namespace PressGestures

/-! ### Events -/

variable (clock : ℕ → ℚ) (os : PlatformOS) (event : PressEvent)

variable {gestures : PressGestures} {next : Pressability}

section

variable (fed : gestures.self.Fed)
include fed

theorem owes_of_keeps (keeps : KeepsFed gestures.self next)
    (inactive : isActiveSignal next.touchState = false) (unsettled : ¬ next.Settled) :
    gestures.OwesPressOut := by
  rw [keeps.touchState] at inactive
  have stillUnsettled : ¬ gestures.self.Settled := fun settled => unsettled (keeps.settled settled)
  exact ⟨((fed.inactive inactive).resolve_left stillUnsettled).1, stillUnsettled⟩

theorem onResponderMove_fed
    (stays : gestures.OwesPressOut → gestures.self.leavesRegion event = false)
    (handled : gestures.self.onResponderMove clock os event = .ok next) : next.Fed := by
  have began : ∃ began, (if gestures.self.config.onPressMove then
      gestures.self.call (.onPressMove event) else gestures.self) = began ∧
      KeepsFed gestures.self began ∧ began.responderRegion = gestures.self.responderRegion := by
    refine ⟨_, rfl, ?_⟩
    split
    · exact ⟨call_keepsFed fed.owned fun _ => rfl, rfl⟩
    · exact ⟨.refl fed.owned, rfl⟩
  obtain ⟨began, isBegun, keeps, sameRegion⟩ := began
  unfold Pressability.onResponderMove at handled
  dsimp only at handled
  rw [isBegun] at handled
  split at handled
  · cases handled
    exact fed.keeps keeps
  next region measured =>
    obtain ⟨near, isNear, keepsNear⟩ : ∃ near,
        (if began.touchActivatePosition.any (movedFar · (getTouchFromPressEvent event)) then
          began.cancelLongPressDelayTimeout else began) = near ∧ KeepsFed gestures.self near := by
      refine ⟨_, rfl, ?_⟩
      split
      · exact keeps.trans (cancelDelayTimeout_keepsFed keeps.owned (by decide))
      · exact keeps
    rw [isNear] at handled
    split at handled
    next inside =>
      refine (fed.keeps keepsNear).receiveSignal clock os event handled fun inactive unsettled => ?_
      -- A press that owes an `onPressOut` is in the state that it enters.
      have owes := owes_of_keeps fed keepsNear inactive unsettled
      have state : near.touchState = .responderInactivePressIn := keepsNear.touchState.trans owes.1
      right; left
      rw [receiveSignal_touchState clock os event handled (by decide), state]
      rfl
    next outside =>
      have keepsFar : KeepsFed gestures.self near.cancelLongPressDelayTimeout :=
        keepsNear.trans (cancelDelayTimeout_keepsFed keepsNear.owned (by decide))
      refine (fed.keeps keepsFar).receiveSignal clock os event handled fun inactive unsettled => ?_
      have owes := owes_of_keeps fed keepsFar inactive unsettled
      have leaves : gestures.self.leavesRegion event = true := by
        rw [leavesRegion, ← sameRegion, measured, Option.any_some, Bool.not_eq_true']
        have sameConfig : near.config = gestures.self.config := keepsNear.config
        rw [isTouchWithinResponderRegion, sameConfig] at outside
        exact Bool.eq_false_iff.mpr outside
      rw [stays owes] at leaves
      cases leaves

theorem onResponderRelease_fed
    (presses : gestures.OwesPressOut → gestures.self.config.onPress = true)
    (handled : gestures.self.onResponderRelease clock os event = .ok next) : next.Fed := by
  refine fed.receiveSignal clock os event handled fun inactive unsettled => ?_
  have owes := owes_of_keeps fed (.refl fed.owned) inactive unsettled
  exact .inr (.inr ⟨by rw [owes.1]; rfl, rfl, presses owes⟩)

theorem onResponderTerminate_fed (owesNothing : ¬ gestures.OwesPressOut)
    (handled : gestures.self.onResponderTerminate clock os event = .ok next) : next.Fed :=
  fed.receiveSignal clock os event handled fun inactive unsettled =>
    absurd (owes_of_keeps fed (.refl fed.owned) inactive unsettled) owesNothing

theorem onResponderGrant_fed (handled : gestures.self.onResponderGrant clock os event = .ok next) :
    next.Fed := by
  unfold Pressability.onResponderGrant at handled
  simp only [bind, Except.bind, pure, Except.pure] at handled
  split at handled
  · cases handled
  next granted received =>
    -- The state before the grant is not active.
    generalize isBegun : { gestures.self.cancelPressOutDelayTimeout with
      responderID := some event.currentTarget
      touchState := TouchState.notResponder } = began at received
    have state : began.touchState = .notResponder := by rw [← isBegun]
    have owned : began.Owned := by
      rw [← isBegun]
      exact (fed.owned.cancelDelayTimeout .pressOut).subset rfl (fun _ => id) fun _ _ => id
    have config : began.config = gestures.self.config := by
      rw [← isBegun, cancelPressOutDelayTimeout, cancelDelayTimeout_eq]
    obtain ⟨ownedGranted, configGranted, -, -⟩ := receiveSignal_feedback clock os event owned
      (config ▸ fed.onPressIn) (config ▸ fed.onPressOut) received fun active => by
        rw [state] at active
        cases active
    have sameConfig := configGranted.trans config
    have stateGranted : granted.touchState = .responderInactivePressIn := by
      rw [receiveSignal_touchState clock os event received (by decide), state]
      rfl
    have longPressed : ∀ {pressed : Pressability} {delay : ℚ}, pressed.Fed →
        (pressed.setTimeout .longPress (.handleLongPress event) delay).Fed := by
      intro pressed delay fed
      have kept : (TimerCallback.handleLongPress event).keptIn = .longPress := rfl
      exact fed.keeps (setTimeout_keepsFed fed.owned kept delay)
    split at handled
    · cases handled
      apply longPressed
      have kept : (TimerCallback.receiveDelay event).keptIn = .press := rfl
      refine ⟨ownedGranted.setTimeout kept _, sameConfig ▸ fed.onPressIn,
        sameConfig ▸ fed.onPressOut, fun active => ?_, fun _ => .inr ⟨stateGranted, ?_⟩⟩
      · change isActiveSignal granted.touchState = true at active
        rw [stateGranted] at active
        cases active
      · exact ⟨_, mem_append_right _ (mem_singleton_self _), rfl⟩
    · split at handled
      · cases handled
      next pressed activated =>
        cases handled
        apply longPressed
        have givenIn : granted.config.onPressIn = true := sameConfig ▸ fed.onPressIn
        have givenOut : granted.config.onPressOut = true := sameConfig ▸ fed.onPressOut
        refine Fed.activated clock os event ownedGranted givenIn givenOut activated ?_ ?_
        · rw [stateGranted]
          rfl
        · rw [receiveSignal_touchState clock os event activated (by decide), stateGranted]
          rfl

end

theorem fireTimer_fed (inv : gestures.Inv) (fed : gestures.self.Fed) {id : ℕ}
    (inTime : gestures.KeepsFeedback (.timer id))
    (handled : gestures.self.fireTimer clock os id = .ok next) : next.Fed := by
  unfold Pressability.fireTimer at handled
  split at handled
  · cases handled
    exact fed
  next timer found =>
    have member := mem_of_find?_eq_some found
    obtain rfl : timer.id = id := by simpa using find?_some found
    have removed : timer.callback.isPressOut = false → timer.callback.isDelay = false →
        KeepsFed gestures.self
          { gestures.self with timers := gestures.self.timers.filter (·.id ≠ timer.id) } :=
      removeTimer_keepsFed fed.owned member
    have ownedLeft : { gestures.self with
        timers := gestures.self.timers.filter (·.id ≠ timer.id) }.Owned :=
      fed.owned.subset rfl (fun _ present => mem_of_mem_filter present) fun _ _ held => held
    cases isCallback : timer.callback with
    | receiveDelay event =>
      rw [isCallback] at handled
      have state := inv.waiting timer member (by rw [isCallback]; rfl)
      refine Fed.activated clock os event ownedLeft fed.onPressIn fed.onPressOut handled ?_ ?_
      · rw [state]
        rfl
      · rw [receiveSignal_touchState clock os event handled (by decide)]
        rw [state]
        rfl
    | handleLongPress event =>
      rw [isCallback] at handled removed
      have fedLeft := fed.keeps (removed rfl rfl)
      unfold callBack handleLongPress at handled
      dsimp only at handled
      split at handled
      next active =>
        refine fedLeft.receiveSignal clock os event handled fun inactive _ => ?_
        rcases active with same | same
        · rw [same] at inactive
          cases inactive
        · change isActiveSignal gestures.self.touchState = false at inactive
          rw [same] at inactive
          cases inactive
      next =>
        cases handled
        exact fedLeft
    | onPressOut event =>
      rw [isCallback] at handled
      cases handled
      have notActive : isActiveSignal gestures.self.touchState ≠ true := by
        intro active
        have other := inTime active timer member rfl
        rw [isCallback] at other
        cases other
      refine ⟨(call_keeps _ _).owned ownedLeft, fed.onPressIn, fed.onPressOut,
        fun active => absurd active notActive, fun _ => .inl (.inl ?_)⟩
      exact call_toldPressIn _ _
    | onHoverIn =>
      rw [isCallback] at handled removed
      cases handled
      exact fed.keeps ((removed rfl rfl).trans (call_keepsFed ownedLeft fun _ => rfl))
    | onHoverOut =>
      rw [isCallback] at handled removed
      cases handled
      exact fed.keeps ((removed rfl rfl).trans (call_keepsFed ownedLeft fun _ => rfl))

section

variable {self : Pressability} (fed : self.Fed)
include fed

theorem hover_fed (isHovered isGiven : Bool) (delay : ℚ) {field : DelayTimeout}
    {callback : TimerCallback} {call : Call} (other : field ≠ .pressOut ∧ field ≠ .press)
    (kept : callback.keptIn = .hoverIn) (same : ∀ told, feedbackAfter told call = told) :
    (let hovered := cancelDelayTimeout field { self with isHovered := isHovered }
      if isGiven then
        if delay > 0 then hovered.setTimeout .hoverIn callback delay else hovered.call call
      else hovered).Fed := by
  have hovered : KeepsFed self { self with isHovered := isHovered } :=
    ⟨fed.owned.subset rfl (fun _ => id) fun _ _ => id, rfl, rfl, rfl, fun _ member _ => member⟩
  have cancelled := hovered.trans (cancelDelayTimeout_keepsFed hovered.owned other)
  dsimp only
  split
  · split
    · exact fed.keeps (cancelled.trans (setTimeout_keepsFed cancelled.owned kept _))
    · exact fed.keeps (cancelled.trans (call_keepsFed cancelled.owned same))
  · exact fed.keeps cancelled

theorem onMouseEnter_fed (isHoverEnabled : Bool) : (self.onMouseEnter isHoverEnabled).Fed := by
  unfold onMouseEnter
  split
  · exact hover_fed fed true _ _ (by decide) rfl fun _ => rfl
  · exact fed

theorem onMouseLeave_fed : self.onMouseLeave.Fed := by
  unfold onMouseLeave
  split
  · exact hover_fed fed false _ _ (by decide) rfl fun _ => rfl
  · exact fed

end

theorem handle_fed (inv : gestures.Inv) (fed : gestures.self.Fed) {event : PressabilityEvent}
    (keeps : gestures.KeepsFeedback event)
    (handled : gestures.self.handle clock os event = .ok next) : next.Fed := by
  cases event with
  | responderGrant event => exact onResponderGrant_fed clock os event fed handled
  | responderMove event => exact onResponderMove_fed clock os event fed keeps handled
  | responderRelease event => exact onResponderRelease_fed clock os event fed keeps handled
  | responderTerminate event => exact onResponderTerminate_fed clock os event fed keeps handled
  | timer id => exact fireTimer_fed clock os inv fed keeps handled
  | measured =>
    cases handled
    unfold measureCallback
    split
    · exact fed
    · exact fed.keeps ⟨fed.owned.subset rfl (fun _ => id) fun _ _ => id, rfl, rfl, rfl,
        fun _ member _ => member⟩
  | configure => exact absurd keeps not_false
  | reset => exact absurd keeps not_false
  | mouseEnter isHoverEnabled =>
    cases handled
    split
    · exact onMouseEnter_fed fed isHoverEnabled
    · exact fed
  | mouseLeave =>
    cases handled
    split
    · exact onMouseLeave_fed fed
    · exact fed

theorem initial_fed {config : PressabilityConfig} (givenIn : config.onPressIn = true)
    (givenOut : config.onPressOut = true) : (initial config).self.Fed where
  owned := ⟨nofun, fun _ _ held => absurd held.symm (Option.some_ne_none _), nofun, nofun⟩
  onPressIn := givenIn
  onPressOut := givenOut
  active active := by cases active
  inactive _ := .inl (.inl rfl)

theorem feedbackMatches_of_fed (fed : gestures.self.Fed) : gestures.FeedbackMatches := by
  intro noneOfPress
  have other : ∀ timer ∈ gestures.self.timers, timer.callback.isPressOut = false ∧
      timer.callback.isDelay = false := by
    intro timer member
    have isHover := noneOfPress timer member
    cases same : timer.callback <;> simp [same, TimerCallback.isHover, TimerCallback.isPressOut,
      TimerCallback.isDelay] at isHover ⊢
  cases active : isActiveSignal gestures.self.touchState with
  | true => exact fed.active active
  | false =>
    rcases fed.inactive active with (told | ⟨timer, member, isPressOut⟩) | ⟨-, timer, member, isDelay⟩
    · exact told
    · rw [(other timer member).1] at isPressOut
      cases isPressOut
    · rw [(other timer member).2] at isDelay
      cases isDelay

/-- **Feedback matches the touch state** in every state of a run in which no `onPressOut` comes while
the press is active again, and no press that cancelled one ends or is left before it is active. -/
theorem feedback_matches {config : PressabilityConfig} (givenIn : config.onPressIn = true)
    (givenOut : config.onPressOut = true) {events : List PressabilityEvent}
    (keeps : Along (PressGestures.step clock os)
      (fun gestures event => gestures.Allowed event ∧ gestures.KeepsFeedback event)
      (initial config) events) :
    ∀ taken rest, events = taken ++ rest → ∃ reached,
      run (PressGestures.step clock os) (initial config) taken = some reached ∧
        reached.FeedbackMatches := by
  rintro taken rest rfl
  have goesOn : ∃ reached, run (PressGestures.step clock os) (initial config) taken = some reached ∧
      reached.Inv ∧ reached.self.Fed := by
    refine run_progress ?_ ⟨initial_inv config, initial_fed givenIn givenOut⟩ (along_append keeps).1
    rintro gestures event ⟨inv, fed⟩ ⟨allowed, keepsEvent⟩
    obtain ⟨next, handled, invNext, -⟩ := inv.handle clock os allowed
    refine ⟨gestures.record event next, by rw [PressGestures.step, handled], invNext, ?_⟩
    have same : (gestures.record event next).self = next := by cases event <;> rfl
    rw [same]
    exact handle_fed clock os inv fed keepsEvent handled
  obtain ⟨reached, ran, -, fed⟩ := goesOn
  exact ⟨reached, ran, feedbackMatches_of_fed fed⟩

theorem feedback_matches_longTap : ∃ reached,
    run (PressGestures.step (fun _ => 0) .macos) (initial allCallbacks) longTap = some reached ∧
      reached.FeedbackMatches :=
  feedback_matches (fun _ => 0) .macos rfl rfl (by decide +kernel) longTap []
    (append_nil longTap).symm

def leaveAndReturn : List PressabilityEvent :=
  [.responderGrant touchDown, .measured 0 0 10 10 1 1,
    .responderMove { touchDown with nativeEvent := ⟨500, 500⟩ }, .responderMove touchDown, .timer 1]

theorem leaveAndReturn_mismatch :
    Along (PressGestures.step (fun _ => 0) .macos) Allowed (initial allCallbacks) leaveAndReturn ∧
    ∃ reached, run (PressGestures.step (fun _ => 0) .macos) (initial allCallbacks) leaveAndReturn =
        some reached ∧
      reached.self.touchState = .responderActivePressIn ∧ reached.self.timers = [] ∧
      reached.self.toldPressIn = false ∧ ¬ reached.FeedbackMatches := by
  refine ⟨by decide +kernel, ?_⟩
  have mismatch : (run (PressGestures.step (fun _ => 0) .macos) (initial allCallbacks)
      leaveAndReturn).any (fun reached => reached.self.touchState = .responderActivePressIn ∧
        reached.self.timers = [] ∧ reached.self.toldPressIn = false ∧
          ¬ reached.FeedbackMatches) = true := by decide +kernel
  simpa [Option.any_eq_true] using mismatch

end PressGestures

end ReactNative

