import Mathlib.Algebra.Order.Ring.Rat
import ReactNative.Foundation.Runs

/-! `RCTTiming` is driven by the display link while it is not paused, and by one sleep timer
otherwise: in the background, and in the foreground while the next timer is more than a second away.
-/
namespace ReactNative

open Runs List

abbrev NSTimeInterval := ℚ

structure RCTTimer where
  callbackID : ℤ
  interval : NSTimeInterval
  repeats : Bool
  target : NSTimeInterval
  deriving DecidableEq

def RCTTimer.shouldFire (timer : RCTTimer) (now : NSTimeInterval) : Bool := timer.target - now ≤ 0

/-- Calls to JavaScript that were enqueued. -/
inductive JSTimersCall where
  | callTimers (timers : List ℤ)
  | callIdleCallbacks (absoluteFrameStartMS : NSTimeInterval)
  | immediatelyCallTimer (timer : ℤ)
  deriving DecidableEq

structure RCTTiming where
  timers : List RCTTimer := []
  /-- The fire date of the sleep timer, if there is a valid one. -/
  sleepTimer : Option NSTimeInterval := none
  sendIdleEvents : Bool := false
  inBackground : Bool := false
  paused : Bool := true
  jsCalls : List JSTimersCall := []
  readings : ℕ := 0
  deriving DecidableEq

inductive RCTTimingEvent where
  | createTimer (callbackID : ℤ) (jsDuration jsSchedulingTime : NSTimeInterval) (repeats : Bool)
  | deleteTimer (timerID : ℤ)
  | setSendIdleEvents (sendIdleEvents : Bool)
  | frameUpdate (timestamp : NSTimeInterval)
  | sleepTimerFires
  | moveToBackground
  | moveToForeground

namespace RCTTiming

def minimumSleepInterval : NSTimeInterval := 1
def frameDuration : NSTimeInterval := 1 / 60
def idleCallbackFrameDeadline : NSTimeInterval := 1 / 1000
def distantFuture : NSTimeInterval := 65070518400

def earlierDate (date other : NSTimeInterval) : NSTimeInterval := if other < date then other else date

variable (timing : RCTTiming)

def hasPendingTimers : Bool := timing.sendIdleEvents || !timing.timers.isEmpty

def stopTimers : RCTTiming :=
  if timing.inBackground then timing else { timing with paused := true }

-- There is a bridge, so the first condition of the source is that of the background.
def startTimers : RCTTiming :=
  if timing.inBackground || !timing.hasPendingTimers then timing else { timing with paused := false }

def scheduleSleepTimer (sleepTarget : NSTimeInterval) : RCTTiming :=
  match timing.sleepTimer with
  | none => { timing with sleepTimer := some sleepTarget }
  | some fireDate => { timing with sleepTimer := some (earlierDate fireDate sleepTarget) }

def removeTimer (callbackID : ℤ) : RCTTiming :=
  { timing with timers := timing.timers.filter fun timer => timer.callbackID ≠ callbackID }

def addTimer (timer : RCTTimer) : RCTTiming :=
  { timing with
    timers := (timing.timers.filter fun other => other.callbackID ≠ timer.callbackID) ++ [timer] }

section

variable (clock : ℕ → NSTimeInterval) (timing : RCTTiming)

/-- The timer is rescheduled where it stands, with a fresh reading of the clock. -/
def reschedule (timer : RCTTimer) : RCTTiming :=
  { timing with
    timers := timing.timers.map fun other =>
      if other.callbackID = timer.callbackID then
        { timer with target := clock timing.readings + timer.interval }
      else other
    readings := timing.readings + 1 }

/-- The loop over the timers that were called, with the target that comes next. -/
def afterCall : List RCTTimer → NSTimeInterval → RCTTiming → RCTTiming × NSTimeInterval
  | [], nextScheduledTarget, timing => (timing, nextScheduledTarget)
  | timer :: rest, nextScheduledTarget, timing =>
    if timer.repeats then
      afterCall rest
        (earlierDate nextScheduledTarget (clock timing.readings + timer.interval))
        (timing.reschedule clock timer)
    else
      afterCall rest nextScheduledTarget (timing.removeTimer timer.callbackID)

/-- The first part of `didUpdateFrame`: the timers that are due are called and rescheduled or
removed. Returns the target that comes next and whether no timer was called. -/
def callTimers (timing : RCTTiming) : RCTTiming × NSTimeInterval × Bool :=
  let now := clock timing.readings
  let timersToCall := timing.timers.filter (·.shouldFire now)
  let nextScheduledTarget :=
    (timing.timers.filter (!·.shouldFire now)).foldl
      (fun next timer => earlierDate next timer.target) distantFuture
  let sortedTimers := timersToCall.mergeSort fun timer other => timer.target ≤ other.target
  let read := { timing with readings := timing.readings + 1 }
  let called :=
    if timersToCall.isEmpty then read
    else { read with jsCalls := read.jsCalls ++ [.callTimers (sortedTimers.map (·.callbackID))] }
  let (timing, next) := afterCall clock timersToCall nextScheduledTarget called
  (timing, next, timersToCall.isEmpty)

def callIdleCallbacks (timing : RCTTiming) (timestamp : NSTimeInterval) : RCTTiming :=
  if timing.sendIdleEvents then
    let currentTimestamp := clock timing.readings
    let frameElapsed := currentTimestamp - timestamp
    if frameDuration - frameElapsed ≥ idleCallbackFrameDeadline then
      { timing with
        jsCalls := timing.jsCalls ++ [.callIdleCallbacks ((currentTimestamp - frameElapsed) * 1000)]
        readings := timing.readings + 1 }
    else { timing with readings := timing.readings + 1 }
  else timing

/-- The last part of `didUpdateFrame`: whether the display link can pause. -/
def maybePause (nextScheduledTarget : NSTimeInterval) (noneCalled : Bool) : RCTTiming :=
  if timing.inBackground then
    if timing.timers.isEmpty then timing else timing.scheduleSleepTimer nextScheduledTarget
  else if !timing.sendIdleEvents && noneCalled then
    if timing.timers.isEmpty then { timing with paused := true }
    else if nextScheduledTarget - clock timing.readings > minimumSleepInterval then
      { ({ timing with readings := timing.readings + 1 } : RCTTiming).scheduleSleepTimer
          nextScheduledTarget with paused := true }
    else { timing with readings := timing.readings + 1 }
  else timing

/-- A missing frame update has the timestamp zero. -/
def didUpdateFrame (timestamp : NSTimeInterval) : RCTTiming :=
  let (called, nextScheduledTarget, noneCalled) := timing.callTimers clock
  (called.callIdleCallbacks clock timestamp).maybePause clock nextScheduledTarget noneCalled

def appDidMoveToBackground : RCTTiming :=
  ({ timing.stopTimers with inBackground := true } : RCTTiming).didUpdateFrame clock 0

def appDidMoveToForeground : RCTTiming :=
  ({ timing with inBackground := false } : RCTTiming).startTimers

def timerDidFire : RCTTiming :=
  if timing.paused then
    ({ timing with sleepTimer := none } : RCTTiming).startTimers.didUpdateFrame clock 0
  else { timing with sleepTimer := none }

/-- `initWithCallbackID` with the arguments of `createTimerForNextFrame`, which reads the clock
for the overhead and for the target. -/
def timerForNextFrame (readings : ℕ) (callbackID : ℤ) (jsDuration jsSchedulingTime : NSTimeInterval)
    (repeats : Bool) : RCTTimer :=
  let jsSchedulingOverhead := max (-(jsSchedulingTime - clock readings)) 0
  let targetTime := jsDuration - jsSchedulingOverhead
  { callbackID, repeats
    interval := if jsDuration < 18 / 1000 then 0 else jsDuration
    target := clock (readings + 1) + targetTime }

/-- The wake-up for a timer that was added. -/
def wakeUpFor (timer : RCTTimer) : RCTTiming :=
  if timing.inBackground then timing.scheduleSleepTimer timer.target
  else if timing.paused then
    let read : RCTTiming := { timing with readings := timing.readings + 1 }
    if timer.target - clock timing.readings > minimumSleepInterval then
      read.scheduleSleepTimer timer.target
    else read.startTimers
  else timing

def createTimerForNextFrame (callbackID : ℤ)
    (jsDuration jsSchedulingTime : NSTimeInterval) (repeats : Bool) : RCTTiming :=
  let timer := timerForNextFrame clock timing.readings callbackID jsDuration jsSchedulingTime repeats
  ({ timing.addTimer timer with readings := timing.readings + 2 } : RCTTiming).wakeUpFor clock timer

def createTimer (callbackID : ℤ) (jsDuration jsSchedulingTime : NSTimeInterval)
    (repeats : Bool) : RCTTiming :=
  if jsDuration = 0 ∧ repeats = false then
    { timing with jsCalls := timing.jsCalls ++ [.immediatelyCallTimer callbackID] }
  else timing.createTimerForNextFrame clock callbackID jsDuration (jsSchedulingTime / 1000) repeats

def deleteTimer (timerID : ℤ) : RCTTiming :=
  let removed := timing.removeTimer timerID
  if removed.hasPendingTimers then removed else removed.stopTimers

def setSendIdleEvents (sendIdleEvents : Bool) : RCTTiming :=
  let set : RCTTiming := { timing with sendIdleEvents := sendIdleEvents }
  if sendIdleEvents then set.startTimers
  else if set.hasPendingTimers then set else set.stopTimers

/-- The display link updates frames while it is not paused, and a sleep timer fires if there is
one. -/
def step : RCTTimingEvent → Option RCTTiming
  | .createTimer callbackID jsDuration jsSchedulingTime repeats =>
    some (timing.createTimer clock callbackID jsDuration jsSchedulingTime repeats)
  | .deleteTimer timerID => some (timing.deleteTimer timerID)
  | .setSendIdleEvents sendIdleEvents => some (timing.setSendIdleEvents sendIdleEvents)
  | .frameUpdate timestamp =>
    if timing.paused then none else some (timing.didUpdateFrame clock timestamp)
  | .sleepTimerFires =>
    if timing.sleepTimer.isSome then some (timing.timerDidFire clock) else none
  | .moveToBackground => some (timing.appDidMoveToBackground clock)
  | .moveToForeground => some timing.appDidMoveToForeground

end

/-- A valid sleep timer is scheduled no later than the earliest target. -/
def SleepTimerInTime (timing : RCTTiming) : Prop :=
  ∃ fireDate, timing.sleepTimer = some fireDate ∧ ∀ timer ∈ timing.timers, fireDate ≤ timer.target

/-- Pending timers have a wake-up, and idle events have frames. -/
structure WakeUp (timing : RCTTiming) : Prop where
  timers : timing.timers ≠ [] →
    (timing.paused = false ∧ timing.inBackground = false) ∨ timing.SleepTimerInTime
  idleEvents : timing.sendIdleEvents = true → timing.inBackground = false → timing.paused = false

/-! ### Frames -/

theorem earlierDate_le_left (date other : NSTimeInterval) : earlierDate date other ≤ date := by
  unfold earlierDate
  split
  next earlier => exact le_of_lt earlier
  next => exact le_refl date

theorem earlierDate_le_right (date other : NSTimeInterval) : earlierDate date other ≤ other := by
  unfold earlierDate
  split
  next => exact le_refl other
  next later => exact not_lt.mp later

theorem foldl_earlierDate_le (timers : List RCTTimer) (date : NSTimeInterval) :
    timers.foldl (fun next timer => earlierDate next timer.target) date ≤ date ∧ ∀ timer ∈ timers,
        timers.foldl (fun next timer => earlierDate next timer.target) date ≤ timer.target := by
  induction timers generalizing date with
  | nil => exact ⟨le_refl date, nofun⟩
  | cons first _ ih =>
    obtain ⟨start, members⟩ := ih (earlierDate date first.target)
    constructor
    · exact le_trans start (earlierDate_le_left _ _)
    · intro timer member
      rcases mem_cons.mp member with rfl | member
      · exact le_trans start (earlierDate_le_right _ _)
      · exact members timer member

variable (clock : ℕ → NSTimeInterval)

structure SameMode (timing other : RCTTiming) : Prop where
  sleepTimer : other.sleepTimer = timing.sleepTimer
  sendIdleEvents : other.sendIdleEvents = timing.sendIdleEvents
  inBackground : other.inBackground = timing.inBackground
  paused : other.paused = timing.paused

theorem afterCall_sameMode (toCall : List RCTTimer) (next : NSTimeInterval) (timing : RCTTiming) :
    SameMode timing (afterCall clock toCall next timing).1 := by
  induction toCall generalizing next timing with
  | nil => exact ⟨rfl, rfl, rfl, rfl⟩
  | cons timer _ ih =>
    rw [afterCall]
    split
    · obtain ⟨sleep, idle, background, pause⟩ := ih _ (timing.reschedule clock timer)
      exact ⟨sleep, idle, background, pause⟩
    · obtain ⟨sleep, idle, background, pause⟩ := ih next (timing.removeTimer timer.callbackID)
      exact ⟨sleep, idle, background, pause⟩

variable {timing : RCTTiming}

theorem afterCall_next {toCall : List RCTTimer} {next : NSTimeInterval}
    (later : ∀ timer ∈ timing.timers, timer ∈ toCall ∨ next ≤ timer.target) :
    ∀ timer ∈ (afterCall clock toCall next timing).1.timers,
      (afterCall clock toCall next timing).2 ≤ timer.target := by
  induction toCall generalizing next timing with
  | nil =>
    intro timer member
    exact (later timer member).resolve_left not_mem_nil
  | cons _ _ ih =>
    rw [afterCall]
    split
    · apply ih
      intro timer member
      obtain ⟨other, present, rfl⟩ := mem_map.mp member
      split
      next => exact .inr (earlierDate_le_right _ _)
      next differs =>
        -- A timer with another id is not the one that was rescheduled.
        rcases later other present with calling | notYet
        · rcases mem_cons.mp calling with rfl | calling
          · exact absurd rfl differs
          · exact .inl calling
        · exact .inr (le_trans (earlierDate_le_left _ _) notYet)
    · apply ih
      intro timer member
      obtain ⟨present, differs⟩ := mem_filter.mp member
      rcases later timer present with calling | notYet
      · rcases mem_cons.mp calling with rfl | calling
        · simp at differs
        · exact .inl calling
      · exact .inr notYet

theorem callTimers_sameMode (timing : RCTTiming) : SameMode timing (timing.callTimers clock).1 := by
  unfold callTimers
  dsimp only
  split
  · obtain ⟨sleep, idle, background, pause⟩ :=
      afterCall_sameMode clock (timing.timers.filter (·.shouldFire (clock timing.readings))) _
        { timing with readings := timing.readings + 1 }
    exact ⟨sleep, idle, background, pause⟩
  · obtain ⟨sleep, idle, background, pause⟩ :=
      afterCall_sameMode clock (timing.timers.filter (·.shouldFire (clock timing.readings))) _ _
    exact ⟨sleep, idle, background, pause⟩

theorem callTimers_next (timing : RCTTiming) :
    ∀ timer ∈ (timing.callTimers clock).1.timers, (timing.callTimers clock).2.1 ≤ timer.target := by
  have later : ∀ timer ∈ timing.timers,
      timer ∈ timing.timers.filter (·.shouldFire (clock timing.readings)) ∨
        (timing.timers.filter (!·.shouldFire (clock timing.readings))).foldl
          (fun next timer => earlierDate next timer.target) distantFuture ≤ timer.target := by
    intro timer member
    by_cases due : timer.shouldFire (clock timing.readings) = true
    · exact .inl (mem_filter.mpr ⟨member, due⟩)
    · refine .inr ((foldl_earlierDate_le _ _).2 timer (mem_filter.mpr ⟨member, ?_⟩))
      simpa using due
  unfold callTimers
  dsimp only
  split
  · exact afterCall_next clock later
  · exact afterCall_next clock later

theorem callTimers_nil (none : timing.timers = []) : (timing.callTimers clock).1.timers = [] := by
  simp [callTimers, none, afterCall]

theorem callIdleCallbacks_sameMode (timing : RCTTiming) (timestamp : NSTimeInterval) :
    SameMode timing (timing.callIdleCallbacks clock timestamp) ∧
      (timing.callIdleCallbacks clock timestamp).timers = timing.timers := by
  unfold callIdleCallbacks
  split
  · dsimp only
    split <;> exact ⟨⟨rfl, rfl, rfl, rfl⟩, rfl⟩
  · exact ⟨⟨rfl, rfl, rfl, rfl⟩, rfl⟩

section

variable (timing : RCTTiming) (sleepTarget : NSTimeInterval)

theorem scheduleSleepTimer_sleepTimer :
    ∃ fireDate, (timing.scheduleSleepTimer sleepTarget).sleepTimer = some fireDate ∧
      fireDate ≤ sleepTarget ∧ ∀ earlier, timing.sleepTimer = some earlier → fireDate ≤ earlier := by
  unfold scheduleSleepTimer
  split
  next none =>
    refine ⟨sleepTarget, rfl, le_refl _, ?_⟩
    intro earlier some
    rw [none] at some
    cases some
  next fireDate is =>
    refine ⟨_, rfl, earlierDate_le_right _ _, ?_⟩
    intro earlier some
    rw [is] at some
    cases some
    exact earlierDate_le_left _ _

@[simp] theorem scheduleSleepTimer_timers :
    (timing.scheduleSleepTimer sleepTarget).timers = timing.timers := by
  unfold scheduleSleepTimer
  split <;> rfl

@[simp] theorem scheduleSleepTimer_sendIdleEvents :
    (timing.scheduleSleepTimer sleepTarget).sendIdleEvents = timing.sendIdleEvents := by
  unfold scheduleSleepTimer
  split <;> rfl

@[simp] theorem scheduleSleepTimer_inBackground :
    (timing.scheduleSleepTimer sleepTarget).inBackground = timing.inBackground := by
  unfold scheduleSleepTimer
  split <;> rfl

@[simp] theorem scheduleSleepTimer_paused :
    (timing.scheduleSleepTimer sleepTarget).paused = timing.paused := by
  unfold scheduleSleepTimer
  split <;> rfl

end

theorem scheduleSleepTimer_inTime {sleepTarget : NSTimeInterval}
    (next : ∀ timer ∈ timing.timers, sleepTarget ≤ timer.target) :
    (timing.scheduleSleepTimer sleepTarget).SleepTimerInTime := by
  obtain ⟨fireDate, scheduled, early, -⟩ := scheduleSleepTimer_sleepTimer timing sleepTarget
  refine ⟨fireDate, scheduled, ?_⟩
  rw [scheduleSleepTimer_timers]
  intro timer member
  exact le_trans early (next timer member)

theorem maybePause_mode (timing : RCTTiming) (next : NSTimeInterval) (noneCalled : Bool) :
    (timing.maybePause clock next noneCalled).inBackground = timing.inBackground ∧
      (timing.paused = true → (timing.maybePause clock next noneCalled).paused = true) := by
  unfold maybePause
  split
  · split
    · exact ⟨rfl, id⟩
    · simp
  split
  · split
    · exact ⟨rfl, fun _ => rfl⟩
    split
    · simp
    · exact ⟨rfl, id⟩
  · exact ⟨rfl, id⟩

theorem hasPendingTimers_eq_false_iff (timing : RCTTiming) :
    timing.hasPendingTimers = false ↔ timing.sendIdleEvents = false ∧ timing.timers = [] := by
  simp [hasPendingTimers]

theorem maybePause_wakeUp {next : NSTimeInterval} (noneCalled : Bool)
    (nextTarget : ∀ timer ∈ timing.timers, next ≤ timer.target)
    (driven : timing.inBackground = false → timing.paused = false ∨ timing.hasPendingTimers = false) :
    WakeUp (timing.maybePause clock next noneCalled) := by
  -- In the foreground nothing can be missed while the mode stays as it is.
  have unchanged : ∀ other : RCTTiming, timing.inBackground = false → SameMode timing other →
      other.timers = timing.timers → WakeUp other := by
    intro other foreground same timers
    rcases driven foreground with runs | idle
    · refine ⟨fun _ => .inl ⟨same.paused.trans runs, same.inBackground.trans foreground⟩, ?_⟩
      intro _ _
      exact same.paused.trans runs
    · rw [hasPendingTimers_eq_false_iff] at idle
      constructor
      · intro pending
        exact absurd (timers.trans idle.2) pending
      · intro sends
        rw [same.sendIdleEvents, idle.1] at sends
        cases sends
  unfold maybePause
  split
  next background =>
    split
    next none =>
      rw [List.isEmpty_iff] at none
      refine ⟨fun pending => absurd none pending, ?_⟩
      intro _ foreground
      rw [background] at foreground
      cases foreground
    next =>
      refine ⟨fun _ => .inr (scheduleSleepTimer_inTime nextTarget), ?_⟩
      intro _ foreground
      rw [scheduleSleepTimer_inBackground, background] at foreground
      cases foreground
  next notBackground =>
    rw [Bool.not_eq_true] at notBackground
    split
    next quiet =>
      simp only [Bool.and_eq_true, Bool.not_eq_true'] at quiet
      split
      next none =>
        rw [List.isEmpty_iff] at none
        refine ⟨fun pending => absurd none pending, ?_⟩
        intro sends
        rw [quiet.1] at sends
        cases sends
      next =>
        split
        next =>
          have inTime : SleepTimerInTime (({ timing with readings := timing.readings + 1 }
              : RCTTiming).scheduleSleepTimer next) := scheduleSleepTimer_inTime nextTarget
          obtain ⟨fireDate, scheduled, early⟩ := inTime
          refine ⟨fun _ => .inr ⟨fireDate, scheduled, early⟩, ?_⟩
          intro sends
          rw [scheduleSleepTimer_sendIdleEvents, quiet.1] at sends
          cases sends
        next => exact unchanged _ notBackground ⟨rfl, rfl, rfl, rfl⟩ rfl
    next => exact unchanged _ notBackground ⟨rfl, rfl, rfl, rfl⟩ rfl

theorem didUpdateFrame_eq (timing : RCTTiming) (timestamp : NSTimeInterval) :
    timing.didUpdateFrame clock timestamp =
      ((timing.callTimers clock).1.callIdleCallbacks clock timestamp).maybePause clock
        (timing.callTimers clock).2.1 (timing.callTimers clock).2.2 := rfl

theorem didUpdateFrame_mode (timing : RCTTiming) (timestamp : NSTimeInterval) :
    (timing.didUpdateFrame clock timestamp).inBackground = timing.inBackground ∧
      (timing.paused = true → (timing.didUpdateFrame clock timestamp).paused = true) := by
  have called := callTimers_sameMode clock timing
  have idle := (callIdleCallbacks_sameMode clock (timing.callTimers clock).1 timestamp).1
  obtain ⟨background, pause⟩ := maybePause_mode clock
    ((timing.callTimers clock).1.callIdleCallbacks clock timestamp)
    (timing.callTimers clock).2.1 (timing.callTimers clock).2.2
  constructor
  · exact background.trans (idle.inBackground.trans called.inBackground)
  · intro isPaused
    exact pause (idle.paused.trans (called.paused.trans isPaused))

/-- **A frame leaves no timer without a wake-up.** -/
theorem didUpdateFrame_wakeUp (timestamp : NSTimeInterval)
    (driven : timing.inBackground = false → timing.paused = false ∨ timing.hasPendingTimers = false) :
    WakeUp (timing.didUpdateFrame clock timestamp) := by
  have called := callTimers_sameMode clock timing
  obtain ⟨idle, timers⟩ := callIdleCallbacks_sameMode clock (timing.callTimers clock).1 timestamp
  rw [didUpdateFrame_eq]
  apply maybePause_wakeUp
  · rw [timers]
    exact callTimers_next clock timing
  · intro foreground
    rw [idle.inBackground, called.inBackground] at foreground
    rcases driven foreground with runs | none
    · exact .inl (idle.paused.trans (called.paused.trans runs))
    · rw [hasPendingTimers_eq_false_iff] at none
      refine .inr ((hasPendingTimers_eq_false_iff _).mpr ⟨?_, ?_⟩)
      · exact idle.sendIdleEvents.trans (called.sendIdleEvents.trans none.1)
      · exact timers.trans (callTimers_nil clock none.2)

/-! ### Runs -/

/-- Pending timers have a wake-up, and the display link is paused in the background. -/
structure Driven (timing : RCTTiming) : Prop where
  wakeUp : WakeUp timing
  background : timing.inBackground = true → timing.paused = true

theorem Driven.initial : Driven {} := ⟨⟨fun pending => absurd rfl pending, nofun⟩, nofun⟩

theorem Driven.didUpdateFrame (timestamp : NSTimeInterval)
    (background : timing.inBackground = true → timing.paused = true)
    (driven : timing.inBackground = false → timing.paused = false ∨ timing.hasPendingTimers = false) :
    Driven (timing.didUpdateFrame clock timestamp) := by
  obtain ⟨sameBackground, staysPaused⟩ := didUpdateFrame_mode clock timing timestamp
  refine ⟨didUpdateFrame_wakeUp clock timestamp driven, ?_⟩
  rw [sameBackground]
  exact fun inBackground => staysPaused (background inBackground)

theorem startTimers_inBackground (timing : RCTTiming) :
    timing.startTimers.inBackground = timing.inBackground := by
  unfold startTimers
  split <;> rfl

theorem startTimers_foreground (foreground : timing.inBackground = false) :
    timing.startTimers.paused = false ∨ timing.startTimers.hasPendingTimers = false := by
  unfold startTimers
  split
  next none =>
    rw [foreground, Bool.false_or, Bool.not_eq_true'] at none
    exact .inr none
  next => exact .inl rfl

theorem startTimers_background (background : timing.inBackground = true → timing.paused = true) :
    timing.startTimers.inBackground = true → timing.startTimers.paused = true := by
  unfold startTimers
  split
  next => exact background
  next pending =>
    intro inBackground
    rw [Bool.not_eq_true, Bool.or_eq_false_iff] at pending
    rw [pending.1] at inBackground
    cases inBackground

theorem WakeUp.of_foreground (foreground : timing.inBackground = false)
    (driven : timing.paused = false ∨ timing.hasPendingTimers = false) : WakeUp timing := by
  rcases driven with runs | none
  · exact ⟨fun _ => .inl ⟨runs, foreground⟩, fun _ _ => runs⟩
  · rw [hasPendingTimers_eq_false_iff] at none
    refine ⟨fun pending => absurd none.2 pending, ?_⟩
    intro sends
    rw [none.1] at sends
    cases sends

theorem Driven.startTimers (foreground : timing.inBackground = false) :
    Driven timing.startTimers := by
  have stays := startTimers_inBackground timing
  refine ⟨.of_foreground (stays.trans foreground) (startTimers_foreground foreground), ?_⟩
  intro background
  rw [stays, foreground] at background
  cases background

theorem WakeUp.removeTimer (wakeUp : WakeUp timing) (callbackID : ℤ) :
    WakeUp (timing.removeTimer callbackID) := by
  have fewer : (timing.removeTimer callbackID).timers ⊆ timing.timers := filter_subset_self _
  refine ⟨?_, wakeUp.idleEvents⟩
  intro pending
  have pendingBefore : timing.timers ≠ [] := by
    intro none
    rw [none] at fewer
    exact pending (eq_nil_of_subset_nil fewer)
  rcases wakeUp.timers pendingBefore with runs | ⟨fireDate, scheduled, inTime⟩
  · exact .inl runs
  · exact .inr ⟨fireDate, scheduled, fun timer member => inTime timer (fewer member)⟩

theorem Driven.stopTimers (driven : Driven timing)
    (none : timing.hasPendingTimers = false) : Driven timing.stopTimers := by
  unfold RCTTiming.stopTimers
  split
  · exact driven
  next foreground =>
    rw [Bool.not_eq_true] at foreground
    exact ⟨.of_foreground foreground (.inr none), fun _ => rfl⟩

theorem Driven.deleteTimer (driven : Driven timing) (timerID : ℤ) :
    Driven (timing.deleteTimer timerID) := by
  have removed : Driven (timing.removeTimer timerID) :=
    ⟨driven.wakeUp.removeTimer timerID, driven.background⟩
  unfold RCTTiming.deleteTimer
  dsimp only
  split
  · exact removed
  next none =>
    rw [Bool.not_eq_true] at none
    exact removed.stopTimers none

theorem Driven.setSendIdleEvents (driven : Driven timing)
    (sendIdleEvents : Bool) : Driven (timing.setSendIdleEvents sendIdleEvents) := by
  unfold RCTTiming.setSendIdleEvents
  cases sendIdleEvents with
  | true =>
    by_cases background : timing.inBackground = true
    · -- In the background the events are only noted.
      have noted : ({ timing with sendIdleEvents := true } : RCTTiming).startTimers =
          { timing with sendIdleEvents := true } := by
        simp [RCTTiming.startTimers, background]
      rw [if_pos rfl, noted]
      refine ⟨⟨driven.wakeUp.timers, ?_⟩, driven.background⟩
      intro _ foreground
      rw [background] at foreground
      cases foreground
    · rw [Bool.not_eq_true] at background
      exact Driven.startTimers background
  | false =>
    have unset : Driven { timing with sendIdleEvents := false } :=
      ⟨⟨driven.wakeUp.timers, nofun⟩, driven.background⟩
    rw [if_neg Bool.false_ne_true]
    split
    · exact unset
    next none =>
      rw [Bool.not_eq_true] at none
      exact unset.stopTimers none

theorem mem_addTimer {timer other : RCTTimer}
    (member : other ∈ (timing.addTimer timer).timers) : other ∈ timing.timers ∨ other = timer := by
  rcases mem_append.mp member with kept | added
  · exact .inl (mem_of_mem_filter kept)
  · exact .inr (mem_singleton.mp added)

theorem scheduleSleepTimer_added (timer : RCTTimer) (readings : ℕ)
    (inTime : timing.timers ≠ [] → timing.SleepTimerInTime) :
    (({ timing.addTimer timer with readings := readings }
      : RCTTiming).scheduleSleepTimer timer.target).SleepTimerInTime := by
  obtain ⟨fireDate, scheduled, early, earlier⟩ := scheduleSleepTimer_sleepTimer
    ({ timing.addTimer timer with readings := readings } : RCTTiming) timer.target
  refine ⟨fireDate, scheduled, ?_⟩
  rw [scheduleSleepTimer_timers]
  intro other member
  rcases mem_addTimer member with present | rfl
  · obtain ⟨before, was, covers⟩ := inTime (ne_nil_of_mem present)
    exact le_trans (earlier before was) (covers other present)
  · exact early

theorem Driven.createTimerForNextFrame (driven : Driven timing) (callbackID : ℤ)
    (jsDuration jsSchedulingTime : NSTimeInterval) (repeats : Bool) :
    Driven (timing.createTimerForNextFrame clock callbackID jsDuration jsSchedulingTime repeats) := by
  -- A display link that does not run leaves the timers to the sleep timer.
  have inTime : timing.paused = true ∨ timing.inBackground = true →
      timing.timers ≠ [] → timing.SleepTimerInTime := by
    intro stopped pending
    refine (driven.wakeUp.timers pending).resolve_left ?_
    rintro ⟨runs, foreground⟩
    rw [runs, foreground] at stopped
    rcases stopped with pauses | background
    · cases pauses
    · cases background
  unfold RCTTiming.createTimerForNextFrame wakeUpFor
  dsimp only
  split
  next background =>
    refine ⟨⟨fun _ => .inr (scheduleSleepTimer_added _ _ (inTime (.inr background))), ?_⟩, ?_⟩
    · intro _ foreground
      rw [scheduleSleepTimer_inBackground] at foreground
      cases background.symm.trans foreground
    · intro _
      rw [scheduleSleepTimer_paused]
      exact driven.background background
  next foreground =>
    rw [Bool.not_eq_true] at foreground
    split
    next pauses =>
      split
      · refine ⟨⟨fun _ => .inr (scheduleSleepTimer_added _ _ (inTime (.inl pauses))), ?_⟩, ?_⟩
        · intro sends _
          rw [scheduleSleepTimer_sendIdleEvents] at sends
          cases pauses.symm.trans (driven.wakeUp.idleEvents sends foreground)
        · intro _
          rw [scheduleSleepTimer_paused]
          exact pauses
      · exact Driven.startTimers foreground
    next runs =>
      rw [Bool.not_eq_true] at runs
      exact ⟨.of_foreground foreground (.inl runs), driven.background⟩

theorem Driven.timerDidFire (driven : Driven timing) : Driven (timing.timerDidFire clock) := by
  unfold RCTTiming.timerDidFire
  split
  next =>
    apply Driven.didUpdateFrame
    · exact startTimers_background driven.background
    · intro foreground
      rw [startTimers_inBackground] at foreground
      exact startTimers_foreground foreground
  next runs =>
    rw [Bool.not_eq_true] at runs
    have foreground : timing.inBackground = false := by
      by_contra background
      rw [Bool.not_eq_false] at background
      rw [driven.background background] at runs
      cases runs
    exact ⟨.of_foreground foreground (.inl runs), driven.background⟩

theorem Driven.appDidMoveToBackground (driven : Driven timing) :
    Driven (timing.appDidMoveToBackground clock) := by
  have stopped : timing.stopTimers.paused = true := by
    unfold RCTTiming.stopTimers
    split
    next background => exact driven.background background
    next => rfl
  apply Driven.didUpdateFrame
  · exact fun _ => stopped
  · nofun

theorem Driven.step {next : RCTTiming} {event : RCTTimingEvent} (driven : Driven timing)
    (stepped : step clock timing event = some next) : Driven next := by
  -- One case for each event; timers started for a frame keep the display link running.
  cases event with
  | createTimer callbackID jsDuration _ repeats =>
    cases stepped
    unfold RCTTiming.createTimer
    split
    · exact ⟨⟨driven.wakeUp.timers, driven.wakeUp.idleEvents⟩, driven.background⟩
    · exact driven.createTimerForNextFrame clock callbackID jsDuration _ repeats
  | deleteTimer timerID =>
    cases stepped
    exact driven.deleteTimer timerID
  | setSendIdleEvents sendIdleEvents =>
    cases stepped
    exact driven.setSendIdleEvents sendIdleEvents
  | frameUpdate timestamp =>
    rw [RCTTiming.step] at stepped
    split at stepped
    next => cases stepped
    next runs =>
      cases stepped
      rw [Bool.not_eq_true] at runs
      exact Driven.didUpdateFrame clock timestamp driven.background fun _ => .inl runs
  | sleepTimerFires =>
    rw [RCTTiming.step] at stepped
    split at stepped
    · cases stepped
      exact driven.timerDidFire clock
    · cases stepped
  | moveToBackground =>
    cases stepped
    exact driven.appDidMoveToBackground clock
  | moveToForeground =>
    cases stepped
    exact Driven.startTimers rfl

/-- **Native timers always have a wake-up**, after every step of every run, whatever the clock
shows. -/
theorem run_wakeUp {events : List RCTTimingEvent} {final : RCTTiming}
    (ran : run (step clock) {} events = some final) : WakeUp final :=
  Driven.wakeUp <|
    run_induction (fun _ _ _ driven _ stepped => driven.step clock stepped) Driven.initial
      (along_of_forall (fun _ _ => trivial) _) ran

theorem run_wakeUp_sleeping : ∃ final, run (step fun reading => reading / 10) {}
        [.createTimer 1 5 0 true, .moveToBackground, .moveToForeground, .frameUpdate 0] =
          some final ∧ final.paused = true ∧ final.timers ≠ [] ∧ WakeUp final := by
  have ran : run (step fun reading => reading / 10) {}
      [.createTimer 1 5 0 true, .moveToBackground, .moveToForeground, .frameUpdate 0] =
        some { timers := [⟨1, 5, true, 51 / 10⟩], sleepTimer := some (51 / 10), readings := 6 } := by
    decide +kernel
  exact ⟨_, ran, rfl, cons_ne_nil _ _, run_wakeUp _ ran⟩

end RCTTiming

end ReactNative

