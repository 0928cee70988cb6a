import Mathlib.Tactic.Linarith
import ReactNative.Timers.JavaTimers
import ReactNative.Timers.RCTTiming

/-! `RCTTiming` takes the time that a request took from the first target only: the interval of a
timer is its duration, and it is counted anew from a reading of the clock after the call
(`RCTTiming.keepsPeriod`). -/
namespace ReactNative

open Runs List

def JSTimersCall.timers : JSTimersCall → List ℤ
  | .callTimers timers => timers
  | .callIdleCallbacks _ => []
  | .immediatelyCallTimer timer => [timer]

def RCTTimingEvent.createdID : RCTTimingEvent → Option ℤ
  | .createTimer callbackID _ _ _ => some callbackID
  | .deleteTimer _ | .setSendIdleEvents _ | .frameUpdate _ | .sleepTimerFires | .moveToBackground
  | .moveToForeground => none

namespace RCTTiming

def calledSince (timing next : RCTTiming) : List ℤ :=
  (next.jsCalls.drop timing.jsCalls.length).flatMap (·.timers)

/-- An update begins with the reading of the clock that decides which timers are called. -/
def fires (clock : ℕ → NSTimeInterval) (callbackID : ℤ) (timing : RCTTiming) (_ : RCTTimingEvent)
    (next : RCTTiming) : List NSTimeInterval :=
  ((calledSince timing next).filter (· = callbackID)).map fun _ => clock timing.readings

/-- `setInterval` with the duration, for any clock that does not go back: from then on the timer is
called at least its duration apart, and for the first time no earlier than what the request has
left of the duration. An id is not used again. -/
def KeepsPeriod (callbackID : ℤ) (jsDuration : NSTimeInterval) : Prop :=
  ∀ clock : ℕ → NSTimeInterval, Monotone clock →
    ∀ (timing : RCTTiming) (jsSchedulingTime : NSTimeInterval) (events : List RCTTimingEvent),
      (∀ timer ∈ timing.timers, timer.callbackID ≠ callbackID) →
      (∀ event ∈ events, event.createdID ≠ some callbackID) →
      jsSchedulingTime / 1000 ≤ clock timing.readings →
      Spaced jsDuration
        (clock timing.readings + (jsDuration - (clock timing.readings - jsSchedulingTime / 1000)))
        (firings (step clock) (fires clock callbackID)
          (timing.createTimer clock callbackID jsDuration jsSchedulingTime true) events)

/-- The timer with the id, if it is still there, repeats with the interval, and has its target no
earlier than the earliest time. -/
def InTime (callbackID : ℤ) (interval earliest : NSTimeInterval) (timing : RCTTiming) : Prop :=
  Sole (fun timer : RCTTimer => timer.callbackID = callbackID)
    (fun timer => timer.repeats = true ∧ timer.interval = interval ∧ earliest ≤ timer.target)
    timing.timers

section

variable (clock : ℕ → NSTimeInterval) {callbackID : ℤ} {interval earliest : NSTimeInterval}

/-! ### What the parts of an update call -/

theorem afterCall_jsCalls (toCall : List RCTTimer) (next : NSTimeInterval) (timing : RCTTiming) :
    (afterCall clock toCall next timing).1.jsCalls = timing.jsCalls := by
  induction toCall generalizing next timing with
  | nil => rfl
  | cons timer _ ih =>
    rw [afterCall]
    split
    · exact ih _ (timing.reschedule clock timer)
    · exact ih next (timing.removeTimer timer.callbackID)

variable (timing : RCTTiming)

def timersToCall : List RCTTimer := timing.timers.filter (·.shouldFire (clock timing.readings))

theorem callTimers_afterCall :
    ∃ next called, called.timers = timing.timers ∧ called.readings = timing.readings + 1 ∧
      (timing.callTimers clock).1 = (afterCall clock (timersToCall clock timing) next called).1 := by
  refine ⟨_, _, ?_, ?_, rfl⟩
  · split <;> rfl
  · split <;> rfl

theorem callTimers_calledSince : (calledSince timing (timing.callTimers clock).1).Perm
      ((timersToCall clock timing).map (·.callbackID)) := by
  unfold callTimers calledSince
  rw [afterCall_jsCalls]
  split
  next none =>
    rw [List.isEmpty_iff] at none
    simp [timersToCall, none]
  next =>
    simp only [drop_left, flatMap_cons, flatMap_nil, append_nil]
    exact (mergeSort_perm _ _).map _

theorem callTimers_jsCalls_length :
    timing.jsCalls.length ≤ (timing.callTimers clock).1.jsCalls.length := by
  unfold callTimers
  rw [afterCall_jsCalls]
  split <;> simp

theorem callIdleCallbacks_jsCalls (timestamp : NSTimeInterval) : ∃ idle : List JSTimersCall,
      (timing.callIdleCallbacks clock timestamp).jsCalls = timing.jsCalls ++ idle ∧
        idle.flatMap (·.timers) = [] := by
  unfold callIdleCallbacks
  split
  · dsimp only
    split
    · exact ⟨_, rfl, rfl⟩
    · exact ⟨[], by simp, rfl⟩
  · exact ⟨[], by simp, rfl⟩

theorem scheduleSleepTimer_jsCalls (sleepTarget : NSTimeInterval) :
    (timing.scheduleSleepTimer sleepTarget).jsCalls = timing.jsCalls := by
  unfold scheduleSleepTimer
  split <;> rfl

theorem maybePause_same (next : NSTimeInterval) (noneCalled : Bool) :
    (timing.maybePause clock next noneCalled).timers = timing.timers ∧
      (timing.maybePause clock next noneCalled).jsCalls = timing.jsCalls := by
  unfold maybePause
  grind [scheduleSleepTimer_timers, scheduleSleepTimer_jsCalls]

/-! ### What an update does with the timer -/

variable {timing : RCTTiming}

theorem afterCall_inTime (toCall : List RCTTimer) (next : NSTimeInterval)
    (sole : Sole (fun timer : RCTTimer => timer.callbackID = callbackID)
      (fun timer => timer.repeats = true ∧ timer.interval = interval ∧
        (earliest ≤ timer.target ∨ callbackID ∈ toCall.map (·.callbackID))) timing.timers)
    (called : ∀ timer ∈ toCall, timer.callbackID = callbackID →
      timer.repeats = true ∧ timer.interval = interval)
    (later : callbackID ∈ toCall.map (·.callbackID) →
      ∀ reading, timing.readings ≤ reading → earliest ≤ clock reading + interval) :
    InTime callbackID interval earliest (afterCall clock toCall next timing).1 := by
  induction toCall generalizing next timing with
  | nil => exact sole.mono fun timer ⟨repeats, same, inTime⟩ => ⟨repeats, same, by simpa using inTime⟩
  | cons timer rest ih =>
    have calledRest := fun other member => called other (mem_cons_of_mem timer member)
    rw [afterCall]
    split
    next =>
      apply ih _ _ calledRest
      · intro member reading after
        exact later (mem_cons_of_mem _ member) reading (Nat.le_of_succ_le after)
      · refine sole.map ?_ ?_
        · intro other
          split
          next timerIs => rw [timerIs]
          next => exact Iff.rfl
        rintro other present is ⟨repeats, same, inTime⟩
        split
        next timerIs =>
          -- It is the timer that is rescheduled.
          have isTimer := timerIs.symm.trans is
          obtain ⟨repeatsTimer, sameTimer⟩ := called timer mem_cons_self isTimer
          have isCalled : callbackID ∈ (timer :: rest).map (·.callbackID) := by
            simp [isTimer]
          refine ⟨repeatsTimer, sameTimer, .inl ?_⟩
          rw [sameTimer]
          exact later isCalled timing.readings (Nat.le_refl _)
        next differs =>
          refine ⟨repeats, same, inTime.imp_right ?_⟩
          intro member
          rcases mem_cons.mp member with isTimer | member
          · exact absurd (is.trans isTimer) differs
          · exact member
    next once =>
      have differs : timer.callbackID ≠ callbackID := by
        intro is
        exact once (called timer mem_cons_self is).1
      apply ih _ _ calledRest
      · exact fun member => later (mem_cons_of_mem _ member)
      · refine (sole.sublist filter_sublist).mono ?_
        rintro other ⟨repeats, same, inTime⟩
        refine ⟨repeats, same, inTime.imp_right ?_⟩
        intro member
        rcases mem_cons.mp member with isTimer | member
        · exact absurd isTimer.symm differs
        · exact member

theorem callTimers_inTime (forward : Monotone clock)
    (inTime : InTime callbackID interval earliest timing) :
    ((calledSince timing (timing.callTimers clock).1).count callbackID = 0 ∧
      InTime callbackID interval earliest (timing.callTimers clock).1) ∨
    ((calledSince timing (timing.callTimers clock).1).count callbackID = 1 ∧
      earliest ≤ clock timing.readings ∧
      InTime callbackID interval (clock timing.readings + interval)
        (timing.callTimers clock).1) := by
  have count := (callTimers_calledSince clock timing).count_eq callbackID
  have fewer : (timersToCall clock timing).Sublist timing.timers := filter_sublist
  -- There is one timer with the id at most, so that it is called once at most.
  have atMost : ((timersToCall clock timing).map (·.callbackID)).count callbackID ≤ 1 := by
    rw [count_eq_countP, countP_map]
    have one := (inTime.sublist fewer).one
    exact one
  have called : ∀ timer ∈ timersToCall clock timing, timer.callbackID = callbackID →
      timer.repeats = true ∧ timer.interval = interval := by
    intro timer member is
    obtain ⟨repeats, same, _⟩ := inTime.good timer (fewer.subset member) is
    exact ⟨repeats, same⟩
  obtain ⟨next, read, timers, readings, after⟩ := callTimers_afterCall clock timing
  rw [after] at count ⊢
  by_cases isCalled : callbackID ∈ (timersToCall clock timing).map (·.callbackID)
  · right
    obtain ⟨timer, member, is⟩ := mem_map.mp isCalled
    obtain ⟨present, due⟩ := mem_filter.mp member
    obtain ⟨_, _, reached⟩ := inTime.good timer present is
    refine ⟨?_, ?_, ?_⟩
    · rw [count]
      exact le_antisymm atMost (one_le_count_iff.mpr isCalled)
    · rw [RCTTimer.shouldFire, decide_eq_true_iff, sub_nonpos] at due
      exact le_trans reached due
    · refine afterCall_inTime clock (timersToCall clock timing) next ?_ called ?_
      · rw [timers]
        exact inTime.mono fun timer ⟨repeats, same, _⟩ => ⟨repeats, same, .inr isCalled⟩
      · -- The clock is read again for each timer that is rescheduled.
        intro _ reading later
        rw [readings] at later
        have notBack := forward (Nat.le_of_succ_le later)
        linarith
  · left
    constructor
    · rw [count]
      exact count_eq_zero.mpr isCalled
    · refine afterCall_inTime clock (timersToCall clock timing) next ?_ called ?_
      · rw [timers]
        exact inTime.mono fun timer ⟨repeats, same, later⟩ => ⟨repeats, same, .inl later⟩
      · intro member
        exact absurd member isCalled

def Fired (callbackID : ℤ) (interval earliest : NSTimeInterval) (timing next : RCTTiming) : Prop :=
  ((calledSince timing next).count callbackID = 0 ∧ InTime callbackID interval earliest next) ∨
    ((calledSince timing next).count callbackID = 1 ∧ earliest ≤ clock timing.readings ∧
      InTime callbackID interval (clock timing.readings + interval) next)

structure SameTimers (timing other : RCTTiming) : Prop where
  timers : other.timers = timing.timers
  jsCalls : other.jsCalls = timing.jsCalls
  readings : other.readings = timing.readings

theorem InTime.of_same {other : RCTTiming} (same : SameTimers timing other)
    (inTime : InTime callbackID interval earliest timing) :
    InTime callbackID interval earliest other := by
  rw [InTime, same.timers]
  exact inTime

variable {next : RCTTiming}

theorem Fired.of_same {other : RCTTiming} (same : SameTimers timing other)
    (fired : Fired clock callbackID interval earliest other next) :
    Fired clock callbackID interval earliest timing next := by
  have called : calledSince timing next = calledSince other next := by
    rw [calledSince, calledSince, same.jsCalls]
  rw [Fired, called, ← same.readings]
  exact fired

theorem Fired.quiet (silent : next.jsCalls = timing.jsCalls)
    (inTime : InTime callbackID interval earliest next) :
    Fired clock callbackID interval earliest timing next := by
  refine .inl ⟨?_, inTime⟩
  rw [calledSince, silent, drop_length]
  rfl

theorem didUpdateFrame_fired (forward : Monotone clock)
    (inTime : InTime callbackID interval earliest timing) (timestamp : NSTimeInterval) :
    Fired clock callbackID interval earliest timing (timing.didUpdateFrame clock timestamp) := by
  have fired := callTimers_inTime clock forward inTime
  obtain ⟨_, idleCalls, none⟩ := callIdleCallbacks_jsCalls clock (timing.callTimers clock).1 timestamp
  have idleTimers := (callIdleCallbacks_sameMode clock (timing.callTimers clock).1 timestamp).2
  obtain ⟨timers, calls⟩ := maybePause_same clock
    ((timing.callTimers clock).1.callIdleCallbacks clock timestamp) (timing.callTimers clock).2.1
    (timing.callTimers clock).2.2
  rw [← didUpdateFrame_eq] at timers calls
  rw [idleTimers] at timers
  rw [idleCalls] at calls
  have same : calledSince timing (timing.didUpdateFrame clock timestamp) =
      calledSince timing (timing.callTimers clock).1 := by
    rw [calledSince, calledSince, calls,
      drop_append_of_le_length (callTimers_jsCalls_length clock timing), flatMap_append,
      none, append_nil]
  -- Idle callbacks and the pause leave timers and calls to them alone.
  rw [Fired, same, InTime, InTime, timers]
  exact fired

theorem stopTimers_same (timing : RCTTiming) : SameTimers timing timing.stopTimers := by
  unfold stopTimers
  split <;> exact ⟨rfl, rfl, rfl⟩

theorem startTimers_same (timing : RCTTiming) : SameTimers timing timing.startTimers := by
  unfold startTimers
  split <;> exact ⟨rfl, rfl, rfl⟩

theorem wakeUpFor_same (timing : RCTTiming) (timer : RCTTimer) :
    (timing.wakeUpFor clock timer).timers = timing.timers ∧
      (timing.wakeUpFor clock timer).jsCalls = timing.jsCalls := by
  have started := startTimers_same { timing with readings := timing.readings + 1 }
  unfold wakeUpFor
  split
  · exact ⟨scheduleSleepTimer_timers _ _, scheduleSleepTimer_jsCalls _ _⟩
  split
  · split
    · exact ⟨scheduleSleepTimer_timers _ _, scheduleSleepTimer_jsCalls _ _⟩
    · exact ⟨started.timers, started.jsCalls⟩
  · exact ⟨rfl, rfl⟩

theorem createTimerForNextFrame_same (timing : RCTTiming) (other : ℤ)
    (jsDuration jsSchedulingTime : NSTimeInterval) (repeats : Bool) :
    (timing.createTimerForNextFrame clock other jsDuration jsSchedulingTime repeats).timers =
      (timing.addTimer (timerForNextFrame clock timing.readings other jsDuration jsSchedulingTime
        repeats)).timers ∧
    (timing.createTimerForNextFrame clock other jsDuration jsSchedulingTime repeats).jsCalls =
      timing.jsCalls :=
  wakeUpFor_same clock _ _

section

variable (inTime : InTime callbackID interval earliest timing)
include inTime

theorem InTime.createTimerForNextFrame {other : ℤ} (differs : other ≠ callbackID)
    (jsDuration jsSchedulingTime : NSTimeInterval) (repeats : Bool) :
    InTime callbackID interval earliest
      (timing.createTimerForNextFrame clock other jsDuration jsSchedulingTime repeats) := by
  rw [InTime, (createTimerForNextFrame_same clock timing other _ _ _).1, addTimer]
  refine Sole.perm ?_ (perm_append_singleton _ _).symm
  exact (Sole.sublist inTime filter_sublist).cons_other differs

theorem InTime.removeTimer (timerID : ℤ) :
    InTime callbackID interval earliest (timing.removeTimer timerID) :=
  Sole.sublist inTime filter_sublist

theorem createTimer_fired {other : ℤ} (differs : other ≠ callbackID)
    (jsDuration jsSchedulingTime : NSTimeInterval) (repeats : Bool) :
    Fired clock callbackID interval earliest timing
      (timing.createTimer clock other jsDuration jsSchedulingTime repeats) := by
  unfold createTimer
  split
  · -- Another timer is called at once.
    refine .inl ⟨?_, inTime⟩
    simp [calledSince, JSTimersCall.timers, differs]
  · exact .quiet clock (createTimerForNextFrame_same clock timing other _ _ _).2
      (inTime.createTimerForNextFrame clock differs _ _ _)

end

theorem step_fired (forward : Monotone clock) {event : RCTTimingEvent}
    (inTime : InTime callbackID interval earliest timing)
    (notReused : event.createdID ≠ some callbackID) (stepped : timing.step clock event = some next) :
    Fired clock callbackID interval earliest timing next := by
  cases event with
  | createTimer =>
    cases stepped
    exact createTimer_fired clock inTime (fun same => notReused (congrArg some same)) _ _ _
  | deleteTimer timerID =>
    cases stepped
    have removed := inTime.removeTimer timerID
    unfold deleteTimer
    dsimp only
    split
    · exact .quiet clock rfl removed
    · have stopped := stopTimers_same (timing.removeTimer timerID)
      exact .quiet clock stopped.jsCalls (removed.of_same stopped)
  | setSendIdleEvents sendIdleEvents =>
    cases stepped
    have started := startTimers_same { timing with sendIdleEvents := sendIdleEvents }
    have stopped := stopTimers_same { timing with sendIdleEvents := sendIdleEvents }
    unfold setSendIdleEvents
    dsimp only
    split
    · exact .quiet clock started.jsCalls (InTime.of_same started inTime)
    split
    · exact .quiet clock rfl inTime
    · exact .quiet clock stopped.jsCalls (InTime.of_same stopped inTime)
  | frameUpdate timestamp =>
    rw [step] at stepped
    split at stepped
    · cases stepped
    · cases stepped
      exact didUpdateFrame_fired clock forward inTime timestamp
  | sleepTimerFires =>
    rw [step] at stepped
    split at stepped
    · cases stepped
      unfold timerDidFire
      split
      · have started := startTimers_same { timing with sleepTimer := none }
        have same : SameTimers timing ({ timing with sleepTimer := none } : RCTTiming).startTimers :=
          ⟨started.timers, started.jsCalls, started.readings⟩
        exact .of_same clock same (didUpdateFrame_fired clock forward (inTime.of_same same) 0)
      · exact .quiet clock rfl inTime
    · cases stepped
  | moveToBackground =>
    cases stepped
    -- The update in the background calls what is due.
    have stopped := stopTimers_same timing
    have same : SameTimers timing { timing.stopTimers with inBackground := true } :=
      ⟨stopped.timers, stopped.jsCalls, stopped.readings⟩
    exact .of_same clock same (didUpdateFrame_fired clock forward (inTime.of_same same) 0)
  | moveToForeground =>
    cases stepped
    have started := startTimers_same { timing with inBackground := false }
    exact .quiet clock started.jsCalls (InTime.of_same started inTime)

theorem fires_eq (timing next : RCTTiming) (event : RCTTimingEvent) :
    fires clock callbackID timing event next =
      replicate ((calledSince timing next).count callbackID) (clock timing.readings) := by
  rw [fires, filter_eq, map_replicate]

end

/-- **iOS keeps the period**, whatever the request has taken. -/
theorem keepsPeriod {callbackID : ℤ} {jsDuration : NSTimeInterval} (long : 18 / 1000 ≤ jsDuration) :
    KeepsPeriod callbackID jsDuration := by
  intro clock forward timing jsSchedulingTime events fresh notReused received
  have inTime : InTime callbackID jsDuration
      (clock timing.readings + (jsDuration - (clock timing.readings - jsSchedulingTime / 1000)))
      (timing.createTimer clock callbackID jsDuration jsSchedulingTime true) := by
    rw [createTimer, if_neg (by simp), InTime,
      (createTimerForNextFrame_same clock timing callbackID _ _ _).1, addTimer]
    refine Sole.perm ?_ (perm_append_singleton _ _).symm
    apply Sole.cons_same
    · intro other member
      exact fresh other (mem_of_mem_filter member)
    · refine ⟨rfl, if_neg (not_lt.mpr long), ?_⟩
      -- The target counts from the second reading.
      have notBack := forward (Nat.le_succ timing.readings)
      have overhead : max (-(jsSchedulingTime / 1000 - clock timing.readings)) 0 =
          clock timing.readings - jsSchedulingTime / 1000 := by
        rw [neg_sub, max_eq_left (sub_nonneg.mpr received)]
      dsimp only [timerForNextFrame]
      linarith
  refine firings_spaced (InTime callbackID jsDuration) ?_ inTime (along_of_forall notReused _)
  intro earliest state event next start allowed stepped
  rw [fires_eq]
  rcases step_fired clock forward start allowed stepped with ⟨none, later⟩ | ⟨one, reached, later⟩
  · rw [none]
    exact .inl ⟨rfl, later⟩
  · rw [one]
    exact .inr ⟨_, rfl, reached, later⟩

end RCTTiming

/-- **Both keep the period exactly if the request takes no time**, for an interval of at least 18
milliseconds that is received no earlier than it was made. -/
theorem setInterval_keepsPeriod_iff {callbackID duration jsSchedulingTime currentTimeMillis : ℤ}
    (long : 18 ≤ duration) (small : duration < 2 ^ 31)
    (received : jsSchedulingTime ≤ currentTimeMillis) :
    (JavaTimers.KeepsPeriod callbackID duration jsSchedulingTime currentTimeMillis ∧
      ∀ jsDuration, 18 / 1000 ≤ jsDuration → RCTTiming.KeepsPeriod callbackID jsDuration) ↔
      currentTimeMillis = jsSchedulingTime := by
  rw [and_iff_left fun _ => RCTTiming.keepsPeriod]
  exact JavaTimers.keepsPeriod_iff long small received

theorem setInterval_keepsPeriod_iff_onTime : JavaTimers.KeepsPeriod 1 1000 500 500 ∧
      ∀ jsDuration, 18 / 1000 ≤ jsDuration → RCTTiming.KeepsPeriod 1 jsDuration :=
  (setInterval_keepsPeriod_iff (by decide) (by decide) (by decide)).mpr rfl

theorem lateInterval_shortened : firings JavaTimers.step (JavaTimers.fires 1)
        (({} : JavaTimers).createAndMaybeCallTimer 1 1000 0 true 400 0)
        (JavaTimers.earlyFrames 600) = [601999999, 1202000000] ∧
      ¬ JavaTimers.KeepsPeriod 1 1000 0 400 := by
  have fired : firings JavaTimers.step (JavaTimers.fires 1)
      (({} : JavaTimers).createAndMaybeCallTimer 1 1000 0 true 400 0)
      (JavaTimers.earlyFrames 600) = [601999999, 1202000000] := by
    decide
  refine ⟨fired, ?_⟩
  intro keeps
  have spaced := keeps {} 0 (JavaTimers.earlyFrames 600) (by decide) (by decide) (by decide)
  rw [fired] at spaced
  exact absurd spaced (by decide)

end ReactNative

