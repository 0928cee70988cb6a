import Mathlib.Algebra.Order.Ring.Int
import Mathlib.Data.List.Sort
import ReactNative.Foundation.Firings
import ReactNative.Foundation.SoleEntries
import ReactNative.Timers.JavaTimerManager

/-! The queue of `JavaTimerManager` with the calls that it makes, over the frame callbacks. A timer
that repeats goes back into the queue with its interval, counted from the frame that called it. -/
namespace ReactNative

open Runs List

/-- `handle` tells one object from another. -/
structure JavaTimer where
  handle : ℕ
  callbackID : ℤ
  targetTime : ℤ
  interval : ℤ
  repeats : Bool

inductive JavaScriptTimerCall where
  | callTimers (timerIDs : List ℤ)
  | emitTimeDriftWarning (warningMessage : String)

def JavaScriptTimerCall.timerIDs : JavaScriptTimerCall → List ℤ
  | .callTimers timerIDs => timerIDs
  | .emitTimeDriftWarning _ => []

/-- The timers stand in the order in which the queue gives them out. -/
structure JavaTimers where
  manager : JavaTimerManager := {}
  devSupportEnabled : Bool := false
  timers : List JavaTimer := []
  timerIdsToTimers : ℤ → Option ℕ := fun _ => none
  created : ℕ := 0
  calls : List JavaScriptTimerCall := []

/-- Each with what it reads of the clocks of the system. -/
inductive JavaTimersEvent where
  | createTimer (callbackID delay : ℤ) (repeats : Bool) (nanoTime : ℤ)
  | createAndMaybeCallTimer (callbackID duration jsSchedulingTime : ℤ) (repeats : Bool)
      (currentTimeMillis nanoTime : ℤ)
  | deleteTimer (timerId : ℤ)
  | timerFrame (frameTimeNanos : ℤ)
  | manager (event : JavaTimerEvent)

namespace JavaTimersEvent

def createdID : JavaTimersEvent → Option ℤ
  | .createTimer callbackID _ _ _ => some callbackID
  | .createAndMaybeCallTimer callbackID _ _ _ _ _ => some callbackID
  | .deleteTimer _ | .timerFrame _ | .manager _ => none

def frameTime : JavaTimersEvent → Option ℤ
  | .timerFrame frameTimeNanos => some frameTimeNanos
  | .createTimer _ _ _ _ | .createAndMaybeCallTimer _ _ _ _ _ _ | .deleteTimer _ | .manager _ => none

end JavaTimersEvent

namespace JavaTimers

/-- The narrowing of a `long`. -/
def toInt (delay : ℤ) : ℤ := Int.bmod delay (2 ^ 32)

def add (timer : JavaTimer) (timers : List JavaTimer) : List JavaTimer :=
  timers.orderedInsert (fun first second => first.targetTime < second.targetTime) timer

variable (timers : JavaTimers)

def createTimer (callbackID delay : ℤ) (repeats : Bool) (nanoTime : ℤ) : JavaTimers :=
  let initialTargetTime := nanoTime.tdiv 1000000 + delay
  { timers with
    timers := add ⟨timers.created, callbackID, initialTargetTime, toInt delay, repeats⟩ timers.timers
    timerIdsToTimers := Function.update timers.timerIdsToTimers callbackID (some timers.created)
    created := timers.created + 1 }

def timeDriftWarning : String :=
  "Debugger and device times have drifted by more than 60s. Please correct this by " ++
    "running adb shell \"date `date +%m%d%H%M%Y.%S`\" on your debugger machine."

def createAndMaybeCallTimer (callbackID duration jsSchedulingTime : ℤ)
    (repeats : Bool) (currentTimeMillis nanoTime : ℤ) : JavaTimers :=
  let deviceTime := currentTimeMillis
  let remoteTime := jsSchedulingTime
  let warned : JavaTimers :=
    if timers.devSupportEnabled && 60000 < |remoteTime - deviceTime| then
      { timers with calls := timers.calls ++ [.emitTimeDriftWarning timeDriftWarning] }
    else timers
  let adjustedDuration := max 0 (remoteTime - deviceTime + duration)
  if duration = 0 ∧ repeats = false then
    { warned with calls := warned.calls ++ [.callTimers [callbackID]] }
  else warned.createTimer callbackID adjustedDuration repeats nanoTime

def deleteTimer (timerId : ℤ) : JavaTimers :=
  match timers.timerIdsToTimers timerId with
  | none => timers
  | some handle =>
    { timers with
      timerIdsToTimers := Function.update timers.timerIdsToTimers timerId none
      timers := timers.timers.filter fun timer => timer.handle ≠ handle }

/-- What the loop of `doFrame` does with the timer that it polled. -/
def polled (frameTimeMillis : ℤ) (timers : JavaTimers) (timer : JavaTimer) (rest : List JavaTimer) :
    JavaTimers :=
  if timer.repeats then
    { timers with
      timers := add { timer with targetTime := frameTimeMillis + timer.interval } rest }
  else
    { timers with
      timers := rest
      timerIdsToTimers := Function.update timers.timerIdsToTimers timer.callbackID none }

/-- The loop of `doFrame`, with the timers to call. A timer that repeats and has a negative
interval is due again at once, and the loop does not end; all others are polled once. -/
def callDue (frameTimeMillis : ℤ) : ℕ → JavaTimers → List ℤ → Option (JavaTimers × List ℤ)
  | fuel, timers, timersToCall =>
    match timers.timers with
    | [] => some (timers, timersToCall)
    | timer :: rest =>
      if timer.targetTime < frameTimeMillis then
        match fuel with
        | 0 => none
        | fuel + 1 =>
          callDue frameTimeMillis fuel (polled frameTimeMillis timers timer rest)
            (timersToCall ++ [timer.callbackID])
      else some (timers, timersToCall)

/-- `TimerFrameCallback.doFrame` for a host that is resumed or runs a task. -/
def doFrame (frameTimeNanos : ℤ) : Option JavaTimers :=
  match callDue (frameTimeNanos.tdiv 1000000) timers.timers.length timers [] with
  | none => none
  | some (called, timersToCall) =>
    if timersToCall.isEmpty then some called
    else some { called with calls := called.calls ++ [.callTimers timersToCall] }

/-- A frame comes for a callback that was posted, and has its time here. -/
def step (timers : JavaTimers) : JavaTimersEvent → Option JavaTimers
  | .createTimer callbackID delay repeats nanoTime =>
    some (timers.createTimer callbackID delay repeats nanoTime)
  | .createAndMaybeCallTimer callbackID duration jsSchedulingTime repeats currentTimeMillis nanoTime =>
    some (timers.createAndMaybeCallTimer callbackID duration jsSchedulingTime repeats
      currentTimeMillis nanoTime)
  | .deleteTimer timerId => some (timers.deleteTimer timerId)
  | .timerFrame frameTimeNanos =>
    match timers.manager.step .timerFrame with
    | none => none
    | some manager =>
      if timers.manager.isPaused && !timers.manager.isRunningTasks then
        some { timers with manager := manager }
      else ({ timers with manager := manager } : JavaTimers).doFrame frameTimeNanos
  | .manager .timerFrame => none
  | .manager event =>
    match timers.manager.step event with
    | none => none
    | some manager => some { timers with manager := manager }

def calledSince (timers next : JavaTimers) : List ℤ :=
  (next.calls.drop timers.calls.length).flatMap (·.timerIDs)

/-- The times, in nanoseconds, of the frames that call the timer. -/
def fires (callbackID : ℤ) (timers : JavaTimers) (event : JavaTimersEvent) (next : JavaTimers) :
    List ℤ :=
  match event with
  | .timerFrame frameTimeNanos =>
    ((calledSince timers next).filter (· = callbackID)).map fun _ => frameTimeNanos
  | _ => []

theorem add_perm (timer : JavaTimer) (timers : List JavaTimer) :
    (add timer timers).Perm (timer :: timers) :=
  perm_orderedInsert _ timer timers

@[simp] theorem polled_calls (frameTimeMillis : ℤ) (timers : JavaTimers) (timer : JavaTimer)
    (rest : List JavaTimer) : (polled frameTimeMillis timers timer rest).calls = timers.calls := by
  unfold polled
  split <;> rfl

/-! ### One frame -/

abbrev SoleTimer (callbackID : ℤ) (good : JavaTimer → Prop) (timers : List JavaTimer) : Prop :=
  Sole (fun timer : JavaTimer => timer.callbackID = callbackID) good timers

section

variable {callbackID : ℤ} {good : JavaTimer → Prop} {frameTimeMillis : ℤ}

theorem polled_other {timers : JavaTimers} {timer : JavaTimer} {rest : List JavaTimer}
    (sole : SoleTimer callbackID good rest) (differs : timer.callbackID ≠ callbackID) :
    SoleTimer callbackID good (polled frameTimeMillis timers timer rest).timers := by
  unfold polled
  split
  · refine Sole.perm ?_ (add_perm _ rest).symm
    exact sole.cons_other differs
  · exact sole

variable {fuel : ℕ} {after : JavaTimers} {timersToCall called : List ℤ}

theorem callDue_early {timers : JavaTimers}
    (sole : SoleTimer callbackID (fun timer => good timer ∧ frameTimeMillis ≤ timer.targetTime)
      timers.timers)
    (ran : callDue frameTimeMillis fuel timers timersToCall = some (after, called)) :
    SoleTimer callbackID good after.timers ∧ called.count callbackID = timersToCall.count callbackID := by
  have kept : SoleTimer callbackID good timers.timers := sole.mono fun _ both => both.1
  induction fuel generalizing timers timersToCall with
  | zero => grind [callDue]
  | succ fuel ih =>
    rw [callDue] at ran
    split at ran
    next =>
      cases ran
      exact ⟨kept, rfl⟩
    next timer rest queue =>
      split at ran
      next due =>
        -- The timer that is polled has another id, since it is due.
        have differs : timer.callbackID ≠ callbackID := by
          intro same
          have late := (sole.good timer (by rw [queue]; exact mem_cons_self) same).2
          omega
        rw [queue] at sole
        have behind := sole.sublist (sublist_cons_self timer rest)
        obtain ⟨stays, count⟩ := ih (polled_other behind differs) ran
          (polled_other (behind.mono fun _ both => both.1) differs)
        refine ⟨stays, ?_⟩
        rw [count, count_append, count_singleton]
        simp [differs]
      next =>
        cases ran
        exact ⟨kept, rfl⟩

theorem callDue_cases {interval : ℤ} (forward : 0 ≤ interval) {timers : JavaTimers}
    (sole : SoleTimer callbackID
      (fun timer => timer.repeats = true ∧ timer.interval = interval ∧ good timer) timers.timers)
    (ran : callDue frameTimeMillis fuel timers timersToCall = some (after, called)) :
    (called.count callbackID = timersToCall.count callbackID ∧ SoleTimer callbackID
        (fun timer => timer.repeats = true ∧ timer.interval = interval ∧ good timer)
        after.timers) ∨
    (called.count callbackID = timersToCall.count callbackID + 1 ∧
      (∃ timer, good timer ∧ timer.targetTime < frameTimeMillis) ∧
      SoleTimer callbackID (fun timer => timer.repeats = true ∧ timer.interval = interval ∧
        timer.targetTime = frameTimeMillis + interval) after.timers) := by
  induction fuel generalizing timers timersToCall with
  | zero => grind [callDue]
  | succ fuel ih =>
    rw [callDue] at ran
    split at ran
    next =>
      cases ran
      exact .inl ⟨rfl, sole⟩
    next timer rest queue =>
      split at ran
      next due =>
        rw [queue] at sole
        have behind := sole.sublist (sublist_cons_self timer rest)
        by_cases same : timer.callbackID = callbackID
        · -- The timer itself: it is not due again in this frame.
          obtain ⟨repeats, period, isGood⟩ := sole.good timer mem_cons_self same
          have again : (polled frameTimeMillis timers timer rest).timers =
              add { timer with targetTime := frameTimeMillis + timer.interval } rest := by
            rw [polled, if_pos repeats]
          have notDue : SoleTimer callbackID
              (fun timer => (timer.repeats = true ∧ timer.interval = interval ∧
                timer.targetTime = frameTimeMillis + interval) ∧
                frameTimeMillis ≤ timer.targetTime)
              (polled frameTimeMillis timers timer rest).timers := by
            rw [again]
            refine (Sole.cons_same (sole.not_mem_rest same) ?_).perm (add_perm _ rest).symm
            simpa [repeats, period] using forward
          obtain ⟨stays, count⟩ := callDue_early notDue ran
          refine .inr ⟨?_, ⟨timer, isGood, due⟩, stays⟩
          rw [count, count_append, count_singleton]
          simp [same]
        · -- Another timer.
          have count : (timersToCall ++ [timer.callbackID]).count callbackID =
              timersToCall.count callbackID := by
            simp [same]
          rw [← count]
          exact ih (polled_other behind same) ran
      next =>
        cases ran
        exact .inl ⟨rfl, sole⟩

theorem callDue_calls {timers : JavaTimers}
    (ran : callDue frameTimeMillis fuel timers timersToCall = some (after, called)) :
    after.calls = timers.calls := by
  induction fuel generalizing timers timersToCall with
  | zero => grind [callDue]
  | succ fuel ih =>
    rw [callDue] at ran
    split at ran
    next =>
      cases ran
      rfl
    next timer rest queue =>
      split at ran
      next => rw [ih ran, polled_calls]
      next =>
        cases ran
        rfl

end

theorem doFrame_cases {timers next : JavaTimers} {frameTimeNanos : ℤ}
    (ran : timers.doFrame frameTimeNanos = some next) :
    ∃ called timersToCall, callDue (frameTimeNanos.tdiv 1000000) timers.timers.length timers [] =
        some (called, timersToCall) ∧
      next.timers = called.timers ∧ calledSince timers next = timersToCall := by
  unfold doFrame at ran
  split at ran
  next => cases ran
  next called timersToCall looped =>
    refine ⟨called, timersToCall, looped, ?_⟩
    have calls := callDue_calls looped
    split at ran
    next none =>
      cases ran
      rw [List.isEmpty_iff] at none
      simp [calledSince, calls, none]
    next =>
      cases ran
      simp [calledSince, calls, JavaScriptTimerCall.timerIDs]

/-! ### Runs -/

/-- The timer with the id, if it is still there, repeats with the interval, and no frame that
comes before the earliest time calls it. -/
def InTime (callbackID interval earliest : ℤ) (timers : JavaTimers) : Prop :=
  SoleTimer callbackID
    (fun timer => timer.repeats = true ∧ timer.interval = interval ∧
      ∀ frameTimeNanos : ℤ, timer.targetTime < frameTimeNanos.tdiv 1000000 →
        earliest ≤ frameTimeNanos)
    timers.timers

theorem tdiv_million (nanos : ℤ) : 0 ≤ nanos ∧ nanos.tdiv 1000000 = nanos / 1000000 ∨
      nanos < 0 ∧ nanos.tdiv 1000000 = -(-nanos / 1000000) := by
  rcases le_or_gt 0 nanos with positive | negative
  · exact .inl ⟨positive, Int.tdiv_eq_ediv_of_nonneg positive⟩
  · refine .inr ⟨negative, ?_⟩
    rw [← Int.tdiv_eq_ediv_of_nonneg (by omega), Int.neg_tdiv, neg_neg]

theorem add_le_of_tdiv {start interval frameTimeNanos : ℤ} (forward : 0 ≤ interval)
    (later : start.tdiv 1000000 + interval < frameTimeNanos.tdiv 1000000) :
    start + interval * 1000000 ≤ frameTimeNanos := by
  have first := tdiv_million start
  have second := tdiv_million frameTimeNanos
  omega

section

variable {callbackID interval : ℤ} {earliest other : ℤ}

section

variable {timers : JavaTimers} (inTime : InTime callbackID interval earliest timers)
include inTime

theorem InTime.createTimer (differs : other ≠ callbackID) (delay : ℤ) (repeats : Bool)
    (nanoTime : ℤ) :
    InTime callbackID interval earliest (timers.createTimer other delay repeats nanoTime) :=
  (Sole.cons_other inTime differs).perm (add_perm _ _).symm

theorem InTime.createAndMaybeCallTimer (differs : other ≠ callbackID)
    (duration jsSchedulingTime : ℤ) (repeats : Bool) (currentTimeMillis nanoTime : ℤ) :
    InTime callbackID interval earliest (timers.createAndMaybeCallTimer other duration
      jsSchedulingTime repeats currentTimeMillis nanoTime) := by
  unfold JavaTimers.createAndMaybeCallTimer
  dsimp only
  split
  · split <;> exact inTime
  · apply InTime.createTimer _ differs
    split <;> exact inTime

theorem InTime.deleteTimer (timerId : ℤ) :
    InTime callbackID interval earliest (timers.deleteTimer timerId) := by
  unfold JavaTimers.deleteTimer
  split
  · exact inTime
  · exact Sole.sublist inTime filter_sublist

end

theorem InTime.doFrame {timers next : JavaTimers} {frameTimeNanos : ℤ} (forward : 0 ≤ interval)
    (inTime : InTime callbackID interval earliest timers)
    (ran : timers.doFrame frameTimeNanos = some next) :
    ((calledSince timers next).count callbackID = 0 ∧ InTime callbackID interval earliest next) ∨
      ((calledSince timers next).count callbackID = 1 ∧ earliest ≤ frameTimeNanos ∧
        InTime callbackID interval (frameTimeNanos + interval * 1000000) next) := by
  obtain ⟨_, _, looped, timersNext, calls⟩ := doFrame_cases ran
  rw [calls, InTime, InTime, timersNext]
  rcases callDue_cases forward inTime looped with ⟨count, stays⟩ | ⟨count, due, stays⟩
  · exact .inl ⟨count, stays⟩
  · obtain ⟨_, notBefore, late⟩ := due
    refine .inr ⟨count, notBefore frameTimeNanos late, stays.mono ?_⟩
    rintro again ⟨repeats, period, target⟩
    refine ⟨repeats, period, ?_⟩
    intro laterNanos later
    rw [target] at later
    exact add_le_of_tdiv forward later

theorem fires_timerFrame (timers next : JavaTimers) (frameTimeNanos : ℤ) :
    fires callbackID timers (.timerFrame frameTimeNanos) next =
      replicate ((calledSince timers next).count callbackID) frameTimeNanos := by
  rw [fires, filter_eq, map_replicate]

theorem step_inTime (forward : 0 ≤ interval) {timers next : JavaTimers} {event : JavaTimersEvent}
    (inTime : InTime callbackID interval earliest timers)
    (notReused : event.createdID ≠ some callbackID) (stepped : timers.step event = some next) :
    (fires callbackID timers event next = [] ∧ InTime callbackID interval earliest next) ∨
      ∃ time, fires callbackID timers event next = [time] ∧ earliest ≤ time ∧
        InTime callbackID interval (time + interval * 1000000) next := by
  cases event with
  | createTimer other _ repeats nanoTime =>
    cases stepped
    exact .inl ⟨rfl, inTime.createTimer (fun same => notReused (congrArg some same)) _ _ _⟩
  | createAndMaybeCallTimer other _ _ repeats _ nanoTime =>
    cases stepped
    exact .inl ⟨rfl,
      inTime.createAndMaybeCallTimer (fun same => notReused (congrArg some same)) _ _ _ _ _⟩
  | deleteTimer timerId =>
    cases stepped
    exact .inl ⟨rfl, inTime.deleteTimer timerId⟩
  | timerFrame frameTimeNanos =>
    rw [step] at stepped
    rw [fires_timerFrame]
    split at stepped
    next => cases stepped
    next manager posted =>
      split at stepped
      next =>
        -- The host is paused and no task is running.
        cases stepped
        exact .inl ⟨by simp [calledSince], inTime⟩
      next =>
        have sameCalls : calledSince { timers with manager := manager } next =
            calledSince timers next := rfl
        have sameTimers : InTime callbackID interval earliest { timers with manager := manager } :=
          inTime
        rcases sameTimers.doFrame forward stepped with ⟨none, stays⟩ | ⟨one, reached, later⟩
        · rw [← sameCalls, none]
          exact .inl ⟨rfl, stays⟩
        · rw [← sameCalls, one]
          exact .inr ⟨frameTimeNanos, rfl, reached, later⟩
  | manager event =>
    refine .inl ⟨rfl, ?_⟩
    cases event <;> grind [step, InTime]

end

/-- **A timer keeps its interval.** Over every run, the frames that call it are at least its
interval apart. -/
theorem firings_spaced_interval {callbackID interval earliest : ℤ} (forward : 0 ≤ interval)
    {timers : JavaTimers} {events : List JavaTimersEvent}
    (inTime : InTime callbackID interval earliest timers)
    (notReused : ∀ event ∈ events, event.createdID ≠ some callbackID) :
    Spaced (interval * 1000000) earliest (firings step (fires callbackID) timers events) :=
  firings_spaced (InTime callbackID interval) (fun _ _ _ _ => step_inTime forward) inTime
    (along_of_forall notReused timers)

/-! ### Intervals that are requested from JavaScript -/

/-- `setInterval` with the duration, requested at `jsSchedulingTime` and received at
`currentTimeMillis`: from then on, and for frames that do not go back in time, the timer is called
at least its duration apart, and for the first time no earlier than what the request has left of
the duration. An id is not used again. -/
def KeepsPeriod (callbackID duration jsSchedulingTime currentTimeMillis : ℤ) : Prop :=
  ∀ (timers : JavaTimers) (nanoTime : ℤ) (events : List JavaTimersEvent),
    (∀ timer ∈ timers.timers, timer.callbackID ≠ callbackID) →
    (∀ event ∈ events, event.createdID ≠ some callbackID) →
    (events.filterMap (·.frameTime)).Pairwise (· ≤ ·) →
    Spaced (duration * 1000000)
      (nanoTime + (duration - (currentTimeMillis - jsSchedulingTime)) * 1000000)
      (firings step (fires callbackID)
        (timers.createAndMaybeCallTimer callbackID duration jsSchedulingTime true currentTimeMillis
          nanoTime)
        events)

theorem toInt_eq {delay : ℤ} (positive : 0 ≤ delay) (small : delay < 2 ^ 31) :
    toInt delay = delay := by
  exact Int.bmod_eq_of_le (by omega) (by omega)

section

variable {callbackID duration jsSchedulingTime currentTimeMillis : ℤ}

theorem createAndMaybeCallTimer_inTime (small : duration < 2 ^ 31)
    (received : jsSchedulingTime ≤ currentTimeMillis) {timers : JavaTimers} (nanoTime : ℤ)
    (fresh : ∀ timer ∈ timers.timers, timer.callbackID ≠ callbackID) :
    let adjustedDuration := max 0 (jsSchedulingTime - currentTimeMillis + duration)
    InTime callbackID adjustedDuration (nanoTime + adjustedDuration * 1000000)
      (timers.createAndMaybeCallTimer callbackID duration jsSchedulingTime true currentTimeMillis
        nanoTime) := by
  intro adjustedDuration
  have positive : 0 ≤ adjustedDuration := le_max_left 0 _
  have noLonger : adjustedDuration < 2 ^ 31 := max_lt (by decide) (by omega)
  rw [createAndMaybeCallTimer, if_neg (by simp)]
  refine (Sole.cons_same ?_ ?_).perm (add_perm _ _).symm
  · split <;> exact fresh
  · refine ⟨rfl, toInt_eq positive noLonger, ?_⟩
    intro frameTimeNanos later
    exact add_le_of_tdiv positive later

variable {timer : JavaTimer} {frameTimeNanos : ℤ}

theorem doFrame_only {timers : JavaTimers} (only : timers.timers = [timer])
    (repeats : timer.repeats = true) (forward : 0 ≤ timer.interval)
    (due : timer.targetTime < frameTimeNanos.tdiv 1000000) :
    timers.doFrame frameTimeNanos =
      some { timers with
        timers := [{ timer with targetTime := frameTimeNanos.tdiv 1000000 + timer.interval }]
        calls := timers.calls ++ [.callTimers [timer.callbackID]] } := by
  have again : ¬ frameTimeNanos.tdiv 1000000 + timer.interval < frameTimeNanos.tdiv 1000000 := by
    omega
  simp [doFrame, callDue, only, due, polled, repeats, add, again]

def resumed : JavaTimerManager :=
  { isPaused := false, frameCallbackPosted := true, lifecycleState := .resumed, timersEvents := 1 }

theorem step_timerFrame_resumed {timers : JavaTimers} (running : timers.manager = resumed)
    (frameTimeNanos : ℤ) :
    timers.step (.timerFrame frameTimeNanos) = timers.doFrame frameTimeNanos := by
  obtain ⟨manager, _, _, _, _, _⟩ := timers
  cases running
  rfl

theorem firings_resumed {timers : JavaTimers} (running : timers.manager = resumed)
    (only : timers.timers = [timer]) (same : timer.callbackID = callbackID)
    (repeats : timer.repeats = true) (forward : 0 ≤ timer.interval)
    (due : timer.targetTime < frameTimeNanos.tdiv 1000000) (later : List JavaTimersEvent) :
    ∃ next : JavaTimers, next.manager = resumed ∧
      next.timers = [{ timer with targetTime := frameTimeNanos.tdiv 1000000 + timer.interval }] ∧
      firings step (fires callbackID) timers (.timerFrame frameTimeNanos :: later) =
        frameTimeNanos :: firings step (fires callbackID) next later := by
  refine ⟨{ timers with
    timers := [{ timer with targetTime := frameTimeNanos.tdiv 1000000 + timer.interval }]
    calls := timers.calls ++ [.callTimers [timer.callbackID]] }, running, rfl, ?_⟩
  rw [firings, step_timerFrame_resumed running, doFrame_only only repeats forward due]
  dsimp only
  rw [fires_timerFrame]
  simp [calledSince, JavaScriptTimerCall.timerIDs, same]

def earlyFrames (interval : ℤ) : List JavaTimersEvent :=
  [.manager .hostResume, .timerFrame ((interval + 1) * 1000000 + 999999),
    .timerFrame ((2 * interval + 2) * 1000000)]

theorem firings_earlyFrames (small : duration < 2 ^ 31)
    (received : jsSchedulingTime ≤ currentTimeMillis) :
    let adjustedDuration := max 0 (jsSchedulingTime - currentTimeMillis + duration)
    firings step (fires callbackID)
      (({} : JavaTimers).createAndMaybeCallTimer callbackID duration jsSchedulingTime true
        currentTimeMillis 0)
      (earlyFrames adjustedDuration) =
      [(adjustedDuration + 1) * 1000000 + 999999, (2 * adjustedDuration + 2) * 1000000] := by
  intro adjustedDuration
  have positive : 0 ≤ adjustedDuration := le_max_left 0 _
  have noLonger : adjustedDuration < 2 ^ 31 := max_lt (by decide) (by omega)
  have first : ((adjustedDuration + 1) * 1000000 + 999999).tdiv 1000000 = adjustedDuration + 1 := by
    have := tdiv_million ((adjustedDuration + 1) * 1000000 + 999999)
    omega
  have second : ((2 * adjustedDuration + 2) * 1000000).tdiv 1000000 = 2 * adjustedDuration + 2 := by
    have := tdiv_million ((2 * adjustedDuration + 2) * 1000000)
    omega
  have created : ({} : JavaTimers).createAndMaybeCallTimer callbackID duration jsSchedulingTime true
      currentTimeMillis 0 =
      ({} : JavaTimers).createTimer callbackID adjustedDuration true 0 := by
    simp [createAndMaybeCallTimer, adjustedDuration]
  let armed : JavaTimers :=
    { ({} : JavaTimers).createTimer callbackID adjustedDuration true 0 with manager := resumed }
  have resumes : step (({} : JavaTimers).createTimer callbackID adjustedDuration true 0)
      (.manager .hostResume) = some armed := rfl
  have only : armed.timers = [⟨0, callbackID, adjustedDuration, adjustedDuration, true⟩] := by
    simp [armed, createTimer, add, toInt_eq positive noLonger]
  have due : adjustedDuration < ((adjustedDuration + 1) * 1000000 + 999999).tdiv 1000000 := by
    omega
  -- The first frame puts the target one interval after its own millisecond.
  obtain ⟨again, runs, rescheduled, firstFrame⟩ := firings_resumed rfl only rfl rfl positive due
    [.timerFrame ((2 * adjustedDuration + 2) * 1000000)]
  have dueAgain : ((adjustedDuration + 1) * 1000000 + 999999).tdiv 1000000 + adjustedDuration <
      ((2 * adjustedDuration + 2) * 1000000).tdiv 1000000 := by
    omega
  obtain ⟨_, _, _, secondFrame⟩ := firings_resumed runs rescheduled rfl rfl positive dueAgain []
  rw [created, earlyFrames, firings, resumes]
  dsimp only
  rw [firstFrame, secondFrame]
  rfl

/-- **When the Android manager keeps the period.** -/
theorem keepsPeriod_iff (long : 18 ≤ duration) (small : duration < 2 ^ 31)
    (received : jsSchedulingTime ≤ currentTimeMillis) :
    KeepsPeriod callbackID duration jsSchedulingTime currentTimeMillis ↔
      currentTimeMillis = jsSchedulingTime := by
  constructor
  · intro keeps
    -- Its calls are less than a millisecond more than the adjusted duration apart.
    have positive : 0 ≤ max 0 (jsSchedulingTime - currentTimeMillis + duration) := le_max_left 0 _
    have spaced := keeps {} 0 (earlyFrames (max 0 (jsSchedulingTime - currentTimeMillis + duration)))
      (by simp) (by simp [earlyFrames, JavaTimersEvent.createdID])
      (by simp [earlyFrames, JavaTimersEvent.frameTime]; omega)
    rw [firings_earlyFrames small received] at spaced
    have apart := spaced.2.1
    omega
  · rintro rfl timers nanoTime events fresh notReused -
    have inTime := createAndMaybeCallTimer_inTime small received nanoTime fresh
    rw [sub_self, zero_add, max_eq_right (by omega)] at inTime
    rw [sub_self, sub_zero]
    exact firings_spaced_interval (by omega) inTime notReused

end

end JavaTimers

end ReactNative


