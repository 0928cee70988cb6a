import Mathlib.Data.Finset.Basic
import ReactNative.Foundation.Runs

/-! `JavaTimerManager` drives timers and idle callbacks with two callbacks that it posts to the
choreographer. -/
namespace ReactNative

open Runs

inductive LifecycleState where
  | beforeCreate
  | beforeResume
  | resumed
  deriving DecidableEq

/-- What was handed to `runOnUiThread` and has not run yet. -/
inductive UiRunnable where
  | headlessJsTaskFinish (taskId : ℕ)
  | sendIdleEvents (sendIdleEvents : Bool)
  deriving DecidableEq

/-- The manager with the tasks of its `HeadlessJsTaskContext`, its entries in the queues of the
choreographer, and the queue of the UI thread. -/
structure JavaTimerManager where
  isPaused : Bool := true
  isRunningTasks : Bool := false
  frameCallbackPosted : Bool := false
  frameIdleCallbackPosted : Bool := false
  sendIdleEvents : Bool := false
  lifecycleState : LifecycleState := .beforeCreate
  activeTasks : Finset ℕ := ∅
  timersEvents : ℕ := 0
  idleEvents : ℕ := 0
  uiRunnables : List UiRunnable := []
  deriving DecidableEq

inductive JavaTimerEvent where
  | hostResume
  | hostPause
  | hostDestroy
  | startTask (taskId : ℕ) (isAllowedInForeground : Bool)
  | finishTask (taskId : ℕ)
  | setSendIdleEvents (sendIdleEvents : Bool)
  | runUiRunnable
  | timerFrame
  | idleFrame

namespace JavaTimerManager

variable (manager : JavaTimerManager)

def hasActiveTasks : Bool := manager.activeTasks ≠ ∅

def setChoreographerCallback : JavaTimerManager :=
  if manager.frameCallbackPosted then manager
  else { manager with timersEvents := manager.timersEvents + 1, frameCallbackPosted := true }

def clearFrameCallback : JavaTimerManager :=
  if manager.frameCallbackPosted && manager.isPaused && !manager.hasActiveTasks then
    { manager with timersEvents := manager.timersEvents - 1, frameCallbackPosted := false }
  else manager

def setChoreographerIdleCallback : JavaTimerManager :=
  if manager.frameIdleCallbackPosted then manager
  else { manager with idleEvents := manager.idleEvents + 1, frameIdleCallbackPosted := true }

def clearChoreographerIdleCallback : JavaTimerManager :=
  if manager.frameIdleCallbackPosted then
    { manager with idleEvents := manager.idleEvents - 1, frameIdleCallbackPosted := false }
  else manager

def maybeSetChoreographerIdleCallback : JavaTimerManager :=
  if manager.sendIdleEvents then manager.setChoreographerIdleCallback else manager

-- The source clears the frame callback of the timers here, not the one for idle events.
def maybeIdleCallback : JavaTimerManager :=
  if manager.isPaused && !manager.isRunningTasks then manager.clearFrameCallback else manager

def onHostPause : JavaTimerManager :=
  ({ manager with isPaused := true, lifecycleState := .beforeResume }
    : JavaTimerManager).clearFrameCallback.maybeIdleCallback

def onHostDestroy : JavaTimerManager :=
  ({ manager with lifecycleState := .beforeCreate }
    : JavaTimerManager).clearFrameCallback.maybeIdleCallback

def onHostResume : JavaTimerManager :=
  ({ manager with isPaused := false, lifecycleState := .resumed }
    : JavaTimerManager).setChoreographerCallback.maybeSetChoreographerIdleCallback

def onHeadlessJsTaskStart : JavaTimerManager :=
  if manager.isRunningTasks then manager
  else
    ({ manager with isRunningTasks := true }
      : JavaTimerManager).setChoreographerCallback.maybeSetChoreographerIdleCallback

def onHeadlessJsTaskFinish : JavaTimerManager :=
  if manager.hasActiveTasks then manager
  else
    ({ manager with isRunningTasks := false }
      : JavaTimerManager).clearFrameCallback.maybeIdleCallback

/-- A task that is not allowed in the foreground is refused there with an exception. -/
def startTask (taskId : ℕ) (isAllowedInForeground : Bool) : JavaTimerManager :=
  if manager.lifecycleState = .resumed ∧ isAllowedInForeground = false then manager
  else
    ({ manager with activeTasks := insert taskId manager.activeTasks }
      : JavaTimerManager).onHeadlessJsTaskStart

/-- Only a task that was started and not finished can be finished. -/
def finishTask (taskId : ℕ) : Option JavaTimerManager :=
  if taskId ∈ manager.activeTasks then
    some { manager with
      activeTasks := manager.activeTasks.erase taskId
      uiRunnables := manager.uiRunnables ++ [.headlessJsTaskFinish taskId] }
  else none

def setSendIdleEvents (sendIdleEvents : Bool) : JavaTimerManager :=
  { manager with
    sendIdleEvents := sendIdleEvents
    uiRunnables := manager.uiRunnables ++ [.sendIdleEvents sendIdleEvents] }

def runUiRunnable : UiRunnable → JavaTimerManager
  | .headlessJsTaskFinish _ => manager.onHeadlessJsTaskFinish
  | .sendIdleEvents true => manager.setChoreographerIdleCallback
  | .sendIdleEvents false => manager.clearChoreographerIdleCallback

def timerFrame : JavaTimerManager :=
  if manager.isPaused && !manager.isRunningTasks then manager
  else { manager with timersEvents := manager.timersEvents + 1 }

def idleFrame : JavaTimerManager :=
  if manager.isPaused && !manager.isRunningTasks then manager
  else { manager with idleEvents := manager.idleEvents + 1 }

/-- A runnable runs if there is one, and a callback once for each time that it was posted. -/
def step : JavaTimerEvent → Option JavaTimerManager
  | .hostResume => some manager.onHostResume
  | .hostPause => some manager.onHostPause
  | .hostDestroy => some manager.onHostDestroy
  | .startTask taskId isAllowedInForeground => some (manager.startTask taskId isAllowedInForeground)
  | .finishTask taskId => manager.finishTask taskId
  | .setSendIdleEvents sendIdleEvents => some (manager.setSendIdleEvents sendIdleEvents)
  | .runUiRunnable =>
    match manager.uiRunnables with
    | [] => none
    | runnable :: rest => some (({ manager with uiRunnables := rest }
        : JavaTimerManager).runUiRunnable runnable)
  | .timerFrame =>
    if 0 < manager.timersEvents then
      some ({ manager with timersEvents := manager.timersEvents - 1 } : JavaTimerManager).timerFrame
    else none
  | .idleFrame =>
    if 0 < manager.idleEvents then
      some ({ manager with idleEvents := manager.idleEvents - 1 } : JavaTimerManager).idleFrame
    else none

/-- A `setSendIdleEvents` has not reached the UI thread yet. -/
def settingIdleEvents : Prop :=
  ∃ sendIdleEvents, UiRunnable.sendIdleEvents sendIdleEvents ∈ manager.uiRunnables

/-- The callbacks are posted that the host or a headless task needs. -/
def Registered : Prop :=
  manager.isPaused = false ∨ manager.activeTasks ≠ ∅ → 0 < manager.timersEvents ∧
      (manager.sendIdleEvents = true → ¬ manager.settingIdleEvents → 0 < manager.idleEvents)

/-- No idle frame while the host is paused and no task is running, and no start of a task while
`isRunningTasks` still stands for tasks that are gone and the frame callback is removed. -/
def Awake : JavaTimerEvent → Prop
  | .idleFrame => manager.isPaused = false ∨ manager.isRunningTasks = true
  | .startTask _ _ => manager.isRunningTasks = true → manager.frameCallbackPosted = true
  | _ => True

/-! ### What the handlers do while flags and queues agree -/

/-- The timer callback is in its queue once if its flag says so, and the flag is set whenever
the callback is needed. -/
structure TimersPosted : Prop where
  posted : manager.timersEvents = manager.frameCallbackPosted.toNat
  resumed : manager.isPaused = false → manager.frameCallbackPosted = true
  running : manager.activeTasks ≠ ∅ → manager.isRunningTasks = true
  tasks : manager.activeTasks ≠ ∅ → manager.frameCallbackPosted = true
  needed : manager.frameCallbackPosted = true →
    manager.isPaused = false ∨ manager.isRunningTasks = true

/-- What the flag of the idle callback will be when the queued runnables have run. -/
def idleSetting (frameIdleCallbackPosted : Bool) : List UiRunnable → Bool
  | [] => frameIdleCallbackPosted
  | .headlessJsTaskFinish _ :: rest => idleSetting frameIdleCallbackPosted rest
  | .sendIdleEvents sendIdleEvents :: rest => idleSetting sendIdleEvents rest

/-- The idle callback is in its queue once if its flag says so, and the flag is about to be what
was asked for last. -/
structure IdlePosted : Prop where
  posted : manager.idleEvents = manager.frameIdleCallbackPosted.toNat
  setting : idleSetting manager.frameIdleCallbackPosted manager.uiRunnables = manager.sendIdleEvents

structure Consistent : Prop where
  timers : TimersPosted manager
  idle : IdlePosted manager

theorem hasActiveTasks_iff : manager.hasActiveTasks = true ↔ manager.activeTasks ≠ ∅ := by
  simp [hasActiveTasks]

theorem maybeIdleCallback_clearFrameCallback :
    manager.clearFrameCallback.maybeIdleCallback = manager.clearFrameCallback := by
  unfold maybeIdleCallback
  split
  · unfold clearFrameCallback hasActiveTasks
    split <;> simp_all
  · rfl

variable {manager : JavaTimerManager}

theorem setChoreographerCallback_eq
    (posted : manager.timersEvents = manager.frameCallbackPosted.toNat) :
    manager.setChoreographerCallback =
      { manager with timersEvents := 1, frameCallbackPosted := true } := by
  obtain ⟨isPaused, isRunningTasks, _ | _⟩ := manager <;>
    simp_all [setChoreographerCallback]

theorem clearFrameCallback_eq (posted : manager.timersEvents = manager.frameCallbackPosted.toNat) :
    manager.clearFrameCallback =
      { manager with
        timersEvents :=
          (manager.frameCallbackPosted && (!manager.isPaused || manager.hasActiveTasks)).toNat
        frameCallbackPosted :=
          manager.frameCallbackPosted && (!manager.isPaused || manager.hasActiveTasks) } := by
  obtain ⟨_ | _, isRunningTasks, _ | _⟩ := manager <;>
    simp_all [clearFrameCallback, hasActiveTasks]
  split <;> simp_all

section

variable (posted : manager.idleEvents = manager.frameIdleCallbackPosted.toNat)
include posted

theorem setChoreographerIdleCallback_eq :
    manager.setChoreographerIdleCallback =
      { manager with idleEvents := 1, frameIdleCallbackPosted := true } := by
  obtain ⟨isPaused, isRunningTasks, frameCallbackPosted, _ | _⟩ := manager <;>
    simp_all [setChoreographerIdleCallback]

theorem clearChoreographerIdleCallback_eq :
    manager.clearChoreographerIdleCallback =
      { manager with idleEvents := 0, frameIdleCallbackPosted := false } := by
  obtain ⟨isPaused, isRunningTasks, frameCallbackPosted, _ | _⟩ := manager <;>
    simp_all [clearChoreographerIdleCallback]

theorem maybeSetChoreographerIdleCallback_eq :
    manager.maybeSetChoreographerIdleCallback =
      { manager with
        idleEvents := (manager.frameIdleCallbackPosted || manager.sendIdleEvents).toNat
        frameIdleCallbackPosted := manager.frameIdleCallbackPosted || manager.sendIdleEvents } := by
  unfold maybeSetChoreographerIdleCallback
  split
  next sends => simp [setChoreographerIdleCallback_eq posted, sends]
  next silent =>
    obtain ⟨⟩ := manager
    simp_all

end

variable (frameIdleCallbackPosted : Bool) (runnables : List UiRunnable)

theorem idleSetting_append (last : UiRunnable) :
    idleSetting frameIdleCallbackPosted (runnables ++ [last]) =
      idleSetting (idleSetting frameIdleCallbackPosted runnables) [last] := by
  induction runnables generalizing frameIdleCallbackPosted with
  | nil => rfl
  | cons runnable _ ih =>
    cases runnable with
    | headlessJsTaskFinish => exact ih frameIdleCallbackPosted
    | sendIdleEvents sendIdleEvents => exact ih sendIdleEvents

theorem idleSetting_of_not_mem {runnables : List UiRunnable} {frameIdleCallbackPosted : Bool}
    (none : ∀ sendIdleEvents, UiRunnable.sendIdleEvents sendIdleEvents ∉ runnables) :
    idleSetting frameIdleCallbackPosted runnables = frameIdleCallbackPosted := by
  induction runnables with
  | nil => rfl
  | cons runnable _ ih =>
    cases runnable with
    | headlessJsTaskFinish =>
      exact ih fun sendIdleEvents member => none sendIdleEvents (List.mem_cons_of_mem _ member)
    | sendIdleEvents sendIdleEvents => exact absurd List.mem_cons_self (none sendIdleEvents)

theorem idleSetting_or :
    idleSetting (frameIdleCallbackPosted || idleSetting frameIdleCallbackPosted runnables)
      runnables = idleSetting frameIdleCallbackPosted runnables := by
  by_cases none : ∀ sendIdleEvents, UiRunnable.sendIdleEvents sendIdleEvents ∉ runnables
  · simp [idleSetting_of_not_mem none]
  · -- The flag is overwritten, whatever it is now.
    have overwritten : ∀ flag other, idleSetting flag runnables = idleSetting other runnables := by
      intro flag other
      induction runnables with
      | nil => simp at none
      | cons runnable _ ih =>
        cases runnable with
        | headlessJsTaskFinish => exact ih (by simpa using none)
        | sendIdleEvents sendIdleEvents => rfl
    exact overwritten _ _

/-! ### The invariant -/

theorem Consistent.initial : Consistent {} where
  timers := ⟨rfl, by simp, by simp, by simp, by simp⟩
  idle := ⟨rfl, rfl⟩

theorem IdlePosted.maybeSet (idle : IdlePosted manager) :
    IdlePosted manager.maybeSetChoreographerIdleCallback := by
  rw [maybeSetChoreographerIdleCallback_eq idle.posted]
  constructor
  · rfl
  · rw [← idle.setting]
    exact idleSetting_or _ _

theorem Consistent.of_posting (posted : manager.timersEvents = manager.frameCallbackPosted.toNat)
    (running : manager.activeTasks ≠ ∅ → manager.isRunningTasks = true)
    (needed : manager.isPaused = false ∨ manager.isRunningTasks = true)
    (idle : IdlePosted manager) :
    Consistent manager.setChoreographerCallback.maybeSetChoreographerIdleCallback := by
  rw [setChoreographerCallback_eq posted]
  constructor
  · rw [maybeSetChoreographerIdleCallback_eq]
    · exact ⟨rfl, fun _ => rfl, running, fun _ => rfl, fun _ => needed⟩
    · exact idle.posted
  · exact IdlePosted.maybeSet ⟨idle.posted, idle.setting⟩

theorem Consistent.of_clearing (posted : manager.timersEvents = manager.frameCallbackPosted.toNat)
    (resumed : manager.isPaused = false → manager.frameCallbackPosted = true)
    (running : manager.activeTasks ≠ ∅ → manager.isRunningTasks = true)
    (tasks : manager.activeTasks ≠ ∅ → manager.frameCallbackPosted = true)
    (idle : IdlePosted manager) : Consistent manager.clearFrameCallback.maybeIdleCallback := by
  rw [maybeIdleCallback_clearFrameCallback, clearFrameCallback_eq posted]
  refine ⟨⟨rfl, ?_, running, ?_, ?_⟩, ⟨idle.posted, idle.setting⟩⟩
  · intro resumes
    change manager.isPaused = false at resumes
    simp [resumed resumes, resumes]
  · intro active
    simp [tasks active, (hasActiveTasks_iff manager).mpr active]
  · intro stays
    rw [Bool.and_eq_true, Bool.or_eq_true, Bool.not_eq_true', hasActiveTasks_iff] at stays
    exact stays.2.imp_right running

theorem Consistent.startTask (consistent : Consistent manager)
    (awake : manager.isRunningTasks = true → manager.frameCallbackPosted = true) (taskId : ℕ)
    (isAllowedInForeground : Bool) :
    Consistent (manager.startTask taskId isAllowedInForeground) := by
  unfold JavaTimerManager.startTask
  split
  · exact consistent
  unfold onHeadlessJsTaskStart
  split
  next runs =>
    exact ⟨⟨consistent.timers.posted, consistent.timers.resumed, fun _ => runs, fun _ => awake runs,
      consistent.timers.needed⟩, ⟨consistent.idle.posted, consistent.idle.setting⟩⟩
  next =>
    exact Consistent.of_posting consistent.timers.posted (fun _ => rfl) (.inr rfl)
      ⟨consistent.idle.posted, consistent.idle.setting⟩

theorem Consistent.finishTask {next : JavaTimerManager} (consistent : Consistent manager)
    {taskId : ℕ} (finished : manager.finishTask taskId = some next) : Consistent next := by
  unfold JavaTimerManager.finishTask at finished
  split at finished
  next active =>
    cases finished
    have others : manager.activeTasks.erase taskId ≠ ∅ → manager.activeTasks ≠ ∅ := by
      intro some none
      rw [none] at some
      exact some (Finset.erase_empty taskId)
    obtain ⟨timers, idle⟩ := consistent
    refine ⟨⟨timers.posted, timers.resumed, fun some => timers.running (others some),
      fun some => timers.tasks (others some), timers.needed⟩, ⟨idle.posted, ?_⟩⟩
    rw [idleSetting_append, idle.setting]
    rfl
  next => cases finished

theorem Consistent.runUiRunnable (consistent : Consistent manager)
    {runnable : UiRunnable} {rest : List UiRunnable}
    (queued : manager.uiRunnables = runnable :: rest) :
    Consistent (({ manager with uiRunnables := rest } : JavaTimerManager).runUiRunnable runnable) := by
  obtain ⟨timers, idle⟩ := consistent
  have setting := idle.setting
  rw [queued] at setting
  cases runnable with
  | headlessJsTaskFinish =>
    have kept : IdlePosted { manager with uiRunnables := rest } := ⟨idle.posted, setting⟩
    unfold JavaTimerManager.runUiRunnable onHeadlessJsTaskFinish
    dsimp only
    split
    next =>
      exact ⟨⟨timers.posted, timers.resumed, timers.running, timers.tasks, timers.needed⟩, kept⟩
    next done =>
      have inactive : manager.activeTasks = ∅ := by
        simpa [hasActiveTasks] using done
      exact Consistent.of_clearing timers.posted timers.resumed (fun some => absurd inactive some)
        timers.tasks ⟨kept.posted, kept.setting⟩
  | sendIdleEvents sendIdleEvents =>
    have kept : TimersPosted { manager with uiRunnables := rest } :=
      ⟨timers.posted, timers.resumed, timers.running, timers.tasks, timers.needed⟩
    cases sendIdleEvents with
    | true =>
      rw [JavaTimerManager.runUiRunnable, setChoreographerIdleCallback_eq]
      · exact ⟨⟨kept.posted, kept.resumed, kept.running, kept.tasks, kept.needed⟩, ⟨rfl, setting⟩⟩
      · exact idle.posted
    | false =>
      rw [JavaTimerManager.runUiRunnable, clearChoreographerIdleCallback_eq]
      · exact ⟨⟨kept.posted, kept.resumed, kept.running, kept.tasks, kept.needed⟩, ⟨rfl, setting⟩⟩
      · exact idle.posted

theorem Consistent.timerFrame (consistent : Consistent manager)
    (queued : 0 < manager.timersEvents) :
    Consistent ({ manager with timersEvents := manager.timersEvents - 1 }
      : JavaTimerManager).timerFrame := by
  obtain ⟨timers, idle⟩ := consistent
  have isPosted : manager.frameCallbackPosted = true := by
    by_contra notPosted
    rw [Bool.not_eq_true] at notPosted
    rw [timers.posted, notPosted] at queued
    exact absurd queued (Nat.lt_irrefl 0)
  have needed : ¬ (manager.isPaused && !manager.isRunningTasks) = true := by
    rcases timers.needed isPosted with resumed | running
    · simp [resumed]
    · simp [running]
  have again : manager.timersEvents - 1 + 1 = manager.timersEvents := Nat.sub_add_cancel queued
  rw [JavaTimerManager.timerFrame, if_neg needed]
  rw [again]
  exact ⟨timers, idle⟩

theorem Consistent.idleFrame (consistent : Consistent manager) (queued : 0 < manager.idleEvents)
    (awake : manager.isPaused = false ∨ manager.isRunningTasks = true) :
    Consistent ({ manager with idleEvents := manager.idleEvents - 1 }
      : JavaTimerManager).idleFrame := by
  have needed : ¬ (manager.isPaused && !manager.isRunningTasks) = true := by
    rcases awake with resumed | running
    · simp [resumed]
    · simp [running]
  have again : manager.idleEvents - 1 + 1 = manager.idleEvents := Nat.sub_add_cancel queued
  rw [JavaTimerManager.idleFrame, if_neg needed]
  rw [again]
  exact consistent

theorem Consistent.step {next : JavaTimerManager} {event : JavaTimerEvent}
    (consistent : Consistent manager) (awake : Awake manager event)
    (stepped : step manager event = some next) : Consistent next := by
  have timers := consistent.timers
  have idle := consistent.idle
  -- One case for each event; callbacks of the choreographer run only where they were posted.
  cases event with
  | hostResume =>
    cases stepped
    exact Consistent.of_posting timers.posted timers.running (.inl rfl) ⟨idle.posted, idle.setting⟩
  | hostPause =>
    cases stepped
    exact Consistent.of_clearing timers.posted nofun timers.running
      timers.tasks ⟨idle.posted, idle.setting⟩
  | hostDestroy =>
    cases stepped
    exact Consistent.of_clearing timers.posted timers.resumed timers.running timers.tasks
      ⟨idle.posted, idle.setting⟩
  | startTask taskId isAllowedInForeground =>
    cases stepped
    exact consistent.startTask awake taskId isAllowedInForeground
  | finishTask taskId => exact consistent.finishTask stepped
  | setSendIdleEvents =>
    cases stepped
    refine ⟨⟨timers.posted, timers.resumed, timers.running, timers.tasks, timers.needed⟩,
      ⟨idle.posted, ?_⟩⟩
    exact idleSetting_append _ _ _
  | runUiRunnable =>
    rw [JavaTimerManager.step] at stepped
    split at stepped
    next => cases stepped
    next runnable rest queued =>
      cases stepped
      exact consistent.runUiRunnable queued
  | timerFrame =>
    rw [JavaTimerManager.step] at stepped
    split at stepped
    next queued =>
      cases stepped
      exact consistent.timerFrame queued
    next => cases stepped
  | idleFrame =>
    rw [JavaTimerManager.step] at stepped
    split at stepped
    next queued =>
      cases stepped
      exact consistent.idleFrame queued awake
    next => cases stepped

theorem Consistent.registered (consistent : Consistent manager) : Registered manager := by
  obtain ⟨timers, idle⟩ := consistent
  intro needed
  constructor
  · rw [timers.posted, needed.elim timers.resumed timers.tasks]
    exact Nat.one_pos
  · intro sends settled
    have isPosted := idle.setting
    rw [idleSetting_of_not_mem (by simpa [settingIdleEvents] using settled), sends] at isPosted
    rw [idle.posted, isPosted]
    exact Nat.one_pos

/-- **Frame callbacks are registered whenever they are needed**, in every run in which no idle
frame comes while the host is paused and no task is running, and no task starts after a pause
that came between the end of the last task and the notification of it. -/
theorem run_registered {events : List JavaTimerEvent} {final : JavaTimerManager}
    (along : Along step Awake {} events) (ran : run step {} events = some final) :
    Registered final :=
  Consistent.registered <|
    run_induction (fun _ _ _ consistent awake stepped => consistent.step awake stepped)
      Consistent.initial along ran

instance (manager : JavaTimerManager) (event : JavaTimerEvent) : Decidable (Awake manager event) :=
  match event with
  | .idleFrame => inferInstanceAs (Decidable (_ ∨ _))
  | .startTask _ _ => inferInstanceAs (Decidable (_ → _))
  | .hostResume | .hostPause | .hostDestroy | .finishTask _ | .setSendIdleEvents _ | .runUiRunnable
  | .timerFrame => .isTrue trivial

theorem run_registered_task :
    ∃ final, run step {} [.startTask 1 true, .setSendIdleEvents true, .runUiRunnable, .timerFrame,
        .idleFrame, .finishTask 1, .timerFrame, .idleFrame, .hostResume, .runUiRunnable,
        .idleFrame, .timerFrame, .hostPause, .hostResume] = some final ∧
      final.isPaused = false ∧ final.sendIdleEvents = true ∧ Registered final := by
  have ran : run step {} [.startTask 1 true, .setSendIdleEvents true, .runUiRunnable, .timerFrame,
      .idleFrame, .finishTask 1, .timerFrame, .idleFrame, .hostResume, .runUiRunnable,
      .idleFrame, .timerFrame, .hostPause, .hostResume] =
      some {
        isPaused := false, frameCallbackPosted := true, frameIdleCallbackPosted := true
        sendIdleEvents := true, lifecycleState := .resumed, timersEvents := 1, idleEvents := 1 } := by
    decide
  exact ⟨_, ran, rfl, rfl, run_registered (by decide) ran⟩

theorem pausedFrame_not_registered :
    (∃ final, run step {} [.hostResume, .setSendIdleEvents true, .runUiRunnable, .hostPause,
        .idleFrame, .hostResume] = some final ∧
      final.isPaused = false ∧ ¬ Registered final) ∧
    (∃ final, run step {} [.startTask 1 true, .finishTask 1, .hostPause, .startTask 2 true,
        .runUiRunnable] = some final ∧ final.activeTasks = {2} ∧ ¬ Registered final) := by
  constructor
  · refine ⟨{
      isPaused := false, frameCallbackPosted := true, frameIdleCallbackPosted := true
      sendIdleEvents := true, lifecycleState := .resumed, timersEvents := 1 }, by decide, rfl, ?_⟩
    intro registered
    refine absurd ((registered (.inl rfl)).2 rfl ?_) (Nat.lt_irrefl 0)
    rintro ⟨sendIdleEvents, member⟩
    exact absurd member List.not_mem_nil
  · refine ⟨{ isRunningTasks := true, lifecycleState := .beforeResume, activeTasks := {2} },
      by decide, rfl, ?_⟩
    intro registered
    exact absurd (registered (.inr (Finset.singleton_ne_empty 2))).1 (Nat.lt_irrefl 0)

end JavaTimerManager

end ReactNative

