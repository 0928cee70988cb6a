import ReactNative.Foundation.Runs

/-! Client requests run on an executor, one after the other, and `didPause` runs on the thread of
the VM; both hold the mutex of the inspector, which `didPause` gives up only while it waits for
work. -/
namespace ReactNative

inductive PauseReason where
  | scriptLoaded
  | debuggerStatement
  | breakpoint
  | stepFinish
  | exception
  | asyncTrigger
  | evalComplete
  deriving DecidableEq

inductive AsyncPauseState where
  | none
  | implicit
  | explicit
  deriving DecidableEq

inductive InspectorException where
  | alreadyEnabled
  | notEnabled
  | invalidState
  | multipleCommandsPending
  deriving DecidableEq

inductive Answer where
  | value
  | exception (exception : InspectorException)
  deriving DecidableEq

inductive StepMode where
  | into
  | over
  | out
  deriving DecidableEq

inductive ResumeOrStep where
  | continueExecution
  | step (mode : StepMode)
  deriving DecidableEq

/-- The functions that are pushed: one that detaches, one that does what a request asks for and
answers its promise, and one that reports a console message. -/
inductive PendingFunc where
  | detach (promise : ℕ)
  | request (promise : ℕ)
  | log
  deriving DecidableEq

structure PendingCommand where
  command : ResumeOrStep
  promise : ℕ
  deriving DecidableEq

structure RunningState where
  pendingFuncs : List PendingFunc := []
  pendingEvals : List ℕ := []
  pendingEvalPromise : Option ℕ := none
  deriving DecidableEq

structure PausedState where
  pendingFuncs : List PendingFunc := []
  pendingEvals : List ℕ := []
  pendingEvalPromise : Option ℕ := none
  pendingCommand : Option PendingCommand := none
  deriving DecidableEq

inductive InspectorState where
  | runningDetached
  | runningWaitEnable
  | runningWaitPause
  | pausedWaitEnable (enabled : Bool)
  | running (running : RunningState)
  | paused (paused : PausedState)
  deriving DecidableEq

/-- What the thread of the VM does: it executes JavaScript, runs an eval command, has called
`didPause` and needs the mutex, or waits for work in it. -/
inductive VmThread where
  | executing
  | evaluating
  | calling (reason : PauseReason)
  | waiting (reason : PauseReason)
  deriving DecidableEq

structure Inspector where
  state : InspectorState
  pendingPauseState : AsyncPauseState := .none
  asyncPauseFlag : Bool := false
  thread : VmThread := .executing
  promises : ℕ := 0
  answered : List (ℕ × Answer) := []
  /-- `Running::didPause` was at its `assert(false)`. -/
  unaskedBreak : Bool := false
  deriving DecidableEq

inductive InspectorEvent where
  | enable
  | disable
  | executeIfEnabled
  | setBreakpoint
  | removeBreakpoint
  | setPauseOnExceptions
  | logMessage
  | setPendingCommand (command : ResumeOrStep)
  | pause
  | evaluate
  /-- The VM stops, for any reason but an eval, and calls `didPause`. -/
  | vmPauses (reason : PauseReason)
  | evalCompletes
  /-- `didPause` has the mutex. -/
  | didPause
  /-- `didPause` has the mutex again after a wait. -/
  | wakesUp

namespace Inspector

def initial (pauseOnFirstStatement : Bool) : Inspector :=
  { state := if pauseOnFirstStatement then .runningWaitEnable else .runningDetached }

def answer (inspector : Inspector) (promise : ℕ) (answer : Answer) : Inspector :=
  { inspector with answered := inspector.answered ++ [(promise, answer)] }

variable (inspector : Inspector)

def answerIfAny (promise : Option ℕ) (answer : Answer) : Inspector :=
  match promise with
  | none => inspector
  | some promise => inspector.answer promise answer

def triggerAsyncPause : Inspector :=
  { inspector with asyncPauseFlag := true }

/-- Runs the pending functions. The promise of the detach that ran last is in `pendingDetach`. -/
def runFuncs : List PendingFunc → Inspector × Option ℕ → Inspector × Option ℕ
  | [], result => result
  | .detach promise :: rest, (inspector, _) => runFuncs rest (inspector, some promise)
  | .request promise :: rest, (inspector, pendingDetach) =>
    runFuncs rest (inspector.answer promise .value, pendingDetach)
  | .log :: rest, result => runFuncs rest result

/-! ### Pauses -/

def pausedTurn (paused : PausedState) (reason : PauseReason) : Inspector :=
  match paused.pendingEvals with
  | eval :: evals =>
    match runFuncs paused.pendingFuncs (inspector, none) with
    | (inspector, some pendingDetach) =>
      -- The eval, the other evals and the command are gone with the state object.
      { (inspector.answerIfAny paused.pendingEvalPromise (.exception .notEnabled)).answer
          pendingDetach .value with state := .runningDetached, thread := .executing }
    | (inspector, none) =>
      { inspector with
        state := .paused { paused with
          pendingFuncs := [], pendingEvals := evals, pendingEvalPromise := some eval }
        thread := .evaluating }
  | [] =>
    match runFuncs paused.pendingFuncs (inspector, none), paused.pendingCommand with
    | (inspector, some pendingDetach), resumeOrStep =>
      { ((inspector.answerIfAny paused.pendingEvalPromise (.exception .notEnabled)).answerIfAny
          (resumeOrStep.map PendingCommand.promise) .value).answer pendingDetach .value with
        state := .runningDetached, thread := .executing }
    | (inspector, none), some resumeOrStep =>
      { inspector.answer resumeOrStep.promise .value with state := .running {}, thread := .executing }
    | (inspector, none), none =>
      { inspector with
        state := .paused { paused with pendingFuncs := [] }
        thread := .waiting reason }

def pausedDidPause (paused : PausedState) (reason : PauseReason) : Inspector :=
  match reason with
  | .asyncTrigger => pausedTurn { inspector with pendingPauseState := .none } paused reason
  | .evalComplete =>
    pausedTurn (inspector.answerIfAny paused.pendingEvalPromise .value)
      { paused with pendingEvalPromise := none } reason
  | _ => pausedTurn inspector paused reason

/-- The end of `Running::didPause`, when the VM is not to stay paused: an eval, or go on. -/
def runningContinue (running : RunningState) : Inspector :=
  match running.pendingEvals with
  | eval :: evals =>
    { inspector with
      state := .running { running with pendingEvals := evals, pendingEvalPromise := some eval }
      thread := .evaluating }
  | [] => { inspector with state := .running running, thread := .executing }

def runningDidPause (running : RunningState) (reason : PauseReason) : Inspector :=
  match runFuncs running.pendingFuncs (inspector, none) with
  | (inspector, some pendingDetach) =>
    { (inspector.answerIfAny running.pendingEvalPromise (.exception .notEnabled)).answer
        pendingDetach .value with
      pendingPauseState := .none, state := .runningDetached, thread := .executing }
  | (inspector, none) =>
    let running := { running with pendingFuncs := [] }
    match reason with
    | .asyncTrigger =>
      match inspector.pendingPauseState with
      | .none => runningContinue { inspector with unaskedBreak := true } running
      | .implicit => runningContinue { inspector with pendingPauseState := .none } running
      | .explicit => pausedDidPause { inspector with pendingPauseState := .none } {} reason
    | .scriptLoaded => runningContinue inspector running
    | .evalComplete =>
      runningContinue (inspector.answerIfAny running.pendingEvalPromise .value)
        { running with pendingEvalPromise := none }
    | _ => pausedDidPause inspector {} reason

def pausedWaitEnableDidPause (enabled : Bool) (reason : PauseReason) : Inspector :=
  if enabled then pausedDidPause inspector {} reason
  else { inspector with state := .pausedWaitEnable false, thread := .waiting reason }

variable (reason : PauseReason)

def didPause : Inspector :=
  match inspector.state with
  | .runningDetached =>
    if reason = .debuggerStatement then inspector.pausedWaitEnableDidPause false reason
    else { inspector with thread := .executing }
  | .runningWaitEnable => inspector.pausedWaitEnableDidPause false reason
  | .runningWaitPause => inspector.pausedDidPause {} reason
  | .pausedWaitEnable enabled => inspector.pausedWaitEnableDidPause enabled reason
  | .running running => inspector.runningDidPause running reason
  | .paused paused => inspector.pausedDidPause paused reason

/-- What `didPause` does when it has the mutex again. -/
def wakesUp : Option Inspector :=
  match inspector.state with
  | .pausedWaitEnable enabled => some (inspector.pausedWaitEnableDidPause enabled reason)
  | .paused paused => some (inspector.pausedTurn paused reason)
  | _ => none

/-! ### Requests -/

/-- `pushPendingFunc`, which is refused unless the inspector is enabled. -/
def pushPendingFunc (func : PendingFunc) : Option Inspector :=
  match inspector.state with
  | .running running =>
    let pushed := { inspector with
      state := .running { running with pendingFuncs := running.pendingFuncs ++ [func] } }
    if inspector.pendingPauseState = .none then
      some (triggerAsyncPause { pushed with pendingPauseState := .implicit })
    else some pushed
  | .paused paused =>
    some { inspector with
      state := .paused { paused with pendingFuncs := paused.pendingFuncs ++ [func] } }
  | _ => none

variable (promise : ℕ)

def enableOnExecutor : Inspector :=
  match inspector.state with
  | .runningDetached => { inspector.answer promise .value with state := .running {} }
  | .runningWaitEnable => { inspector.answer promise .value with state := .runningWaitPause }
  | .pausedWaitEnable false =>
    { inspector.answer promise .value with state := .pausedWaitEnable true }
  | _ => inspector.answer promise (.exception .alreadyEnabled)

/-- A state that cannot detach is detached already. -/
def disableOnExecutor : Inspector :=
  (inspector.pushPendingFunc (.detach promise)).getD (inspector.answer promise .value)

def pushOrFail (exception : InspectorException) : Inspector :=
  (inspector.pushPendingFunc (.request promise)).getD
    (inspector.answer promise (.exception exception))

def executeIfEnabledOnExecutor : Inspector := inspector.pushOrFail promise .invalidState

def setBreakpointOnExecutor : Inspector := inspector.pushOrFail promise .notEnabled

def removeBreakpointOnExecutor : Inspector := inspector.pushOrFail promise .notEnabled

-- Unlike its siblings, this one does not look at what `pushPendingFunc` returns.
def setPauseOnExceptionsOnExecutor : Inspector :=
  (inspector.pushPendingFunc (.request promise)).getD inspector

def logOnExecutor : Inspector :=
  ((inspector.pushPendingFunc .log).getD inspector).answer promise .value

def setPendingCommandOnExecutor (command : ResumeOrStep) : Inspector :=
  match inspector.state with
  | .paused paused =>
    if paused.pendingCommand.isSome then
      inspector.answer promise (.exception .multipleCommandsPending)
    else
      { inspector with state := .paused { paused with pendingCommand := some ⟨command, promise⟩ } }
  | _ => inspector.answer promise (.exception .invalidState)

def pauseOnExecutor : Inspector :=
  match inspector.state with
  | .running _ =>
    match inspector.pendingPauseState with
    | .none | .implicit =>
      (triggerAsyncPause { inspector with pendingPauseState := .explicit }).answer promise .value
    | .explicit => inspector.answer promise (.exception .notEnabled)
  | _ => inspector.answer promise (.exception .notEnabled)

def evaluateOnExecutor : Inspector :=
  match inspector.state with
  | .running running =>
    triggerAsyncPause { inspector with
      state := .running { running with pendingEvals := running.pendingEvals ++ [promise] }
      pendingPauseState :=
        if inspector.pendingPauseState = .none then .implicit else inspector.pendingPauseState }
  | .paused paused =>
    if paused.pendingCommand.isSome then
      inspector.answer promise (.exception .multipleCommandsPending)
    else
      { inspector with
        state := .paused { paused with pendingEvals := paused.pendingEvals ++ [promise] } }
  | _ => inspector.answer promise (.exception .invalidState)

/-! ### Steps -/

/-- A request gets the next promise. -/
def request (onExecutor : Inspector → ℕ → Inspector) : Inspector :=
  onExecutor { inspector with promises := inspector.promises + 1 } inspector.promises

/-- A VM that executes can stop for a reason other than an eval, and for its flag if it is set. -/
def canPause : Prop :=
  inspector.thread = .executing ∧ reason ≠ .evalComplete ∧
    (reason = .asyncTrigger → inspector.asyncPauseFlag = true)

instance (inspector : Inspector) (reason : PauseReason) : Decidable (canPause inspector reason) :=
  inferInstanceAs (Decidable (_ ∧ _ ∧ (_ → _)))

def step : InspectorEvent → Option Inspector
  | .enable => some (inspector.request enableOnExecutor)
  | .disable => some (inspector.request disableOnExecutor)
  | .executeIfEnabled => some (inspector.request executeIfEnabledOnExecutor)
  | .setBreakpoint => some (inspector.request setBreakpointOnExecutor)
  | .removeBreakpoint => some (inspector.request removeBreakpointOnExecutor)
  | .setPauseOnExceptions => some (inspector.request setPauseOnExceptionsOnExecutor)
  | .logMessage => some (inspector.request logOnExecutor)
  | .setPendingCommand command =>
    some (inspector.request fun inspector promise =>
      inspector.setPendingCommandOnExecutor promise command)
  | .pause => some (inspector.request pauseOnExecutor)
  | .evaluate => some (inspector.request evaluateOnExecutor)
  | .vmPauses reason =>
    if inspector.canPause reason then
      some { inspector with
        thread := .calling reason
        asyncPauseFlag := inspector.asyncPauseFlag && reason ≠ .asyncTrigger }
    else none
  | .evalCompletes =>
    if inspector.thread = .evaluating then
      some { inspector with thread := .calling .evalComplete }
    else none
  | .didPause =>
    match inspector.thread with
    | .calling reason => some (inspector.didPause reason)
    | _ => none
  | .wakesUp =>
    match inspector.thread with
    | .waiting reason => inspector.wakesUp reason
    | _ => none

/-! ### What running the pending functions does -/

def funcAnswers : List PendingFunc → List (ℕ × Answer)
  | [] => []
  | .detach _ :: rest => funcAnswers rest
  | .request promise :: rest => (promise, .value) :: funcAnswers rest
  | .log :: rest => funcAnswers rest

def lastDetach : List PendingFunc → Option ℕ → Option ℕ
  | [], pendingDetach => pendingDetach
  | .detach promise :: rest, _ => lastDetach rest (some promise)
  | .request _ :: rest, pendingDetach => lastDetach rest pendingDetach
  | .log :: rest, pendingDetach => lastDetach rest pendingDetach

theorem runFuncs_eq (funcs : List PendingFunc) (inspector : Inspector) (pendingDetach : Option ℕ) :
    runFuncs funcs (inspector, pendingDetach) =
      ({ inspector with answered := inspector.answered ++ funcAnswers funcs },
        lastDetach funcs pendingDetach) := by
  induction funcs generalizing inspector pendingDetach with
  | nil => simp [runFuncs, funcAnswers, lastDetach]
  | cons func _ ih =>
    cases func with
    | detach promise => exact ih inspector (some promise)
    | request promise =>
      rw [runFuncs, ih]
      simp [answer, funcAnswers, lastDetach]
    | log => exact ih inspector pendingDetach

end Inspector

end ReactNative

