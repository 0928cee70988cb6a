import ReactNative.Inspector.InspectorState

/-! Work that is pending in `Running` needs a pause of the VM. The inspector asks for one by setting
the flag of the VM, and remembers in `pendingPauseState` that it asked, so that it does not ask
twice. -/
namespace ReactNative

open Runs

namespace Inspector

variable (inspector : Inspector)

/-- The VM is going to pause for its flag, or is calling `didPause` for it. -/
def pauseComing : Prop :=
  inspector.asyncPauseFlag = true ∨ inspector.thread = .calling .asyncTrigger

instance (inspector : Inspector) : Decidable inspector.pauseComing :=
  inferInstanceAs (Decidable (_ ∨ _))

/-- The inspector remembers a pause if and only if one is coming. -/
def InSync : Prop := inspector.pendingPauseState ≠ .none ↔ inspector.pauseComing

instance (inspector : Inspector) : Decidable inspector.InSync := inferInstanceAs (Decidable (_ ↔ _))

/-- A call of `didPause` is under way: it waits for the mutex, or comes when an eval is done. -/
def pauseUnderWay : Prop :=
  inspector.thread = .evaluating ∨ ∃ reason, inspector.thread = .calling reason

/-- Work that is pending in `Running` has a pause coming, and there was no pause that nobody
asked for. -/
structure NoLostWakeUp : Prop where
  work : ∀ running, inspector.state = .running running →
    running.pendingFuncs ≠ [] ∨ running.pendingEvals ≠ [] →
    inspector.asyncPauseFlag = true ∨ inspector.pauseUnderWay
  asked : inspector.unaskedBreak = false

def isRunning : Prop := ∃ running, inspector.state = .running running

instance (inspector : Inspector) : Decidable inspector.isRunning :=
  match state : inspector.state with
  | .running running => .isTrue ⟨running, state⟩
  | .runningDetached | .runningWaitEnable | .runningWaitPause | .pausedWaitEnable _ | .paused _ =>
    .isFalse fun ⟨_, same⟩ => by cases state.symm.trans same

/-- The inspector is enabled only in sync, and `Running` handles no request that asks for a pause
again while the VM is calling `didPause` for the last one. -/
def Prompt : InspectorEvent → Prop
  | .enable => inspector.InSync
  | .evaluate => inspector.isRunning → inspector.thread ≠ .calling .asyncTrigger
  | .pause => inspector.isRunning → inspector.pendingPauseState = .implicit →
      inspector.thread ≠ .calling .asyncTrigger
  | _ => True

instance (inspector : Inspector) (event : InspectorEvent) : Decidable (Prompt inspector event) :=
  match event with
  | .enable => inferInstanceAs (Decidable inspector.InSync)
  | .evaluate => inferInstanceAs (Decidable (_ → _))
  | .pause => inferInstanceAs (Decidable (_ → _ → _))
  | .disable | .executeIfEnabled | .setBreakpoint | .removeBreakpoint | .setPauseOnExceptions
  | .logMessage | .setPendingCommand _ | .vmPauses _ | .evalCompletes | .didPause | .wakesUp =>
    .isTrue trivial

def enabled : InspectorState → Prop
  | .running _ | .paused _ | .runningWaitPause | .pausedWaitEnable true => True
  | .runningDetached | .runningWaitEnable | .pausedWaitEnable false => False

/-- The invariant. In `Running`, pending functions are remembered, and so are pending evals
unless the VM is in a pause already. -/
structure Synced : Prop where
  once : inspector.thread = .calling .asyncTrigger → inspector.asyncPauseFlag = false
  sync : enabled inspector.state → inspector.InSync
  funcs : ∀ running, inspector.state = .running running → running.pendingFuncs ≠ [] →
    inspector.pendingPauseState ≠ .none
  evals : ∀ running, inspector.state = .running running → running.pendingEvals ≠ [] →
    inspector.pendingPauseState ≠ .none ∨ inspector.pauseUnderWay
  fresh : inspector.state = .runningWaitEnable → ¬ inspector.pauseComing
  waitEnable : ∀ isEnabled, inspector.state = .pausedWaitEnable isEnabled →
    ∃ reason, reason ≠ .asyncTrigger ∧ inspector.thread = .waiting reason
  asked : inspector.unaskedBreak = false

/-! ### Pauses -/

/-- What a handler leaves behind when it is done with a pause: the VM is not calling, so that
only the flag counts. -/
structure Handled : Prop where
  notCalling : ∀ reason, inspector.thread ≠ .calling reason
  sync : enabled inspector.state → (inspector.pendingPauseState ≠ .none ↔ inspector.asyncPauseFlag = true)
  served : ∀ running, inspector.state = .running running →
    running.pendingFuncs = [] ∧ (running.pendingEvals = [] ∨ inspector.thread = .evaluating)
  begun : inspector.state ≠ .runningWaitEnable
  waitEnable : ∀ isEnabled, inspector.state = .pausedWaitEnable isEnabled →
    ∃ reason, reason ≠ .asyncTrigger ∧ inspector.thread = .waiting reason
  asked : inspector.unaskedBreak = false

variable {inspector : Inspector}

theorem Handled.synced (handled : Handled inspector) : Synced inspector where
  once calling := absurd calling (handled.notCalling _)
  sync isEnabled := by
    rw [InSync, handled.sync isEnabled, pauseComing]
    exact ⟨.inl, fun coming => coming.resolve_right (handled.notCalling _)⟩
  funcs running isRunning pending := absurd (handled.served running isRunning).1 pending
  evals running isRunning pending :=
    .inr (.inl ((handled.served running isRunning).2.resolve_left pending))
  fresh begins := absurd begins handled.begun
  waitEnable := handled.waitEnable
  asked := handled.asked

def FlagInSync (inspector : Inspector) : Prop :=
  inspector.pendingPauseState ≠ .none ↔ inspector.asyncPauseFlag = true

section

variable (inspector : Inspector) (promise : Option ℕ) (answer : Answer)

@[simp] theorem answerIfAny_pendingPauseState :
    (inspector.answerIfAny promise answer).pendingPauseState = inspector.pendingPauseState := by
  cases promise <;> rfl

@[simp] theorem answerIfAny_asyncPauseFlag :
    (inspector.answerIfAny promise answer).asyncPauseFlag = inspector.asyncPauseFlag := by
  cases promise <;> rfl

@[simp] theorem answerIfAny_unaskedBreak :
    (inspector.answerIfAny promise answer).unaskedBreak = inspector.unaskedBreak := by
  cases promise <;> rfl

end

theorem Handled.detached (asked : inspector.unaskedBreak = false)
    (detached : inspector.state = .runningDetached) (executing : inspector.thread = .executing) :
    Handled inspector where
  notCalling reason calling := by
    rw [executing] at calling
    cases calling
  sync isEnabled := by
    rw [detached] at isEnabled
    exact isEnabled.elim
  served running isRunning := by
    rw [detached] at isRunning
    cases isRunning
  begun begins := by
    rw [detached] at begins
    cases begins
  waitEnable isEnabled waits := by
    rw [detached] at waits
    cases waits
  asked := asked

theorem Handled.paused {paused : PausedState}
    (asked : inspector.unaskedBreak = false) (flag : inspector.FlagInSync)
    (isPaused : inspector.state = .paused paused)
    (notCalling : ∀ reason, inspector.thread ≠ .calling reason) : Handled inspector where
  notCalling := notCalling
  sync _ := flag
  served running isRunning := by
    rw [isPaused] at isRunning
    cases isRunning
  begun begins := by
    rw [isPaused] at begins
    cases begins
  waitEnable isEnabled waits := by
    rw [isPaused] at waits
    cases waits
  asked := asked

theorem Handled.running {running : RunningState}
    (asked : inspector.unaskedBreak = false) (flag : inspector.FlagInSync)
    (isRunning : inspector.state = .running running)
    (notCalling : ∀ reason, inspector.thread ≠ .calling reason) (ran : running.pendingFuncs = [])
    (served : running.pendingEvals = [] ∨ inspector.thread = .evaluating) : Handled inspector where
  notCalling := notCalling
  sync _ := flag
  served other same := by
    rw [isRunning] at same
    cases same
    exact ⟨ran, served⟩
  begun begins := by
    rw [isRunning] at begins
    cases begins
  waitEnable isEnabled waits := by
    rw [isRunning] at waits
    cases waits
  asked := asked

theorem pausedTurn_handled (paused : PausedState) (reason : PauseReason)
    (asked : inspector.unaskedBreak = false) (flag : inspector.FlagInSync) :
    Handled (inspector.pausedTurn paused reason) := by
  unfold pausedTurn
  rw [runFuncs_eq]
  split
  next eval evals =>
    cases lastDetach paused.pendingFuncs none with
    | some pendingDetach => exact .detached (by simpa [answer] using asked) rfl rfl
    | none => exact .paused asked flag rfl (by simp)
  next =>
    cases lastDetach paused.pendingFuncs none with
    | some pendingDetach => exact .detached (by simpa [answer] using asked) rfl rfl
    | none =>
      cases paused.pendingCommand with
      | none => exact .paused asked flag rfl (by simp)
      | some =>
        exact .running asked flag rfl (by simp) rfl (.inl rfl)

variable {reason : PauseReason}

theorem pausedDidPause_handled (paused : PausedState) (asked : inspector.unaskedBreak = false)
    (cleared : reason = .asyncTrigger → inspector.asyncPauseFlag = false)
    (flag : reason ≠ .asyncTrigger → inspector.FlagInSync) :
    Handled (inspector.pausedDidPause paused reason) := by
  unfold pausedDidPause
  split
  next =>
    apply pausedTurn_handled _ _ (by exact asked)
    simp [FlagInSync, cleared rfl]
  next =>
    apply pausedTurn_handled _ _ (by simpa using asked)
    simpa [FlagInSync] using flag (by simp)
  next notAsync _ => exact pausedTurn_handled _ _ asked (flag notAsync)

theorem runningContinue_handled {running : RunningState}
    (asked : inspector.unaskedBreak = false) (flag : inspector.FlagInSync)
    (ran : running.pendingFuncs = []) : Handled (inspector.runningContinue running) := by
  unfold runningContinue
  split
  next eval evals =>
    exact .running asked flag rfl nofun ran (.inr rfl)
  next none =>
    exact .running asked flag rfl nofun ran (.inl none)

theorem runningDidPause_handled (running : RunningState) (asked : inspector.unaskedBreak = false)
    (cleared : reason = .asyncTrigger → inspector.asyncPauseFlag = false)
    (remembered : reason = .asyncTrigger → inspector.pendingPauseState ≠ .none)
    (flag : reason ≠ .asyncTrigger → inspector.FlagInSync) :
    Handled (inspector.runningDidPause running reason) := by
  unfold runningDidPause
  rw [runFuncs_eq]
  cases lastDetach running.pendingFuncs none with
  | some => exact .detached (by simpa [answer] using asked) rfl rfl
  | none =>
    dsimp only
    split
    next =>
      -- The flag was set because somebody asked for the pause.
      split
      next unasked => exact absurd unasked (remembered rfl)
      next =>
        apply runningContinue_handled (by exact asked) _ rfl
        simp [FlagInSync, cleared rfl]
      next =>
        exact pausedDidPause_handled {} asked (fun _ => cleared rfl) (fun other => absurd rfl other)
    next => exact runningContinue_handled asked (flag (by simp)) rfl
    next =>
      apply runningContinue_handled (by simpa using asked) _ rfl
      simpa [FlagInSync] using flag (by simp)
    next notAsync _ _ =>
      exact pausedDidPause_handled {} asked (fun same => absurd same notAsync) flag

theorem pausedWaitEnableDidPause_handled {isEnabled : Bool}
    (asked : inspector.unaskedBreak = false) (notAsync : reason ≠ .asyncTrigger)
    (flag : isEnabled = true → inspector.FlagInSync) :
    Handled (inspector.pausedWaitEnableDidPause isEnabled reason) := by
  unfold pausedWaitEnableDidPause
  split
  next isEnabled =>
    exact pausedDidPause_handled {} asked (fun async => absurd async notAsync) (fun _ => flag isEnabled)
  next =>
    exact {
      notCalling := nofun
      sync := fun isEnabled => isEnabled.elim
      served := nofun
      begun := nofun
      waitEnable := fun _ _ => ⟨reason, notAsync, rfl⟩
      asked := asked }

theorem Synced.flagInSync (synced : Synced inspector)
    (isEnabled : enabled inspector.state) (notCalling : inspector.thread ≠ .calling .asyncTrigger) :
    inspector.FlagInSync := by
  have sync : inspector.pendingPauseState ≠ .none ↔ inspector.pauseComing := synced.sync isEnabled
  rw [FlagInSync, sync]
  exact ⟨fun coming => coming.resolve_right notCalling, .inl⟩

section

variable (synced : Synced inspector)
include synced

theorem didPause_handled
    (calling : inspector.thread = .calling reason) : Handled (inspector.didPause reason) := by
  have cleared : reason = .asyncTrigger → inspector.asyncPauseFlag = false := by
    rintro rfl
    exact synced.once calling
  have flag : enabled inspector.state → reason ≠ .asyncTrigger → inspector.FlagInSync := by
    intro isEnabled notAsync
    apply synced.flagInSync isEnabled
    rw [calling]
    simpa using notAsync
  unfold didPause
  split
  next detached =>
    split
    next debuggerStatement =>
      subst debuggerStatement
      exact pausedWaitEnableDidPause_handled synced.asked (by simp) nofun
    next => exact .detached synced.asked detached rfl
  next state =>
    apply pausedWaitEnableDidPause_handled synced.asked _ (fun isEnabled => by cases isEnabled)
    rintro rfl
    exact synced.fresh state (.inr calling)
  next state => exact pausedDidPause_handled {} synced.asked cleared (flag (by rw [state]; trivial))
  next isEnabled state =>
    -- In this state the VM waits and has not just called.
    obtain ⟨_, -, waiting⟩ := synced.waitEnable isEnabled state
    cases calling.symm.trans waiting
  next running state =>
    apply runningDidPause_handled running synced.asked cleared _ (flag (by rw [state]; trivial))
    rintro rfl
    exact (synced.sync (by rw [state]; trivial)).mpr (.inr calling)
  next paused state =>
    exact pausedDidPause_handled paused synced.asked cleared (flag (by rw [state]; trivial))

variable {next : Inspector}

theorem wakesUp_handled (waiting : inspector.thread = .waiting reason)
    (woke : inspector.wakesUp reason = some next) : Handled next := by
  have notCalling : inspector.thread ≠ .calling .asyncTrigger := by
    rw [waiting]
    simp
  unfold wakesUp at woke
  split at woke
  next isEnabled state =>
    cases woke
    obtain ⟨_, notAsync, same⟩ := synced.waitEnable isEnabled state
    cases waiting.symm.trans same
    apply pausedWaitEnableDidPause_handled synced.asked notAsync
    rintro rfl
    exact synced.flagInSync (by rw [state]; trivial) notCalling
  next paused state =>
    cases woke
    exact pausedTurn_handled paused reason synced.asked
      (synced.flagInSync (by rw [state]; trivial) notCalling)
  next => cases woke

/-! ### Requests -/

variable {other : Inspector}

theorem Synced.of_same (state : other.state = inspector.state)
    (pendingPauseState : other.pendingPauseState = inspector.pendingPauseState)
    (asyncPauseFlag : other.asyncPauseFlag = inspector.asyncPauseFlag)
    (thread : other.thread = inspector.thread)
    (unaskedBreak : other.unaskedBreak = inspector.unaskedBreak) : Synced other := by
  obtain ⟨once, sync, funcs, evals, fresh, waitEnable, asked⟩ := synced
  unfold InSync pauseComing at sync
  unfold pauseComing at fresh
  unfold pauseUnderWay at evals
  rw [← state, ← pendingPauseState, ← asyncPauseFlag, ← thread] at sync
  rw [← state, ← pendingPauseState, ← thread] at evals
  rw [← state, ← asyncPauseFlag, ← thread] at fresh
  rw [← state, ← pendingPauseState] at funcs
  rw [← state, ← thread] at waitEnable
  rw [← asyncPauseFlag, ← thread] at once
  exact ⟨once, sync, funcs, evals, fresh, waitEnable, unaskedBreak.trans asked⟩

theorem Synced.answer (promise : ℕ) (answer : Answer) : Synced (inspector.answer promise answer) :=
  synced.of_same rfl rfl rfl rfl rfl

end

theorem Synced.running {running : RunningState} (isRunning : inspector.state = .running running)
    (once : inspector.thread = .calling .asyncTrigger → inspector.asyncPauseFlag = false)
    (coming : inspector.pauseComing) (remembered : inspector.pendingPauseState ≠ .none)
    (asked : inspector.unaskedBreak = false) : Synced inspector where
  once := once
  sync _ := ⟨fun _ => coming, fun _ => remembered⟩
  funcs _ _ _ := remembered
  evals _ _ _ := .inl remembered
  fresh begins := by
    rw [isRunning] at begins
    cases begins
  waitEnable isEnabled waits := by
    rw [isRunning] at waits
    cases waits
  asked := asked

theorem Synced.of_paused {paused next : PausedState}
    (synced : Synced inspector) (isPaused : inspector.state = .paused paused)
    (changes : other = { inspector with state := .paused next }) : Synced other := by
  subst changes
  exact {
    once := synced.once
    sync := fun _ => synced.sync (by rw [isPaused]; trivial)
    funcs := nofun
    evals := nofun
    fresh := nofun
    waitEnable := nofun
    asked := synced.asked }

theorem Synced.pushPendingFunc {func : PendingFunc}
    (synced : Synced inspector) (pushed : inspector.pushPendingFunc func = some next) :
    Synced next := by
  unfold Inspector.pushPendingFunc at pushed
  split at pushed
  next running state =>
    have sync := synced.sync (by rw [state]; trivial)
    split at pushed
    next forgotten =>
      cases pushed
      refine Synced.running rfl ?_ (.inl rfl) (by simp [triggerAsyncPause]) synced.asked
      -- A call for the flag would be remembered.
      intro calling
      exact absurd forgotten (sync.mpr (.inr calling))
    next remembered =>
      cases pushed
      exact Synced.running rfl synced.once (sync.mp remembered) remembered synced.asked
  next paused state =>
    cases pushed
    exact synced.of_paused state rfl
  next => cases pushed

theorem Synced.getD_pushPendingFunc {func : PendingFunc}
    (synced : Synced inspector) (refused : Synced other) :
    Synced ((inspector.pushPendingFunc func).getD other) := by
  cases pushed : inspector.pushPendingFunc func with
  | none => exact refused
  | some => exact synced.pushPendingFunc pushed

section

variable (synced : Synced inspector)
include synced

theorem Synced.enableOnExecutor (sync : inspector.InSync) (promise : ℕ) :
    Synced (inspector.enableOnExecutor promise) := by
  unfold Inspector.enableOnExecutor
  -- Enabling changes the state; the fields about a running state hold of no other.
  split
  next state =>
    exact {
      once := synced.once
      sync := fun _ => sync
      funcs := fun _ isRunning pending => by
        cases isRunning
        exact absurd rfl pending
      evals := fun _ isRunning pending => by
        cases isRunning
        exact absurd rfl pending
      fresh := nofun
      waitEnable := nofun
      asked := synced.asked }
  next state =>
    exact {
      once := synced.once
      sync := fun _ => sync
      funcs := nofun
      evals := nofun
      fresh := nofun
      waitEnable := nofun
      asked := synced.asked }
  next state =>
    exact {
      once := synced.once
      sync := fun _ => sync
      funcs := nofun
      evals := nofun
      fresh := nofun
      waitEnable := fun _ _ => synced.waitEnable false state
      asked := synced.asked }
  next => exact synced.answer promise _

theorem Synced.setPendingCommandOnExecutor (promise : ℕ) (command : ResumeOrStep) :
    Synced (inspector.setPendingCommandOnExecutor promise command) := by
  unfold Inspector.setPendingCommandOnExecutor
  split
  next paused state =>
    split
    · exact synced.answer promise _
    · exact synced.of_paused state rfl
  next => exact synced.answer promise _

theorem Synced.pauseOnExecutor (prompt : Prompt inspector .pause) (promise : ℕ) :
    Synced (inspector.pauseOnExecutor promise) := by
  unfold Inspector.pauseOnExecutor
  split
  next running state =>
    have sync := synced.sync (by rw [state]; trivial)
    split
    next forgotten =>
      refine Synced.running state ?_ (.inl rfl) (by simp [Inspector.answer, triggerAsyncPause]) synced.asked
      intro calling
      exact absurd forgotten (sync.mpr (.inr calling))
    next implicit =>
      refine Synced.running state ?_ (.inl rfl) (by simp [Inspector.answer, triggerAsyncPause]) synced.asked
      intro calling
      exact absurd calling (prompt ⟨running, state⟩ implicit)
    next => exact synced.answer promise _
  next => exact synced.answer promise _

theorem Synced.evaluateOnExecutor (prompt : Prompt inspector .evaluate) (promise : ℕ) :
    Synced (inspector.evaluateOnExecutor promise) := by
  unfold Inspector.evaluateOnExecutor
  split
  next running state =>
    refine Synced.running rfl ?_ (.inl rfl) ?_ synced.asked
    · intro calling
      exact absurd calling (prompt ⟨running, state⟩)
    · dsimp only [triggerAsyncPause]
      split
      next => simp
      next remembered => exact remembered
  next paused state =>
    split
    · exact synced.answer promise _
    · exact synced.of_paused state rfl
  next => exact synced.answer promise _

end

/-! ### Runs -/

theorem Synced.initial (pauseOnFirstStatement : Bool) : Synced (initial pauseOnFirstStatement) := by
  cases pauseOnFirstStatement with
  | false =>
    exact Handled.synced (.detached rfl rfl rfl)
  | true =>
    exact {
      once := nofun
      sync := fun isEnabled => isEnabled.elim
      funcs := nofun
      evals := nofun
      fresh := fun _ coming => by rcases coming with flag | calling <;> cases ‹_›
      waitEnable := nofun
      asked := rfl }

section

variable (synced : Synced inspector)
include synced

/-- The VM calls `didPause`; whether a pause is coming does not change by it. -/
theorem Synced.calls {flag : Bool}
    (coming : flag = true ∨ VmThread.calling reason = .calling .asyncTrigger ↔
      inspector.pauseComing) (once : reason = .asyncTrigger → flag = false)
    (runs : ∀ waiting, inspector.thread ≠ .waiting waiting) :
    Synced { inspector with thread := .calling reason, asyncPauseFlag := flag } where
  once calling := by
    cases calling
    exact once rfl
  sync isEnabled := (synced.sync isEnabled).trans coming.symm
  funcs := synced.funcs
  evals _ _ _ := .inr (.inr ⟨reason, rfl⟩)
  fresh begins comes := synced.fresh begins (coming.mp comes)
  waitEnable isEnabled waits := by
    obtain ⟨_, -, waiting⟩ := synced.waitEnable isEnabled waits
    exact absurd waiting (runs _)
  asked := synced.asked

theorem Synced.vmPauses (canPause : inspector.canPause reason) :
    Synced { inspector with
      thread := .calling reason
      asyncPauseFlag := inspector.asyncPauseFlag && reason ≠ .asyncTrigger } := by
  obtain ⟨executing, -, flagged⟩ := canPause
  refine synced.calls ?_ (by simp_all) (by simp [executing])
  by_cases async : reason = .asyncTrigger
  · simp [async, pauseComing, flagged async]
  · simp [async, pauseComing, executing]

theorem Synced.evalCompletes (evaluating : inspector.thread = .evaluating) :
    Synced { inspector with thread := .calling .evalComplete } :=
  synced.calls (by simp [pauseComing, evaluating]) nofun (by simp [evaluating])

theorem Synced.step {event : InspectorEvent} (prompt : Prompt inspector event)
    (stepped : step inspector event = some next) : Synced next := by
  -- A new promise alone keeps the state in sync.
  have counted : Synced { inspector with promises := inspector.promises + 1 } :=
    synced.of_same rfl rfl rfl rfl rfl
  -- One case for each event: a client's passes through a lemma, the VM's through a turn.
  cases event with
  | enable =>
    cases stepped
    exact counted.enableOnExecutor prompt _
  | disable =>
    cases stepped
    exact counted.getD_pushPendingFunc (counted.answer _ _)
  | executeIfEnabled =>
    cases stepped
    exact counted.getD_pushPendingFunc (counted.answer _ _)
  | setBreakpoint =>
    cases stepped
    exact counted.getD_pushPendingFunc (counted.answer _ _)
  | removeBreakpoint =>
    cases stepped
    exact counted.getD_pushPendingFunc (counted.answer _ _)
  | setPauseOnExceptions =>
    cases stepped
    exact counted.getD_pushPendingFunc counted
  | logMessage =>
    cases stepped
    exact (counted.getD_pushPendingFunc counted).answer _ _
  | setPendingCommand command =>
    cases stepped
    exact counted.setPendingCommandOnExecutor _ command
  | pause =>
    cases stepped
    exact counted.pauseOnExecutor prompt _
  | evaluate =>
    cases stepped
    exact counted.evaluateOnExecutor prompt _
  | vmPauses reason =>
    rw [Inspector.step] at stepped
    split at stepped
    next canPause =>
      cases stepped
      exact synced.vmPauses canPause
    next => cases stepped
  | evalCompletes =>
    rw [Inspector.step] at stepped
    split at stepped
    next evaluating =>
      cases stepped
      exact synced.evalCompletes evaluating
    next => cases stepped
  | didPause =>
    rw [Inspector.step] at stepped
    split at stepped
    next reason calling =>
      cases stepped
      exact (didPause_handled synced calling).synced
    next => cases stepped
  | wakesUp =>
    rw [Inspector.step] at stepped
    split at stepped
    next reason waiting => exact (wakesUp_handled synced waiting stepped).synced
    next => cases stepped

theorem Synced.noLostWakeUp : NoLostWakeUp inspector where
  work running isRunning pending := by
    have fromMemory : inspector.pendingPauseState ≠ .none →
        inspector.asyncPauseFlag = true ∨ inspector.pauseUnderWay := by
      intro remembered
      have coming := (synced.sync (by rw [isRunning]; trivial)).mp remembered
      exact coming.imp_right fun calling => .inr ⟨_, calling⟩
    rcases pending with funcs | evals
    · exact fromMemory (synced.funcs running isRunning funcs)
    · exact (synced.evals running isRunning evals).elim fromMemory .inr
  asked := synced.asked

end

/-- **The inspector never loses a wake-up**, in every run in which it is enabled only while the
pending pause state agrees with the flag of the VM, and in which `Running` handles no `evaluate`,
and no `pause` that upgrades an implicit pause, while the VM is calling `didPause` for its flag. -/
theorem run_prompt {pauseOnFirstStatement : Bool} {events : List InspectorEvent} {final : Inspector}
    (along : Along step Prompt (initial pauseOnFirstStatement) events)
    (ran : run step (initial pauseOnFirstStatement) events = some final) : NoLostWakeUp final :=
  Synced.noLostWakeUp <|
    run_induction (fun _ _ _ synced prompt stepped => synced.step prompt stepped)
      (Synced.initial pauseOnFirstStatement) along ran

theorem run_prompt_breakpoint : ∃ final, run step (initial false)
        [.enable, .setBreakpoint, .vmPauses .asyncTrigger, .setBreakpoint, .didPause, .evaluate,
          .evaluate, .vmPauses .asyncTrigger, .didPause, .evalCompletes, .didPause, .evalCompletes,
          .didPause, .vmPauses .breakpoint, .didPause, .setPendingCommand .continueExecution,
          .wakesUp, .setBreakpoint] = some final ∧ final.isRunning ∧ NoLostWakeUp final := by
  have ran : run step (initial false)
      [.enable, .setBreakpoint, .vmPauses .asyncTrigger, .setBreakpoint, .didPause, .evaluate,
        .evaluate, .vmPauses .asyncTrigger, .didPause, .evalCompletes, .didPause, .evalCompletes,
        .didPause, .vmPauses .breakpoint, .didPause, .setPendingCommand .continueExecution,
        .wakesUp, .setBreakpoint] =
      some {
        state := .running { pendingFuncs := [.request 6] }
        pendingPauseState := .implicit, asyncPauseFlag := true, promises := 7
        answered := [(0, .value), (1, .value), (2, .value), (3, .value), (4, .value), (5, .value)] } := by
    decide
  exact ⟨_, ran, ⟨_, rfl⟩, run_prompt (by decide) ran⟩

theorem detach_not_prompt : (∃ final, run step (initial false)
        [.enable, .disable, .vmPauses .breakpoint, .didPause, .enable, .vmPauses .asyncTrigger,
          .didPause] = some final ∧ ¬ NoLostWakeUp final) ∧
    (∃ final, run step (initial false)
        [.enable, .setBreakpoint, .vmPauses .breakpoint, .didPause, .disable, .wakesUp,
          .vmPauses .asyncTrigger, .didPause, .enable, .setBreakpoint] = some final ∧
      ¬ NoLostWakeUp final) ∧
    (∃ final, run step (initial false)
        [.enable, .setBreakpoint, .vmPauses .asyncTrigger, .evaluate, .didPause, .evalCompletes,
          .didPause, .vmPauses .asyncTrigger, .didPause] = some final ∧ ¬ NoLostWakeUp final) := by
  refine ⟨⟨{
      state := .running {}, promises := 3, unaskedBreak := true
      answered := [(0, .value), (1, .value), (2, .value)] }, by decide, ?_⟩, ⟨{
      state := .running { pendingFuncs := [.request 4] }, pendingPauseState := .implicit
      promises := 5
      answered := [(0, .value), (1, .value), (2, .value), (3, .value)] }, by decide, ?_⟩, ⟨{
      state := .running {}, promises := 3, unaskedBreak := true
      answered := [(0, .value), (1, .value), (2, .value)] }, by decide, ?_⟩⟩
  · exact fun prompt => absurd prompt.asked Bool.true_eq_false.mp
  · intro prompt
    rcases prompt.work _ rfl (.inl (List.cons_ne_nil _ _)) with flag | evaluating | ⟨reason, calling⟩
    · cases flag
    · cases evaluating
    · cases calling
  · exact fun prompt => absurd prompt.asked Bool.true_eq_false.mp

end Inspector

end ReactNative

