import ReactNative.Inspector.InspectorState

/-! A promise that was handed out is held by the state object, in a pending function, eval or
command, until it is answered. Each handler that replaces the state object has to answer what the
old one still holds. -/
namespace ReactNative

open Runs List Option

namespace Inspector

def funcPromises : List PendingFunc → List ℕ
  | [] => []
  | .detach promise :: rest => promise :: funcPromises rest
  | .request promise :: rest => promise :: funcPromises rest
  | .log :: rest => funcPromises rest

def RunningState.held (running : RunningState) : List ℕ :=
  funcPromises running.pendingFuncs ++ running.pendingEvals ++ running.pendingEvalPromise.toList

def PausedState.held (paused : PausedState) : List ℕ :=
  funcPromises paused.pendingFuncs ++ paused.pendingEvals ++ paused.pendingEvalPromise.toList ++
    (paused.pendingCommand.map PendingCommand.promise).toList

def held : InspectorState → List ℕ
  | .running running => RunningState.held running
  | .paused paused => PausedState.held paused
  | .runningDetached | .runningWaitEnable | .runningWaitPause | .pausedWaitEnable _ => []

variable (inspector : Inspector)

def answers (promise : ℕ) : ℕ := (inspector.answered.map Prod.fst).count promise

/-- Each promise that was handed out was answered once and is not held any more, or is held by
the state object and was not answered. -/
def AnsweredOnce : Prop :=
  ∀ promise < inspector.promises,
    inspector.answers promise + (held inspector.state).count promise = 1

def detaches : List PendingFunc → ℕ
  | [] => 0
  | .detach _ :: rest => detaches rest + 1
  | .request _ :: rest => detaches rest
  | .log :: rest => detaches rest

def pendingDetaches : InspectorState → ℕ
  | .running running => detaches running.pendingFuncs
  | .paused paused => detaches paused.pendingFuncs
  | .runningDetached | .runningWaitEnable | .runningWaitPause | .pausedWaitEnable _ => 0

/-- `Running` is left for `Paused` in a pause with this reason. -/
def stops : PauseReason → Prop
  | .asyncTrigger => inspector.pendingPauseState = .explicit
  | .scriptLoaded | .evalComplete => False
  | .debuggerStatement | .breakpoint | .stepFinish | .exception => True

/-- Evals are pending in a state object that the handler is going to drop. -/
def dropsEvals (reason : PauseReason) : InspectorState → Prop
  | .running running =>
    running.pendingEvals ≠ [] ∧ (0 < detaches running.pendingFuncs ∨ inspector.stops reason)
  | .paused paused => paused.pendingEvals ≠ [] ∧ 0 < detaches paused.pendingFuncs
  | .runningDetached | .runningWaitEnable | .runningWaitPause | .pausedWaitEnable _ => False

def pauseReason : Option PauseReason :=
  match inspector.thread with
  | .calling reason => some reason
  | .waiting reason => some reason
  | _ => none

/-- The states in which functions can be pushed. -/
def acceptsFuncs : InspectorState → Prop
  | .running _ | .paused _ => True
  | .runningDetached | .runningWaitEnable | .runningWaitPause | .pausedWaitEnable _ => False

/-- `setPauseOnExceptions` comes while functions can be pushed, `disable` while no other one is
pending, and no pause drops evals. -/
def Careful : InspectorEvent → Prop
  | .setPauseOnExceptions => acceptsFuncs inspector.state
  | .disable => pendingDetaches inspector.state = 0
  | .didPause | .wakesUp =>
    ∀ reason ∈ inspector.pauseReason, ¬ inspector.dropsEvals reason inspector.state
  | _ => True

instance (inspector : Inspector) : ∀ reason, Decidable (inspector.stops reason)
  | .asyncTrigger => inferInstanceAs (Decidable (_ = _))
  | .scriptLoaded | .evalComplete => .isFalse id
  | .debuggerStatement | .breakpoint | .stepFinish | .exception => .isTrue trivial

instance (inspector : Inspector) (reason : PauseReason) :
    ∀ state, Decidable (inspector.dropsEvals reason state)
  | .running _ => inferInstanceAs (Decidable (_ ∧ (_ ∨ _)))
  | .paused _ => inferInstanceAs (Decidable (_ ∧ _))
  | .runningDetached | .runningWaitEnable | .runningWaitPause | .pausedWaitEnable _ => .isFalse id

instance : ∀ state, Decidable (acceptsFuncs state)
  | .running _ | .paused _ => .isTrue trivial
  | .runningDetached | .runningWaitEnable | .runningWaitPause | .pausedWaitEnable _ => .isFalse id

instance (inspector : Inspector) (event : InspectorEvent) : Decidable (Careful inspector event) :=
  match event with
  | .setPauseOnExceptions => inferInstanceAs (Decidable (acceptsFuncs _))
  | .disable => inferInstanceAs (Decidable (_ = 0))
  | .didPause | .wakesUp => inferInstanceAs (Decidable (∀ reason ∈ inspector.pauseReason, _))
  | .enable | .executeIfEnabled | .setBreakpoint | .removeBreakpoint | .logMessage
  | .setPendingCommand _ | .pause | .evaluate | .vmPauses _ | .evalCompletes => .isTrue trivial

/-! ### Counting -/

@[simp] theorem answerIfAny_promises (promise : Option ℕ) (answer : Answer) :
    (inspector.answerIfAny promise answer).promises = inspector.promises := by
  cases promise <;> rfl

@[simp] theorem map_fst_answerIfAny (promise : Option ℕ) (answer : Answer) :
    (inspector.answerIfAny promise answer).answered.map Prod.fst =
      inspector.answered.map Prod.fst ++ promise.toList := by
  cases promise <;> simp [answerIfAny, Inspector.answer]

theorem lastDetach_eq_none {funcs : List PendingFunc} (none : detaches funcs = 0)
    (pendingDetach : Option ℕ) : lastDetach funcs pendingDetach = pendingDetach := by
  induction funcs with
  | nil => rfl
  | cons func _ ih =>
    cases func with
    | detach promise => simp [detaches] at none
    | request promise => exact ih none
    | log => exact ih none

theorem count_funcAnswers {funcs : List PendingFunc} (promise : ℕ) (atMostOne : detaches funcs ≤ 1) :
    ((funcAnswers funcs).map Prod.fst).count promise + (lastDetach funcs none).toList.count promise =
      (funcPromises funcs).count promise := by
  induction funcs with
  | nil => rfl
  | cons func rest ih =>
    cases func with
    | detach =>
      have none : detaches rest = 0 := by
        simp only [detaches] at atMostOne
        omega
      have others := ih (by omega)
      rw [lastDetach_eq_none none] at others
      simp only [funcAnswers, lastDetach, lastDetach_eq_none none, funcPromises, count_cons,
        toList_some, count_nil, toList_none] at others ⊢
      omega
    | request =>
      have others := ih atMostOne
      simp only [funcAnswers, lastDetach, funcPromises, map_cons, count_cons] at others ⊢
      omega
    | log => exact ih atMostOne

/-! ### The invariant -/

def handedOut (promises promise : ℕ) : ℕ := if promise < promises then 1 else 0

/-- The answers and these promises account for every promise that was handed out. -/
def Balanced (promises : List ℕ) : Prop :=
  ∀ promise, inspector.answers promise + promises.count promise =
    handedOut inspector.promises promise

def evalPromise : InspectorState → Option ℕ
  | .running running => running.pendingEvalPromise
  | .paused paused => paused.pendingEvalPromise
  | .runningDetached | .runningWaitEnable | .runningWaitPause | .pausedWaitEnable _ => none

structure Accounted : Prop where
  balanced : inspector.Balanced (held inspector.state)
  oneDetach : pendingDetaches inspector.state ≤ 1
  evaluates : evalPromise inspector.state ≠ none →
    inspector.thread = .evaluating ∨ inspector.thread = .calling .evalComplete

variable {inspector : Inspector}

theorem Accounted.answeredOnce (accounted : Accounted inspector) : AnsweredOnce inspector := by
  intro promise handed
  rw [accounted.balanced promise, handedOut, if_pos handed]

theorem Accounted.detached (balanced : inspector.Balanced [])
    (detached : inspector.state = .runningDetached) : Accounted inspector := by
  constructor
  · rw [detached]
    exact balanced
  · rw [detached]
    exact Nat.zero_le 1
  · rw [detached]
    intro evaluates
    exact absurd rfl evaluates

theorem pausedTurn_accounted {paused : PausedState} (reason : PauseReason)
    (balanced : inspector.Balanced (PausedState.held paused))
    (oneDetach : detaches paused.pendingFuncs ≤ 1) (idle : paused.pendingEvalPromise = none)
    (keeps : paused.pendingEvals ≠ [] → detaches paused.pendingFuncs = 0) :
    Accounted (inspector.pausedTurn paused reason) := by
  have funcs := fun promise => count_funcAnswers promise oneDetach
  unfold PausedState.held at balanced
  rw [idle] at balanced
  unfold pausedTurn
  rw [runFuncs_eq]
  -- Either an eval is taken, or the loop looks for a detach, then for a command.
  split
  next eval evals isEvals =>
    rw [isEvals] at balanced keeps
    have none := lastDetach_eq_none (keeps (cons_ne_nil _ _)) none
    simp only [none] at funcs ⊢
    refine ⟨?_, Nat.zero_le 1, fun _ => .inl rfl⟩
    intro promise
    have before := balanced promise
    have ran := funcs promise
    simp only [answers, held, PausedState.held, funcPromises, map_append, count_append,
      count_cons, toList_some, toList_none, count_nil] at before ran ⊢
    omega
  next isEvals =>
    rw [isEvals] at balanced
    cases detached : lastDetach paused.pendingFuncs none with
    -- A detach answers everything that is held.
    | some =>
      simp only [detached] at funcs ⊢
      refine Accounted.detached ?_ rfl
      intro promise
      have before := balanced promise
      have ran := funcs promise
      simp only [answers, map_fst_answerIfAny, answerIfAny_promises, answer, idle, map_append,
        map_cons, map_nil, count_append, toList_some, toList_none,
        count_nil] at before ran ⊢
      omega
    -- Without one, a command leaves the loop, and otherwise nothing has been taken but functions.
    | none =>
      simp only [detached] at funcs ⊢
      cases isCommand : paused.pendingCommand with
      | some =>
        rw [isCommand] at balanced
        refine ⟨?_, Nat.zero_le 1, fun evaluates => absurd rfl evaluates⟩
        intro promise
        have before := balanced promise
        have ran := funcs promise
        simp only [answers, held, RunningState.held, funcPromises, answer, map_append,
          map_cons, map_nil, count_append, map_some, toList_some,
          toList_none, count_nil] at before ran ⊢
        omega
      | none =>
        rw [isCommand] at balanced
        refine ⟨?_, Nat.zero_le 1, fun evaluates => absurd idle evaluates⟩
        intro promise
        have before := balanced promise
        have ran := funcs promise
        simp only [answers, held, PausedState.held, funcPromises, idle, isEvals,
          map_append, count_append, map_none, toList_none,
          count_nil] at before ran ⊢
        omega

variable {reason : PauseReason}

theorem pausedDidPause_accounted {paused : PausedState}
    (balanced : inspector.Balanced (PausedState.held paused))
    (oneDetach : detaches paused.pendingFuncs ≤ 1)
    (idle : reason ≠ .evalComplete → paused.pendingEvalPromise = none)
    (keeps : paused.pendingEvals ≠ [] → detaches paused.pendingFuncs = 0) :
    Accounted (inspector.pausedDidPause paused reason) := by
  unfold pausedDidPause
  split
  next => exact pausedTurn_accounted _ balanced oneDetach (idle (by simp)) keeps
  next =>
    refine pausedTurn_accounted _ ?_ oneDetach rfl keeps
    intro promise
    have before := balanced promise
    simp only [answers, PausedState.held, map_fst_answerIfAny, answerIfAny_promises,
      count_append, toList_none, count_nil] at before ⊢
    omega
  next _ notEval => exact pausedTurn_accounted _ balanced oneDetach (idle notEval) keeps

theorem runningContinue_accounted {running : RunningState}
    (balanced : inspector.Balanced (RunningState.held running)) (ran : running.pendingFuncs = [])
    (idle : running.pendingEvalPromise = none) : Accounted (inspector.runningContinue running) := by
  unfold RunningState.held at balanced
  rw [ran, idle] at balanced
  unfold runningContinue
  split
  next eval evals isEvals =>
    rw [isEvals] at balanced
    refine ⟨?_, ?_, fun _ => .inl rfl⟩
    · intro promise
      have before := balanced promise
      simp only [answers, held, RunningState.held, ran, funcPromises, count_append,
        count_cons, toList_some, toList_none, count_nil] at before ⊢
      omega
    · simp [pendingDetaches, ran, detaches]
  next isEvals =>
    refine ⟨?_, ?_, fun evaluates => absurd idle evaluates⟩
    · intro promise
      have before := balanced promise
      simp only [answers, held, RunningState.held, ran, idle] at before ⊢
      exact before
    · simp [pendingDetaches, ran, detaches]

theorem runningDidPause_accounted {running : RunningState}
    (balanced : inspector.Balanced (RunningState.held running))
    (oneDetach : detaches running.pendingFuncs ≤ 1)
    (idle : reason ≠ .evalComplete → running.pendingEvalPromise = none)
    (keeps : running.pendingEvals ≠ [] →
      detaches running.pendingFuncs = 0 ∧ ¬ inspector.stops reason) :
    Accounted (inspector.runningDidPause running reason) := by
  have funcs := fun promise => count_funcAnswers promise oneDetach
  unfold RunningState.held at balanced
  unfold runningDidPause
  rw [runFuncs_eq]
  cases detached : lastDetach running.pendingFuncs none with
  | some =>
    have noEvals : running.pendingEvals = [] := by
      by_contra evals
      rw [lastDetach_eq_none (keeps evals).1] at detached
      cases detached
    simp only [detached] at funcs ⊢
    refine Accounted.detached ?_ rfl
    intro promise
    have before := balanced promise
    have ran := funcs promise
    simp only [answers, map_fst_answerIfAny, answerIfAny_promises, answer, noEvals, map_append,
      map_cons, map_nil, count_append, toList_some, count_nil]
      at before ran ⊢
    omega
  | none =>
    simp only [detached] at funcs ⊢
    -- After the functions, the state object holds the evals only.
    have evals : ({ inspector with answered := inspector.answered ++ funcAnswers running.pendingFuncs }
        : Inspector).Balanced (running.pendingEvals ++ running.pendingEvalPromise.toList) := by
      intro promise
      have before := balanced promise
      have ran := funcs promise
      simp only [answers, map_append, count_append, toList_none, count_nil]
        at before ran ⊢
      omega
    have stopping : inspector.stops reason → reason ≠ .evalComplete →
        ∀ other : Inspector, other.answered = inspector.answered ++ funcAnswers running.pendingFuncs →
          other.promises = inspector.promises → Accounted (other.pausedDidPause {} reason) := by
      intro isStop notEval other answered promises
      have noEvals : running.pendingEvals = [] := by
        by_contra evals
        exact (keeps evals).2 isStop
      rw [noEvals, idle notEval] at evals
      apply pausedDidPause_accounted
      · intro promise
        have before := evals promise
        simp only [answers, answered, promises, PausedState.held, funcPromises] at before ⊢
        exact before
      · exact Nat.zero_le 1
      · exact fun _ => rfl
      · exact fun some => absurd rfl some
    split
    next =>
      have noEval := idle (by simp)
      split
      next => exact runningContinue_accounted evals rfl noEval
      next => exact runningContinue_accounted evals rfl noEval
      next isExplicit => exact stopping isExplicit (by simp) _ rfl rfl
    next => exact runningContinue_accounted evals rfl (idle (by simp))
    next =>
      refine runningContinue_accounted ?_ rfl rfl
      intro promise
      have before := evals promise
      simp only [answers, RunningState.held, funcPromises, map_fst_answerIfAny, answerIfAny_promises,
        map_append, count_append, toList_none, count_nil] at before ⊢
      omega
    next notAsync notLoaded notEval =>
      refine stopping ?_ notEval _ rfl rfl
      cases reason with
      | asyncTrigger => exact absurd rfl notAsync
      | scriptLoaded => exact absurd rfl notLoaded
      | evalComplete => exact absurd rfl notEval
      | debuggerStatement | breakpoint | stepFinish | exception => trivial

theorem Accounted.nothingHeld (balanced : inspector.Balanced [])
    (nothing : ¬ acceptsFuncs inspector.state) : Accounted inspector := by
  cases state : inspector.state with
  | running running => exact absurd (by rw [state]; trivial) nothing
  | paused paused => exact absurd (by rw [state]; trivial) nothing
  | runningDetached | runningWaitEnable | runningWaitPause | pausedWaitEnable isEnabled =>
    constructor
    · rw [state]
      exact balanced
    · rw [state]
      exact Nat.zero_le 1
    · rw [state]
      exact fun evaluates => absurd rfl evaluates

theorem Accounted.balanced_nil (accounted : Accounted inspector)
    (nothing : ¬ acceptsFuncs inspector.state) : inspector.Balanced [] := by
  have balanced := accounted.balanced
  cases state : inspector.state with
  | running running => exact absurd (by rw [state]; trivial) nothing
  | paused paused => exact absurd (by rw [state]; trivial) nothing
  | runningDetached | runningWaitEnable | runningWaitPause | pausedWaitEnable isEnabled =>
    rw [state] at balanced
    exact balanced

theorem pausedWaitEnableDidPause_accounted (isEnabled : Bool)
    (reason : PauseReason) (balanced : inspector.Balanced []) :
    Accounted (inspector.pausedWaitEnableDidPause isEnabled reason) := by
  unfold pausedWaitEnableDidPause
  split
  · exact pausedDidPause_accounted balanced (Nat.zero_le 1) (fun _ => rfl) (fun some => absurd rfl some)
  · exact .nothingHeld balanced id

theorem Accounted.didPause
    (accounted : Accounted inspector) (calling : inspector.thread = .calling reason)
    (keeps : ¬ inspector.dropsEvals reason inspector.state) :
    Accounted (inspector.didPause reason) := by
  have nothing := accounted.balanced_nil
  obtain ⟨balanced, oneDetach, evaluates⟩ := accounted
  -- An eval is under way only if this pause is the one that completes it.
  have idle : reason ≠ .evalComplete → evalPromise inspector.state = none := by
    intro notEval
    by_contra some
    rcases evaluates some with evaluating | completed
    · cases calling.symm.trans evaluating
    · cases calling.symm.trans completed
      exact notEval rfl
  unfold Inspector.didPause
  -- One case for each state in which a pause can be told.
  split
  next state =>
    have balanced := nothing (by rw [state]; exact id)
    split
    · exact pausedWaitEnableDidPause_accounted false reason balanced
    · exact .detached balanced state
  next state =>
    exact pausedWaitEnableDidPause_accounted false reason (nothing (by rw [state]; exact id))
  next state =>
    exact pausedDidPause_accounted (nothing (by rw [state]; exact id)) (Nat.zero_le 1) (fun _ => rfl)
      (fun some => absurd rfl some)
  next isEnabled state =>
    exact pausedWaitEnableDidPause_accounted isEnabled reason (nothing (by rw [state]; exact id))
  -- Evals are lost only if the state is left by a detach, which `keeps` rules out.
  next running state =>
    rw [state] at balanced oneDetach idle keeps
    refine runningDidPause_accounted balanced oneDetach idle ?_
    intro evals
    by_contra loses
    refine keeps ⟨evals, ?_⟩
    by_contra neither
    rw [not_or] at neither
    exact loses ⟨Nat.eq_zero_of_not_pos neither.1, neither.2⟩
  next paused state =>
    rw [state] at balanced oneDetach idle keeps
    refine pausedDidPause_accounted balanced oneDetach idle ?_
    intro evals
    by_contra some
    exact keeps ⟨evals, Nat.pos_of_ne_zero some⟩

variable {next : Inspector}

theorem Accounted.wakesUp
    (accounted : Accounted inspector) (waiting : inspector.thread = .waiting reason)
    (keeps : ¬ inspector.dropsEvals reason inspector.state) (woke : inspector.wakesUp reason = some next) :
    Accounted next := by
  have nothing := accounted.balanced_nil
  obtain ⟨balanced, oneDetach, evaluates⟩ := accounted
  unfold Inspector.wakesUp at woke
  split at woke
  next isEnabled state =>
    cases woke
    exact pausedWaitEnableDidPause_accounted isEnabled reason (nothing (by rw [state]; exact id))
  next paused state =>
    cases woke
    rw [state] at balanced oneDetach evaluates keeps
    refine pausedTurn_accounted reason balanced oneDetach ?_ ?_
    · by_contra some
      rcases evaluates some with evaluating | completed
      · cases waiting.symm.trans evaluating
      · cases waiting.symm.trans completed
    · intro evals
      by_contra some
      exact keeps ⟨evals, Nat.pos_of_ne_zero some⟩
  next => cases woke

/-! ### Requests -/

/-- What a request starts from: one promise more was handed out and is neither answered nor
held. -/
structure Requested (inspector : Inspector) (promise : ℕ) : Prop where
  oneMore : ∀ other,
    inspector.answers other + (held inspector.state).count other + [promise].count other =
      handedOut inspector.promises other
  oneDetach : pendingDetaches inspector.state ≤ 1
  evaluates : evalPromise inspector.state ≠ none →
    inspector.thread = .evaluating ∨ inspector.thread = .calling .evalComplete

theorem handedOut_succ (promises promise : ℕ) :
    handedOut (promises + 1) promise = handedOut promises promise + [promises].count promise := by
  unfold handedOut
  by_cases same : promise = promises
  · simp [same]
  · by_cases earlier : promise < promises
    · simp [earlier, Nat.lt_succ_of_lt earlier, Ne.symm same]
    · have later : ¬ promise < promises + 1 := by omega
      simp [earlier, later, Ne.symm same]

theorem Accounted.requested (accounted : Accounted inspector) :
    Requested { inspector with promises := inspector.promises + 1 } inspector.promises := by
  refine ⟨?_, accounted.oneDetach, accounted.evaluates⟩
  intro other
  rw [handedOut_succ, ← accounted.balanced other]
  rfl

variable {promise : ℕ}

theorem Requested.answer (requested : Requested inspector promise) (answer : Answer) :
    Accounted (inspector.answer promise answer) := by
  refine ⟨?_, requested.oneDetach, requested.evaluates⟩
  intro other
  have total := requested.oneMore other
  simp only [answers, Inspector.answer, map_append, map_cons, map_nil, count_append] at total ⊢
  omega

structure Pushed (inspector : Inspector) (func : PendingFunc) (next : Inspector) : Prop where
  answered : next.answered = inspector.answered
  promises : next.promises = inspector.promises
  thread : next.thread = inspector.thread
  holds : ∀ promise, (held next.state).count promise =
    (held inspector.state).count promise + (funcPromises [func]).count promise
  pendingDetaches : pendingDetaches next.state = pendingDetaches inspector.state + detaches [func]
  evalPromise : evalPromise next.state = evalPromise inspector.state

variable (funcs : List PendingFunc)

theorem funcPromises_append (func : PendingFunc) :
    funcPromises (funcs ++ [func]) = funcPromises funcs ++ funcPromises [func] := by
  induction funcs with
  | nil => rfl
  | cons first _ ih => cases first <;> simp [funcPromises, ih]

theorem detaches_append (func : PendingFunc) :
    detaches (funcs ++ [func]) = detaches funcs + detaches [func] := by
  induction funcs with
  | nil => simp [detaches]
  | cons first _ ih =>
    cases first with
    | detach promise =>
      simp only [cons_append, detaches] at ih ⊢
      omega
    | request promise => exact ih
    | log => exact ih

theorem pushPendingFunc_pushed {func : PendingFunc}
    (pushed : inspector.pushPendingFunc func = some next) : Pushed inspector func next := by
  unfold pushPendingFunc at pushed
  split at pushed
  next running state =>
    have holds : ∀ promise,
        (RunningState.held { running with pendingFuncs := running.pendingFuncs ++ [func] }).count
          promise = (held inspector.state).count promise + (funcPromises [func]).count promise := by
      intro promise
      simp only [state, held, RunningState.held, funcPromises_append, count_append]
      omega
    have detached : detaches (running.pendingFuncs ++ [func]) =
        Inspector.pendingDetaches inspector.state + detaches [func] := by
      rw [state]
      exact detaches_append _ _
    have evaluates : running.pendingEvalPromise = Inspector.evalPromise inspector.state := by
      rw [state]
      rfl
    dsimp only at pushed
    split at pushed <;> cases pushed <;> exact ⟨rfl, rfl, rfl, holds, detached, evaluates⟩
  next paused state =>
    cases pushed
    refine ⟨rfl, rfl, rfl, ?_, ?_, ?_⟩
    · intro promise
      simp only [state, held, PausedState.held, funcPromises_append, count_append]
      omega
    · rw [state]
      exact detaches_append _ _
    · rw [state]
      rfl
  next => cases pushed

theorem Requested.pushed {func : PendingFunc} (requested : Requested inspector promise)
    (pushed : Pushed inspector func next) (holds : funcPromises [func] = [promise])
    (oneDetach : pendingDetaches inspector.state + detaches [func] ≤ 1) : Accounted next := by
  refine ⟨?_, ?_, ?_⟩
  · intro other
    have total := requested.oneMore other
    rw [pushed.holds, holds, pushed.promises, answers, pushed.answered, ← total, answers]
    omega
  · rw [pushed.pendingDetaches]
    exact oneDetach
  · rw [pushed.evalPromise, pushed.thread]
    exact requested.evaluates

theorem Requested.pushOrFail (requested : Requested inspector promise)
    (exception : InspectorException) : Accounted (inspector.pushOrFail promise exception) := by
  unfold Inspector.pushOrFail
  cases pushed : inspector.pushPendingFunc (.request promise) with
  | none => exact requested.answer _
  | some => exact requested.pushed (pushPendingFunc_pushed pushed) rfl requested.oneDetach

theorem Requested.disableOnExecutor (requested : Requested inspector promise)
    (first : pendingDetaches inspector.state = 0) :
    Accounted (inspector.disableOnExecutor promise) := by
  unfold Inspector.disableOnExecutor
  cases pushed : inspector.pushPendingFunc (.detach promise) with
  | none => exact requested.answer _
  | some =>
    refine requested.pushed (pushPendingFunc_pushed pushed) rfl ?_
    rw [first]
    exact Nat.le_refl 1

theorem pushPendingFunc_isSome (accepts : acceptsFuncs inspector.state)
    (func : PendingFunc) : ∃ next, inspector.pushPendingFunc func = some next := by
  unfold pushPendingFunc
  cases state : inspector.state with
  | running running =>
    dsimp only
    split <;> exact ⟨_, rfl⟩
  | paused paused => exact ⟨_, rfl⟩
  | runningDetached | runningWaitEnable | runningWaitPause | pausedWaitEnable isEnabled =>
    rw [state] at accepts
    exact accepts.elim

section

variable (requested : Requested inspector promise)
include requested

theorem Requested.setPauseOnExceptionsOnExecutor (accepts : acceptsFuncs inspector.state) :
    Accounted (inspector.setPauseOnExceptionsOnExecutor promise) := by
  obtain ⟨_, pushed⟩ := pushPendingFunc_isSome accepts (.request promise)
  rw [Inspector.setPauseOnExceptionsOnExecutor, pushed]
  exact requested.pushed (pushPendingFunc_pushed pushed) rfl requested.oneDetach

theorem Requested.logOnExecutor : Accounted (inspector.logOnExecutor promise) := by
  unfold Inspector.logOnExecutor
  cases isPushed : inspector.pushPendingFunc .log with
  | none => exact requested.answer _
  | some =>
    -- The function of a console message holds no promise.
    have pushed := pushPendingFunc_pushed isPushed
    apply Requested.answer
    refine ⟨?_, ?_, ?_⟩
    · intro other
      rw [getD_some, pushed.promises, ← requested.oneMore other, pushed.holds, answers,
        pushed.answered]
      rfl
    · rw [getD_some, pushed.pendingDetaches]
      exact requested.oneDetach
    · rw [getD_some, pushed.evalPromise, pushed.thread]
      exact requested.evaluates

theorem Requested.enableOnExecutor : Accounted (inspector.enableOnExecutor promise) := by
  have answered := requested.answer .value
  have nothing := answered.balanced_nil
  unfold Inspector.enableOnExecutor
  split
  next state =>
    have balanced := nothing (by rw [Inspector.answer, state]; exact id)
    exact ⟨balanced, Nat.zero_le 1, fun evaluates => absurd rfl evaluates⟩
  next state => exact .nothingHeld (nothing (by rw [Inspector.answer, state]; exact id)) id
  next state => exact .nothingHeld (nothing (by rw [Inspector.answer, state]; exact id)) id
  next => exact requested.answer _

theorem Requested.setPendingCommandOnExecutor (command : ResumeOrStep) :
    Accounted (inspector.setPendingCommandOnExecutor promise command) := by
  unfold Inspector.setPendingCommandOnExecutor
  split
  next paused state =>
    split
    next => exact requested.answer _
    next free =>
      obtain ⟨oneMore, oneDetach, evaluates⟩ := requested
      rw [state] at oneMore oneDetach evaluates
      refine ⟨?_, oneDetach, evaluates⟩
      intro other
      have none : paused.pendingCommand = none := by simpa using free
      have total := oneMore other
      simp only [answers, held, PausedState.held, none, count_append, map_none,
        map_some, toList_some, toList_none, count_nil] at total ⊢
      omega
  next => exact requested.answer _

theorem Requested.pauseOnExecutor : Accounted (inspector.pauseOnExecutor promise) := by
  have triggered : Requested (triggerAsyncPause { inspector with pendingPauseState := .explicit })
      promise := ⟨requested.oneMore, requested.oneDetach, requested.evaluates⟩
  unfold Inspector.pauseOnExecutor
  split
  · split
    · exact triggered.answer _
    · exact triggered.answer _
    · exact requested.answer _
  · exact requested.answer _

theorem Requested.evaluateOnExecutor : Accounted (inspector.evaluateOnExecutor promise) := by
  unfold Inspector.evaluateOnExecutor
  split
  next running state =>
    obtain ⟨oneMore, oneDetach, evaluates⟩ := requested
    rw [state] at oneMore oneDetach evaluates
    refine ⟨?_, oneDetach, evaluates⟩
    intro other
    have total := oneMore other
    simp only [answers, held, RunningState.held, triggerAsyncPause, count_append] at total ⊢
    omega
  next paused state =>
    split
    next => exact requested.answer _
    next =>
      obtain ⟨oneMore, oneDetach, evaluates⟩ := requested
      rw [state] at oneMore oneDetach evaluates
      refine ⟨?_, oneDetach, evaluates⟩
      intro other
      have total := oneMore other
      simp only [answers, held, PausedState.held, count_append] at total ⊢
      omega
  next => exact requested.answer _

end

/-! ### Runs -/

theorem Accounted.initial (pauseOnFirstStatement : Bool) :
    Accounted (initial pauseOnFirstStatement) := by
  apply Accounted.nothingHeld
  · intro promise
    rfl
  · cases pauseOnFirstStatement <;> exact id

theorem Accounted.step {event : InspectorEvent}
    (accounted : Accounted inspector) (careful : Careful inspector event)
    (stepped : step inspector event = some next) : Accounted next := by
  have requested := accounted.requested
  cases event with
  | enable =>
    cases stepped
    exact requested.enableOnExecutor
  | disable =>
    cases stepped
    exact requested.disableOnExecutor careful
  | executeIfEnabled =>
    cases stepped
    exact requested.pushOrFail _
  | setBreakpoint =>
    cases stepped
    exact requested.pushOrFail _
  | removeBreakpoint =>
    cases stepped
    exact requested.pushOrFail _
  | setPauseOnExceptions =>
    cases stepped
    exact requested.setPauseOnExceptionsOnExecutor careful
  | logMessage =>
    cases stepped
    exact requested.logOnExecutor
  | setPendingCommand command =>
    cases stepped
    exact requested.setPendingCommandOnExecutor command
  | pause =>
    cases stepped
    exact requested.pauseOnExecutor
  | evaluate =>
    cases stepped
    exact requested.evaluateOnExecutor
  | vmPauses reason =>
    rw [Inspector.step] at stepped
    split at stepped
    next canPause =>
      cases stepped
      refine ⟨accounted.balanced, accounted.oneDetach, ?_⟩
      -- A VM that executes runs no eval.
      intro some
      rcases accounted.evaluates some with evaluating | completed
      · cases canPause.1.symm.trans evaluating
      · cases canPause.1.symm.trans completed
    next => cases stepped
  | evalCompletes =>
    rw [Inspector.step] at stepped
    split at stepped
    next =>
      cases stepped
      exact ⟨accounted.balanced, accounted.oneDetach, fun _ => .inr rfl⟩
    next => cases stepped
  | didPause =>
    rw [Inspector.step] at stepped
    split at stepped
    next reason calling =>
      cases stepped
      exact accounted.didPause calling (careful reason (by rw [pauseReason, calling]; rfl))
    next => cases stepped
  | wakesUp =>
    rw [Inspector.step] at stepped
    split at stepped
    next reason waiting =>
      exact accounted.wakesUp waiting (careful reason (by rw [pauseReason, waiting]; rfl)) stepped
    next => cases stepped

/-- **Every request is answered exactly once**, in every run in which `setPauseOnExceptions` comes
only while the inspector is running or paused, `disable` only while no other one is pending, and
in which no breakpoint, explicit pause or detach is handled while evals are pending. -/
theorem run_answered {pauseOnFirstStatement : Bool} {events : List InspectorEvent} {final : Inspector}
    (along : Along step Careful (initial pauseOnFirstStatement) events)
    (ran : run step (initial pauseOnFirstStatement) events = some final) : AnsweredOnce final :=
  Accounted.answeredOnce <|
    run_induction (fun _ _ _ accounted careful stepped => accounted.step careful stepped)
      (Accounted.initial pauseOnFirstStatement) along ran

theorem run_answered_detach : ∃ final, run step (initial false)
        [.enable, .setBreakpoint, .evaluate, .vmPauses .asyncTrigger, .didPause, .evaluate,
          .evalCompletes, .didPause, .evalCompletes, .didPause, .vmPauses .breakpoint, .didPause,
          .removeBreakpoint, .setPendingCommand .continueExecution, .evaluate, .disable, .wakesUp,
          .pause] = some final ∧
      final.promises = 9 ∧ final.state = .runningDetached ∧ AnsweredOnce final := by
  have ran : run step (initial false)
      [.enable, .setBreakpoint, .evaluate, .vmPauses .asyncTrigger, .didPause, .evaluate,
        .evalCompletes, .didPause, .evalCompletes, .didPause, .vmPauses .breakpoint, .didPause,
        .removeBreakpoint, .setPendingCommand .continueExecution, .evaluate, .disable, .wakesUp,
        .pause] =
      some {
        state := .runningDetached, pendingPauseState := .implicit, asyncPauseFlag := true
        promises := 9
        answered := [(0, .value), (1, .value), (2, .value), (3, .value),
          (6, .exception .multipleCommandsPending), (4, .value), (5, .value), (7, .value),
          (8, .exception .notEnabled)] } := by
    decide
  exact ⟨_, ran, rfl, rfl, run_answered (by decide) ran⟩

theorem pendingEval_not_answered : (∃ final, run step (initial false)
        [.enable, .evaluate, .vmPauses .breakpoint, .didPause] = some final ∧
      ¬ AnsweredOnce final) ∧
    (∃ final, run step (initial false)
        [.enable, .evaluate, .disable, .vmPauses .asyncTrigger, .didPause] = some final ∧
      ¬ AnsweredOnce final) ∧
    (∃ final, run step (initial false)
        [.enable, .vmPauses .breakpoint, .didPause, .evaluate, .disable, .wakesUp] = some final ∧
      ¬ AnsweredOnce final) ∧
    (∃ final, run step (initial false)
        [.enable, .disable, .disable, .vmPauses .asyncTrigger, .didPause] = some final ∧
      ¬ AnsweredOnce final) ∧
    (∃ final, run step (initial false) [.setPauseOnExceptions] = some final ∧
      ¬ AnsweredOnce final) := by
  refine ⟨⟨_, rfl, ?_⟩, ⟨_, rfl, ?_⟩, ⟨_, rfl, ?_⟩, ⟨_, rfl, ?_⟩, ⟨_, rfl, ?_⟩⟩
  · exact fun answered => absurd (answered 1 (by decide)) (by decide)
  · exact fun answered => absurd (answered 1 (by decide)) (by decide)
  · exact fun answered => absurd (answered 1 (by decide)) (by decide)
  · exact fun answered => absurd (answered 1 (by decide)) (by decide)
  · exact fun answered => absurd (answered 0 (by decide)) (by decide)

end Inspector

end ReactNative

