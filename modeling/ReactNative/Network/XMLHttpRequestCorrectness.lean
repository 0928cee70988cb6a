import ReactNative.Network.XMLHttpRequest

/-! What is seen of the object is followed by a small automaton: what a `send` is followed by, until
the object is opened again. The object's state says where the automaton is, except while the events
of the end are dispatched. -/
namespace ReactNative

/-- What has been seen since the object was last opened. -/
inductive RequestPhase where
  | idle
  | opened
  | running
  /-- Load, error, timeout or abort has been dispatched. -/
  | closing
  | ended
  deriving DecidableEq

structure RequestProgress where
  phase : RequestPhase := .idle
  sends : ℕ := 0

/-- What may be seen next, and nothing else may. What comes from a native request comes from the
one of the last `send`. -/
def RequestProgress.next (progress : RequestProgress) : Exposure → Option RequestProgress
  | .opened =>
    if progress.phase = .running ∨ progress.phase = .closing then none
    else some { progress with phase := .opened }
  | .sent => if progress.phase = .opened then some ⟨.running, progress.sends + 1⟩ else none
  | .read requests =>
    if ∀ request ∈ requests, request + 1 = progress.sends then some progress else none
  | .event type cause =>
    if ∀ request ∈ cause, request + 1 = progress.sends then
      match type with
      -- `open` dispatches one before the `send`.
      | .readystatechange =>
        if progress.phase = .opened ∨ progress.phase = .running then some progress else none
      | .progress | .uploadProgress =>
        if progress.phase = .running ∧ cause ≠ none then some progress else none
      | .load | .error | .timeout =>
        if progress.phase = .running ∧ cause ≠ none then some { progress with phase := .closing }
        else none
      | .abort =>
        if progress.phase = .running then some { progress with phase := .closing } else none
      | .loadend =>
        if progress.phase = .closing then some { progress with phase := .ended } else none
    else none

/-- Each `send` is followed by events of its own, of which one says how it has ended, then one
`loadend`, and then nothing until the object is opened again. -/
def EndsOnce (log : List Exposure) : Prop := (log.foldlM RequestProgress.next {}).isSome

instance (log : List Exposure) : Decidable (EndsOnce log) := inferInstanceAs (Decidable (_ = true))

namespace XMLHttpRequest

variable {Headers Data : Type} {requestID : ℕ → ℕ} (state : XMLHttpRequest Headers Data)

/-- The object is in use for this request. -/
def Current (request : ℕ) : Prop := request + 1 = state.sends ∧ state.sent = true

/-- An id arrives while the `send` that asked for it is the last one and has not been aborted. -/
def Prompt : RequestAction Headers Data → Prop
  | .didCreateRequest request => state.Current request
  | _ => True

instance (state : XMLHttpRequest Headers Data) :
    ∀ action : RequestAction Headers Data, Decidable (state.Prompt action)
  | .didCreateRequest request =>
    inferInstanceAs (Decidable (request + 1 = state.sends ∧ state.sent = true))
  | .openRequest _ _ _ _ | .setResponseType _ | .send | .abort _ _ _ | .read
  | .receive _ _ _ _ _ => .isTrue trivial

/-- Everything that can be read comes from the native request of the last `send`. -/
structure Own : Prop where
  status : ∀ status ∈ state.status, state.Current status.request
  responseHeaders : ∀ headers ∈ state.responseHeaders, state.Current headers.request
  response : ∀ part ∈ state.response, state.Current part.request
  cachedResponse : ∀ response ∈ state.cachedResponse, ∀ part ∈ response, state.Current part.request

/-- What holds also while the events of the end are dispatched. -/
structure Consistent (requestID : ℕ → ℕ) (phase : RequestPhase)
    (state : XMLHttpRequest Headers Data) : Prop where
  log : state.log.foldlM RequestProgress.next {} = some ⟨phase, state.sends⟩
  own : state.Own
  unsent : state.readyState = .unsent → state.sent = false
  opened : state.readyState = .opened → state.sent = false → phase = .opened
  listening : ∀ id ∈ state.requestId, ¬ state.NothingToAbort ∧
    ∃ request, state.Current request ∧ requestID request = id
  waiting : ∀ request, state.Current request → state.native request ≠ .completed →
    ¬ state.NothingToAbort

structure Stable (requestID : ℕ → ℕ) (phase : RequestPhase)
    (state : XMLHttpRequest Headers Data) : Prop where
  consistent : Consistent requestID phase state
  running : phase = .running ↔ ¬ state.NothingToAbort
  closed : phase ≠ .closing

def SameRequests (state after : XMLHttpRequest Headers Data) : Prop :=
  after.sends = state.sends ∧ after.native = state.native ∧
    (state.aborted = true → after.aborted = true)

theorem SameRequests.trans {first second third : XMLHttpRequest Headers Data}
    (one : SameRequests first second) (two : SameRequests second third) :
    SameRequests first third :=
  ⟨two.1.trans one.1, two.2.1.trans one.2.1, fun aborted => two.2.2 (one.2.2 aborted)⟩

variable {phase : RequestPhase} {state : XMLHttpRequest Headers Data}

theorem log_expose {exposure : Exposure} {later : RequestProgress}
    (log : state.log.foldlM RequestProgress.next {} = some ⟨phase, state.sends⟩)
    (allowed : RequestProgress.next ⟨phase, state.sends⟩ exposure = some later) :
    (state.expose exposure).log.foldlM RequestProgress.next {} = some later := by
  rw [expose, List.foldlM_append, log]
  simp [allowed]

theorem Consistent.expose {exposure : Exposure} {later : RequestPhase}
    (consistent : Consistent requestID phase state)
    (allowed : RequestProgress.next ⟨phase, state.sends⟩ exposure = some ⟨later, state.sends⟩)
    (opened : phase = .opened → later = .opened) :
    Consistent requestID later (state.expose exposure) where
  log := log_expose consistent.log allowed
  own := ⟨consistent.own.status, consistent.own.responseHeaders, consistent.own.response,
    consistent.own.cachedResponse⟩
  unsent := consistent.unsent
  opened := fun isOpened notSent => opened (consistent.opened isOpened notSent)
  listening := consistent.listening
  waiting := consistent.waiting

/-! ### Reading -/

theorem own_getResponse (own : state.Own) :
    (∀ part ∈ state.getResponse.1, state.Current part.request) ∧ state.getResponse.2.Own := by
  have nothing : ∀ part ∈ ([] : List (Received Data)), state.Current part.request := by
    intro part member
    cases member
  rw [getResponse]
  split
  next =>
    refine ⟨?_, own⟩
    split
    next => exact nothing
    next => exact own.response
  next =>
    split
    next => exact ⟨nothing, own⟩
    next =>
      have parts : ∀ part ∈ state.cachedResponse.getD
          (if state.responseType = .document then [] else state.response),
          state.Current part.request := by
        cases cached : state.cachedResponse with
        | some response => exact own.cachedResponse response cached
        | none =>
          split
          next => exact nothing
          next => exact own.response
      refine ⟨parts, own.status, own.responseHeaders, own.response, ?_⟩
      rintro response same
      cases same
      exact parts

theorem own_read (own : state.Own) : ∀ request ∈ state.status.toList.map Received.request ++
    state.responseHeaders.toList.map Received.request ++
    state.getResponseText.map Received.request ++ state.getResponse.1.map Received.request,
      request + 1 = state.sends := by
  have text : ∀ part ∈ state.getResponseText, state.Current part.request := by
    rw [getResponseText]
    split
    next => exact own.response
    next =>
      intro part member
      cases member
  intro request member
  simp only [List.mem_append, List.mem_map, Option.mem_toList] at member
  obtain ((⟨_, member, rfl⟩ | ⟨_, member, rfl⟩) | ⟨_, member, rfl⟩) | ⟨_, member, rfl⟩ := member
  · exact (own.status _ member).1
  · exact (own.responseHeaders _ member).1
  · exact (text _ member).1
  · exact ((own_getResponse own).1 _ member).1

theorem getResponse_frame (state : XMLHttpRequest Headers Data) :
    ∃ cachedResponse, state.getResponse.2 = { state with cachedResponse := cachedResponse } := by
  rw [getResponse]
  split
  next => exact ⟨_, rfl⟩
  next =>
    split
    next => exact ⟨_, rfl⟩
    next => exact ⟨_, rfl⟩

theorem Consistent.read (consistent : Consistent requestID phase state) :
    Consistent requestID phase state.read ∧ SameRequests state state.read ∧
      (state.read.NothingToAbort ↔ state.NothingToAbort) := by
  obtain ⟨_, cached⟩ := getResponse_frame state
  have own := (own_getResponse consistent.own).2
  have decoded : Consistent requestID phase state.getResponse.2 := by
    rw [cached] at own ⊢
    exact ⟨consistent.log, own, consistent.unsent, consistent.opened, consistent.listening,
      consistent.waiting⟩
  have sends : state.getResponse.2.sends = state.sends := by rw [cached]
  have seen := own_read consistent.own
  refine ⟨decoded.expose ?_ id, ?_⟩
  · rw [sends, RequestProgress.next, if_pos seen]
  · rw [XMLHttpRequest.read, cached]
    exact ⟨⟨rfl, rfl, id⟩, Iff.rfl⟩

/-! ### Aborting when there is nothing to abort -/

theorem Consistent.reset (consistent : Consistent requestID phase state) :
    Consistent requestID phase state.reset ∧ state.reset.NothingToAbort := by
  refine ⟨⟨consistent.log, ?_, fun _ => rfl, ?_, ?_, ?_⟩, Or.inl rfl⟩
  · refine ⟨?_, ?_, ?_, ?_⟩ <;> simp [XMLHttpRequest.reset]
  · nofun
  · nofun
  · intro request current
    cases current.2

def Calm (requestID : ℕ → ℕ)
    (handler : XMLHttpRequest Headers Data → XMLHttpRequest Headers Data) : Prop :=
  ∀ phase state, Consistent requestID phase state → state.NothingToAbort →
    Consistent requestID phase (handler state) ∧ (handler state).NothingToAbort ∧
      SameRequests state (handler state)

theorem Consistent.aborting (consistent : Consistent requestID phase state) :
    Consistent requestID phase { state with aborted := true } :=
  ⟨consistent.log, ⟨consistent.own.status, consistent.own.responseHeaders,
    consistent.own.response, consistent.own.cachedResponse⟩, consistent.unsent,
    consistent.opened, consistent.listening, consistent.waiting⟩

theorem calm_run (reaction : Reaction) : Calm requestID
    (reaction.run : XMLHttpRequest Headers Data → XMLHttpRequest Headers Data) := by
  induction reaction with
  | done => exact fun phase state consistent nothing => ⟨consistent, nothing, rfl, rfl, id⟩
  | read rest ih =>
    intro phase state consistent nothing
    obtain ⟨consistentRead, same, iff⟩ := consistent.read
    obtain ⟨consistentRest, nothingRest, sameRest⟩ :=
      ih phase state.read consistentRead (iff.mpr nothing)
    exact ⟨consistentRest, nothingRest, same.trans sameRest⟩
  | abort onReadyStateChange onEnd onLoadend rest _ _ _ ih =>
    intro phase state consistent nothing
    have isReset : state.abort onReadyStateChange.run onEnd.run onLoadend.run =
        ({ state with aborted := true } : XMLHttpRequest Headers Data).reset := if_pos nothing
    obtain ⟨consistentReset, nothingReset⟩ := consistent.aborting.reset
    obtain ⟨consistentRest, nothingRest, sends, native, aborted⟩ :=
      ih phase _ consistentReset nothingReset
    rw [Reaction.run, isReset]
    exact ⟨consistentRest, nothingRest, sends, native, fun _ => aborted rfl⟩

/-! ### The end -/

variable {type : RequestEvent} {cause : Option ℕ}

theorem Calm.dispatchEvent {later : RequestPhase}
    {handler : XMLHttpRequest Headers Data → XMLHttpRequest Headers Data}
    (calm : Calm requestID handler) (consistent : Consistent requestID phase state)
    (nothing : state.NothingToAbort) (differs : phase ≠ .opened)
    (allowed : RequestProgress.next ⟨phase, state.sends⟩ (.event type cause) =
      some ⟨later, state.sends⟩) :
    Consistent requestID later (dispatchEvent type cause handler state) ∧
      (dispatchEvent type cause handler state).NothingToAbort ∧
      SameRequests state (dispatchEvent type cause handler state) :=
  calm later (state.expose (.event type cause))
    (consistent.expose allowed fun opened => absurd opened differs) nothing

theorem next_onEnd {sends : ℕ} (isOwn : ∀ request ∈ cause, request + 1 = sends)
    (isCaused : cause = none → state.aborted = true) :
    RequestProgress.next ⟨.running, sends⟩ (.event
        (if state.aborted then .abort
          else if state.hasError then if state.timedOut then .timeout else .error else .load)
        cause) = some ⟨.closing, sends⟩ := by
  by_cases aborted : state.aborted = true
  · rw [if_pos aborted, RequestProgress.next, if_pos isOwn]
    rfl
  · have isNative : cause ≠ none := fun none => aborted (isCaused none)
    have isOwnNative : ∀ request, cause = some request → request + 1 = sends := isOwn
    rw [if_neg aborted]
    split
    next =>
      split
      next => simpa [RequestProgress.next, isNative] using isOwnNative
      next => simpa [RequestProgress.next, isNative] using isOwnNative
    next => simpa [RequestProgress.next, isNative] using isOwnNative

variable
  {onReadyStateChange onEnd onLoadend : XMLHttpRequest Headers Data → XMLHttpRequest Headers Data}

theorem setReadyState_done (calmFirst : Calm requestID onReadyStateChange)
    (calmSecond : Calm requestID onEnd) (calmThird : Calm requestID onLoadend)
    (running : Consistent requestID .running { state with readyState := .done })
    (isOwn : ∀ request ∈ cause, request + 1 = state.sends)
    (isCaused : cause = none → state.aborted = true) :
    Consistent requestID .ended
        (setReadyState .done cause onReadyStateChange onEnd onLoadend state) ∧
      (setReadyState .done cause onReadyStateChange onEnd onLoadend state).NothingToAbort ∧
      SameRequests state (setReadyState .done cause onReadyStateChange onEnd onLoadend state) := by
  have isDone : ({ state with readyState := .done } : XMLHttpRequest Headers Data).NothingToAbort :=
    Or.inr (Or.inr rfl)
  -- First `readystatechange`, then the event that says how it ended, then `loadend`.
  have allowedFirst : RequestProgress.next ⟨.running, state.sends⟩
      (.event .readystatechange cause) = some ⟨.running, state.sends⟩ := by
    rw [RequestProgress.next, if_pos isOwn]
    rfl
  obtain ⟨changed, nothingChanged, sameChanged⟩ :=
    calmFirst.dispatchEvent running isDone (by simp) allowedFirst
  rw [setReadyState, if_pos rfl]
  dsimp only
  generalize dispatchEvent .readystatechange cause onReadyStateChange _ = after at *
  -- No handler sends another request in between, so that each event is still of this one.
  have isOwnAfter : ∀ request ∈ cause, request + 1 = after.sends := by
    rw [sameChanged.1]
    exact isOwn
  have isCausedAfter : cause = none → after.aborted = true :=
    fun isNone => sameChanged.2.2 (isCaused isNone)
  obtain ⟨closing, nothingClosing, sameClosing⟩ :=
    calmSecond.dispatchEvent changed nothingChanged (by simp) (next_onEnd isOwnAfter isCausedAfter)
  generalize dispatchEvent _ cause onEnd after = closed at *
  have allowedThird : RequestProgress.next ⟨.closing, closed.sends⟩ (.event .loadend cause) =
      some ⟨.ended, closed.sends⟩ := by
    rw [RequestProgress.next, sameClosing.1, if_pos isOwnAfter]
    rfl
  obtain ⟨ended, nothingEnded, sameEnded⟩ :=
    calmThird.dispatchEvent closing nothingClosing (by simp) allowedThird
  exact ⟨ended, nothingEnded, sameChanged.trans (sameClosing.trans sameEnded)⟩

theorem Stable.of_nothing (consistent : Consistent requestID phase state)
    (nothing : state.NothingToAbort) (running : phase ≠ .running) (closed : phase ≠ .closing) :
    Stable requestID phase state :=
  ⟨consistent, iff_of_false running (not_not_intro nothing), closed⟩

theorem Stable.abort (calmFirst : Calm requestID onReadyStateChange)
    (calmSecond : Calm requestID onEnd) (calmThird : Calm requestID onLoadend)
    (stable : Stable requestID phase state) :
    (∃ later, Stable requestID later (state.abort onReadyStateChange onEnd onLoadend)) ∧
      SameRequests state (state.abort onReadyStateChange onEnd onLoadend) := by
  have consistent := stable.consistent
  -- The flag alone changes nothing that is read, but what is received is forgotten.
  obtain ⟨consistentReset, nothingReset⟩ := consistent.aborting.reset
  rw [XMLHttpRequest.abort]
  split
  -- Nothing was under way: no event.
  next nothing =>
    have notRunning : phase ≠ .running := fun running => stable.running.mp running nothing
    exact ⟨⟨phase, .of_nothing consistentReset nothingReset notRunning stable.closed⟩, rfl, rfl,
      fun _ => rfl⟩
  -- A running request ends, with events that no native request has caused.
  next something =>
    have isRunning : phase = .running := stable.running.mpr something
    subst isRunning
    have done : Consistent requestID .running { ({ state with aborted := true } :
        XMLHttpRequest Headers Data).reset with readyState := .done } :=
      ⟨consistentReset.log, ⟨consistentReset.own.status, consistentReset.own.responseHeaders,
        consistentReset.own.response, consistentReset.own.cachedResponse⟩,
        nofun, nofun,
        nofun,
        (fun request current => by cases current.2)⟩
    have nobody : ∀ request ∈ (none : Option ℕ), request + 1 = state.sends := by simp
    obtain ⟨ended, -, sends, native, aborted⟩ := setReadyState_done calmFirst calmSecond calmThird
      done nobody (fun _ => rfl)
    obtain ⟨consistentEnd, nothingEnd⟩ := ended.reset
    exact ⟨⟨.ended, .of_nothing consistentEnd nothingEnd (by simp) (by simp)⟩, sends, native,
      fun _ => aborted rfl⟩

theorem Stable.run (reaction : Reaction) (stable : Stable requestID phase state) :
    (∃ later, Stable requestID later (reaction.run state)) ∧
      SameRequests state (reaction.run state) := by
  induction reaction generalizing phase state with
  | done => exact ⟨⟨phase, stable⟩, rfl, rfl, id⟩
  | read rest ih =>
    obtain ⟨consistentRead, same, iff⟩ := stable.consistent.read
    obtain ⟨isStable, sameRest⟩ := ih
      ⟨consistentRead, stable.running.trans (not_congr iff).symm, stable.closed⟩
    exact ⟨isStable, same.trans sameRest⟩
  | abort onReadyStateChange onEnd onLoadend rest _ _ _ ih =>
    obtain ⟨⟨_, aborted⟩, same⟩ := stable.abort (calm_run onReadyStateChange) (calm_run onEnd)
      (calm_run onLoadend)
    obtain ⟨isStable, sameRest⟩ := ih aborted
    exact ⟨isStable, same.trans sameRest⟩

/-! ### Native events -/

variable {request : ℕ}

section

variable (stable : Stable requestID phase state)
include stable

theorem Stable.current (injective : Function.Injective requestID)
    (isId : state.requestId = some (requestID request)) :
    state.Current request ∧ phase = .running := by
  obtain ⟨something, _, isCurrent, same⟩ := stable.consistent.listening _ isId
  rw [injective same] at isCurrent
  exact ⟨isCurrent, stable.running.mpr something⟩

theorem Stable.withData {status : Option (Received ℕ)}
    {responseHeaders : Option (Received Headers)} {response : List (Received Data)}
    {cachedResponse : Option (List (Received Data))} {responseURL} (own : ({ state with
      status := status
      responseHeaders := responseHeaders
      response := response
      cachedResponse := cachedResponse
      responseURL := responseURL } : XMLHttpRequest Headers Data).Own) :
    Stable requestID phase { state with
      status := status
      responseHeaders := responseHeaders
      response := response
      cachedResponse := cachedResponse
      responseURL := responseURL } :=
  ⟨⟨stable.consistent.log, own, stable.consistent.unsent, stable.consistent.opened,
    stable.consistent.listening, stable.consistent.waiting⟩, stable.running, stable.closed⟩

theorem Stable.withNative {native : NativeRequest} (isCreated : state.native request = .created) :
    Stable requestID phase
      { state with native := Function.update state.native request native } := by
  refine ⟨⟨stable.consistent.log, ⟨stable.consistent.own.status,
    stable.consistent.own.responseHeaders, stable.consistent.own.response,
    stable.consistent.own.cachedResponse⟩, stable.consistent.unsent, stable.consistent.opened,
    stable.consistent.listening, fun other isCurrent incomplete => ?_⟩, stable.running,
    stable.closed⟩
  refine stable.consistent.waiting other isCurrent ?_
  by_cases same : other = request
  · rw [same, isCreated]
    simp
  · simpa [Function.update_of_ne same] using incomplete

theorem Stable.dispatchEvent (reaction : Reaction)
    (allowed : RequestProgress.next ⟨phase, state.sends⟩ (.event type cause) =
      some ⟨phase, state.sends⟩) :
    ∃ later, Stable requestID later (dispatchEvent type cause reaction.run state) := by
  have exposed : Stable requestID phase (state.expose (.event type cause)) :=
    ⟨stable.consistent.expose allowed id, stable.running, stable.closed⟩
  exact (exposed.run reaction).1

end

theorem next_progress {sends : ℕ} (isCurrent : request + 1 = sends)
    (isProgress : type = .progress ∨ type = .uploadProgress) :
    RequestProgress.next ⟨.running, sends⟩ (.event type (some request)) =
      some ⟨.running, sends⟩ := by
  obtain rfl | rfl := isProgress
  · simp [RequestProgress.next, isCurrent]
  · simp [RequestProgress.next, isCurrent]

theorem Stable.setReadyState {newState : ReadyState} (reaction : Reaction)
    (stable : Stable requestID .running state) (isCurrent : state.Current request)
    (receiving : newState = .headersReceived ∨ newState = .loading) :
    ∃ later, Stable requestID later
      (setReadyState newState (some request) reaction.run id id state) := by
  have something : ¬ ({ state with readyState := newState } :
      XMLHttpRequest Headers Data).NothingToAbort := by
    obtain rfl | rfl := receiving
    · simp [NothingToAbort]
    · simp [NothingToAbort]
  have changed : Stable requestID .running { state with readyState := newState } := by
    refine ⟨⟨stable.consistent.log, ⟨stable.consistent.own.status,
      stable.consistent.own.responseHeaders, stable.consistent.own.response,
      stable.consistent.own.cachedResponse⟩, fun unsent => ?_, fun opened => ?_,
      fun id isId => ⟨something, (stable.consistent.listening id isId).2⟩, fun _ _ _ => something⟩,
      iff_of_true rfl something, by simp⟩
    · exact absurd (Or.inl unsent) something
    · obtain rfl | rfl := receiving
      · cases opened
      · cases opened
  have allowed : RequestProgress.next ⟨.running, state.sends⟩
      (.event .readystatechange (some request)) = some ⟨.running, state.sends⟩ := by
    simp [RequestProgress.next, isCurrent.1]
  have notDone : newState ≠ .done := by
    obtain rfl | rfl := receiving
    · simp
    · simp
  rw [XMLHttpRequest.setReadyState, if_neg notDone]
  exact changed.dispatchEvent reaction allowed

section

variable (injective : Function.Injective requestID) (stable : Stable requestID phase state)
include injective stable

theorem Stable.didReceiveDataProgress (reaction : Reaction) :
    ∃ later, Stable requestID later
      (state.didReceiveDataProgress requestID request reaction.run) := by
  rw [XMLHttpRequest.didReceiveDataProgress]
  split
  next isId =>
    obtain ⟨isCurrent, rfl⟩ := stable.current injective isId
    exact stable.dispatchEvent reaction (next_progress isCurrent.1 (Or.inl rfl))
  next => exact ⟨phase, stable⟩

theorem Stable.didCompleteResponse {error : Option Data} {timeOutError : Bool}
    (first second third : Reaction) (completed : state.native request = .completed) :
    ∃ later, Stable requestID later (state.didCompleteResponse requestID request error timeOutError
      first.run second.run third.run) := by
  unfold XMLHttpRequest.didCompleteResponse
  split
  next isId =>
    obtain ⟨isCurrent, rfl⟩ := stable.current injective isId
    have consistent := stable.consistent
    -- The text of an error is the body, and comes from the request.
    have ended : ∀ response hasError timedOut, (∀ part ∈ response, state.Current part.request) →
        ∃ later, Stable requestID later (XMLHttpRequest.setReadyState .done (some request)
          first.run second.run third.run { state with
            response := response
            hasError := hasError
            timedOut := timedOut
            subscribed := false
            requestId := none }) := by
      intro response hasError timedOut own
      have isOwn : ∀ other ∈ some request, other + 1 = state.sends := by
        rintro _ ⟨⟩
        exact isCurrent.1
      let closing : XMLHttpRequest Headers Data := { state with
        response := response
        hasError := hasError
        timedOut := timedOut
        subscribed := false
        requestId := none }
      have running : Consistent requestID .running { closing with readyState := .done } := by
        refine ⟨consistent.log, ⟨consistent.own.status, consistent.own.responseHeaders, own,
          consistent.own.cachedResponse⟩, nofun,
          nofun, nofun,
          fun other isOther incomplete => ?_⟩
        have same : other = request := Nat.succ.inj (isOther.1.trans isCurrent.1.symm)
        exact absurd (same ▸ completed) incomplete
      obtain ⟨isConsistent, nothing, -⟩ := setReadyState_done (calm_run first) (calm_run second)
        (calm_run third) running isOwn nofun
      exact ⟨.ended, .of_nothing isConsistent nothing (by simp) (by simp)⟩
    cases error with
    | none => exact ended _ _ _ consistent.own.response
    | some error =>
      cases state.responseType.isText with
      | false => exact ended state.response _ _ consistent.own.response
      | true =>
        refine ended [⟨request, error⟩] _ _ fun part member => ?_
        rw [List.mem_singleton.mp member]
        exact isCurrent
  next => exact ⟨phase, stable⟩

theorem Stable.receive {event : NativeEvent Headers Data} (first second third : Reaction)
    (isNative : state.native request = event.after) :
    ∃ later, Stable requestID later
      (state.receive requestID request event first.run second.run third.run) := by
  have own := stable.consistent.own
  unfold XMLHttpRequest.receive
  -- Each event of the native side is let through only if it is of the current request.
  split
  next =>
    cases event with
    | didSendNetworkData =>
      dsimp only
      rw [didUploadProgress]
      split
      next isId =>
        obtain ⟨isCurrent, rfl⟩ := stable.current injective isId
        exact stable.dispatchEvent first (next_progress isCurrent.1 (Or.inr rfl))
      next => exact ⟨phase, stable⟩
    | didReceiveNetworkResponse status headers =>
      dsimp only
      rw [didReceiveResponse]
      split
      next isId =>
        obtain ⟨isCurrent, rfl⟩ := stable.current injective isId
        -- The status and the headers are of the current request, as its response will be.
        have received : Stable requestID .running { state with
            status := some ⟨request, status⟩
            responseHeaders := headers.map (Received.mk request) } := by
          refine stable.withData ⟨?_, ?_, own.response, own.cachedResponse⟩
          · rintro _ ⟨⟩
            exact isCurrent
          · intro other isOther
            obtain ⟨-, -, rfl⟩ := Option.map_eq_some_iff.mp isOther
            exact isCurrent
        obtain ⟨later, changed⟩ := received.setReadyState first isCurrent (Or.inl rfl)
        have own := changed.consistent.own
        exact ⟨later, changed.withData
          ⟨own.status, own.responseHeaders, own.response, own.cachedResponse⟩⟩
      next => exact ⟨phase, stable⟩
    | didReceiveNetworkData response =>
      dsimp only
      rw [didReceiveData]
      split
      next isId =>
        obtain ⟨isCurrent, rfl⟩ := stable.current injective isId
        have received : Stable requestID .running { state with
            response := [⟨request, response⟩]
            -- What was cached is dropped with the text it was made from.
            cachedResponse := none } := by
          refine stable.withData ⟨own.status, own.responseHeaders, ?_, by simp⟩
          intro part member
          rw [List.mem_singleton.mp member]
          exact isCurrent
        exact received.setReadyState first isCurrent (Or.inr rfl)
      next => exact ⟨phase, stable⟩
    | didReceiveNetworkIncrementalData responseText =>
      dsimp only
      rw [didReceiveIncrementalData]
      split
      next isId =>
        obtain ⟨isCurrent, rfl⟩ := stable.current injective isId
        have received : Stable requestID .running { state with
            response := state.response ++ [⟨request, responseText⟩] } := by
          refine stable.withData ⟨own.status, own.responseHeaders, ?_, own.cachedResponse⟩
          intro part member
          obtain before | isNew := List.mem_append.mp member
          · exact own.response part before
          · rw [List.mem_singleton.mp isNew]
            exact isCurrent
        obtain ⟨later, changed⟩ := received.setReadyState first isCurrent (Or.inr rfl)
        exact changed.didReceiveDataProgress injective second
      next => exact ⟨phase, stable⟩
    | didReceiveNetworkDataProgress => exact stable.didReceiveDataProgress injective first
    | didCompleteNetworkResponse =>
      exact stable.didCompleteResponse injective first second third isNative
  next => exact ⟨phase, stable⟩

end

/-! ### Calls -/

theorem requestId_of_nothing (consistent : Consistent requestID phase state)
    (nothing : state.NothingToAbort) (id : ℕ) : id ∉ state.requestId :=
  fun isId => (consistent.listening id isId).1 nothing

section

variable (stable : Stable requestID phase state)
include stable

theorem Stable.openRequest {method url : List Char} {async : Option Bool} (reaction : Reaction) :
    ∃ later, Stable requestID later (state.openRequest method url async reaction.run) := by
  rw [XMLHttpRequest.openRequest]
  split
  next => exact ⟨phase, stable⟩
  next allowed =>
    -- Opening is refused unless nothing was opened.
    have unsent : state.readyState = .unsent := by
      by_contra opened
      exact allowed (Or.inl opened)
    have consistent := stable.consistent
    have nothing : state.NothingToAbort := Or.inl unsent
    have notSent := consistent.unsent unsent
    -- No earlier request is running, so that this one may begin.
    have isEnded : ¬ (phase = .running ∨ phase = .closing) := by
      rintro (running | closing)
      · exact stable.running.mp running nothing
      · exact stable.closed closing
    have log : (state.expose .opened).log.foldlM RequestProgress.next {} =
        some ⟨.opened, state.sends⟩ := by
      refine log_expose consistent.log ?_
      rw [RequestProgress.next, if_neg isEnded]
    let opening : XMLHttpRequest Headers Data := { state.expose .opened with
      method := some (method.map Char.toUpper)
      url := some url
      aborted := false
      readyState := .opened }
    have isNothing : opening.NothingToAbort := Or.inr (Or.inl ⟨rfl, notSent⟩)
    have opened : Stable requestID .opened opening := by
      refine .of_nothing ⟨log, ⟨consistent.own.status, consistent.own.responseHeaders,
        consistent.own.response, consistent.own.cachedResponse⟩,
        nofun, fun _ _ => rfl, fun id isId => ?_,
        fun request isCurrent => ?_⟩ isNothing (by simp) (by simp)
      · exact absurd isId (requestId_of_nothing consistent nothing id)
      · exact absurd (notSent.symm.trans isCurrent.2) (by simp)
    have changed : RequestProgress.next ⟨.opened, opening.sends⟩ (.event .readystatechange none) =
        some ⟨.opened, opening.sends⟩ := by
      simp [RequestProgress.next]
    exact opened.dispatchEvent reaction changed

theorem Stable.setResponseType {type : ResponseType} :
    Stable requestID phase (state.setResponseType type) := by
  have consistent := stable.consistent
  rw [XMLHttpRequest.setResponseType]
  split
  next => exact stable
  next =>
    exact ⟨⟨consistent.log, ⟨consistent.own.status, consistent.own.responseHeaders,
      consistent.own.response, consistent.own.cachedResponse⟩, consistent.unsent,
      consistent.opened, consistent.listening, consistent.waiting⟩, stable.running, stable.closed⟩

theorem Stable.send : ∃ later, Stable requestID later state.send := by
  rw [XMLHttpRequest.send]
  split
  next => exact ⟨phase, stable⟩
  next allowed =>
    have consistent := stable.consistent
    have opened : state.readyState = .opened := by
      by_contra differs
      exact allowed (Or.inl differs)
    have notSent : state.sent = false := by
      cases sent : state.sent with
      | false => rfl
      | true => exact absurd (Or.inr sent) allowed
    have isOpened : phase = .opened := consistent.opened opened notSent
    have nobody : ∀ request, ¬ state.Current request := by
      intro request isCurrent
      exact absurd (notSent.symm.trans isCurrent.2) (by simp)
    have log : (state.expose .sent).log.foldlM RequestProgress.next {} =
        some ⟨.running, state.sends + 1⟩ := by
      refine log_expose consistent.log ?_
      rw [RequestProgress.next, if_pos isOpened]
    have something : ¬ ({ state with sent := true } : XMLHttpRequest Headers Data).NothingToAbort := by
      simp [NothingToAbort, opened]
    refine ⟨.running, ⟨log, ⟨?_, ?_, ?_, ?_⟩, fun unsent => ?_, fun _ impossible => ?_,
      fun id isId => ?_, fun _ _ _ => something⟩, iff_of_true rfl something, by simp⟩
    · exact fun value member => absurd (consistent.own.status value member) (nobody _)
    · exact fun value member => absurd (consistent.own.responseHeaders value member) (nobody _)
    · exact fun value member => absurd (consistent.own.response value member) (nobody _)
    · exact fun value member part isPart =>
        absurd (consistent.own.cachedResponse value member part isPart) (nobody _)
    · exact absurd (opened.symm.trans unsent) (by simp)
    · cases impossible
    · exact absurd isId (requestId_of_nothing consistent (Or.inr (Or.inl ⟨opened, notSent⟩)) id)

theorem Stable.didCreateRequest (isCurrent : state.Current request)
    (isRequested : state.native request = .requested) :
    Stable requestID phase (state.didCreateRequest requestID request) := by
  have consistent := stable.consistent
  have something : ¬ state.NothingToAbort := by
    refine consistent.waiting request isCurrent ?_
    rw [isRequested]
    simp
  refine ⟨⟨consistent.log, ⟨consistent.own.status, consistent.own.responseHeaders,
    consistent.own.response, consistent.own.cachedResponse⟩, consistent.unsent,
    consistent.opened, ?_, fun _ _ _ => something⟩, stable.running, stable.closed⟩
  rintro _ ⟨⟩
  exact ⟨something, request, isCurrent, rfl⟩

end

/-! ### Runs -/

def AtRest (requestID : ℕ → ℕ) (state : XMLHttpRequest Headers Data) : Prop :=
  ∃ phase, Stable requestID phase state

theorem stable_init : Stable requestID .idle ({} : XMLHttpRequest Headers Data) := by
  refine .of_nothing ⟨rfl, ⟨?_, ?_, ?_, ?_⟩, fun _ => rfl, ?_, ?_, ?_⟩ (Or.inl rfl) (by simp)
    (by simp)
  · simp
  · simp
  · simp
  · simp
  · nofun
  · simp
  · intro request isCurrent
    cases isCurrent.2

theorem Stable.step {after : XMLHttpRequest Headers Data} {action : RequestAction Headers Data}
    (injective : Function.Injective requestID) (stable : Stable requestID phase state)
    (prompt : state.Prompt action) (stepped : step requestID state action = some after) :
    ∃ later, Stable requestID later after := by
  -- One case for each action; only native events need the request to be known.
  cases action with
  | openRequest _ _ _ onReadyStateChange =>
    cases stepped
    exact stable.openRequest onReadyStateChange
  | setResponseType =>
    cases stepped
    exact ⟨phase, stable.setResponseType⟩
  | send =>
    cases stepped
    exact stable.send
  | abort onReadyStateChange onEnd onLoadend =>
    cases stepped
    exact (stable.abort (calm_run onReadyStateChange) (calm_run onEnd) (calm_run onLoadend)).1
  | read =>
    cases stepped
    obtain ⟨consistent, -, iff⟩ := stable.consistent.read
    exact ⟨phase, consistent, stable.running.trans (not_congr iff).symm, stable.closed⟩
  | didCreateRequest request =>
    rw [XMLHttpRequest.step] at stepped
    split at stepped
    next isRequested =>
      cases stepped
      exact ⟨phase, stable.didCreateRequest prompt isRequested⟩
    next => cases stepped
  | receive request _ first second third =>
    rw [XMLHttpRequest.step] at stepped
    split at stepped
    next isCreated =>
      cases stepped
      exact (stable.withNative isCreated).receive injective first second third
        (Function.update_self _ _ _)
    next => cases stepped

/-- **An object reports its own request and ends once**, if no id arrives after its `send` has been
aborted. -/
theorem endsOnce_of_prompt (injective : Function.Injective requestID)
    {actions : List (RequestAction Headers Data)} {final : XMLHttpRequest Headers Data}
    (prompt : Runs.Along (XMLHttpRequest.step requestID) Prompt {} actions)
    (ran : Runs.run (XMLHttpRequest.step requestID) {} actions = some final) :
    EndsOnce final.log := by
  have keeps : ∀ (state : XMLHttpRequest Headers Data) action next, AtRest requestID state →
      state.Prompt action → XMLHttpRequest.step requestID state action = some next →
        AtRest requestID next := by
    rintro state action next ⟨phase, stable⟩ isPrompt stepped
    exact stable.step injective isPrompt stepped
  obtain ⟨later, stable⟩ := Runs.run_induction keeps ⟨.idle, stable_init⟩ prompt ran
  rw [EndsOnce, stable.consistent.log]
  rfl

def abortedThenCompleted : List (RequestAction Unit Unit) :=
  [.openRequest ['G', 'E', 'T'] ['a'] none .done, .send, .didCreateRequest 0,
    .receive 0 (.didReceiveNetworkResponse 200 none none) (.abort .done .done .done .done) .done
      .done,
    .openRequest ['G', 'E', 'T'] ['b'] none .done, .send,
    .receive 0 (.didCompleteNetworkResponse none false) .done .done .done, .didCreateRequest 1,
    .receive 1 (.didCompleteNetworkResponse none false) (.read .done) .done .done]

theorem endsOnce_of_abortedThenCompleted : ∃ final,
    Runs.run (XMLHttpRequest.step id) {} abortedThenCompleted = some final ∧
      EndsOnce final.log := by
  have ends : (Runs.run (XMLHttpRequest.step id) {} abortedThenCompleted).isSome = true := by decide
  obtain ⟨final, ran⟩ := Option.isSome_iff_exists.mp ends
  exact ⟨final, ran, endsOnce_of_prompt Function.injective_id (by decide) ran⟩

theorem lateId_not_own : ¬ ∀ final : XMLHttpRequest Unit Unit,
    Runs.run (XMLHttpRequest.step id) {} [.openRequest ['G', 'E', 'T'] ['a'] none .done, .send,
      .abort .done .done .done, .didCreateRequest 0,
      .openRequest ['G', 'E', 'T'] ['b'] none .done, .send,
      .receive 0 (.didReceiveNetworkResponse 200 none none) .done .done .done] = some final →
      EndsOnce final.log := by
  intro all
  have wrong := all _ rfl
  revert wrong
  decide

end XMLHttpRequest

end ReactNative


