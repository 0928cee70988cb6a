import ReactNative.Bridge.MessageQueue

/-! A queue whose three arrays are parallel decodes to the calls that were queued.
`enqueueNativeCall` keeps them parallel except when development mode rejects the parameters: the
module and the method have been pushed by then. -/
namespace ReactNative

open Runs List

variable {F : Type} {dev : Bool}

namespace Queue

@[simp]
theorem aligned_empty (callID : Nat) : Aligned { callID } := ⟨rfl, rfl⟩

@[simp]
theorem calls_empty (callID : Nat) : calls { callID } = [] := rfl

theorem calls_eq_nil {queue : Queue} (empty : queue.moduleIds.length = 0) : queue.calls = [] := by
  rw [calls, length_eq_zero_iff.mp empty]
  rfl

end Queue

namespace MessageQueue

def queued (self : MessageQueue F) (call : NativeCall F) (params : List JsValue) : Queue :=
  ((self.pushIDs call).pushParams params).queue

variable {self : MessageQueue F}

theorem queued_aligned (call : NativeCall F) (params : List JsValue)
    (aligned : self.queue.Aligned) : (self.queued call params).Aligned := by
  obtain ⟨methods, paramss⟩ := aligned
  constructor
  · simp [queued, pushParams, pushIDs, methods]
  · simp [queued, pushParams, pushIDs, paramss]

theorem queued_calls (call : NativeCall F) (params : List JsValue) (aligned : self.queue.Aligned) :
    (self.queued call params).calls =
      self.queue.calls ++ [(call.moduleID, call.methodID, params)] := by
  obtain ⟨methods, paramss⟩ := aligned
  have inner : self.queue.methodIds.length = self.queue.params.length := by omega
  have outer : self.queue.moduleIds.length =
      (self.queue.methodIds.zip self.queue.params).length := by
    rw [length_zip]
    omega
  simp only [queued, pushParams, pushIDs, Queue.calls]
  rw [zip_append inner, zip_append outer]
  rfl

/-! ### Rejection of parameters -/

theorem areValidItems_append (items more : List JsValue) :
    areValidItems (items ++ more) = (areValidItems items && areValidItems more) := by
  induction items with
  | nil => simp [areValidItems]
  | cons _ items ih => simp [areValidItems, ih, Bool.and_assoc]

theorem areValidItems_pushedIDs (self : MessageQueue F) (call : NativeCall F) :
    areValidItems (self.pushedIDs call) = true := by
  unfold pushedIDs
  split <;> split <;>
    simp [areValidItems, JsValue.integer, isValidArgument, JsNumber.isFinite]

theorem isValidArgument_pushed (self : MessageQueue F) (call : NativeCall F) :
    isValidArgument (.array (call.params ++ self.pushedIDs call)) =
      isValidArgument (.array call.params) := by
  simp only [isValidArgument]
  rw [areValidItems_append, areValidItems_pushedIDs, Bool.and_true]

theorem processCallbacks_cases (dev : Bool) (self : MessageQueue F) (call : NativeCall F) :
    (call.hasCallback = true ∧
      self.processCallbacks dev call = (self.recordDebugInfo dev call, .error .typeError)) ∨
    (call.hasCallback = true ∧ self.processCallbacks dev call =
      (((self.recordDebugInfo dev call).storeCallbacks call).nextCallID,
        .ok (call.params ++ (self.recordDebugInfo dev call).pushedIDs call))) ∨
    (call.hasCallback = false ∧
      self.processCallbacks dev call = (self.nextCallID, .ok call.params)) := by
  unfold processCallbacks
  cases called : call.hasCallback with
  | false => exact .inr (.inr ⟨rfl, rfl⟩)
  | true =>
    cases failing : dev && (self.recordDebugInfo dev call).warningFails with
    | false => exact .inr (.inl ⟨rfl, by simp [failing]⟩)
    | true => exact .inl ⟨rfl, by simp [failing]⟩

@[simp]
theorem recordDebugInfo_queue (self : MessageQueue F) (call : NativeCall F) :
    (self.recordDebugInfo dev call).queue = self.queue := by
  unfold recordDebugInfo
  split <;> rfl

@[simp]
theorem processCallbacks_queue (dev : Bool) (self : MessageQueue F) (call : NativeCall F) :
    (self.processCallbacks dev call).1.queue = self.queue := by
  obtain ⟨-, same⟩ | ⟨-, same⟩ | ⟨-, same⟩ := processCallbacks_cases dev self call <;>
    rw [same]
  · exact recordDebugInfo_queue self call
  · exact recordDebugInfo_queue self call
  · rfl

theorem processCallbacks_valid {after : MessageQueue F} {call : NativeCall F}
    {params : List JsValue} (processed : self.processCallbacks dev call = (after, .ok params)) :
    isValidArgument (.array params) = isValidArgument (.array call.params) := by
  obtain ⟨-, same⟩ | ⟨-, same⟩ | ⟨-, same⟩ := processCallbacks_cases dev self call <;>
    rw [same] at processed <;> cases processed
  · exact isValidArgument_pushed _ call
  · rfl

theorem flushIfDue_cases {host : Host} (aligned : self.queue.Aligned)
    (dispatches : host.nativeFlushQueueImmediate ≠ some false) (params : List JsValue) :
    self.flushIfDue host params = ⟨self, none, .ok params⟩ ∨ self.flushIfDue host params =
        ⟨{ self.swapQueue with lastFlush := host.now }, some self.queue, .ok params⟩ := by
  have accepted : nativeFlushQueueImmediate true self.queue = .ok () := by
    obtain ⟨_, parsed, -⟩ := parseMethodCalls_aligned aligned
    simp [nativeFlushQueueImmediate, parsed]
  unfold flushIfDue
  cases installed : host.nativeFlushQueueImmediate with
  | none => exact .inl rfl
  | some works =>
    cases works with
    | false => exact absurd installed dispatches
    | true =>
      dsimp only
      split
      · right
        rw [accepted]
        rfl
      · exact .inl rfl

end MessageQueue

/-! ### The queue stays decodable -/

namespace Bridge

/-- Native can decode what it got, and what it got followed by what is still queued
is what JS has called. -/
structure Decodable (state : Bridge F) : Prop where
  aligned : state.self.queue.Aligned
  accepted : ∀ queue ∈ state.handed, ∃ calls, parseMethodCalls queue.toDynamic = .ok calls
  exact : state.handed.flatMap parsedCalls ++ state.self.queue.calls = state.returned

variable {state : Bridge F}

theorem Decodable.congr {after : Bridge F} (decodable : state.Decodable)
    (queue : after.self.queue = state.self.queue) (handed : after.handed = state.handed)
    (returned : after.returned = state.returned) : after.Decodable := by
  refine ⟨queue ▸ decodable.aligned, handed ▸ decodable.accepted, ?_⟩
  rw [queue, handed, returned]
  exact decodable.exact

theorem Decodable.hand (decodable : state.Decodable) (callID : Nat) :
    (∀ queue ∈ state.handed ++ [state.self.queue],
        ∃ calls, parseMethodCalls queue.toDynamic = .ok calls) ∧
      (state.handed ++ [state.self.queue]).flatMap parsedCalls ++ Queue.calls { callID } =
        state.returned := by
  constructor
  · intro queue member
    obtain earlier | last := mem_append.mp member
    · exact decodable.accepted queue earlier
    · rw [mem_singleton.mp last]
      obtain ⟨calls, parsed, -⟩ := parseMethodCalls_aligned decodable.aligned
      exact ⟨calls, parsed⟩
  · rw [flatMap_append, flatMap_singleton, parsedCalls_aligned decodable.aligned,
      Queue.calls_empty, append_nil]
    exact decodable.exact

/-- The exact condition on an event: development mode does not reject the parameters
of a call, and native makes the calls it has decoded. -/
def Accepted (dev : Bool) : BridgeEvent F → Prop
  | .enqueueNativeCall host call =>
    (dev = true → isValidArgument (.array call.params) = true) ∧
      host.nativeFlushQueueImmediate ≠ some false
  | _ => True

theorem flushIfDue_decodable {state : Bridge F} {self : MessageQueue F} {host : MessageQueue.Host}
    {call : NativeCall F} {params : List JsValue} (decodable : state.Decodable)
    (unchanged : self.queue = state.self.queue)
    (dispatches : host.nativeFlushQueueImmediate ≠ some false)
    (registered : List (NativeCall F × List JsValue)) :
    let outcome := ((self.pushIDs call).pushParams params).flushIfDue host params
    outcome.result = .ok params ∧
      Decodable { state with
        self := outcome.self
        handed := state.handed ++ outcome.handed.toList
        returned := state.returned ++ [(call.moduleID, call.methodID, params)]
        registered } := by
  have aligned : (self.queued call params).Aligned :=
    MessageQueue.queued_aligned call params (unchanged ▸ decodable.aligned)
  -- The calls with the new one still queued, before anything is handed over.
  have queued : Decodable { state with
      self := (self.pushIDs call).pushParams params
      returned := state.returned ++ [(call.moduleID, call.methodID, params)]
      registered } := by
    refine ⟨aligned, decodable.accepted, ?_⟩
    have calls := MessageQueue.queued_calls call params (unchanged ▸ decodable.aligned)
    change state.handed.flatMap parsedCalls ++ (self.queued call params).calls = _
    rw [calls, unchanged, ← append_assoc, decodable.exact]
  intro outcome
  obtain same | same := MessageQueue.flushIfDue_cases aligned dispatches params
  · rw [show outcome = _ from same]
    simpa using queued
  · rw [show outcome = _ from same]
    obtain ⟨accepted, exact⟩ := queued.hand self.callID
    exact ⟨rfl, Queue.aligned_empty _, accepted, exact⟩

theorem enqueueNativeCall_decodable {host : MessageQueue.Host} {call : NativeCall F}
    (decodable : state.Decodable) (accepted : Accepted dev (.enqueueNativeCall host call)) :
    (state.enqueueNativeCall dev host call).Decodable := by
  obtain ⟨valid, dispatches⟩ := accepted
  cases processed : state.self.processCallbacks dev call with
  | mk self counted =>
    have unchanged : self.queue = state.self.queue := by
      rw [← MessageQueue.processCallbacks_queue dev state.self call, processed]
    cases counted with
    | error =>
      simp only [enqueueNativeCall, MessageQueue.enqueueNativeCall, processed, register]
      simp only [Option.toList_none, append_nil]
      exact decodable.congr unchanged rfl rfl
    | ok params =>
      have passes : ¬ (dev && !isValidArgument (.array params)) = true := by
        rw [MessageQueue.processCallbacks_valid processed]
        cases dev
        · simp
        · simp [valid rfl]
      obtain ⟨returns, still⟩ :=
        @flushIfDue_decodable _ _ _ _ call params decodable unchanged dispatches
          (state.registered ++ [(call, params)])
      simp only [enqueueNativeCall, MessageQueue.enqueueNativeCall, processed, register,
        if_neg passes, returns]
      exact still

theorem callNativeSyncHook_queue (hookInstalled : Bool) (self : MessageQueue F)
    (call : NativeCall F) :
    (self.callNativeSyncHook dev hookInstalled call).1.queue = self.queue := by
  unfold MessageQueue.callNativeSyncHook
  split
  · rfl
  · exact MessageQueue.processCallbacks_queue dev self call

theorem invokeCallback_queue (self : MessageQueue F) (now cbID : Int) :
    (self.invokeCallback dev now cbID).1.queue = self.queue := by
  unfold MessageQueue.invokeCallback
  dsimp only
  split
  · rfl
  · split <;> rfl

theorem returnFlushedQueue_decodable (decodable : state.Decodable) (frames : List Frame) :
    Decodable { state.returnFlushedQueue with frames } := by
  by_cases empty : state.self.queue.moduleIds.length = 0
  · refine ⟨Queue.aligned_empty _, ?_, ?_⟩
    · simpa [returnFlushedQueue, empty] using decodable.accepted
    · have exact := decodable.exact
      rw [Queue.calls_eq_nil empty] at exact
      simpa [returnFlushedQueue, empty, MessageQueue.swapQueue] using exact
  · obtain ⟨accepted, exact⟩ := decodable.hand state.self.callID
    refine ⟨Queue.aligned_empty _, ?_, ?_⟩
    · simpa only [returnFlushedQueue, if_pos empty] using accepted
    · simpa only [returnFlushedQueue, if_pos empty, MessageQueue.swapQueue] using exact

theorem step_decodable {next : Bridge F} {event : BridgeEvent F} (decodable : state.Decodable)
    (accepted : Accepted dev event) (stepped : state.step dev event = some next) :
    next.Decodable := by
  cases event with
  | enqueueNativeCall _ call =>
    cases stepped
    exact enqueueNativeCall_decodable decodable accepted
  | callNativeSyncHook hookInstalled call =>
    cases stepped
    exact decodable.congr (callNativeSyncHook_queue hookInstalled state.self call) rfl rfl
  | createDebugLookup =>
    cases stepped
    exact decodable.congr rfl rfl rfl
  | callFunctionReturnFlushedQueue now =>
    cases stepped
    exact decodable.congr rfl rfl rfl
  | invokeCallbackAndReturnFlushedQueue now cbID =>
    cases stepped
    exact decodable.congr (invokeCallback_queue state.self now cbID) rfl rfl
  | flushedQueue =>
    cases stepped
    exact decodable.congr rfl rfl rfl
  | leave =>
    simp only [step] at stepped
    split at stepped
    · cases stepped
    · split at stepped <;> cases stepped
      · exact decodable.congr rfl rfl rfl
      · exact decodable.congr rfl rfl rfl
      · exact returnFlushedQueue_decodable decodable _

theorem start_decodable : Decodable ({} : Bridge F) := by
  refine ⟨Queue.aligned_empty 0, ?_, rfl⟩
  intro queue member
  cases member

/-- **The queue is decodable in every state of a run** whose calls are not rejected. -/
theorem run_decodable {events : List (BridgeEvent F)} {state : Bridge F}
    (accepted : ∀ event ∈ events, Accepted dev event)
    (ran : run (step dev) {} events = some state) : state.Decodable :=
  run_induction (fun _ _ _ decodable allowed stepped =>
    step_decodable decodable allowed stepped) start_decodable (along_of_forall accepted _) ran

def sampleCalls : List (BridgeEvent Unit) :=
  [.enqueueNativeCall ⟨9, some true⟩ ⟨3, 1, [.string "foo"], none, some ()⟩,
    .enqueueNativeCall ⟨10, some true⟩ ⟨3, 2, [.null], none, none⟩, .flushedQueue, .leave false]

theorem run_decodable_flushed :
    ∃ state, run (step true) {} sampleCalls = some state ∧ state.returned.length = 2 ∧
      state.Decodable := by
  refine ⟨_, rfl, rfl, @run_decodable Unit true sampleCalls _ ?_ rfl⟩
  simp [sampleCalls, Accepted, isValidArgument, areValidItems]

theorem rejected_call_breaks_queue :
    ¬ ∀ (dev : Bool) (events : List (BridgeEvent Unit)) (state : Bridge Unit),
      run (step dev) {} events = some state → state.Decodable := by
  intro always
  have broken := always true
    [.enqueueNativeCall ⟨1, none⟩ ⟨0, 1, [.number .nan], none, none⟩,
      .enqueueNativeCall ⟨2, none⟩ ⟨0, 1, [.integer 2], none, none⟩,
      .flushedQueue, .leave false] _ rfl
  have handed := broken.accepted ⟨[0, 0], [1, 1], [[.integer 2]], 0⟩ mem_cons_self
  have misaligned : ¬ (⟨[0, 0], [1, 1], [[.integer 2]], 0⟩ : Queue).Aligned := by
    intro aligned
    cases aligned.2
  rw [parseMethodCalls_misaligned misaligned] at handed
  obtain ⟨calls, accepted⟩ := handed
  cases accepted

end Bridge

end ReactNative

