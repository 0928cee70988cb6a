import ReactNative.Bridge.BridgeCorrectness

/-! Native names a callback by an identifier that holds the number of the call and the branch. -/
namespace ReactNative

open Runs List MessageQueue

variable {F : Type} {dev : Bool}

/-! ### Identifiers -/

theorem ofInt_congr {first second : Int} (congruent : first ≡ second [ZMOD 2 ^ 32]) :
    BitVec.ofInt 32 first = BitVec.ofInt 32 second := by
  apply BitVec.eq_of_toNat_eq
  exact congrArg Int.toNat congruent

theorem toNat_shifted {callID : Nat} (small : callID < 2 ^ 31) :
    (BitVec.ofNat 32 callID <<< 1).toNat = 2 * callID := by
  rw [BitVec.toNat_shiftLeft, BitVec.toNat_ofNat, Nat.shiftLeft_eq]
  omega

theorem toNat_marked {callID : Nat} (small : callID < 2 ^ 31) :
    (BitVec.ofNat 32 callID <<< 1 ||| 1#32).toNat = 2 * callID + 1 := by
  rw [BitVec.toNat_or, toNat_shifted small, Nat.mul_comm, ← Nat.pow_one 2, ← Nat.shiftLeft_eq]
  exact (Nat.shiftLeft_add_eq_or_of_lt (by decide) callID).symm

theorem decode_callbackID {callID : Nat} {isSuccess : Bool} {cbID : Int}
    (small : callID < 2 ^ 31) (same : cbID ≡ callbackID callID isSuccess [ZMOD 2 ^ 32]) :
    decodedCallID cbID = callID ∧ decodedIsSuccess cbID = isSuccess := by
  unfold decodedCallID decodedIsSuccess
  rw [ofInt_congr same]
  cases isSuccess with
  | false =>
    have value := toNat_shifted small
    simp only [callbackID, Bool.false_eq_true, if_false, BitVec.ofInt_toInt]
    constructor
    · rw [BitVec.toNat_ushiftRight, value]
      omega
    · rw [bne_eq_false_iff_eq]
      apply BitVec.eq_of_toNat_eq
      rw [BitVec.toNat_and, value]
      simp [Nat.and_one_is_mod]
  | true =>
    have value := toNat_marked small
    simp only [callbackID, if_true, BitVec.ofInt_toInt]
    constructor
    · rw [BitVec.toNat_ushiftRight, value]
      omega
    · rw [bne_iff_ne]
      intro zero
      have low := congrArg BitVec.toNat zero
      rw [BitVec.toNat_and, value] at low
      simp [Nat.and_one_is_mod] at low

/-- The last number that fits: the identifier itself is negative. -/
example : callbackID (2 ^ 31 - 1) true = -1 ∧ decodedCallID (2 ^ 32 - 1) = 2 ^ 31 - 1 := by
  decide

/-! ### The stored callbacks -/

namespace MessageQueue

variable (self : MessageQueue F)

theorem storedCallback_store (call : NativeCall F) (callID : Nat) (isSuccess : Bool) :
    (self.storeCallbacks call).storedCallback callID isSuccess =
      if callID = self.callID then (if isSuccess then call.onSucc else call.onFail)
      else self.storedCallback callID isSuccess := by
  by_cases same : callID = self.callID
  · subst same
    cases isSuccess <;> simp [storedCallback, storeCallbacks]
  · cases isSuccess <;> simp [storedCallback, storeCallbacks, same]

theorem storedCallback_delete (deleted callID : Nat) (isSuccess : Bool) :
    (self.deleteCallbacks deleted).storedCallback callID isSuccess =
      if callID = deleted then none else self.storedCallback callID isSuccess := by
  by_cases same : callID = deleted
  · subst same
    cases isSuccess <;> simp [storedCallback, deleteCallbacks]
  · cases isSuccess <;> simp [storedCallback, deleteCallbacks, same]

/-- Every call that still has its debug information is of a module with a lookup. -/
def Named : Prop :=
  ∀ callID debug, self.debugInfo.lookup callID = some debug →
    (self.remoteMethodTable.lookup debug.1).isSome = true

theorem Named.lookup {self : MessageQueue F} (named : self.Named) (callID : Nat) :
    self.debugLookupFails callID = false := by
  unfold debugLookupFails
  split
  case h_1 debug found => simpa using named callID debug found
  case h_2 => rfl

theorem Named.record {self : MessageQueue F} {call : NativeCall F} (named : self.Named)
    (known : dev = true → (self.remoteMethodTable.lookup call.moduleID).isSome = true) :
    (self.recordDebugInfo dev call).Named := by
  cases dev with
  | false => exact named
  | true =>
    intro callID debug found
    have inserted : (self.debugInfo.insert self.callID
        (call.moduleID, call.methodID)).lookup callID = some debug := by
      simp only [recordDebugInfo, if_true] at found
      split at found
      · by_cases erased : callID = self.callID - debugInfoLimit
        · rw [erased, AList.lookup_erase] at found
          cases found
        · rwa [AList.lookup_erase_ne erased] at found
      · exact found
    by_cases same : callID = self.callID
    · rw [same, AList.lookup_insert] at inserted
      cases inserted
      exact known rfl
    · rw [AList.lookup_insert_ne same] at inserted
      exact named callID debug inserted

end MessageQueue

namespace Bridge

variable (state : Bridge F)

/-- The function that a call registered for a branch. -/
def callbackOf (callID : Nat) (isSuccess : Bool) : Option F :=
  state.registered[callID]?.bind fun entry =>
    if isSuccess then entry.1.onSucc else entry.1.onFail

/-- The identifier that a call pushed onto its parameters for a branch: the one for failure comes
first. -/
def pushedID (callID : Nat) (isSuccess : Bool) : Option JsValue :=
  state.registered[callID]?.bind fun entry =>
    let pushed := entry.2.drop entry.1.params.length
    if isSuccess then entry.1.onSucc.bind fun _ => pushed.getLast?
    else entry.1.onFail.bind fun _ => pushed.head?

/-- The calls of which a callback has been called. -/
def answered : List Nat := state.ran.map Prod.fst

structure Tracks : Prop where
  counted : state.registered.length = state.self.callID
  pushed : ∀ callID (entry : NativeCall F × List JsValue), state.registered[callID]? = some entry →
    entry.2 = entry.1.params ++ { state.self with callID }.pushedIDs entry.1
  stored : ∀ callID isSuccess, state.self.storedCallback callID isSuccess =
    if callID ∈ state.answered then none else state.callbackOf callID isSuccess
  genuine : ∀ callID isSuccess callback, (callID, isSuccess, callback) ∈ state.ran →
    state.callbackOf callID isSuccess = some callback
  once : state.answered.Nodup

theorem Tracks.congr {state after : Bridge F} (tracks : state.Tracks)
    (callID : after.self.callID = state.self.callID)
    (success : after.self.successCallbacks = state.self.successCallbacks)
    (failure : after.self.failureCallbacks = state.self.failureCallbacks)
    (registered : after.registered = state.registered) (ran : after.ran = state.ran) :
    after.Tracks := by
  have same : after.self.storedCallback = state.self.storedCallback := by
    funext number isSuccess
    simp only [storedCallback, success, failure]
  have callbacks : after.callbackOf = state.callbackOf := by
    funext number isSuccess
    simp only [callbackOf, registered]
  have calls : after.answered = state.answered := by
    simp only [answered, ran]
  constructor
  · rw [registered, callID]
    exact tracks.counted
  · rw [registered]
    exact tracks.pushed
  · rw [same, calls, callbacks]
    exact tracks.stored
  · rw [ran, callbacks]
    exact tracks.genuine
  · rw [calls]
    exact tracks.once

theorem Tracks.answered_lt {state : Bridge F} (tracks : state.Tracks) {callID : Nat}
    (member : callID ∈ state.answered) : callID < state.self.callID := by
  obtain ⟨⟨number, isSuccess, callback⟩, ran, rfl⟩ := mem_map.mp member
  have registered := tracks.genuine number isSuccess callback ran
  obtain ⟨_, found, -⟩ := Option.bind_eq_some_iff.mp registered
  rw [← tracks.counted]
  exact (List.getElem?_eq_some_iff.mp found).1

theorem registered_append (entry : NativeCall F × List JsValue) (callID : Nat) :
    (state.registered ++ [entry])[callID]? =
      if callID = state.registered.length then some entry else state.registered[callID]? := by
  by_cases same : callID = state.registered.length
  · simp [same]
  · rw [if_neg same]
    obtain earlier | later : callID < state.registered.length ∨
        state.registered.length + 1 ≤ callID := by omega
    · exact getElem?_append_left earlier
    · rw [getElem?_eq_none (by simpa using later), getElem?_eq_none (by omega)]

theorem callbackOf_append (call : NativeCall F) (params : List JsValue) (callID : Nat)
    (isSuccess : Bool) :
    callbackOf { state with registered := state.registered ++ [(call, params)] } callID isSuccess =
      if callID = state.registered.length then (if isSuccess then call.onSucc else call.onFail)
      else state.callbackOf callID isSuccess := by
  simp only [callbackOf, registered_append]
  split <;> rfl

variable {self : MessageQueue F} {call : NativeCall F}

theorem Tracks.count {state : Bridge F} (tracks : state.Tracks)
    (callID : self.callID = state.self.callID + 1) {params : List JsValue}
    (pushed : params = call.params ++ state.self.pushedIDs call)
    (stored : ∀ number isSuccess, self.storedCallback number isSuccess =
      if number = state.self.callID then (if isSuccess then call.onSucc else call.onFail)
      else state.self.storedCallback number isSuccess) :
    Tracks { state with
      self, registered := state.registered ++ [(call, params)] } := by
  have callbacks := callbackOf_append state call params
  constructor
  · simp [tracks.counted, callID]
  · intro number entry found
    rw [registered_append] at found
    split at found
    case isTrue last =>
      cases found
      rw [pushed, last, tracks.counted]
      rfl
    case isFalse => exact tracks.pushed number entry found
  · intro number isSuccess
    change self.storedCallback number isSuccess =
      if number ∈ state.answered then none else callbackOf _ number isSuccess
    by_cases new : number = state.self.callID
    · have unanswered : number ∉ state.answered := by
        intro member
        exact absurd (tracks.answered_lt member) (by omega)
      rw [stored, if_pos new, if_neg unanswered]
      exact ((callbacks number isSuccess).trans (if_pos (new.trans tracks.counted.symm))).symm
    · rw [stored, if_neg new, tracks.stored]
      congr 1
      refine ((callbacks number isSuccess).trans (if_neg ?_)).symm
      rw [tracks.counted]
      exact new
  · intro number isSuccess callback ran
    have earlier := tracks.answered_lt (mem_map_of_mem ran)
    refine ((callbacks number isSuccess).trans (if_neg ?_)).trans
      (tracks.genuine number isSuccess callback ran)
    rw [tracks.counted]
    exact Nat.ne_of_lt earlier
  · exact tracks.once

theorem Tracks.processCallbacks {state : Bridge F} (tracks : state.Tracks) (dev : Bool)
    (call : NativeCall F) :
    Tracks { state with
      self := (state.self.processCallbacks dev call).1
      registered := state.register call (state.self.processCallbacks dev call).2 } := by
  have recorded : Tracks { state with self := state.self.recordDebugInfo dev call } := by
    cases dev <;> exact tracks.congr rfl rfl rfl rfl rfl
  obtain ⟨-, same⟩ | ⟨-, same⟩ | ⟨none, same⟩ :=
    processCallbacks_cases dev state.self call <;> rw [same]
  · exact recorded
  · have stored := storedCallback_store (state.self.recordDebugInfo dev call) call
    exact recorded.count rfl rfl stored
  · -- The maps stay as they are: both branches of the new call have nothing to hold.
    simp only [NativeCall.hasCallback, Bool.or_eq_false_iff, Option.isSome_eq_false_iff,
      Option.isNone_iff_eq_none] at none
    refine tracks.count rfl (by simp [pushedIDs, none]) ?_
    intro number isSuccess
    change state.self.storedCallback number isSuccess = _
    split
    case isFalse => rfl
    case isTrue new =>
      have unanswered : number ∉ state.answered := by
        intro member
        exact absurd (tracks.answered_lt member) (by omega)
      have fresh : state.registered[number]? = Option.none :=
        getElem?_eq_none (by rw [tracks.counted, new])
      rw [tracks.stored, if_neg unanswered, callbackOf, fresh, none.1, none.2]
      simp

theorem enqueueNativeCall_self (self : MessageQueue F) (host : MessageQueue.Host)
    (call : NativeCall F) :
    ∃ queue lastFlush, (self.enqueueNativeCall dev host call).self =
      { (self.processCallbacks dev call).1 with queue, lastFlush } := by
  cases processed : self.processCallbacks dev call with
  | mk after counted =>
    cases counted with
    | error =>
      refine ⟨after.queue, after.lastFlush, ?_⟩
      simp only [MessageQueue.enqueueNativeCall, processed]
    | ok =>
      simp only [MessageQueue.enqueueNativeCall, processed]
      split
      · exact ⟨_, _, rfl⟩
      · unfold MessageQueue.flushIfDue
        split
        · split
          · exact ⟨_, _, rfl⟩
          · exact ⟨_, _, rfl⟩
        · exact ⟨_, _, rfl⟩

theorem invokeCallback_cases (self : MessageQueue F) (now cbID : Int) :
    (∃ outcome, self.invokeCallback dev now cbID = ({ self with lastFlush := now }, outcome) ∧
      ∀ callback, outcome ≠ .ok (some callback)) ∨
    ∃ callback, self.storedCallback (decodedCallID cbID) (decodedIsSuccess cbID) = some callback ∧
      self.invokeCallback dev now cbID =
        ({ self with lastFlush := now }.deleteCallbacks (decodedCallID cbID),
          .ok (some callback)) := by
  unfold MessageQueue.invokeCallback
  dsimp only
  split
  · exact .inl ⟨_, rfl, by simp⟩
  · split
    · cases dev <;> simp
    case h_2 callback found => exact .inr ⟨callback, found, rfl⟩

theorem Tracks.answer {state : Bridge F} {callID : Nat} {isSuccess : Bool} {callback : F}
    (tracks : state.Tracks) (found : state.self.storedCallback callID isSuccess = some callback)
    (counter : self.callID = state.self.callID)
    (stored : ∀ number branch, self.storedCallback number branch =
      if number = callID then none else state.self.storedCallback number branch)
    (frames : List Frame) :
    Tracks { state with
      self, frames, ran := state.ran ++ [(callID, isSuccess, callback)] } := by
  have kept := tracks.stored callID isSuccess
  rw [found] at kept
  -- A stored callback belongs to a call that has not been answered.
  have unanswered : callID ∉ state.answered := by
    intro member
    rw [if_pos member] at kept
    cases kept
  rw [if_neg unanswered] at kept
  have calls : answered { state with
      self, frames, ran := state.ran ++ [(callID, isSuccess, callback)] } =
      state.answered ++ [callID] := map_append
  constructor
  · rw [counter]
    exact tracks.counted
  · exact tracks.pushed
  · intro number branch
    rw [stored, tracks.stored, calls]
    by_cases last : number = callID
    · simp [last]
    · simp only [mem_append, mem_singleton, last, or_false]
      rfl
  · intro number branch called ran
    obtain earlier | last := mem_append.mp ran
    · exact tracks.genuine number branch called earlier
    · cases mem_singleton.mp last
      exact kept.symm
  · rw [calls, nodup_append]
    refine ⟨tracks.once, nodup_singleton callID, ?_⟩
    intro number member last same
    rw [mem_singleton.mp same]
    rintro rfl
    exact unanswered member

theorem Tracks.invokeCallback {state : Bridge F} (tracks : state.Tracks) (now cbID : Int) :
    (state.invokeCallback dev now cbID).Tracks := by
  obtain ⟨_, same, _⟩ | ⟨_, found, same⟩ :=
    @invokeCallback_cases F dev state.self now cbID
  · have unchanged : (state.invokeCallback dev now cbID).ran = state.ran := by
      simp only [Bridge.invokeCallback, same]
    refine tracks.congr ?_ ?_ ?_ rfl unchanged <;> simp only [Bridge.invokeCallback, same]
  · simp only [Bridge.invokeCallback, same]
    have deleted := storedCallback_delete { state.self with lastFlush := now }
      (decodedCallID cbID)
    apply tracks.answer found _ deleted
    rfl

variable {next : Bridge F} {event : BridgeEvent F}

theorem step_tracks {state : Bridge F} (tracks : state.Tracks)
    (stepped : state.step dev event = some next) : next.Tracks := by
  cases event with
  | enqueueNativeCall host call =>
    cases stepped
    obtain ⟨_, _, same⟩ := @enqueueNativeCall_self F dev state.self host call
    refine (tracks.processCallbacks dev call).congr ?_ ?_ ?_ rfl rfl <;>
      simp only [Bridge.enqueueNativeCall, same]
  | callNativeSyncHook hookInstalled call =>
    cases stepped
    by_cases missing : (dev && !hookInstalled) = true
    · simp only [Bridge.callNativeSyncHook, MessageQueue.callNativeSyncHook, if_pos missing]
      exact tracks.congr rfl rfl rfl rfl rfl
    · simp only [Bridge.callNativeSyncHook, MessageQueue.callNativeSyncHook, if_neg missing]
      exact tracks.processCallbacks dev call
  | createDebugLookup =>
    cases stepped
    exact tracks.congr rfl rfl rfl rfl rfl
  | callFunctionReturnFlushedQueue now =>
    cases stepped
    exact tracks.congr rfl rfl rfl rfl rfl
  | invokeCallbackAndReturnFlushedQueue now cbID =>
    cases stepped
    exact tracks.invokeCallback now cbID
  | flushedQueue =>
    cases stepped
    exact tracks.congr rfl rfl rfl rfl rfl
  | leave =>
    simp only [step] at stepped
    split at stepped
    · cases stepped
    · split at stepped <;> cases stepped <;> exact tracks.congr rfl rfl rfl rfl rfl

/-! ### Routing -/

/-- In development mode a call with a callback is to a module whose methods have
been listed for debugging, as `genModule` does before it returns the module. -/
def KnowsModule (dev : Bool) (state : Bridge F) : BridgeEvent F → Prop
  | .enqueueNativeCall _ call | .callNativeSyncHook _ call =>
    dev = true → call.hasCallback = true →
      (state.self.remoteMethodTable.lookup call.moduleID).isSome = true
  | _ => True

theorem named_processCallbacks (named : self.Named) (known : dev = true → call.hasCallback = true →
      (self.remoteMethodTable.lookup call.moduleID).isSome = true) :
    (self.processCallbacks dev call).1.Named := by
  obtain ⟨called, same⟩ | ⟨called, same⟩ | ⟨-, same⟩ :=
    processCallbacks_cases dev self call <;> rw [same]
  · exact named.record fun development => known development called
  · exact named.record fun development => known development called
  · exact named

theorem step_named {state : Bridge F} (named : state.self.Named)
    (known : KnowsModule dev state event) (stepped : state.step dev event = some next) :
    next.self.Named := by
  -- One case for each event; only those that enqueue a call name new callbacks.
  cases event with
  | enqueueNativeCall host call =>
    cases stepped
    obtain ⟨_, _, same⟩ := @enqueueNativeCall_self F dev state.self host call
    simp only [Bridge.enqueueNativeCall, same]
    exact named_processCallbacks named known
  | callNativeSyncHook hookInstalled call =>
    cases stepped
    by_cases missing : (dev && !hookInstalled) = true
    · simp only [Bridge.callNativeSyncHook, MessageQueue.callNativeSyncHook, if_pos missing]
      exact named
    · simp only [Bridge.callNativeSyncHook, MessageQueue.callNativeSyncHook, if_neg missing]
      exact named_processCallbacks named known
  | createDebugLookup moduleID methods =>
    cases stepped
    intro callID debug found
    -- The table only grows: a name found before is found still.
    change ((state.self.remoteMethodTable.insert moduleID methods).lookup debug.1).isSome = true
    by_cases same : debug.1 = moduleID
    · rw [same, AList.lookup_insert]
      rfl
    · rw [AList.lookup_insert_ne same]
      exact named callID debug found
  | callFunctionReturnFlushedQueue now =>
    cases stepped
    exact named
  | invokeCallbackAndReturnFlushedQueue now cbID =>
    cases stepped
    obtain ⟨_, same, -⟩ | ⟨_, -, same⟩ :=
      @invokeCallback_cases F dev state.self now cbID <;>
      simp only [Bridge.invokeCallback, same] <;> exact named
  | flushedQueue =>
    cases stepped
    exact named
  | leave =>
    simp only [step] at stepped
    split at stepped
    · cases stepped
    · split at stepped <;> cases stepped <;> exact named

theorem Tracks.routes {state : Bridge F} (tracks : state.Tracks) (named : state.self.Named)
    (few : state.self.callID < 2 ^ 31) {callID : Nat} {isSuccess : Bool} {callback : F}
    (registered : state.callbackOf callID isSuccess = some callback) {cbID : Int}
    (pushed : cbID ≡ callbackID callID isSuccess [ZMOD 2 ^ 32]) (now : Int) :
    (state.invokeCallback dev now cbID).ran = if callID ∈ state.answered then state.ran
      else state.ran ++ [(callID, isSuccess, callback)] := by
  have small : callID < 2 ^ 31 := by
    obtain ⟨callbacks, found, -⟩ := Option.bind_eq_some_iff.mp registered
    have counted := (List.getElem?_eq_some_iff.mp found).1
    rw [tracks.counted] at counted
    omega
  obtain ⟨number, branch⟩ := decode_callbackID small pushed
  have stored := tracks.stored callID isSuccess
  have looked : debugLookupFails { state.self with lastFlush := now } callID = false :=
    named.lookup callID
  have unchanged : storedCallback { state.self with lastFlush := now } =
    state.self.storedCallback := rfl
  simp only [Bridge.invokeCallback, MessageQueue.invokeCallback, number, branch, looked,
    Bool.and_false, Bool.false_eq_true, if_false, unchanged, stored, registered]
  by_cases before : callID ∈ state.answered
  · cases dev <;> simp [before]
  · simp [before]

theorem Tracks.pushedID {state : Bridge F} (tracks : state.Tracks) {callID : Nat}
    {isSuccess : Bool} {callback : F}
    (registered : state.callbackOf callID isSuccess = some callback) :
    state.pushedID callID isSuccess = some (.integer (callbackID callID isSuccess)) := by
  obtain ⟨entry, found, isCallback⟩ := Option.bind_eq_some_iff.mp registered
  rw [Bridge.pushedID, found, Option.bind_some, tracks.pushed callID entry found,
    drop_left]
  cases isSuccess with
  | false =>
    rw [if_neg Bool.false_ne_true] at isCallback ⊢
    simp [pushedIDs, isCallback]
  | true =>
    rw [if_pos rfl] at isCallback ⊢
    simp [pushedIDs, isCallback]

/-- The callbacks of a bridge are called rightly, and once. -/
structure RoutesCallbacks (dev : Bool) (state : Bridge F) : Prop where
  routes : ∀ callID isSuccess callback, state.callbackOf callID isSuccess = some callback →
    ∃ pushed : Int, state.pushedID callID isSuccess = some (.integer pushed) ∧
      ∀ cbID : Int, cbID ≡ pushed [ZMOD 2 ^ 32] → ∀ now next,
        state.step dev (.invokeCallbackAndReturnFlushedQueue now cbID) = some next →
        next.ran = if callID ∈ state.answered then state.ran
          else state.ran ++ [(callID, isSuccess, callback)]
  genuine : ∀ callID isSuccess callback, (callID, isSuccess, callback) ∈ state.ran →
    state.callbackOf callID isSuccess = some callback
  once : state.answered.Nodup

/-- **Routing.** In every state of a run with fewer than 2^31 calls. -/
theorem run_routesCallbacks {events : List (BridgeEvent F)} {state : Bridge F}
    (known : Along (step dev) (KnowsModule dev) {} events)
    (ran : run (step dev) {} events = some state) (few : state.self.callID < 2 ^ 31) :
    state.RoutesCallbacks dev := by
  have start : Tracks ({} : Bridge F) ∧ ({} : Bridge F).self.Named := by
    refine ⟨⟨rfl, nofun, ?_, ?_, nodup_nil⟩, ?_⟩
    · intro callID isSuccess
      cases isSuccess <;> rfl
    · nofun
    · nofun
  have keeps : ∀ (before : Bridge F) (event : BridgeEvent F) (next : Bridge F),
      before.Tracks ∧ before.self.Named → KnowsModule dev before event →
      before.step dev event = some next → next.Tracks ∧ next.self.Named := by
    rintro before event next ⟨tracks, named⟩ allowed stepped
    exact ⟨step_tracks tracks stepped, step_named named allowed stepped⟩
  obtain ⟨tracks, named⟩ := run_induction keeps start known ran
  refine ⟨?_, tracks.genuine, tracks.once⟩
  intro callID isSuccess callback registered
  refine ⟨_, tracks.pushedID registered, ?_⟩
  rintro cbID pushed now next ⟨⟩
  exact tracks.routes named few registered pushed now

def sampleAnswers : List (BridgeEvent String) :=
  [.createDebugLookup 3 ["open", "close"],
    .enqueueNativeCall ⟨0, none⟩ ⟨3, 0, [], some "failed", some "opened"⟩,
    .callNativeSyncHook true ⟨3, 1, [], none, some "closed"⟩,
    .invokeCallbackAndReturnFlushedQueue 1 0,
    .enqueueNativeCall ⟨1, none⟩ ⟨3, 0, [], some "failed again", none⟩,
    .leave false, .leave false, .invokeCallbackAndReturnFlushedQueue 2 1]

theorem run_routesCallbacks_answers : ∃ state, run (step true) {} sampleAnswers = some state ∧
      state.ran = [(0, false, "failed")] ∧ state.RoutesCallbacks true := by
  refine ⟨_, rfl, rfl, @run_routesCallbacks String true sampleAnswers _ ?_ rfl ?_⟩
  · exact along_cons trivial rfl <| along_cons (fun _ _ => rfl) rfl <|
      along_cons (fun _ _ => rfl) rfl <| along_cons trivial rfl <|
      along_cons (fun _ _ => rfl) rfl <| along_cons trivial rfl <| along_cons trivial rfl <|
      along_cons trivial rfl trivial
  · decide

end Bridge

end ReactNative

