import Mathlib.Data.List.AList
import Mathlib.Data.Int.ModEq
import ReactNative.Bridge.MethodCall
import ReactNative.Foundation.Runs

/-! JS calls native by pushing a module, a method and parameters onto three arrays, and native calls
JS back with the identifiers it finds among the parameters. -/
namespace ReactNative

mutual

/-- A function is let through as the value of a field, and nowhere else. -/
def isValidArgument : JsValue → Bool
  | .undefined | .null | .boolean _ | .string _ => true
  | .number value => value.isFinite
  | .function _ | .symbol _ | .bigint _ => false
  | .array items => areValidItems items
  | .object fields => areValidFields fields

def areValidItems : List JsValue → Bool
  | [] => true
  | item :: items => isValidArgument item && areValidItems items

def areValidFields : List (String × JsValue) → Bool
  | [] => true
  | field :: fields => isValidField field && areValidFields fields

def isValidField : String × JsValue → Bool
  | (_, .function _) => true
  | (_, value) => isValidArgument value

end

/-- A call with the callbacks it was given. -/
structure NativeCall (F : Type) where
  moduleID : Int
  methodID : Int
  params : List JsValue
  onFail : Option F := none
  onSucc : Option F := none

namespace NativeCall

variable {F : Type}

def hasCallback (call : NativeCall F) : Bool := call.onFail.isSome || call.onSucc.isSome

end NativeCall

inductive Thrown where
  /-- A field of `undefined` is read. -/
  | typeError
  | syncHookMissing
  | notUsableAsArgument
  | noCallbackFound (cbID : Int) (callID : Nat)
  | malformedCalls (error : MalformedCalls)
  /-- The native side fails after decoding. -/
  | nativeError

/-- The operators `<<` and `|` work on 32 bits and give a signed result. -/
def callbackID (callID : Nat) (isSuccess : Bool) : Int :=
  if isSuccess then (BitVec.ofNat 32 callID <<< 1 ||| 1#32).toInt
  else (BitVec.ofNat 32 callID <<< 1).toInt

/-- `cbID >>> 1`, where the operand is taken as an unsigned number. -/
def decodedCallID (cbID : Int) : Nat := (BitVec.ofInt 32 cbID >>> 1).toNat

def decodedIsSuccess (cbID : Int) : Bool := BitVec.ofInt 32 cbID &&& 1#32 != 0#32

def debugInfoLimit : Nat := 32

def minTimeBetweenFlushesMs : Int := 5

structure MessageQueue (F : Type) where
  queue : Queue := {}
  successCallbacks : AList (fun _ : Nat => Option F) := ∅
  failureCallbacks : AList (fun _ : Nat => Option F) := ∅
  callID : Nat := 0
  lastFlush : Int := 0
  debugInfo : AList (fun _ : Nat => Int × Int) := ∅
  remoteMethodTable : AList (fun _ : Int => List String) := ∅

namespace MessageQueue

variable {F : Type} (dev : Bool)

def recordDebugInfo (self : MessageQueue F) (call : NativeCall F) : MessageQueue F :=
  if dev then
    let debugInfo := self.debugInfo.insert self.callID (call.moduleID, call.methodID)
    { self with
      debugInfo :=
        if self.callID > debugInfoLimit then debugInfo.erase (self.callID - debugInfoLimit)
        else debugInfo }
  else self

variable (self : MessageQueue F) (callID : Nat)

/-- Reading `_remoteMethodTable[debug[0]][debug[1]]` of a call fails when its module
has no methods listed. -/
def debugLookupFails : Bool :=
  match self.debugInfo.lookup callID with
  | some debug => (self.remoteMethodTable.lookup debug.1).isNone
  | none => false

/-- The warning about pending callbacks looks all of them up. -/
def warningFails : Bool :=
  self.successCallbacks.entries.length > 500 &&
    self.successCallbacks.keys.any self.debugLookupFails

variable (call : NativeCall F)

/-- The identifiers that are pushed onto the parameters. -/
def pushedIDs : List JsValue :=
  (if call.onFail.isSome then [.integer (callbackID self.callID false)] else []) ++
    if call.onSucc.isSome then [.integer (callbackID self.callID true)] else []

def storeCallbacks : MessageQueue F :=
  { self with
    successCallbacks := self.successCallbacks.insert self.callID call.onSucc
    failureCallbacks := self.failureCallbacks.insert self.callID call.onFail }

def nextCallID : MessageQueue F := { self with callID := self.callID + 1 }

/-- The parameters come out with the identifiers pushed. -/
def processCallbacks (self : MessageQueue F) (call : NativeCall F) :
    MessageQueue F × Except Thrown (List JsValue) :=
  if call.hasCallback then
    let self := self.recordDebugInfo dev call
    if dev && self.warningFails then (self, .error .typeError)
    else ((self.storeCallbacks call).nextCallID, .ok (call.params ++ self.pushedIDs call))
  else (self.nextCallID, .ok call.params)

def swapQueue : MessageQueue F :=
  { self with queue := { callID := self.callID } }

def pushIDs : MessageQueue F :=
  { self with
    queue :=
      { self.queue with
        moduleIds := self.queue.moduleIds ++ [call.moduleID]
        methodIds := self.queue.methodIds ++ [call.methodID] } }

def pushParams (params : List JsValue) : MessageQueue F :=
  { self with queue := { self.queue with params := self.queue.params ++ [params] } }

structure Host where
  now : Int
  nativeFlushQueueImmediate : Option Bool

def nativeFlushQueueImmediate (dispatches : Bool) (queue : Queue) : Except Thrown Unit :=
  match parseMethodCalls queue.toDynamic with
  | .error error => .error (.malformedCalls error)
  | .ok _ => if dispatches then .ok () else .error .nativeError

/-- How a call of `enqueueNativeCall` ends: the queue that it handed to native, and
the parameters as they were queued. -/
structure Enqueued (F : Type) where
  self : MessageQueue F
  handed : Option Queue
  result : Except Thrown (List JsValue)

/-- The end of `enqueueNativeCall`: native gets the queue at once when the last
time is long enough ago. -/
def flushIfDue (host : Host) (params : List JsValue) : Enqueued F :=
  match host.nativeFlushQueueImmediate with
  | some dispatches =>
    if minTimeBetweenFlushesMs ≤ host.now - self.lastFlush then
      { self := { self.swapQueue with lastFlush := host.now }
        handed := some self.queue
        result := (nativeFlushQueueImmediate dispatches self.queue).map fun _ => params }
    else ⟨self, none, .ok params⟩
  | none => ⟨self, none, .ok params⟩

def enqueueNativeCall (self : MessageQueue F) (host : Host) (call : NativeCall F) : Enqueued F :=
  match self.processCallbacks dev call with
  | (self, .error thrown) => ⟨self, none, .error thrown⟩
  | (self, .ok params) =>
    let self := self.pushIDs call
    -- In development mode the parameters are checked between the pushes.
    if dev && !isValidArgument (.array params) then ⟨self, none, .error .notUsableAsArgument⟩
    else (self.pushParams params).flushIfDue host params

/-- The hook may be missing; what it does is native's business. -/
def callNativeSyncHook (dev hookInstalled : Bool) (self : MessageQueue F) (call : NativeCall F) :
    MessageQueue F × Except Thrown (List JsValue) :=
  if dev && !hookInstalled then (self, .error .syncHookMissing)
  else self.processCallbacks dev call

def createDebugLookup (moduleID : Int) (methods : List String) : MessageQueue F :=
  { self with remoteMethodTable := self.remoteMethodTable.insert moduleID methods }

/-- The function that a map holds for a call, if any. -/
def storedCallback (isSuccess : Bool) : Option F :=
  ((if isSuccess then self.successCallbacks else self.failureCallbacks).lookup callID).join

def deleteCallbacks : MessageQueue F :=
  { self with
    successCallbacks := self.successCallbacks.erase callID
    failureCallbacks := self.failureCallbacks.erase callID }

/-- `__invokeCallback` up to the call: the callback that is going to run, if any. -/
def invokeCallback (self : MessageQueue F) (now cbID : Int) :
    MessageQueue F × Except Thrown (Option F) :=
  let self := { self with lastFlush := now }
  let callID := decodedCallID cbID
  let callback := self.storedCallback callID (decodedIsSuccess cbID)
  if dev && self.debugLookupFails callID then (self, .error .typeError)
  else
    match callback with
    | none => (self, if dev then .error (.noCallbackFound cbID callID) else .ok none)
    | some callback => (self.deleteCallbacks callID, .ok (some callback))

end MessageQueue

/-- A method of the queue that waits for other code: for what it runs under its
guard before it flushes, or for the immediates. -/
inductive Frame where
  | guarded
  | immediates

structure Bridge (F : Type) where
  self : MessageQueue F := {}
  frames : List Frame := []
  handed : List Queue := []
  returned : List (Int × Int × List JsValue) := []
  /-- Each call that was counted, by its number, and its parameters as they came out. -/
  registered : List (NativeCall F × List JsValue) := []
  ran : List (Nat × Bool × F) := []

/-- What happens to the queue. User code ends with `leave`; an exception passes the
guard when the debugger or the handler of fatal errors lets it. -/
inductive BridgeEvent (F : Type) where
  | enqueueNativeCall (host : MessageQueue.Host) (call : NativeCall F)
  | callNativeSyncHook (hookInstalled : Bool) (call : NativeCall F)
  | createDebugLookup (moduleID : Int) (methods : List String)
  | callFunctionReturnFlushedQueue (now : Int)
  | invokeCallbackAndReturnFlushedQueue (now cbID : Int)
  | flushedQueue
  | leave (escapes : Bool)

namespace Bridge

variable {F : Type}

def register (state : Bridge F) (call : NativeCall F) (counted : Except Thrown (List JsValue)) :
    List (NativeCall F × List JsValue) :=
  match counted with
  | .ok params => state.registered ++ [(call, params)]
  | .error _ => state.registered

def enqueueNativeCall (dev : Bool) (state : Bridge F) (host : MessageQueue.Host)
    (call : NativeCall F) : Bridge F :=
  let outcome := state.self.enqueueNativeCall dev host call
  { state with
    self := outcome.self
    handed := state.handed ++ outcome.handed.toList
    returned :=
      match outcome.result with
      | .ok params => state.returned ++ [(call.moduleID, call.methodID, params)]
      | .error _ => state.returned
    registered := state.register call (state.self.processCallbacks dev call).2 }

def callNativeSyncHook (dev hookInstalled : Bool) (state : Bridge F) (call : NativeCall F) :
    Bridge F :=
  let (self, counted) := state.self.callNativeSyncHook dev hookInstalled call
  { state with self, registered := state.register call counted }

def invokeCallback (dev : Bool) (state : Bridge F) (now cbID : Int) : Bridge F :=
  let (self, outcome) := state.self.invokeCallback dev now cbID
  { state with
    self
    frames := .guarded :: state.frames
    ran :=
      match outcome with
      | .ok (some callback) =>
        state.ran ++ [(decodedCallID cbID, decodedIsSuccess cbID, callback)]
      | _ => state.ran }

/-- The end of `flushedQueue`; an empty queue is handed over as `null`. -/
def returnFlushedQueue (state : Bridge F) : Bridge F :=
  { state with
    self := state.self.swapQueue
    handed :=
      if state.self.queue.moduleIds.length ≠ 0 then state.handed ++ [state.self.queue]
      else state.handed }

def step (dev : Bool) (state : Bridge F) : BridgeEvent F → Option (Bridge F)
  | .enqueueNativeCall host call => some (state.enqueueNativeCall dev host call)
  | .callNativeSyncHook hookInstalled call =>
    some (state.callNativeSyncHook dev hookInstalled call)
  | .createDebugLookup moduleID methods =>
    some { state with self := state.self.createDebugLookup moduleID methods }
  | .callFunctionReturnFlushedQueue now =>
    some { state with
      self := { state.self with lastFlush := now }, frames := .guarded :: state.frames }
  | .invokeCallbackAndReturnFlushedQueue now cbID => some (state.invokeCallback dev now cbID)
  | .flushedQueue => some { state with frames := .immediates :: state.frames }
  | .leave escapes =>
    match state.frames with
    | [] => none
    | frame :: frames =>
      match escapes, frame with
      | true, _ => some { state with frames }
      | false, .guarded => some { state with frames := .immediates :: frames }
      | false, .immediates => some { state.returnFlushedQueue with frames }

end Bridge

end ReactNative

