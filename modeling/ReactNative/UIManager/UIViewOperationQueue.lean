import ReactNative.Foundation.Runs

/-! The native modules thread enqueues operations and dispatches them in batches; the UI thread
executes them, in frames as long as the frame callback is posted, and in flushes that are posted for
it. -/
namespace ReactNative

structure QueuedUIOperation where
  order : ℕ
  isCreateView : Bool
  deriving DecidableEq

/-- The runnable of a batch. -/
structure RunOperations where
  nonBatchedOperations : List QueuedUIOperation
  batchedOperations : List QueuedUIOperation
  deriving DecidableEq

/-- All operations that are not batched are executed before the others. -/
def RunOperations.operations (runnable : RunOperations) : List QueuedUIOperation :=
  runnable.nonBatchedOperations ++ runnable.batchedOperations

/-- Where the native modules thread is in `dispatchViewUpdates`. -/
inductive NativeModulesThread where
  | idle
  | tookOperations (batchedOperations : List QueuedUIOperation)
  | tookAll (runnable : RunOperations)
  | added
  /-- It has read that the frame callback is not enqueued. -/
  | posting
  deriving DecidableEq

inductive FlushCaller where
  | doFrame
  | pauseFrameCallback
  | posted
  deriving DecidableEq

inductive UIThreadState where
  | idle
  | dispatchPendingNonBatchedOperations (next : Option QueuedUIOperation)
  | flushPendingBatches (caller : FlushCaller)
  | runRunnables (caller : FlushCaller) (remaining : List QueuedUIOperation)
  | reposting
  | resuming
  | pausing
  deriving DecidableEq

/-- After the pending batches have been flushed. A frame posts the callback again. -/
def FlushCaller.flushed : FlushCaller → UIThreadState
  | .doFrame => .reposting
  | .pauseFrameCallback | .posted => .idle

structure UIViewOperationQueue where
  operations : List QueuedUIOperation := []
  nonBatchedOperations : List QueuedUIOperation := []
  dispatchUIRunnables : List RunOperations := []
  isDispatchUIFrameCallbackEnqueued : Bool := false
  frameCallbacks : ℕ := 0
  flushes : ℕ := 0
  nativeModulesThread : NativeModulesThread := .idle
  uiThread : UIThreadState := .idle
  enqueued : List QueuedUIOperation := []
  /-- The batched operations that have been taken to be dispatched. -/
  dispatched : List QueuedUIOperation := []
  executed : List QueuedUIOperation := []

inductive QueueAction where
  | enqueueCreateView
  | enqueueUIOperation
  | dispatchViewUpdates
  | nativeModulesNext
  | doFrame
  | resumeFrameCallback
  | pauseFrameCallback
  | runPosted
  /-- The time that is left matters only for a frame. -/
  | uiNext (timeLeft : Bool)

namespace UIViewOperationQueue

/-! ### The native modules thread -/

variable (queue : UIViewOperationQueue)

def enqueueCreateView : UIViewOperationQueue :=
  { queue with
    nonBatchedOperations := queue.nonBatchedOperations ++ [⟨queue.enqueued.length, true⟩]
    enqueued := queue.enqueued ++ [⟨queue.enqueued.length, true⟩] }

def enqueueUIOperation : UIViewOperationQueue :=
  { queue with
    operations := queue.operations ++ [⟨queue.enqueued.length, false⟩]
    enqueued := queue.enqueued ++ [⟨queue.enqueued.length, false⟩] }

/-- The first thing that it does is to take the batched operations. -/
def dispatchViewUpdates : UIViewOperationQueue :=
  { queue with
    operations := []
    dispatched := queue.dispatched ++ queue.operations
    nativeModulesThread := .tookOperations queue.operations }

def nativeModulesNext : Option UIViewOperationQueue :=
  match queue.nativeModulesThread with
  | .idle => none
  | .tookOperations batchedOperations => some { queue with
      nonBatchedOperations := []
      nativeModulesThread := .tookAll ⟨queue.nonBatchedOperations, batchedOperations⟩ }
  | .tookAll runnable => some { queue with
      dispatchUIRunnables := queue.dispatchUIRunnables ++ [runnable]
      nativeModulesThread := .added }
  | .added => some { queue with
      nativeModulesThread := if queue.isDispatchUIFrameCallbackEnqueued then .idle else .posting }
  | .posting => some { queue with
      flushes := queue.flushes + 1
      nativeModulesThread := .idle }

/-! ### The UI thread -/

/-- The choreographer takes the callback out before it calls it. -/
def doFrame : UIViewOperationQueue :=
  { queue with
    frameCallbacks := queue.frameCallbacks - 1
    uiThread := .dispatchPendingNonBatchedOperations none }

def resumeFrameCallback : UIViewOperationQueue :=
  { queue with
    isDispatchUIFrameCallbackEnqueued := true
    uiThread := .resuming }

def pauseFrameCallback : UIViewOperationQueue :=
  { queue with
    isDispatchUIFrameCallbackEnqueued := false
    uiThread := .pausing }

def runPosted : UIViewOperationQueue :=
  { queue with
    flushes := queue.flushes - 1
    uiThread := .flushPendingBatches .posted }

def uiNext (timeLeft : Bool) (queue : UIViewOperationQueue) : Option UIViewOperationQueue :=
  match queue.uiThread with
  | .idle => none
  | .dispatchPendingNonBatchedOperations (some next) => some { queue with
      executed := queue.executed ++ [next]
      uiThread := .dispatchPendingNonBatchedOperations none }
  | .dispatchPendingNonBatchedOperations none =>
    match timeLeft, queue.nonBatchedOperations with
    | true, next :: rest => some { queue with
        nonBatchedOperations := rest
        uiThread := .dispatchPendingNonBatchedOperations (some next) }
    | _, _ => some { queue with uiThread := .flushPendingBatches .doFrame }
  | .flushPendingBatches caller =>
    match queue.dispatchUIRunnables with
    | [] => some { queue with uiThread := caller.flushed }
    | runnables => some { queue with
        dispatchUIRunnables := []
        uiThread := .runRunnables caller (runnables.flatMap RunOperations.operations) }
  | .runRunnables caller [] => some { queue with uiThread := caller.flushed }
  | .runRunnables caller (next :: remaining) => some { queue with
      executed := queue.executed ++ [next]
      uiThread := .runRunnables caller remaining }
  | .reposting | .resuming => some { queue with
      frameCallbacks := queue.frameCallbacks + 1
      uiThread := .idle }
  -- The first occurrence of the callback is removed, if there is one.
  | .pausing => some { queue with
      frameCallbacks := queue.frameCallbacks - 1
      uiThread := .flushPendingBatches .pauseFrameCallback }

def step : QueueAction → Option UIViewOperationQueue
  | .enqueueCreateView =>
    if queue.nativeModulesThread = .idle then some queue.enqueueCreateView else none
  | .enqueueUIOperation =>
    if queue.nativeModulesThread = .idle then some queue.enqueueUIOperation else none
  | .dispatchViewUpdates =>
    if queue.nativeModulesThread = .idle then some queue.dispatchViewUpdates else none
  | .nativeModulesNext => queue.nativeModulesNext
  | .doFrame =>
    if queue.uiThread = .idle ∧ 0 < queue.frameCallbacks then some queue.doFrame else none
  | .resumeFrameCallback => if queue.uiThread = .idle then some queue.resumeFrameCallback else none
  | .pauseFrameCallback => if queue.uiThread = .idle then some queue.pauseFrameCallback else none
  | .runPosted =>
    if queue.uiThread = .idle ∧ 0 < queue.flushes then some queue.runPosted else none
  | .uiNext timeLeft => queue.uiNext timeLeft

end UIViewOperationQueue

end ReactNative

