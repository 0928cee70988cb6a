import Mathlib.Data.List.Nodup
import ReactNative.UIManager.UIViewOperationQueue

/-! Whatever the UI thread has executed or taken, followed by what is to be run, is one line, to
which only views are added elsewhere than at its end: those that a frame creates early. -/
namespace ReactNative

open List Option UIThreadState

def UIThreadState.taken : UIThreadState → List QueuedUIOperation
  | .dispatchPendingNonBatchedOperations next => next.toList
  | .runRunnables _ remaining => remaining
  | .idle | .flushPendingBatches _ | .reposting | .resuming | .pausing => []

/-- The UI thread is about to post the frame callback. -/
def UIThreadState.posts : UIThreadState → Bool
  | .dispatchPendingNonBatchedOperations _ | .flushPendingBatches .doFrame
  | .runRunnables .doFrame _ | .reposting | .resuming => true
  | .idle | .flushPendingBatches _ | .runRunnables _ _ | .pausing => false

/-- The UI thread is about to take all runnables. -/
def UIThreadState.flushes : UIThreadState → Bool
  | .dispatchPendingNonBatchedOperations _ | .flushPendingBatches _ | .pausing => true
  | .idle | .runRunnables _ _ | .reposting | .resuming => false

def NativeModulesThread.taken : NativeModulesThread → List QueuedUIOperation
  | .tookOperations batchedOperations => batchedOperations
  | .tookAll runnable => runnable.operations
  | .idle | .added | .posting => []

namespace UIViewOperationQueue

/-! ### Views are created first -/

/-- Every batched operation comes after all views that have been enqueued before it. -/
def CreatesFirst (enqueued : List QueuedUIOperation) :
    List QueuedUIOperation → List QueuedUIOperation → Prop
  | _, [] => True
  | before, operation :: rest =>
    (operation.isCreateView = false → ∀ view ∈ enqueued, view.isCreateView = true →
      view.order < operation.order → view ∈ before) ∧
      CreatesFirst enqueued (before ++ [operation]) rest

section

variable {enqueued before line rest : List QueuedUIOperation}

theorem CreatesFirst.mono {more : List QueuedUIOperation} (within : before ⊆ more)
    (created : CreatesFirst enqueued before line) : CreatesFirst enqueued more line := by
  induction line generalizing before more with
  | nil => trivial
  | cons _ line ih =>
    refine ⟨fun isBatched view member isView earlier =>
      within (created.1 isBatched view member isView earlier), ih ?_ created.2⟩
    exact append_subset.mpr
      ⟨fun _ member => mem_append_left _ (within member), subset_append_right _ _⟩

theorem createsFirst_append : CreatesFirst enqueued before (line ++ rest) ↔
    CreatesFirst enqueued before line ∧ CreatesFirst enqueued (before ++ line) rest := by
  induction line generalizing before with
  | nil => simp [CreatesFirst]
  | cons _ line ih =>
    rw [cons_append, CreatesFirst, CreatesFirst, ih, and_assoc, append_assoc]
    rfl

theorem createsFirst_of_views (views : ∀ operation ∈ line, operation.isCreateView = true) :
    CreatesFirst enqueued before line := by
  induction line generalizing before with
  | nil => trivial
  | cons operation line ih =>
    obtain ⟨isView, views⟩ := forall_mem_cons.mp views
    exact ⟨fun isBatched => absurd (isBatched.symm.trans isView) (by simp), ih views⟩

theorem createsFirst_of_batch (created : ∀ operation ∈ line, ∀ view ∈ enqueued,
    view.isCreateView = true → view.order < operation.order → view ∈ before) :
    CreatesFirst enqueued before line := by
  induction line generalizing before with
  | nil => trivial
  | cons operation line ih =>
    obtain ⟨here, later⟩ := forall_mem_cons.mp created
    refine ⟨fun _ => here, ih fun other member view isEnqueued isView earlier => ?_⟩
    exact mem_append_left _ (later other member view isEnqueued isView earlier)

theorem CreatesFirst.insert {view : QueuedUIOperation} (isView : view.isCreateView = true)
    (created : CreatesFirst enqueued before (line ++ rest)) :
    CreatesFirst enqueued before (line ++ view :: rest) := by
  obtain ⟨first, second⟩ := createsFirst_append.mp created
  refine createsFirst_append.mpr ⟨first, ?_, second.mono (subset_append_left _ _)⟩
  intro isBatched
  exact absurd (isBatched.symm.trans isView) (by simp)

theorem CreatesFirst.enqueue {view : QueuedUIOperation}
    (earlier : ∀ operation ∈ line, operation.order ≤ view.order)
    (created : CreatesFirst enqueued before line) :
    CreatesFirst (enqueued ++ [view]) before line := by
  induction line generalizing before with
  | nil => trivial
  | cons operation line ih =>
    obtain ⟨here, later⟩ := forall_mem_cons.mp earlier
    refine ⟨fun isBatched other member isView before => ?_, ih later created.2⟩
    obtain isOld | isNew := mem_append.mp member
    · exact created.1 isBatched other isOld isView before
    · rw [mem_singleton.mp isNew] at before
      exact absurd here (Nat.not_le_of_lt before)

end

/-! ### Where the operations are -/

structure Pipeline where
  line : List QueuedUIOperation
  nativeModulesThread : NativeModulesThread
  nonBatchedOperations : List QueuedUIOperation
  operations : List QueuedUIOperation
  enqueued : List QueuedUIOperation
  dispatched : List QueuedUIOperation

def BatchCreated (enqueued line nonBatchedOperations : List QueuedUIOperation) :
    NativeModulesThread → Prop
  | .tookOperations batchedOperations => ∀ operation ∈ batchedOperations, ∀ view ∈ enqueued,
      view.isCreateView = true → view.order < operation.order → view ∈ line ++ nonBatchedOperations
  | .tookAll runnable => CreatesFirst enqueued line runnable.operations
  | .idle | .added | .posting => True

structure Ordered (pipeline : Pipeline) : Prop where
  numbered : ∀ operation ∈ pipeline.enqueued, operation.order < pipeline.enqueued.length
  inOrder : pipeline.enqueued.Pairwise fun first second => first.order < second.order
  views : ∀ operation ∈ pipeline.nonBatchedOperations, operation.isCreateView = true
  batched : ∀ operation ∈ pipeline.operations, operation.isCreateView = false
  /-- Each operation is in one place. -/
  everything : ∀ operation, (pipeline.line ++ pipeline.nativeModulesThread.taken ++
    pipeline.nonBatchedOperations ++ pipeline.operations).count operation =
      pipeline.enqueued.count operation
  dispatched : (pipeline.line ++ pipeline.nativeModulesThread.taken).filter (!·.isCreateView) =
    pipeline.dispatched
  enqueued : pipeline.dispatched ++ pipeline.operations = pipeline.enqueued.filter (!·.isCreateView)
  created : CreatesFirst pipeline.enqueued [] pipeline.line
  batchCreated : BatchCreated pipeline.enqueued pipeline.line pipeline.nonBatchedOperations
    pipeline.nativeModulesThread

section

variable {pipeline : Pipeline}

section

variable (ordered : Ordered pipeline)
include ordered

theorem Ordered.mem_iff {operation : QueuedUIOperation} :
    operation ∈ pipeline.line ++ pipeline.nativeModulesThread.taken ++
      pipeline.nonBatchedOperations ++ pipeline.operations ↔ operation ∈ pipeline.enqueued := by
  rw [← count_pos_iff, ordered.everything, count_pos_iff]

theorem Ordered.poll {front back rest : List QueuedUIOperation} {view : QueuedUIOperation}
    (isLine : pipeline.line = front ++ back)
    (isNonBatched : pipeline.nonBatchedOperations = view :: rest) :
    Ordered { pipeline with
      line := front ++ view :: back
      nonBatchedOperations := rest } := by
  have isView : view.isCreateView = true := by
    apply ordered.views
    simp [isNonBatched]
  have created := ordered.created
  rw [isLine] at created
  refine ⟨ordered.numbered, ordered.inOrder, ?_, ordered.batched, ?_, ?_, ordered.enqueued,
    created.insert isView, ?_⟩
  · intro operation member
    apply ordered.views
    rw [isNonBatched]
    exact mem_cons_of_mem view member
  · intro operation
    have before := ordered.everything operation
    rw [isLine, isNonBatched] at before
    simp only [count_append, count_cons] at before ⊢
    omega
  · have before := ordered.dispatched
    rw [isLine] at before
    simpa [isView] using before
  · have before := ordered.batchCreated
    rw [isLine, isNonBatched] at before
    cases isThread : pipeline.nativeModulesThread with
    | tookOperations =>
      rw [isThread] at before
      intro operation member other isEnqueued isOther earlier
      have found := before operation member other isEnqueued isOther earlier
      simp only [mem_append, mem_cons] at found ⊢
      tauto
    | tookAll =>
      rw [isThread] at before
      refine CreatesFirst.mono ?_ before
      intro operation member
      simp only [mem_append, mem_cons] at member ⊢
      tauto
    | idle | added | posting => trivial

theorem Ordered.takeOperations (isIdle : pipeline.nativeModulesThread = .idle) :
    Ordered { pipeline with
      operations := []
      dispatched := pipeline.dispatched ++ pipeline.operations
      nativeModulesThread := .tookOperations pipeline.operations } := by
  have everything := ordered.everything
  have dispatched := ordered.dispatched
  rw [isIdle] at everything dispatched
  refine ⟨ordered.numbered, ordered.inOrder, ordered.views, nofun, ?_, ?_, ?_, ordered.created, ?_⟩
  · intro operation
    have before := everything operation
    simp only [NativeModulesThread.taken, count_append, count_nil] at before ⊢
    omega
  · have all : pipeline.operations.filter (!·.isCreateView) = pipeline.operations := by
      rw [filter_eq_self]
      intro operation member
      simp [ordered.batched operation member]
    rw [NativeModulesThread.taken, append_nil] at dispatched
    rw [NativeModulesThread.taken, filter_append, dispatched, all]
  · rw [append_nil]
    exact ordered.enqueued
  · intro operation member view isEnqueued isView earlier
    have found := ordered.mem_iff.mpr isEnqueued
    rw [isIdle, NativeModulesThread.taken, append_nil] at found
    refine (mem_append.mp found).resolve_right fun isOperation => ?_
    exact absurd (isView.symm.trans (ordered.batched view isOperation)) (by simp)

theorem Ordered.takeAll {batchedOperations : List QueuedUIOperation}
    (isThread : pipeline.nativeModulesThread = .tookOperations batchedOperations) :
    Ordered { pipeline with
      nonBatchedOperations := []
      nativeModulesThread := .tookAll ⟨pipeline.nonBatchedOperations, batchedOperations⟩ } := by
  have everything := ordered.everything
  have dispatched := ordered.dispatched
  have batchCreated := ordered.batchCreated
  rw [isThread] at everything dispatched batchCreated
  refine ⟨ordered.numbered, ordered.inOrder, nofun, ordered.batched, ?_, ?_, ordered.enqueued, ordered.created, ?_⟩
  · intro operation
    have before := everything operation
    simp only [NativeModulesThread.taken, RunOperations.operations, count_append,
      count_nil] at before ⊢
    omega
  · have none : pipeline.nonBatchedOperations.filter (!·.isCreateView) = [] := by
      rw [filter_eq_nil_iff]
      intro operation member
      simp [ordered.views operation member]
    rw [NativeModulesThread.taken, filter_append] at dispatched
    rw [NativeModulesThread.taken, RunOperations.operations, filter_append,
      filter_append, none, nil_append, dispatched]
  · exact createsFirst_append.mpr
      ⟨createsFirst_of_views ordered.views, createsFirst_of_batch batchCreated⟩

theorem Ordered.addRunnable {runnable : RunOperations}
    (isThread : pipeline.nativeModulesThread = .tookAll runnable) :
    Ordered { pipeline with
      line := pipeline.line ++ runnable.operations
      nativeModulesThread := .added } := by
  have everything := ordered.everything
  have dispatched := ordered.dispatched
  have batchCreated := ordered.batchCreated
  rw [isThread] at everything dispatched batchCreated
  refine ⟨ordered.numbered, ordered.inOrder, ordered.views, ordered.batched, ?_, ?_,
    ordered.enqueued, createsFirst_append.mpr ⟨ordered.created, batchCreated⟩, trivial⟩
  · intro operation
    have before := everything operation
    simp only [NativeModulesThread.taken, count_append, count_nil] at before ⊢
    omega
  · rw [NativeModulesThread.taken, append_nil]
    exact dispatched

theorem Ordered.endDispatch {thread : NativeModulesThread}
    (before : pipeline.nativeModulesThread = .added ∨ pipeline.nativeModulesThread = .posting)
    (after : thread = .idle ∨ thread = .posting) :
    Ordered { pipeline with nativeModulesThread := thread } := by
  have nothingBefore : pipeline.nativeModulesThread.taken = [] := by
    obtain same | same := before <;> rw [same] <;> rfl
  have nothingAfter : thread.taken = [] := by
    obtain rfl | rfl := after <;> rfl
  have everything := ordered.everything
  have dispatched := ordered.dispatched
  rw [nothingBefore, ← nothingAfter] at everything dispatched
  refine ⟨ordered.numbered, ordered.inOrder, ordered.views, ordered.batched, everything,
    dispatched, ordered.enqueued, ordered.created, ?_⟩
  obtain rfl | rfl := after <;> trivial

theorem Ordered.order_le {operation : QueuedUIOperation} (member : operation ∈ pipeline.enqueued) :
    operation.order ≤ pipeline.enqueued.length :=
  Nat.le_of_lt (ordered.numbered operation member)

theorem Ordered.enqueue {isCreateView : Bool}
    {nonBatchedOperations operations : List QueuedUIOperation}
    (isIdle : pipeline.nativeModulesThread = .idle) (added : if isCreateView then
        nonBatchedOperations =
          pipeline.nonBatchedOperations ++ [⟨pipeline.enqueued.length, isCreateView⟩] ∧
            operations = pipeline.operations
      else nonBatchedOperations = pipeline.nonBatchedOperations ∧ operations =
        pipeline.operations ++ [⟨pipeline.enqueued.length, isCreateView⟩]) :
    Ordered { pipeline with
      nonBatchedOperations := nonBatchedOperations
      operations := operations
      enqueued := pipeline.enqueued ++ [⟨pipeline.enqueued.length, isCreateView⟩] } := by
  have inLine : ∀ operation ∈ pipeline.line, operation.order ≤ pipeline.enqueued.length := by
    intro operation member
    exact ordered.order_le (ordered.mem_iff.mp (by simp [member]))
  refine ⟨?_, ?_, ?_, ?_, ?_, ordered.dispatched, ?_, ordered.created.enqueue inLine, ?_⟩
  · intro operation member
    rw [length_append, length_singleton]
    obtain isOld | isNew := mem_append.mp member
    · have := ordered.numbered operation isOld
      omega
    · rw [mem_singleton.mp isNew]
      exact Nat.lt_succ_self _
  · refine pairwise_append.mpr ⟨ordered.inOrder, pairwise_singleton _ _, ?_⟩
    intro operation isOld other isNew
    rw [mem_singleton.mp isNew]
    exact ordered.numbered operation isOld
  · cases isCreateView <;> obtain ⟨rfl, rfl⟩ := added
    · exact ordered.views
    · exact forall_mem_append.mpr ⟨ordered.views, by simp⟩
  · cases isCreateView <;> obtain ⟨rfl, rfl⟩ := added
    · exact forall_mem_append.mpr ⟨ordered.batched, by simp⟩
    · exact ordered.batched
  · intro operation
    have before := ordered.everything operation
    cases isCreateView <;>
    · obtain ⟨rfl, rfl⟩ := added
      simp only [count_append] at before ⊢
      omega
  · cases isCreateView with
    | true =>
      obtain ⟨rfl, rfl⟩ := added
      simpa using ordered.enqueued
    | false =>
      obtain ⟨rfl, rfl⟩ := added
      have before := ordered.enqueued
      rw [filter_append, ← before, append_assoc]
      rfl
  · rw [isIdle]
    trivial

end

end

/-! ### Steps -/

variable {queue after : UIViewOperationQueue}

/-- What is executed, then what the UI thread has taken, then what is to be run. -/
def line (queue : UIViewOperationQueue) : List QueuedUIOperation :=
  queue.executed ++ queue.uiThread.taken ++
    queue.dispatchUIRunnables.flatMap RunOperations.operations

def pipeline (queue : UIViewOperationQueue) : Pipeline where
  line := queue.line
  nativeModulesThread := queue.nativeModulesThread
  nonBatchedOperations := queue.nonBatchedOperations
  operations := queue.operations
  enqueued := queue.enqueued
  dispatched := queue.dispatched

theorem ordered_nativeModulesNext (ordered : Ordered queue.pipeline)
    (stepped : queue.nativeModulesNext = some after) : Ordered after.pipeline := by
  rw [nativeModulesNext] at stepped
  split at stepped
  next => cases stepped
  next batchedOperations isThread =>
    cases stepped
    exact ordered.takeAll isThread
  next runnable isThread =>
    cases stepped
    have added := ordered.addRunnable isThread
    simpa [pipeline, line, append_assoc] using added
  next isThread =>
    cases stepped
    refine ordered.endDispatch (Or.inl isThread) ?_
    split
    next => exact Or.inl rfl
    next => exact Or.inr rfl
  next isThread =>
    cases stepped
    exact ordered.endDispatch (Or.inr isThread) (Or.inl rfl)

theorem ordered_uiNext {timeLeft : Bool} (ordered : Ordered queue.pipeline)
    (stepped : queue.uiNext timeLeft = some after) : Ordered after.pipeline := by
  have same : ∀ {other : UIViewOperationQueue}, other.pipeline = queue.pipeline →
      Ordered other.pipeline := fun same => same ▸ ordered
  unfold uiNext at stepped
  split at stepped
  next => cases stepped
  next view isThread =>
    cases stepped
    exact same (by simp [pipeline, line, isThread, taken])
  next isThread =>
    split at stepped
    next view rest isNonBatched =>
      cases stepped
      have isLine : queue.pipeline.line = queue.executed ++
          queue.dispatchUIRunnables.flatMap RunOperations.operations := by
        simp [pipeline, line, isThread, taken]
      have polled := ordered.poll isLine isNonBatched
      rw [pipeline, line]
      simpa [pipeline, taken] using polled
    next =>
      cases stepped
      exact same (by simp [pipeline, line, isThread, taken])
  next caller isThread =>
    split at stepped
    next =>
      cases stepped
      cases caller with
      | doFrame | pauseFrameCallback | posted =>
        exact same (by simp [pipeline, line, isThread, taken, FlushCaller.flushed])
    next =>
      cases stepped
      exact same (by simp [pipeline, line, isThread, taken])
  next caller isThread =>
    cases stepped
    cases caller with
    | doFrame | pauseFrameCallback | posted =>
      exact same (by simp [pipeline, line, isThread, taken, FlushCaller.flushed])
  all_goals
    next isThread =>
      cases stepped
      exact same (by simp [pipeline, line, isThread, taken])

theorem ordered_step {action : QueueAction} (ordered : Ordered queue.pipeline)
    (stepped : queue.step action = some after) : Ordered after.pipeline := by
  have started : ∀ {other : UIViewOperationQueue}, other.pipeline = queue.pipeline →
      Ordered other.pipeline := fun same => same ▸ ordered
  cases action with
  | enqueueCreateView | enqueueUIOperation =>
    obtain ⟨isIdle, same⟩ := ite_none_right_eq_some.mp stepped
    cases same
    exact ordered.enqueue isIdle ⟨rfl, rfl⟩
  | dispatchViewUpdates =>
    obtain ⟨isIdle, same⟩ := ite_none_right_eq_some.mp stepped
    cases same
    exact ordered.takeOperations isIdle
  | nativeModulesNext => exact ordered_nativeModulesNext ordered stepped
  | doFrame | runPosted =>
    obtain ⟨⟨isIdle, -⟩, same⟩ := ite_none_right_eq_some.mp stepped
    cases same
    exact started (by rw [pipeline, pipeline, line, line, isIdle]; rfl)
  | resumeFrameCallback | pauseFrameCallback =>
    obtain ⟨isIdle, same⟩ := ite_none_right_eq_some.mp stepped
    cases same
    exact started (by rw [pipeline, pipeline, line, line, isIdle]; rfl)
  | uiNext => exact ordered_uiNext ordered stepped

theorem ordered_init : Ordered ({} : UIViewOperationQueue).pipeline :=
  ⟨nofun, .nil, nofun, nofun, fun _ => rfl, rfl, rfl, trivial, trivial⟩

/-! ### Batches are not stranded -/

/-- The frame callback is posted, a flush is posted, or a thread is about to flush or to post. -/
def Served (queue : UIViewOperationQueue) : Prop :=
  0 < queue.frameCallbacks ∨ 0 < queue.flushes ∨ queue.uiThread.posts = true ∨
    queue.uiThread.flushes = true ∨ queue.nativeModulesThread = .posting ∨
      (queue.nativeModulesThread = .added ∧ queue.isDispatchUIFrameCallbackEnqueued = false)

structure Attended (queue : UIViewOperationQueue) : Prop where
  callback : queue.isDispatchUIFrameCallbackEnqueued = true →
    0 < queue.frameCallbacks ∨ queue.uiThread.posts = true
  served : queue.dispatchUIRunnables ≠ [] → queue.Served
  paused : queue.uiThread = .pausing → queue.isDispatchUIFrameCallbackEnqueued = false

theorem Attended.served_of_enqueued (attended : Attended queue)
    (isEnqueued : queue.isDispatchUIFrameCallbackEnqueued = true) : queue.Served := by
  obtain posted | posts := attended.callback isEnqueued
  · exact Or.inl posted
  · exact Or.inr (Or.inr (Or.inl posts))

theorem attended_nativeModulesNext (attended : Attended queue)
    (stepped : queue.nativeModulesNext = some after) : Attended after := by
  rw [nativeModulesNext] at stepped
  split at stepped
  next => cases stepped
  next batchedOperations isThread =>
    cases stepped
    refine ⟨attended.callback, fun some => ?_, attended.paused⟩
    have served := attended.served some
    simpa [Served, isThread] using served
  next runnable isThread =>
    cases stepped
    refine ⟨attended.callback, fun _ => ?_, attended.paused⟩
    -- Whoever adds reads the flag afterwards.
    cases flag : queue.isDispatchUIFrameCallbackEnqueued with
    | true =>
      have served := attended.served_of_enqueued flag
      simp only [Served, isThread] at served ⊢
      tauto
    | false => simp [Served]
  next isThread =>
    cases stepped
    refine ⟨attended.callback, fun some => ?_, attended.paused⟩
    cases flag : queue.isDispatchUIFrameCallbackEnqueued with
    | true =>
      have served := attended.served_of_enqueued flag
      simpa [Served, isThread, flag] using served
    | false => simp [Served]
  next isThread =>
    cases stepped
    exact ⟨attended.callback, fun _ => Or.inr (Or.inl (Nat.succ_pos _)), attended.paused⟩

theorem attended_of_posts (posts : queue.uiThread.posts = true) : Attended queue := by
  refine ⟨fun _ => Or.inr posts, fun _ => Or.inr (Or.inr (Or.inl posts)), fun pausing => ?_⟩
  rw [pausing] at posts
  cases posts

theorem Attended.goOn {uiThread : UIThreadState} {runnables : List RunOperations}
    {executed : List QueuedUIOperation} (attended : Attended queue)
    (notPosting : queue.uiThread.posts = false) (notPausing : uiThread ≠ .pausing)
    (isServed : runnables ≠ [] → queue.dispatchUIRunnables = runnables ∧
      queue.uiThread.flushes = false) :
    Attended { queue with
      uiThread := uiThread
      dispatchUIRunnables := runnables
      executed := executed } := by
  refine ⟨fun flag => ?_, fun some => ?_, fun pausing => absurd pausing notPausing⟩
  · exact (attended.callback flag).imp_right fun posts => absurd (notPosting.symm.trans posts)
      (by simp)
  · obtain ⟨rfl, notFlushing⟩ := isServed some
    have served := attended.served some
    simp only [Served, notPosting, notFlushing] at served ⊢
    tauto

theorem attended_uiNext {timeLeft : Bool} (attended : Attended queue)
    (stepped : queue.uiNext timeLeft = some after) : Attended after := by
  unfold uiNext at stepped
  split at stepped
  next => cases stepped
  next view isThread =>
    cases stepped
    exact attended_of_posts rfl
  next isThread =>
    split at stepped
    all_goals
      cases stepped
      exact attended_of_posts rfl
  next caller isThread =>
    -- Flushing takes all that has been added.
    split at stepped
    next isEmpty =>
      cases stepped
      cases caller with
      | doFrame => exact attended_of_posts rfl
      | pauseFrameCallback | posted =>
        exact attended.goOn (by rw [isThread]; rfl) (by simp [FlushCaller.flushed])
          (fun some => absurd isEmpty some)
    next =>
      cases stepped
      cases caller with
      | doFrame => exact attended_of_posts rfl
      | pauseFrameCallback | posted =>
        exact attended.goOn (by rw [isThread]; rfl) (by simp) (fun some => absurd rfl some)
  next caller isThread =>
    cases stepped
    cases caller with
    | doFrame => exact attended_of_posts rfl
    | pauseFrameCallback | posted =>
      exact attended.goOn (by rw [isThread]; rfl) (by simp [FlushCaller.flushed])
        (fun _ => ⟨rfl, by rw [isThread]; rfl⟩)
  next caller operation remaining isThread =>
    cases stepped
    cases caller with
    | doFrame => exact attended_of_posts rfl
    | pauseFrameCallback | posted =>
      exact attended.goOn (by rw [isThread]; rfl) (by simp)
        (fun _ => ⟨rfl, by rw [isThread]; rfl⟩)
  iterate 2
    next =>
      cases stepped
      exact ⟨fun _ => .inl (Nat.succ_pos _), fun _ => .inl (Nat.succ_pos _), nofun⟩
  next isThread =>
    cases stepped
    have notEnqueued := attended.paused isThread
    refine ⟨fun flag => absurd (notEnqueued.symm.trans flag) (by simp),
      fun _ => by simp [Served, UIThreadState.flushes], nofun⟩

theorem attended_step {action : QueueAction} (attended : Attended queue)
    (stepped : queue.step action = some after) : Attended after := by
  cases action with
  | enqueueCreateView | enqueueUIOperation =>
    obtain ⟨-, same⟩ := ite_none_right_eq_some.mp stepped
    cases same
    exact ⟨attended.callback, attended.served, attended.paused⟩
  | dispatchViewUpdates =>
    obtain ⟨isIdle, same⟩ := ite_none_right_eq_some.mp stepped
    cases same
    refine ⟨attended.callback, fun some => ?_, attended.paused⟩
    have served := attended.served some
    simpa [Served, isIdle, dispatchViewUpdates] using served
  | nativeModulesNext => exact attended_nativeModulesNext attended stepped
  | doFrame | resumeFrameCallback =>
    obtain ⟨-, same⟩ := ite_none_right_eq_some.mp stepped
    cases same
    exact attended_of_posts rfl
  | pauseFrameCallback =>
    obtain ⟨-, same⟩ := ite_none_right_eq_some.mp stepped
    cases same
    refine ⟨nofun, fun _ => ?_, fun _ => rfl⟩
    simp [Served, UIViewOperationQueue.pauseFrameCallback, UIThreadState.flushes]
  | runPosted =>
    obtain ⟨⟨isIdle, -⟩, same⟩ := ite_none_right_eq_some.mp stepped
    cases same
    refine ⟨fun flag => ?_, fun _ => ?_, nofun⟩
    · have callback := attended.callback flag
      simpa [isIdle, posts, UIViewOperationQueue.runPosted] using callback
    · simp [Served, UIViewOperationQueue.runPosted, UIThreadState.flushes]
  | uiNext => exact attended_uiNext attended stepped

/-! ### Runs -/

/-- What holds of a queue in every state: no operation has been executed twice; the batched ones
have been executed in the order in which they have been enqueued, and dispatched, each after the
views that have been enqueued before it; and what is to be run will be. -/
structure Correct (queue : UIViewOperationQueue) : Prop where
  once : queue.executed.Nodup
  executed : queue.executed.filter (!·.isCreateView) <+: queue.dispatched
  dispatched : queue.dispatched <+: queue.enqueued.filter (!·.isCreateView)
  created : ∀ before operation rest, queue.executed = before ++ operation :: rest →
    operation.isCreateView = false → ∀ earlier view later,
      queue.enqueued = earlier ++ view :: later → operation ∈ later →
        view.isCreateView = true → view ∈ before
  served : queue.dispatchUIRunnables ≠ [] → queue.Served

theorem Ordered.nodup_executed (ordered : Ordered queue.pipeline) : queue.executed.Nodup := by
  have nodup : queue.enqueued.Nodup := ordered.inOrder.imp fun less same => by
    rw [same] at less
    exact Nat.lt_irrefl _ less
  rw [nodup_iff_count_le_one]
  intro operation
  refine Nat.le_trans ?_ (nodup_iff_count_le_one.mp nodup operation)
  have everything := ordered.everything operation
  simp only [pipeline, line, count_append] at everything
  omega

theorem correct_of_ordered (ordered : Ordered queue.pipeline) (attended : Attended queue) :
    Correct queue where
  once := ordered.nodup_executed
  executed := by
    have dispatched := ordered.dispatched
    simp only [pipeline, line, append_assoc, filter_append] at dispatched
    exact ⟨_, dispatched⟩
  dispatched := by
    exact ⟨_, ordered.enqueued⟩
  created := by
    intro before operation rest isExecuted isBatched earlier view later isEnqueued isLater isView
    have created := ordered.created
    simp only [pipeline, line, isExecuted, append_assoc, cons_append] at created
    have here := (createsFirst_append.mp created).2.1
    have inOrder := ordered.inOrder
    simp only [pipeline, isEnqueued] at inOrder here
    have isEarlier := (pairwise_cons.mp (pairwise_append.mp inOrder).2.1).1 operation
      isLater
    simpa using here isBatched view (by simp) isView isEarlier
  served := attended.served

/-- **UI operations run once, in order, and are never stranded**, however the threads interleave. -/
theorem correct_of_run {actions : List QueueAction} {final : UIViewOperationQueue}
    (ran : Runs.run step {} actions = some final) : Correct final := by
  have keeps : ∀ queue action after, Ordered queue.pipeline ∧ Attended queue → True →
      step queue action = some after → Ordered after.pipeline ∧ Attended after := by
    rintro queue action after ⟨ordered, attended⟩ - stepped
    exact ⟨ordered_step ordered stepped, attended_step attended stepped⟩
  have attended : Attended {} := ⟨nofun, fun some => absurd rfl some, nofun⟩
  have free : Runs.Along step (fun _ _ => True) {} actions :=
    Runs.along_of_forall (fun _ _ => trivial) _
  obtain ⟨ordered, isAttended⟩ := Runs.run_induction keeps ⟨ordered_init, attended⟩ free ran
  exact correct_of_ordered ordered isAttended

def earlyView : List QueueAction :=
  [.enqueueCreateView, .enqueueUIOperation, .resumeFrameCallback, .dispatchViewUpdates,
    .uiNext false, .doFrame, .uiNext true, .nativeModulesNext, .nativeModulesNext, .uiNext true,
    .nativeModulesNext]

theorem correct_of_earlyView :
    ∃ final, Runs.run step {} earlyView = some final ∧ Correct final := by
  have ends : (Runs.run step {} earlyView).isSome = true := by decide
  obtain ⟨final, ran⟩ := isSome_iff_exists.mp ends
  exact ⟨final, ran, correct_of_run ran⟩

end UIViewOperationQueue

end ReactNative

