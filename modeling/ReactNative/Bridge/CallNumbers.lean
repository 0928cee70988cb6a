import ReactNative.Bridge.BridgeCorrectness

/-! JS counts every call. Native gets the number of the first call of a queue and counts the entries
from there, in 32 bits. -/
namespace ReactNative

open Runs List MessageQueue

variable {F : Type} {dev : Bool}

/-! ### What native counts -/

def Queue.callIds (queue : Queue) : List Int :=
  match parseMethodCalls queue.toDynamic with
  | .ok calls => calls.map MethodCall.callId
  | .error _ => []

theorem Queue.callIds_aligned {queue : Queue} (aligned : queue.Aligned) :
    queue.callIds = List.iterate nextCallId (toInt32 queue.callID) queue.moduleIds.length := by
  obtain ⟨calls, parsed, triples, numbered⟩ := parseMethodCalls_aligned aligned
  have length : calls.length = queue.moduleIds.length := by
    simpa [Queue.calls, aligned.1, aligned.2] using congrArg List.length triples
  rw [Queue.callIds, parsed, ← length]
  exact numbered

@[simp]
theorem Queue.callIds_empty (callID : Nat) : Queue.callIds { callID } = [] := by
  rfl

theorem toInt32_eq (value : Int) : toInt32 value = value.bmod (2 ^ 32) := BitVec.toInt_ofInt value

theorem toInt32_succ (value : Int) : toInt32 (toInt32 value + 1) = toInt32 (value + 1) := by
  simp only [toInt32_eq]
  exact Int.bmod_add_bmod

theorem iterate_nextCallId (start count : Nat) : nextCallId^[count] (toInt32 start) = -1 ∨
      nextCallId^[count] (toInt32 start) = toInt32 (start + count : Nat) := by
  induction count with
  | zero => exact .inr rfl
  | succ count ih =>
    rw [Function.iterate_succ_apply']
    obtain stuck | counted := ih
    · left
      rw [stuck]
      rfl
    · rw [counted, nextCallId]
      split
      · right
        rw [toInt32_succ]
        rfl
      · next stuck => exact .inl (not_not.mp stuck)

theorem iterate_nextCallId_eq_iff (start count skipped : Nat) :
    nextCallId^[count] (toInt32 start) = (start + count + skipped : Nat) ↔
      skipped = 0 ∧ start + count + skipped < 2 ^ 31 := by
  have bounded := @Int.bmod_lt (start + count : Nat) (2 ^ 32) (by decide)
  constructor
  · intro same
    obtain stuck | counted := iterate_nextCallId start count
    · omega
    · rw [counted, toInt32_eq] at same
      have small : start + count + skipped < 2 ^ 31 := by omega
      rw [Int.bmod_eq_of_le (by omega) (by omega)] at same
      omega
  · rintro ⟨rfl, small⟩
    induction count with
    | zero =>
      rw [Function.iterate_zero_apply, toInt32_eq]
      exact Int.bmod_eq_of_le (by omega) (by omega)
    | succ count ih =>
      have before := ih (Int.bmod_lt (by decide)) (by omega)
      rw [Function.iterate_succ_apply', before, nextCallId, if_pos (by omega), toInt32_eq]
      exact Int.bmod_eq_of_le (by omega) (by omega)

/-! ### What JS counts -/

/-- The bridge, and the numbers that JS gave the calls with an entry. -/
structure Numbered (F : Type) where
  bridge : Bridge F := {}
  numbers : List Int := []
  flushed : List (List Int) := []
  /-- The calls that were counted without an entry since the queue was last swapped. -/
  synchronous : Nat := 0

namespace Numbered

def enqueueNativeCall (dev : Bool) (state : Numbered F) (host : MessageQueue.Host)
    (call : NativeCall F) (bridge : Bridge F) : Numbered F :=
  let numbers := state.numbers ++ [(state.bridge.self.callID : Int)]
  match (state.bridge.self.enqueueNativeCall dev host call).handed with
  | some _ => { bridge, flushed := state.flushed ++ [numbers] }
  | none => { state with bridge, numbers }

variable (state : Numbered F)

def returnFlushedQueue (bridge : Bridge F) : Numbered F :=
  { bridge
    flushed :=
      if state.bridge.self.queue.moduleIds.length ≠ 0 then state.flushed ++ [state.numbers]
      else state.flushed }

def step (dev : Bool) (state : Numbered F) (event : BridgeEvent F) : Option (Numbered F) :=
  (state.bridge.step dev event).map fun bridge =>
    match event, state.bridge.frames with
    | .enqueueNativeCall host call, _ => state.enqueueNativeCall dev host call bridge
    | .callNativeSyncHook _ _, _ => { state with bridge, synchronous := state.synchronous + 1 }
    | .leave false, .immediates :: _ => state.returnFlushedQueue bridge
    | _, _ => { state with bridge }

def Returns (dev : Bool) (state : Numbered F) : BridgeEvent F → Prop
  | .enqueueNativeCall host call =>
    ∃ params, (state.bridge.self.enqueueNativeCall dev host call).result = .ok params
  | .callNativeSyncHook hookInstalled call =>
    ∃ params, (state.bridge.self.callNativeSyncHook dev hookInstalled call).2 = .ok params
  | _ => True

/-- Native gives the calls of every queue it received the numbers that JS gave them. -/
def Agrees : Prop := state.bridge.handed.map Queue.callIds = state.flushed

/-- Nothing is queued after a synchronous call before the queue is swapped, and the numbers are
below `2 ^ 31`. -/
def Unshifted : BridgeEvent F → Prop
  | .enqueueNativeCall _ _ => state.synchronous = 0 ∧ state.bridge.self.callID < 2 ^ 31
  | _ => True

/-- The entries in the queue are those that were numbered. -/
structure Counts : Prop where
  aligned : state.bridge.self.queue.Aligned
  entries : state.numbers.length = state.bridge.self.queue.moduleIds.length
  counted : state.bridge.self.callID =
    state.bridge.self.queue.callID + state.numbers.length + state.synchronous

/-- The numbers agree for the queues that native received, and would for the one that JS holds. -/
def Agreeing : Prop := state.Agrees ∧ state.bridge.self.queue.callIds = state.numbers

end Numbered

namespace MessageQueue

variable {self : MessageQueue F} {call : NativeCall F} {params : List JsValue}

theorem processCallbacks_callID {after : MessageQueue F}
    (processed : self.processCallbacks dev call = (after, .ok params)) :
    after.callID = self.callID + 1 := by
  have recorded : (self.recordDebugInfo dev call).callID = self.callID := by
    unfold recordDebugInfo
    split <;> rfl
  obtain ⟨-, same⟩ | ⟨-, same⟩ | ⟨-, same⟩ := processCallbacks_cases dev self call <;>
    rw [same] at processed <;> cases processed
  · exact congrArg Nat.succ recorded
  · rfl

theorem flushIfDue_returned {host : Host} {returned : List JsValue}
    (result : (self.flushIfDue host params).result = .ok returned) :
    returned = params ∧ (self.flushIfDue host params = ⟨self, none, .ok params⟩ ∨
        self.flushIfDue host params =
          ⟨{ self.swapQueue with lastFlush := host.now }, some self.queue, .ok params⟩) := by
  unfold flushIfDue at result ⊢
  split at result
  · next dispatches _ =>
    split at result
    · next due =>
      cases flushed : nativeFlushQueueImmediate dispatches self.queue with
      | error =>
        rw [flushed] at result
        cases result
      | ok =>
        rw [flushed] at result
        cases result
        refine ⟨rfl, .inr ?_⟩
        rw [if_pos due]
        rfl
    · next early =>
      cases result
      rw [if_neg early]
      exact ⟨rfl, .inl rfl⟩
  · cases result
    exact ⟨rfl, .inl rfl⟩

theorem enqueueNativeCall_returned {host : Host}
    (returned : (self.enqueueNativeCall dev host call).result = .ok params) :
    (self.enqueueNativeCall dev host call).self.callID = self.callID + 1 ∧
      (((self.enqueueNativeCall dev host call).handed = none ∧
          (self.enqueueNativeCall dev host call).self.queue = self.queued call params) ∨
        ((self.enqueueNativeCall dev host call).handed = some (self.queued call params) ∧
          (self.enqueueNativeCall dev host call).self.queue = { callID := self.callID + 1 })) := by
  cases processed : self.processCallbacks dev call with
  | mk after counted =>
    have queue : after.queue = self.queue := by
      rw [← processCallbacks_queue dev self call, processed]
    cases counted with
    | error =>
      simp only [enqueueNativeCall, processed] at returned
      cases returned
    | ok =>
      have callID := processCallbacks_callID processed
      simp only [enqueueNativeCall, processed] at returned ⊢
      split at returned
      · cases returned
      · next passes =>
        rw [if_neg passes]
        obtain ⟨rfl, kept | handed⟩ := flushIfDue_returned returned
        · rw [kept]
          refine ⟨callID, .inl ⟨rfl, ?_⟩⟩
          simp only [queued, pushParams, pushIDs, queue]
        · rw [handed]
          refine ⟨callID, .inr ⟨?_, ?_⟩⟩
          · simp only [queued, pushParams, pushIDs, queue]
          · simp only [swapQueue, pushParams, pushIDs, callID]

theorem callNativeSyncHook_returned {hookInstalled : Bool}
    (returned : (self.callNativeSyncHook dev hookInstalled call).2 = .ok params) :
    (self.callNativeSyncHook dev hookInstalled call).1.callID = self.callID + 1 := by
  unfold callNativeSyncHook at returned ⊢
  split at returned
  · cases returned
  · next passes =>
    rw [if_neg passes]
    exact processCallbacks_callID (Prod.ext rfl returned)

theorem invokeCallback_callID (self : MessageQueue F) (now cbID : Int) :
    (self.invokeCallback dev now cbID).1.callID = self.callID := by
  unfold invokeCallback
  dsimp only
  split
  · rfl
  · split <;> rfl

end MessageQueue

namespace Numbered

structure Numbers (state next : Numbered F) (event : BridgeEvent F) : Prop where
  counts : next.Counts
  agreeing : next.Agreeing ↔ state.Agreeing ∧ state.Unshifted event

variable {state : Numbered F} {bridge : Bridge F} {event : BridgeEvent F}

theorem Counts.congr (counts : state.Counts) (queue : bridge.self.queue = state.bridge.self.queue)
    (callID : bridge.self.callID = state.bridge.self.callID)
    (handed : bridge.handed = state.bridge.handed) (unshifted : state.Unshifted event) :
    Numbers state { state with bridge } event := by
  constructor
  · exact ⟨queue ▸ counts.aligned, queue ▸ counts.entries, by rw [callID, queue, counts.counted]⟩
  · rw [Agreeing, Agreeing, Agrees, Agrees, handed, queue]
    exact (and_iff_left unshifted).symm

variable {call : NativeCall F}

theorem Counts.callNativeSyncHook (counts : state.Counts) {hookInstalled : Bool}
    (returns : state.Returns dev (.callNativeSyncHook hookInstalled call)) :
    Numbers state
      { state with
        bridge := state.bridge.callNativeSyncHook dev hookInstalled call
        synchronous := state.synchronous + 1 }
      (.callNativeSyncHook hookInstalled call) := by
  obtain ⟨params, returned⟩ := returns
  have queue := @Bridge.callNativeSyncHook_queue F dev hookInstalled state.bridge.self call
  have callID := callNativeSyncHook_returned returned
  constructor
  · refine ⟨queue ▸ counts.aligned, queue ▸ counts.entries, ?_⟩
    simp only [Bridge.callNativeSyncHook, callID, queue, counts.counted]
    omega
  · simp only [Agreeing, Agrees, Bridge.callNativeSyncHook, queue, Unshifted, and_true]

theorem Counts.queued (counts : state.Counts) (call : NativeCall F) (params : List JsValue) :
    (state.bridge.self.queued call params).callIds =
        state.numbers ++ [(state.bridge.self.callID : Int)] ↔
      state.bridge.self.queue.callIds = state.numbers ∧
        state.synchronous = 0 ∧ state.bridge.self.callID < 2 ^ 31 := by
  have size : (state.bridge.self.queued call params).moduleIds.length =
      state.numbers.length + 1 := by
    simp [MessageQueue.queued, MessageQueue.pushParams, MessageQueue.pushIDs, counts.entries]
  rw [Queue.callIds_aligned (queued_aligned call params counts.aligned), size,
    iterate_add, Queue.callIds_aligned counts.aligned, ← counts.entries]
  change _ ++ [nextCallId^[_] _] = _ ↔ _
  rw [append_eq_append_iff_of_size_eq_left (length_iterate _ _ _), singleton_inj, counts.counted]
  exact and_congr_right fun _ => iterate_nextCallId_eq_iff _ _ _

theorem Counts.keep {state : Numbered F} {bridge : Bridge F} (counts : state.Counts)
    {host : MessageQueue.Host} {call : NativeCall F} {params : List JsValue}
    (callID : bridge.self.callID = state.bridge.self.callID + 1)
    (queue : bridge.self.queue = state.bridge.self.queued call params)
    (handed : bridge.handed = state.bridge.handed) :
    Numbers state
      { state with bridge, numbers := state.numbers ++ [(state.bridge.self.callID : Int)] }
      (.enqueueNativeCall host call) := by
  constructor
  · refine ⟨queue ▸ queued_aligned call params counts.aligned, ?_, ?_⟩
    · simp [queue, MessageQueue.queued, MessageQueue.pushParams, MessageQueue.pushIDs,
        counts.entries]
    · simp only [callID, queue, counts.counted, length_append, length_singleton,
        MessageQueue.queued, MessageQueue.pushParams, MessageQueue.pushIDs]
      omega
  · simp only [Agreeing, Agrees, handed, queue, counts.queued, Unshifted, and_assoc]

theorem append_singleton_inj {α : Type} {front other : List α} {last one : α} :
    front ++ [last] = other ++ [one] ↔ front = other ∧ last = one := by
  simp only [← concat_eq_append, concat_inj]

theorem Counts.hand (counts : state.Counts) {host : MessageQueue.Host} {params : List JsValue}
    (callID : bridge.self.callID = state.bridge.self.callID + 1)
    (queue : bridge.self.queue = { callID := state.bridge.self.callID + 1 })
    (handed : bridge.handed = state.bridge.handed ++ [state.bridge.self.queued call params]) :
    Numbers state
      { bridge
        flushed := state.flushed ++ [state.numbers ++ [(state.bridge.self.callID : Int)]] }
      (.enqueueNativeCall host call) := by
  constructor
  · exact ⟨queue ▸ Queue.aligned_empty _, by rw [queue], by simp [callID, queue]⟩
  · simp only [Agreeing, Agrees, handed, queue, Queue.callIds_empty, and_true, map_append,
      map_singleton]
    rw [append_singleton_inj, counts.queued, and_assoc]
    rfl

theorem Counts.enqueue (counts : state.Counts) {host : MessageQueue.Host}
    (returns : state.Returns dev (.enqueueNativeCall host call)) :
    Numbers state
      (state.enqueueNativeCall dev host call (state.bridge.enqueueNativeCall dev host call))
      (.enqueueNativeCall host call) := by
  obtain ⟨_, returned⟩ := returns
  have appended : (state.bridge.enqueueNativeCall dev host call).handed = state.bridge.handed ++
      (state.bridge.self.enqueueNativeCall dev host call).handed.toList := rfl
  obtain ⟨callID, ⟨kept, queue⟩ | ⟨handed, queue⟩⟩ :=
    enqueueNativeCall_returned returned
  · rw [kept, Option.toList_none, append_nil] at appended
    simp only [enqueueNativeCall, kept]
    exact counts.keep callID queue appended
  · rw [handed, Option.toList_some] at appended
    simp only [enqueueNativeCall, handed]
    exact counts.hand callID queue appended

theorem Counts.flush (counts : state.Counts) (frames : List Frame) : Numbers state
      (state.returnFlushedQueue { state.bridge.returnFlushedQueue with frames })
      (.leave false) := by
  constructor
  · exact ⟨Queue.aligned_empty _, rfl, rfl⟩
  · simp only [Agreeing, Agrees, returnFlushedQueue, Bridge.returnFlushedQueue,
      swapQueue, Queue.callIds_empty, and_true, Unshifted]
    by_cases empty : state.bridge.self.queue.moduleIds.length = 0
    · have none : state.numbers = [] := length_eq_zero_iff.mp (counts.entries.trans empty)
      rw [Queue.callIds_aligned counts.aligned, empty, none]
      simp
    · rw [if_pos empty, if_pos empty, map_append, map_singleton, append_singleton_inj]

theorem step_numbers {next : Numbered F} (counts : state.Counts)
    (returns : state.Returns dev event) (stepped : state.step dev event = some next) :
    Numbers state next event := by
  obtain ⟨bridge, moved, rfl⟩ := Option.map_eq_some_iff.mp stepped
  cases event with
  | enqueueNativeCall _ call =>
    cases moved
    exact counts.enqueue returns
  | callNativeSyncHook _ call =>
    cases moved
    exact counts.callNativeSyncHook returns
  | createDebugLookup =>
    cases moved
    apply counts.congr <;> trivial
  | callFunctionReturnFlushedQueue now =>
    cases moved
    apply counts.congr <;> trivial
  | invokeCallbackAndReturnFlushedQueue now cbID =>
    cases moved
    apply counts.congr
    · exact Bridge.invokeCallback_queue state.bridge.self now cbID
    · exact invokeCallback_callID state.bridge.self now cbID
    · rfl
    · trivial
  | flushedQueue =>
    cases moved
    apply counts.congr <;> trivial
  | leave =>
    simp only [Bridge.step] at moved
    split at moved
    · cases moved
    · next frame frames waiting =>
      rw [waiting]
      split at moved <;> cases moved
      · apply counts.congr <;> trivial
      · apply counts.congr <;> trivial
      · exact counts.flush frames

theorem start_counts : Counts ({} : Numbered F) := ⟨Queue.aligned_empty 0, rfl, rfl⟩

theorem start_agreeing : Agreeing ({} : Numbered F) := ⟨rfl, Queue.callIds_empty 0⟩

theorem flush_agrees {dev : Bool} {state final : Numbered F} (counts : state.Counts)
    (ran : run (step dev) state [.flushedQueue, .leave false] = some final) :
    final.Agrees ↔ state.Agreeing := by
  have flushed := (counts.flush state.bridge.frames).agreeing
  rw [and_iff_left (show state.Unshifted (.leave false) from trivial)] at flushed
  cases ran
  rw [← flushed, Agreeing]
  exact (and_iff_left (Queue.callIds_empty _)).symm

/-- **The numbers agree in every queue exactly if no call is queued after a synchronous one before
the queue is swapped**, as long as they fit into 32 bits. The queue that JS still holds counts as
the next flush hands it over. -/
theorem callNumbers_agree_iff {events : List (BridgeEvent F)} {state : Numbered F}
    (returns : Along (step dev) (Returns dev) {} events)
    (ran : run (step dev) {} events = some state) :
    (state.Agrees ∧
        ∀ final, run (step dev) state [.flushedQueue, .leave false] = some final → final.Agrees) ↔
      Along (step dev) Unshifted {} events := by
  have agreeing : state.Agreeing ↔ Along (step dev) Unshifted {} events := by
    rw [stays_iff_along (fun _ _ _ counts allowed stepped =>
        (step_numbers counts allowed stepped).counts)
      (fun _ _ _ counts allowed stepped => (step_numbers counts allowed stepped).agreeing)
      start_counts returns ran]
    exact and_iff_right start_agreeing
  have counts : state.Counts :=
    run_induction (fun _ _ _ counts allowed stepped => (step_numbers counts allowed stepped).counts)
      start_counts returns ran
  rw [← agreeing]
  constructor
  · rintro ⟨-, agrees⟩
    exact (@flush_agrees _ dev _ _ counts rfl).mp (agrees _ rfl)
  · intro agreeing
    exact ⟨agreeing.1, fun final flushed => (flush_agrees counts flushed).mpr agreeing⟩

def flushBetween : List (BridgeEvent Unit) :=
  [.callNativeSyncHook true ⟨1, 0, [], none, none⟩, .flushedQueue, .leave false,
    .enqueueNativeCall ⟨0, none⟩ ⟨2, 0, [], none, none⟩]

theorem callNumbers_agree_flushBetween : ∃ state, run (step true) {} flushBetween = some state ∧
      ∀ final, run (step true) state [.flushedQueue, .leave false] = some final →
        final.Agrees ∧ final.flushed = [[1]] := by
  refine ⟨_, rfl, ?_⟩
  intro final flushed
  have returns : Along (step true) (Returns true) {} flushBetween :=
    along_cons ⟨_, rfl⟩ rfl (along_cons trivial rfl (along_cons trivial rfl
      (along_cons ⟨_, rfl⟩ rfl trivial)))
  have unshifted : Along (step true) Unshifted {} flushBetween :=
    along_cons trivial rfl (along_cons trivial rfl (along_cons trivial rfl
      (along_cons ⟨rfl, by decide⟩ rfl trivial)))
  refine ⟨((callNumbers_agree_iff returns rfl).mpr unshifted).2 final flushed, ?_⟩
  cases flushed
  rfl

def queuedAfterSynchronous : List (BridgeEvent Unit) :=
  [.callNativeSyncHook true ⟨1, 0, [], none, none⟩,
    .enqueueNativeCall ⟨0, none⟩ ⟨2, 0, [], none, none⟩, .flushedQueue, .leave false]

theorem synchronousCall_shifts :
    ¬ ∀ (dev : Bool) (events : List (BridgeEvent Unit)) (state : Numbered Unit),
      Along (step dev) (Returns dev) {} events → run (step dev) {} events = some state →
        state.Agrees := by
  intro always
  have returns : Along (step false) (Returns false) {} queuedAfterSynchronous :=
    along_cons ⟨_, rfl⟩ rfl (along_cons ⟨_, rfl⟩ rfl (along_cons trivial rfl
      (along_cons trivial rfl trivial)))
  have agrees := always false queuedAfterSynchronous _ returns rfl
  have numbers : (⟨[2], [0], [[]], 0⟩ : Queue).callIds = [1] := (List.cons.inj agrees).1
  rw [Queue.callIds_aligned ⟨rfl, rfl⟩] at numbers
  revert numbers
  decide

end Numbered

end ReactNative

