import ReactNative.Core.ShadowNode

/-! `flushEvents` retains the targets of a batch, dispatches the events and releases the targets. -/
namespace ReactNative

open List

inductive InstanceHandle where
  | null
  | undefined
  | object (address : Pointer)
  deriving DecidableEq

structure EventTarget where
  /-- What locking the weak object gives. -/
  weakInstanceHandle : InstanceHandle
  strongInstanceHandle : InstanceHandle := .null
  enabled : Bool := false
  tag : Tag

namespace EventTarget

variable (target : EventTarget)

def setEnabled (enabled : Bool) : EventTarget := { target with enabled }

def retain : EventTarget :=
  if ¬ target.enabled then target
  else { target with strongInstanceHandle := target.weakInstanceHandle }

def release : EventTarget := { target with strongInstanceHandle := .null }

def getInstanceHandle : InstanceHandle :=
  if target.strongInstanceHandle = .null then .null else target.strongInstanceHandle

end EventTarget

abbrev Targets := Pointer → EventTarget

namespace Targets

def setEnabled (targets : Targets) (address : Pointer) (enabled : Bool) : Targets :=
  Function.update targets address ((targets address).setEnabled enabled)

def retain (targets : Targets) (address : Pointer) : Targets :=
  Function.update targets address (targets address).retain

def release (targets : Targets) (address : Pointer) : Targets :=
  Function.update targets address (targets address).release

/-- What `findNodeAtPoint` does to the target of the node it hits; the handle goes
to the callback, whose own doings come next in the handler. -/
def findNodeAtPoint (targets : Targets) (hit : Pointer) : Targets × InstanceHandle :=
  let targets := targets.retain hit
  let instanceHandle := (targets hit).getInstanceHandle
  (targets.release hit, instanceHandle)

end Targets

mutual

/-- An event with what its handler will do. -/
inductive RawEvent where
  | mk (type : String) (payload : Pointer) (eventTarget : Option Pointer)
    (handler : List HandlerCall)

inductive HandlerCall where
  | findNodeAtPoint (hit : Pointer)
  | flushEvents (queue : List RawEvent)

end

namespace RawEvent

def eventTarget : RawEvent → Option Pointer
  | ⟨_, _, eventTarget, _⟩ => eventTarget

def handler : RawEvent → List HandlerCall
  | ⟨_, _, _, handler⟩ => handler

end RawEvent

/-- The arguments that the event handler of the runtime is called with; the tag is
mixed into the payload. -/
structure Dispatched where
  event : RawEvent
  instanceHandle : InstanceHandle
  target : Option Tag

variable (targets : Targets)

/-- `UIManagerBinding::dispatchEvent` up to the call. -/
def dispatchEvent (event : RawEvent) : Dispatched :=
  match event.eventTarget with
  | none => ⟨event, .null, none⟩
  | some address =>
    let instanceHandle := (targets address).getInstanceHandle
    if instanceHandle = .undefined then ⟨event, .null, none⟩
    else ⟨event, instanceHandle, some (targets address).tag⟩

structure Flush where
  began : Targets
  queue : List RawEvent
  dispatched : List Dispatched

def retainTargets (queue : List RawEvent) : Targets :=
  (queue.filterMap RawEvent.eventTarget).foldl Targets.retain targets

def releaseTargets (queue : List RawEvent) : Targets :=
  (queue.filterMap RawEvent.eventTarget).foldl Targets.release targets

mutual

def dispatchEvents : List RawEvent → Targets → Targets × List Dispatched × List Flush
  | [], targets => (targets, [], [])
  | event :: rest, targets =>
    let call := dispatchEvent targets event
    let (targets, nested) := handleEvent event targets
    let (targets, dispatched, flushes) := dispatchEvents rest targets
    (targets, call :: dispatched, nested ++ flushes)

def handleEvent : RawEvent → Targets → Targets × List Flush
  | ⟨_, _, _, handler⟩, targets => callHandler handler targets

def callHandler : List HandlerCall → Targets → Targets × List Flush
  | [], targets => (targets, [])
  | call :: rest, targets =>
    let (targets, flushes) := handlerCall call targets
    let (targets, later) := callHandler rest targets
    (targets, flushes ++ later)

/-- A nested flush is recorded when it ends. -/
def handlerCall : HandlerCall → Targets → Targets × List Flush
  | .findNodeAtPoint hit, targets => ((targets.findNodeAtPoint hit).1, [])
  | .flushEvents queue, targets =>
    let (after, dispatched, nested) := dispatchEvents queue (retainTargets targets queue)
    (releaseTargets after queue, nested ++ [⟨targets, queue, dispatched⟩])

end

/-- A flush that no other one encloses, and all flushes nested in it. -/
def flushEvents (queue : List RawEvent) (targets : Targets) : Targets × List Flush :=
  handlerCall (.flushEvents queue) targets

/-! ### What a handler touches -/

mutual

def handlersTouch : List RawEvent → List Pointer
  | [] => []
  | event :: rest => eventTouches event ++ handlersTouch rest

def eventTouches : RawEvent → List Pointer
  | ⟨_, _, _, handler⟩ => handlerTouches handler

def handlerTouches : List HandlerCall → List Pointer
  | [] => []
  | call :: rest => callTouches call ++ handlerTouches rest

def callTouches : HandlerCall → List Pointer
  | .findNodeAtPoint hit => [hit]
  | .flushEvents queue => queue.filterMap RawEvent.eventTarget ++ handlersTouch queue

end

mutual

/-- The queues that the handlers of a queue have flushed, in the order in which the
flushes end. -/
def nestedQueues : List RawEvent → List (List RawEvent)
  | [] => []
  | event :: rest => eventQueues event ++ nestedQueues rest

def eventQueues : RawEvent → List (List RawEvent)
  | ⟨_, _, _, handler⟩ => handlerQueues handler

def handlerQueues : List HandlerCall → List (List RawEvent)
  | [] => []
  | call :: rest => callQueues call ++ handlerQueues rest

def callQueues : HandlerCall → List (List RawEvent)
  | .findNodeAtPoint _ => []
  | .flushEvents queue => nestedQueues queue ++ [queue]

end

def flushedQueues (queue : List RawEvent) : List (List RawEvent) := callQueues (.flushEvents queue)

namespace EventTarget

variable (target : EventTarget)

@[simp] theorem retain_retain : target.retain.retain = target.retain := by
  unfold retain
  split <;> simp_all

@[simp] theorem release_release : target.release.release = target.release := rfl

@[simp] theorem retain_release : target.retain.release = target.release := by
  unfold retain
  split <;> rfl

@[simp] theorem release_enabled : target.release.enabled = target.enabled := rfl

@[simp] theorem release_weak : target.release.weakInstanceHandle = target.weakInstanceHandle := rfl

@[simp] theorem retain_enabled : target.retain.enabled = target.enabled := by
  unfold retain
  split <;> rfl

@[simp] theorem retain_weak : target.retain.weakInstanceHandle = target.weakInstanceHandle := by
  unfold retain
  split <;> rfl

theorem retain_strong {target : EventTarget} (enabled : target.enabled = true) :
    target.retain.strongInstanceHandle = target.weakInstanceHandle := by
  simp [retain, enabled]

@[simp] theorem getInstanceHandle_eq : target.getInstanceHandle = target.strongInstanceHandle := by
  unfold getInstanceHandle
  split
  · next isNull => exact isNull.symm
  · rfl

end EventTarget

theorem foldl_update {treat : EventTarget → EventTarget}
    (idempotent : ∀ target, treat (treat target) = treat target) (addresses : List Pointer)
    (targets : Targets) (address : Pointer) :
    addresses.foldl (fun targets a => Function.update targets a (treat (targets a))) targets address =
      if address ∈ addresses then treat (targets address) else targets address := by
  induction addresses generalizing targets with
  | nil => rfl
  | cons first _ ih =>
    rw [foldl_cons, ih]
    by_cases same : address = first
    · subst same
      simp [idempotent]
    · simp [same]

variable (targets : Targets)

theorem retainTargets_apply (queue : List RawEvent) (address : Pointer) :
    retainTargets targets queue address =
      if address ∈ queue.filterMap RawEvent.eventTarget then (targets address).retain
      else targets address :=
  foldl_update EventTarget.retain_retain _ targets address

theorem releaseTargets_apply (queue : List RawEvent) (address : Pointer) :
    releaseTargets targets queue address =
      if address ∈ queue.filterMap RawEvent.eventTarget then (targets address).release
      else targets address :=
  foldl_update EventTarget.release_release _ targets address

theorem findNodeAtPoint_apply (hit address : Pointer) : (targets.findNodeAtPoint hit).1 address =
      if address = hit then (targets address).release else targets address := by
  by_cases same : address = hit
  · subst same
    simp [Targets.findNodeAtPoint, Targets.retain, Targets.release]
  · simp [Targets.findNodeAtPoint, Targets.retain, Targets.release, same]

mutual

theorem dispatchEvents_targets (queue : List RawEvent) (targets : Targets) (address : Pointer) :
    (dispatchEvents queue targets).1 address =
      if address ∈ handlersTouch queue then (targets address).release else targets address := by
  match queue with
  | [] => rfl
  | event :: rest =>
    have here := handleEvent_targets event targets address
    have later := dispatchEvents_targets rest (handleEvent event targets).1 address
    simp only [dispatchEvents, handlersTouch, later, here, mem_append]
    by_cases touched : address ∈ eventTouches event <;>
      by_cases again : address ∈ handlersTouch rest <;> simp [touched, again]

theorem handleEvent_targets (event : RawEvent) (targets : Targets) (address : Pointer) :
    (handleEvent event targets).1 address =
      if address ∈ eventTouches event then (targets address).release else targets address := by
  match event with
  | ⟨_, _, _, handler⟩ => exact callHandler_targets handler targets address

theorem callHandler_targets (calls : List HandlerCall) (targets : Targets) (address : Pointer) :
    (callHandler calls targets).1 address =
      if address ∈ handlerTouches calls then (targets address).release else targets address := by
  match calls with
  | [] => rfl
  | call :: rest =>
    have here := handlerCall_targets call targets address
    have later := callHandler_targets rest (handlerCall call targets).1 address
    simp only [callHandler, handlerTouches, later, here, mem_append]
    by_cases touched : address ∈ callTouches call <;>
      by_cases again : address ∈ handlerTouches rest <;> simp [touched, again]

theorem handlerCall_targets (call : HandlerCall) (targets : Targets) (address : Pointer) :
    (handlerCall call targets).1 address =
      if address ∈ callTouches call then (targets address).release else targets address := by
  match call with
  | .findNodeAtPoint hit =>
    simp only [handlerCall, callTouches, findNodeAtPoint_apply, mem_singleton]
  | .flushEvents queue =>
    have loop := dispatchEvents_targets queue (retainTargets targets queue) address
    simp only [handlerCall, callTouches, releaseTargets_apply, loop, retainTargets_apply,
      mem_append]
    -- A target of the queue is retained and released, one of a handler only released.
    by_cases ofQueue : address ∈ queue.filterMap RawEvent.eventTarget <;>
      by_cases touched : address ∈ handlersTouch queue <;> simp [ofQueue, touched]

end

/-! ### Delivery -/

variable (targets : Targets)

/-- The weak handle of an enabled target can be locked. -/
def Lockable : Prop :=
  ∀ address, (targets address).enabled = true →
    ∃ object, (targets address).weakInstanceHandle = .object object

def Released : Prop := ∀ address, (targets address).strongInstanceHandle = .null

/-- The call carries the instance handle of its target, if that was enabled. -/
def Dispatched.Reaches (call : Dispatched) : Prop :=
  ∀ address, call.event.eventTarget = some address → (targets address).enabled = true →
    call.instanceHandle = (targets address).weakInstanceHandle ∧ call.instanceHandle ≠ .null

/-- Every event is dispatched, in order, to its target. -/
structure Delivered (flush : Flush) : Prop where
  inOrder : flush.dispatched.map Dispatched.event = flush.queue
  reaches : ∀ call ∈ flush.dispatched, call.Reaches flush.began

/-- The handler of an event does not touch the enabled target of a later one. -/
def Spares (earlier later : RawEvent) : Prop :=
  ∀ address, later.eventTarget = some address → (targets address).enabled = true →
    address ∉ eventTouches earlier

def SameTargets (before after : Targets) : Prop :=
  ∀ address, (after address).enabled = (before address).enabled ∧
    (after address).weakInstanceHandle = (before address).weakInstanceHandle

theorem SameTargets.trans {first second third : Targets} (here : SameTargets first second)
    (later : SameTargets second third) : SameTargets first third := fun address =>
  ⟨(later address).1.trans (here address).1, (later address).2.trans (here address).2⟩

variable {before after : Targets}

theorem SameTargets.lockable (same : SameTargets before after)
    (lockable : Lockable before) : Lockable after := by
  intro address enabled
  rw [(same address).1] at enabled
  rw [(same address).2]
  exact lockable address enabled

theorem SameTargets.reaches_iff (same : SameTargets before after)
    (call : Dispatched) : call.Reaches after ↔ call.Reaches before := by
  simp only [Dispatched.Reaches, (same _).1, (same _).2]

theorem SameTargets.spares_eq (same : SameTargets before after) : Spares after = Spares before := by
  funext earlier later
  simp only [Spares, (same _).1]

theorem sameTargets_retain (targets : Targets) (queue : List RawEvent) :
    SameTargets targets (retainTargets targets queue) := by
  intro address
  rw [retainTargets_apply]
  split <;> simp

theorem sameTargets_handleEvent (event : RawEvent) (targets : Targets) :
    SameTargets targets (handleEvent event targets).1 := by
  intro address
  rw [handleEvent_targets]
  split <;> simp

theorem sameTargets_handlerCall (call : HandlerCall) (targets : Targets) :
    SameTargets targets (handlerCall call targets).1 := by
  intro address
  rw [handlerCall_targets]
  split <;> simp

theorem dispatchEvent_event (targets : Targets) (event : RawEvent) :
    (dispatchEvent targets event).event = event := by
  cases target : event.eventTarget with
  | none => simp [dispatchEvent, target]
  | some =>
    simp only [dispatchEvent, target]
    split <;> rfl

variable {targets : Targets}

theorem dispatchEvent_handle {event : RawEvent} {address : Pointer}
    (target : event.eventTarget = some address) :
    (dispatchEvent targets event).instanceHandle =
      if (targets address).strongInstanceHandle = .undefined then .null
      else (targets address).strongInstanceHandle := by
  simp only [dispatchEvent, target, EventTarget.getInstanceHandle_eq]
  split <;> rfl

theorem dispatchEvents_inOrder (queue : List RawEvent) (targets : Targets) :
    (dispatchEvents queue targets).2.1.map Dispatched.event = queue := by
  induction queue generalizing targets with
  | nil => rfl
  | cons event _ ih =>
    simp only [dispatchEvents, map_cons, dispatchEvent_event, ih]

theorem dispatchEvent_reaches_iff (lockable : Lockable targets) (event : RawEvent) :
    (dispatchEvent targets event).Reaches targets ↔
      ∀ address, event.eventTarget = some address → (targets address).enabled = true →
        (targets address).strongInstanceHandle = (targets address).weakInstanceHandle := by
  rw [Dispatched.Reaches, dispatchEvent_event]
  constructor
  · intro reaches address target enabled
    obtain ⟨handle, notNull⟩ := reaches address target enabled
    rw [dispatchEvent_handle target] at handle notNull
    split at handle
    · next isUndefined => exact absurd (if_pos isUndefined) notNull
    · exact handle
  · intro slots address target enabled
    obtain ⟨_, weak⟩ := lockable address enabled
    rw [dispatchEvent_handle target, slots address target enabled, weak]
    simp

theorem dispatchEvents_reach_iff (lockable : Lockable targets) (queue : List RawEvent) :
    (∀ call ∈ (dispatchEvents queue targets).2.1, call.Reaches targets) ↔
      (∀ event ∈ queue, ∀ address, event.eventTarget = some address →
        (targets address).enabled = true →
        (targets address).strongInstanceHandle = (targets address).weakInstanceHandle) ∧
      queue.Pairwise (Spares targets) := by
  induction queue generalizing targets with
  | nil => simp [dispatchEvents]
  | cons event _ ih =>
    have same := sameTargets_handleEvent event targets
    have later := ih (same.lockable lockable)
    simp only [same.reaches_iff, same.spares_eq, same _] at later
    simp only [dispatchEvents, forall_mem_cons, pairwise_cons, later,
      dispatchEvent_reaches_iff lockable]
    -- After the handler a slot still holds the handle if it did before and was spared.
    have slot : ∀ address, (targets address).enabled = true →
        (((handleEvent event targets).1 address).strongInstanceHandle =
            (targets address).weakInstanceHandle ↔
          (targets address).strongInstanceHandle = (targets address).weakInstanceHandle ∧
            address ∉ eventTouches event) := by
      intro address enabled
      obtain ⟨_, weak⟩ := lockable address enabled
      rw [handleEvent_targets]
      by_cases touched : address ∈ eventTouches event
      · simp [touched, EventTarget.release, weak]
      · simp [touched]
    constructor
    · rintro ⟨here, slots, spared⟩
      refine ⟨⟨here, ?_⟩, ?_, spared⟩
      · intro other member address target enabled
        exact ((slot address enabled).mp (slots other member address target enabled)).1
      · intro other member address target enabled
        exact ((slot address enabled).mp (slots other member address target enabled)).2
    · rintro ⟨⟨here, slots⟩, spares, spared⟩
      refine ⟨here, ?_, spared⟩
      intro other member address target enabled
      exact (slot address enabled).mpr
        ⟨slots other member address target enabled, spares other member address target enabled⟩

def Flush.Genuine (targets : Targets) (flush : Flush) : Prop :=
  SameTargets targets flush.began ∧
    flush.dispatched = (dispatchEvents flush.queue (retainTargets flush.began flush.queue)).2.1

theorem Flush.Genuine.of_same {flush : Flush}
    (same : SameTargets before after) (genuine : flush.Genuine after) : flush.Genuine before :=
  ⟨same.trans genuine.1, genuine.2⟩

/-- **One flush** delivers its events exactly if its handlers spare the later ones. -/
theorem delivered_iff {flush : Flush} (lockable : Lockable targets)
    (genuine : flush.Genuine targets) :
    Delivered flush ↔ flush.queue.Pairwise (Spares targets) := by
  obtain ⟨same, dispatched⟩ := genuine
  have retained := sameTargets_retain flush.began flush.queue
  have loop := dispatchEvents_reach_iff ((same.trans retained).lockable lockable) flush.queue
  simp only [retained.reaches_iff, retained.spares_eq, same.spares_eq, ← dispatched] at loop
  -- The first loop of the flush put every handle into its slot.
  have slots : ∀ event ∈ flush.queue, ∀ address, event.eventTarget = some address →
      (retainTargets flush.began flush.queue address).enabled = true →
      (retainTargets flush.began flush.queue address).strongInstanceHandle =
        (retainTargets flush.began flush.queue address).weakInstanceHandle := by
    intro event member address target enabled
    have ofQueue : address ∈ flush.queue.filterMap RawEvent.eventTarget :=
      mem_filterMap.mpr ⟨event, member, target⟩
    rw [retainTargets_apply, if_pos ofQueue] at enabled ⊢
    rw [EventTarget.retain_weak]
    exact EventTarget.retain_strong (by simpa using enabled)
  constructor
  · intro delivered
    exact (loop.mp delivered.reaches).2
  · intro spared
    constructor
    · rw [dispatched]
      exact dispatchEvents_inOrder _ _
    · exact loop.mpr ⟨slots, spared⟩

mutual

theorem dispatchEvents_flushes (queue : List RawEvent) (targets : Targets) :
    (dispatchEvents queue targets).2.2.map Flush.queue = nestedQueues queue ∧
      ∀ flush ∈ (dispatchEvents queue targets).2.2, flush.Genuine targets := by
  match queue with
  | [] => simp [dispatchEvents, nestedQueues]
  | event :: rest =>
    have same := sameTargets_handleEvent event targets
    obtain ⟨queues, genuine⟩ := handleEvent_flushes event targets
    obtain ⟨laterQueues, laterGenuine⟩ := dispatchEvents_flushes rest (handleEvent event targets).1
    constructor
    · simp only [dispatchEvents, nestedQueues, map_append, queues, laterQueues]
    · exact forall_mem_append.mpr
        ⟨genuine, fun flush later => (laterGenuine flush later).of_same same⟩

theorem handleEvent_flushes (event : RawEvent) (targets : Targets) :
    (handleEvent event targets).2.map Flush.queue = eventQueues event ∧
      ∀ flush ∈ (handleEvent event targets).2, flush.Genuine targets := by
  match event with
  | ⟨_, _, _, handler⟩ => exact callHandler_flushes handler targets

theorem callHandler_flushes (calls : List HandlerCall) (targets : Targets) :
    (callHandler calls targets).2.map Flush.queue = handlerQueues calls ∧
      ∀ flush ∈ (callHandler calls targets).2, flush.Genuine targets := by
  match calls with
  | [] => simp [callHandler, handlerQueues]
  | call :: rest =>
    have same := sameTargets_handlerCall call targets
    obtain ⟨queues, genuine⟩ := handlerCall_flushes call targets
    obtain ⟨laterQueues, laterGenuine⟩ := callHandler_flushes rest (handlerCall call targets).1
    constructor
    · simp only [callHandler, handlerQueues, map_append, queues, laterQueues]
    · exact forall_mem_append.mpr
        ⟨genuine, fun flush later => (laterGenuine flush later).of_same same⟩

theorem handlerCall_flushes (call : HandlerCall) (targets : Targets) :
    (handlerCall call targets).2.map Flush.queue = callQueues call ∧
      ∀ flush ∈ (handlerCall call targets).2, flush.Genuine targets := by
  match call with
  | .findNodeAtPoint hit => simp [handlerCall, callQueues]
  | .flushEvents queue =>
    obtain ⟨queues, genuine⟩ := dispatchEvents_flushes queue (retainTargets targets queue)
    constructor
    · simp only [handlerCall, callQueues, map_append, queues, map_singleton]
    · intro flush member
      rcases mem_append.mp member with nested | own
      · exact (genuine flush nested).of_same (sameTargets_retain targets queue)
      · rw [mem_singleton] at own
        subst own
        exact ⟨fun _ => ⟨rfl, rfl⟩, rfl⟩

end

/-- What happens to targets outside of flushes: they are made, commits enable and
disable them, handlers run. -/
inductive TargetsReachable : Targets → Prop
  | created (targets : Targets) (released : Released targets) : TargetsReachable targets
  | setEnabled {targets : Targets} (reachable : TargetsReachable targets) (address : Pointer)
    (enabled : Bool) : TargetsReachable (targets.setEnabled address enabled)
  | called {targets : Targets} (reachable : TargetsReachable targets) (call : HandlerCall) :
    TargetsReachable (handlerCall call targets).1

theorem handlerCall_released (released : Released targets)
    (call : HandlerCall) : Released (handlerCall call targets).1 := by
  intro address
  rw [handlerCall_targets]
  split
  · rfl
  · exact released address

theorem TargetsReachable.released (reachable : TargetsReachable targets) : Released targets := by
  induction reachable with
  | created _ released => exact released
  | setEnabled _ address _ ih =>
    intro other
    by_cases same : other = address
    · subst same
      simpa [Targets.setEnabled, EventTarget.setEnabled] using ih other
    · simpa [Targets.setEnabled, same] using ih other
  | called _ call ih => exact handlerCall_released ih call

structure DeliversQueued (targets : Targets) (queue : List RawEvent) : Prop where
  delivered : ∀ flush ∈ (flushEvents queue targets).2, Delivered flush
  released : Released (flushEvents queue targets).1

/-- **Queued events reach their targets** exactly if in no flush, the nested ones
included, the handler of an event touches the enabled target of a later event. -/
theorem deliversQueued_iff {targets : Targets} (reachable : TargetsReachable targets)
    (lockable : Lockable targets) (queue : List RawEvent) :
    DeliversQueued targets queue ↔
      ∀ flushed ∈ flushedQueues queue, flushed.Pairwise (Spares targets) := by
  obtain ⟨queues, genuine⟩ := handlerCall_flushes (.flushEvents queue) targets
  rw [flushedQueues, ← queues]
  simp only [forall_mem_map]
  constructor
  · intro delivers flush member
    exact (delivered_iff lockable (genuine flush member)).mp (delivers.delivered flush member)
  · intro spared
    constructor
    · intro flush member
      exact (delivered_iff lockable (genuine flush member)).mpr (spared flush member)
    · exact handlerCall_released reachable.released _

def sampleTargets : Targets := fun address =>
  { weakInstanceHandle := .object address, enabled := true, tag := address }

theorem sampleTargets_lockable : Lockable sampleTargets := fun address _ => ⟨address, rfl⟩

theorem sampleTargets_reachable : TargetsReachable sampleTargets := .created _ fun _ => rfl

theorem deliversQueued_other_hit : DeliversQueued sampleTargets
      [⟨"topTouchStart", 0, some 1, [.findNodeAtPoint 2]⟩, ⟨"topTouchEnd", 1, some 1, []⟩] := by
  refine (deliversQueued_iff sampleTargets_reachable sampleTargets_lockable _).mpr ?_
  intro flushed member
  have own : flushed = _ := mem_singleton.mp member
  subst own
  refine List.Pairwise.cons ?_ (pairwise_singleton _ _)
  intro later laterMem address target _
  have last : later = _ := mem_singleton.mp laterMem
  subst last
  cases target
  decide

theorem hit_target_lost : TargetsReachable sampleTargets ∧ Lockable sampleTargets ∧
      ¬ DeliversQueued sampleTargets
        [⟨"topTouchStart", 0, some 1, [.findNodeAtPoint 1]⟩, ⟨"topTouchEnd", 1, some 1, []⟩] := by
  refine ⟨sampleTargets_reachable, sampleTargets_lockable, fun delivers => ?_⟩
  have delivered := delivers.delivered _ (mem_singleton.mpr rfl)
  have second := delivered.reaches _ (mem_cons_of_mem _ (mem_singleton.mpr rfl)) 1 rfl rfl
  exact second.2 (by decide)

end ReactNative

