import Mathlib.Algebra.Order.Ring.Int
import ReactNative.Events.RCTEventDispatcher
import ReactNative.Foundation.RelatedLists

/-! The ids in the queue stand for the groups of the events since the last flush. Ids of different
groups differ as long as the view tags are positive, and as long as the unique coalescing keys have
not wrapped since the flush. -/
namespace ReactNative

open Coalescing List Option BitVec

/-! ### The parts of an id -/

theorem getLsbD_nameHashMask (i : ℕ) : (0xFFFF : BitVec 64).getLsbD i = decide (i < 16) := by
  rw [show (0xFFFF : BitVec 64) = BitVec.ofNat 64 (2 ^ 16 - 1) from rfl, BitVec.getLsbD_ofNat,
    Nat.testBit_two_pow_sub_one]
  simp
  omega

section

variable {viewTag : ℤ} (positive : 0 < viewTag ∧ viewTag < 2 ^ 31)
include positive

theorem msb_intValue : (BitVec.ofInt 32 viewTag).msb = false := by
  rw [msb_eq_toInt, toInt_ofInt]
  simp [Int.bmod]
  omega

theorem getLsbD_getEventID (nameHash : BitVec 64) (coalescingKey : BitVec 16) (i : ℕ) :
    (getEventID viewTag nameHash coalescingKey).getLsbD i =
      if i < 32 then (BitVec.ofInt 32 viewTag).getLsbD i
      else if i < 48 then nameHash.getLsbD (i - 32)
      else coalescingKey.getLsbD (i - 48) := by
  simp only [getEventID, getLsbD_or, getLsbD_signExtend, getLsbD_shiftLeft,
    getLsbD_and, getLsbD_setWidth, msb_intValue positive, getLsbD_nameHashMask]
  by_cases low : i < 32
  · simp [low, show i < 64 by omega, show i < 48 by omega]
  · by_cases middle : i < 48
    · have inHash : i - 32 < 16 := by omega
      simp [low, middle, inHash, show i < 64 by omega]
    · by_cases high : i < 64
      · have aboveHash : ¬i - 32 < 16 := by omega
        simp [low, middle, high, aboveHash]
        omega
      · rw [getLsbD_of_ge coalescingKey _ (by omega)]
        simp [low, middle, high]

theorem getEventID_injective {otherTag : ℤ} {nameHash otherHash : BitVec 64}
    {coalescingKey otherKey : BitVec 16} (otherPositive : 0 < otherTag ∧ otherTag < 2 ^ 31)
    (same : getEventID viewTag nameHash coalescingKey = getEventID otherTag otherHash otherKey) :
    viewTag = otherTag ∧ nameHash &&& 0xFFFF = otherHash &&& 0xFFFF ∧ coalescingKey = otherKey := by
  have bits : ∀ i, (getEventID viewTag nameHash coalescingKey).getLsbD i =
      (getEventID otherTag otherHash otherKey).getLsbD i := fun i => by rw [same]
  simp only [getLsbD_getEventID positive, getLsbD_getEventID otherPositive] at bits
  refine ⟨?_, ?_, ?_⟩
  · have tags : BitVec.ofInt 32 viewTag = BitVec.ofInt 32 otherTag := by
      apply eq_of_getLsbD_eq
      intro i small
      simpa [small] using bits i
    have ints := congrArg BitVec.toInt tags
    simp [Int.bmod] at ints
    omega
  · apply eq_of_getLsbD_eq
    intro i _
    rw [getLsbD_and, getLsbD_and, getLsbD_nameHashMask]
    by_cases inHash : i < 16
    · have aboveTag : ¬i + 32 < 32 := by omega
      simpa [inHash, aboveTag, show i + 32 < 48 by omega] using bits (i + 32)
    · simp [inHash]
  · apply eq_of_getLsbD_eq
    intro i _
    have aboveTag : ¬i + 48 < 32 := by omega
    have aboveHash : ¬i + 48 < 48 := by omega
    simpa [aboveTag, aboveHash] using bits (i + 48)

end

namespace RCTEventDispatcher

open RCTEvent

variable {Event Name : Type} [RCTEvent Event Name] {nameHash : Name → BitVec 64}

/-! ### What is to be delivered -/

def mergeKey (event : Event) : Option (ℤ × Name × BitVec 16) :=
  if canCoalesce event then some (viewTag event, eventName event, coalescingKey event) else none

def groups [DecidableEq Name] (batch : List Event) : List (List Event) :=
  Coalescing.groups mergeKey [] batch

def merged (group : List Event) : Option Event := merge coalesceWithEvent group

def sentEvents (actions : List (RCTDispatcherAction Event)) : List Event :=
  actions.filterMap fun
    | .sendEvent event => some event
    | _ => none

/-- What an id has to tell apart. A view tag is an `int`. -/
structure Distinguished (nameHash : Name → BitVec 64) (sent : List Event) : Prop where
  positive : ∀ event ∈ sent, 0 < viewTag event ∧ viewTag event < 2 ^ 31
  hashes : ∀ event ∈ sent, ∀ other ∈ sent,
    nameHash (eventName event) &&& 0xFFFF = nameHash (eventName other) &&& 0xFFFF →
      eventName event = eventName other
  kinds : ∀ event ∈ sent, ∀ other ∈ sent, eventName event = eventName other →
    canCoalesce event = canCoalesce other

def uniques (sent : List Event) : List Event := sent.filter fun event => !canCoalesce event

/-- There are fewer than 65536 events between two flushes that cannot be coalesced. -/
def FewUniques (dispatcher : RCTEventDispatcher Event) : RCTDispatcherAction Event → Prop
  | .sendEvent event => (uniques (dispatcher.sentSinceFlush ++ [event])).length < 65536
  | _ => True

instance (dispatcher : RCTEventDispatcher Event) :
    ∀ action, Decidable (FewUniques dispatcher action)
  | .sendEvent event =>
    inferInstanceAs (Decidable ((uniques (dispatcher.sentSinceFlush ++ [event])).length < 65536))
  | .dispatchBlock | .flushEventsQueue | .dispatchEvent => .isTrue trivial

/-! ### The ids in the queue -/

variable {sent : List Event}

theorem eventID_injective (distinguished : Distinguished nameHash sent) {event other : Event}
    (member : event ∈ sent) (otherMember : other ∈ sent) {key otherKey : BitVec 16}
    (same : eventID nameHash event key = eventID nameHash other otherKey) :
    viewTag event = viewTag other ∧ eventName event = eventName other ∧ key = otherKey := by
  obtain ⟨tags, hashes, keys⟩ := getEventID_injective (distinguished.positive event member)
    (distinguished.positive other otherMember) same
  exact ⟨tags, distinguished.hashes event member other otherMember hashes, keys⟩

/-- The id of a group is that of its first event. A unique coalescing key is as many behind the
generator as there have been since. -/
def Names (nameHash : Name → BitVec 64) (dispatcher : RCTEventDispatcher Event) (id : BitVec 64)
    (group : List Event) : Prop :=
  ∃ event ∈ dispatcher.sentSinceFlush, group.head? = some event ∧
    if canCoalesce event then id = eventID nameHash event (coalescingKey event)
    else ∃ age, 0 < age ∧ age ≤ (uniques dispatcher.sentSinceFlush).length ∧
      id = eventID nameHash event (dispatcher.uniqueCoalescingKeyGenerator - BitVec.ofNat 16 age)

section

variable {sent : List Event} {dispatcher : RCTEventDispatcher Event} {id : BitVec 64}
  {group : List Event} {event : Event}

section

variable (names : Names nameHash dispatcher id group) (distinguished : Distinguished nameHash sent)
  (among : ∀ earlier ∈ dispatcher.sentSinceFlush, earlier ∈ sent) (member : event ∈ sent)
include names distinguished among member

theorem Names.id_eq_iff (coalesces : canCoalesce event = true) :
    id = eventID nameHash event (coalescingKey event) ↔
      groupKey mergeKey group = mergeKey event := by
  obtain ⟨first, firstMember, head, named⟩ := names
  rw [groupKey, head, bind_some, mergeKey, mergeKey, if_pos coalesces]
  constructor
  · rintro rfl
    by_cases firstCoalesces : canCoalesce first
    · rw [if_pos firstCoalesces] at named
      obtain ⟨tags, names, keys⟩ :=
        eventID_injective distinguished member (among first firstMember) named
      rw [if_pos firstCoalesces, tags, names, keys]
    · rw [if_neg firstCoalesces] at named
      obtain ⟨_, -, -, same⟩ := named
      obtain ⟨-, names, -⟩ := eventID_injective distinguished member (among first firstMember) same
      rw [distinguished.kinds event member first (among first firstMember) names] at coalesces
      exact absurd coalesces firstCoalesces
  · intro same
    split at same
    next firstCoalesces =>
      rw [if_pos firstCoalesces] at named
      simp only [some.injEq, Prod.mk.injEq] at same
      rw [named, eventID, eventID, same.1, same.2.1, same.2.2]
    next => cases same

theorem Names.id_ne (single : canCoalesce event = false)
    (few : (uniques dispatcher.sentSinceFlush).length < 65536) :
    id ≠ eventID nameHash event dispatcher.uniqueCoalescingKeyGenerator := by
  rintro rfl
  obtain ⟨first, firstMember, -, named⟩ := names
  split at named
  next firstCoalesces =>
    obtain ⟨-, names, -⟩ := eventID_injective distinguished member (among first firstMember) named
    rw [distinguished.kinds event member first (among first firstMember) names] at single
    rw [single] at firstCoalesces
    cases firstCoalesces
  next =>
    obtain ⟨age, positive, old, same⟩ := named
    obtain ⟨-, -, keys⟩ := eventID_injective distinguished member (among first firstMember) same
    have numbers := congrArg BitVec.toNat keys
    rw [toNat_sub, toNat_ofNat] at numbers
    omega

end

@[simp] theorem schedule_events : dispatcher.schedule.events = dispatcher.events := by
  unfold schedule
  split <;> rfl

@[simp] theorem schedule_eventQueue : dispatcher.schedule.eventQueue = dispatcher.eventQueue := by
  unfold schedule
  split <;> rfl

@[simp] theorem schedule_uniqueCoalescingKeyGenerator :
    dispatcher.schedule.uniqueCoalescingKeyGenerator = dispatcher.uniqueCoalescingKeyGenerator := by
  unfold schedule
  split <;> rfl

theorem Names.later {next : RCTEventDispatcher Event} {id : BitVec 64} {group grown : List Event}
    (names : Names nameHash dispatcher id group)
    (sends : next.sentSinceFlush = dispatcher.sentSinceFlush ++ [event])
    (generates : next.uniqueCoalescingKeyGenerator =
      dispatcher.uniqueCoalescingKeyGenerator + if canCoalesce event then 0 else 1)
    (heads : grown.head? = group.head?) : Names nameHash next id grown := by
  obtain ⟨first, member, head, named⟩ := names
  refine ⟨first, sends ▸ mem_append_left [event] member, heads.trans head, ?_⟩
  split at named
  next firstCoalesces =>
    rw [if_pos firstCoalesces]
    exact named
  next firstSingle =>
    obtain ⟨age, positive, old, same⟩ := named
    rw [if_neg firstSingle, sends, generates, uniques, filter_append, length_append]
    by_cases coalesces : canCoalesce event
    · refine ⟨age, positive, ?_, ?_⟩
      · simpa [coalesces, uniques] using old
      · simpa [coalesces] using same
    · refine ⟨age + 1, Nat.succ_pos age, ?_, ?_⟩
      · simpa [coalesces, uniques] using old
      · have behind : dispatcher.uniqueCoalescingKeyGenerator + 1 - BitVec.ofNat 16 (age + 1) =
            dispatcher.uniqueCoalescingKeyGenerator - BitVec.ofNat 16 age := by
          bv_omega
        rw [if_neg coalesces, behind]
        exact same

end

/-! ### Sending -/

theorem add_frame (nameHash : Name → BitVec 64) (dispatcher : RCTEventDispatcher Event)
    (event : Event) : ∃ events eventQueue generator,
      dispatcher.add nameHash event = { dispatcher with
        events := events
        eventQueue := eventQueue
        uniqueCoalescingKeyGenerator := generator } := by
  unfold add
  split
  next =>
    dsimp only
    split
    next previous _ => exact ⟨_, _, _, rfl⟩
    next => exact ⟨_, _, _, rfl⟩
  next => exact ⟨_, _, _, rfl⟩

variable (dispatcher : RCTEventDispatcher Event) (event : Event)

theorem sendEvent_frame : (dispatcher.sendEvent nameHash event).flushing = dispatcher.flushing ∧
      (dispatcher.sendEvent nameHash event).dispatched = dispatcher.dispatched ∧
      (dispatcher.sendEvent nameHash event).flushed = dispatcher.flushed := by
  obtain ⟨_, _, _, added⟩ := add_frame nameHash dispatcher event
  unfold RCTEventDispatcher.sendEvent schedule
  rw [added]
  split <;> exact ⟨rfl, rfl, rfl⟩

theorem sendEvent_taken : (dispatcher.sendEvent nameHash event).taken = dispatcher.taken := by
  obtain ⟨_, _, _, added⟩ := add_frame nameHash dispatcher event
  unfold RCTEventDispatcher.sendEvent schedule
  rw [added]
  split <;> rfl

theorem sendEvent_schedules (scheduled : dispatcher.senders + dispatcher.blocks =
      if dispatcher.eventsDispatchScheduled then 1 else 0) :
    (dispatcher.sendEvent nameHash event).eventsDispatchScheduled = true ∧
      (dispatcher.sendEvent nameHash event).senders +
        (dispatcher.sendEvent nameHash event).blocks = 1 := by
  obtain ⟨events, eventQueue, generator, added⟩ := add_frame nameHash dispatcher event
  unfold RCTEventDispatcher.sendEvent schedule
  rw [added]
  split
  next already =>
    rw [if_pos already] at scheduled
    exact ⟨already, scheduled⟩
  next first =>
    rw [if_neg first] at scheduled
    refine ⟨rfl, ?_⟩
    dsimp only
    omega

theorem batches_of_run {dispatcher final : RCTEventDispatcher Event}
    {actions : List (RCTDispatcherAction Event)}
    (ran : Runs.run (step nameHash) dispatcher actions = some final) :
    final.flushed.flatten ++ final.sentSinceFlush =
      dispatcher.flushed.flatten ++ dispatcher.sentSinceFlush ++ sentEvents actions := by
  induction actions generalizing dispatcher with
  | nil =>
    cases ran
    exact (append_nil _).symm
  | cons action _ ih =>
    obtain ⟨next, stepped, ranRest⟩ := Runs.run_cons.mp ran
    rw [ih ranRest]
    cases action with
    | sendEvent event =>
      cases stepped
      obtain ⟨-, -, flushed⟩ := sendEvent_frame dispatcher event
      rw [flushed]
      simp [RCTEventDispatcher.sendEvent, sentEvents]
    | dispatchBlock =>
      obtain ⟨waiting, ⟨⟩⟩ := ite_none_right_eq_some.mp stepped
      rfl
    | flushEventsQueue =>
      obtain ⟨waiting, ⟨⟩⟩ := ite_none_right_eq_some.mp stepped
      simp [RCTEventDispatcher.flushEventsQueue, sentEvents]
    | dispatchEvent =>
      unfold RCTEventDispatcher.step at stepped
      dsimp only at stepped
      split at stepped
      next => cases stepped
      next event remaining flushing =>
        cases stepped
        rfl

variable [DecidableEq Name]

structure Queued (nameHash : Name → BitVec 64) (dispatcher : RCTEventDispatcher Event) : Prop where
  holds : List.Forall₂ (fun id group => Names nameHash dispatcher id group ∧
      ∃ event, merged group = some event ∧ dispatcher.events id = some event)
    dispatcher.eventQueue (groups dispatcher.sentSinceFlush)
  known : ∀ id event, dispatcher.events id = some event → id ∈ dispatcher.eventQueue

section

variable {sent : List Event} {dispatcher : RCTEventDispatcher Event} {event : Event}

theorem Queued.known_iff (queued : Queued nameHash dispatcher)
    (distinguished : Distinguished nameHash sent)
    (among : ∀ earlier ∈ dispatcher.sentSinceFlush, earlier ∈ sent) (member : event ∈ sent)
    (coalesces : canCoalesce event = true) :
    (∃ previous, dispatcher.events (eventID nameHash event (coalescingKey event)) = some previous) ↔
      ∃ earlier ∈ dispatcher.sentSinceFlush, mergeKey earlier = mergeKey event := by
  have keyed : mergeKey event = some (viewTag event, eventName event, coalescingKey event) :=
    if_pos coalesces
  constructor
  · rintro ⟨previous, found⟩
    obtain ⟨group, grouped, names, -⟩ :=
      RelatedLists.exists_right_of_mem queued.holds (queued.known _ previous found)
    have same := (names.id_eq_iff distinguished among member coalesces).mp rfl
    rcases mem_groups grouped with ⟨_, -, single, rfl⟩ | ⟨-, -, -, -⟩
    · rw [groupKey_cons, single, keyed] at same
      cases same
    · obtain ⟨first, firstMember, head, -⟩ := names
      rw [groupKey, head] at same
      exact ⟨first, firstMember, same⟩
  · rintro ⟨earlier, sentBefore, same⟩
    obtain ⟨group, grouped, groupKeyed⟩ := groupKey_of_mem (same.trans keyed) not_mem_nil sentBefore
    obtain ⟨_, -, names, previous, -, found⟩ := RelatedLists.exists_left_of_mem queued.holds grouped
    have ids := (names.id_eq_iff distinguished among member coalesces).mpr
      (groupKeyed.trans keyed.symm)
    exact ⟨previous, ids ▸ found⟩

variable {next : RCTEventDispatcher Event} {id : BitVec 64}

theorem Queued.enqueue (queued : Queued nameHash dispatcher) (fresh : id ∉ dispatcher.eventQueue)
    (sends : next.sentSinceFlush = dispatcher.sentSinceFlush ++ [event])
    (generates : next.uniqueCoalescingKeyGenerator =
      dispatcher.uniqueCoalescingKeyGenerator + if canCoalesce event then 0 else 1)
    (queues : next.eventQueue = dispatcher.eventQueue ++ [id])
    (stores : next.events = Function.update dispatcher.events id (some event))
    (opens : groups (dispatcher.sentSinceFlush ++ [event]) =
      groups dispatcher.sentSinceFlush ++ [[event]]) (names : Names nameHash next id [event]) :
    Queued nameHash next := by
  constructor
  · rw [queues, sends, opens]
    apply rel_append
    · have others := (forall₂_and_left _ _).mpr
        ⟨fun other inQueue (same : other = id) => fresh (same ▸ inQueue), queued.holds⟩
      refine others.imp ?_
      rintro other group ⟨differs, otherNames, content, merges, stored⟩
      refine ⟨otherNames.later sends generates rfl, content, merges, ?_⟩
      rw [stores, Function.update_of_ne differs, stored]
    · exact .cons ⟨names, event, rfl, by rw [stores, Function.update_self]⟩ .nil
  · intro other content found
    rw [stores] at found
    rw [queues, mem_append, mem_singleton]
    by_cases same : other = id
    · exact .inr same
    · rw [Function.update_of_ne same] at found
      exact .inl (queued.known other content found)

theorem Queued.stored (queued : Queued nameHash dispatcher) (member : id ∈ dispatcher.eventQueue) :
    ∃ event, dispatcher.events id = some event := by
  obtain ⟨-, -, -, event, -, found⟩ := RelatedLists.exists_right_of_mem queued.holds member
  exact ⟨event, found⟩

section

variable (queued : Queued nameHash dispatcher) (distinguished : Distinguished nameHash sent)
  (among : ∀ earlier ∈ dispatcher.sentSinceFlush, earlier ∈ sent) (member : event ∈ sent)
include queued distinguished among member

theorem Queued.coalesce {previous : Event} (coalesces : canCoalesce event = true)
    (found : dispatcher.events (eventID nameHash event (coalescingKey event)) = some previous)
    (sends : next.sentSinceFlush = dispatcher.sentSinceFlush ++ [event])
    (generates : next.uniqueCoalescingKeyGenerator = dispatcher.uniqueCoalescingKeyGenerator)
    (queues : next.eventQueue = dispatcher.eventQueue)
    (stores : next.events = Function.update dispatcher.events
      (eventID nameHash event (coalescingKey event)) (some (coalesceWithEvent previous event))) :
    Queued nameHash next := by
  have keyed : mergeKey event = some (viewTag event, eventName event, coalescingKey event) :=
    if_pos coalesces
  -- The event is stored, so an earlier event of the batch has its key: it joins that group.
  have later := (queued.known_iff distinguished among member coalesces).mp ⟨previous, found⟩
  have generator : next.uniqueCoalescingKeyGenerator =
      dispatcher.uniqueCoalescingKeyGenerator + if canCoalesce event then 0 else 1 := by
    simp [coalesces, generates]
  constructor
  · rw [queues, sends, groups, groups_append_later keyed not_mem_nil (keyed ▸ later),
      forall₂_map_right_iff]
    refine queued.holds.imp ?_
    rintro id group ⟨names, content, merges, stored⟩
    have ids := names.id_eq_iff distinguished among member coalesces
    rw [keyed] at ids
    -- The group with this id takes the event; the others keep theirs, by distinct ids.
    by_cases same : id = eventID nameHash event (coalescingKey event)
    · rw [if_pos (ids.mp same)]
      subst same
      cases found.symm.trans stored
      refine ⟨names.later sends generator ?_, coalesceWithEvent previous event,
        merge_append_singleton event merges, by rw [stores, Function.update_self]⟩
      obtain ⟨_, -, head, -⟩ := names
      rw [head?_append, head]
      rfl
    · rw [if_neg (mt ids.mpr same)]
      refine ⟨names.later sends generator rfl, content, merges, ?_⟩
      rw [stores, Function.update_of_ne same, stored]
  · intro id content held
    rw [queues]
    rw [stores] at held
    by_cases same : id = eventID nameHash event (coalescingKey event)
    · exact queued.known id previous (same ▸ found)
    · rw [Function.update_of_ne same] at held
      exact queued.known id content held

theorem Queued.sendEvent (few : (uniques (dispatcher.sentSinceFlush ++ [event])).length < 65536) :
    Queued nameHash (dispatcher.sendEvent nameHash event) := by
  have last : event ∈ dispatcher.sentSinceFlush ++ [event] := by simp
  by_cases coalesces : canCoalesce event
  -- A stored event is coalesced with; otherwise the event opens a group and is queued.
  · cases found : dispatcher.events (eventID nameHash event (coalescingKey event)) with
    | some previous =>
      refine queued.coalesce distinguished among member coalesces found rfl ?_ ?_ ?_
      all_goals simp [RCTEventDispatcher.sendEvent, add, coalesces, found]
    | none =>
      have keyed : mergeKey event = some (viewTag event, eventName event, coalescingKey event) :=
        if_pos coalesces
      have fresh : eventID nameHash event (coalescingKey event) ∉ dispatcher.eventQueue := by
        intro inQueue
        obtain ⟨previous, other⟩ := queued.stored inQueue
        rw [found] at other
        cases other
      have first : ∀ earlier ∈ dispatcher.sentSinceFlush, mergeKey earlier ≠ mergeKey event := by
        intro earlier inBatch same
        obtain ⟨previous, other⟩ :=
          (queued.known_iff distinguished among member coalesces).mpr ⟨earlier, inBatch, same⟩
        rw [found] at other
        cases other
      refine queued.enqueue fresh rfl ?_ ?_ ?_
        (groups_append_first keyed not_mem_nil (keyed ▸ first))
        ⟨event, last, rfl, by rw [if_pos coalesces]⟩
      all_goals
        simp [RCTEventDispatcher.sendEvent, add, coalesces, found, RCTEventDispatcher.enqueue]
  -- An event that never coalesces gets a new key, and with it an id of its own.
  · have single : canCoalesce event = false := by simpa using coalesces
    have keyless : mergeKey event = none := if_neg coalesces
    have fewBefore : (uniques dispatcher.sentSinceFlush).length < 65536 := by
      rw [uniques, filter_append, length_append] at few
      exact Nat.lt_of_le_of_lt (Nat.le_add_right _ _) few
    have fresh : eventID nameHash event dispatcher.uniqueCoalescingKeyGenerator ∉
        dispatcher.eventQueue := by
      intro inQueue
      obtain ⟨_, -, names, -⟩ := RelatedLists.exists_right_of_mem queued.holds inQueue
      exact names.id_ne distinguished among member single fewBefore rfl
    have opens : groups (dispatcher.sentSinceFlush ++ [event]) =
        groups dispatcher.sentSinceFlush ++ [[event]] :=
      groups_append_single keyless [] dispatcher.sentSinceFlush
    have generates : (dispatcher.sendEvent nameHash event).uniqueCoalescingKeyGenerator =
        dispatcher.uniqueCoalescingKeyGenerator + 1 := by
      simp [RCTEventDispatcher.sendEvent, add, single]
    -- The key that was handed out is the one before the generator's next value.
    have newest : dispatcher.uniqueCoalescingKeyGenerator + 1 - BitVec.ofNat 16 1 =
        dispatcher.uniqueCoalescingKeyGenerator := by
      bv_omega
    refine queued.enqueue fresh rfl ?_ ?_ ?_ opens ⟨event, last, rfl, ?_⟩
    · rw [generates, if_neg coalesces]
    · simp [RCTEventDispatcher.sendEvent, add, single, RCTEventDispatcher.enqueue]
    · simp [RCTEventDispatcher.sendEvent, add, single, RCTEventDispatcher.enqueue]
    · rw [if_neg coalesces]
      refine ⟨1, Nat.one_pos, ?_, ?_⟩
      · simp [RCTEventDispatcher.sendEvent, uniques, single]
      · rw [generates, newest]

end

end

/-! ### Runs -/

variable {dispatcher : RCTEventDispatcher Event}

structure Delivers (dispatcher : RCTEventDispatcher Event) (sent : List Event) : Prop where
  /-- Every event was sent between two flushes or after the last one. -/
  batches : dispatcher.flushed.flatten ++ dispatcher.sentSinceFlush = sent
  /-- Each group of each batch is dispatched as one event, in order. -/
  dispatches : dispatcher.dispatched ++ dispatcher.flushing =
    (dispatcher.flushed.flatMap groups).map merged
  queues : dispatcher.eventQueue.map dispatcher.events =
    (groups dispatcher.sentSinceFlush).map merged
  /-- An event that cannot be coalesced is a group of its own, the others are with all events of the
  batch that have their view, name and coalescing key. -/
  grouped : ∀ batch ∈ dispatcher.flushed ++ [dispatcher.sentSinceFlush], ∀ group ∈ groups batch,
    (∃ event ∈ batch, canCoalesce event = false ∧ group = [event]) ∨
      ∃ key, group = batch.filter (fun event => mergeKey event = some key) ∧ group ≠ []
  /-- A group is where its first event is. -/
  places : ∀ batch ∈ dispatcher.flushed ++ [dispatcher.sentSinceFlush],
    ((groups batch).filterMap head?).Sublist batch
  singles : ((dispatcher.flushed ++ [dispatcher.sentSinceFlush]).flatMap groups).filter
      (fun group : List Event => groupKey mergeKey group = none) =
    (uniques sent).map fun event => [event]
  schedules : dispatcher.eventQueue ≠ [] →
    dispatcher.eventsDispatchScheduled = true ∧ 0 < dispatcher.senders + dispatcher.blocks

/-- The invariant of the runs that send none but the given events. -/
structure Kept (nameHash : Name → BitVec 64) (sent : List Event)
    (dispatcher : RCTEventDispatcher Event) : Prop where
  queued : Queued nameHash dispatcher
  among : ∀ event ∈ dispatcher.sentSinceFlush, event ∈ sent
  dispatches : dispatcher.dispatched ++ dispatcher.flushing =
    (dispatcher.flushed.flatMap groups).map merged
  scheduled : dispatcher.senders + dispatcher.blocks =
    if dispatcher.eventsDispatchScheduled then 1 else 0
  flagged : dispatcher.eventQueue ≠ [] → dispatcher.eventsDispatchScheduled = true

theorem Queued.contents (queued : Queued nameHash dispatcher) :
    dispatcher.eventQueue.map dispatcher.events =
      (groups dispatcher.sentSinceFlush).map merged := by
  rw [← forall₂_eq_eq_eq, forall₂_map_left_iff, forall₂_map_right_iff]
  refine queued.holds.imp ?_
  rintro id group ⟨-, _, merges, stored⟩
  rw [merges, stored]

theorem Kept.step {next : RCTEventDispatcher Event} {action : RCTDispatcherAction Event}
    (kept : Kept nameHash sent dispatcher) (distinguished : Distinguished nameHash sent)
    (few : FewUniques dispatcher action)
    (member : ∀ event, action = .sendEvent event → event ∈ sent)
    (stepped : step nameHash dispatcher action = some next) : Kept nameHash sent next := by
  -- One case for each action; only sending adds events, only the flush empties the table.
  cases action with
  | sendEvent event =>
    cases stepped
    have queued := kept.queued.sendEvent distinguished kept.among (member event rfl) few
    obtain ⟨flushing, dispatched, flushed⟩ := sendEvent_frame dispatcher event
    obtain ⟨flag, one⟩ := sendEvent_schedules dispatcher event kept.scheduled
    constructor
    · exact queued
    · intro earlier sentBefore
      rcases mem_append.mp sentBefore with before | last
      · exact kept.among earlier before
      · rw [mem_singleton.mp last]
        exact member event rfl
    · rw [flushing, dispatched, flushed]
      exact kept.dispatches
    · rw [one, flag, if_pos rfl]
    · intro _
      exact flag
  | dispatchBlock =>
    obtain ⟨waiting, ⟨⟩⟩ := ite_none_right_eq_some.mp stepped
    have moved : dispatcher.senders - 1 + (dispatcher.blocks + 1) =
        dispatcher.senders + dispatcher.blocks := by omega
    exact ⟨⟨kept.queued.holds, kept.queued.known⟩, kept.among, kept.dispatches,
      moved.trans kept.scheduled, kept.flagged⟩
  | flushEventsQueue =>
    obtain ⟨⟨waiting, idle⟩, ⟨⟩⟩ := ite_none_right_eq_some.mp stepped
    have scheduled := kept.scheduled
    have empty := kept.dispatches
    rw [List.isEmpty_iff.mp idle, append_nil] at empty
    constructor
    · exact ⟨.nil, nofun⟩
    · nofun
    · simp [RCTEventDispatcher.flushEventsQueue, empty, kept.queued.contents]
    · simp only [RCTEventDispatcher.flushEventsQueue]
      split at scheduled
      next => simp; omega
      next => omega
    · intro nonempty
      exact absurd rfl nonempty
  | dispatchEvent =>
    unfold RCTEventDispatcher.step at stepped
    dsimp only at stepped
    split at stepped
    next => cases stepped
    next event rest flushing =>
      cases stepped
      have dispatches := kept.dispatches
      rw [flushing] at dispatches
      exact ⟨⟨kept.queued.holds, kept.queued.known⟩, kept.among,
        (append_assoc _ [event] rest).trans dispatches, kept.scheduled, kept.flagged⟩

theorem singles_of_batches (batches : List (List Event)) : (batches.flatMap groups).filter
        (fun group : List Event => groupKey mergeKey group = none) =
      (uniques batches.flatten).map fun event => [event] := by
  have keyless : ∀ event : Event, decide (mergeKey event = none) = !canCoalesce event := by
    simp [mergeKey]
  induction batches with
  | nil => rfl
  | cons batch _ ih =>
    have here : (groups batch).filter
        (fun group : List Event => groupKey mergeKey group = none) = _ :=
      singles_groups [] batch
    simp only [keyless] at here
    rw [flatMap_cons, filter_append, here, ih, flatten_cons, uniques, uniques,
      filter_append, map_append]

theorem Kept.delivers (kept : Kept nameHash sent dispatcher)
    (batches : dispatcher.flushed.flatten ++ dispatcher.sentSinceFlush = sent) :
    Delivers dispatcher sent := by
  constructor
  · exact batches
  · exact kept.dispatches
  · exact kept.queued.contents
  · intro batch _ group grouped
    rcases mem_groups grouped with ⟨event, member, single, rfl⟩ | ⟨key, -, all, keyed⟩
    · left
      exact ⟨event, member, by simpa [mergeKey] using single, rfl⟩
    · right
      refine ⟨key, all, ?_⟩
      rintro rfl
      cases keyed
  · intro batch _
    exact heads_groups [] batch
  · rw [singles_of_batches, flatten_append, flatten_singleton, batches]
  · intro nonempty
    have scheduled := kept.scheduled
    rw [if_pos (kept.flagged nonempty)] at scheduled
    exact ⟨kept.flagged nonempty, by omega⟩

/-- **The event queue** neither loses nor reorders events. -/
theorem delivers_of_run {generator : BitVec 16} {actions : List (RCTDispatcherAction Event)}
    {final : RCTEventDispatcher Event} (distinguished : Distinguished nameHash (sentEvents actions))
    (few : Runs.Along (step nameHash) FewUniques (setBridge generator) actions)
    (ran : Runs.run (step nameHash) (setBridge generator) actions = some final) :
    Delivers final (sentEvents actions) := by
  have start : Kept nameHash (sentEvents actions) (setBridge generator) :=
    ⟨⟨.nil, nofun⟩, nofun, rfl, rfl, fun nonempty => absurd rfl nonempty⟩
  have sends : ∀ action ∈ actions, ∀ event, action = .sendEvent event →
      event ∈ sentEvents actions := by
    rintro action member event rfl
    exact mem_filterMap.mpr ⟨_, member, rfl⟩
  have along := Runs.along_and few (Runs.along_of_forall sends (setBridge generator))
  have kept : Kept nameHash (sentEvents actions) final :=
    Runs.run_induction
      (fun _ _ _ kept both stepped => kept.step distinguished both.1 both.2 stepped) start along ran
  exact kept.delivers (batches_of_run ran)

structure OffsetEvent where
  scrolls : Bool
  offset : ℕ
  deriving DecidableEq

instance : RCTEvent OffsetEvent Bool where
  viewTag _ := 7
  eventName event := event.scrolls
  canCoalesce event := event.scrolls
  coalescingKey _ := 0
  coalesceWithEvent older newer := ⟨newer.scrolls, older.offset + newer.offset⟩

def offsetActions : List (RCTDispatcherAction OffsetEvent) :=
  [.sendEvent ⟨true, 1⟩, .sendEvent ⟨false, 2⟩, .dispatchBlock, .sendEvent ⟨true, 3⟩,
    .flushEventsQueue, .sendEvent ⟨true, 4⟩, .dispatchEvent, .dispatchEvent]

theorem delivers_of_run_offsetActions :
    ∃ final, Runs.run (step fun scrolls => if scrolls then 1 else 2) (setBridge 65535)
        offsetActions = some final ∧
      Delivers final [⟨true, 1⟩, ⟨false, 2⟩, ⟨true, 3⟩, ⟨true, 4⟩] ∧
      final.dispatched = [some ⟨true, 4⟩, some ⟨false, 2⟩] := by
  have ends : (Runs.run (step fun scrolls => if scrolls then 1 else 2) (setBridge 65535)
      offsetActions).isSome = true := by decide
  obtain ⟨final, ran⟩ := isSome_iff_exists.mp ends
  refine ⟨final, ran, delivers_of_run ?_ ?_ ran, ?_⟩
  · constructor <;> decide
  · decide
  · have dispatched : (Runs.run (step fun scrolls => if scrolls then 1 else 2) (setBridge 65535)
        offsetActions).map RCTEventDispatcher.dispatched =
      some [some ⟨true, 4⟩, some ⟨false, 2⟩] := by decide
    rw [ran] at dispatched
    exact some.inj dispatched

end RCTEventDispatcher

end ReactNative

