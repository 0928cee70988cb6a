import ReactNative.Events.RCTTouchCoalescing

/-! The ids of moves are those of moves only, so that the queue keeps one event for each of their
keys, however many other events there are. -/
namespace ReactNative

open RCTTouchEvent RCTEventDispatcher List

namespace RCTTouchHandler

variable {Touch Location : Type} {nameHash : RCTTouchEventName → BitVec 64}

def moveID (nameHash : RCTTouchEventName → BitVec 64) (viewTag : ℤ) (key : BitVec 16) : BitVec 64 :=
  getEventID viewTag (nameHash .touchMove) key

/-- Moves have a name of their own, and the tag of the view is a positive `int`. -/
structure TellsMoves (nameHash : RCTTouchEventName → BitVec 64) (viewTag : ℤ) : Prop where
  positive : 0 < viewTag ∧ viewTag < 2 ^ 31
  hashes : ∀ name, nameHash name &&& 0xFFFF = nameHash .touchMove &&& 0xFFFF → name = .touchMove

structure KeepsMoves (nameHash : RCTTouchEventName → BitVec 64) (viewTag : ℤ)
    (dispatcher : RCTEventDispatcher (RCTTouchEvent Touch Location)) : Prop where
  own : ∀ id event, dispatcher.events id = some event → event.canCoalesce →
    id = moveID nameHash viewTag event.coalescingKey
  contents : ∀ key, dispatcher.events (moveID nameHash viewTag key) =
    Coalescing.merge coalesceWithEvent (movesWith key dispatcher.sentSinceFlush)
  queued : ∀ key, dispatcher.eventQueue.count (moveID nameHash viewTag key) =
    if movesWith key dispatcher.sentSinceFlush = [] then 0 else 1

variable {viewTag : ℤ} {dispatcher : RCTEventDispatcher (RCTTouchEvent Touch Location)}
  {event : RCTTouchEvent Touch Location} {key : BitVec 16}

theorem coalesceWithEvent_eq (event newEvent : RCTTouchEvent Touch Location) :
    event.coalesceWithEvent newEvent = event ∨ event.coalesceWithEvent newEvent = newEvent := by
  rw [coalesceWithEvent]
  split
  next => exact .inr rfl
  next => exact .inl rfl

theorem moveID_injective (tells : TellsMoves nameHash viewTag) {other : BitVec 16}
    (same : moveID nameHash viewTag key = moveID nameHash viewTag other) : key = other :=
  (getEventID_injective tells.positive tells.positive same).2.2

theorem eventID_of_move (view : event.viewTag = viewTag) (moves : event.canCoalesce) :
    eventID nameHash event event.coalescingKey = moveID nameHash viewTag event.coalescingKey := by
  have isMove : event.eventName = .touchMove := by
    simpa [RCTTouchEvent.canCoalesce] using moves
  show getEventID event.viewTag (nameHash event.eventName) event.coalescingKey = _
  rw [view, isMove, moveID]

theorem eventID_ne_moveID (tells : TellsMoves nameHash viewTag) (view : event.viewTag = viewTag)
    (boundary : event.canCoalesce = false) (generated : BitVec 16) :
    eventID nameHash event generated ≠ moveID nameHash viewTag key := by
  intro same
  have tag : RCTEvent.viewTag event = viewTag := view
  have hashes := (getEventID_injective (tag ▸ tells.positive) tells.positive same).2.1
  have isMove : event.eventName = .touchMove := tells.hashes _ hashes
  rw [RCTTouchEvent.canCoalesce, isMove] at boundary
  cases boundary

variable {batch : List (RCTTouchEvent Touch Location)}

theorem movesWith_append_of_other (other : isMoveWith key event = false) :
    movesWith key (batch ++ [event]) = movesWith key batch := by
  rw [movesWith, filter_append, filter_cons_of_neg (by simp [other])]
  exact append_nil _

theorem movesWith_append_of_move (moves : event.canCoalesce) :
    movesWith event.coalescingKey (batch ++ [event]) =
      movesWith event.coalescingKey batch ++ [event] := by
  rw [movesWith, filter_append, filter_cons_of_pos (by simp [isMoveWith, moves])]
  rfl

section

variable (keeps : KeepsMoves nameHash viewTag dispatcher) (tells : TellsMoves nameHash viewTag)
  (view : event.viewTag = viewTag)
include keeps tells view

theorem KeepsMoves.sendMove (moves : event.canCoalesce) :
    KeepsMoves nameHash viewTag (dispatcher.sendEvent nameHash event) := by
  have coalesces : RCTEvent.canCoalesce event = true := moves
  have id : eventID nameHash event (RCTEvent.coalescingKey event) =
      moveID nameHash viewTag event.coalescingKey := eventID_of_move view moves
  have held := keeps.contents event.coalescingKey
  have queued := keeps.queued event.coalescingKey
  have sent : (dispatcher.sendEvent nameHash event).sentSinceFlush =
      dispatcher.sentSinceFlush ++ [event] := rfl
  have others : ∀ key, key ≠ event.coalescingKey → isMoveWith key event = false := by
    intro key differs
    simp [isMoveWith, Ne.symm differs]
  -- What the queue holds for the key is the merge of its moves, with one more of them.
  obtain ⟨content, events, merges, own, queue⟩ : ∃ content,
      (dispatcher.sendEvent nameHash event).events = Function.update dispatcher.events
        (moveID nameHash viewTag event.coalescingKey) (some content) ∧
      Coalescing.merge coalesceWithEvent (movesWith event.coalescingKey dispatcher.sentSinceFlush ++
        [event]) = some content ∧
      (content.canCoalesce → content.coalescingKey = event.coalescingKey) ∧
      (dispatcher.sendEvent nameHash event).eventQueue =
        if movesWith event.coalescingKey dispatcher.sentSinceFlush = [] then
          dispatcher.eventQueue ++ [moveID nameHash viewTag event.coalescingKey]
        else dispatcher.eventQueue := by
    cases found : dispatcher.events (moveID nameHash viewTag event.coalescingKey) with
    | some previous =>
      rw [found] at held
      have some : movesWith event.coalescingKey dispatcher.sentSinceFlush ≠ [] := by
        intro none
        rw [none] at held
        cases held
      refine ⟨previous.coalesceWithEvent event, ?_,
        Coalescing.merge_append_singleton event held.symm, ?_, ?_⟩
      · simp [sendEvent, add, coalesces, id, found]
        rfl
      · rcases coalesceWithEvent_eq previous event with older | newer
        · rw [older]
          intro isMove
          exact (moveID_injective tells (keeps.own _ previous found isMove)).symm
        · rw [newer]
          intro _
          rfl
      · rw [if_neg some]
        simp [sendEvent, add, coalesces, id, found]
    | none =>
      rw [found] at held
      have none := Coalescing.merge_eq_none_iff.mp held.symm
      refine ⟨event, ?_, ?_, fun _ => rfl, ?_⟩
      · simp [sendEvent, add, coalesces, id, found, enqueue]
      · rw [none]
        rfl
      · rw [if_pos none]
        simp [sendEvent, add, coalesces, id, found, enqueue]
  constructor
  · intro stored other found isMove
    rw [events] at found
    by_cases same : stored = moveID nameHash viewTag event.coalescingKey
    · rw [same, Function.update_self] at found
      cases found
      rw [same, own isMove]
    · rw [Function.update_of_ne same] at found
      exact keeps.own stored other found isMove
  · intro key
    rw [events, sent]
    by_cases same : key = event.coalescingKey
    · subst same
      rw [Function.update_self, movesWith_append_of_move moves, merges]
    · rw [Function.update_of_ne (mt (moveID_injective tells) same),
        movesWith_append_of_other (others key same)]
      exact keeps.contents key
  · intro key
    rw [queue, sent]
    by_cases same : key = event.coalescingKey
    · subst same
      rw [movesWith_append_of_move moves, if_neg (append_ne_nil_of_right_ne_nil _ (by simp))]
      split
      next none =>
        rw [count_append, queued, if_pos none]
        simp
      next some => rw [queued, if_neg some]
    · rw [movesWith_append_of_other (others key same), ← keeps.queued key]
      split
      next =>
        simp [Ne.symm (mt (moveID_injective tells) same)]
      next => rfl

theorem KeepsMoves.sendBoundary (boundary : event.canCoalesce = false) :
    KeepsMoves nameHash viewTag (dispatcher.sendEvent nameHash event) := by
  -- A boundary has an id of its own, which is that of no move.
  have uniques : RCTEvent.canCoalesce event = false := boundary
  have events : (dispatcher.sendEvent nameHash event).events = Function.update dispatcher.events
        (eventID nameHash event dispatcher.uniqueCoalescingKeyGenerator)
        (some event) := by
    simp [sendEvent, add, uniques, enqueue]
  have queue : (dispatcher.sendEvent nameHash event).eventQueue = dispatcher.eventQueue ++
      [eventID nameHash event dispatcher.uniqueCoalescingKeyGenerator] := by
    simp [sendEvent, add, uniques, enqueue]
  have sent : (dispatcher.sendEvent nameHash event).sentSinceFlush =
      dispatcher.sentSinceFlush ++ [event] := rfl
  -- It is a move with no key, and changes what no key stands for.
  have other : ∀ key, isMoveWith key event = false := fun key => by simp [isMoveWith, boundary]
  constructor
  · intro id stored found isMove
    rw [events] at found
    by_cases same : id = eventID nameHash event dispatcher.uniqueCoalescingKeyGenerator
    · rw [same, Function.update_self] at found
      cases found
      rw [boundary] at isMove
      cases isMove
    · rw [Function.update_of_ne same] at found
      exact keeps.own id stored found isMove
  · intro key
    rw [events, sent, movesWith_append_of_other (other key),
      Function.update_of_ne (eventID_ne_moveID tells view boundary _).symm]
    exact keeps.contents key
  · intro key
    rw [queue, sent, movesWith_append_of_other (other key), count_append, keeps.queued key,
      count_singleton]
    simp [eventID_ne_moveID tells view boundary]

end

theorem KeepsMoves.deliversMoves (keeps : KeepsMoves nameHash viewTag dispatcher) :
    DeliversMoves dispatcher.sentSinceFlush (dispatcher.eventQueue.map dispatcher.events) := by
  intro key
  -- In the queue just the id of the moves with this key has such a move.
  have ids : ∀ id ∈ dispatcher.eventQueue,
      (dispatcher.events id).any (isMoveWith key) = decide (id = moveID nameHash viewTag key) := by
    intro id inQueue
    by_cases same : id = moveID nameHash viewTag key
    · subst same
      have some : movesWith key dispatcher.sentSinceFlush ≠ [] := by
        intro none
        have absent := keeps.queued key
        rw [if_pos none] at absent
        exact count_eq_zero.mp absent inQueue
      obtain ⟨event, merges⟩ :=
        Option.ne_none_iff_exists'.mp (mt Coalescing.merge_eq_none_iff.mp some)
      have isMove := (mem_filter.mp (Coalescing.merge_mem coalesceWithEvent_eq merges)).2
      rw [keeps.contents key, merges]
      simp [isMove]
    · rw [decide_eq_false same, Option.any_eq_false]
      intro event found
      apply eq_false_of_ne_true
      intro isMove
      rw [isMoveWith, Bool.and_eq_true, decide_eq_true_eq] at isMove
      exact same (isMove.2 ▸ keeps.own id event found isMove.1)
  have taken : dispatcher.eventQueue.filter
      ((fun event => event.any (isMoveWith key)) ∘ dispatcher.events) =
        dispatcher.eventQueue.filter fun id => id = moveID nameHash viewTag key :=
    filter_congr ids
  -- That id is in the queue once if there are such moves, and not at all otherwise.
  rw [filter_map, taken, filter_eq, map_replicate, keeps.contents key, keeps.queued key]
  split
  next none =>
    rw [none]
    rfl
  next some =>
    obtain ⟨event, merges⟩ :=
      Option.ne_none_iff_exists'.mp (mt Coalescing.merge_eq_none_iff.mp some)
    rw [merges]
    rfl

theorem KeepsMoves.flush (dispatcher : RCTEventDispatcher (RCTTouchEvent Touch Location)) :
    KeepsMoves nameHash viewTag dispatcher.flushEventsQueue :=
  ⟨nofun, fun _ => rfl, fun _ => rfl⟩

end RCTTouchHandler

end ReactNative

