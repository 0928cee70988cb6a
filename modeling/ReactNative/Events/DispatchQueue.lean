import ReactNative.Events.EventDispatcher

/-! Moving an event to the queue has one of three outcomes (`Moves`): it is added, it takes the
place of the last event with its cookie, or it is dropped in favour of that one. -/
namespace ReactNative

open List Option Function

namespace EventQueues

variable {Content : Type} {queues after : EventQueues Content} {event lastEvent : Event Content}

/-! ### The queue as a list with gaps -/

theorem reduceOption_perm_set {entries : List (Option (Event Content))} {idx : ℕ}
    (found : entries[idx]? = some (some event)) :
    entries.reduceOption.Perm (event :: (entries.set idx none).reduceOption) := by
  induction entries generalizing idx with
  | nil => cases found
  | cons first _ ih =>
    cases idx with
    | zero =>
      cases found
      rw [set_cons_zero, reduceOption_cons_of_some, reduceOption_cons_of_none]
    | succ idx =>
      have later := ih found
      cases first with
      | none =>
        exact later
      | some first =>
        exact (later.cons first).trans (List.Perm.swap event first _)

variable (entries : List (Option (Event Content)))

theorem reduceOption_set_sublist (idx : ℕ) :
    (entries.set idx none).reduceOption.Sublist entries.reduceOption := by
  induction entries generalizing idx with
  | nil => exact List.Sublist.refl _
  | cons first _ ih =>
    cases idx with
    | zero =>
      cases first with
      | none => exact List.Sublist.refl _
      | some first => exact sublist_cons_self first _
    | succ idx =>
      cases first with
      | none => exact ih idx
      | some first => exact (ih idx).cons_cons first

theorem reduceOption_concat (event : Event Content) :
    (entries ++ [some event]).reduceOption = entries.reduceOption ++ [event] := by
  rw [reduceOption_append]
  rfl

/-! ### Cookies -/

def cookieOf (queues : EventQueues Content) (event : Event Content) : Option (BitVec 64) :=
  (queues.eventNameToEventId event.eventName).map fun eventTypeId =>
    getEventCookie event.viewTag eventTypeId event.coalescingKey

def Meets (lastEvent event : Event Content) : Prop :=
  lastEvent.canCoalesce = true ∧ event.canCoalesce = true ∧ ∃ lastTypeId eventTypeId,
      getEventCookie lastEvent.viewTag lastTypeId lastEvent.coalescingKey =
        getEventCookie event.viewTag eventTypeId event.coalescingKey

def TableSound (queues : EventQueues Content) : Prop :=
  ∀ eventCookie idx, queues.eventCookieToLastEventIdx eventCookie = some idx →
    ∃ event, queues.eventsToDispatch[idx]? = some (some event) ∧ event.canCoalesce = true ∧
      queues.cookieOf event = some eventCookie

inductive Moves (queues : EventQueues Content) (event : Event Content)
    (after : EventQueues Content) : Prop
  | added (toDispatch : after.eventsToDispatch = queues.eventsToDispatch ++ [some event])
      (coalesced : after.coalesced = queues.coalesced)
  | replaced (idx : ℕ) (lastEvent : Event Content)
      (found : queues.eventsToDispatch[idx]? = some (some lastEvent))
      (meets : Meets lastEvent event) (older : lastEvent.timestampMs ≤ event.timestampMs)
      (toDispatch : after.eventsToDispatch = queues.eventsToDispatch.set idx none ++ [some event])
      (coalesced : after.coalesced = queues.coalesced ++ [(lastEvent, event)])
  | dropped (idx : ℕ) (lastEvent : Event Content)
      (found : queues.eventsToDispatch[idx]? = some (some lastEvent))
      (meets : Meets lastEvent event)
      (newer : event.timestampMs < lastEvent.timestampMs ∨ event.id = lastEvent.id)
      (toDispatch : after.eventsToDispatch = queues.eventsToDispatch)
      (coalesced : after.coalesced = queues.coalesced ++ [(event, lastEvent)])

structure SameElsewhere (queues after : EventQueues Content) : Prop where
  eventStaging : after.eventStaging = queues.eventStaging
  staged : after.staged = queues.staged
  dispatched : after.dispatched = queues.dispatched

theorem SameElsewhere.trans {between : EventQueues Content} (first : SameElsewhere queues between)
    (second : SameElsewhere between after) : SameElsewhere queues after where
  eventStaging := second.eventStaging.trans first.eventStaging
  staged := second.staged.trans first.staged
  dispatched := second.dispatched.trans first.dispatched

theorem Moves.of_eq {named : EventQueues Content} (moves : Moves named event after)
    (sameQueue : named.eventsToDispatch = queues.eventsToDispatch)
    (sameCoalesced : named.coalesced = queues.coalesced) : Moves queues event after := by
  cases moves with
  | added toDispatch coalesced =>
    exact .added (sameQueue ▸ toDispatch) (sameCoalesced ▸ coalesced)
  | replaced idx lastEvent found meets older toDispatch coalesced =>
    exact .replaced idx lastEvent (sameQueue ▸ found) meets older (sameQueue ▸ toDispatch)
      (sameCoalesced ▸ coalesced)
  | dropped idx lastEvent found meets newer toDispatch coalesced =>
    exact .dropped idx lastEvent (sameQueue ▸ found) meets newer (sameQueue ▸ toDispatch)
      (sameCoalesced ▸ coalesced)

theorem getEventTypeId_spec (queues : EventQueues Content) (eventName : String) :
    ∃ after eventTypeId, queues.getEventTypeId eventName = (after, eventTypeId) ∧
      after = { queues with
        eventNameToEventId := after.eventNameToEventId
        nextEventTypeId := after.nextEventTypeId } ∧
      after.eventNameToEventId eventName = some eventTypeId ∧
      ∀ name known, queues.eventNameToEventId name = some known →
        after.eventNameToEventId name = some known := by
  unfold getEventTypeId
  split
  next eventTypeId known => exact ⟨queues, eventTypeId, rfl, rfl, known, fun _ _ => id⟩
  next unknown =>
    refine ⟨_, _, rfl, rfl, update_self _ _ _, fun name known isKnown => ?_⟩
    have differs : name ≠ eventName := by
      rintro rfl
      cases unknown.symm.trans isKnown
    exact (update_of_ne differs _ _).trans isKnown

theorem TableSound.of_names (sound : queues.TableSound)
    (table : after.eventCookieToLastEventIdx = queues.eventCookieToLastEventIdx)
    (toDispatch : after.eventsToDispatch = queues.eventsToDispatch)
    (names : ∀ name known, queues.eventNameToEventId name = some known →
      after.eventNameToEventId name = some known) : after.TableSound := by
  intro eventCookie idx found
  rw [table] at found
  obtain ⟨event, isEvent, coalesces, isCookie⟩ := sound eventCookie idx found
  obtain ⟨eventTypeId, isId, same⟩ := map_eq_some_iff.mp isCookie
  refine ⟨event, toDispatch ▸ isEvent, coalesces, ?_⟩
  exact map_eq_some_iff.mpr ⟨eventTypeId, names _ _ isId, same⟩

theorem TableSound.put (sound : queues.TableSound) {eventCookie : BitVec 64}
    {entries : List (Option (Event Content))} (coalesces : event.canCoalesce = true)
    (isCookie : queues.cookieOf event = some eventCookie)
    (length : entries.length = queues.eventsToDispatch.length)
    (others : ∀ other idx, other ≠ eventCookie → queues.eventCookieToLastEventIdx other = some idx →
      entries[idx]? = queues.eventsToDispatch[idx]?)
    (names : after.eventNameToEventId = queues.eventNameToEventId)
    (table : after.eventCookieToLastEventIdx = Function.update queues.eventCookieToLastEventIdx
      eventCookie (some queues.eventsToDispatch.length))
    (toDispatch : after.eventsToDispatch = entries ++ [some event]) : after.TableSound := by
  have sameCookie : ∀ other, after.cookieOf other = queues.cookieOf other := by
    intro other
    rw [cookieOf, cookieOf, names]
  intro other idx found
  rw [table] at found
  by_cases same : other = eventCookie
  · subst same
    rw [update_self] at found
    cases found
    refine ⟨event, ?_, coalesces, (sameCookie event).trans isCookie⟩
    rw [toDispatch, ← length]
    exact getElem?_concat_length
  · rw [update_of_ne same] at found
    obtain ⟨otherEvent, isEvent, otherCoalesces, isOtherCookie⟩ := sound other idx found
    refine ⟨otherEvent, ?_, otherCoalesces, (sameCookie otherEvent).trans isOtherCookie⟩
    have bound : idx < entries.length := by
      have := (List.getElem?_eq_some_iff.mp isEvent).1
      omega
    rw [toDispatch, getElem?_append_left bound, others other idx same found]
    exact isEvent

theorem coalesce_eq_or (event lastEvent : Event Content) :
    event.coalesce lastEvent = event ∧ lastEvent.timestampMs ≤ event.timestampMs ∨
      event.coalesce lastEvent = lastEvent ∧ event.timestampMs < lastEvent.timestampMs := by
  unfold Event.coalesce
  split
  next older => exact Or.inl ⟨rfl, older⟩
  next newer => exact Or.inr ⟨rfl, not_le.mp newer⟩

theorem coalesceWithLast_spec (sound : queues.TableSound) {eventCookie : BitVec 64} {idx : ℕ}
    (coalesces : event.canCoalesce = true) (isCookie : queues.cookieOf event = some eventCookie)
    (inTable : queues.eventCookieToLastEventIdx eventCookie = some idx)
    (found : queues.eventsToDispatch[idx]? = some (some lastEvent)) :
    (queues.coalesceWithLast event eventCookie idx lastEvent).TableSound ∧
      SameElsewhere queues (queues.coalesceWithLast event eventCookie idx lastEvent) ∧
      Moves queues event (queues.coalesceWithLast event eventCookie idx lastEvent) := by
  obtain ⟨-, lastCoalesces, isLastCookie⟩ :
      queues.eventsToDispatch[idx]? = some (some lastEvent) ∧ lastEvent.canCoalesce = true ∧
        queues.cookieOf lastEvent = some eventCookie := by
    obtain ⟨other, isOther, otherCoalesces, isOtherCookie⟩ := sound eventCookie idx inTable
    cases isOther.symm.trans found
    exact ⟨isOther, otherCoalesces, isOtherCookie⟩
  have meets : Meets lastEvent event := by
    obtain ⟨lastTypeId, -, isLastCookie⟩ := map_eq_some_iff.mp isLastCookie
    obtain ⟨eventTypeId, -, isCookie⟩ := map_eq_some_iff.mp isCookie
    exact ⟨lastCoalesces, coalesces, lastTypeId, eventTypeId, isLastCookie.trans isCookie.symm⟩
  unfold coalesceWithLast
  dsimp only
  split
  next differs =>
    -- Only the event itself differs from the last one.
    obtain ⟨isEvent, older⟩ : event.coalesce lastEvent = event ∧
        lastEvent.timestampMs ≤ event.timestampMs := by
      rcases coalesce_eq_or event lastEvent with isEvent | isLastEvent
      · exact isEvent
      · exact absurd (congrArg Event.id isLastEvent.1) differs
    rw [isEvent]
    refine ⟨?_, ⟨rfl, rfl, rfl⟩, .replaced idx lastEvent found meets older rfl rfl⟩
    refine sound.put coalesces isCookie length_set ?_ rfl rfl rfl
    intro other otherIdx differs inTableOther
    refine getElem?_set_ne ?_
    rintro rfl
    obtain ⟨_, isOther, -, isOtherCookie⟩ := sound other idx inTableOther
    cases isOther.symm.trans found
    cases isOtherCookie.symm.trans isLastCookie
    exact differs rfl
  next same =>
    rw [ne_eq, not_not] at same
    refine ⟨sound.of_names rfl rfl fun _ _ => id, ⟨rfl, rfl, rfl⟩, ?_⟩
    refine .dropped idx lastEvent found meets ?_ rfl rfl
    rcases coalesce_eq_or event lastEvent with isEvent | isLastEvent
    · rw [isEvent.1] at same
      exact Or.inr same
    · exact Or.inl isLastEvent.2

/-- **There is an outcome for each event**, and the table stays sound. -/
theorem moveEvent_spec (sound : queues.TableSound) (event : Event Content) :
    ∃ after, queues.moveEvent event = some after ∧ after.TableSound ∧
      SameElsewhere queues after ∧ Moves queues event after := by
  unfold moveEvent
  split
  -- An event that never coalesces is appended, and the table does not name it.
  next never =>
    refine ⟨_, rfl, ?_, ⟨rfl, rfl, rfl⟩, .added rfl rfl⟩
    intro eventCookie idx inTable
    obtain ⟨other, isOther, otherCoalesces, isOtherCookie⟩ := sound eventCookie idx inTable
    have bound := (List.getElem?_eq_some_iff.mp isOther).1
    exact ⟨other, (getElem?_append_left bound).trans isOther, otherCoalesces, isOtherCookie⟩
  next coalesces =>
    rw [Bool.not_eq_false] at coalesces
    -- The event type gets its identifier first; only the names change by that.
    obtain ⟨named, eventTypeId, isId, only, isNamed, names⟩ :=
      getEventTypeId_spec queues event.eventName
    rw [isId]
    dsimp only
    have soundNamed : named.TableSound := sound.of_names (by rw [only]) (by rw [only]) names
    have isCookie : named.cookieOf event =
        some (getEventCookie event.viewTag eventTypeId event.coalescingKey) :=
      map_eq_some_iff.mpr ⟨eventTypeId, isNamed, rfl⟩
    generalize getEventCookie event.viewTag eventTypeId event.coalescingKey = eventCookie at *
    have sameElsewhere : SameElsewhere queues named := by
      rw [only]
      exact ⟨rfl, rfl, rfl⟩
    have sameQueue : named.eventsToDispatch = queues.eventsToDispatch := by rw [only]
    have sameCoalesced : named.coalesced = queues.coalesced := by rw [only]
    -- Either no event of this cookie waits, or the last of them decides.
    cases inTable : named.eventCookieToLastEventIdx eventCookie with
    | none =>
      refine ⟨_, rfl, ?_, sameElsewhere.trans ⟨rfl, rfl, rfl⟩, .added ?_ sameCoalesced⟩
      · exact soundNamed.put coalesces isCookie rfl (fun _ _ _ _ => rfl) rfl rfl rfl
      · exact congrArg (· ++ [some event]) sameQueue
    | some idx =>
      obtain ⟨lastEvent, found, -, -⟩ := soundNamed eventCookie idx inTable
      dsimp only
      rw [found]
      obtain ⟨soundAfter, same, moves⟩ :=
        coalesceWithLast_spec soundNamed coalesces isCookie inTable found
      exact ⟨_, rfl, soundAfter, sameElsewhere.trans same, moves.of_eq sameQueue sameCoalesced⟩

theorem moveEvents_induction {motive : EventQueues Content → List (Event Content) → Prop}
    {events : List (Event Content)} (sound : queues.TableSound) (start : motive queues events)
    (move : ∀ {queues event rest after}, motive queues (event :: rest) →
      SameElsewhere queues after → Moves queues event after → motive after rest) :
    ∃ after, moveEvents events queues = some after ∧ after.TableSound ∧
      SameElsewhere queues after ∧ motive after [] := by
  induction events generalizing queues with
  | nil => exact ⟨queues, rfl, sound, ⟨rfl, rfl, rfl⟩, start⟩
  | cons event rest ih =>
    obtain ⟨_, moved, soundBetween, same, moves⟩ := moveEvent_spec sound event
    obtain ⟨after, movedRest, soundAfter, sameRest, final⟩ := ih soundBetween (move start same moves)
    refine ⟨after, ?_, soundAfter, same.trans sameRest, final⟩
    rw [moveEvents, moved]
    exact movedRest

/-! ### No event is lost or doubled -/

/-- Each event is in one place: the queue, the events still to be moved, what JS was given, or
those that were disposed. -/
def Accounts (queues : EventQueues Content) (rest : List (Event Content)) : Prop :=
  queues.staged.Perm (queues.eventsToDispatch.reduceOption ++ rest ++
    (queues.dispatched ++ queues.coalesced.map Prod.fst))

theorem Moves.accounts {rest : List (Event Content)} (moves : Moves queues event after)
    (same : SameElsewhere queues after) (accounts : queues.Accounts (event :: rest)) :
    after.Accounts rest := by
  unfold Accounts at accounts ⊢
  rw [same.staged, same.dispatched]
  refine accounts.trans ?_
  cases moves with
  | added toDispatch coalesced =>
    rw [toDispatch, coalesced, reduceOption_concat, append_assoc _ [event] rest]
    exact List.Perm.refl _
  | replaced idx lastEvent found meets _ toDispatch coalesced =>
    rw [toDispatch, coalesced, reduceOption_concat, map_append]
    classical
    -- The last event goes from the queue to the disposed ones.
    rw [perm_iff_count]
    intro other
    have taken := (reduceOption_perm_set found).count_eq other
    simp only [count_append, count_cons, map_cons, map_nil, count_nil] at taken ⊢
    omega
  | dropped idx lastEvent found meets _ toDispatch coalesced =>
    rw [toDispatch, coalesced, map_append]
    classical
    rw [perm_iff_count]
    simp only [count_append, count_cons, map_cons, map_nil, count_nil]
    omega

/-- The queues and the records of what became of the events fit together. -/
structure Sound (queues : EventQueues Content) : Prop where
  table : queues.TableSound
  accounts : queues.Accounts queues.eventStaging
  numbered : queues.staged.map Event.id = range queues.staged.length

theorem Sound.initial : ({} : EventQueues Content).Sound where
  table _ _ inTable := by cases inTable
  accounts := List.Perm.refl _
  numbered := rfl

theorem Sound.stage (sound : queues.Sound) (event : Event Content) : (queues.stage event).Sound where
  table := sound.table.of_names rfl rfl fun _ _ => id
  accounts := by
    have accounts := sound.accounts
    classical
    unfold Accounts EventQueues.stage at *
    rw [perm_iff_count] at accounts ⊢
    intro other
    have counted := accounts other
    simp only [count_append, count_cons, count_nil] at counted ⊢
    omega
  numbered := by
    change (queues.staged ++ [_]).map Event.id = range (queues.staged ++ [_]).length
    rw [map_append, sound.numbered, length_append, length_singleton, range_succ]
    rfl

theorem Sound.moveStagedEventsToDispatchQueue (sound : queues.Sound) :
    ∃ after, queues.moveStagedEventsToDispatchQueue = some after ∧ after.Sound ∧
      after.eventStaging = [] := by
  obtain ⟨after, moved, tableAfter, same, accounts⟩ :=
    moveEvents_induction sound.table sound.accounts
      fun accounts same moves => moves.accounts same accounts
  refine ⟨{ after with eventStaging := [] }, ?_, ⟨tableAfter.of_names rfl rfl fun _ _ => id,
    accounts, ?_⟩, rfl⟩
  · rw [EventQueues.moveStagedEventsToDispatchQueue, moved]
    rfl
  · exact same.staged ▸ sound.numbered

theorem dispatchEvents_eq (queues : EventQueues Content) :
    ∃ sorted : List (Option (Event Content)), sorted.Perm queues.eventsToDispatch ∧
      (queues.dispatchEvents).eventStaging = queues.eventStaging ∧
      queues.dispatchEvents.eventsToDispatch = [] ∧
      queues.dispatchEvents.staged = queues.staged ∧
      queues.dispatchEvents.coalesced = queues.coalesced ∧
      queues.dispatchEvents.dispatched = queues.dispatched ++ sorted.reduceOption := by
  unfold dispatchEvents
  split
  next => 
    refine ⟨_, ?_, rfl, rfl, rfl, rfl, rfl⟩
    split
    next => exact mergeSort_perm _ _
    next => exact List.Perm.refl _
  next empty =>
    have nil : queues.eventsToDispatch = [] := length_eq_zero_iff.mp (by omega)
    exact ⟨[], nil ▸ List.Perm.refl _, rfl, nil, rfl, rfl, (append_nil _).symm⟩

section

variable (sound : queues.Sound)
include sound

theorem Sound.dispatchEvents : queues.dispatchEvents.Sound := by
  obtain ⟨sorted, perm, staging, toDispatch, staged, coalesced, dispatched⟩ :=
    dispatchEvents_eq queues
  refine ⟨?_, ?_, ?_⟩
  · intro eventCookie idx inTable
    unfold EventQueues.dispatchEvents at inTable ⊢
    split
    next filled =>
      rw [if_pos filled] at inTable
      cases inTable
    next empty =>
      rw [if_neg empty] at inTable
      exact sound.table eventCookie idx inTable
  · have accounts := sound.accounts
    classical
    unfold Accounts at *
    rw [staging, toDispatch, staged, coalesced, dispatched]
    have reduced : sorted.reduceOption.Perm queues.eventsToDispatch.reduceOption :=
      perm.filterMap id
    rw [perm_iff_count] at accounts ⊢
    intro other
    have counted := accounts other
    have same := reduced.count_eq other
    simp only [count_append, reduceOption_nil, count_nil] at counted ⊢
    omega
  · rw [staged]
    exact sound.numbered

theorem Sound.nodup :
    (queues.waiting ++ (queues.dispatched ++ queues.coalesced.map Prod.fst)).Nodup := by
  have numbers : (queues.staged.map Event.id).Nodup := by
    rw [sound.numbered]
    exact nodup_range
  exact sound.accounts.nodup_iff.mp numbers.of_map

theorem Sound.getElem?_id (member : event ∈ queues.staged) :
    queues.staged[event.id]? = some event := by
  obtain ⟨idx, found⟩ := mem_iff_getElem?.mp member
  have number : (queues.staged.map Event.id)[idx]? = some event.id := by
    rw [getElem?_map, found]
    rfl
  rw [sound.numbered, List.getElem?_eq_some_iff] at number
  obtain ⟨_, isNumber⟩ := number
  rw [getElem_range] at isNumber
  rw [← isNumber]
  exact found

theorem Sound.id_lt (member : event ∈ queues.staged) : event.id < queues.staged.length :=
  (List.getElem?_eq_some_iff.mp (sound.getElem?_id member)).1

theorem Sound.pairwise_id : queues.staged.Pairwise fun event later => event.id < later.id := by
  rw [← pairwise_map, sound.numbered]
  exact pairwise_lt_range

theorem Sound.mem_staged (member : event ∈ queues.waiting) : event ∈ queues.staged :=
  sound.accounts.mem_iff.mpr (mem_append_left _ member)

end

end EventQueues

end ReactNative

