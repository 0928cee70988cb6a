import ReactNative.Events.RCTTouchMoves

/-! What a callback does is said once: it leaves the handler as it is, or it sends an event. -/
namespace ReactNative

open RCTTouchEvent List Option

namespace RCTTouchHandler

variable {Touch Location : Type} [DecidableEq Touch]

/-! ### Updating the touches -/

section

variable {nativeTouches : List Touch} {reactTouches : List (ReactTouch Location)}
  {touches : List (NativeTouch Touch Location)}

variable {touch : Touch} {index : ℕ}

theorem getElem?_of_idxOf? (found : nativeTouches.idxOf? touch = some index) :
    nativeTouches[index]? = some touch := by
  obtain ⟨bound, isTouch, -⟩ := idxOf?_eq_some_iff.mp found
  rw [getElem?_eq_getElem bound, isTouch]

theorem length_updateTouches :
    (updateTouches nativeTouches reactTouches touches).1.length = reactTouches.length := by
  induction touches generalizing reactTouches with
  | nil => rfl
  | cons _ _ ih =>
    rw [updateTouches]
    split
    next => exact ih
    next => simp [ih, updateReactTouchAtIndex]

theorem mem_changedIndexes : index ∈ (updateTouches nativeTouches reactTouches touches).2 ↔
      ∃ touch ∈ touches, nativeTouches.idxOf? touch.touch = some index := by
  induction touches generalizing reactTouches with
  | nil => simp [updateTouches]
  | cons touch _ ih =>
    rw [updateTouches]
    split
    next missing => simp [ih, missing]
    next found here => simp [ih, here, eq_comm]

theorem updateTouches_of_unchanged
    (unchanged : (updateTouches nativeTouches reactTouches touches).2 = []) :
    (updateTouches nativeTouches reactTouches touches).1 = reactTouches := by
  induction touches generalizing reactTouches with
  | nil => rfl
  | cons _ _ ih =>
    rw [updateTouches] at unchanged ⊢
    split at unchanged
    next missing => exact ih unchanged
    next => cases unchanged

theorem location_updateTouches (found : nativeTouches.idxOf? touch = some index)
    (bound : index < reactTouches.length) :
    ((updateTouches nativeTouches reactTouches touches).1[index]?).bind ReactTouch.location =
      (((touches.filter fun native => native.touch = touch).map NativeTouch.location).getLast?).or
        ((reactTouches[index]?).bind ReactTouch.location) := by
  induction touches generalizing reactTouches with
  | nil => rfl
  | cons native _ ih =>
    rw [updateTouches]
    split
    next missing =>
      have differs : native.touch ≠ touch := by
        rintro rfl
        rw [missing] at found
        cases found
      simp [ih bound, differs]
    next other here =>
      have laterBound : index < (updateReactTouchAtIndex reactTouches other native).length := by
        simpa [updateReactTouchAtIndex] using bound
      rw [ih laterBound, updateReactTouchAtIndex, getElem?_modify]
      by_cases same : native.touch = touch
      · subst same
        rw [here] at found
        cases found
        rw [filter_cons_of_pos (by simp), map_cons, getLast?_cons]
        simp [bound]
      · have others : other ≠ index := by
          rintro rfl
          have sameTouch := (getElem?_of_idxOf? here).symm.trans (getElem?_of_idxOf? found)
          exact same (some.inj sameTouch)
        simp [same, others]

theorem getElem?_updateTouches
    (unchanged : index ∉ (updateTouches nativeTouches reactTouches touches).2) :
    (updateTouches nativeTouches reactTouches touches).1[index]? = reactTouches[index]? := by
  induction touches generalizing reactTouches with
  | nil => rfl
  | cons _ _ ih =>
    rw [updateTouches] at unchanged ⊢
    split
    next missing =>
      rw [missing] at unchanged
      exact ih unchanged
    next other found =>
      rw [found] at unchanged
      rw [mem_cons, not_or] at unchanged
      obtain ⟨differs, later⟩ := unchanged
      rw [ih later, updateReactTouchAtIndex, getElem?_modify]
      simp [Ne.symm differs]

theorem timestamp_updateTouches
    (changed : index ∈ (updateTouches nativeTouches reactTouches touches).2)
    (bound : index < reactTouches.length) : ∃ touch timestamp,
      (updateTouches nativeTouches reactTouches touches).1[index]? = some touch ∧
        touch.timestamp = some timestamp := by
  induction touches generalizing reactTouches with
  | nil => cases changed
  | cons native rest ih =>
    rw [updateTouches] at changed ⊢
    split
    next missing =>
      rw [missing] at changed
      exact ih changed bound
    next other found =>
      rw [found] at changed
      have laterBound : index < (updateReactTouchAtIndex reactTouches other native).length := by
        simpa [updateReactTouchAtIndex] using bound
      by_cases later : index ∈ (updateTouches nativeTouches
          (updateReactTouchAtIndex reactTouches other native) rest).2
      · exact ih later laterBound
      · have here : index = other := (mem_cons.mp changed).resolve_right later
        subst here
        rw [getElem?_updateTouches later, updateReactTouchAtIndex, getElem?_modify,
          getElem?_eq_getElem bound]
        simp

/-- A touch of the callback is as new as it was, at least. -/
def NondecreasingFrom (nativeTouches : List Touch) (reactTouches : List (ReactTouch Location))
    (touches : List (NativeTouch Touch Location)) : Prop :=
  ∀ native ∈ touches, ∀ index ∈ nativeTouches.idxOf? native.touch,
    ∀ touch ∈ reactTouches[index]?, ∀ timestamp ∈ touch.timestamp, timestamp ≤ native.timestamp

instance (nativeTouches : List Touch) (reactTouches : List (ReactTouch Location))
    (touches : List (NativeTouch Touch Location)) :
    Decidable (NondecreasingFrom nativeTouches reactTouches touches) :=
  inferInstanceAs (Decidable (∀ native ∈ touches, ∀ index ∈ nativeTouches.idxOf? native.touch,
    ∀ touch ∈ reactTouches[index]?, ∀ timestamp ∈ touch.timestamp, timestamp ≤ native.timestamp))

omit [DecidableEq Touch] in
theorem notNewer_refl (touches : List (ReactTouch Location)) :
    List.Forall₂ NotNewer touches touches := by
  rw [forall₂_same]
  intro touch _ timestamp stamped
  exact ⟨timestamp, stamped, Rat.le_refl⟩

theorem notNewer_trans {first second third : List (ReactTouch Location)}
    (firstSecond : List.Forall₂ NotNewer first second)
    (secondThird : List.Forall₂ NotNewer second third) : List.Forall₂ NotNewer first third := by
  induction firstSecond generalizing third with
  | nil => exact secondThird
  | cons here _ ih =>
    cases secondThird with
    | cons next rest =>
      refine .cons ?_ (ih rest)
      intro timestamp stamped
      obtain ⟨later, laterStamped, le⟩ := here timestamp stamped
      obtain ⟨last, lastStamped, laterLe⟩ := next later laterStamped
      exact ⟨last, lastStamped, Rat.le_trans le laterLe⟩

omit [DecidableEq Touch] in
theorem notNewer_update {older : List (ReactTouch Location)} {native : NativeTouch Touch Location}
    (notNewer : List.Forall₂ NotNewer older reactTouches)
    (nondecreasing : ∀ touch, older[index]? = some touch →
      ∀ timestamp, touch.timestamp = some timestamp → timestamp ≤ native.timestamp) :
    List.Forall₂ NotNewer older (updateReactTouchAtIndex reactTouches index native) := by
  induction notNewer generalizing index with
  | nil =>
    rw [updateReactTouchAtIndex, modify_nil]
    exact .nil
  | cons here rest ih =>
    cases index with
    | zero =>
      refine .cons ?_ rest
      intro timestamp stamped
      exact ⟨native.timestamp, rfl, nondecreasing _ rfl timestamp stamped⟩
    | succ index => exact .cons here (ih nondecreasing)

theorem notNewer_updateTouches {older : List (ReactTouch Location)}
    (nondecreasing : NondecreasingFrom nativeTouches older touches)
    (notNewer : List.Forall₂ NotNewer older reactTouches) :
    List.Forall₂ NotNewer older (updateTouches nativeTouches reactTouches touches).1 := by
  induction touches generalizing reactTouches with
  | nil => exact notNewer
  | cons native rest ih =>
    have later : NondecreasingFrom nativeTouches older rest :=
      fun other member => nondecreasing other (mem_cons_of_mem native member)
    rw [updateTouches]
    split
    next => exact ih later notNewer
    next index found =>
      exact ih later (notNewer_update notNewer (nondecreasing native mem_cons_self index found))

end

/-! ### What a callback does -/

variable {nameHash : RCTTouchEventName → BitVec 64} {handler : RCTTouchHandler Touch Location}
  {touches : List (NativeTouch Touch Location)} {eventName : RCTTouchEventName}

def touchEvent (handler : RCTTouchHandler Touch Location)
    (touches : List (NativeTouch Touch Location)) (eventName : RCTTouchEventName) :
    RCTTouchEvent Touch Location :=
  { eventName := eventName
    viewTag := handler.viewTag
    reactTouches := (updateTouches handler.nativeTouches handler.reactTouches touches).1
    changedIndexes := (updateTouches handler.nativeTouches handler.reactTouches touches).2
    coalescingKey :=
      if eventName = .touchMove then handler.coalescingKey else handler.coalescingKey + 1
    nativeTouches := handler.nativeTouches
    touches := touches }

theorem updateAndDispatchTouches_quiet
    (unchanged : (updateTouches handler.nativeTouches handler.reactTouches touches).2 = []) :
    handler.updateAndDispatchTouches nameHash touches eventName = handler := by
  simp [updateAndDispatchTouches, updateTouches_of_unchanged unchanged, unchanged]

theorem updateAndDispatchTouches_sends
    (changed : (updateTouches handler.nativeTouches handler.reactTouches touches).2 ≠ []) :
    handler.updateAndDispatchTouches nameHash touches eventName =
      { handler with
        reactTouches := (updateTouches handler.nativeTouches handler.reactTouches touches).1
        coalescingKey :=
          if eventName = .touchMove then handler.coalescingKey else handler.coalescingKey + 2
        eventDispatcher := handler.eventDispatcher.sendEvent nameHash
          (handler.touchEvent touches eventName) } := by
  have nonempty : ¬(updateTouches handler.nativeTouches handler.reactTouches touches).2.length = 0 :=
    mt length_eq_zero_iff.mp changed
  unfold updateAndDispatchTouches
  rw [if_neg nonempty]
  by_cases moves : eventName = .touchMove
  · simp [moves, touchEvent]
  · have twice : handler.coalescingKey + 1 + 1 = handler.coalescingKey + 2 := by bv_omega
    simp only [moves, touchEvent, if_false, twice]

/-- The touches that are down are in both lists. -/
def Paired (handler : RCTTouchHandler Touch Location) : Prop :=
  handler.nativeTouches.length ≤ handler.reactTouches.length

theorem sound_touchEvent (paired : Paired handler)
    (changed : (updateTouches handler.nativeTouches handler.reactTouches touches).2 ≠ []) :
    Sound (handler.touchEvent touches eventName) := by
  have bounded : ∀ {touch index}, handler.nativeTouches.idxOf? touch = some index →
      index < handler.reactTouches.length := by
    intro touch index found
    obtain ⟨bound, -⟩ := idxOf?_eq_some_iff.mp found
    exact Nat.lt_of_lt_of_le bound paired
  constructor
  · obtain ⟨index, member⟩ := exists_mem_of_ne_nil _ changed
    obtain ⟨native, -, found⟩ := mem_changedIndexes.mp member
    exact ⟨index, member, timestamp_updateTouches member (bounded found)⟩
  · intro touch isChanged
    obtain ⟨index, member, down⟩ := mem_filterMap.mp isChanged
    obtain ⟨native, inCallback, found⟩ := mem_changedIndexes.mp member
    cases (getElem?_of_idxOf? found).symm.trans down
    have located : ((updateTouches handler.nativeTouches handler.reactTouches touches).1[index]?).bind
        ReactTouch.location = _ := location_updateTouches found (bounded found)
    have reported : native.location ∈ (touches.filter fun other =>
        other.touch = native.touch).map NativeTouch.location :=
      mem_map_of_mem (mem_filter.mpr ⟨inCallback, by simp⟩)
    obtain ⟨location, last⟩ := isSome_iff_exists.mp
      (getLast?_isSome.mpr (ne_nil_of_mem reported))
    refine ⟨location, ?_, ?_⟩
    · simpa [reports, touchEvent] using last
    · rw [last] at located
      simpa [locationOf, touchEvent, found] using located

theorem paired_recordNewTouches (paired : Paired handler) :
    Paired (handler.recordNewTouches touches) := by
  refine foldlRecOn touches recordNewTouch paired fun handler paired touch _ => ?_
  rw [recordNewTouch]
  split
  next => exact paired
  next reactTag _ =>
    unfold Paired at paired ⊢
    rw [length_append]
    split
    next => exact Nat.le_succ_of_le paired
    next =>
      rw [length_append]
      exact Nat.succ_le_succ paired

theorem paired_recordRemovedTouches (paired : Paired handler) :
    Paired (handler.recordRemovedTouches touches) := by
  refine foldlRecOn touches recordRemovedTouch paired fun handler paired touch _ => ?_
  rw [recordRemovedTouch]
  split
  next => exact paired
  next index found =>
    obtain ⟨bound, -⟩ := idxOf?_eq_some_iff.mp found
    unfold Paired at paired ⊢
    rw [length_eraseIdx_of_lt bound, length_eraseIdx_of_lt (Nat.lt_of_lt_of_le bound paired)]
    exact Nat.sub_le_sub_right paired 1

theorem mem_recordNewTouches {touch : Touch} (down : touch ∈ handler.nativeTouches) :
    touch ∈ (handler.recordNewTouches touches).nativeTouches := by
  refine foldlRecOn (motive := fun handler : RCTTouchHandler Touch Location =>
    touch ∈ handler.nativeTouches) touches recordNewTouch down fun handler down native _ => ?_
  rw [recordNewTouch]
  split
  next => exact down
  next =>
    split
    next => exact down
    next => exact mem_append_left _ down

theorem recordNewTouches_of_unchanged (unchanged : ∀ native ∈ touches,
      native.touch ∉ (handler.recordNewTouches touches).nativeTouches) :
    handler.recordNewTouches touches = handler := by
  induction touches generalizing handler with
  | nil => rfl
  | cons native _ ih =>
    have here := unchanged native mem_cons_self
    have later := fun other member => unchanged other (mem_cons_of_mem native member)
    cases target : native.target with
    | none =>
      have same : handler.recordNewTouch native = handler := by rw [recordNewTouch, target]
      rw [recordNewTouches, foldl_cons, same] at later ⊢
      exact ih later
    | some =>
      have down : native.touch ∈ (handler.recordNewTouch native).nativeTouches := by
        rw [recordNewTouch, target]
        dsimp only
        split
        next known => exact known
        next => exact mem_append_right _ (mem_singleton_self _)
      exact absurd (mem_recordNewTouches down) here

theorem recordRemovedTouches_of_unchanged
    (unchanged : ∀ native ∈ touches, native.touch ∉ handler.nativeTouches) :
    handler.recordRemovedTouches touches = handler := by
  induction touches with
  | nil => rfl
  | cons native _ ih =>
    have missing : handler.nativeTouches.idxOf? native.touch = none :=
      idxOf?_eq_none_iff.mpr (unchanged native mem_cons_self)
    have same : handler.recordRemovedTouch native = handler := by rw [recordRemovedTouch, missing]
    rw [recordRemovedTouches, foldl_cons, same]
    exact ih fun other member => unchanged other (mem_cons_of_mem native member)

theorem unchanged_iff : (updateTouches handler.nativeTouches handler.reactTouches touches).2 = [] ↔
    ∀ native ∈ touches, native.touch ∉ handler.nativeTouches := by
  rw [eq_nil_iff_forall_not_mem]
  constructor
  · intro unchanged native member down
    obtain ⟨index, found⟩ := isSome_iff_exists.mp (isSome_idxOf?.mpr down)
    exact unchanged index (mem_changedIndexes.mpr ⟨native, member, found⟩)
  · intro unchanged index changed
    obtain ⟨native, member, found⟩ := mem_changedIndexes.mp changed
    exact unchanged native member (mem_of_getElem? (getElem?_of_idxOf? found))

/-! ### What a step does -/

def Nondecreasing (handler : RCTTouchHandler Touch Location) :
    TouchHandlerAction Touch Location → Prop
  | .interactionsMoved touches =>
    NondecreasingFrom handler.nativeTouches handler.reactTouches touches
  | _ => True

instance (handler : RCTTouchHandler Touch Location) :
    ∀ action, Decidable (Nondecreasing handler action)
  | .interactionsMoved touches =>
    inferInstanceAs
      (Decidable (NondecreasingFrom handler.nativeTouches handler.reactTouches touches))
  | .interactionsBegan _ | .interactionsEnded _ | .interactionsCancelled _ | .reset _
  | .dispatchBlock | .flushEventsQueue | .dispatchEvent => .isTrue trivial

structure Sends (nameHash : RCTTouchEventName → BitVec 64)
    (handler next : RCTTouchHandler Touch Location) (event : RCTTouchEvent Touch Location) :
    Prop where
  sound : Sound event
  view : event.viewTag = handler.viewTag
  viewKept : next.viewTag = handler.viewTag
  paired : Paired next
  sends : next.eventDispatcher = handler.eventDispatcher.sendEvent nameHash event
  keys : next.coalescingKey =
    if event.canCoalesce then handler.coalescingKey else handler.coalescingKey + 2
  moves : event.canCoalesce → event.coalescingKey = handler.coalescingKey ∧
    event.reactTouches = next.reactTouches ∧
      List.Forall₂ NotNewer handler.reactTouches next.reactTouches

theorem sends_updateAndDispatchTouches (paired : Paired handler)
    (changed : (updateTouches handler.nativeTouches handler.reactTouches touches).2 ≠ [])
    (nondecreasing : eventName = .touchMove →
      NondecreasingFrom handler.nativeTouches handler.reactTouches touches) :
    Sends nameHash handler (handler.updateAndDispatchTouches nameHash touches eventName)
      (handler.touchEvent touches eventName) := by
  rw [updateAndDispatchTouches_sends changed]
  constructor
  · exact sound_touchEvent paired changed
  · rfl
  · rfl
  · rw [Paired, length_updateTouches]
    exact paired
  · rfl
  · simp [touchEvent, RCTTouchEvent.canCoalesce]
  · intro moves
    have isMove : eventName = .touchMove := by
      simpa [touchEvent, RCTTouchEvent.canCoalesce] using moves
    refine ⟨if_pos isMove, rfl, ?_⟩
    exact notNewer_updateTouches (nondecreasing isMove) (notNewer_refl handler.reactTouches)

variable {next : RCTTouchHandler Touch Location} {event : RCTTouchEvent Touch Location}

theorem Sends.boundary {start middle : RCTTouchHandler Touch Location}
    (sends : Sends nameHash handler middle event)
    (boundary : event.canCoalesce = false) (paired : Paired next)
    (startView : handler.viewTag = start.viewTag)
    (startKey : handler.coalescingKey = start.coalescingKey)
    (startDispatcher : handler.eventDispatcher = start.eventDispatcher)
    (view : next.viewTag = middle.viewTag) (key : next.coalescingKey = middle.coalescingKey)
    (dispatcher : next.eventDispatcher = middle.eventDispatcher) :
    Sends nameHash start next event := by
  constructor
  · exact sends.sound
  · rw [sends.view, startView]
  · rw [view, sends.viewKept, startView]
  · exact paired
  · rw [dispatcher, sends.sends, startDispatcher]
  · rw [key, sends.keys, startKey]
  · intro moves
    rw [boundary] at moves
    cases moves

def SameFrame (before after : RCTTouchHandler Touch Location) : Prop :=
  after.viewTag = before.viewTag ∧ after.coalescingKey = before.coalescingKey ∧
    after.eventDispatcher = before.eventDispatcher

theorem recordNewTouches_frame (handler : RCTTouchHandler Touch Location)
    (touches : List (NativeTouch Touch Location)) :
    SameFrame handler (handler.recordNewTouches touches) := by
  refine foldlRecOn touches recordNewTouch ⟨rfl, rfl, rfl⟩ fun before same touch _ => ?_
  rw [recordNewTouch]
  split <;> exact same

theorem recordRemovedTouches_frame (handler : RCTTouchHandler Touch Location)
    (touches : List (NativeTouch Touch Location)) :
    SameFrame handler (handler.recordRemovedTouches touches) := by
  refine foldlRecOn touches recordRemovedTouch ⟨rfl, rfl, rfl⟩ fun before same touch _ => ?_
  rw [recordRemovedTouch]
  split <;> exact same

theorem removal_cases (paired : Paired handler) (boundary : eventName ≠ .touchMove) :
    (handler.updateAndDispatchTouches nameHash touches eventName).recordRemovedTouches touches =
        handler ∨
      ∃ event, Sends nameHash handler
        ((handler.updateAndDispatchTouches nameHash touches eventName).recordRemovedTouches touches)
        event := by
  by_cases changed : (updateTouches handler.nativeTouches handler.reactTouches touches).2 = []
  · left
    rw [updateAndDispatchTouches_quiet changed]
    exact recordRemovedTouches_of_unchanged (unchanged_iff.mp changed)
  · right
    have sends : Sends nameHash handler _ _ := sends_updateAndDispatchTouches paired changed
      (fun isMove => absurd isMove boundary)
    obtain ⟨view, key, dispatcher⟩ := recordRemovedTouches_frame
      (handler.updateAndDispatchTouches nameHash touches eventName) touches
    have notMove : (handler.touchEvent touches eventName).canCoalesce = false := by
      simpa [touchEvent, RCTTouchEvent.canCoalesce] using boundary
    exact ⟨_, sends.boundary notMove (paired_recordRemovedTouches sends.paired) rfl rfl rfl view key
      dispatcher⟩

variable {action : TouchHandlerAction Touch Location}

theorem step_cases (paired : Paired handler) (nondecreasing : Nondecreasing handler action)
    (stepped : step nameHash handler action = some next) :
    next = handler ∨ (∃ event, Sends nameHash handler next event) ∨
      ∃ turn eventDispatcher, (∀ event, turn ≠ .sendEvent event) ∧
        handler.eventDispatcher.step nameHash turn = some eventDispatcher ∧
        next = { handler with eventDispatcher := eventDispatcher } := by
  -- A turn of the dispatcher that sends nothing is passed on as it is.
  have turns : ∀ turn, (∀ event, turn ≠ .sendEvent event) →
      handler.dispatcherStep nameHash turn = some next → ∃ turn eventDispatcher,
        (∀ event, turn ≠ .sendEvent event) ∧
        handler.eventDispatcher.step nameHash turn = some eventDispatcher ∧
        next = { handler with eventDispatcher := eventDispatcher } := by
    intro turn silent dispatched
    obtain ⟨eventDispatcher, taken, rfl⟩ := map_eq_some_iff.mp dispatched
    exact ⟨turn, eventDispatcher, silent, taken, rfl⟩
  -- One case for each callback: an event is sent exactly if some touch changed.
  cases action with
  | interactionsBegan touches =>
    cases stepped
    obtain ⟨view, key, dispatcher⟩ := recordNewTouches_frame handler touches
    by_cases changed : (updateTouches (handler.recordNewTouches touches).nativeTouches
        (handler.recordNewTouches touches).reactTouches touches).2 = []
    · left
      rw [interactionsBegan, updateAndDispatchTouches_quiet changed]
      exact recordNewTouches_of_unchanged (unchanged_iff.mp changed)
    · right; left
      have sends : Sends nameHash (handler.recordNewTouches touches) _
          ((handler.recordNewTouches touches).touchEvent touches .touchStart) :=
        sends_updateAndDispatchTouches (paired_recordNewTouches paired) changed
          nofun
      exact ⟨_, sends.boundary rfl sends.paired view key dispatcher rfl rfl rfl⟩
  | interactionsMoved touches =>
    cases stepped
    by_cases changed : (updateTouches handler.nativeTouches handler.reactTouches touches).2 = []
    · left
      exact updateAndDispatchTouches_quiet changed
    · right; left
      exact ⟨_, sends_updateAndDispatchTouches paired changed fun _ => nondecreasing⟩
  | interactionsEnded touches =>
    cases stepped
    have ends : handler.interactionsEnded nameHash touches = handler ∨
        ∃ event, Sends nameHash handler (handler.interactionsEnded nameHash touches) event :=
      removal_cases paired (by decide)
    exact ends.imp_right .inl
  | interactionsCancelled touches =>
    cases stepped
    have ends : handler.interactionsCancelled nameHash touches = handler ∨
        ∃ event, Sends nameHash handler (handler.interactionsCancelled nameHash touches) event :=
      removal_cases paired (by decide)
    exact ends.imp_right .inl
  | reset current =>
    cases stepped
    unfold reset
    split
    next someDown =>
      right; left
      have changed : (updateTouches handler.nativeTouches handler.reactTouches
          (handler.currentTouches current)).2 ≠ [] := by
        intro unchanged
        obtain ⟨_, down⟩ := exists_mem_of_length_pos (Nat.pos_of_ne_zero someDown)
        exact unchanged_iff.mp unchanged _ (mem_map_of_mem down) down
      have sends : Sends nameHash handler _
          (handler.touchEvent (handler.currentTouches current) .touchCancel) :=
        sends_updateAndDispatchTouches paired changed nofun
      exact ⟨_, sends.boundary rfl (Nat.le_refl 0) rfl rfl rfl rfl rfl rfl⟩
    next => exact .inl rfl
  | dispatchBlock | flushEventsQueue | dispatchEvent =>
    exact .inr (.inr (turns _ (fun _ same => by cases same) stepped))

/-! ### Runs -/

omit [DecidableEq Touch] in
theorem split_append_singleton {A : Type} {elements before after : List A} {last element : A}
    (split : elements ++ [last] = before ++ element :: after) :
    (∃ middle, after = middle ++ [last] ∧ elements = before ++ element :: middle) ∨
      after = [] ∧ element = last ∧ elements = before := by
  rcases eq_nil_or_concat after with rfl | ⟨middle, other, rfl⟩
  · right
    obtain ⟨same, isLast⟩ := append_inj' split rfl
    exact ⟨rfl, (List.cons.inj isLast).1.symm, same⟩
  · left
    rw [concat_eq_append, ← cons_append, ← append_assoc] at split
    rw [concat_eq_append]
    obtain ⟨same, isLast⟩ := append_inj' split rfl
    exact ⟨middle, by rw [(List.cons.inj isLast).1], same⟩

omit [DecidableEq Touch] in
theorem nil_ne_split {before after : List (RCTTouchEvent Touch Location)}
    {event : RCTTouchEvent Touch Location} : [] ≠ before ++ event :: after := by
  simp

theorem soundBatch_nil : SoundBatch ([] : List (RCTTouchEvent Touch Location)) := by
  refine ⟨?_, ?_, ?_⟩
  · nofun
  · exact fun _ _ _ _ _ split => absurd split nil_ne_split
  · exact fun _ _ _ _ _ split => absurd split nil_ne_split

/-- The invariant: the key has counted the starts, ends and cancels since each move, and the touches
are those of the last moves. -/
structure Tracks (nameHash : RCTTouchEventName → BitVec 64)
    (handler : RCTTouchHandler Touch Location) : Prop where
  paired : Paired handler
  queue : KeepsMoves nameHash handler.viewTag handler.eventDispatcher
  pending : SoundBatch handler.eventDispatcher.sentSinceFlush
  keys : ∀ before event after,
    handler.eventDispatcher.sentSinceFlush = before ++ event :: after → event.canCoalesce →
      handler.coalescingKey = event.coalescingKey + BitVec.ofNat 16 (2 * (boundaries after).length)
  recent : ∀ before event after,
    handler.eventDispatcher.sentSinceFlush = before ++ event :: after → event.canCoalesce →
      boundaries after = [] → List.Forall₂ NotNewer event.reactTouches handler.reactTouches
  flushed : List.Forall₂ (fun batch delivered => SoundBatch batch ∧ DeliversMoves batch delivered)
    handler.eventDispatcher.flushed handler.eventDispatcher.taken
  taken : handler.eventDispatcher.taken.flatten =
    handler.eventDispatcher.dispatched ++ handler.eventDispatcher.flushing

theorem SoundBatch.send (tracks : Tracks nameHash handler)
    (sends : Sends nameHash handler next event) :
    SoundBatch (handler.eventDispatcher.sentSinceFlush ++ [event]) := by
  constructor
  · intro other member
    rcases mem_append.mp member with before | last
    · exact tracks.pending.sound other before
    · rw [mem_singleton.mp last]
      exact sends.sound
  · intro before first between later after split moves movesLater
    rw [← cons_append, ← append_assoc] at split
    rcases split_append_singleton split with ⟨middle, rfl, sent⟩ | ⟨rfl, rfl, sent⟩
    · rw [append_assoc, cons_append] at sent
      exact tracks.pending.keys before first between later middle sent moves movesLater
    · rw [(sends.moves movesLater).1]
      exact tracks.keys before first between sent moves
  · intro before first between later after split moves movesLater noBoundary
    rw [← cons_append, ← append_assoc] at split
    rcases split_append_singleton split with ⟨middle, rfl, sent⟩ | ⟨rfl, rfl, sent⟩
    · rw [append_assoc, cons_append] at sent
      exact tracks.pending.recent before first between later middle sent moves movesLater noBoundary
    · obtain ⟨-, same, recent⟩ := sends.moves movesLater
      rw [same]
      exact notNewer_trans (tracks.recent before first between sent moves noBoundary) recent

theorem Tracks.send (tracks : Tracks nameHash handler)
    (tells : TellsMoves nameHash handler.viewTag) (sends : Sends nameHash handler next event) :
    Tracks nameHash next := by
  have sent : next.eventDispatcher.sentSinceFlush =
      handler.eventDispatcher.sentSinceFlush ++ [event] := by rw [sends.sends]; rfl
  have frame : (handler.eventDispatcher.sendEvent nameHash event).flushing = _ ∧ _ ∧ _ :=
    RCTEventDispatcher.sendEvent_frame handler.eventDispatcher event
  obtain ⟨flushing, dispatched, flushed⟩ := frame
  -- The fields in the order of `Tracks`.
  constructor
  · exact sends.paired
  · rw [sends.viewKept, sends.sends]
    by_cases moves : event.canCoalesce
    · exact tracks.queue.sendMove tells sends.view moves
    · exact tracks.queue.sendBoundary tells sends.view (by simpa using moves)
  · rw [sent]
    exact SoundBatch.send tracks sends
  · intro before first after split moves
    rw [sent] at split
    -- Either the split is one of the earlier events, or it is at the new event.
    rcases split_append_singleton split with ⟨middle, rfl, earlier⟩ | ⟨rfl, rfl, -⟩
    · rw [sends.keys, tracks.keys before first middle earlier moves, boundaries_append,
        length_append]
      by_cases eventMoves : event.canCoalesce
      -- A boundary moves the key on by two: once before it and once after.
      · simp [boundaries, eventMoves]
      · have two : BitVec.ofNat 16 (2 * ((boundaries middle).length + 1)) =
            BitVec.ofNat 16 (2 * (boundaries middle).length) + 2 := by
          rw [Nat.mul_add, BitVec.ofNat_add]
          rfl
        have one : boundaries [event] = [event] := by simp [boundaries, eventMoves]
        rw [if_neg eventMoves, one, length_singleton, two, BitVec.add_assoc]
    · rw [sends.keys, if_pos moves, (sends.moves moves).1]
      exact (BitVec.add_zero _).symm
  · intro before first after split moves noBoundary
    rw [sent] at split
    rcases split_append_singleton split with ⟨middle, rfl, earlier⟩ | ⟨rfl, rfl, -⟩
    · rw [boundaries_append, append_eq_nil_iff] at noBoundary
      have eventMoves : event.canCoalesce :=
        boundaries_eq_nil_iff.mp noBoundary.2 event (mem_singleton_self event)
      exact notNewer_trans (tracks.recent before first middle earlier moves noBoundary.1)
        (sends.moves eventMoves).2.2
    · rw [(sends.moves moves).2.1]
      exact notNewer_refl next.reactTouches
  · rw [sends.sends, RCTEventDispatcher.sendEvent_taken, flushed]
    exact tracks.flushed
  · rw [sends.sends, RCTEventDispatcher.sendEvent_taken, flushing, dispatched]
    exact tracks.taken

theorem Tracks.turn {turn : RCTDispatcherAction (RCTTouchEvent Touch Location)}
    {eventDispatcher : RCTEventDispatcher (RCTTouchEvent Touch Location)}
    (tracks : Tracks nameHash handler) (silent : ∀ event, turn ≠ .sendEvent event)
    (stepped : handler.eventDispatcher.step nameHash turn = some eventDispatcher) :
    Tracks nameHash { handler with eventDispatcher := eventDispatcher } := by
  cases turn with
  | sendEvent event => exact absurd rfl (silent event)
  | dispatchBlock =>
    obtain ⟨-, ⟨⟩⟩ := ite_none_right_eq_some.mp stepped
    exact ⟨tracks.paired, ⟨tracks.queue.own, tracks.queue.contents, tracks.queue.queued⟩,
      tracks.pending, tracks.keys, tracks.recent, tracks.flushed, tracks.taken⟩
  | flushEventsQueue =>
    obtain ⟨⟨-, idle⟩, ⟨⟩⟩ := ite_none_right_eq_some.mp stepped
    have taken := tracks.taken
    rw [List.isEmpty_iff.mp idle, append_nil] at taken
    refine ⟨tracks.paired, .flush _, soundBatch_nil, ?_, ?_, ?_, ?_⟩
    · exact fun _ _ _ split => absurd split nil_ne_split
    · exact fun _ _ _ split => absurd split nil_ne_split
    · exact rel_append tracks.flushed
        (.cons ⟨tracks.pending, tracks.queue.deliversMoves⟩ .nil)
    · simp [RCTEventDispatcher.flushEventsQueue, taken]
  | dispatchEvent =>
    unfold RCTEventDispatcher.step at stepped
    dsimp only at stepped
    split at stepped
    next => cases stepped
    next event rest flushing =>
      cases stepped
      have taken := tracks.taken
      rw [flushing] at taken
      exact ⟨tracks.paired, ⟨tracks.queue.own, tracks.queue.contents, tracks.queue.queued⟩,
        tracks.pending, tracks.keys, tracks.recent, tracks.flushed,
        taken.trans (append_assoc _ [event] rest).symm⟩

/-- The invariant of the runs of a handler that is attached to the view. -/
structure Follows (nameHash : RCTTouchEventName → BitVec 64) (viewTag : ℤ)
    (handler : RCTTouchHandler Touch Location) : Prop where
  view : handler.viewTag = viewTag
  tracks : Tracks nameHash handler

theorem Follows.step {viewTag : ℤ} (follows : Follows nameHash viewTag handler)
    (tells : TellsMoves nameHash viewTag) (nondecreasing : Nondecreasing handler action)
    (stepped : step nameHash handler action = some next) : Follows nameHash viewTag next := by
  obtain ⟨rfl, tracks⟩ := follows
  rcases step_cases tracks.paired nondecreasing stepped with
    rfl | ⟨event, sends⟩ | ⟨turn, eventDispatcher, silent, dispatched, rfl⟩
  · exact ⟨rfl, tracks⟩
  · exact ⟨sends.viewKept, tracks.send tells sends⟩
  · exact ⟨rfl, tracks.turn silent dispatched⟩

/-- Each flush keeps the moves of what was sent since the one before. -/
def AllMovesKept (handler : RCTTouchHandler Touch Location) : Prop :=
  handler.eventDispatcher.taken.flatten =
      handler.eventDispatcher.dispatched ++ handler.eventDispatcher.flushing ∧
    List.Forall₂ MovesKept handler.eventDispatcher.flushed handler.eventDispatcher.taken

/-- A handler that has been attached to a view, and the dispatcher of a new bridge. -/
def attachToView (viewTag : ℤ) (generator : BitVec 16) : RCTTouchHandler Touch Location :=
  { viewTag := viewTag
    eventDispatcher := .setBridge generator }

section

variable {viewTag : ℤ} {generator : BitVec 16} {actions : List (TouchHandlerAction Touch Location)}
  {final : RCTTouchHandler Touch Location} (tells : TellsMoves nameHash viewTag)
  (nondecreasing : Runs.Along (step nameHash) Nondecreasing (attachToView viewTag generator) actions)
  (ran : Runs.run (step nameHash) (attachToView viewTag generator) actions = some final)
include tells nondecreasing ran

theorem follows_of_run : Follows nameHash viewTag final := by
  have start : Follows nameHash viewTag
      (attachToView viewTag generator : RCTTouchHandler Touch Location) := by
    refine ⟨rfl, Nat.le_refl 0, ⟨nofun, fun _ => rfl, fun _ => rfl⟩,
      soundBatch_nil, ?_, ?_, .nil, rfl⟩
    · exact fun _ _ _ split => absurd split nil_ne_split
    · exact fun _ _ _ split => absurd split nil_ne_split
  exact Runs.run_induction
    (fun _ _ _ follows nondecreasing stepped => follows.step tells nondecreasing stepped) start
    nondecreasing ran

/-- **Coalesced moves.** They keep the changed touches of those they replace if and only if the last
of the moves between two flushes, without a start, end or cancel among them, changes what the others
do. -/
theorem allMovesKept_iff :
    AllMovesKept final ↔
      ∀ batch ∈ final.eventDispatcher.flushed, KeysApart batch ∧ LastMovesAll batch := by
  have tracks := (follows_of_run tells nondecreasing ran).tracks
  rw [AllMovesKept, and_iff_right tracks.taken]
  exact RelatedLists.forall₂_iff_forall tracks.flushed fun _ _ both => both.1.movesKept_iff both.2

end

def lengthHash : RCTTouchEventName → BitVec 64
  | .touchStart => 10
  | .touchMove => 9
  | .touchEnd => 8
  | .touchCancel => 11

def fingersApart : List (TouchHandlerAction Bool ℕ) :=
  [.interactionsBegan [⟨false, some 7, 1, 1⟩, ⟨true, some 7, 1, 1⟩],
    .interactionsMoved [⟨false, none, 2, 2⟩], .interactionsMoved [⟨true, none, 2, 3⟩],
    .dispatchBlock, .flushEventsQueue, .dispatchEvent, .dispatchEvent]

theorem allMovesKept_iff_fingersApart :
    ∃ final, Runs.run (step lengthHash) (attachToView 7 0) fingersApart = some final ∧
      (AllMovesKept final ↔
        ∀ batch ∈ final.eventDispatcher.flushed, KeysApart batch ∧ LastMovesAll batch) := by
  have ends : (Runs.run (step lengthHash) (attachToView 7 0) fingersApart).isSome = true := by
    decide
  obtain ⟨final, ran⟩ := isSome_iff_exists.mp ends
  refine ⟨final, ran, allMovesKept_iff ⟨by decide, ?_⟩ (by decide) ran⟩
  intro name
  cases name <;> decide

def fingersStart : RCTTouchEvent Bool ℕ :=
  ⟨.touchStart, 7, [⟨7, 1, some 1, some 1⟩, ⟨7, 2, some 1, some 1⟩], [0, 1], 1, [false, true],
    [⟨false, some 7, 1, 1⟩, ⟨true, some 7, 1, 1⟩]⟩

def firstFingerMove : RCTTouchEvent Bool ℕ :=
  ⟨.touchMove, 7, [⟨7, 1, some 2, some 2⟩, ⟨7, 2, some 1, some 1⟩], [0], 2, [false, true],
    [⟨false, none, 2, 2⟩]⟩

def secondFingerMove : RCTTouchEvent Bool ℕ :=
  ⟨.touchMove, 7, [⟨7, 1, some 2, some 2⟩, ⟨7, 2, some 2, some 3⟩], [1], 2, [false, true],
    [⟨true, none, 2, 3⟩]⟩

theorem fingersApart_not_movesKept :
    Runs.Along (step lengthHash) Nondecreasing (attachToView 7 0) fingersApart ∧
      ∃ final, Runs.run (step lengthHash) (attachToView 7 0) fingersApart = some final ∧
        ¬AllMovesKept final := by
  refine ⟨by decide, ?_⟩
  have flushes : (Runs.run (step lengthHash) (attachToView 7 0) fingersApart).map (fun handler =>
      (handler.eventDispatcher.flushed, handler.eventDispatcher.taken)) =
      some ([[fingersStart, firstFingerMove, secondFingerMove]],
        [[some fingersStart, some secondFingerMove]]) := by
    decide
  obtain ⟨final, ran, lists⟩ := map_eq_some_iff.mp flushes
  obtain ⟨flushed, taken⟩ := Prod.mk.inj lists
  refine ⟨final, ran, ?_⟩
  rintro ⟨-, kept⟩
  rw [flushed, taken] at kept
  cases kept with
  | cons here _ =>
    obtain ⟨replacement, replaces, changes⟩ := here.replaced firstFingerMove (by decide) rfl
    have isSecond : [some secondFingerMove] = [some replacement] := replaces
    cases isSecond
    exact absurd (changes false (by decide)).1 (by decide)

end RCTTouchHandler

end ReactNative

