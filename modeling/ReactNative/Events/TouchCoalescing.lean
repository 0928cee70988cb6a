import ReactNative.Events.DispatchQueue
import ReactNative.Events.TouchEvents

/-! Starts, ends and cancels are never coalesced. Two moves are if they are on the same view and
have the same coalescing key, as long as the first one is not dispatched. -/
namespace ReactNative

open Runs EventQueues Option Function

section

variable {viewTag otherTag : BitVec 32} {eventTypeId otherId key otherKey : BitVec 16}

theorem getLsbD_cookie_low {i : ℕ} (bound : i < 32) :
    (getEventCookie viewTag eventTypeId key).getLsbD i = viewTag.getLsbD i := by
  have low : i < 48 ∧ i < 64 := by omega
  simp only [getEventCookie, BitVec.getLsbD_or, BitVec.getLsbD_shiftLeft, BitVec.getLsbD_signExtend]
  simp [bound, low]

theorem getLsbD_cookie_high (positive : viewTag.msb = false) {i : ℕ} (bound : i < 16) :
    (getEventCookie viewTag eventTypeId key).getLsbD (i + 48) = key.getLsbD i := by
  have high : i + 48 < 64 ∧ i < 64 ∧ ¬ i + 48 < 48 ∧ ¬ i + 48 < 32 := by omega
  simp only [getEventCookie, BitVec.getLsbD_or, BitVec.getLsbD_shiftLeft, BitVec.getLsbD_signExtend]
  simp [positive, high]

theorem viewTag_eq_of_cookie
    (same : getEventCookie viewTag eventTypeId key = getEventCookie otherTag otherId otherKey) :
    viewTag = otherTag := by
  apply BitVec.eq_of_getLsbD_eq
  intro i bound
  rw [← getLsbD_cookie_low bound, same, getLsbD_cookie_low bound]

theorem coalescingKey_eq_of_cookie (positive : viewTag.msb = false)
    (otherPositive : otherTag.msb = false)
    (same : getEventCookie viewTag eventTypeId key = getEventCookie otherTag otherId otherKey) :
    key = otherKey := by
  apply BitVec.eq_of_getLsbD_eq
  intro i bound
  rw [← getLsbD_cookie_high positive bound, same, getLsbD_cookie_high otherPositive bound]

end

namespace TouchDispatch

variable {dispatch next : TouchDispatch}

def boundaries (events : List (Event Touch)) : ℕ :=
  events.countP fun event => event.content.touchEventType ≠ .MOVE

/-- Moves that meet in a batch and have the same view and key belong to the same gesture, with
less than 65536 pointers going down or up between them. -/
def GesturesApart (queues : EventQueues Touch) : Prop :=
  ∀ event ∈ queues.waiting, ∀ later ∈ queues.waiting,
    event.content.touchEventType = .MOVE → later.content.touchEventType = .MOVE →
    event.viewTag = later.viewTag → event.coalescingKey = later.coalescingKey →
    event.content.downTime = later.content.downTime ∧
      later.content.pointerChanges < event.content.pointerChanges + 65536

instance (queues : EventQueues Touch) : Decidable (GesturesApart queues) :=
  inferInstanceAs (Decidable (∀ event ∈ queues.waiting, ∀ later ∈ queues.waiting, _))

/-- View tags are not negative, and no frame comes while moves with the same key on the same view
wait that are of different gestures. -/
def Apart (dispatch : TouchDispatch) : TouchStep → Prop
  | .down viewTag _ => viewTag.msb = false
  | .moveStagedEventsToDispatchQueue => GesturesApart dispatch.queues
  | .elapse _ | .motion _ | .dispatchEvents => True

instance (dispatch : TouchDispatch) (touchStep : TouchStep) :
    Decidable (dispatch.Apart touchStep) :=
  match touchStep with
  | .down viewTag _ => inferInstanceAs (Decidable (viewTag.msb = false))
  | .moveStagedEventsToDispatchQueue => inferInstanceAs (Decidable (GesturesApart dispatch.queues))
  | .elapse _ | .motion _ | .dispatchEvents => inferInstanceAs (Decidable True)

structure WithinRun (staged : List (Event Touch)) (event later : Event Touch) : Prop where
  moves : event.content.touchEventType = .MOVE
  isStaged : later ∈ staged
  movesLater : later.content.touchEventType = .MOVE
  view : later.viewTag = event.viewTag
  after : event.id < later.id
  run : ∀ between ∈ staged, event.id < between.id → between.id < later.id →
    between.viewTag = event.viewTag → between.content.touchEventType = .MOVE

structure TouchSound (dispatch : TouchDispatch) (base : ℤ → ℕ) (event : Event Touch) : Prop where
  coalesces : event.canCoalesce = event.content.touchEventType.canCoalesce
  known : event.content.downTime ∈ dispatch.downTimes
  time : event.timestampMs ≤ dispatch.uptimeMillis
  positive : event.viewTag.msb = false
  key : event.content.touchEventType = .MOVE →
    event.coalescingKey = BitVec.ofNat 16 event.content.pointerChanges
  /-- Between the moves of a gesture there are as many boundaries as pointers that changed. -/
  counted : event.content.touchEventType = .MOVE →
    boundaries (dispatch.queues.staged.take event.id) =
      base event.content.downTime + event.content.pointerChanges

structure GestureSound (dispatch : TouchDispatch) (base : ℤ → ℕ) (gesture : Gesture) : Prop where
  known : gesture.downTime ∈ dispatch.downTimes
  positive : gesture.viewTag.msb = false
  key : dispatch.helper.downTimeToCoalescingKey (BitVec.ofInt 32 gesture.downTime) =
    some (BitVec.ofNat 32 gesture.pointerChanges)
  counted : boundaries dispatch.queues.staged = base gesture.downTime + gesture.pointerChanges

structure Inv (dispatch : TouchDispatch) : Prop where
  sound : dispatch.queues.Sound
  ordered : dispatch.queues.waiting.Sublist dispatch.queues.staged
  times : dispatch.queues.staged.Pairwise fun event later => event.timestampMs ≤ later.timestampMs
  touches : ∃ base, (∀ event ∈ dispatch.queues.staged, dispatch.TouchSound base event) ∧
    ∀ gesture ∈ dispatch.gesture, dispatch.GestureSound base gesture
  coalesced : ∀ pair ∈ dispatch.queues.coalesced, WithinRun dispatch.queues.staged pair.1 pair.2

/-! ### Boundaries between moves -/

variable {event : Event Touch} {queues : EventQueues Touch} {later : Event Touch}

theorem move_of_boundaries_eq (sound : queues.Sound) {between : Event Touch}
    (member : between ∈ queues.staged)
    (same : boundaries (queues.staged.take event.id) = boundaries (queues.staged.take later.id))
    (afterEvent : event.id < between.id) (beforeLater : between.id < later.id) :
    between.content.touchEventType = .MOVE := by
  by_contra boundary
  have counted : boundaries (queues.staged.take (between.id + 1)) =
      boundaries (queues.staged.take between.id) + 1 := by
    rw [List.take_add_one, sound.getElem?_id member, boundaries, boundaries, List.countP_append]
    simp [boundary]
  have before : boundaries (queues.staged.take event.id) ≤
      boundaries (queues.staged.take between.id) :=
    (List.take_sublist_take_left afterEvent.le).countP_le
  have after : boundaries (queues.staged.take (between.id + 1)) ≤
      boundaries (queues.staged.take later.id) :=
    (List.take_sublist_take_left beforeLater).countP_le
  omega

theorem pointerChanges_eq {first second : ℕ} (same : BitVec.ofNat 16 first = BitVec.ofNat 16 second)
    (near : second < first + 65536) (nearFirst : first < second + 65536) : first = second := by
  have mod := congrArg BitVec.toNat same
  simp only [BitVec.toNat_ofNat] at mod
  omega

theorem withinRun_of_meets (inv : dispatch.Inv) (apart : GesturesApart dispatch.queues)
    (member : event ∈ dispatch.queues.waiting) (memberLater : later ∈ dispatch.queues.waiting)
    (order : event.id < later.id) (meets : Meets event later) :
    WithinRun dispatch.queues.staged event later := by
  obtain ⟨_, touches, -⟩ := inv.touches
  have touch := touches event (inv.sound.mem_staged member)
  have touchLater := touches later (inv.sound.mem_staged memberLater)
  obtain ⟨coalesces, coalescesLater, _, _, sameCookie⟩ := meets
  have isMove : ∀ {type : TouchEventType}, type.canCoalesce = true → type = .MOVE := by
    intro type canCoalesce
    cases type with
    | MOVE => rfl
    | START | END | CANCEL => cases canCoalesce
  have moves := isMove (touch.coalesces.symm.trans coalesces)
  have movesLater := isMove (touchLater.coalesces.symm.trans coalescesLater)
  have sameView := viewTag_eq_of_cookie sameCookie
  have sameKey := coalescingKey_eq_of_cookie touch.positive touchLater.positive sameCookie
  obtain ⟨sameGesture, near⟩ :=
    apart event member later memberLater moves movesLater sameView sameKey
  obtain ⟨-, nearLater⟩ :=
    apart later memberLater event member movesLater moves sameView.symm sameKey.symm
  have sameChanges : event.content.pointerChanges = later.content.pointerChanges := by
    rw [touch.key moves, touchLater.key movesLater] at sameKey
    exact pointerChanges_eq sameKey near nearLater
  refine ⟨moves, inv.sound.mem_staged memberLater, movesLater, sameView.symm, order, ?_⟩
  intro between memberBetween afterEvent beforeLater _
  refine move_of_boundaries_eq inv.sound memberBetween ?_ afterEvent beforeLater
  rw [touch.counted moves, touchLater.counted movesLater, sameGesture, sameChanges]

/-! ### Steps -/

theorem sublist_of_moves {after : EventQueues Touch} {rest : List (Event Touch)}
    (moves : queues.Moves event after) :
    (after.eventsToDispatch.reduceOption ++ rest).Sublist
      (queues.eventsToDispatch.reduceOption ++ event :: rest) := by
  cases moves with
  | added toDispatch coalesced =>
    rw [toDispatch, reduceOption_concat, List.append_assoc]
    exact List.Sublist.refl _
  | replaced idx lastEvent found meets _ toDispatch coalesced =>
    rw [toDispatch, reduceOption_concat, List.append_assoc]
    exact (reduceOption_set_sublist _ idx).append_right _
  | dropped idx lastEvent found meets _ toDispatch coalesced =>
    rw [toDispatch]
    exact (List.sublist_cons_self event rest).append_left _

theorem Inv.moveEvents (inv : dispatch.Inv) (apart : GesturesApart dispatch.queues) :
    ∃ after, moveEvents dispatch.queues.eventStaging dispatch.queues = some after ∧
      after.staged = dispatch.queues.staged ∧
      after.eventsToDispatch.reduceOption.Sublist dispatch.queues.waiting ∧
      ∀ pair ∈ after.coalesced, WithinRun dispatch.queues.staged pair.1 pair.2 := by
  obtain ⟨after, moved, -, same, sublist, within⟩ := moveEvents_induction
    (motive := fun queues rest =>
      (queues.eventsToDispatch.reduceOption ++ rest).Sublist dispatch.queues.waiting ∧
        ∀ pair ∈ queues.coalesced, WithinRun dispatch.queues.staged pair.1 pair.2)
    inv.sound.table ⟨List.Sublist.refl _, inv.coalesced⟩ (by
      rintro queues event rest after ⟨sublist, within⟩ - moves
      refine ⟨(sublist_of_moves moves).trans sublist, ?_⟩
      -- An event in the queue comes before those that are still to be moved.
      have order : ∀ {idx : ℕ} {lastEvent : Event Touch},
          queues.eventsToDispatch[idx]? = some (some lastEvent) →
          lastEvent ∈ dispatch.queues.waiting ∧ event ∈ dispatch.queues.waiting ∧
            lastEvent.id < event.id ∧ lastEvent.timestampMs ≤ event.timestampMs := by
        intro idx lastEvent found
        have inQueue : lastEvent ∈ queues.eventsToDispatch.reduceOption :=
          List.reduceOption_mem_iff.mpr (List.mem_of_getElem? found)
        have isRest : event ∈ event :: rest := List.mem_cons_self
        have ids := (inv.sound.pairwise_id.sublist inv.ordered).sublist sublist
        have times := (inv.times.sublist inv.ordered).sublist sublist
        exact ⟨sublist.subset (List.mem_append_left _ inQueue),
          sublist.subset (List.mem_append_right _ isRest),
          (List.pairwise_append.mp ids).2.2 _ inQueue _ isRest,
          (List.pairwise_append.mp times).2.2 _ inQueue _ isRest⟩
      cases moves with
      | added toDispatch coalesced =>
        rw [coalesced]
        exact within
      | replaced idx lastEvent found meets older toDispatch coalesced =>
        obtain ⟨memberLast, member, earlier, -⟩ := order found
        rw [coalesced]
        intro pair isPair
        rcases List.mem_append.mp isPair with isOld | isNew
        · exact within pair isOld
        · cases List.mem_singleton.mp isNew
          exact withinRun_of_meets inv apart memberLast member earlier meets
      | dropped idx lastEvent found meets newer toDispatch coalesced =>
        -- The clock does not go back, so the event is not the older one.
        obtain ⟨-, -, earlier, older⟩ := order found
        rcases newer with before | same
        · omega
        · omega)
  rw [List.append_nil] at sublist
  exact ⟨after, moved, same.staged, sublist, within⟩

variable {base : ℤ → ℕ}

theorem TouchSound.mono (touch : dispatch.TouchSound base event)
    (times : ∀ time ∈ dispatch.downTimes, time ∈ next.downTimes)
    (clock : dispatch.uptimeMillis ≤ next.uptimeMillis)
    (staged : next.queues.staged.take event.id = dispatch.queues.staged.take event.id) :
    next.TouchSound base event where
  coalesces := touch.coalesces
  known := times _ touch.known
  time := touch.time.trans (Int.ofNat_le.mpr clock)
  positive := touch.positive
  key := touch.key
  counted moves := by
    rw [staged]
    exact touch.counted moves

theorem Inv.of_same (inv : dispatch.Inv) (sound : next.queues.Sound)
    (staged : next.queues.staged = dispatch.queues.staged)
    (ordered : next.queues.waiting.Sublist dispatch.queues.waiting)
    (within : ∀ pair ∈ next.queues.coalesced, WithinRun dispatch.queues.staged pair.1 pair.2)
    (gesture : next.gesture = dispatch.gesture) (helper : next.helper = dispatch.helper)
    (times : next.downTimes = dispatch.downTimes)
    (clock : dispatch.uptimeMillis ≤ next.uptimeMillis) : next.Inv := by
  obtain ⟨base, touches, gestures⟩ := inv.touches
  refine ⟨sound, ?_, ?_, ⟨base, ?_, ?_⟩, ?_⟩
  · rw [staged]
    exact ordered.trans inv.ordered
  · rw [staged]
    exact inv.times
  · rw [staged]
    intro event member
    refine (touches event member).mono ?_ clock ?_
    · rw [times]
      exact fun _ => id
    · rw [staged]
  · rw [gesture]
    intro current isCurrent
    obtain ⟨known, positive, key, counted⟩ := gestures current isCurrent
    exact ⟨times ▸ known, positive, helper ▸ key, staged ▸ counted⟩
  · rw [staged]
    exact within

theorem Inv.stage (inv : dispatch.Inv)
    (touches : ∀ event ∈ dispatch.queues.staged, dispatch.TouchSound base event)
    (queues : next.queues = dispatch.queues.stage event)
    (times : ∀ time ∈ dispatch.downTimes, time ∈ next.downTimes)
    (clock : next.uptimeMillis = dispatch.uptimeMillis)
    (time : event.timestampMs = dispatch.uptimeMillis)
    (coalesces : event.canCoalesce = event.content.touchEventType.canCoalesce)
    (known : event.content.downTime ∈ next.downTimes) (positive : event.viewTag.msb = false)
    (key : event.content.touchEventType = .MOVE →
      event.coalescingKey = BitVec.ofNat 16 event.content.pointerChanges)
    (counted : event.content.touchEventType = .MOVE → boundaries dispatch.queues.staged =
        base event.content.downTime + event.content.pointerChanges)
    (gestures : ∀ gesture ∈ next.gesture, next.GestureSound base gesture) : next.Inv := by
  have staged : next.queues.staged =
      dispatch.queues.staged ++ [{ event with id := dispatch.queues.staged.length }] := by
    rw [queues]
    rfl
  -- The fields in the order of `Inv`; the event is new, so that it is last wherever it stands.
  refine ⟨?_, ?_, ?_, ⟨base, ?_, gestures⟩, ?_⟩
  · rw [queues]
    exact inv.sound.stage event
  · rw [queues]
    change (dispatch.queues.eventsToDispatch.reduceOption ++
      (dispatch.queues.eventStaging ++ [_])).Sublist (dispatch.queues.staged ++ [_])
    rw [← List.append_assoc]
    exact inv.ordered.append_right _
  · rw [staged, List.pairwise_append]
    refine ⟨inv.times, List.pairwise_singleton _ _, ?_⟩
    intro earlier member new isNew
    rw [List.mem_singleton.mp isNew]
    exact (touches earlier member).time.trans time.symm.le
  · intro touch member
    rw [staged] at member
    rcases List.mem_append.mp member with isOld | isNew
    -- The events before an earlier one are the same as they were.
    · refine (touches touch isOld).mono times clock.symm.le ?_
      rw [staged]
      exact List.take_append_of_le_length (inv.sound.id_lt isOld).le
    · rw [List.mem_singleton.mp isNew]
      refine ⟨coalesces, known, ?_, positive, key, ?_⟩
      · rw [clock]
        exact time.le
      · intro moves
        rw [staged, List.take_left]
        exact counted moves
  · rw [staged]
    intro pair member
    have sameCoalesced : next.queues.coalesced = dispatch.queues.coalesced := by
      rw [queues]
      rfl
    rw [sameCoalesced] at member
    obtain ⟨moves, isStaged, movesLater, view, after, run⟩ := inv.coalesced pair member
    refine ⟨moves, List.mem_append_left _ isStaged, movesLater, view, after, ?_⟩
    intro between memberBetween afterEvent beforeLater
    rcases List.mem_append.mp memberBetween with isOld | isNew
    · exact run between isOld afterEvent beforeLater
    · -- The new event is after both.
      have bound := inv.sound.id_lt isStaged
      rw [List.mem_singleton.mp isNew] at beforeLater
      exact absurd beforeLater (by simp only; omega)

theorem boundaries_concat (events : List (Event Touch)) (event : Event Touch) :
    boundaries (events ++ [event]) =
      boundaries events + if event.content.touchEventType = .MOVE then 0 else 1 := by
  unfold boundaries
  simp

theorem Inv.down (inv : dispatch.Inv) {viewTag : BitVec 32} {downTime : ℤ}
    (positive : viewTag.msb = false) (fresh : downTime ∉ dispatch.downTimes)
    (handled : ({ dispatch with downTimes := downTime :: dispatch.downTimes }
      : TouchDispatch).handleTouchEvent { viewTag, downTime } .down = some next) : next.Inv := by
  cases handled
  obtain ⟨base, touches, -⟩ := inv.touches
  -- The count of the new gesture begins after its start.
  obtain ⟨base', here, elsewhere⟩ : ∃ base' : ℤ → ℕ,
      base' downTime = boundaries dispatch.queues.staged + 1 ∧
        ∀ time ≠ downTime, base' time = base time :=
    ⟨Function.update base downTime _, update_self _ _ _, fun _ differs => update_of_ne differs _ _⟩
  have touches' : ∀ event ∈ dispatch.queues.staged, dispatch.TouchSound base' event := by
    intro event member
    obtain ⟨coalesces, known, time, isPositive, key, counted⟩ := touches event member
    refine ⟨coalesces, known, time, isPositive, key, fun moves => ?_⟩
    have differs : event.content.downTime ≠ downTime := fun same => fresh (same ▸ known)
    rw [counted moves, elsewhere _ differs]
  refine inv.stage touches' rfl (fun _ => List.mem_cons_of_mem _) rfl rfl rfl List.mem_cons_self
    positive nofun nofun ?_
  rintro gesture ⟨⟩
  refine ⟨List.mem_cons_self, positive, update_self _ _ _, ?_⟩
  change boundaries (dispatch.queues.staged ++ [_]) = base' downTime + 0
  rw [boundaries_concat, here]
  rfl

theorem GestureSound.get {gesture : Gesture} (sound : dispatch.GestureSound base gesture) :
    dispatch.helper.get gesture.downTime = BitVec.ofNat 32 gesture.pointerChanges := by
  rw [TouchEventCoalescingKeyHelper.get, sound.key]
  rfl

theorem Inv.motion (inv : dispatch.Inv) {gesture : Gesture} {action : MotionAction}
    (isGesture : dispatch.gesture = some gesture) (notDown : action ≠ .down)
    (handled : dispatch.handleTouchEvent gesture action = some next) : next.Inv := by
  obtain ⟨_, touches, gestures⟩ := inv.touches
  -- The key of the gesture is the number of its pointer changes, which this event may raise.
  have sound := gestures gesture isGesture
  obtain ⟨⟨_, _⟩, inits, isNext⟩ := map_eq_some_iff.mp handled
  subst isNext
  refine inv.stage touches rfl (fun _ => id) rfl rfl rfl sound.known sound.positive ?_
    (fun _ => sound.counted) ?_
  -- A move reads the key; it is cut to 16 bits only when it is put into the event.
  · intro moves
    cases action with
    | down | up | cancel | pointerDown | pointerUp => cases moves
    | move =>
      obtain ⟨key, gets, isPair⟩ := map_eq_some_iff.mp inits
      cases isPair
      unfold TouchEventCoalescingKeyHelper.getCoalescingKey at gets
      rw [sound.get] at gets
      dsimp only at gets
      split at gets
      next => cases gets
      next =>
        cases gets
        have bits : 16 ≤ 32 := by decide
        exact BitVec.setWidth_ofNat_of_le bits _
  -- A finger that goes down or up raises the key by one, and is itself a boundary.
  · cases action with
    | down => exact absurd rfl notDown
    | up | cancel => exact nofun
    | pointerDown | pointerUp =>
      obtain ⟨_, increments, isPair⟩ := map_eq_some_iff.mp inits
      cases isPair
      unfold TouchEventCoalescingKeyHelper.incrementCoalescingKey at increments
      rw [sound.get] at increments
      dsimp only at increments
      split at increments
      next => cases increments
      next =>
        cases increments
        rintro current ⟨⟩
        refine ⟨sound.known, sound.positive, ?_, ?_⟩
        · refine (update_self _ _ _).trans ?_
          rw [BitVec.ofNat_add]
          rfl
        · change boundaries (dispatch.queues.staged ++ [_]) = _
          rw [boundaries_concat, sound.counted]
          rfl
    | move =>
      obtain ⟨key, gets, isPair⟩ := map_eq_some_iff.mp inits
      cases isPair
      rintro current ⟨⟩
      refine ⟨sound.known, sound.positive, sound.key, ?_⟩
      change boundaries (dispatch.queues.staged ++ [_]) = _
      rw [boundaries_concat, sound.counted]
      rfl

theorem Inv.initial : ({} : TouchDispatch).Inv where
  sound := Sound.initial
  ordered := List.Sublist.refl _
  times := List.Pairwise.nil
  touches := ⟨fun _ => 0, nofun, nofun⟩
  coalesced _ none := absurd none List.not_mem_nil

/-- **What one step keeps**, if it does not bring moves together that are apart. -/
theorem Inv.step (inv : dispatch.Inv) {touchStep : TouchStep} (apart : dispatch.Apart touchStep)
    (stepped : dispatch.step touchStep = some next) : next.Inv := by
  -- One case for each step; `apart` matters for moving the staged events, and for a new gesture.
  cases touchStep with
  | elapse =>
    cases stepped
    exact inv.of_same inv.sound rfl (List.Sublist.refl _) inv.coalesced rfl rfl rfl
      (Nat.le_add_right _ _)
  | down =>
    simp only [TouchDispatch.step] at stepped
    split at stepped
    next fresh => exact inv.down apart fresh.2 stepped
    next => cases stepped
  | motion =>
    obtain ⟨_, isGesture, handled⟩ := bind_eq_some_iff.mp stepped
    split at handled
    next => cases handled
    next notDown => exact inv.motion isGesture notDown handled
  | moveStagedEventsToDispatchQueue =>
    obtain ⟨queues, moved, isNext⟩ := map_eq_some_iff.mp stepped
    subst isNext
    obtain ⟨sound, noneStaged⟩ : queues.Sound ∧ queues.eventStaging = [] := by
      obtain ⟨after, movedAfter, sound, noneStaged⟩ := inv.sound.moveStagedEventsToDispatchQueue
      cases moved.symm.trans movedAfter
      exact ⟨sound, noneStaged⟩
    obtain ⟨after, movedAfter, staged, sublist, within⟩ := inv.moveEvents apart
    rw [EventQueues.moveStagedEventsToDispatchQueue, movedAfter] at moved
    cases moved
    refine inv.of_same sound staged ?_ within rfl rfl rfl le_rfl
    rw [waiting, noneStaged, List.append_nil]
    exact sublist
  | dispatchEvents =>
    cases stepped
    obtain ⟨-, -, staging, toDispatch, staged, coalesced, -⟩ := dispatchEvents_eq dispatch.queues
    refine inv.of_same inv.sound.dispatchEvents staged ?_ ?_ rfl rfl rfl le_rfl
    · rw [waiting, waiting, staging, toDispatch]
      exact List.sublist_append_right _ _
    · rw [coalesced]
      exact inv.coalesced

/-- **Touch moves are coalesced within runs of moves only**, provided that no moves of different
gestures meet with the same key on the same view. Each start, end and cancel waits or was
delivered, once, and a move that does neither was replaced by a later move on its view with no
start, end or cancel on that view between the two. -/
theorem run_movesKept {steps : List TouchStep} {final : TouchDispatch}
    (along : Along step Apart {} steps) (ran : Runs.run step {} steps = some final)
    {event : Event Touch} (member : event ∈ final.queues.staged) :
    (event.content.touchEventType ≠ .MOVE →
      (final.queues.waiting ++ final.queues.dispatched).count event = 1) ∧
    (event ∉ final.queues.waiting → event ∉ final.queues.dispatched →
      ∃ later, (event, later) ∈ final.queues.coalesced ∧
        WithinRun final.queues.staged event later) := by
  have inv : final.Inv :=
    run_induction (fun _ _ _ inv apart stepped => inv.step apart stepped) Inv.initial along ran
  have accounts := inv.sound.accounts
  have accounted : event ∈ final.queues.waiting ++
      (final.queues.dispatched ++ final.queues.coalesced.map Prod.fst) :=
    accounts.mem_iff.mp member
  constructor
  · intro boundary
    have notCoalesced : event ∉ final.queues.coalesced.map Prod.fst := by
      intro isCoalesced
      obtain ⟨pair, isPair, rfl⟩ := List.mem_map.mp isCoalesced
      exact boundary (inv.coalesced pair isPair).moves
    have once := List.count_eq_one_of_mem inv.sound.nodup accounted
    rw [← List.append_assoc, List.count_append, List.count_eq_zero.mpr notCoalesced] at once
    exact once
  · intro notWaiting notDispatched
    rcases List.mem_append.mp accounted with isWaiting | isDone
    · exact absurd isWaiting notWaiting
    · rcases List.mem_append.mp isDone with isDispatched | isCoalesced
      · exact absurd isDispatched notDispatched
      · obtain ⟨⟨replaced, later⟩, isPair, rfl⟩ := List.mem_map.mp isCoalesced
        exact ⟨later, isPair, inv.coalesced _ isPair⟩

def twoViews : List TouchStep :=
  [.down 3 100, .motion .move, .elapse 5, .motion .move, .motion .pointerDown, .motion .move,
    .motion .up, .down 5 200, .motion .move, .motion .cancel, .moveStagedEventsToDispatchQueue]

def firstMove : Event Touch := ⟨1, 3, "topTouchMove", true, 0, 0, ⟨.MOVE, 100, 0⟩⟩

theorem run_movesKept_twoViews : ∃ final, Runs.run step {} twoViews = some final ∧
    ∃ later, (firstMove, later) ∈ final.queues.coalesced ∧
      WithinRun final.queues.staged firstMove later := by
  obtain ⟨final, ran, member, notWaiting, notDispatched⟩ :
      ∃ final, Runs.run step {} twoViews = some final ∧ firstMove ∈ final.queues.staged ∧
        firstMove ∉ final.queues.waiting ∧ firstMove ∉ final.queues.dispatched :=
    ⟨_, rfl, by decide +kernel⟩
  have along : Along step Apart {} twoViews := by decide +kernel
  exact ⟨final, ran, (run_movesKept along ran member).2 notWaiting notDispatched⟩

def twoGestures : List TouchStep :=
  [.down 3 100, .motion .move, .motion .up, .elapse 5, .down 3 200, .motion .move, .motion .up,
    .moveStagedEventsToDispatchQueue]

theorem twoGestures_not_movesKept : ∃ final, Runs.run step {} twoGestures = some final ∧
    firstMove ∈ final.queues.staged ∧ firstMove ∉ final.queues.waiting ∧
    firstMove ∉ final.queues.dispatched ∧
    ¬ ∃ later, WithinRun final.queues.staged firstMove later := by
  obtain ⟨final, ran, member, notWaiting, notDispatched, boundary⟩ :
      ∃ final, Runs.run step {} twoGestures = some final ∧ firstMove ∈ final.queues.staged ∧
        firstMove ∉ final.queues.waiting ∧ firstMove ∉ final.queues.dispatched ∧
        ∀ later ∈ final.queues.staged, later.content.touchEventType = .MOVE →
          firstMove.id < later.id → ∃ between ∈ final.queues.staged,
            firstMove.id < between.id ∧ between.id < later.id ∧
              between.viewTag = firstMove.viewTag ∧ between.content.touchEventType ≠ .MOVE :=
    ⟨_, rfl, by decide +kernel⟩
  refine ⟨final, ran, member, notWaiting, notDispatched, ?_⟩
  rintro ⟨later, within⟩
  obtain ⟨between, isStaged, afterFirst, beforeLater, sameView, isBoundary⟩ :=
    boundary later within.isStaged within.movesLater within.after
  exact isBoundary (within.run between isStaged afterFirst beforeLater sameView)

end TouchDispatch

end ReactNative

