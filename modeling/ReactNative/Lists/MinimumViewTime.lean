import Mathlib.Tactic.Linarith
import ReactNative.Lists.ViewabilityNotifications

/-! A timer reports the items that it was set with and that are viewable when it fires. An item that
has gone out of view in between and come back is reported like one that has been in view all the
time. -/
namespace ReactNative

open List Option

structure ViewabilityTimer where
  viewableIndices : List ℤ
  setAt : ℚ
  deriving DecidableEq

structure ViewabilityUpdate where
  time : ℚ
  viewableIndices : List ℤ
  deriving DecidableEq

structure ClockedHelper (Item : Type) where
  helper : ViewabilityHelper Item
  now : ℚ := 0
  timers : List ViewabilityTimer := []
  updates : List ViewabilityUpdate := []
  deriving DecidableEq

inductive ClockedAction where
  | onUpdate (viewport : MeasuredViewport)
  | elapse (time : ℚ)
  | fireTimer (index : ℕ)

namespace ViewabilityHelper

variable {Item : Type}

section Clocked

variable (config : ViewabilityConfig) (source : TokenSource Item) (state : ClockedHelper Item)

/-- A timer fires at its time: none is passed, and those of one time fire in any order. -/
def clockedStep : ClockedAction → Option (ClockedHelper Item)
  | .onUpdate viewport =>
    (onUpdate config source viewport.toViewport state.helper).bind fun (helper, timer) =>
      (computeViewableItems config viewport.toViewport).map fun viewableIndices =>
        { state with
          helper := helper
          timers := state.timers ++ timer.toList.map fun indices => ⟨indices, state.now⟩
          updates := state.updates ++ [⟨state.now, viewableIndices⟩] }
  | .elapse time =>
    if 0 ≤ time ∧ ∀ timer ∈ state.timers, state.now + time ≤ timer.setAt + config.minimumViewTime then
      some { state with now := state.now + time }
    else none
  | .fireTimer index =>
    (state.timers[index]?).bind fun timer =>
      if state.now = timer.setAt + config.minimumViewTime then
        some { state with
          helper := onUpdateSync source timer.viewableIndices state.helper
          timers := state.timers.eraseIdx index }
      else none

/-- What was viewable at the last update up to the time. -/
def inForceAt (updates : List ViewabilityUpdate) (time : ℚ) : List ℤ :=
  ((updates.filter (·.time ≤ time)).getLast?.map ViewabilityUpdate.viewableIndices).getD []

/-- What is reported in the action has been viewable for the minimum time: at all updates in it, and
when it began. -/
def HonoursViewTime (action : ClockedAction) : Prop :=
  ∀ next notification, clockedStep config source state action = some next →
    next.helper.notifications = state.helper.notifications ++ [notification] →
    ∀ viewable ∈ notification.viewableItems,
      (∀ update ∈ next.updates, next.now - config.minimumViewTime ≤ update.time →
        update.time ≤ next.now → viewable.index ∈ update.viewableIndices) ∧
      viewable.index ∈ inForceAt next.updates (next.now - config.minimumViewTime)

/-- An item that the timer was set with, and that is viewable when it fires, was not viewable at an
update since. Then the timer reports it, unless what it would report is reported already. -/
def ReportsReturned (action : ClockedAction) : Prop :=
  ∃ index timer, action = .fireTimer index ∧ state.timers[index]? = some timer ∧
    (¬∀ key, key ∈ keys state.helper.viewableItems ↔
      ∃ ii ∈ state.helper.stillViewable timer.viewableIndices, source.keyExtractor ii = key) ∧
    ∃ ii ∈ state.helper.stillViewable timer.viewableIndices, ∃ update ∈ state.updates,
      timer.setAt ≤ update.time ∧ ii ∉ update.viewableIndices

structure Chronological : Prop where
  interacted : config.waitForInteraction → state.helper.hasInteracted
  ordered : state.updates.Pairwise fun earlier later => earlier.time ≤ later.time
  past : ∀ update ∈ state.updates, update.time ≤ state.now
  set : ∀ timer ∈ state.timers, ∃ update ∈ state.updates, update.time = timer.setAt

end Clocked

section Steps

variable {config : ViewabilityConfig} {source : TokenSource Item}
  {state next : ClockedHelper Item}

theorem clockedStep_onUpdate {viewport : MeasuredViewport} (delayed : config.minimumViewTime ≠ 0)
    (interacted : config.waitForInteraction → state.helper.hasInteracted)
    (stepped : clockedStep config source state (.onUpdate viewport) = some next) :
    ∃ viewableIndices, computeViewableItems config viewport.toViewport = some viewableIndices ∧
      next.now = state.now ∧ next.updates = state.updates ++ [⟨state.now, viewableIndices⟩] ∧
      next.helper = { state.helper with viewableIndices := viewableIndices } ∧
      (next.timers = state.timers ∨
        next.timers = state.timers ++ [⟨viewableIndices, state.now⟩]) := by
  obtain ⟨⟨helper, _⟩, updates, mapped⟩ := bind_eq_some_iff.mp stepped
  obtain ⟨viewableIndices, computed, rfl⟩ := map_eq_some_iff.mp mapped
  obtain ⟨found, isFound, done⟩ := onUpdate_cases interacted updates
  obtain rfl : found = viewableIndices := some_inj.mp (isFound.symm.trans computed)
  refine ⟨found, computed, rfl, rfl, ?_⟩
  obtain ⟨same, rfl, rfl⟩ | ⟨-, -, rfl, rfl⟩ | ⟨-, atOnce, -⟩ := done
  · exact ⟨by simp [← same], .inl (by simp)⟩
  · exact ⟨rfl, .inr rfl⟩
  · exact absurd atOnce delayed

theorem clockedStep_fireTimer {index : ℕ} :
    clockedStep config source state (.fireTimer index) = some next ↔
      ∃ timer, state.timers[index]? = some timer ∧
        state.now = timer.setAt + config.minimumViewTime ∧
        next = { state with
          helper := onUpdateSync source timer.viewableIndices state.helper
          timers := state.timers.eraseIdx index } := by
  rw [clockedStep, bind_eq_some_iff]
  refine exists_congr fun timer => and_congr_right fun _ => ?_
  by_cases due : state.now = timer.setAt + config.minimumViewTime
  · rw [if_pos due, some_inj, and_iff_right due, eq_comm]
  · rw [if_neg due]
    exact iff_of_false (by simp) fun both => due both.1

variable (action : ClockedAction)

theorem clockedStep_chronological (delayed : config.minimumViewTime ≠ 0)
    (chronological : Chronological config state)
    (stepped : clockedStep config source state action = some next) : Chronological config next := by
  obtain ⟨interacted, ordered, past, set⟩ := chronological
  cases action with
  | onUpdate =>
    obtain ⟨viewableIndices, -, sameTime, updates, helper, timers⟩ :=
      clockedStep_onUpdate delayed interacted stepped
    refine ⟨?_, ?_, ?_, ?_⟩
    · rw [helper]
      exact interacted
    · rw [updates, pairwise_append]
      refine ⟨ordered, pairwise_singleton _ _, fun earlier member later isLast => ?_⟩
      rw [mem_singleton.mp isLast]
      exact past earlier member
    · rw [updates, sameTime]
      intro update member
      rcases mem_append.mp member with before | isLast
      · exact past update before
      · rw [mem_singleton.mp isLast]
    · have kept : ∀ timer ∈ state.timers, ∃ update ∈ next.updates, update.time = timer.setAt := by
        intro timer member
        obtain ⟨update, isUpdate, sameSet⟩ := set timer member
        rw [updates]
        exact ⟨update, mem_append_left _ isUpdate, sameSet⟩
      -- A new timer is set at the time of this update.
      rcases timers with same | more
      · rw [same]
        exact kept
      · rw [more]
        intro timer member
        rcases mem_append.mp member with before | isNew
        · exact kept timer before
        · rw [mem_singleton.mp isNew, updates]
          exact ⟨_, mem_append_right _ (mem_singleton_self _), rfl⟩
  | elapse time =>
    rw [clockedStep, ite_none_right_eq_some] at stepped
    obtain ⟨⟨forward, -⟩, result⟩ := stepped
    cases result
    refine ⟨interacted, ordered, fun update member => ?_, set⟩
    have before := past update member
    linarith
  | fireTimer =>
    obtain ⟨timer, -, -, rfl⟩ := clockedStep_fireTimer.mp stepped
    exact ⟨fun waits => by simpa using interacted waits, ordered, past,
      fun other member => set other (mem_of_mem_eraseIdx member)⟩

theorem start_chronological {hasInteracted : Bool}
    (interacted : config.waitForInteraction → hasInteracted) :
    Chronological config
      ({ helper := { hasInteracted := hasInteracted } } : ClockedHelper Item) :=
  ⟨interacted, .nil, by simp, by simp⟩

theorem inForceAt_mem {updates : List ViewabilityUpdate} {update : ViewabilityUpdate}
    (ordered : updates.Pairwise fun earlier later => earlier.time ≤ later.time)
    (member : update ∈ updates) :
    ∃ inForce ∈ updates, inForce.time = update.time ∧
      inForceAt updates update.time = inForce.viewableIndices := by
  have filtered : update ∈ updates.filter (·.time ≤ update.time) := mem_filter.mpr ⟨member, by simp⟩
  obtain ⟨_, inForce, isLast⟩ := (eq_nil_or_concat _).resolve_left (ne_nil_of_mem filtered)
  rw [concat_eq_append] at isLast
  have isInForce : inForce ∈ updates.filter (·.time ≤ update.time) := by simp [isLast]
  obtain ⟨inForceMember, notLater⟩ := mem_filter.mp isInForce
  refine ⟨inForce, inForceMember, le_antisymm (by simpa using notLater) ?_, by simp [inForceAt, isLast]⟩
  -- the update itself passes the test, and the last one that does is no earlier
  have sorted := ordered.filter (·.time ≤ update.time)
  rw [isLast] at sorted filtered
  rcases mem_append.mp filtered with earlier | same
  · exact (pairwise_append.mp sorted).2.2 update earlier inForce (by simp)
  · rw [mem_singleton.mp same]

theorem onUpdateSync_notifies {helper : ViewabilityHelper Item} {viewableIndices : List ℤ}
    {notification : ViewableItemsChange Item} :
    (onUpdateSync source viewableIndices helper).notifications =
        helper.notifications ++ [notification] ↔
      (¬∀ key, key ∈ keys helper.viewableItems ↔
        ∃ ii ∈ helper.stillViewable viewableIndices, source.keyExtractor ii = key) ∧
      notification = ⟨nextItems source (helper.stillViewable viewableIndices),
        changedItems helper.viewableItems
          (nextItems source (helper.stillViewable viewableIndices))⟩ := by
  have changes : changedItems helper.viewableItems (nextItems source
      (helper.stillViewable viewableIndices)) = [] ↔ ∀ key, key ∈ keys helper.viewableItems ↔
        ∃ ii ∈ helper.stillViewable viewableIndices, source.keyExtractor ii = key := by
    rw [changedItems_eq_nil_iff]
    exact forall_congr' fun key => by rw [mem_keys_nextItems]
  rw [← changes, onUpdateSync]
  by_cases unchanged : changedItems helper.viewableItems (nextItems source
      (helper.stillViewable viewableIndices)) = []
  · simp [unchanged]
  · simp [unchanged, length_pos_iff, eq_comm]

theorem fireTimer_honours_iff {index : ℕ} (distinct : Function.Injective source.keyExtractor)
    (chronological : Chronological config state)
    (stepped : clockedStep config source state (.fireTimer index) = some next) :
    HonoursViewTime config source state (.fireTimer index) ↔
      ¬ReportsReturned source state (.fireTimer index) := by
  obtain ⟨timer, pending, due, isNext⟩ := clockedStep_fireTimer.mp stepped
  have began : state.now - config.minimumViewTime = timer.setAt := by linarith
  constructor
  · rintro honours ⟨_, other, ⟨⟩, isTimer, changes, ii, viewable, update, member, since, unseen⟩
    obtain rfl : timer = other := some_inj.mp (pending.symm.trans isTimer)
    obtain ⟨token, isToken, rfl⟩ := (mem_index_nextItems distinct ii).mpr viewable
    subst isNext
    have seen := (honours _ _ stepped (onUpdateSync_notifies.mpr ⟨changes, rfl⟩) token isToken).1
    refine unseen (seen update member ?_ (chronological.past update member))
    rw [began]
    exact since
  · intro noneReturned other notification sameStep notifies token isToken
    obtain rfl : next = other := some_inj.mp (stepped.symm.trans sameStep)
    subst isNext
    obtain ⟨changes, rfl⟩ := onUpdateSync_notifies.mp notifies
    have viewable := (mem_index_nextItems distinct token.index).mp ⟨token, isToken, rfl⟩
    have seen : ∀ update ∈ state.updates, timer.setAt ≤ update.time →
        token.index ∈ update.viewableIndices := by
      intro update member since
      by_contra unseen
      exact noneReturned
        ⟨index, timer, rfl, pending, changes, token.index, viewable, update, member, since, unseen⟩
    rw [began]
    refine ⟨fun update member since _ => seen update member since, ?_⟩
    -- the timer was set at an update, so an update of that time is in force
    obtain ⟨update, isUpdate, sameTime⟩ := chronological.set timer (mem_of_getElem? pending)
    obtain ⟨inForce, isInForce, inForceTime, isIt⟩ := inForceAt_mem chronological.ordered isUpdate
    rw [← sameTime, isIt]
    exact seen inForce isInForce (by rw [inForceTime, sameTime])

theorem honours_iff (delayed : config.minimumViewTime ≠ 0)
    (distinct : Function.Injective source.keyExtractor) (chronological : Chronological config state)
    (stepped : clockedStep config source state action = some next) :
    HonoursViewTime config source state action ↔ ¬ReportsReturned source state action := by
  -- An action that issues no notification honours everything.
  have silent (same : next.helper.notifications = state.helper.notifications) :
      HonoursViewTime config source state action := by
    intro other notification sameStep notifies
    obtain rfl : next = other := some_inj.mp (stepped.symm.trans sameStep)
    rw [same] at notifies
    simp at notifies
  cases action with
  | onUpdate =>
    obtain ⟨_, -, -, -, helper, -⟩ :=
      clockedStep_onUpdate delayed chronological.interacted stepped
    refine iff_of_true (silent (by rw [helper])) ?_
    rintro ⟨_, _, ⟨⟩, -⟩
  | elapse =>
    rw [clockedStep, ite_none_right_eq_some] at stepped
    refine iff_of_true (silent ?_) ?_
    · cases stepped.2
      rfl
    · rintro ⟨_, _, ⟨⟩, -⟩
  | fireTimer => exact fireTimer_honours_iff distinct chronological stepped

end Steps

variable (config : ViewabilityConfig) (source : TokenSource Item)

/-- The minimum view time is honoured in a run exactly if no timer reports an item that has gone out of
view and come back since it was set. -/
theorem minimumViewTime_honoured_iff (positive : 0 < config.minimumViewTime)
    (distinct : Function.Injective source.keyExtractor) (hasInteracted : Bool)
    (interacted : config.waitForInteraction → hasInteracted) {actions : List ClockedAction}
    {final : ClockedHelper Item}
    (ran : Runs.run (clockedStep config source) { helper := { hasInteracted := hasInteracted } }
      actions = some final) :
    Runs.Along (clockedStep config source) (HonoursViewTime config source)
        { helper := { hasInteracted := hasInteracted } } actions ↔
      Runs.Along (clockedStep config source) (fun state action => ¬ReportsReturned source state action)
        { helper := { hasInteracted := hasInteracted } } actions := by
  refine @Runs.along_iff _ _ _ _ (Chronological config) _ _ _ _ ?_ ?_
    (start_chronological interacted) ran
  · intro state action next chronological stepped
    exact clockedStep_chronological action positive.ne' chronological stepped
  · intro state action next chronological stepped
    exact honours_iff action positive.ne' distinct chronological stepped

def fiveSeconds : ViewabilityConfig where
  minimumViewTime := 5
  viewAreaCoveragePercentThreshold := some 0

theorem minimumViewTime_honoured_iff_shown :
    Runs.Along (clockedStep fiveSeconds unitItems) (HonoursViewTime fiveSeconds unitItems)
        { helper := { hasInteracted := false } } [.onUpdate (oneItem 0), .elapse 5, .fireTimer 0] ↔
      Runs.Along (clockedStep fiveSeconds unitItems)
        (fun state action => ¬ReportsReturned unitItems state action)
        { helper := { hasInteracted := false } } [.onUpdate (oneItem 0), .elapse 5, .fireTimer 0] :=
  minimumViewTime_honoured_iff fiveSeconds unitItems (by decide +kernel) strokes_injective false
    (by decide)
    (some_get (by decide +kernel : (Runs.run (clockedStep fiveSeconds unitItems)
      { helper := { } } [.onUpdate (oneItem 0), .elapse 5, .fireTimer 0]).isSome)).symm

def shownGoneShown : List ClockedAction :=
  [.onUpdate (oneItem 0), .elapse 1, .onUpdate (oneItem 20), .elapse 1, .onUpdate (oneItem 0),
    .elapse 3]

theorem shownGoneShown_reported : Function.Injective unitItems.keyExtractor ∧
    (Runs.run (clockedStep fiveSeconds unitItems) { helper := { } }
      (shownGoneShown ++ [.fireTimer 0])).isSome ∧
    ¬Runs.Along (clockedStep fiveSeconds unitItems) (HonoursViewTime fiveSeconds unitItems)
      { helper := { } } (shownGoneShown ++ [.fireTimer 0]) := by
  refine ⟨strokes_injective, by decide +kernel, fun along => ?_⟩
  have fires := (Runs.along_append along).2
    { helper := { viewableIndices := [0] }
      now := 5
      timers := [⟨[0], 0⟩, ⟨[], 1⟩, ⟨[0], 2⟩]
      updates := [⟨0, [0]⟩, ⟨1, []⟩, ⟨2, [0]⟩] } (by decide +kernel)
  have seen := fires.1
    { helper := shown
      now := 5
      timers := [⟨[], 1⟩, ⟨[0], 2⟩]
      updates := [⟨0, [0]⟩, ⟨1, []⟩, ⟨2, [0]⟩] } _ (by decide +kernel) rfl ⟨(), strokes 0, 0, true⟩
    mem_cons_self
  have gone := seen.1 ⟨1, []⟩ (by simp) (by decide +kernel) (by decide +kernel)
  cases gone

end ViewabilityHelper

end ReactNative

