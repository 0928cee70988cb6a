import Mathlib.Data.Finset.Basic
import ReactNative.Foundation.Runs
import ReactNative.Lists.ViewabilityHelper

/-! Whoever follows the changes of all notifications has the items that were reported last. -/
namespace ReactNative

open List Option

/-- There are items, and the first one has been measured. -/
structure MeasuredViewport extends Viewport where
  itemCount_pos : 0 < itemCount
  measured : (getFrameMetrics 0).isSome

inductive ViewabilityAction where
  | onUpdate (viewport : MeasuredViewport)
  | resetViewableIndices
  | recordInteraction
  | fireTimer

structure TimedHelper (Item : Type) where
  helper : ViewabilityHelper Item
  timers : List (List ℤ) := []
  deriving DecidableEq

namespace ViewabilityHelper

variable {Item : Type}

/-- The keys of a follower of the changes. -/
def replayChange (followed : Finset String) (viewable : ViewToken Item) : Finset String :=
  if viewable.isViewable then insert viewable.key followed else followed.erase viewable.key

variable (notifications : List (ViewableItemsChange Item))

def replay : Finset String :=
  (notifications.flatMap ViewableItemsChange.changed).foldl replayChange ∅

def lastReported : List (ViewToken Item) :=
  (notifications.getLast?.map ViewableItemsChange.viewableItems).getD []

variable (config : ViewabilityConfig) (source : TokenSource Item) (state : TimedHelper Item)

/-- The first timer fires first. -/
def step : ViewabilityAction → Option (TimedHelper Item)
  | .onUpdate viewport =>
    (onUpdate config source viewport.toViewport state.helper).map fun (helper, timer) =>
      { helper := helper, timers := state.timers ++ timer.toList }
  | .resetViewableIndices => some { state with helper := resetViewableIndices state.helper }
  | .recordInteraction => some { state with helper := recordInteraction state.helper }
  | .fireTimer =>
    match state.timers with
    | [] => none
    | viewableIndices :: timers =>
      some { helper := onUpdateSync source viewableIndices state.helper, timers := timers }

variable (action : ViewabilityAction)

/-- After the action the follower has what was reported last. After an update that leaves no timer
pending, that is what the update found to be viewable. -/
def Truthful : Prop :=
  ∀ next, step config source state action = some next →
    (∀ key, key ∈ replay next.helper.notifications ↔
      key ∈ keys (lastReported next.helper.notifications)) ∧
    ∀ viewport viewableIndices, action = .onUpdate viewport →
      computeViewableItems config viewport.toViewport = some viewableIndices → next.timers = [] →
      ∀ key, key ∈ keys (lastReported next.helper.notifications) ↔
        ∃ ii ∈ viewableIndices, source.keyExtractor ii = key

/-- Nothing is viewable at an update, after a reset and with no timer pending, while something is
reported. -/
def MissesLoss : Prop :=
  ∃ viewport, action = .onUpdate viewport ∧
    computeViewableItems config viewport.toViewport = some [] ∧
    state.helper.viewableIndices = [] ∧ state.timers = [] ∧
    lastReported state.helper.notifications ≠ []

structure Consistent : Prop where
  interacted : config.waitForInteraction → state.helper.hasInteracted
  replayed : ∀ key, key ∈ replay state.helper.notifications ↔ key ∈ keys state.helper.viewableItems
  reported : lastReported state.helper.notifications = state.helper.viewableItems
  atOnce : config.minimumViewTime = 0 → state.timers = []
  /-- With no timer pending, what is cached is reported, unless the cache was reset. -/
  idle : state.timers = [] → state.helper.viewableIndices = [] ∨
    ∀ key, key ∈ keys state.helper.viewableItems ↔
      ∃ ii ∈ state.helper.viewableIndices, source.keyExtractor ii = key
  /-- The last timer was set with what is cached, unless the cache was reset. -/
  waiting : ∀ last, state.timers.getLast? = some last →
    state.helper.viewableIndices = [] ∨ last = state.helper.viewableIndices

section Replay

variable {followed : Finset String} {key : String} {items prevItems nextItems : List (ViewToken Item)}

theorem mem_replay_added (viewable : ∀ item ∈ items, item.isViewable = true) :
    key ∈ items.foldl replayChange followed ↔ key ∈ followed ∨ key ∈ keys items := by
  induction items generalizing followed with
  | nil => simp [keys]
  | cons item _ ih =>
    have first := viewable item mem_cons_self
    rw [foldl_cons, ih fun later member => viewable later (mem_cons_of_mem item member),
      replayChange, if_pos first, Finset.mem_insert, keys_cons, mem_cons]
    tauto

theorem mem_replay_removed (gone : ∀ item ∈ items, item.isViewable = false) :
    key ∈ items.foldl replayChange followed ↔ key ∈ followed ∧ key ∉ keys items := by
  induction items generalizing followed with
  | nil => simp [keys]
  | cons item _ ih =>
    have first := gone item mem_cons_self
    rw [foldl_cons, ih fun later member => gone later (mem_cons_of_mem item member),
      replayChange, if_neg (by simp [first]), Finset.mem_erase, keys_cons, mem_cons]
    tauto

theorem mem_keys_filter {others : List (ViewToken Item)} :
    key ∈ keys (items.filter fun item => item.key ∉ keys others) ↔
      key ∈ keys items ∧ key ∉ keys others := by
  constructor
  · intro member
    obtain ⟨item, filtered, rfl⟩ := mem_map.mp member
    obtain ⟨isItem, absent⟩ := mem_filter.mp filtered
    exact ⟨mem_map_of_mem isItem, by simpa using absent⟩
  · rintro ⟨member, absent⟩
    obtain ⟨item, isItem, rfl⟩ := mem_map.mp member
    exact mem_map_of_mem (mem_filter.mpr ⟨isItem, by simpa using absent⟩)

theorem keys_gone : keys (items.map fun item => { item with isViewable := false }) = keys items := by
  rw [keys, List.map_map]
  rfl

theorem mem_replay_changedItems (before : ∀ key, key ∈ followed ↔ key ∈ keys prevItems)
    (viewable : ∀ item ∈ nextItems, item.isViewable = true) :
    key ∈ (changedItems prevItems nextItems).foldl replayChange followed ↔ key ∈ keys nextItems := by
  rw [changedItems, foldl_append, mem_replay_removed, mem_replay_added, before, keys_gone,
    mem_keys_filter, mem_keys_filter]
  · tauto
  · intro item member
    exact viewable item (mem_of_mem_filter member)
  · intro item member
    obtain ⟨-, -, rfl⟩ := mem_map.mp member
    rfl

end Replay

section Actions

variable {config : ViewabilityConfig} {source : TokenSource Item} {helper : ViewabilityHelper Item}
  {state next : TimedHelper Item}

variable (viewableIndices : List ℤ)

theorem nextItems_viewable : ∀ item ∈ nextItems source viewableIndices, item.isViewable = true := by
  intro item member
  obtain ⟨-, -, rfl⟩ := mem_nextItems member
  rfl

theorem onUpdateSync_reports (viewableIndices : List ℤ)
    (replayed : ∀ key, key ∈ replay helper.notifications ↔ key ∈ keys helper.viewableItems)
    (reported : lastReported helper.notifications = helper.viewableItems) :
    let after := onUpdateSync source viewableIndices helper
    (∀ key, key ∈ keys after.viewableItems ↔
      ∃ ii ∈ helper.stillViewable viewableIndices, source.keyExtractor ii = key) ∧
    (∀ key, key ∈ replay after.notifications ↔ key ∈ keys after.viewableItems) ∧
    lastReported after.notifications = after.viewableItems := by
  simp only [onUpdateSync]
  split
  next =>
    refine ⟨fun key => mem_keys_nextItems, fun key => ?_, ?_⟩
    · rw [replay, flatMap_append, foldl_append, ← replay]
      simpa using mem_replay_changedItems replayed (nextItems_viewable _)
    · simp [lastReported]
  next unchanged =>
    have same := changedItems_eq_nil_iff.mp (eq_nil_of_length_eq_zero (Nat.eq_zero_of_not_pos unchanged))
    exact ⟨fun key => (same key).trans mem_keys_nextItems, replayed, reported⟩

@[simp] theorem onUpdateSync_viewableIndices :
    (onUpdateSync source viewableIndices helper).viewableIndices = helper.viewableIndices := by
  rw [onUpdateSync]
  split <;> rfl

@[simp] theorem onUpdateSync_hasInteracted :
    (onUpdateSync source viewableIndices helper).hasInteracted = helper.hasInteracted := by
  rw [onUpdateSync]
  split <;> rfl

variable {viewport : MeasuredViewport}

theorem onUpdate_cases {after : ViewabilityHelper Item}
    {timer : Option (List ℤ)} (interacted : config.waitForInteraction → helper.hasInteracted)
    (updates : onUpdate config source viewport.toViewport helper = some (after, timer)) :
    ∃ viewableIndices, computeViewableItems config viewport.toViewport = some viewableIndices ∧
      (helper.viewableIndices = viewableIndices ∧ after = helper ∧ timer = none ∨
        helper.viewableIndices ≠ viewableIndices ∧ config.minimumViewTime ≠ 0 ∧
          after = { helper with viewableIndices := viewableIndices } ∧
          timer = some viewableIndices ∨
        helper.viewableIndices ≠ viewableIndices ∧ config.minimumViewTime = 0 ∧
          after = onUpdateSync source viewableIndices
            { helper with viewableIndices := viewableIndices } ∧ timer = none) := by
  have someItem := viewport.itemCount_pos
  have measured := viewport.measured
  -- None of the conditions of the early return holds.
  have goesOn : ¬((config.waitForInteraction && !helper.hasInteracted ||
      decide (viewport.itemCount = 0) || (viewport.getFrameMetrics 0).isNone) = true) := by
    simp only [Bool.or_eq_true, Bool.and_eq_true, Bool.not_eq_true', decide_eq_true_eq, not_or,
      isNone_iff_eq_none, ← ne_eq, ne_none_iff_isSome]
    refine ⟨⟨fun waits => ?_, by omega⟩, measured⟩
    rw [interacted waits.1] at waits
    cases waits.2
  rw [onUpdate, if_neg goesOn] at updates
  obtain ⟨viewableIndices, computed, result⟩ := map_eq_some_iff.mp updates
  refine ⟨viewableIndices, computed, ?_⟩
  split at result
  next same =>
    cases result
    exact .inl ⟨same, rfl, rfl⟩
  next differ =>
    split at result
    next delayed =>
      cases result
      exact .inr (.inl ⟨differ, delayed, rfl, rfl⟩)
    next atOnce =>
      cases result
      exact .inr (.inr ⟨differ, not_not.mp atOnce, rfl, rfl⟩)

theorem stillViewable_self (viewableIndices : List ℤ) :
    stillViewable { helper with viewableIndices := viewableIndices } viewableIndices =
      viewableIndices := by
  rw [stillViewable, filter_eq_self]
  intro ii member
  exact decide_eq_true member

theorem step_onUpdate : step config source state (.onUpdate viewport) = some next ↔
      ∃ after timer, onUpdate config source viewport.toViewport state.helper = some (after, timer) ∧
        next = { helper := after, timers := state.timers ++ timer.toList } := by
  rw [step, map_eq_some_iff]
  constructor
  · rintro ⟨⟨after, timer⟩, updates, rfl⟩
    exact ⟨after, timer, updates, rfl⟩
  · rintro ⟨after, timer, updates, rfl⟩
    exact ⟨(after, timer), updates, rfl⟩

theorem update_consistent (consistent : Consistent config source state)
    (stepped : step config source state (.onUpdate viewport) = some next) :
    Consistent config source next := by
  obtain ⟨_, _, updates, rfl⟩ := step_onUpdate.mp stepped
  obtain ⟨viewableIndices, -, ⟨-, rfl, rfl⟩ | ⟨-, delayed, rfl, rfl⟩ | ⟨-, atOnce, rfl, rfl⟩⟩ :=
    onUpdate_cases consistent.interacted updates
  · simpa using consistent
  · exact
      { interacted := consistent.interacted
        replayed := consistent.replayed
        reported := consistent.reported
        atOnce := fun without => absurd without delayed
        idle := fun none_pending => by simp at none_pending
        waiting := fun last isLast => .inr (by simpa using isLast.symm) }
  · -- Without a minimum time there are no timers.
    have idle := consistent.atOnce atOnce
    obtain ⟨items, replayed, reported⟩ := @onUpdateSync_reports _ source
      { state.helper with viewableIndices := viewableIndices } viewableIndices consistent.replayed
      consistent.reported
    rw [stillViewable_self] at items
    exact
      { interacted := fun waits => by simpa using consistent.interacted waits
        replayed := replayed
        reported := reported
        atOnce := fun _ => by simp [idle]
        idle := fun _ => .inr fun key => by simpa using items key
        waiting := fun last isLast => by simp [idle] at isLast }

theorem fire_consistent (consistent : Consistent config source state)
    (stepped : step config source state .fireTimer = some next) : Consistent config source next := by
  obtain ⟨helper, timers⟩ := state
  cases timers with
  | nil => cases stepped
  | cons viewableIndices timers =>
    cases stepped
    obtain ⟨items, replayed, reported⟩ := onUpdateSync_reports viewableIndices consistent.replayed
      consistent.reported
    exact
      { interacted := fun waits => by simpa using consistent.interacted waits
        replayed := replayed
        reported := reported
        atOnce := fun without => by cases consistent.atOnce without
        idle := by
          rintro rfl
          -- the last timer: what it was set with is cached, or nothing is
          simp only [onUpdateSync_viewableIndices]
          refine (consistent.waiting viewableIndices rfl).imp_right fun cached key => ?_
          rw [items key, cached]
          exact Iff.of_eq (congrArg (fun indices => ∃ ii ∈ indices, source.keyExtractor ii = key)
            (stillViewable_self helper.viewableIndices))
        waiting := fun last isLast => by
          simp only [onUpdateSync_viewableIndices]
          refine consistent.waiting last ?_
          rw [getLast?_cons, isLast, getD_some] }

variable (action : ViewabilityAction)

theorem step_consistent (consistent : Consistent config source state)
    (stepped : step config source state action = some next) : Consistent config source next := by
  cases action with
  | onUpdate => exact update_consistent consistent stepped
  | resetViewableIndices =>
    cases stepped
    exact { consistent with
      idle := fun _ => .inl rfl
      waiting := fun _ _ => .inl rfl }
  | recordInteraction =>
    cases stepped
    exact { consistent with interacted := fun _ => rfl }
  | fireTimer => exact fire_consistent consistent stepped

theorem missesLoss_onUpdate : MissesLoss config state (.onUpdate viewport) ↔
      computeViewableItems config viewport.toViewport = some [] ∧ state.helper.viewableIndices = [] ∧
        state.timers = [] ∧ lastReported state.helper.notifications ≠ [] := by
  simp only [MissesLoss, ViewabilityAction.onUpdate.injEq, exists_eq_left']

theorem update_reports_iff {viewableIndices : List ℤ} (consistent : Consistent config source state)
    (stepped : step config source state (.onUpdate viewport) = some next)
    (computed : computeViewableItems config viewport.toViewport = some viewableIndices) :
    (next.timers = [] → ∀ key, key ∈ keys (lastReported next.helper.notifications) ↔
        ∃ ii ∈ viewableIndices, source.keyExtractor ii = key) ↔
      ¬MissesLoss config state (.onUpdate viewport) := by
  have nextConsistent := update_consistent consistent stepped
  obtain ⟨_, _, updates, rfl⟩ := step_onUpdate.mp stepped
  obtain ⟨found, isFound, done⟩ := onUpdate_cases consistent.interacted updates
  obtain rfl : found = viewableIndices := some_inj.mp (isFound.symm.trans computed)
  rw [nextConsistent.reported, missesLoss_onUpdate, computed, some_inj]
  obtain ⟨same, rfl, rfl⟩ | ⟨differ, -, rfl, rfl⟩ | ⟨differ, -, rfl, rfl⟩ := done
  · simp only [toList_none, append_nil, consistent.reported]
    rw [← same]
    constructor
    · rintro truthful ⟨empty, -, none_pending, someItem⟩
      -- nothing is viewable, so nothing should be reported
      have noKeys := truthful none_pending
      obtain ⟨item, _, isItems⟩ := exists_cons_of_ne_nil someItem
      have reportedKey := (noKeys item.key).mp (by rw [isItems, keys_cons]; exact mem_cons_self)
      rw [empty] at reportedKey
      obtain ⟨ii, isIndex, -⟩ := reportedKey
      cases isIndex
    · intro noLoss none_pending
      -- Either the cache was reset, and the update finds nothing as well, or it is what is reported.
      rcases consistent.idle none_pending with empty | items
      · have nothing : state.helper.viewableItems = [] := by
          by_contra someItem
          exact noLoss ⟨empty, empty, none_pending, someItem⟩
        simp [nothing, empty, keys]
      · exact items
  · refine iff_of_true (fun none_pending => by simp at none_pending) ?_
    rintro ⟨rfl, cached, -⟩
    exact differ cached
  · refine iff_of_true (fun none_pending key => ?_) ?_
    · obtain ⟨items, -⟩ := @onUpdateSync_reports _ source
        { state.helper with viewableIndices := found } found consistent.replayed consistent.reported
      rw [items, stillViewable_self]
    · rintro ⟨rfl, cached, -⟩
      exact differ cached

theorem truthful_iff (consistent : Consistent config source state)
    (stepped : step config source state action = some next) :
    Truthful config source state action ↔ ¬MissesLoss config state action := by
  have nextConsistent := step_consistent action consistent stepped
  have follows : ∀ key, key ∈ replay next.helper.notifications ↔
      key ∈ keys (lastReported next.helper.notifications) := by
    intro key
    rw [nextConsistent.reported]
    exact nextConsistent.replayed key
  simp only [Truthful, stepped, some_inj, forall_eq']
  rw [and_iff_right follows]
  by_cases updating : ∃ viewport, action = .onUpdate viewport
  · obtain ⟨viewport, rfl⟩ := updating
    obtain ⟨_, _, updates, -⟩ := step_onUpdate.mp stepped
    obtain ⟨viewableIndices, computed, -⟩ := onUpdate_cases consistent.interacted updates
    rw [← update_reports_iff consistent stepped computed]
    constructor
    · intro truthful
      exact truthful viewport viewableIndices rfl computed
    · rintro reports _ _ ⟨⟩ isComputed
      rw [computed] at isComputed
      cases isComputed
      exact reports
  · refine iff_of_true ?_ ?_
    · intro viewport _ isUpdate
      exact absurd ⟨viewport, isUpdate⟩ updating
    · rintro ⟨viewport, isUpdate, -⟩
      exact updating ⟨viewport, isUpdate⟩

theorem start_consistent (hasInteracted : Bool) (interacted : config.waitForInteraction → hasInteracted) :
    Consistent config source { helper := { hasInteracted := hasInteracted } } where
  interacted := interacted
  replayed key := by simp [replay, keys]
  reported := rfl
  atOnce _ := rfl
  idle _ := .inl rfl
  waiting _ _ := .inl rfl

end Actions

variable {actions : List ViewabilityAction} {final : TimedHelper Item}

/-- The notifications of a run tell the truth after each of its actions exactly if no update takes the
loss of all that is reported for no change. -/
theorem notifications_truthful_iff (hasInteracted : Bool)
    (interacted : config.waitForInteraction → hasInteracted)
    (ran : Runs.run (step config source) { helper := { hasInteracted := hasInteracted } } actions =
      some final) :
    Runs.Along (step config source) (Truthful config source)
        { helper := { hasInteracted := hasInteracted } } actions ↔
      Runs.Along (step config source) (fun state action => ¬MissesLoss config state action)
        { helper := { hasInteracted := hasInteracted } } actions := by
  have start := @start_consistent _ config source hasInteracted interacted
  refine @Runs.along_iff _ _ _ _ (Consistent config source) _ _ _ _ ?_ ?_ start ran
  · intro state action next consistent stepped
    exact step_consistent action consistent stepped
  · intro state action next consistent stepped
    exact truthful_iff action consistent stepped

def oneItem (scrollOffset : ℚ) : MeasuredViewport where
  itemCount := 1
  scrollOffset := scrollOffset
  viewportHeight := 10
  getFrameMetrics ii := if ii = 0 then some ⟨10, 0⟩ else none
  itemCount_pos := by decide
  measured := rfl

def anyPixel : ViewabilityConfig := { viewAreaCoveragePercentThreshold := some 0 }

def unitItems : TokenSource Unit := { getItem := fun _ => (), keyExtractor := strokes }

theorem notifications_truthful_iff_shown :
    Runs.Along (step anyPixel unitItems) (Truthful anyPixel unitItems)
        { helper := { hasInteracted := false } } [.onUpdate (oneItem 0)] ↔
      Runs.Along (step anyPixel unitItems) (fun state action => ¬MissesLoss anyPixel state action)
        { helper := { hasInteracted := false } } [.onUpdate (oneItem 0)] :=
  notifications_truthful_iff anyPixel unitItems false (by decide)
    (some_get (by decide +kernel : (Runs.run (step anyPixel unitItems) { helper := { } }
      [.onUpdate (oneItem 0)]).isSome)).symm

def shown : ViewabilityHelper Unit where
  viewableIndices := [0]
  viewableItems := [⟨(), strokes 0, 0, true⟩]
  notifications := [⟨[⟨(), strokes 0, 0, true⟩], [⟨(), strokes 0, 0, true⟩]⟩]

theorem shown_stays : Function.Injective unitItems.keyExtractor ∧
    (Runs.run (step anyPixel unitItems) { helper := { } }
      [.onUpdate (oneItem 0), .resetViewableIndices, .onUpdate (oneItem 20)]).isSome ∧
    ¬Runs.Along (step anyPixel unitItems) (Truthful anyPixel unitItems) { helper := { } }
      [.onUpdate (oneItem 0), .resetViewableIndices, .onUpdate (oneItem 20)] := by
  refine ⟨strokes_injective, by decide +kernel, ?_⟩
  rintro ⟨-, afterShown⟩
  obtain ⟨-, afterReset⟩ := afterShown { helper := shown } (by decide +kernel)
  obtain ⟨truthful, -⟩ := afterReset { helper := resetViewableIndices shown } rfl
  obtain ⟨-, reports⟩ := truthful { helper := resetViewableIndices shown } (by decide +kernel)
  have reported := reports (oneItem 20) [] rfl (by decide +kernel) rfl (strokes 0)
  obtain ⟨ii, isIndex, -⟩ := reported.mp (by decide +kernel)
  cases isIndex

end ViewabilityHelper

end ReactNative


