import Mathlib.Data.Finset.Option
import Mathlib.Data.List.ReduceOption
import ReactNative.Events.NativeEventEmitter

/-! A subscription is live while it is in the array that is registered for its type. -/

namespace ReactNative

open List Finset

namespace EmitterState

variable {Emitter Module EventType : Type} (nativeModule : Emitter → Module)

variable (state : EmitterState Emitter Module EventType)

def slot (eventType : EventType) (key : ℕ) : Option ℕ :=
  (state.getSubscriptionsForType eventType).bind fun subscriptions => subscriptions[key]?.join

def Live (id : ℕ) : Prop :=
  ∃ subscription ∈ state.created[id]?, state.slot subscription.eventType subscription.key = some id

instance (state : EmitterState Emitter Module EventType) (id : ℕ) : Decidable (state.Live id) :=
  inferInstanceAs (Decidable (∃ subscription ∈ state.created[id]?, _))

def moduleOf (id : ℕ) : Option Module :=
  state.created[id]?.map fun subscription => nativeModule subscription.emitter

def liveOf [DecidableEq Module] (native : Module) : Finset ℕ :=
  (Finset.range state.created.length).filter fun id =>
    state.Live id ∧ state.moduleOf nativeModule id = some native

/-- Whether the module is observing; nothing if starts and stops do not alternate. -/
def observing (observations : List Observation) : Option Bool :=
  observations.foldlM (fun isObserving observation =>
    if isObserving = decide (observation = .stopObserving) then some (!isObserving) else none) false

/-- The modules have counted their live subscriptions, and observe while they have some. -/
def Counts [DecidableEq Module] (state : EmitterState Emitter Module EventType) : Prop :=
  ∀ native, state.listenerCount native = (state.liveOf nativeModule native).card ∧
    observing (state.observations native) = some (decide (0 < state.listenerCount native))

/-- The removal takes out a live subscription of the module that is told. -/
def TakesLive (emitter : Emitter) (state : EmitterState Emitter Module EventType) (id : ℕ) : Prop :=
  ∀ subscription ∈ state.created[id]?, subscription.emitter = emitter ∧
    ∃ other ∈ state.slot subscription.eventType subscription.key,
      state.moduleOf nativeModule other = some (nativeModule emitter)

/-- What the operation does to the subscriptions is what its module is told. -/
def Fair [DecidableEq Emitter] [DecidableEq Module] (state : EmitterState Emitter Module EventType) :
    EmitterOperation Emitter EventType → Prop
  | .addListener _ _ | .once _ _ | .emit _ _ | .throwOut | .removeAllListeners _ none => True
  | .remove id => ∀ subscription ∈ state.created[id]?,
      state.TakesLive nativeModule subscription.emitter id
  | .removeSubscription emitter id => state.TakesLive nativeModule emitter id
  | .removeCurrentListener emitter => ∀ id ∈ state.currentSubscription (some emitter),
      state.TakesLive nativeModule emitter id
  | .removeAllListeners emitter (some eventType) =>
    state.liveOf nativeModule (nativeModule emitter) ≠ ∅ ∧ ∀ key, ∀ id ∈ state.slot eventType key,
        state.moduleOf nativeModule id = some (nativeModule emitter)
  -- A listener of `once` removes what is current for its emitter.
  | .next => ∀ emission ∈ state.emissions.head?, emission.index < emission.length →
      ∀ id ∈ (state.array emission.eventType emission.serial)[emission.index]?.join,
        ∀ subscription ∈ state.created[id]?, subscription.once = true →
          ∀ current ∈ Function.update state.currentSubscription emission.emitter (some id)
              (some subscription.emitter),
            state.TakesLive nativeModule subscription.emitter current

def Placed : Prop :=
  ∀ eventType key, ∀ id ∈ state.slot eventType key, ∃ subscription ∈ state.created[id]?,
      subscription.eventType = eventType ∧ subscription.key = key

variable {nativeModule} {state : EmitterState Emitter Module EventType}

/-! ### Starts and stops -/

theorem observing_append (observations : List Observation) (observation : Observation) :
    observing (observations ++ [observation]) = (observing observations).bind fun isObserving =>
      if isObserving = decide (observation = .stopObserving) then some (!isObserving) else none := by
  rw [observing, foldlM_append, observing]
  simp [foldlM]

variable {native : Module}

section

variable
  (isObserving : observing (state.observations native) = some (decide (0 < state.listenerCount native)))
include isObserving

theorem observing_nativeAddListener [DecidableEq Module] :
    observing ((state.nativeAddListener native).observations native) = some true := by
  rw [nativeAddListener]
  dsimp only
  split
  next first =>
    have none : state.listenerCount native = 0 := by omega
    rw [Function.update_self, observing_append, isObserving, none]
    rfl
  next more =>
    rw [isObserving, decide_eq_true (by omega)]

theorem observing_nativeRemoveListeners [DecidableEq Module] {count : ℕ} :
    observing ((state.nativeRemoveListeners native count).observations native) =
        some (decide (0 < state.listenerCount native - count)) ↔
      0 < state.listenerCount native := by
  rw [nativeRemoveListeners]
  dsimp only
  split
  next last =>
    rw [Function.update_self, observing_append, isObserving, last]
    cases state.listenerCount native with
    | zero => simp
    | succ => simp
  next more =>
    have positive : 0 < state.listenerCount native := by omega
    have left : 0 < state.listenerCount native - count := by omega
    simp [isObserving, positive, left]

end

/-! ### Slots -/

section

variable (state : EmitterState Emitter Module EventType)

section

variable (eventType other : EventType) (key : ℕ)

theorem slot_setSubscriptionsForType [DecidableEq EventType] (subscriptions : List (Option ℕ)) :
    (state.setSubscriptionsForType eventType subscriptions).slot other key =
      if other = eventType then subscriptions[key]?.join else state.slot other key := by
  split
  next same =>
    subst same
    simp [slot, getSubscriptionsForType, setSubscriptionsForType]
  next differs => simp [slot, getSubscriptionsForType, setSubscriptionsForType, differs]

theorem slot_addSubscription [DecidableEq EventType] (emitter : Emitter) (once : Bool) :
    (state.addSubscription emitter eventType once).slot other key =
      if other = eventType ∧ key = ((state.getSubscriptionsForType eventType).getD []).length
      then some state.created.length else state.slot other key := by
  change (state.setSubscriptionsForType eventType _).slot other key = _
  rw [slot_setSubscriptionsForType]
  by_cases same : other = eventType
  · subst same
    rw [if_pos rfl, slot]
    cases state.getSubscriptionsForType other with
    | none =>
      cases key with
      | zero => simp
      | succ key => simp
    | some subscriptions =>
      rw [Option.getD_some, Option.bind_some, getElem?_append]
      split
      next within => rw [if_neg (fun here => Nat.ne_of_lt within here.2)]
      next beyond =>
        by_cases isLast : key = subscriptions.length
        · simp [isLast]
        · have outside : subscriptions.length ≤ key := Nat.le_of_not_lt beyond
          rw [if_neg (fun here => isLast here.2), getElem?_eq_none outside,
            getElem?_eq_none (by simp; omega)]
  · rw [if_neg same, if_neg (fun here => same here.1)]

theorem slot_deleteSlot [DecidableEq EventType] (deleted : ℕ) :
    (state.deleteSlot eventType deleted).slot other key =
      if other = eventType ∧ key = deleted then none else state.slot other key := by
  rw [deleteSlot]
  split
  next missing =>
    split
    next here => rw [slot, here.1, missing, Option.bind_none]
    next => rfl
  next subscriptions found =>
    rw [slot_setSubscriptionsForType]
    by_cases same : other = eventType
    · subst same
      rw [if_pos rfl, slot, found, Option.bind_some, getElem?_set]
      by_cases here : key = deleted
      · subst here
        simp only [if_true, and_self]
        split
        next => rfl
        next => rfl
      · rw [if_neg (Ne.symm here), if_neg (fun both => here both.2)]
    · rw [if_neg same, if_neg (fun here => same here.1)]

theorem slot_removeAllSubscriptions [DecidableEq EventType] :
    (state.removeAllSubscriptions eventType).slot other key =
      if other = eventType then none else state.slot other key := by
  split
  next same =>
    subst same
    simp [slot, getSubscriptionsForType, removeAllSubscriptions]
  next differs => simp [slot, getSubscriptionsForType, removeAllSubscriptions, differs]

end

end

variable {eventType : EventType}

theorem Placed.unique (placed : state.Placed) {other : EventType} {key otherKey id : ℕ}
    (here : state.slot eventType key = some id) (there : state.slot other otherKey = some id) :
    eventType = other ∧ key = otherKey := by
  obtain ⟨_, created, rfl, rfl⟩ := placed eventType key id here
  obtain ⟨_, sameCreated, isType, isKey⟩ := placed other otherKey id there
  cases Option.some.inj (created.symm.trans sameCreated)
  exact ⟨isType, isKey⟩

theorem Placed.live_iff (placed : state.Placed) {id : ℕ} :
    state.Live id ↔ ∃ eventType key, state.slot eventType key = some id := by
  constructor
  · rintro ⟨subscription, -, here⟩
    exact ⟨_, _, here⟩
  · rintro ⟨eventType, key, here⟩
    obtain ⟨subscription, created, rfl, rfl⟩ := placed eventType key id here
    exact ⟨subscription, created, here⟩

theorem Placed.mem_liveOf_iff [DecidableEq Module] (placed : state.Placed) {id : ℕ} :
    id ∈ state.liveOf nativeModule native ↔ (∃ eventType key, state.slot eventType key = some id) ∧
        state.moduleOf nativeModule id = some native := by
  rw [liveOf, Finset.mem_filter, placed.live_iff, Finset.mem_range]
  refine and_iff_right_of_imp fun both => ?_
  obtain ⟨_, created, -⟩ := Option.map_eq_some_iff.mp both.2
  exact (List.getElem?_eq_some_iff.mp created).1

/-! ### Removals -/

variable {after : EmitterState Emitter Module EventType}

theorem liveOf_of_emptied [DecidableEq Module] (placed : state.Placed)
    (created : after.created = state.created) {gone : Finset ℕ}
    (slots : ∀ eventType key id, after.slot eventType key = some id ↔
      state.slot eventType key = some id ∧ id ∉ gone) :
    after.Placed ∧ ∀ native, after.liveOf nativeModule native =
      state.liveOf nativeModule native \ gone := by
  have placedAfter : after.Placed := by
    intro eventType key id here
    rw [created]
    exact placed eventType key id ((slots eventType key id).mp here).1
  refine ⟨placedAfter, fun native => ?_⟩
  ext id
  rw [placedAfter.mem_liveOf_iff, mem_sdiff, placed.mem_liveOf_iff]
  have sameModule : after.moduleOf nativeModule id = state.moduleOf nativeModule id := by
    rw [moduleOf, moduleOf, created]
  simp only [slots, sameModule]
  tauto

theorem slots_deleteSlot [DecidableEq EventType] (placed : state.Placed) (eventType : EventType)
    (deleted : ℕ) (other : EventType) (key id : ℕ) :
    (state.deleteSlot eventType deleted).slot other key = some id ↔
      state.slot other key = some id ∧ id ∉ (state.slot eventType deleted).toFinset := by
  rw [slot_deleteSlot, Option.mem_toFinset]
  split
  next here =>
    obtain ⟨rfl, rfl⟩ := here
    exact iff_of_false nofun (fun both => both.2 both.1)
  next elsewhere =>
    refine (and_iff_left_of_imp fun there member => ?_).symm
    obtain ⟨rfl, rfl⟩ := placed.unique there member
    exact elsewhere ⟨rfl, rfl⟩

def idsOfType (state : EmitterState Emitter Module EventType) (eventType : EventType) : List ℕ :=
  ((state.getSubscriptionsForType eventType).getD []).reduceOption

theorem mem_idsOfType_iff {id : ℕ} :
    id ∈ state.idsOfType eventType ↔ ∃ key, state.slot eventType key = some id := by
  rw [idsOfType, reduceOption_mem_iff, mem_iff_getElem?]
  simp only [slot]
  cases state.getSubscriptionsForType eventType with
  | none => simp
  | some => simp [Option.join_eq_some_iff]

theorem Placed.nodup_idsOfType (placed : state.Placed) (eventType : EventType) :
    (state.idsOfType eventType).Nodup := by
  rw [idsOfType, reduceOption, List.Nodup, pairwise_filterMap, pairwise_iff_getElem]
  intro first second isFirst isSecond before id isId other isOther same
  subst same
  have slotAt : ∀ key (isKey : key < ((state.getSubscriptionsForType eventType).getD []).length),
      ((state.getSubscriptionsForType eventType).getD [])[key] = some id →
        state.slot eventType key = some id := by
    intro key isKey found
    rw [slot]
    cases isArray : state.getSubscriptionsForType eventType with
    | none => simp [isArray] at isKey
    | some =>
      simp only [isArray, Option.getD_some] at isKey found
      rw [Option.bind_some, getElem?_eq_getElem isKey, found]
      rfl
  have := placed.unique (slotAt first isFirst isId) (slotAt second isSecond isOther)
  omega

theorem slots_removeAllSubscriptions [DecidableEq EventType] (placed : state.Placed)
    (eventType other : EventType) (key id : ℕ) :
    (state.removeAllSubscriptions eventType).slot other key = some id ↔
      state.slot other key = some id ∧ id ∉ (state.idsOfType eventType).toFinset := by
  rw [slot_removeAllSubscriptions, mem_toFinset, mem_idsOfType_iff]
  split
  next same =>
    subst same
    exact iff_of_false nofun (fun both => both.2 ⟨key, both.1⟩)
  next differs =>
    refine (and_iff_left_of_imp fun there ⟨otherKey, here⟩ => ?_).symm
    exact differs (placed.unique there here).1

theorem counts_of_emptied_iff [DecidableEq Module]
    {gone : Finset ℕ} {count : ℕ} (counts : state.Counts nativeModule)
    (listenerCount : after.listenerCount = (state.nativeRemoveListeners native count).listenerCount)
    (observations : after.observations = (state.nativeRemoveListeners native count).observations)
    (live : ∀ other, after.liveOf nativeModule other = state.liveOf nativeModule other \ gone) :
    after.Counts nativeModule ↔ state.liveOf nativeModule native ≠ ∅ ∧
      (state.liveOf nativeModule native).card - count =
        (state.liveOf nativeModule native \ gone).card ∧
      ∀ other, other ≠ native → Disjoint (state.liveOf nativeModule other) gone := by
  have positive : 0 < state.listenerCount native ↔ state.liveOf nativeModule native ≠ ∅ := by
    rw [(counts native).1, card_pos, nonempty_iff_ne_empty]
  -- Another module keeps its count, and so must keep all of its subscriptions.
  have elsewhere : ∀ other, other ≠ native →
      (after.listenerCount other = (after.liveOf nativeModule other).card ∧
        observing (after.observations other) = some (decide (0 < after.listenerCount other)) ↔
      Disjoint (state.liveOf nativeModule other) gone) := by
    intro other differs
    have sameObservations : after.observations other = state.observations other := by
      rw [observations, nativeRemoveListeners]
      dsimp only
      split
      next => rw [Function.update_of_ne differs]
      next => rfl
    have sameCount : after.listenerCount other = state.listenerCount other := by
      rw [listenerCount]
      exact Function.update_of_ne differs _ _
    rw [sameObservations, sameCount, and_iff_left (counts other).2, (counts other).1, live,
      ← Finset.sdiff_eq_self_iff_disjoint]
    constructor
    · intro sameCard
      exact eq_of_subset_of_card_le sdiff_subset (Nat.le_of_eq sameCard)
    · intro same
      rw [same]
  -- This module's count falls by the number told, cut off at zero.
  have here : after.listenerCount native = state.listenerCount native - count := by
    rw [listenerCount]
    exact Function.update_self _ _ _
  constructor
  · intro all
    obtain ⟨isCount, isObserving⟩ := all native
    rw [here, observations, observing_nativeRemoveListeners (counts native).2, positive]
      at isObserving
    refine ⟨isObserving, ?_, fun other differs => (elsewhere other differs).mp (all other)⟩
    rw [← (counts native).1, ← here, isCount, live]
  · rintro ⟨nonempty, isCard, disjoint⟩ other
    by_cases same : other = native
    · subst same
      rw [here, observations, observing_nativeRemoveListeners (counts other).2, positive, live,
        ← isCard, (counts other).1]
      exact ⟨rfl, nonempty⟩
    · exact (elsewhere other same).mpr (disjoint other same)

/-! ### Operations -/

variable (nativeModule after) in
/-- A new subscription is live, and nothing else changes. -/
theorem liveOf_of_added [DecidableEq Module] (placed : state.Placed)
    {added : EmitterSubscription Emitter EventType}
    (created : after.created = state.created ++ [added])
    (slots : ∀ eventType key id, after.slot eventType key = some id ↔
      state.slot eventType key = some id ∨
        eventType = added.eventType ∧ key = added.key ∧ id = state.created.length) :
    after.Placed ∧ ∀ native id, id ∈ after.liveOf nativeModule native ↔
      id ∈ state.liveOf nativeModule native ∨
        id = state.created.length ∧ nativeModule added.emitter = native := by
  have known {eventType : EventType} {key id : ℕ} (here : state.slot eventType key = some id) :
      id < state.created.length := by
    obtain ⟨_, isCreated, -⟩ := placed eventType key id here
    exact (List.getElem?_eq_some_iff.mp isCreated).1
  have placedAfter : after.Placed := by
    intro eventType key id here
    rw [created]
    rcases (slots eventType key id).mp here with before | ⟨rfl, rfl, rfl⟩
    · rw [getElem?_append_left (known before)]
      exact placed eventType key id before
    · exact ⟨added, getElem?_concat_length, rfl, rfl⟩
  refine ⟨placedAfter, fun native id => ?_⟩
  rw [placedAfter.mem_liveOf_iff, placed.mem_liveOf_iff, moduleOf, moduleOf, created]
  constructor
  · rintro ⟨⟨eventType, key, here⟩, isModule⟩
    rcases (slots eventType key id).mp here with before | ⟨rfl, rfl, rfl⟩
    · rw [getElem?_append_left (known before)] at isModule
      exact .inl ⟨⟨eventType, key, before⟩, isModule⟩
    · rw [getElem?_concat_length] at isModule
      exact .inr ⟨rfl, Option.some.inj isModule⟩
  · rintro (⟨⟨eventType, key, before⟩, isModule⟩ | ⟨rfl, rfl⟩)
    · rw [getElem?_append_left (known before)]
      exact ⟨⟨eventType, key, (slots eventType key id).mpr (.inl before)⟩, isModule⟩
    · rw [getElem?_concat_length]
      exact ⟨⟨_, _, (slots _ _ _).mpr (.inr ⟨rfl, rfl, rfl⟩)⟩, rfl⟩

theorem slots_addListener [DecidableEq Module] [DecidableEq EventType] (emitter : Emitter)
    (once : Bool) (other : EventType) (key id : ℕ) :
    (state.addListener nativeModule emitter eventType once).slot other key = some id ↔
      state.slot other key = some id ∨ other = eventType ∧
        key = ((state.getSubscriptionsForType eventType).getD []).length ∧
          id = state.created.length := by
  rw [addListener, slot_addSubscription]
  split
  next isNew =>
    -- The key is the next one, so nothing is there.
    obtain ⟨rfl, rfl⟩ := isNew
    have free : state.slot other ((state.getSubscriptionsForType other).getD []).length = none := by
      rw [slot]
      cases isArray : state.getSubscriptionsForType other with
      | none => rfl
      | some => simp
    change some state.created.length = some id ↔
      state.slot other ((state.getSubscriptionsForType other).getD []).length = some id ∨ _
    rw [free]
    refine ⟨fun here => .inr ⟨rfl, rfl, (Option.some.inj here).symm⟩, ?_⟩
    rintro (none | ⟨-, -, rfl⟩)
    · cases none
    · rfl
  next elsewhere => exact (or_iff_left fun both => elsewhere ⟨both.1, both.2.1⟩).symm

theorem counts_addListener [DecidableEq Module] [DecidableEq EventType] (placed : state.Placed)
    (counts : state.Counts nativeModule) (emitter : Emitter) (eventType : EventType) (once : Bool) :
    (state.addListener nativeModule emitter eventType once).Placed ∧
      (state.addListener nativeModule emitter eventType once).Counts nativeModule := by
  obtain ⟨placedAfter, live⟩ := liveOf_of_added nativeModule
    (state.addListener nativeModule emitter eventType once) placed rfl (slots_addListener emitter once)
  refine ⟨placedAfter, fun native => ?_⟩
  by_cases same : nativeModule emitter = native
  · subst same
    have isLive : (state.addListener nativeModule emitter eventType once).liveOf nativeModule
        (nativeModule emitter) =
          insert state.created.length (state.liveOf nativeModule (nativeModule emitter)) := by
      ext id
      rw [live, mem_insert, or_comm, and_iff_left rfl]
    have fresh : state.created.length ∉ state.liveOf nativeModule (nativeModule emitter) :=
      fun member => absurd (Finset.mem_range.mp (Finset.mem_filter.mp member).1) (Nat.lt_irrefl _)
    have isCount : (state.addListener nativeModule emitter eventType once).listenerCount
        (nativeModule emitter) = state.listenerCount (nativeModule emitter) + 1 :=
      Function.update_self _ _ _
    rw [isLive, card_insert_of_notMem fresh, isCount, (counts _).1]
    exact ⟨rfl, observing_nativeAddListener (counts _).2⟩
  · have isLive : (state.addListener nativeModule emitter eventType once).liveOf nativeModule native =
        state.liveOf nativeModule native := by
      ext id
      rw [live, or_iff_left fun both => same both.2]
    have isCount : (state.addListener nativeModule emitter eventType once).listenerCount native =
        state.listenerCount native := Function.update_of_ne (Ne.symm same) _ _
    have isObservations : (state.addListener nativeModule emitter eventType once).observations
        native = state.observations native := by
      change (state.nativeAddListener (nativeModule emitter)).observations native = _
      rw [nativeAddListener]
      split
      next => exact Function.update_of_ne (Ne.symm same) _ _
      next => rfl
    rw [isLive, isCount, isObservations]
    exact counts native

theorem deleteSlot_frame [DecidableEq EventType] (state : EmitterState Emitter Module EventType)
    (eventType : EventType) (key : ℕ) :
    (state.deleteSlot eventType key).created = state.created ∧
      (state.deleteSlot eventType key).listenerCount = state.listenerCount ∧
      (state.deleteSlot eventType key).observations = state.observations := by
  rw [deleteSlot]
  split
  next => exact ⟨rfl, rfl, rfl⟩
  next => exact ⟨rfl, rfl, rfl⟩

theorem leaves_iff [DecidableEq Module] (placed : state.Placed) {key : ℕ} :
    (state.liveOf nativeModule native ≠ ∅ ∧
      (state.liveOf nativeModule native).card - 1 =
        (state.liveOf nativeModule native \ (state.slot eventType key).toFinset).card ∧
      ∀ other, other ≠ native →
        Disjoint (state.liveOf nativeModule other) (state.slot eventType key).toFinset) ↔
      ∃ other ∈ state.slot eventType key, state.moduleOf nativeModule other = some native := by
  constructor
  · rintro ⟨nonempty, isCard, -⟩
    have positive := card_pos.mpr (nonempty_iff_ne_empty.mpr nonempty)
    have meets : ¬ Disjoint (state.liveOf nativeModule native)
        (state.slot eventType key).toFinset := by
      intro disjoint
      rw [sdiff_eq_self_of_disjoint disjoint] at isCard
      omega
    obtain ⟨other, isLive, isSlot⟩ := not_disjoint_iff.mp meets
    exact ⟨other, Option.mem_toFinset.mp isSlot, (placed.mem_liveOf_iff.mp isLive).2⟩
  · rintro ⟨other, isSlot, isModule⟩
    have isLive : other ∈ state.liveOf nativeModule native :=
      placed.mem_liveOf_iff.mpr ⟨⟨eventType, key, isSlot⟩, isModule⟩
    have gone : (state.slot eventType key).toFinset = {other} := by
      rw [Option.mem_def.mp isSlot]
      rfl
    rw [gone, sdiff_singleton_eq_erase, card_erase_of_mem isLive]
    refine ⟨ne_empty_of_mem isLive, rfl, fun another differs => ?_⟩
    rw [disjoint_singleton_right]
    intro member
    have sameModule := (placed.mem_liveOf_iff.mp member).2
    rw [isModule] at sameModule
    exact differs (Option.some.inj sameModule).symm

section

variable [DecidableEq Module] [DecidableEq EventType] (placed : state.Placed)
  (counts : state.Counts nativeModule)
include placed counts

/-- **A removal keeps the counts right exactly if** it takes out a live subscription of the module
that is told. -/
theorem counts_removeSubscription_iff [DecidableEq Emitter] {emitter : Emitter} {id : ℕ}
    {subscription : EmitterSubscription Emitter EventType}
    (created : state.created[id]? = some subscription) :
    (state.removeSubscription nativeModule emitter subscription).1.Placed ∧
      ((state.removeSubscription nativeModule emitter subscription).1.Counts nativeModule ↔
        state.TakesLive nativeModule emitter id) := by
  have takes : state.TakesLive nativeModule emitter id ↔ subscription.emitter = emitter ∧
      ∃ other ∈ state.slot subscription.eventType subscription.key,
        state.moduleOf nativeModule other = some (nativeModule emitter) := by
    rw [TakesLive, created]
    simp
  rw [removeSubscription, takes]
  split
  next isEmitter =>
    obtain ⟨sameCreated, sameCount, sameObservations⟩ := deleteSlot_frame
      (state.nativeRemoveListeners (nativeModule emitter) 1) subscription.eventType subscription.key
    have placedTold : (state.nativeRemoveListeners (nativeModule emitter) 1).Placed := placed
    obtain ⟨placedAfter, live⟩ := liveOf_of_emptied placed sameCreated
      (slots_deleteSlot placedTold subscription.eventType subscription.key)
    refine ⟨placedAfter, ?_⟩
    rw [counts_of_emptied_iff counts sameCount sameObservations live, and_iff_right isEmitter]
    exact leaves_iff placed
  next otherEmitter =>
    refine ⟨placed, iff_of_false (fun countsAfter => ?_) (fun both => otherEmitter both.1)⟩
    have unchanged : ∀ other, (state.nativeRemoveListeners (nativeModule emitter) 1).liveOf
        nativeModule other = state.liveOf nativeModule other \ ∅ := by
      intro other
      rfl
    obtain ⟨nonempty, isCard, -⟩ := (counts_of_emptied_iff counts rfl rfl unchanged).mp countsAfter
    have positive := card_pos.mpr (nonempty_iff_ne_empty.mpr nonempty)
    rw [sdiff_empty] at isCard
    omega

/-- **Removing all of a type keeps the counts right exactly if** they are all of the module that is
told, and it has some. -/
theorem counts_removeAllListeners_iff (emitter : Emitter) (eventType : EventType) :
    (state.removeAllListeners nativeModule emitter eventType).Placed ∧
      ((state.removeAllListeners nativeModule emitter eventType).Counts nativeModule ↔
        state.liveOf nativeModule (nativeModule emitter) ≠ ∅ ∧
          ∀ key, ∀ id ∈ state.slot eventType key,
            state.moduleOf nativeModule id = some (nativeModule emitter)) := by
  have placedTold : (state.nativeRemoveListeners (nativeModule emitter)
      (state.idsOfType eventType).length).Placed := placed
  have slots : ∀ other key id,
      (state.removeAllListeners nativeModule emitter eventType).slot other key = some id ↔
        state.slot other key = some id ∧ id ∉ (state.idsOfType eventType).toFinset :=
    slots_removeAllSubscriptions placedTold eventType
  obtain ⟨placedAfter, live⟩ : (state.removeAllListeners nativeModule emitter eventType).Placed ∧
      ∀ native, (state.removeAllListeners nativeModule emitter eventType).liveOf nativeModule native =
        state.liveOf nativeModule native \ (state.idsOfType eventType).toFinset :=
    liveOf_of_emptied placed (by rfl) slots
  refine ⟨placedAfter, ?_⟩
  -- The ids of a type are distinct, so that their number is what leaves.
  have isCard : (state.idsOfType eventType).length = (state.idsOfType eventType).toFinset.card :=
    (toFinset_card_of_nodup (placed.nodup_idsOfType eventType)).symm
  have told : (state.removeAllListeners nativeModule emitter eventType).Counts nativeModule ↔
      state.liveOf nativeModule (nativeModule emitter) ≠ ∅ ∧
        (state.liveOf nativeModule (nativeModule emitter)).card -
            (state.idsOfType eventType).length =
          (state.liveOf nativeModule (nativeModule emitter) \
            (state.idsOfType eventType).toFinset).card ∧
        ∀ other, other ≠ nativeModule emitter →
          Disjoint (state.liveOf nativeModule other) (state.idsOfType eventType).toFinset :=
    counts_of_emptied_iff counts rfl rfl live
  refine told.trans (and_congr_right fun _ => ?_)
  constructor
  -- A subscription of another module would leave without that module being told.
  · rintro ⟨-, disjoint⟩ key id here
    obtain ⟨subscription, created, -⟩ := placed eventType key id here
    have isModule : state.moduleOf nativeModule id = some (nativeModule subscription.emitter) := by
      simp [moduleOf, Option.mem_def.mp created]
    by_contra differs
    have other : nativeModule subscription.emitter ≠ nativeModule emitter := by
      intro same
      exact differs (isModule.trans (congrArg some same))
    refine disjoint_left.mp (disjoint _ other)
      (placed.mem_liveOf_iff.mpr ⟨⟨eventType, key, here⟩, isModule⟩) ?_
    exact mem_toFinset.mpr (mem_idsOfType_iff.mpr ⟨key, here⟩)
  -- If all are of this module, just its own count and its own subscriptions fall.
  · intro own
    have isOwn : ∀ id ∈ (state.idsOfType eventType).toFinset,
        state.moduleOf nativeModule id = some (nativeModule emitter) := by
      intro id member
      obtain ⟨key, here⟩ := mem_idsOfType_iff.mp (mem_toFinset.mp member)
      exact own key id here
    have within : (state.idsOfType eventType).toFinset ⊆
        state.liveOf nativeModule (nativeModule emitter) := by
      intro id member
      have here := mem_idsOfType_iff.mp (mem_toFinset.mp member)
      exact placed.mem_liveOf_iff.mpr ⟨⟨eventType, here⟩, isOwn id member⟩
    refine ⟨?_, fun other differs => disjoint_left.mpr fun id isLive member => ?_⟩
    · rw [isCard]
      exact (card_sdiff_of_subset within).symm
    · have isOther := (placed.mem_liveOf_iff.mp isLive).2
      rw [isOwn id member] at isOther
      exact differs (Option.some.inj isOther).symm

theorem counts_removeCurrentListener_iff [DecidableEq Emitter]
    {after : EmitterState Emitter Module EventType × Bool}
    {emitter : Emitter} (removed : state.removeCurrentListener nativeModule emitter = some after) :
    after.1.Placed ∧ (after.1.Counts nativeModule ↔
      ∀ id ∈ state.currentSubscription (some emitter), state.TakesLive nativeModule emitter id) := by
  rw [removeCurrentListener] at removed
  split at removed
  next nothing =>
    cases removed
    exact ⟨placed, iff_of_true counts (by simp [nothing])⟩
  next id current =>
    obtain ⟨subscription, created, rfl⟩ := Option.map_eq_some_iff.mp removed
    have ⟨placedAfter, iff⟩ : (state.removeSubscription nativeModule emitter subscription).1.Placed ∧
        _ := counts_removeSubscription_iff placed counts created
    exact ⟨placedAfter, iff.trans (by simp [current])⟩

theorem counts_invokeNext_iff [DecidableEq Emitter] {emission : Emission Emitter EventType}
    {rest : List (Emission Emitter EventType)}
    (invoked : state.invokeNext nativeModule emission rest = some after) :
    after.Placed ∧ (after.Counts nativeModule ↔
      ∀ id ∈ (state.array emission.eventType emission.serial)[emission.index]?.join,
        ∀ subscription ∈ state.created[id]?, subscription.once = true →
          ∀ current ∈ Function.update state.currentSubscription emission.emitter (some id)
              (some subscription.emitter),
            state.TakesLive nativeModule subscription.emitter current) := by
  rw [invokeNext] at invoked
  split at invoked
  next nothing =>
    cases invoked
    exact ⟨placed, iff_of_true counts (by simp [nothing])⟩
  next id found =>
    obtain ⟨subscription, created, turned⟩ := Option.bind_eq_some_iff.mp invoked
    split at turned
    next isOnce =>
      obtain ⟨removed, isRemoved, rfl⟩ := Option.map_eq_some_iff.mp turned
      -- Neither what is current nor the emissions say anything about the subscriptions.
      let current : EmitterState Emitter Module EventType := { state with
        currentSubscription := Function.update state.currentSubscription emission.emitter (some id)
        emissions := { emission with index := emission.index + 1 } :: rest }
      have placedCurrent : current.Placed := placed
      have countsCurrent : current.Counts nativeModule := counts
      obtain ⟨placedAfter, iff⟩ :=
        counts_removeCurrentListener_iff placedCurrent countsCurrent isRemoved
      -- Whether the emission is left says nothing about the subscriptions.
      have same : (if removed.2 then { removed.1 with emissions := rest } else removed.1 :
          EmitterState Emitter Module EventType).Placed ∧
          ((if removed.2 then { removed.1 with emissions := rest } else removed.1 :
            EmitterState Emitter Module EventType).Counts nativeModule ↔
              removed.1.Counts nativeModule) := by
        split
        next => exact ⟨placedAfter, Iff.rfl⟩
        next => exact ⟨placedAfter, Iff.rfl⟩
      refine ⟨same.1, same.2.trans (iff.trans ?_)⟩
      simp only [found, created, Option.mem_def, Option.some.injEq, forall_eq', isOnce,
        forall_const]
      exact Iff.rfl
    next always =>
      cases turned
      exact ⟨placed, iff_of_true counts (by simp [found, created, always])⟩

end

/-! ### Runs -/

theorem placed_init : ({} : EmitterState Emitter Module EventType).Placed := by
  intro eventType key id here
  cases here

theorem counts_init [DecidableEq Module] :
    ({} : EmitterState Emitter Module EventType).Counts nativeModule := by
  intro native
  exact ⟨rfl, rfl⟩

variable [DecidableEq Emitter] [DecidableEq Module] [DecidableEq EventType]
  {operation : EmitterOperation Emitter EventType}

theorem counts_step_iff (placed : state.Placed) (counts : state.Counts nativeModule)
    (stepped : state.step nativeModule operation = some after) :
    after.Placed ∧ (after.Counts nativeModule ↔ state.Fair nativeModule operation) := by
  -- Adding always keeps the counts; only removals, and the `once` that fires, can be unfair.
  cases operation with
  | addListener emitter eventType =>
    cases stepped
    obtain ⟨placedAfter, countsAfter⟩ := counts_addListener placed counts emitter eventType false
    exact ⟨placedAfter, iff_of_true countsAfter trivial⟩
  | once emitter eventType =>
    cases stepped
    obtain ⟨placedAfter, countsAfter⟩ := counts_addListener placed counts emitter eventType true
    exact ⟨placedAfter, iff_of_true countsAfter trivial⟩
  | emit emitter eventType =>
    cases stepped
    rw [emit]
    split
    next => exact ⟨placed, iff_of_true counts trivial⟩
    next => exact ⟨placed, iff_of_true counts trivial⟩
  | next =>
    rw [step] at stepped
    split at stepped
    next => cases stepped
    next emission rest emissions =>
      split at stepped
      next within =>
        obtain ⟨placedAfter, iff⟩ := counts_invokeNext_iff placed counts stepped
        refine ⟨placedAfter, iff.trans ?_⟩
        simp [Fair, emissions, within]
      next beyond =>
        cases stepped
        exact ⟨placed, iff_of_true counts (by simp [Fair, emissions, beyond])⟩
  | throwOut =>
    rw [step] at stepped
    split at stepped
    next => cases stepped
    next =>
      cases stepped
      exact ⟨placed, iff_of_true counts trivial⟩
  | remove id =>
    obtain ⟨subscription, created, rfl⟩ := Option.map_eq_some_iff.mp stepped
    have ⟨placedAfter, iff⟩ :
        (state.removeSubscription nativeModule subscription.emitter subscription).1.Placed ∧ _ :=
      counts_removeSubscription_iff placed counts created
    exact ⟨placedAfter, iff.trans (by simp [Fair, created])⟩
  | removeSubscription emitter id =>
    obtain ⟨subscription, created, rfl⟩ := Option.map_eq_some_iff.mp stepped
    exact counts_removeSubscription_iff placed counts created
  | removeCurrentListener emitter =>
    obtain ⟨_, isRemoved, rfl⟩ := Option.map_eq_some_iff.mp stepped
    exact counts_removeCurrentListener_iff placed counts isRemoved
  | removeAllListeners emitter eventType =>
    cases eventType with
    | none =>
      cases stepped
      exact ⟨placed, iff_of_true counts trivial⟩
    | some eventType =>
      cases stepped
      exact counts_removeAllListeners_iff placed counts emitter eventType

theorem fair_of_stuck (stuck : state.step nativeModule operation = none) :
    state.Fair nativeModule operation := by
  cases operation with
  | addListener | once | emit | throwOut => trivial
  | removeAllListeners emitter eventType =>
    cases eventType with
    | none => trivial
    | some eventType => cases stuck
  | remove id =>
    intro subscription created
    simp [step, Option.mem_def.mp created] at stuck
  | removeSubscription emitter id =>
    intro subscription created
    simp [step, Option.mem_def.mp created] at stuck
  | removeCurrentListener emitter =>
    intro id current subscription created
    simp [step, removeCurrentListener, Option.mem_def.mp current, Option.mem_def.mp created]
      at stuck
  | next =>
    intro emission head within id found subscription created isOnce current isCurrent other isOther
    obtain ⟨_, emissions⟩ := head?_eq_some_iff.mp head
    simp [step, emissions, within, invokeNext, Option.mem_def.mp found, Option.mem_def.mp created,
      isOnce, removeCurrentListener, Option.mem_def.mp isCurrent, Option.mem_def.mp isOther]
      at stuck

theorem counts_along_iff {operations : List (EmitterOperation Emitter EventType)}
    (placed : state.Placed) (counts : state.Counts nativeModule) :
    (∀ first rest final, operations = first ++ rest →
      Runs.run (step nativeModule) state first = some final → final.Counts nativeModule) ↔
      Runs.Along (step nativeModule) (Fair nativeModule) state operations := by
  have exactly := @Runs.always_iff_along _ _ (step nativeModule) (Fair nativeModule) Placed
    (Counts nativeModule) state operations
    (fun _ _ _ placed counts stepped => (counts_step_iff placed counts stepped).1)
    (fun _ _ _ placed counts stepped => (counts_step_iff placed counts stepped).2) placed counts
  rw [exactly]
  constructor
  · refine Runs.along_mono fun before operation allowed => ?_
    -- An operation that cannot be called is fair, so that the guard can go.
    cases stepped : before.step nativeModule operation with
    | none => exact fair_of_stuck stepped
    | some => exact allowed (by rw [stepped]; rfl)
  · exact Runs.along_mono fun _ _ fair _ => fair

/-- **The modules' counts are right after each operation, and they observe exactly while they have
live subscriptions, exactly if** every operation tells a module of what it does. -/
theorem counted_iff (operations : List (EmitterOperation Emitter EventType)) :
    (∀ first rest final, operations = first ++ rest →
      Runs.run (step nativeModule) ({} : EmitterState Emitter Module EventType) first =
        some final → final.Counts nativeModule) ↔
      Runs.Along (step nativeModule) (Fair nativeModule) {} operations :=
  counts_along_iff placed_init counts_init

theorem removedTwice_not_counted :
    ¬ ∀ first rest final, [EmitterOperation.addListener () (), .addListener () (), .remove 0,
        .remove 0] = first ++ rest →
      Runs.run (step id) ({} : EmitterState Unit Unit Unit) first = some final →
        final.Counts id := by
  intro all
  have wrong := (all _ [] _ (append_nil _).symm rfl ()).1
  revert wrong
  decide

end EmitterState

end ReactNative


