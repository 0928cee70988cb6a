import ReactNative.Events.RCTTouchHandlerCorrectness

/-! A touch that is recorded gets the identifier after that one of the last touch, or the next one
that is free. -/
namespace ReactNative

open List Option

namespace RCTTouchHandler

variable {Touch Location : Type}

/-! ### The search -/

/-- The identifier comes before all larger ones. -/
def BeforeLarger (identifiers : List ℕ) (identifier : ℕ) : Prop :=
  ∀ other ∈ identifiers.takeWhile (· ≠ identifier), other < identifier

instance (identifiers : List ℕ) (identifier : ℕ) : Decidable (BeforeLarger identifiers identifier) :=
  inferInstanceAs
    (Decidable (∀ other ∈ identifiers.takeWhile (· ≠ identifier), other < identifier))

/-- There is a free identifier from the first candidate on, and each one up to it is in use before
all larger ones. -/
def FindsIdentifier (identifiers : List ℕ) (candidate : ℕ) : Prop :=
  ∃ free < RCTMaxTouches, candidate ≤ free ∧ free ∉ identifiers ∧
    ∀ used < free, candidate ≤ used → used ∈ identifiers ∧ BeforeLarger identifiers used

instance (identifiers : List ℕ) (candidate : ℕ) : Decidable (FindsIdentifier identifiers candidate) :=
  inferInstanceAs (Decidable (∃ free < RCTMaxTouches, candidate ≤ free ∧ free ∉ identifiers ∧
    ∀ used < free, candidate ≤ used → used ∈ identifiers ∧ BeforeLarger identifiers used))

def identifiers (reactTouches : List (ReactTouch Location)) : List ℕ :=
  reactTouches.map ReactTouch.identifier

theorem beforeLarger_cons {first used : ℕ} {rest : List ℕ} (smaller : first < used) :
    BeforeLarger (first :: rest) used ↔ BeforeLarger rest used := by
  rw [BeforeLarger, BeforeLarger, takeWhile_cons_of_pos (by simpa using smaller.ne)]
  simp [smaller]

theorem skipUsedIDs_passes (touchID : ℕ) (reactTouches : List (ReactTouch Location)) :
    touchID ≤ skipUsedIDs touchID reactTouches ∧
      ∀ used < skipUsedIDs touchID reactTouches, touchID ≤ used →
        used ∈ identifiers reactTouches ∧ BeforeLarger (identifiers reactTouches) used := by
  induction reactTouches generalizing touchID with
  | nil => exact ⟨le_rfl, fun used below above => absurd below (Nat.not_lt.mpr above)⟩
  | cons reactTouch rest ih =>
    have later : ∀ {used}, reactTouch.identifier < used →
        used ∈ identifiers rest ∧ BeforeLarger (identifiers rest) used →
          used ∈ identifiers (reactTouch :: rest) ∧
            BeforeLarger (identifiers (reactTouch :: rest)) used :=
      fun smaller found => ⟨mem_cons_of_mem _ found.1, (beforeLarger_cons smaller).mpr found.2⟩
    rw [skipUsedIDs]
    split
    next same =>
      obtain ⟨atLeast, passed⟩ := ih (touchID + 1)
      refine ⟨Nat.le_of_succ_le atLeast, fun used below above => ?_⟩
      rcases above.eq_or_lt with rfl | above
      · refine ⟨same ▸ mem_cons_self, fun other member => ?_⟩
        rw [identifiers, map_cons, takeWhile_cons_of_neg (by simp [same])] at member
        cases member
      · exact later (same ▸ above) (passed used below above)
    next differs =>
      split
      next larger => exact ⟨le_rfl, fun used below above => absurd below (Nat.not_lt.mpr above)⟩
      next notLarger =>
        obtain ⟨atLeast, passed⟩ := ih touchID
        refine ⟨atLeast, fun used below above => ?_⟩
        exact later (by omega) (passed used below above)

theorem skipUsedIDs_of_found {touchID free : ℕ} {reactTouches : List (ReactTouch Location)}
    (above : touchID ≤ free) (isFree : free ∉ identifiers reactTouches)
    (used : ∀ used < free, touchID ≤ used →
      used ∈ identifiers reactTouches ∧ BeforeLarger (identifiers reactTouches) used) :
    skipUsedIDs touchID reactTouches = free := by
  induction reactTouches generalizing touchID with
  | nil =>
    by_contra other
    have less : touchID < free := lt_of_le_of_ne above other
    exact absurd (used touchID less le_rfl).1 not_mem_nil
  | cons reactTouch rest ih =>
    have stillFree : free ∉ identifiers rest := fun member => isFree (mem_cons_of_mem _ member)
    -- What is in use and larger than the first identifier is in use further on.
    have later : ∀ other < free, touchID ≤ other → reactTouch.identifier < other →
        other ∈ identifiers rest ∧ BeforeLarger (identifiers rest) other := by
      intro other below notBelow smaller
      obtain ⟨member, ordered⟩ := used other below notBelow
      exact ⟨mem_of_ne_of_mem smaller.ne' member, (beforeLarger_cons smaller).mp ordered⟩
    rw [skipUsedIDs]
    split
    next same =>
      have notFree : touchID ≠ free := fun isSame =>
        isFree (isSame ▸ same ▸ mem_cons_self)
      exact ih (by omega) stillFree fun other below notBelow =>
        later other below (by omega) (by omega)
    next differs =>
      split
      next larger =>
        by_contra other
        have less : touchID < free := lt_of_le_of_ne above other
        have ordered := (used touchID less le_rfl).2 reactTouch.identifier (by
          rw [identifiers, map_cons, takeWhile_cons_of_pos (by simpa using differs)]
          exact mem_cons_self)
        omega
      next notLarger =>
        exact ih above stillFree fun other below notBelow =>
          later other below notBelow (by omega)

/-- **What the search finds is new and in range exactly if** there is an identifier to find and it
is not stopped before. -/
theorem skipUsedIDs_new_iff (touchID : ℕ) (reactTouches : List (ReactTouch Location)) :
    skipUsedIDs touchID reactTouches ∉ identifiers reactTouches ∧
        skipUsedIDs touchID reactTouches < RCTMaxTouches ↔
      FindsIdentifier (identifiers reactTouches) touchID := by
  constructor
  · rintro ⟨isNew, inRange⟩
    obtain ⟨atLeast, passed⟩ := skipUsedIDs_passes touchID reactTouches
    exact ⟨_, inRange, atLeast, isNew, passed⟩
  · rintro ⟨_, inRange, above, isFree, used⟩
    rw [skipUsedIDs_of_found above isFree used]
    exact ⟨isFree, inRange⟩

/-! ### Recording touches -/

def firstCandidate (identifiers : List ℕ) : ℕ := (identifiers.getLast?.getD 0 + 1) % RCTMaxTouches

def IdentifiersValid (reactTouches : List (ReactTouch Location)) : Prop :=
  (identifiers reactTouches).Nodup ∧ ∀ identifier ∈ identifiers reactTouches, identifier < RCTMaxTouches

/-- For each touch that is recorded an identifier is found. -/
def FindsIdentifiers [DecidableEq Touch] (handler : RCTTouchHandler Touch Location) :
    List (NativeTouch Touch Location) → Prop
  | [] => True
  | touch :: rest =>
    (touch.target.isSome → FindsIdentifier (identifiers handler.reactTouches)
      (firstCandidate (identifiers handler.reactTouches))) ∧
    FindsIdentifiers (handler.recordNewTouch touch) rest

instance decidableFindsIdentifiers [DecidableEq Touch] (handler : RCTTouchHandler Touch Location) :
    ∀ touches, Decidable (FindsIdentifiers handler touches)
  | [] => .isTrue trivial
  | touch :: rest =>
    have := decidableFindsIdentifiers (handler.recordNewTouch touch) rest
    inferInstanceAs (Decidable ((touch.target.isSome →
      FindsIdentifier (identifiers handler.reactTouches)
        (firstCandidate (identifiers handler.reactTouches))) ∧
      FindsIdentifiers (handler.recordNewTouch touch) rest))

theorem newTouchID_eq (reactTouches : List (ReactTouch Location)) : newTouchID reactTouches =
      skipUsedIDs (firstCandidate (identifiers reactTouches)) reactTouches := by
  rw [newTouchID, firstCandidate, identifiers, getLast?_map]

section

variable [DecidableEq Touch] {handler : RCTTouchHandler Touch Location}
  {touches : List (NativeTouch Touch Location)}

theorem identifiers_recordNewTouch (touch : NativeTouch Touch Location) :
    identifiers (handler.recordNewTouch touch).reactTouches = identifiers handler.reactTouches ++
        if touch.target.isSome then [newTouchID handler.reactTouches] else [] := by
  rw [recordNewTouch]
  split
  next none => simp [none]
  next some => simp [some, identifiers]

theorem identifiersValid_recordNewTouch {touch : NativeTouch Touch Location}
    (valid : IdentifiersValid handler.reactTouches) :
    IdentifiersValid (handler.recordNewTouch touch).reactTouches ↔
      (touch.target.isSome → FindsIdentifier (identifiers handler.reactTouches)
        (firstCandidate (identifiers handler.reactTouches))) := by
  rw [IdentifiersValid, identifiers_recordNewTouch]
  split
  next recorded =>
    rw [imp_iff_right recorded, ← skipUsedIDs_new_iff, ← newTouchID_eq, nodup_append]
    constructor
    · rintro ⟨⟨-, -, apart⟩, inRange⟩
      exact ⟨fun member => apart _ member _ (mem_singleton_self _) rfl,
        inRange _ (mem_append_right _ (mem_singleton_self _))⟩
    · rintro ⟨isNew, inRange⟩
      refine ⟨⟨valid.1, pairwise_singleton _ _, ?_⟩, ?_⟩
      · rintro identifier member other isOther rfl
        rw [mem_singleton.mp isOther] at member
        exact isNew member
      · intro identifier member
        rcases mem_append.mp member with old | new
        · exact valid.2 identifier old
        · rw [mem_singleton.mp new]
          exact inRange
  next notRecorded =>
    rw [append_nil]
    exact iff_of_true valid fun recorded => absurd recorded notRecorded

theorem prefix_recordNewTouches (handler : RCTTouchHandler Touch Location)
    (touches : List (NativeTouch Touch Location)) :
    identifiers handler.reactTouches <+:
      identifiers (handler.recordNewTouches touches).reactTouches := by
  induction touches generalizing handler with
  | nil => exact prefix_refl _
  | cons touch _ ih =>
    refine List.IsPrefix.trans ?_ (ih (handler.recordNewTouch touch))
    rw [identifiers_recordNewTouch]
    exact prefix_append _ _

theorem IdentifiersValid.sublist {reactTouches others : List (ReactTouch Location)}
    (valid : IdentifiersValid reactTouches)
    (sublist : (identifiers others).Sublist (identifiers reactTouches)) : IdentifiersValid others :=
  ⟨valid.1.sublist sublist, fun identifier member => valid.2 identifier (sublist.subset member)⟩

theorem identifiersValid_recordNewTouches (valid : IdentifiersValid handler.reactTouches) :
    IdentifiersValid (handler.recordNewTouches touches).reactTouches ↔
      handler.FindsIdentifiers touches := by
  induction touches generalizing handler with
  | nil => exact iff_of_true valid trivial
  | cons touch rest ih =>
    rw [FindsIdentifiers, ← identifiersValid_recordNewTouch valid]
    constructor
    · intro after
      -- A clash is there at the end too.
      have first : IdentifiersValid (handler.recordNewTouch touch).reactTouches :=
        after.sublist (prefix_recordNewTouches (handler.recordNewTouch touch) rest).sublist
      exact ⟨first, (ih first).mp after⟩
    · rintro ⟨first, later⟩
      exact (ih first).mpr later

theorem identifiers_updateTouches (nativeTouches : List Touch)
    (reactTouches : List (ReactTouch Location)) :
    identifiers (updateTouches nativeTouches reactTouches touches).1 = identifiers reactTouches := by
  induction touches generalizing reactTouches with
  | nil => rfl
  | cons _ _ ih =>
    rw [updateTouches]
    split
    · exact ih reactTouches
    next index _ =>
      refine (ih _).trans ?_
      rw [identifiers, updateReactTouchAtIndex, identifiers]
      apply ext_getElem?
      intro position
      rw [getElem?_map, getElem?_map, getElem?_modify]
      cases reactTouches[position]? with
      | none => rfl
      | some => split <;> rfl

variable {nameHash : RCTTouchEventName → BitVec 64} {eventName : RCTTouchEventName}

theorem updateAndDispatchTouches_lists :
    identifiers (handler.updateAndDispatchTouches nameHash touches eventName).reactTouches =
        identifiers handler.reactTouches ∧
      (handler.updateAndDispatchTouches nameHash touches eventName).nativeTouches =
        handler.nativeTouches := by
  have same := @identifiers_updateTouches Touch Location _ touches handler.nativeTouches
    handler.reactTouches
  unfold updateAndDispatchTouches
  dsimp only
  split <;> exact ⟨same, rfl⟩

theorem sublist_recordRemovedTouches (handler : RCTTouchHandler Touch Location)
    (touches : List (NativeTouch Touch Location)) :
    (identifiers (handler.recordRemovedTouches touches).reactTouches).Sublist
      (identifiers handler.reactTouches) := by
  induction touches generalizing handler with
  | nil => exact List.Sublist.refl _
  | cons touch _ ih =>
    refine (ih (handler.recordRemovedTouch touch)).trans ?_
    rw [recordRemovedTouch]
    split
    · exact List.Sublist.refl _
    · exact (eraseIdx_sublist _ _).map _

/-! ### Callbacks -/

/-- Every touch that begins gets an identifier. -/
def FindsForAction (handler : RCTTouchHandler Touch Location) :
    TouchHandlerAction Touch Location → Prop
  | .interactionsBegan touches => handler.FindsIdentifiers touches
  | _ => True

instance (handler : RCTTouchHandler Touch Location) :
    ∀ action, Decidable (handler.FindsForAction action)
  | .interactionsBegan touches => inferInstanceAs (Decidable (handler.FindsIdentifiers touches))
  | .interactionsMoved _ | .interactionsEnded _ | .interactionsCancelled _ | .reset _
  | .dispatchBlock | .flushEventsQueue | .dispatchEvent => .isTrue trivial

theorem identifiersValid_nil : IdentifiersValid ([] : List (ReactTouch Location)) :=
  ⟨nodup_nil, nofun⟩

theorem step_identifiersValid {action : TouchHandlerAction Touch Location}
    {next : RCTTouchHandler Touch Location} (valid : IdentifiersValid handler.reactTouches)
    (stepped : handler.step nameHash action = some next) :
    IdentifiersValid next.reactTouches ↔ handler.FindsForAction action := by
  have updated : ∀ (handler : RCTTouchHandler Touch Location) touches eventName,
      IdentifiersValid (handler.updateAndDispatchTouches nameHash touches eventName).reactTouches ↔
        IdentifiersValid handler.reactTouches := by
    intro handler touches eventName
    rw [IdentifiersValid, updateAndDispatchTouches_lists.1, IdentifiersValid]
  have removed : ∀ touches eventName, IdentifiersValid ((handler.updateAndDispatchTouches nameHash
      touches eventName).recordRemovedTouches touches).reactTouches := by
    intro touches eventName
    exact ((updated handler touches eventName).mpr valid).sublist
      (sublist_recordRemovedTouches _ touches)
  have dispatched : ∀ turn, handler.dispatcherStep nameHash turn = some next →
      IdentifiersValid next.reactTouches := by
    intro turn taken
    obtain ⟨-, -, rfl⟩ := map_eq_some_iff.mp taken
    exact valid
  cases action with
  | interactionsBegan touches =>
    cases stepped
    exact (updated _ touches .touchStart).trans (identifiersValid_recordNewTouches valid)
  | interactionsMoved touches =>
    cases stepped
    exact iff_of_true ((updated handler touches .touchMove).mpr valid) trivial
  | interactionsEnded touches =>
    cases stepped
    exact iff_of_true (removed touches .touchEnd) trivial
  | interactionsCancelled touches =>
    cases stepped
    exact iff_of_true (removed touches .touchCancel) trivial
  | reset =>
    cases stepped
    refine iff_of_true ?_ trivial
    rw [RCTTouchHandler.reset]
    split
    · exact identifiersValid_nil
    · exact valid
  | dispatchBlock => exact iff_of_true (dispatched .dispatchBlock stepped) trivial
  | flushEventsQueue => exact iff_of_true (dispatched .flushEventsQueue stepped) trivial
  | dispatchEvent => exact iff_of_true (dispatched .dispatchEvent stepped) trivial

end

end RCTTouchHandler

/-! ### The three lists -/

structure TouchRecords (Touch Location View : Type) where
  handler : RCTTouchHandler Touch Location
  touchViews : List View := []

namespace TouchRecords

open Runs RCTTouchHandler

variable {Touch Location View : Type} [DecidableEq Touch]
  (targetView : NativeTouch Touch Location → View) (nameHash : RCTTouchEventName → BitVec 64)

section

variable (records : TouchRecords Touch Location View)
include records

def recordNewTouch (touch : NativeTouch Touch Location) : TouchRecords Touch Location View :=
  match touch.target with
  | none => records
  | some _ =>
    { handler := records.handler.recordNewTouch touch
      touchViews := records.touchViews ++ [targetView touch] }

def recordRemovedTouch (touch : NativeTouch Touch Location) : TouchRecords Touch Location View :=
  match records.handler.nativeTouches.idxOf? touch.touch with
  | none => records
  | some index =>
    { handler := records.handler.recordRemovedTouch touch
      touchViews := records.touchViews.eraseIdx index }

def updateAndDispatchTouches
    (touches : List (NativeTouch Touch Location)) (eventName : RCTTouchEventName) :
    TouchRecords Touch Location View :=
  { records with handler := records.handler.updateAndDispatchTouches nameHash touches eventName }

def step :
    TouchHandlerAction Touch Location → Option (TouchRecords Touch Location View)
  | .interactionsBegan touches =>
    some ((touches.foldl (recordNewTouch targetView) records).updateAndDispatchTouches nameHash
      touches .touchStart)
  | .interactionsMoved touches =>
    some (records.updateAndDispatchTouches nameHash touches .touchMove)
  | .interactionsEnded touches =>
    some (touches.foldl recordRemovedTouch
      (records.updateAndDispatchTouches nameHash touches .touchEnd))
  | .interactionsCancelled touches =>
    some (touches.foldl recordRemovedTouch
      (records.updateAndDispatchTouches nameHash touches .touchCancel))
  | .reset current =>
    some {
      handler := records.handler.reset nameHash current
      touchViews := if records.handler.nativeTouches.length ≠ 0 then [] else records.touchViews }
  | action =>
    (records.handler.step nameHash action).map fun handler => { records with handler := handler }

end

variable {targetView nameHash} {records : TouchRecords Touch Location View}
  {touches : List (NativeTouch Touch Location)}

theorem recordNewTouch_handler (touch : NativeTouch Touch Location) :
    (records.recordNewTouch targetView touch).handler = records.handler.recordNewTouch touch := by
  rw [recordNewTouch, RCTTouchHandler.recordNewTouch]
  cases touch.target with
  | none => rfl
  | some => rfl

theorem recordNewTouches_handler (records : TouchRecords Touch Location View)
    (touches : List (NativeTouch Touch Location)) :
    (touches.foldl (recordNewTouch targetView) records).handler =
      records.handler.recordNewTouches touches := by
  induction touches generalizing records with
  | nil => rfl
  | cons _ _ ih => rw [foldl_cons, ih, recordNewTouch_handler]; rfl

theorem recordRemovedTouches_handler (records : TouchRecords Touch Location View)
    (touches : List (NativeTouch Touch Location)) :
    (touches.foldl recordRemovedTouch records).handler =
      records.handler.recordRemovedTouches touches := by
  induction touches generalizing records with
  | nil => rfl
  | cons touch _ ih =>
    have same : (records.recordRemovedTouch touch).handler =
        records.handler.recordRemovedTouch touch := by
      rw [recordRemovedTouch, RCTTouchHandler.recordRemovedTouch]
      cases records.handler.nativeTouches.idxOf? touch.touch with
      | none => rfl
      | some => rfl
    rw [foldl_cons, ih, same]
    rfl

theorem step_handler (action : TouchHandlerAction Touch Location) :
    (records.step targetView nameHash action).map TouchRecords.handler =
      records.handler.step nameHash action := by
  cases action with
  | interactionsBegan touches =>
    simp only [step, map_some, updateAndDispatchTouches, recordNewTouches_handler]
    rfl
  | interactionsEnded touches | interactionsCancelled touches =>
    simp only [step, map_some, updateAndDispatchTouches, recordRemovedTouches_handler]
    rfl
  | interactionsMoved | reset => rfl
  | dispatchBlock | flushEventsQueue | dispatchEvent =>
    simp only [step, Option.map_map, Function.comp_def, Option.map_id']

/-- The lists have equal lengths. -/
def Parallel (records : TouchRecords Touch Location View) : Prop :=
  records.touchViews.length = records.handler.reactTouches.length ∧
    records.handler.nativeTouches.length = records.handler.reactTouches.length

def BeginsNew (records : TouchRecords Touch Location View) :
    TouchHandlerAction Touch Location → Prop
  | .interactionsBegan touches => (touches.map NativeTouch.touch).Nodup ∧
      ∀ touch ∈ touches, touch.touch ∉ records.handler.nativeTouches
  | _ => True

instance (records : TouchRecords Touch Location View) :
    ∀ action, Decidable (records.BeginsNew action)
  | .interactionsBegan touches => inferInstanceAs (Decidable ((touches.map NativeTouch.touch).Nodup ∧
      ∀ touch ∈ touches, touch.touch ∉ records.handler.nativeTouches))
  | .interactionsMoved _ | .interactionsEnded _ | .interactionsCancelled _ | .reset _
  | .dispatchBlock | .flushEventsQueue | .dispatchEvent => .isTrue trivial

section

variable (parallel : records.Parallel)
include parallel

theorem parallel_recordNewTouches (distinct : (touches.map NativeTouch.touch).Nodup)
    (new : ∀ touch ∈ touches, touch.touch ∉ records.handler.nativeTouches) :
    (touches.foldl (recordNewTouch targetView) records).Parallel := by
  induction touches generalizing records with
  | nil => exact parallel
  | cons touch rest ih =>
    obtain ⟨differs, distinctRest⟩ := nodup_cons.mp distinct
    have isNew := new touch mem_cons_self
    have newRest : ∀ other ∈ rest, other.touch ∉ records.handler.nativeTouches :=
      fun other member => new other (mem_cons_of_mem touch member)
    have recorded : (records.recordNewTouch targetView touch).Parallel ∧
        ∀ other ∈ (records.recordNewTouch targetView touch).handler.nativeTouches,
          other ∈ records.handler.nativeTouches ∨ other = touch.touch := by
      rw [recordNewTouch]
      cases target : touch.target with
      | none => exact ⟨parallel, fun other member => .inl member⟩
      | some =>
        obtain ⟨views, natives⟩ := parallel
        simp only [RCTTouchHandler.recordNewTouch, target, if_neg isNew, Parallel,
          length_append, length_singleton, views, natives]
        refine ⟨⟨trivial, trivial⟩, fun other member => ?_⟩
        exact (mem_append.mp member).imp id mem_singleton.mp
    refine ih recorded.1 distinctRest fun other member isDown => ?_
    rcases recorded.2 other.touch isDown with old | same
    · exact newRest other member old
    · exact differs (same ▸ mem_map_of_mem member)

theorem parallel_updateAndDispatchTouches (touches : List (NativeTouch Touch Location))
    (eventName : RCTTouchEventName) :
    (records.updateAndDispatchTouches nameHash touches eventName).Parallel := by
  obtain ⟨identifiers, natives⟩ := @updateAndDispatchTouches_lists Touch Location _ records.handler
    touches nameHash eventName
  have length := congrArg List.length identifiers
  rw [RCTTouchHandler.identifiers, RCTTouchHandler.identifiers, length_map, length_map]
    at length
  rw [Parallel, updateAndDispatchTouches]
  rw [length, natives]
  exact parallel

theorem parallel_recordRemovedTouches : (touches.foldl recordRemovedTouch records).Parallel := by
  refine foldlRecOn touches recordRemovedTouch parallel fun records parallel touch _ => ?_
  rw [recordRemovedTouch]
  split
  next => exact parallel
  next index found =>
    obtain ⟨bound, -⟩ := idxOf?_eq_some_iff.mp found
    obtain ⟨views, natives⟩ := parallel
    rw [Parallel, RCTTouchHandler.recordRemovedTouch, found]
    rw [length_eraseIdx_of_lt (by omega), length_eraseIdx_of_lt (by omega),
      length_eraseIdx_of_lt bound, views, natives]
    exact ⟨rfl, rfl⟩

theorem step_parallel {action : TouchHandlerAction Touch Location}
    {next : TouchRecords Touch Location View} (beginsNew : records.BeginsNew action)
    (stepped : records.step targetView nameHash action = some next) : next.Parallel := by
  have dispatched : ∀ turn, (records.handler.dispatcherStep nameHash turn).map (fun handler =>
      { records with handler := handler }) = some next → next.Parallel := by
    intro turn taken
    obtain ⟨handler, turned, rfl⟩ := map_eq_some_iff.mp taken
    obtain ⟨-, -, rfl⟩ := map_eq_some_iff.mp turned
    exact parallel
  cases action with
  | interactionsBegan touches =>
    cases stepped
    exact parallel_updateAndDispatchTouches
      (parallel_recordNewTouches parallel beginsNew.1 beginsNew.2) touches .touchStart
  | interactionsMoved touches =>
    cases stepped
    exact parallel_updateAndDispatchTouches parallel touches .touchMove
  | interactionsEnded touches =>
    cases stepped
    exact parallel_recordRemovedTouches
      (parallel_updateAndDispatchTouches parallel touches .touchEnd)
  | interactionsCancelled touches =>
    cases stepped
    exact parallel_recordRemovedTouches
      (parallel_updateAndDispatchTouches parallel touches .touchCancel)
  | reset =>
    cases stepped
    rw [Parallel, RCTTouchHandler.reset]
    split
    · exact ⟨rfl, rfl⟩
    · exact parallel
  | dispatchBlock => exact dispatched .dispatchBlock stepped
  | flushEventsQueue => exact dispatched .flushEventsQueue stepped
  | dispatchEvent => exact dispatched .dispatchEvent stepped

end

/-- Every touch that begins gets an identifier. -/
def FindsForAction (records : TouchRecords Touch Location View)
    (action : TouchHandlerAction Touch Location) : Prop :=
  records.handler.FindsForAction action

instance (records : TouchRecords Touch Location View) (action : TouchHandlerAction Touch Location) :
    Decidable (records.FindsForAction action) :=
  inferInstanceAs (Decidable (records.handler.FindsForAction action))

def attached (viewTag : ℤ) (generator : BitVec 16) : TouchRecords Touch Location View :=
  { handler := attachToView viewTag generator }

/-- **Identifiers are distinct and in range in every state of a run exactly if** each touch that
begins finds one. The lists have equal lengths in every state in any case. -/
theorem identifiers_valid_iff (viewTag : ℤ) (generator : BitVec 16)
    {actions : List (TouchHandlerAction Touch Location)}
    (beginsNew : Along (step targetView nameHash) BeginsNew
      (attached viewTag generator : TouchRecords Touch Location View) actions) :
    (∀ taken rest middle, actions = taken ++ rest →
      run (step targetView nameHash) (attached viewTag generator) taken = some middle →
        middle.Parallel) ∧
    ((∀ taken rest middle, actions = taken ++ rest →
        run (step targetView nameHash) (attached viewTag generator) taken = some middle →
          IdentifiersValid middle.handler.reactTouches) ↔
      Along (step targetView nameHash) FindsForAction
        (attached viewTag generator : TouchRecords Touch Location View) actions) := by
  constructor
  · rintro taken rest middle rfl ran
    refine run_induction ?_ ?_ (along_append beginsNew).1 ran
    · intro records action next parallel new stepped
      exact step_parallel parallel new stepped
    · exact ⟨rfl, rfl⟩
  · -- Only touches that begin need identifiers, and they can always begin.
    have guarded : (fun (records : TouchRecords Touch Location View) action =>
        (records.step targetView nameHash action).isSome → records.FindsForAction action) =
          FindsForAction := by
      funext records action
      cases action <;> simp [FindsForAction, RCTTouchHandler.FindsForAction, step]
    rw [← guarded]
    refine @always_iff_along (TouchRecords Touch Location View) _ _ _ (fun _ => True)
      (fun records => IdentifiersValid records.handler.reactTouches) _ _
      (fun _ _ _ _ _ _ => trivial) ?_ trivial identifiersValid_nil
    intro records action next _ valid stepped
    have handled : records.handler.step nameHash action = some next.handler := by
      rw [← @step_handler _ _ _ _ targetView, stepped]
      rfl
    exact step_identifiersValid valid handled

def touchDown (touch : ℕ) : NativeTouch ℕ Unit := ⟨touch, some 7, (), touch⟩

def laterTouchEnds : List (TouchHandlerAction ℕ Unit) :=
  [.interactionsBegan ((range 11).map touchDown), .interactionsEnded [touchDown 9],
    .interactionsBegan [touchDown 11], .interactionsEnded [touchDown 0]]

theorem identifiers_valid_laterTouchEnds :
    Along (step NativeTouch.target lengthHash) BeginsNew (attached 7 0) laterTouchEnds ∧
      ∀ taken rest middle, laterTouchEnds = taken ++ rest →
        run (step NativeTouch.target lengthHash) (attached 7 0) taken = some middle →
          IdentifiersValid middle.handler.reactTouches := by
  have beginsNew : Along (step NativeTouch.target lengthHash) BeginsNew (attached 7 0)
      laterTouchEnds := by decide +kernel
  exact ⟨beginsNew, (identifiers_valid_iff 7 0 beginsNew).2.mpr (by decide +kernel)⟩

theorem laterTouchEnds_clash : Along (step NativeTouch.target lengthHash) BeginsNew (attached 7 0)
      (laterTouchEnds ++ [.interactionsBegan [touchDown 12]]) ∧
    (run (step NativeTouch.target lengthHash) (attached 7 0)
        (laterTouchEnds ++ [.interactionsBegan [touchDown 12]])).map (fun records =>
          identifiers records.handler.reactTouches) = some [2, 3, 4, 5, 6, 7, 8, 9, 0, 10, 0] := by
  decide +kernel

end TouchRecords

end ReactNative

