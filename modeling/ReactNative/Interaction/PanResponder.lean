import Mathlib.Algebra.BigOperators.Group.List.Basic
import Mathlib.Data.List.Nodup
import Mathlib.Tactic.Linarith
import Mathlib.Tactic.Ring
import ReactNative.Foundation.Runs

/-! `PanResponder` takes the movement of an event from the touches that have changed since the last
move event, `ResponderTouchHistoryStore` having recorded where they were and are. -/
namespace ReactNative.PanResponder

open Runs List Function

inductive Axis
  | x
  | y

structure Touch where
  identifier : ℕ
  page : Axis → ℚ

inductive EventKind
  | start
  | move
  | finish
  deriving DecidableEq

/-- An event, with the identifiers of the touches that are on the screen after it. -/
structure TouchEvent where
  kind : EventKind
  timestamp : ℚ
  changedTouches : List Touch
  touches : List ℕ

structure TouchTrack where
  identifier : ℕ
  touchActive : Bool
  currentPage : Axis → ℚ
  currentTimeStamp : ℚ
  previousPage : Axis → ℚ

/-- The records of `touchBank` know their index and are in any order. -/
structure TouchHistory where
  touchBank : List TouchTrack := []
  numberActiveTouches : ℕ := 0
  indexOfSingleActiveTouch : ℤ := -1
  mostRecentTimeStamp : ℚ := 0

structure GestureState where
  move : Axis → ℚ := fun _ => 0
  start : Axis → ℚ := fun _ => 0
  d : Axis → ℚ := fun _ => 0
  v : Axis → ℚ := fun _ => 0
  numberActiveTouches : ℕ := 0
  accountsForMovesUpTo : ℚ := 0

/-! ### Touch history -/

def createTouchRecord (timestamp : ℚ) (touch : Touch) : TouchTrack :=
  ⟨touch.identifier, true, touch.page, timestamp, touch.page⟩

/-- `recordTouchMove` and `recordTouchEnd` of a record. -/
def TouchTrack.record (track : TouchTrack) (active : Bool) (timestamp : ℚ) (touch : Touch) :
    TouchTrack :=
  { track with
    touchActive := active
    previousPage := track.currentPage
    currentPage := touch.page
    currentTimeStamp := timestamp }

def modifyTrack (change : Touch → TouchTrack → TouchTrack) (bank : List TouchTrack) (touch : Touch) :
    List TouchTrack :=
  bank.map fun track => if track.identifier = touch.identifier then change touch track else track

def isRecorded (bank : List TouchTrack) (touch : Touch) : Bool :=
  bank.any (·.identifier = touch.identifier)

def TouchHistory.recordTouchStart (timestamp : ℚ) (history : TouchHistory) (touch : Touch) :
    TouchHistory :=
  { history with
    touchBank :=
      if isRecorded history.touchBank touch then
        modifyTrack (fun touch _ => createTouchRecord timestamp touch) history.touchBank touch
      else history.touchBank ++ [createTouchRecord timestamp touch]
    mostRecentTimeStamp := timestamp }

/-- `recordTouchMove` and `recordTouchEnd`; without a record there is only a warning. -/
def TouchHistory.recordTouch (active : Bool) (timestamp : ℚ) (history : TouchHistory)
    (touch : Touch) : TouchHistory :=
  if isRecorded history.touchBank touch then
    { history with
      touchBank := modifyTrack (fun touch track => track.record active timestamp touch)
        history.touchBank touch
      mostRecentTimeStamp := timestamp }
  else history

def TouchHistory.recordTouchTrack (history : TouchHistory) (event : TouchEvent) : TouchHistory :=
  match event.kind with
  | .move => event.changedTouches.foldl (recordTouch true event.timestamp) history
  | .start =>
    { event.changedTouches.foldl (recordTouchStart event.timestamp) history with
      numberActiveTouches := event.touches.length
      indexOfSingleActiveTouch :=
        match event.touches with
        | [identifier] => identifier
        | _ => history.indexOfSingleActiveTouch }
  | .finish =>
    let recorded := event.changedTouches.foldl (recordTouch false event.timestamp) history
    { recorded with
      numberActiveTouches := event.touches.length
      indexOfSingleActiveTouch :=
        if event.touches.length = 1 then
          (recorded.touchBank.find? (·.touchActive)).elim history.indexOfSingleActiveTouch
            fun track => track.identifier
        else history.indexOfSingleActiveTouch }

/-! ### Centroids -/

def noCentroid : ℚ := -1

def TouchHistory.changedAfter (history : TouchHistory) (touchesChangedAfter : ℚ) :
    List TouchTrack :=
  let oneTouchData :=
    if history.numberActiveTouches = 1 then
      history.touchBank.find? fun track => (track.identifier : ℤ) = history.indexOfSingleActiveTouch
    else none
  match oneTouchData with
  | some track =>
    if track.touchActive ∧ track.currentTimeStamp > touchesChangedAfter then [track] else []
  | none => history.touchBank.filter fun track =>
    track.touchActive ∧ track.currentTimeStamp ≥ touchesChangedAfter

def centroid (tracks : List TouchTrack) (page : TouchTrack → ℚ) : ℚ :=
  if tracks.length > 0 then (tracks.map page).sum / tracks.length else noCentroid

def centroidDimension (history : TouchHistory) (touchesChangedAfter : ℚ) (axis : Axis)
    (ofCurrent : Bool) : ℚ :=
  centroid (history.changedAfter touchesChangedAfter)
    fun track => if ofCurrent then track.currentPage axis else track.previousPage axis

/-! ### Gesture state -/

def updateGestureStateOnMove (gesture : GestureState) (history : TouchHistory) : GestureState :=
  let movedAfter := gesture.accountsForMovesUpTo
  let next axis := gesture.d axis +
    (centroidDimension history movedAfter axis true - centroidDimension history movedAfter axis false)
  { gesture with
    numberActiveTouches := history.numberActiveTouches
    move := fun axis => centroidDimension history movedAfter axis true
    v := fun axis => (next axis - gesture.d axis) / (history.mostRecentTimeStamp - movedAfter)
    d := next
    accountsForMovesUpTo := history.mostRecentTimeStamp }

/-- `onMoveShouldSetResponderCapture` and `onResponderMove`. -/
def onResponderMove (history : TouchHistory) (gesture : GestureState) : GestureState :=
  if gesture.accountsForMovesUpTo = history.mostRecentTimeStamp then gesture
  else updateGestureStateOnMove gesture history

def onStartShouldSetResponderCapture (event : TouchEvent) (history : TouchHistory)
    (gesture : GestureState) : GestureState :=
  let gesture := if event.touches.length = 1 then {} else gesture
  { gesture with numberActiveTouches := history.numberActiveTouches }

def onResponderGrant (history : TouchHistory) (gesture : GestureState) : GestureState :=
  { gesture with start := fun axis => centroidDimension history 0 axis true, d := fun _ => 0 }

/-- `onResponderStart` and `onResponderEnd`. -/
def countTouches (history : TouchHistory) (gesture : GestureState) : GestureState :=
  { gesture with numberActiveTouches := history.numberActiveTouches }

structure Panning where
  history : TouchHistory := {}
  gesture : GestureState := {}

/-- The view becomes the responder with the first touches and is released with the last. -/
def Panning.dispatch (panning : Panning) (event : TouchEvent) : Panning :=
  let history := panning.history.recordTouchTrack event
  { history
    gesture :=
      match event.kind with
      | .start =>
        let gesture := onStartShouldSetResponderCapture event history panning.gesture
        countTouches history
          (if panning.history.numberActiveTouches = 0 then onResponderGrant history gesture else gesture)
      | .move => onResponderMove history (onResponderMove history panning.gesture)
      | .finish =>
        if event.touches = [] then {} else countTouches history panning.gesture }

/-! ### Displacements -/

/-- Which touches are on the screen, where touches are, and how far they have moved since the first
of them was put down. -/
structure Counted where
  touches : List ℕ := []
  page : ℕ → Axis → ℚ := fun _ _ => 0
  sum : Axis → ℚ := fun _ => 0

def setPage (page : ℕ → Axis → ℚ) (touch : Touch) : ℕ → Axis → ℚ :=
  Function.update page touch.identifier touch.page

def meanDisplacement (before after : ℕ → Axis → ℚ) (changedTouches : List Touch) (axis : Axis) : ℚ :=
  (changedTouches.map fun touch => after touch.identifier axis - before touch.identifier axis).sum /
    changedTouches.length

def Counted.count (counted : Counted) (event : TouchEvent) : Counted :=
  let page := event.changedTouches.foldl setPage counted.page
  { touches := event.touches
    page
    sum :=
      match event.kind with
      | .start =>
        if event.touches.length = 1 ∨ counted.touches = [] then fun _ => 0 else counted.sum
      | .move => fun axis =>
        counted.sum axis + meanDisplacement counted.page page event.changedTouches axis
      | .finish => if event.touches = [] then fun _ => 0 else counted.sum }

def step (state : Panning × Counted) (event : TouchEvent) : Option (Panning × Counted) :=
  some (state.1.dispatch event, state.2.count event)

def TouchHistory.IsActive (history : TouchHistory) (identifier : ℕ) : Prop :=
  ∃ track ∈ history.touchBank, track.identifier = identifier ∧ track.touchActive

/-- The touches on the screen after an event. -/
def TouchEvent.touchesAfter (event : TouchEvent) (touches : List ℕ) : List ℕ :=
  let changed := event.changedTouches.map (·.identifier)
  match event.kind with
  | .start => touches ++ changed.filter (· ∉ touches)
  | .move => touches
  | .finish => touches.filter (· ∉ changed)

variable (state : Panning × Counted) (event : TouchEvent)

/-- Touches are put down, move and are lifted, in the order of time. -/
structure Valid : Prop where
  nonempty : event.changedTouches ≠ []
  distinct : (event.changedTouches.map (·.identifier)).Nodup
  later : state.1.history.mostRecentTimeStamp ≤ event.timestamp
  down : event.kind ≠ .start → ∀ touch ∈ event.changedTouches, touch.identifier ∈ state.2.touches
  onScreen : event.touches.Perm (event.touchesAfter state.2.touches)

instance : Decidable (Valid state event) :=
  decidable_of_iff (_ ∧ _ ∧ _ ∧ _ ∧ _)
    ⟨fun ⟨nonempty, distinct, later, down, onScreen⟩ =>
      ⟨nonempty, distinct, later, down, onScreen⟩,
    fun valid => ⟨valid.nonempty, valid.distinct, valid.later, valid.down, valid.onScreen⟩⟩

/-- A move event has a new time, and if there are several touches, those that do not move in it have
not changed since the last move event. -/
def Apart : Prop :=
  event.kind = .move → event.timestamp ≠ state.1.gesture.accountsForMovesUpTo ∧
    (1 < state.1.history.numberActiveTouches → ∀ track ∈ state.1.history.touchBank,
      track.touchActive → track.identifier ∉ event.changedTouches.map (·.identifier) →
        track.currentTimeStamp < state.1.gesture.accountsForMovesUpTo)

instance : Decidable (Apart state event) := inferInstanceAs (Decidable (_ → _ ∧ (_ → ∀ _ ∈ _, _)))

/-! ### Records -/

structure Recorded (bank : List TouchTrack) (page : ℕ → Axis → ℚ) : Prop where
  distinct : (bank.map (·.identifier)).Nodup
  pages : ∀ track ∈ bank, track.currentPage = page track.identifier

variable {bank : List TouchTrack} {page : ℕ → Axis → ℚ} {history : TouchHistory}

theorem isRecorded_iff {touch : Touch} :
    isRecorded bank touch ↔ touch.identifier ∈ bank.map (·.identifier) := by
  simp [isRecorded]

theorem modifyTrack_identifiers {touch : Touch} {change : Touch → TouchTrack → TouchTrack}
    (changes : ∀ track, track.identifier = touch.identifier →
      (change touch track).identifier = touch.identifier) :
    (modifyTrack change bank touch).map (·.identifier) = bank.map (·.identifier) := by
  rw [modifyTrack, List.map_map]
  refine map_congr_left fun track _ => ?_
  simp only [Function.comp_apply]
  split_ifs with same
  · rw [changes track same, same]
  · rfl

theorem Recorded.modify (recorded : Recorded bank page) {touch : Touch}
    (change : Touch → TouchTrack → TouchTrack)
    (changes : ∀ track, track.identifier = touch.identifier →
      (change touch track).identifier = touch.identifier ∧
        (change touch track).currentPage = touch.page) :
    Recorded (modifyTrack change bank touch) (setPage page touch) := by
  have sameIds : (modifyTrack change bank touch).map (·.identifier) = bank.map (·.identifier) :=
    modifyTrack_identifiers fun track same => (changes track same).1
  refine ⟨sameIds ▸ recorded.distinct, forall_mem_map.2 fun track member => ?_⟩
  split_ifs with same
  · rw [(changes track same).1, (changes track same).2, setPage, Function.update_self]
  · rw [setPage, Function.update_of_ne same, recorded.pages track member]

theorem Recorded.unrecorded (recorded : Recorded bank page) {touch : Touch}
    (missing : ¬ isRecorded bank touch) : Recorded bank (setPage page touch) := by
  refine ⟨recorded.distinct, fun track member => ?_⟩
  rw [setPage, update_of_ne, recorded.pages track member]
  intro same
  exact missing (isRecorded_iff.2 (same ▸ mem_map_of_mem member))

theorem Recorded.recordTouchStart (recorded : Recorded history.touchBank page) (timestamp : ℚ)
    (touch : Touch) :
    Recorded (history.recordTouchStart timestamp touch).touchBank (setPage page touch) := by
  unfold TouchHistory.recordTouchStart
  split_ifs with found
  · exact recorded.modify (fun touch _ => createTouchRecord timestamp touch)
      fun _ _ => ⟨rfl, rfl⟩
  · have others := recorded.unrecorded found
    refine ⟨?_, fun track member => ?_⟩
    · rw [map_append, map_singleton, nodup_append]
      refine ⟨recorded.distinct, nodup_singleton _, ?_⟩
      rintro id member _ isTouch rfl
      rw [mem_singleton.1 isTouch] at member
      exact found (isRecorded_iff.2 member)
    · rcases mem_append.1 member with old | new
      · exact others.pages track old
      · rw [mem_singleton.1 new, setPage, createTouchRecord, update_self]

theorem Recorded.recordTouch (recorded : Recorded history.touchBank page) (active : Bool)
    (timestamp : ℚ) (touch : Touch) :
    Recorded (history.recordTouch active timestamp touch).touchBank (setPage page touch) := by
  unfold TouchHistory.recordTouch
  split_ifs with found
  · exact recorded.modify (fun touch track => track.record active timestamp touch)
      fun _ same => ⟨same, rfl⟩
  · exact recorded.unrecorded found

theorem Recorded.foldl {record : TouchHistory → Touch → TouchHistory}
    (keeps : ∀ history page touch, Recorded history.touchBank page →
      Recorded (record history touch).touchBank (setPage page touch))
    (recorded : Recorded history.touchBank page) (touches : List Touch) :
    Recorded (touches.foldl record history).touchBank (touches.foldl setPage page) := by
  induction touches generalizing history page with
  | nil => exact recorded
  | cons touch touches ih => exact ih (keeps _ _ touch recorded)

theorem Recorded.recordTouchTrack (recorded : Recorded history.touchBank page) (event : TouchEvent) :
    Recorded (history.recordTouchTrack event).touchBank (event.changedTouches.foldl setPage page) := by
  unfold TouchHistory.recordTouchTrack
  split <;> refine Recorded.foldl (fun _ _ touch kept => ?_) recorded _
  · exact kept.recordTouch true _ touch
  · exact kept.recordTouchStart _ touch
  · exact kept.recordTouch false _ touch

theorem le_mostRecentTimeStamp (event : TouchEvent)
    (later : history.mostRecentTimeStamp ≤ event.timestamp) :
    history.mostRecentTimeStamp ≤ (history.recordTouchTrack event).mostRecentTimeStamp := by
  have keeps {record : TouchHistory → Touch → TouchHistory} (touches : List Touch)
      (sets : ∀ history touch, (record history touch).mostRecentTimeStamp =
        history.mostRecentTimeStamp ∨ (record history touch).mostRecentTimeStamp = event.timestamp) :
      history.mostRecentTimeStamp ≤ (touches.foldl record history).mostRecentTimeStamp := by
    suffices between : (touches.foldl record history).mostRecentTimeStamp =
        history.mostRecentTimeStamp ∨
        (touches.foldl record history).mostRecentTimeStamp = event.timestamp by
      rcases between with same | same <;> rw [same]
      exact later
    clear later
    induction touches generalizing history with
    | nil => exact .inl rfl
    | cons touch touches ih =>
      rcases @ih (record history touch) with same | same
      · rw [foldl_cons, same]
        exact sets history touch
      · exact .inr same
  unfold TouchHistory.recordTouchTrack
  split <;> refine keeps _ fun _ _ => ?_
  · unfold TouchHistory.recordTouch
    split_ifs <;> simp
  · exact .inr rfl
  · unfold TouchHistory.recordTouch
    split_ifs <;> simp

/-! ### Active touches -/

section Active

variable {touch : Touch} {identifier : ℕ} {timestamp : ℚ}

theorem active_modifyTrack {change : Touch → TouchTrack → TouchTrack} {active : Bool}
    (changes : ∀ track, track.identifier = touch.identifier →
      (change touch track).identifier = touch.identifier ∧
        (change touch track).touchActive = active) :
    (∃ track ∈ modifyTrack change bank touch, track.identifier = identifier ∧ track.touchActive) ↔
      if identifier = touch.identifier then isRecorded bank touch ∧ active
      else ∃ track ∈ bank, track.identifier = identifier ∧ track.touchActive := by
  simp only [modifyTrack, mem_map, exists_exists_and_eq_and]
  split_ifs with same
  · subst same
    constructor
    · rintro ⟨track, member, isTouch, isActive⟩
      split_ifs at isTouch isActive with here
      · exact ⟨isRecorded_iff.2 (here ▸ mem_map_of_mem member), (changes track here).2 ▸ isActive⟩
      · exact absurd isTouch here
    · rintro ⟨found, isActive⟩
      obtain ⟨track, member, here⟩ := mem_map.1 (isRecorded_iff.1 found)
      refine ⟨track, member, ?_⟩
      rw [if_pos here]
      exact ⟨(changes track here).1, (changes track here).2.trans isActive⟩
  · refine exists_congr fun track => and_congr_right fun member => ?_
    by_cases here : track.identifier = touch.identifier
    · rw [if_pos here, (changes track here).1, here]
      simp [Ne.symm same]
    · rw [if_neg here]

theorem isActive_recordTouchStart : (history.recordTouchStart timestamp touch).IsActive identifier ↔
    history.IsActive identifier ∨ identifier = touch.identifier := by
  unfold TouchHistory.recordTouchStart TouchHistory.IsActive
  split_ifs with found
  · rw [active_modifyTrack fun _ _ => ⟨rfl, rfl⟩]
    split_ifs with same <;> simp [same, found, createTouchRecord]
  · simp only [mem_append, mem_singleton, or_and_right, exists_or, exists_eq_left,
      createTouchRecord, and_true, eq_comm]

theorem isActive_liftTouch : (history.recordTouch false timestamp touch).IsActive identifier ↔
    history.IsActive identifier ∧ identifier ≠ touch.identifier := by
  unfold TouchHistory.recordTouch TouchHistory.IsActive
  split_ifs with found
  · rw [active_modifyTrack fun _ same => ⟨same, rfl⟩]
    split_ifs with same <;> simp [same]
  · refine (and_iff_left_of_imp ?_).symm
    rintro ⟨track, member, rfl, -⟩ same
    exact found (isRecorded_iff.2 (same ▸ mem_map_of_mem member))

theorem isActive_foldl_recordTouchStart (touches : List Touch) :
    (touches.foldl (TouchHistory.recordTouchStart timestamp) history).IsActive identifier ↔
      history.IsActive identifier ∨ identifier ∈ touches.map (·.identifier) := by
  induction touches generalizing history with
  | nil => simp
  | cons touch touches ih =>
    rw [foldl_cons, ih, isActive_recordTouchStart, map_cons, mem_cons, or_assoc]

theorem isActive_foldl_liftTouch (touches : List Touch) :
    (touches.foldl (TouchHistory.recordTouch false timestamp) history).IsActive identifier ↔
      history.IsActive identifier ∧ identifier ∉ touches.map (·.identifier) := by
  induction touches generalizing history with
  | nil => simp
  | cons touch touches ih =>
    rw [foldl_cons, ih, isActive_liftTouch, map_cons, mem_cons, not_or, and_assoc]

end Active

/-! ### Move events -/

def TouchTrack.moved (track : TouchTrack) (timestamp : ℚ) (touches : List Touch) : TouchTrack :=
  (touches.find? (·.identifier = track.identifier)).elim track (track.record true timestamp)

def TouchHistory.moved (history : TouchHistory) (timestamp : ℚ) (touches : List Touch) :
    TouchHistory :=
  { history with
    touchBank := history.touchBank.map (·.moved timestamp touches)
    mostRecentTimeStamp := timestamp }

variable {track : TouchTrack} {timestamp : ℚ} {touches : List Touch}

@[simp]
theorem moved_identifier : (track.moved timestamp touches).identifier = track.identifier := by
  unfold TouchTrack.moved
  cases touches.find? (·.identifier = track.identifier) <;> rfl

theorem moved_of_mem (member : track.identifier ∈ touches.map (·.identifier)) :
    ∃ touch, track.moved timestamp touches = track.record true timestamp touch := by
  unfold TouchTrack.moved
  cases found : touches.find? (·.identifier = track.identifier) with
  | some touch => exact ⟨touch, rfl⟩
  | none =>
    obtain ⟨touch, isTouch, same⟩ := mem_map.1 member
    exact absurd same (by simpa using find?_eq_none.1 found touch isTouch)

theorem moved_of_not_mem (missing : track.identifier ∉ touches.map (·.identifier)) :
    track.moved timestamp touches = track := by
  rw [TouchTrack.moved, find?_eq_none.2, Option.elim_none]
  intro touch isTouch
  simp only [decide_eq_true_eq]
  exact fun same => missing (same ▸ mem_map_of_mem isTouch)

theorem foldl_recordTouch (distinct : (touches.map (·.identifier)).Nodup)
    (found : ∀ touch ∈ touches, isRecorded history.touchBank touch) :
    touches.foldl (TouchHistory.recordTouch true timestamp) history =
      { history with
        touchBank := history.touchBank.map (·.moved timestamp touches)
        mostRecentTimeStamp :=
          if touches = [] then history.mostRecentTimeStamp else timestamp } := by
  induction touches generalizing history with
  | nil => simp [TouchTrack.moved]
  | cons touch touches ih =>
    rw [map_cons, nodup_cons] at distinct
    rw [forall_mem_cons] at found
    let first : TouchHistory :=
      { history with
        touchBank := modifyTrack (fun touch track => track.record true timestamp touch)
          history.touchBank touch
        mostRecentTimeStamp := timestamp }
    have isFirst : history.recordTouch true timestamp touch = first := if_pos found.1
    have compose (track : TouchTrack) : track.moved timestamp (touch :: touches) =
        (if track.identifier = touch.identifier then track.record true timestamp touch
          else track).moved timestamp touches := by
      unfold TouchTrack.moved
      split_ifs with same
      · have other : touches.find? (·.identifier = touch.identifier) = none := by
          refine find?_eq_none.2 fun later member => ?_
          simp only [decide_eq_true_eq]
          exact fun same => distinct.1 (same ▸ mem_map_of_mem member)
        simp [same, TouchTrack.record, other]
      · simp [Ne.symm same]
    rw [foldl_cons, isFirst, ih distinct.2]
    · simp [first, modifyTrack, comp_def, compose]
    · intro later member
      rw [isRecorded_iff, modifyTrack_identifiers fun _ same => same, ← isRecorded_iff]
      exact found.2 later member

theorem centroid_sub_centroid {tracks : List TouchTrack} {before after : ℕ → Axis → ℚ} (axis : Axis)
    (moved : (tracks.map (·.identifier)).Perm (touches.map (·.identifier)))
    (current : ∀ track ∈ tracks, track.currentPage = after track.identifier)
    (previous : ∀ track ∈ tracks, track.previousPage = before track.identifier) :
    centroid tracks (·.currentPage axis) - centroid tracks (·.previousPage axis) =
      meanDisplacement before after touches axis := by
  have sameLength : tracks.length = touches.length := by simpa using moved.length_eq
  have sums (page : ℕ → Axis → ℚ) : (tracks.map fun track => page track.identifier axis).sum =
      (touches.map fun touch => page touch.identifier axis).sum := by
    simpa [List.map_map, comp_def] using (moved.map (page · axis)).sum_eq
  have isCurrent : tracks.map (·.currentPage axis) =
      tracks.map fun track => after track.identifier axis :=
    map_congr_left fun track member => by rw [current track member]
  have isPrevious : tracks.map (·.previousPage axis) =
      tracks.map fun track => before track.identifier axis :=
    map_congr_left fun track member => by rw [previous track member]
  have isSum (touches : List Touch) : (touches.map fun touch => after touch.identifier axis -
      before touch.identifier axis).sum = (touches.map fun touch => after touch.identifier axis).sum -
      (touches.map fun touch => before touch.identifier axis).sum := by
    induction touches with
    | nil => simp
    | cons touch touches ih =>
      simp only [map_cons, sum_cons, ih]
      ring
  unfold centroid meanDisplacement
  rw [isCurrent, isPrevious, sums, sums, isSum, sameLength, sub_div]
  split_ifs with some
  · rfl
  · simp [length_eq_zero_iff.1 (Nat.eq_zero_of_not_pos some)]

/-! ### Runs -/

/-- The history is that of the touches on the screen, given where touches are. -/
structure Banked (history : TouchHistory) (touches : List ℕ) (page : ℕ → Axis → ℚ) : Prop where
  recorded : Recorded history.touchBank page
  nodup : touches.Nodup
  active : ∀ identifier, identifier ∈ touches ↔ history.IsActive identifier
  number : history.numberActiveTouches = (history.touchBank.filter (·.touchActive)).length
  single : history.numberActiveTouches = 1 → ∀ track ∈ history.touchBank, track.touchActive →
    (track.identifier : ℤ) = history.indexOfSingleActiveTouch
  positive : 0 ≤ history.mostRecentTimeStamp

structure Tracked (state : Panning × Counted) : Prop where
  banked : Banked state.1.history state.2.touches state.2.page
  accounts : state.1.gesture.accountsForMovesUpTo ≤ state.1.history.mostRecentTimeStamp
  sum : state.1.gesture.d = state.2.sum

variable {state next : Panning × Counted} {event : TouchEvent}

theorem length_onScreen {touches : List ℕ} (distinct : (bank.map (·.identifier)).Nodup)
    (nodup : touches.Nodup)
    (down : ∀ identifier ∈ touches,
      ∃ track ∈ bank, track.identifier = identifier ∧ track.touchActive)
    (all : ∀ track ∈ bank, track.touchActive → track.identifier ∈ touches) :
    touches.length = (bank.filter (·.touchActive)).length := by
  have perm : touches.Perm ((bank.filter (·.touchActive)).map (·.identifier)) := by
    refine (perm_ext_iff_of_nodup nodup
      (distinct.sublist (filter_sublist.map _))).2 fun identifier => ?_
    constructor
    · intro onScreenId
      obtain ⟨track, member, rfl, active⟩ := down identifier onScreenId
      exact mem_map_of_mem (mem_filter.2 ⟨member, active⟩)
    · intro isId
      obtain ⟨track, member, rfl⟩ := mem_map.1 isId
      exact all track (mem_filter.1 member).1 (mem_filter.1 member).2
  simpa using perm.length_eq

theorem moved_touchActive (distinct : (history.touchBank.map (·.identifier)).Nodup)
    (active : ∀ touch ∈ touches, history.IsActive touch.identifier)
    (isTrack : track ∈ history.touchBank) :
    (track.moved timestamp touches).touchActive = track.touchActive := by
  by_cases member : track.identifier ∈ touches.map (·.identifier)
  · obtain ⟨touch, isMoved⟩ := moved_of_mem member
    obtain ⟨touch, isTouch, sameTouch⟩ := mem_map.1 member
    obtain ⟨_, isOther, same, isActive⟩ := active touch isTouch
    rw [isMoved, ← inj_on_of_nodup_map distinct isOther isTrack (same.trans sameTouch), isActive]
    rfl
  · rw [moved_of_not_mem member]

theorem Banked.length_touches {touches : List ℕ} (banked : Banked history touches page) :
    history.numberActiveTouches = touches.length := by
  rw [banked.number]
  refine (length_onScreen banked.recorded.distinct banked.nodup
    (fun identifier => (banked.active identifier).1) fun track isTrack isActive => ?_).symm
  exact (banked.active _).2 ⟨track, isTrack, rfl, isActive⟩

theorem Banked.changed (banked : Banked state.1.history state.2.touches state.2.page)
    (valid : Valid state event) (kind : event.kind ≠ .start) :
    ∀ touch ∈ event.changedTouches, state.1.history.IsActive touch.identifier :=
  fun touch member => (banked.active _).1 (valid.down kind touch member)

theorem nodup_touchesAfter {touches : List ℕ} (nodup : touches.Nodup)
    (distinct : (event.changedTouches.map (·.identifier)).Nodup) :
    (event.touchesAfter touches).Nodup := by
  unfold TouchEvent.touchesAfter
  cases event.kind with
  | start =>
    refine nodup_append.2 ⟨nodup, distinct.filter _, ?_⟩
    rintro identifier member _ later rfl
    exact of_decide_eq_true (mem_filter.1 later).2 member
  | move => exact nodup
  | finish => exact nodup.filter _

section

variable (banked : Banked state.1.history state.2.touches state.2.page)
include banked

theorem Banked.recordTouchTrack_move (valid : Valid state event) (isMove : event.kind = .move) :
    state.1.history.recordTouchTrack event =
      state.1.history.moved event.timestamp event.changedTouches := by
  rw [TouchHistory.recordTouchTrack, isMove]
  refine (foldl_recordTouch valid.distinct fun touch member => ?_).trans
    (by rw [if_neg valid.nonempty, TouchHistory.moved])
  obtain ⟨_, isTrack, same, -⟩ := banked.changed valid (by simp [isMove]) touch member
  exact isRecorded_iff.2 (same ▸ mem_map_of_mem isTrack)

/-- An event leaves the touches on the screen active, and no others. -/
theorem Banked.isActive_recordTouchTrack (valid : Valid state event) (identifier : ℕ) :
    identifier ∈ event.touches ↔ (state.1.history.recordTouchTrack event).IsActive identifier := by
  rw [valid.onScreen.mem_iff, TouchEvent.touchesAfter]
  cases kind : event.kind with
  | start =>
    simp only [TouchHistory.recordTouchTrack, kind, mem_append, mem_filter, decide_eq_true_eq]
    refine Iff.trans ?_ (isActive_foldl_recordTouchStart event.changedTouches).symm
    rw [← banked.active]
    tauto
  | move =>
    have active := banked.changed valid (by simp [kind])
    simp only [banked.active, banked.recordTouchTrack_move valid kind, TouchHistory.IsActive,
      TouchHistory.moved, mem_map, exists_exists_and_eq_and, moved_identifier]
    refine exists_congr fun track => and_congr_right fun isTrack => ?_
    rw [moved_touchActive banked.recorded.distinct active isTrack]
  | finish =>
    simp only [TouchHistory.recordTouchTrack, kind, mem_filter, decide_eq_true_eq]
    refine Iff.trans ?_ (isActive_foldl_liftTouch event.changedTouches).symm
    rw [← banked.active]

theorem Banked.recordTouchTrack (valid : Valid state event) :
    Banked (state.1.history.recordTouchTrack event) (state.2.count event).touches
      (state.2.count event).page := by
  have recorded := banked.recorded.recordTouchTrack event
  have later := banked.positive.trans (le_mostRecentTimeStamp event valid.later)
  have nodup : event.touches.Nodup :=
    valid.onScreen.nodup_iff.2 (nodup_touchesAfter banked.nodup valid.distinct)
  have active := banked.isActive_recordTouchTrack valid
  have all : ∀ track ∈ (state.1.history.recordTouchTrack event).touchBank, track.touchActive →
      track.identifier ∈ event.touches := fun track isTrack isActive =>
    (active _).2 ⟨track, isTrack, rfl, isActive⟩
  have length := length_onScreen recorded.distinct nodup (fun identifier => (active identifier).1) all
  cases kind : event.kind with
  | move =>
    have isActive (track : TouchTrack) (isTrack : track ∈ state.1.history.touchBank) :
        (track.moved event.timestamp event.changedTouches).touchActive = track.touchActive :=
      moved_touchActive banked.recorded.distinct (banked.changed valid (by simp [kind])) isTrack
    rw [banked.recordTouchTrack_move valid kind] at recorded later active ⊢
    refine ⟨recorded, nodup, active, ?_, ?_, later⟩
    · refine banked.number.trans ?_
      rw [TouchHistory.moved, ← countP_eq_length_filter, ← countP_eq_length_filter, countP_map]
      exact countP_congr fun track isTrack => by simp [isActive track isTrack]
    · intro one track isTrack active
      obtain ⟨old, isOld, rfl⟩ := mem_map.1 isTrack
      rw [isActive old isOld] at active
      simpa [TouchHistory.moved] using banked.single one old isOld active
  | start =>
    refine ⟨recorded, nodup, active, ?_, ?_, later⟩
    · simpa only [TouchHistory.recordTouchTrack, kind] using length
    · intro one track isTrack isActive
      have member := all track isTrack isActive
      simp only [TouchHistory.recordTouchTrack, kind] at one ⊢
      obtain ⟨identifier, isOnly⟩ := length_eq_one_iff.1 one
      rw [isOnly, mem_singleton] at member
      simp [isOnly, member]
  | finish =>
    refine ⟨recorded, nodup, active, ?_, ?_, later⟩
    · simpa only [TouchHistory.recordTouchTrack, kind] using length
    · intro one track isTrack isActive
      have member := all track isTrack isActive
      simp only [TouchHistory.recordTouchTrack, kind] at one isTrack all ⊢
      obtain ⟨identifier, isOnly⟩ := length_eq_one_iff.1 one
      obtain ⟨found, isFound⟩ := Option.isSome_iff_exists.1
        (find?_isSome.2 ⟨track, isTrack, isActive⟩)
      have isFoundTouch := all found (mem_of_find?_eq_some isFound) (find?_some isFound)
      rw [isOnly, mem_singleton] at member isFoundTouch
      rw [if_pos one, isFound, member, ← isFoundTouch]
      rfl

end

theorem changedAfter_moved {movedAfter : ℚ} {onScreen : List ℕ}
    (banked : Banked history onScreen page) (nonempty : touches ≠ [])
    (distinct : (touches.map (·.identifier)).Nodup)
    (active : ∀ touch ∈ touches, history.IsActive touch.identifier) (isLater : movedAfter < timestamp)
    (still : 1 < history.numberActiveTouches → ∀ track ∈ history.touchBank, track.touchActive →
      track.identifier ∉ touches.map (·.identifier) → track.currentTimeStamp < movedAfter) :
    let moved := (history.moved timestamp touches).changedAfter movedAfter
    (moved.map (·.identifier)).Perm (touches.map (·.identifier)) ∧
      ∀ track ∈ moved, ∃ old ∈ history.touchBank,
        old.identifier ∈ touches.map (·.identifier) ∧ old.moved timestamp touches = track := by
  have activeOfMem (identifier : ℕ) (member : identifier ∈ touches.map (·.identifier)) :
      history.IsActive identifier := by
    obtain ⟨touch, isTouch, rfl⟩ := mem_map.1 member
    exact active touch isTouch
  obtain ⟨touch, isTouch⟩ := exists_mem_of_ne_nil _ nonempty
  obtain ⟨first, isFirst, isFirstTouch, isActive⟩ := active touch isTouch
  have moves (track : TouchTrack) (member : track.identifier ∈ touches.map (·.identifier)) :
      (track.moved timestamp touches).touchActive ∧
        (track.moved timestamp touches).currentTimeStamp = timestamp := by
    obtain ⟨touch, isMoved⟩ := moved_of_mem member
    rw [isMoved]
    exact ⟨rfl, rfl⟩
  unfold TouchHistory.moved
  simp only [TouchHistory.changedAfter]
  by_cases one : history.numberActiveTouches = 1
  · have isIndex := banked.single one
    have isOnly (identifier : ℕ) (member : identifier ∈ touches.map (·.identifier)) :
        identifier = first.identifier := by
      obtain ⟨track, isTrack, rfl, trackActive⟩ := activeOfMem identifier member
      exact Int.ofNat_inj.1 ((isIndex track isTrack trackActive).trans
        (isIndex first isFirst isActive).symm)
    have isFirstMember : first.identifier ∈ touches.map (·.identifier) :=
      isFirstTouch ▸ mem_map_of_mem isTouch
    have isChanged : touches.map (·.identifier) = [first.identifier] :=
      (perm_ext_iff_of_nodup distinct (nodup_singleton _)).2
        (fun identifier => ⟨fun member => mem_singleton.2 (isOnly identifier member),
          fun member => mem_singleton.1 member ▸ isFirstMember⟩) |>.eq_singleton
    have found : (history.touchBank.map (·.moved timestamp touches)).find? (fun track =>
        (track.identifier : ℤ) = history.indexOfSingleActiveTouch) =
          some (first.moved timestamp touches) := by
      have isFirstIndex := isIndex first isFirst isActive
      rw [find?_map]
      cases isFound : history.touchBank.find? _ with
      | none => simpa [isFirstIndex] using find?_eq_none.1 isFound first isFirst
      | some found =>
        have sameIndex : (found.identifier : ℤ) = history.indexOfSingleActiveTouch := by
          simpa using find?_some isFound
        rw [inj_on_of_nodup_map banked.recorded.distinct (mem_of_find?_eq_some isFound) isFirst
          (Int.ofNat_inj.1 (sameIndex.trans isFirstIndex.symm))]
        rfl
    simp only [one, if_true, found, moves first isFirstMember, gt_iff_lt, isLater, and_self]
    refine ⟨by simp [isChanged], fun track member => ?_⟩
    exact ⟨first, isFirst, isFirstMember, (mem_singleton.1 member).symm⟩
  · have several : 1 < history.numberActiveTouches := by
      have := length_pos_of_mem (mem_filter.2 ⟨isFirst, isActive⟩)
      rw [← banked.number] at this
      omega
    simp only [one, if_false]
    have isMoved (track : TouchTrack) (isTrack : track ∈ history.touchBank) :
        track.moved timestamp touches ∈ (history.touchBank.map (·.moved timestamp touches)).filter
          (fun track => track.touchActive ∧ track.currentTimeStamp ≥ movedAfter) ↔
        track.identifier ∈ touches.map (·.identifier) := by
      rw [mem_filter, and_iff_right (mem_map_of_mem isTrack), decide_eq_true_eq]
      constructor
      · rintro ⟨trackActive, recent⟩
        by_contra missing
        rw [moved_of_not_mem missing] at trackActive recent
        exact (still several track isTrack trackActive missing).not_ge recent
      · intro member
        rw [(moves track member).2]
        exact ⟨(moves track member).1, isLater.le⟩
    constructor
    · refine (perm_ext_iff_of_nodup ?_ distinct).2 fun identifier => ?_
      · refine (?_ : List.Nodup _).sublist (filter_sublist.map _)
        simpa [List.map_map, Function.comp_def] using banked.recorded.distinct
      · constructor
        · intro member
          obtain ⟨_, isLeft, rfl⟩ := mem_map.1 member
          obtain ⟨old, isOld, rfl⟩ := mem_map.1 (mem_filter.1 isLeft).1
          rw [moved_identifier]
          exact (isMoved old isOld).1 isLeft
        · intro member
          obtain ⟨old, isOld, rfl, -⟩ := activeOfMem identifier member
          exact mem_map.2 ⟨_, (isMoved old isOld).2 member, moved_identifier⟩
    · intro track member
      obtain ⟨old, isOld, rfl⟩ := mem_map.1 (mem_filter.1 member).1
      exact ⟨old, isOld, (isMoved old isOld).1 member, rfl⟩

theorem Tracked.move (tracked : Tracked state) (valid : Valid state event)
    (apart : Apart state event) (isMove : event.kind = .move) :
    Tracked (state.1.dispatch event, state.2.count event) := by
  obtain ⟨isNew, still⟩ := apart isMove
  have changes := tracked.banked.recordTouchTrack_move valid isMove
  have banked := tracked.banked.recordTouchTrack valid
  have isLater := lt_of_le_of_ne (tracked.accounts.trans valid.later) (Ne.symm isNew)
  have isGesture : (state.1.dispatch event).gesture =
      updateGestureStateOnMove state.1.gesture (state.1.history.recordTouchTrack event) := by
    simp [Panning.dispatch, isMove, onResponderMove, changes, isNew.symm, updateGestureStateOnMove,
      TouchHistory.moved]
  refine ⟨banked, ?_, ?_⟩
  · rw [isGesture]
    exact le_rfl
  · funext axis
    rw [isGesture, changes]
    rw [changes] at banked
    simp only [updateGestureStateOnMove, Counted.count, isMove, tracked.sum]
    obtain ⟨perm, moved⟩ := changedAfter_moved tracked.banked valid.nonempty valid.distinct
      (tracked.banked.changed valid (by simp [isMove])) isLater still
    refine congrArg _ (centroid_sub_centroid axis perm (fun track member => ?_)
      fun track member => ?_)
    · obtain ⟨old, isOld, -, rfl⟩ := moved track member
      exact banked.recorded.pages _ (mem_map_of_mem isOld)
    · obtain ⟨old, isOld, isChanged, rfl⟩ := moved track member
      obtain ⟨_, isMoved⟩ := moved_of_mem isChanged
      rw [moved_identifier, isMoved]
      exact tracked.banked.recorded.pages old isOld

theorem Tracked.step (tracked : Tracked state) (valid : Valid state event)
    (apart : Apart state event) (stepped : step state event = some next) : Tracked next := by
  cases stepped
  have banked := tracked.banked.recordTouchTrack valid
  have accounts := tracked.accounts.trans (le_mostRecentTimeStamp event valid.later)
  cases kind : event.kind with
  | move => exact tracked.move valid apart kind
  | start =>
    refine ⟨banked, ?_, ?_⟩
    · simp only [Panning.dispatch, kind, countTouches, onStartShouldSetResponderCapture,
        onResponderGrant]
      split_ifs
      · exact banked.positive
      · exact accounts
      · exact banked.positive
      · exact accounts
    · have idle : state.1.history.numberActiveTouches = 0 ↔ state.2.touches = [] := by
        rw [tracked.banked.length_touches, length_eq_zero_iff]
      simp only [Panning.dispatch, kind, countTouches, onStartShouldSetResponderCapture,
        onResponderGrant, Counted.count, idle]
      by_cases first : state.2.touches = []
      · simp only [first, or_true, if_true]
      · simp only [first, or_false, if_false]
        split_ifs
        · rfl
        · exact tracked.sum
  | finish =>
    refine ⟨banked, ?_, ?_⟩
    · simp only [Panning.dispatch, kind, countTouches]
      split_ifs
      · exact banked.positive
      · exact accounts
    · simp only [Panning.dispatch, kind, countTouches, Counted.count]
      split_ifs
      · rfl
      · exact tracked.sum

theorem start_banked : Banked {} [] fun _ _ => 0 :=
  ⟨⟨.nil, by simp⟩, nodup_nil, by simp [TouchHistory.IsActive], rfl, by simp, le_rfl⟩

/-- **As long as move events have new times, and of several touches those that stay have not changed
since the last move event, each movement is counted once.** -/
theorem movement_counted_once (events : List TouchEvent) (final : Panning × Counted)
    (valid : Along step Valid ({}, {}) events) (apart : Along step Apart ({}, {}) events)
    (ran : run step ({}, {}) events = some final) : final.1.gesture.d = final.2.sum := by
  have start : Tracked ({}, {}) := ⟨start_banked, le_rfl, rfl⟩
  exact (run_induction (fun _ _ _ tracked allowed => tracked.step allowed.1 allowed.2) start
    (along_and valid apart) ran).sum

/-- **The history is that of the touches** in every run. -/
theorem history_tracks_touches (events : List TouchEvent) (final : Panning × Counted)
    (valid : Along step Valid ({}, {}) events) (ran : run step ({}, {}) events = some final) :
    Banked final.1.history final.2.touches final.2.page := by
  let Kept (state : Panning × Counted) : Prop := Banked state.1.history state.2.touches state.2.page
  have kept : Kept final := by
    refine run_induction (fun _ _ _ banked allowed stepped => ?_) start_banked valid ran
    cases stepped
    exact Banked.recordTouchTrack banked allowed
  exact kept

/-! ### Samples -/

def down : TouchEvent := ⟨.start, 5, [⟨0, fun _ => 0⟩, ⟨1, fun _ => 0⟩], [0, 1]⟩

def moveOne (timestamp : ℚ) (identifier : ℕ) : TouchEvent :=
  ⟨.move, timestamp, [⟨identifier, fun _ => 5⟩], [0, 1]⟩

def moveBoth : TouchEvent := ⟨.move, 10, [⟨0, fun _ => 5⟩, ⟨1, fun _ => 3⟩], [0, 1]⟩

theorem movement_counted_once_both : ∃ final,
    run step ({}, {}) [down, moveBoth] = some final ∧ final.1.gesture.d = final.2.sum :=
  ⟨_, rfl, movement_counted_once [down, moveBoth] _ (by decide +kernel) (by decide +kernel) rfl⟩

theorem history_tracks_touches_both : ∃ final,
    run step ({}, {}) [down, moveBoth] = some final ∧ Banked final.1.history final.2.touches final.2.page :=
  ⟨_, rfl, history_tracks_touches [down, moveBoth] _ (by decide +kernel) rfl⟩

theorem moved_twice_in_ten : ¬ ∀ events final, Along step Valid ({}, {}) events →
    run step ({}, {}) events = some final → final.1.gesture.d = final.2.sum := by
  intro counted
  have same := counted [down, moveOne 10 0, moveOne 20 1] _ (by decide +kernel) rfl
  exact absurd (congrFun same .x) (by decide +kernel)

end ReactNative.PanResponder

