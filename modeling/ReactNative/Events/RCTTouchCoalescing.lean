import ReactNative.Events.RCTEventDispatcherCorrectness
import ReactNative.Events.RCTTouchHandler

/-! Moves with one coalescing key are delivered as one event if they are sent between two flushes,
which is the last of them. -/
namespace ReactNative

open List

theorem pairwise_of_splits {A : Type} {R : A → A → Prop} {elements : List A}
    (related : ∀ before first between second after,
      elements = before ++ first :: (between ++ second :: after) → R first second) :
    elements.Pairwise R := by
  induction elements with
  | nil => exact .nil
  | cons first _ ih =>
    refine .cons ?_ (ih ?_)
    · intro second member
      obtain ⟨between, after, rfl⟩ := append_of_mem member
      exact related [] first between second after rfl
    · intro before earlier between later after split
      exact related (first :: before) earlier between later after (by rw [split, cons_append])

namespace RCTTouchEvent

variable {Touch Location : Type} [DecidableEq Touch] (event : RCTTouchEvent Touch Location)

def changedTouches : List Touch :=
  event.changedIndexes.filterMap fun index => event.nativeTouches[index]?

def locationOf (touch : Touch) : Option Location :=
  (event.nativeTouches.idxOf? touch).bind fun index =>
    (event.reactTouches[index]?).bind ReactTouch.location

def reports (touch : Touch) (events : List (RCTTouchEvent Touch Location)) : List Location :=
  events.flatMap fun event =>
    (event.touches.filter fun native => native.touch = touch).map NativeTouch.location

def isMoveWith (key : BitVec 16) (event : RCTTouchEvent Touch Location) : Bool :=
  event.canCoalesce && event.coalescingKey = key

def movesWith (key : BitVec 16) (batch : List (RCTTouchEvent Touch Location)) :
    List (RCTTouchEvent Touch Location) :=
  batch.filter (isMoveWith key)

variable (batch : List (RCTTouchEvent Touch Location))

def boundaries : List (RCTTouchEvent Touch Location) := batch.filter fun event => !event.canCoalesce

/-- What a flush of a batch does with the moves. -/
structure MovesKept
    (delivered : List (Option (RCTTouchEvent Touch Location))) : Prop where
  /-- There are only moves between two moves that are merged. -/
  unmixed : ∀ before event between later after,
    batch = before ++ event :: (between ++ later :: after) → event.canCoalesce →
      later.canCoalesce → event.coalescingKey = later.coalescingKey → boundaries between = []
  /-- In the place of a move there is one that has its changed touches, where they were last. -/
  replaced : ∀ event ∈ batch, event.canCoalesce → ∃ replacement,
    delivered.filter (fun other => other.any (isMoveWith event.coalescingKey)) =
        [some replacement] ∧
      ∀ touch ∈ event.changedTouches, touch ∈ replacement.changedTouches ∧
        replacement.locationOf touch =
          (reports touch (movesWith event.coalescingKey batch)).getLast?

/-- The number of starts, ends and cancels between two moves is no multiple of 32768, but for
zero. -/
def KeysApart : Prop :=
  ∀ before event between later after, batch = before ++ event :: (between ++ later :: after) →
    event.canCoalesce → later.canCoalesce → 32768 ∣ (boundaries between).length →
      boundaries between = []

/-- The touches that a move has changed are changed by the last one of the moves that follow it
without a start, end or cancel. -/
def LastMovesAll : Prop :=
  ∀ before event between last after, batch = before ++ event :: (between ++ last :: after) →
    boundaries (event :: (between ++ [last])) = [] → (∀ next ∈ after.head?, !next.canCoalesce) →
      event.changedTouches ⊆ last.changedTouches

/-! ### What is known of a batch -/

def NotNewer (older newer : ReactTouch Location) : Prop :=
  ∀ timestamp, older.timestamp = some timestamp →
    ∃ later, newer.timestamp = some later ∧ timestamp ≤ later

/-- The changed touches are those of the callback, as they are there. -/
structure Sound : Prop where
  changes : ∃ index ∈ event.changedIndexes, ∃ touch timestamp,
    event.reactTouches[index]? = some touch ∧ touch.timestamp = some timestamp
  carries : ∀ touch ∈ event.changedTouches, ∃ location,
    (reports touch [event]).getLast? = some location ∧ event.locationOf touch = some location

structure SoundBatch : Prop where
  sound : ∀ event ∈ batch, Sound event
  /-- The keys count the starts, ends and cancels. -/
  keys : ∀ before event between later after, batch = before ++ event :: (between ++ later :: after) →
    event.canCoalesce → later.canCoalesce →
      later.coalescingKey = event.coalescingKey + BitVec.ofNat 16 (2 * (boundaries between).length)
  /-- Moves without one between them are of the same touches. -/
  recent : ∀ before event between later after,
    batch = before ++ event :: (between ++ later :: after) → event.canCoalesce →
      later.canCoalesce → boundaries between = [] →
        List.Forall₂ NotNewer event.reactTouches later.reactTouches

theorem Sound.replaces {event later : RCTTouchEvent Touch Location} (sound : Sound event)
    (recent : List.Forall₂ NotNewer event.reactTouches later.reactTouches) :
    event.coalesceWithEvent later = later := by
  obtain ⟨index, -, touch, timestamp, found, stamped⟩ := sound.changes
  obtain ⟨bound, isTouch⟩ := List.getElem?_eq_some_iff.mp found
  have laterBound : index < later.reactTouches.length := recent.length_eq ▸ bound
  have notNewer : NotNewer touch later.reactTouches[index] := by
    have related := recent.get bound laterBound
    rw [get_eq_getElem, isTouch] at related
    exact related
  obtain ⟨_, laterStamped, le⟩ := notNewer timestamp stamped
  have moreRecent : (event.reactTouches.zip later.reactTouches).any (fun touches =>
      newTouchIsMoreRecent touches.1 touches.2) = true := by
    refine any_eq_true.mpr ⟨(touch, later.reactTouches[index]), ?_, ?_⟩
    · refine mem_iff_getElem.mpr ⟨index, ?_, ?_⟩
      · rw [length_zip]
        exact Nat.lt_min.mpr ⟨bound, laterBound⟩
      · rw [getElem_zip, isTouch]
    · simpa [newTouchIsMoreRecent, stamped, laterStamped] using Rat.not_lt.mpr le
  rw [coalesceWithEvent, if_pos moreRecent]

section

variable {batch before between after : List (RCTTouchEvent Touch Location)}
  {event later : RCTTouchEvent Touch Location}

theorem SoundBatch.key_eq_iff (sound : SoundBatch batch)
    (split : batch = before ++ event :: (between ++ later :: after)) (moves : event.canCoalesce)
    (movesLater : later.canCoalesce) :
    event.coalescingKey = later.coalescingKey ↔ 32768 ∣ (boundaries between).length := by
  rw [sound.keys before event between later after split moves movesLater]
  constructor
  · intro same
    have numbers := congrArg BitVec.toNat same
    rw [BitVec.toNat_add, BitVec.toNat_ofNat] at numbers
    omega
  · rintro ⟨times, count⟩
    apply BitVec.eq_of_toNat_eq
    rw [BitVec.toNat_add, BitVec.toNat_ofNat, count]
    omega

theorem SoundBatch.unmixed_iff (sound : SoundBatch batch) :
    KeysApart batch ↔ ∀ before event between later after,
      batch = before ++ event :: (between ++ later :: after) → event.canCoalesce →
        later.canCoalesce → event.coalescingKey = later.coalescingKey → boundaries between = [] := by
  constructor
  · intro apart before event between later after split moves movesLater same
    exact apart before event between later after split moves movesLater
      ((sound.key_eq_iff split moves movesLater).mp same)
  · intro unmixed before event between later after split moves movesLater multiple
    exact unmixed before event between later after split moves movesLater
      ((sound.key_eq_iff split moves movesLater).mpr multiple)

omit [DecidableEq Touch] in
theorem boundaries_eq_nil_iff {events : List (RCTTouchEvent Touch Location)} :
    boundaries events = [] ↔ ∀ event ∈ events, event.canCoalesce := by
  simp [boundaries]

omit [DecidableEq Touch] in
theorem boundaries_append (first second : List (RCTTouchEvent Touch Location)) :
    boundaries (first ++ second) = boundaries first ++ boundaries second :=
  filter_append first second

theorem SoundBatch.getLast?_movesWith (sound : SoundBatch batch) (apart : KeysApart batch)
    (split : batch = before ++ event :: after) (moves : event.canCoalesce)
    (stops : ∀ next ∈ after.head?, !next.canCoalesce) :
    (movesWith event.coalescingKey batch).getLast? = some event := by
  have noneAfter : after.filter (isMoveWith event.coalescingKey) = [] := by
    refine filter_eq_nil_iff.mpr ?_
    intro other member isMove
    rw [isMoveWith, Bool.and_eq_true, decide_eq_true_eq] at isMove
    obtain ⟨first, rest, rfl⟩ := append_of_mem member
    have noBoundary := sound.unmixed_iff.mp apart before event first other rest split moves isMove.1
      isMove.2.symm
    -- What comes next is a start, end or cancel, and there is none before the other move.
    cases first with
    | nil =>
      have ends := stops other rfl
      rw [isMove.1] at ends
      cases ends
    | cons next =>
      have ends := stops next rfl
      rw [boundaries_eq_nil_iff.mp noBoundary next mem_cons_self] at ends
      cases ends
  have kept : isMoveWith event.coalescingKey event = true := by simp [isMoveWith, moves]
  rw [split, movesWith, filter_append, filter_cons_of_pos kept, noneAfter, getLast?_append]
  rfl

theorem SoundBatch.key_eq_last (sound : SoundBatch batch)
    (split : batch = before ++ event :: (between ++ later :: after))
    (moves : boundaries (event :: (between ++ [later])) = []) :
    event.coalescingKey = later.coalescingKey := by
  rw [boundaries_eq_nil_iff] at moves
  have noBoundary : boundaries between = [] := by
    rw [boundaries_eq_nil_iff]
    intro other member
    exact moves other (by simp [member])
  refine (sound.key_eq_iff split (moves event mem_cons_self) (moves later (by simp))).mpr ?_
  rw [noBoundary]
  exact Nat.dvd_zero _

theorem SoundBatch.merge_movesWith (sound : SoundBatch batch) (apart : KeysApart batch)
    (key : BitVec 16) :
    Coalescing.merge coalesceWithEvent (movesWith key batch) = (movesWith key batch).getLast? := by
  apply Coalescing.merge_eq_getLast?
  rw [movesWith, pairwise_filter]
  apply pairwise_of_splits
  intro before event between later after split isMove laterIsMove
  rw [isMoveWith, Bool.and_eq_true, decide_eq_true_eq] at isMove laterIsMove
  have noBoundary := sound.unmixed_iff.mp apart before event between later after split isMove.1
    laterIsMove.1 (isMove.2.trans laterIsMove.2.symm)
  refine Sound.replaces (sound.sound event ?_)
    (sound.recent before event between later after split isMove.1 laterIsMove.1 noBoundary)
  simp [split]

end

omit [DecidableEq Touch] in
theorem exists_last_move (event : RCTTouchEvent Touch Location)
    (rest : List (RCTTouchEvent Touch Location)) (moves : event.canCoalesce) :
    (∀ next ∈ rest.head?, !next.canCoalesce) ∨ ∃ between last after,
      rest = between ++ last :: after ∧ boundaries (event :: (between ++ [last])) = [] ∧
        ∀ next ∈ after.head?, !next.canCoalesce := by
  induction rest generalizing event with
  | nil =>
    left
    rintro next ⟨⟩
  | cons second rest ih =>
    by_cases secondMoves : second.canCoalesce
    · right
      rcases ih second secondMoves with stops | ⟨between, last, after, rfl, run, stops⟩
      · refine ⟨[], second, rest, rfl, ?_, stops⟩
        simp [boundaries, moves, secondMoves]
      · refine ⟨second :: between, last, after, rfl, ?_, stops⟩
        rw [boundaries_eq_nil_iff] at run ⊢
        intro other member
        rcases mem_cons.mp member with rfl | member
        · exact moves
        · exact run other member
    · left
      rintro next ⟨⟩
      simpa using secondMoves

variable {batch : List (RCTTouchEvent Touch Location)}
  {delivered : List (Option (RCTTouchEvent Touch Location))}

def DeliversMoves (batch : List (RCTTouchEvent Touch Location))
    (delivered : List (Option (RCTTouchEvent Touch Location))) : Prop :=
  ∀ key, delivered.filter (fun event => event.any (isMoveWith key)) =
    (Coalescing.merge coalesceWithEvent (movesWith key batch)).toList.map some

/-- **The moves of a batch** are kept if the last ones change the touches of the others. -/
theorem SoundBatch.movesKept_iff (sound : SoundBatch batch)
    (delivers : DeliversMoves batch delivered) :
    MovesKept batch delivered ↔ KeysApart batch ∧ LastMovesAll batch := by
  constructor
  -- What is delivered for a move is the last move of its run, so this one tells its touches.
  · intro kept
    have apart := sound.unmixed_iff.mpr kept.unmixed
    refine ⟨apart, ?_⟩
    intro before event between last after split moves stops
    have eventMoves : event.canCoalesce := boundaries_eq_nil_iff.mp moves event mem_cons_self
    obtain ⟨_, replaces, changes⟩ := kept.replaced event (by simp [split]) eventMoves
    have isLast := sound.getLast?_movesWith apart
      (split.trans (append_assoc before (event :: between) (last :: after)).symm)
      (boundaries_eq_nil_iff.mp moves last (by simp)) stops
    rw [delivers, sound.merge_movesWith apart, sound.key_eq_last split moves, isLast] at replaces
    cases replaces
    intro touch changed
    exact (changes touch changed).1
  · rintro ⟨apart, lastMoves⟩
    refine ⟨sound.unmixed_iff.mp apart, ?_⟩
    intro event member moves
    obtain ⟨before, rest, split⟩ := append_of_mem member
    -- The last move of the run, with all the touches that the others changed.
    obtain ⟨last, isLast, changes⟩ : ∃ last,
        (movesWith event.coalescingKey batch).getLast? = some last ∧
          event.changedTouches ⊆ last.changedTouches := by
      rcases exists_last_move event rest moves with stops | ⟨between, last, after, rfl, run, stops⟩
      · exact ⟨event, sound.getLast?_movesWith apart split moves stops, List.Subset.refl _⟩
      · refine ⟨last, ?_, lastMoves before event between last after split run stops⟩
        rw [sound.key_eq_last split run]
        exact sound.getLast?_movesWith apart
          (split.trans (append_assoc before (event :: between) (last :: after)).symm)
          (boundaries_eq_nil_iff.mp run last (by simp)) stops
    refine ⟨last, ?_, ?_⟩
    · rw [delivers, sound.merge_movesWith apart, isLast]
      rfl
    · intro touch changed
      have lastChanged := changes changed
      obtain ⟨earlier, all⟩ := getLast?_eq_some_iff.mp isLast
      have lastMember : last ∈ batch := by
        refine (mem_filter.mp (?_ : last ∈ movesWith event.coalescingKey batch)).1
        rw [all]
        exact mem_append_right earlier (mem_singleton_self last)
      obtain ⟨location, reported, located⟩ := (sound.sound last lastMember).carries touch lastChanged
      refine ⟨lastChanged, ?_⟩
      rw [located, all, reports, flatMap_append, getLast?_append]
      have here : ([last].flatMap fun event => (event.touches.filter fun native =>
          native.touch = touch).map NativeTouch.location).getLast? = some location := reported
      rw [here]
      rfl

end RCTTouchEvent

end ReactNative


