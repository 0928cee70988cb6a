import ReactNative.Events.RCTSurfaceTouchHandler
import Mathlib.Data.Finset.Card

/-! Identifiers in use are those of the table, so that the pool has one for each touch that begins
while at most eleven are active. -/
namespace ReactNative

open Runs List Function

/-! ### The pool -/

namespace IdentifierPool

def distance (pool : IdentifierPool) (identifier : ℕ) : ℕ :=
  (identifier + maxTouches - pool.lastIndex) % maxTouches

structure HandsOut (pool : IdentifierPool) (identifier : ℕ) (after : IdentifierPool) : Prop where
  inRange : identifier < maxTouches
  unused : pool.usage identifier = false
  usage : after.usage = Function.update pool.usage identifier true
  lastIndex : after.lastIndex < maxTouches

section

variable {free : ℕ} {pool : IdentifierPool} (inRange : pool.lastIndex < maxTouches)
  (freeInRange : free < maxTouches) (unused : pool.usage free = false)
include inRange freeInRange unused

theorem dequeueLoop_handsOut {rounds : ℕ} (near : pool.distance free < rounds) :
    ∃ identifier after, dequeueLoop rounds pool = some (identifier, after) ∧
      pool.HandsOut identifier after := by
  induction rounds generalizing pool with
  | zero => exact absurd near (Nat.not_lt_zero _)
  | succ rounds ih =>
    rw [dequeueLoop]
    split
    next used =>
      have differs : free ≠ pool.lastIndex := by
        rintro rfl
        rw [unused] at used
        cases used
      -- The next index is one nearer.
      have nearer : distance { pool with lastIndex := (pool.lastIndex + 1) % maxTouches } free <
          rounds := by
        unfold distance maxTouches at *
        dsimp only
        omega
      have nextInRange : (pool.lastIndex + 1) % maxTouches < maxTouches :=
        Nat.mod_lt _ (Nat.succ_pos 10)
      obtain ⟨identifier, after, found, handsOut⟩ :=
        @ih { pool with lastIndex := (pool.lastIndex + 1) % maxTouches } nextInRange unused nearer
      exact ⟨identifier, after, found, handsOut.inRange, handsOut.unused, handsOut.usage,
        handsOut.lastIndex⟩
    next notUsed =>
      exact ⟨pool.lastIndex, _, rfl, inRange, Bool.eq_false_iff.mpr notUsed, rfl, inRange⟩

theorem dequeue_handsOut :
    ∃ identifier after, pool.dequeue = some (identifier, after) ∧ pool.HandsOut identifier after :=
  dequeueLoop_handsOut inRange freeInRange unused (Nat.mod_lt _ (by decide))

end

end IdentifierPool

/-- Identifiers that tell touches apart. -/
def Apart (touches : List SurfaceTouch) : Prop :=
  ∀ first ∈ touches, ∀ second ∈ touches, first.identifier = second.identifier → first = second

theorem mem_insertTouches {inserted touches : List SurfaceTouch} (apart : Apart (inserted ++ touches))
    {touch : SurfaceTouch} :
    touch ∈ touches.foldl insertTouch inserted ↔ touch ∈ inserted ∨ touch ∈ touches := by
  induction touches generalizing inserted with
  | nil => simp
  | cons first _ ih =>
    rw [foldl_cons]
    by_cases known : inserted.any (·.identifier = first.identifier) = true
    · have same : insertTouch inserted first = inserted := by rw [insertTouch, if_pos known]
      obtain ⟨other, member, isSame⟩ := any_eq_true.mp known
      have isFirst : other = first := apart other (mem_append_left _ member) first
        (mem_append_right _ mem_cons_self) (of_decide_eq_true isSame)
      subst isFirst
      rw [same, ih fun one isOne two isTwo => apart one
        (mem_append.mpr ((mem_append.mp isOne).imp id (mem_cons_of_mem _))) two
        (mem_append.mpr ((mem_append.mp isTwo).imp id (mem_cons_of_mem _)))]
      rw [mem_cons]
      constructor
      · exact fun found => found.imp id .inr
      · rintro (old | rfl | later)
        · exact .inl old
        · exact .inl member
        · exact .inr later
    · have grown : insertTouch inserted first = inserted ++ [first] := by
        rw [insertTouch, if_neg known]
      rw [grown, ih (by rwa [append_assoc]), mem_append, mem_singleton, mem_cons, or_assoc]

namespace RCTSurfaceTouchHandler

variable {T Emitter : Type}

/-! ### The table and the pool -/

variable (handler : RCTSurfaceTouchHandler T Emitter)

def identifiers : List ℕ := handler.activeTouches.map fun entry => entry.2.touch.identifier

/-- The table has each touch once, with an identifier of its own, and exactly these are in use. -/
structure Valid : Prop where
  keys : (handler.activeTouches.map Prod.fst).Nodup
  distinct : handler.identifiers.Nodup
  inRange : ∀ identifier ∈ handler.identifiers, identifier < maxTouches
  usage : ∀ identifier, handler.identifierPool.usage identifier = true ↔
    identifier ∈ handler.identifiers
  lastIndex : handler.identifierPool.lastIndex < maxTouches

/-- Touches that begin are not active, and at most eleven are active then. Sets have a touch once. -/
def Allowed : SurfaceTouchCallback T Emitter → Prop
  | .touchesBegan touches => (touches.map UITouch.touch).Nodup ∧
      (∀ touch ∈ touches, touch.touch ∉ handler.activeTouches.map Prod.fst) ∧
      handler.activeTouches.length + touches.length ≤ maxTouches
  | .touchesMoved touches | .touchesEnded touches | .touchesCancelled touches =>
    (touches.map UITouch.touch).Nodup
  | .reset => True

instance [DecidableEq T] (handler : RCTSurfaceTouchHandler T Emitter) :
    ∀ callback, Decidable (handler.Allowed callback)
  | .touchesBegan touches => inferInstanceAs (Decidable ((touches.map UITouch.touch).Nodup ∧
      (∀ touch ∈ touches, touch.touch ∉ handler.activeTouches.map Prod.fst) ∧
      handler.activeTouches.length + touches.length ≤ maxTouches))
  | .touchesMoved touches | .touchesEnded touches | .touchesCancelled touches =>
    inferInstanceAs (Decidable (touches.map UITouch.touch).Nodup)
  | .reset => .isTrue trivial

section

variable {handler : RCTSurfaceTouchHandler T Emitter}

theorem Valid.exists_unused (valid : handler.Valid)
    (fewer : handler.activeTouches.length < maxTouches) :
    ∃ free < maxTouches, handler.identifierPool.usage free = false := by
  have card : handler.identifiers.toFinset.card < (Finset.range maxTouches).card := by
    refine lt_of_le_of_lt (toFinset_card_le _) ?_
    rwa [identifiers, length_map]
  obtain ⟨free, inRange, isFree⟩ := Finset.exists_mem_notMem_of_card_lt_card card
  refine ⟨free, Finset.mem_range.mp inRange, Bool.eq_false_iff.mpr fun used => isFree ?_⟩
  exact mem_toFinset.mpr ((valid.usage free).mp used)

theorem Valid.register (valid : handler.Valid) {touch : UITouch T Emitter}
    (new : touch.touch ∉ handler.activeTouches.map Prod.fst) {identifier : ℕ}
    {after : IdentifierPool} (handsOut : handler.identifierPool.HandsOut identifier after) :
    Valid {
      activeTouches := handler.activeTouches ++
        [(touch.touch, createTouchWithUITouch touch identifier)]
      identifierPool := after } := by
  have grown : identifiers {
      activeTouches := handler.activeTouches ++
        [(touch.touch, createTouchWithUITouch touch identifier)]
      identifierPool := after } = handler.identifiers ++ [identifier] := by
    simp [identifiers, createTouchWithUITouch]
  have isNew : identifier ∉ handler.identifiers := by
    rw [← valid.usage, handsOut.unused]
    exact Bool.false_ne_true
  constructor
  · rw [map_append, map_singleton, nodup_append]
    refine ⟨valid.keys, pairwise_singleton _ _, ?_⟩
    rintro key member other isOther rfl
    rw [mem_singleton.mp isOther] at member
    exact new member
  · rw [grown, nodup_append]
    refine ⟨valid.distinct, pairwise_singleton _ _, ?_⟩
    rintro other member last isLast rfl
    rw [mem_singleton.mp isLast] at member
    exact isNew member
  · rw [grown]
    intro other member
    rcases mem_append.mp member with old | last
    · exact valid.inRange other old
    · exact mem_singleton.mp last ▸ handsOut.inRange
  · intro other
    rw [grown, mem_append, mem_singleton, handsOut.usage]
    by_cases same : other = identifier
    · simp [same]
    · rw [update_of_ne same, valid.usage]
      simp [same]
  · exact handsOut.lastIndex

theorem Valid.apart (valid : handler.Valid) {touches : List SurfaceTouch}
    (known : ∀ touch ∈ touches, ∃ entry ∈ handler.activeTouches, entry.2.touch = touch) :
    Apart ([] ++ touches) := by
  intro first isFirst second isSecond same
  obtain ⟨_, isOne, rfl⟩ := known first isFirst
  obtain ⟨_, isTwo, rfl⟩ := known second isSecond
  rw [inj_on_of_nodup_map valid.distinct isOne isTwo same]

theorem Valid.mem_touchesOf (valid : handler.Valid) (among : ActiveTouch Emitter → Bool)
    {touch : SurfaceTouch} :
    touch ∈ (touchesOf handler.activeTouches among).foldl insertTouch [] ↔
      ∃ entry ∈ handler.activeTouches, entry.2.touch = touch ∧ among entry.2 = true := by
  have known : ∀ touch, touch ∈ touchesOf handler.activeTouches among ↔
      ∃ entry ∈ handler.activeTouches, entry.2.touch = touch ∧ among entry.2 = true := by
    intro touch
    simp only [touchesOf, mem_map, mem_filter]
    constructor
    · rintro ⟨-, ⟨⟨entry, member, rfl⟩, isAmong⟩, rfl⟩
      exact ⟨entry, member, rfl, isAmong⟩
    · rintro ⟨entry, member, rfl, isAmong⟩
      exact ⟨entry.2, ⟨⟨entry, member, rfl⟩, isAmong⟩, rfl⟩
  rw [mem_insertTouches (valid.apart fun other member => ?_), ← known]
  · simp
  · obtain ⟨entry, isEntry, same, -⟩ := (known other).mp member
    exact ⟨entry, isEntry, same⟩

theorem initial_valid : Valid ({} : RCTSurfaceTouchHandler T Emitter) :=
  ⟨nodup_nil, nodup_nil, nofun,
    fun _ => iff_of_false Bool.false_ne_true not_mem_nil, Nat.succ_pos 10⟩

variable [DecidableEq T]

theorem Valid.registerTouches {touches : List (UITouch T Emitter)} (valid : handler.Valid)
    (distinct : (touches.map UITouch.touch).Nodup)
    (new : ∀ touch ∈ touches, touch.touch ∉ handler.activeTouches.map Prod.fst)
    (room : handler.activeTouches.length + touches.length ≤ maxTouches) :
    ∃ registered, handler.registerTouches touches = some registered ∧ registered.Valid := by
  induction touches generalizing handler with
  | nil => exact ⟨handler, rfl, valid⟩
  | cons touch _ ih =>
    obtain ⟨differs, distinctRest⟩ := nodup_cons.mp distinct
    rw [length_cons] at room
    have isNew := new touch mem_cons_self
    obtain ⟨free, inRange, unused⟩ := valid.exists_unused (by omega)
    obtain ⟨identifier, after, dequeued, handsOut⟩ :=
      IdentifierPool.dequeue_handsOut valid.lastIndex inRange unused
    have absent : (handler.activeTouches.any fun entry => entry.1 = touch.touch) = false := by
      rw [any_eq_false]
      intro entry member same
      exact isNew (of_decide_eq_true same ▸ mem_map_of_mem member)
    have placed : emplace handler.activeTouches touch.touch (createTouchWithUITouch touch identifier) =
        handler.activeTouches ++ [(touch.touch, createTouchWithUITouch touch identifier)] := by
      rw [emplace, absent, if_neg Bool.false_ne_true]
    rw [RCTSurfaceTouchHandler.registerTouches, dequeued]
    dsimp only
    rw [placed]
    refine ih (valid.register isNew handsOut) distinctRest ?_ ?_
    · intro other member known
      rw [map_append, map_singleton, mem_append, mem_singleton] at known
      rcases known with old | same
      · exact new other (mem_cons_of_mem touch member) old
      · have isTouch : other.touch = touch.touch := same
        exact differs (isTouch ▸ mem_map_of_mem member)
    · rw [length_append, length_singleton]
      omega

theorem updateTouch_keeps (activeTouches : List (T × ActiveTouch Emitter))
    (touch : UITouch T Emitter) :
    (updateTouch activeTouches touch).map (fun entry =>
        (entry.1, entry.2.touch.identifier, entry.2.eventEmitter)) =
      activeTouches.map fun entry => (entry.1, entry.2.touch.identifier, entry.2.eventEmitter) := by
  rw [updateTouch, List.map_map]
  refine map_congr_left fun entry _ => ?_
  simp only [comp]
  split <;> rfl

theorem updateTouches_keeps (touches : List (UITouch T Emitter)) :
    (handler.updateTouches touches).activeTouches.map (fun entry =>
        (entry.1, entry.2.touch.identifier, entry.2.eventEmitter)) =
      handler.activeTouches.map fun entry =>
        (entry.1, entry.2.touch.identifier, entry.2.eventEmitter) := by
  rw [updateTouches]
  generalize handler.activeTouches = activeTouches
  induction touches generalizing activeTouches with
  | nil => rfl
  | cons touch _ ih =>
    rw [foldl_cons, ih, updateTouch_keeps]

theorem Valid.updateTouches (valid : handler.Valid) (touches : List (UITouch T Emitter)) :
    (handler.updateTouches touches).Valid := by
  have keeps := @updateTouches_keeps T Emitter handler _ touches
  have keys : (handler.updateTouches touches).activeTouches.map Prod.fst =
      handler.activeTouches.map Prod.fst := by
    simpa [List.map_map, comp_def] using congrArg (List.map Prod.fst) keeps
  have same : (handler.updateTouches touches).identifiers = handler.identifiers := by
    simpa [identifiers, List.map_map, comp_def] using
      congrArg (List.map fun entry => entry.2.1) keeps
  constructor
  · exact keys ▸ valid.keys
  · exact same ▸ valid.distinct
  · exact same ▸ valid.inRange
  · exact same ▸ valid.usage
  · exact valid.lastIndex

theorem Valid.unregisterTouch (valid : handler.Valid) (touch : UITouch T Emitter) :
    (handler.unregisterTouch touch).Valid := by
  unfold RCTSurfaceTouchHandler.unregisterTouch
  split
  · exact valid
  next entry found =>
    have member := mem_of_find?_eq_some found
    have isTouch : entry.1 = touch.touch := by simpa using find?_some found
    have sublist : (handler.activeTouches.filter (·.1 ≠ touch.touch)).Sublist
        handler.activeTouches := filter_sublist
    -- Another entry has another identifier, and only that entry has this touch.
    have others : ∀ identifier, identifier ∈ (handler.activeTouches.filter
        (·.1 ≠ touch.touch)).map (fun other => other.2.touch.identifier) ↔
          identifier ∈ handler.identifiers ∧ identifier ≠ entry.2.touch.identifier := by
      intro identifier
      constructor
      · intro left
        obtain ⟨other, isLeft, rfl⟩ := mem_map.mp left
        obtain ⟨isOther, differs⟩ := mem_filter.mp isLeft
        refine ⟨mem_map_of_mem isOther, fun same => ?_⟩
        have isEntry := inj_on_of_nodup_map valid.distinct isOther member same
        subst isEntry
        exact absurd isTouch (of_decide_eq_true differs)
      · rintro ⟨known, differs⟩
        obtain ⟨other, isOther, rfl⟩ := mem_map.mp known
        refine mem_map.mpr ⟨other, mem_filter.mpr ⟨isOther, ?_⟩, rfl⟩
        refine decide_eq_true fun same => differs ?_
        rw [inj_on_of_nodup_map valid.keys isOther member (same.trans isTouch.symm)]
    constructor
    · exact valid.keys.sublist (sublist.map _)
    · exact valid.distinct.sublist (sublist.map _)
    · exact fun identifier left => valid.inRange identifier ((sublist.map _).subset left)
    · intro identifier
      rw [identifiers]
      dsimp only [IdentifierPool.enqueue]
      rw [others]
      by_cases same : identifier = entry.2.touch.identifier
      · simp [same]
      · rw [update_of_ne same, valid.usage]
        simp [same]
    · exact valid.lastIndex

theorem Valid.unregisterTouches (valid : handler.Valid) (touches : List (UITouch T Emitter)) :
    (handler.unregisterTouches touches).Valid := by
  induction touches generalizing handler with
  | nil => exact valid
  | cons touch _ ih => exact ih (valid.unregisterTouch touch)

theorem mem_unregisterTouches {touches : List (UITouch T Emitter)}
    {entry : T × ActiveTouch Emitter} :
    entry ∈ (handler.unregisterTouches touches).activeTouches ↔
      entry ∈ handler.activeTouches ∧ entry.1 ∉ touches.map UITouch.touch := by
  induction touches generalizing handler with
  | nil => simp [unregisterTouches]
  | cons touch _ ih =>
    rw [unregisterTouches, foldl_cons, ← unregisterTouches, ih, map_cons, mem_cons, not_or]
    have one : entry ∈ (handler.unregisterTouch touch).activeTouches ↔
        entry ∈ handler.activeTouches ∧ entry.1 ≠ touch.touch := by
      unfold RCTSurfaceTouchHandler.unregisterTouch
      split
      next missing =>
        rw [find?_eq_none] at missing
        exact ⟨fun member => ⟨member, fun same => missing entry member (decide_eq_true same)⟩,
          And.left⟩
      next =>
        simp
    rw [one, and_assoc]

/-! ### Which touches a callback is about -/

def Concerns : SurfaceTouchCallback T Emitter → T → Prop
  | .touchesBegan touches, touch | .touchesMoved touches, touch | .touchesEnded touches, touch
  | .touchesCancelled touches, touch => touch ∈ touches.map UITouch.touch
  | .reset, _ => True

def eventTypeOf : SurfaceTouchCallback T Emitter → RCTTouchEventType
  | .touchesBegan _ => .touchStart
  | .touchesMoved _ => .touchMove
  | .touchesEnded _ => .touchEnd
  | .touchesCancelled _ | .reset => .touchCancel

def isEndish (eventType : RCTTouchEventType) : Bool :=
  eventType = .touchEnd || eventType = .touchCancel

def concerned (handler : RCTSurfaceTouchHandler T Emitter) :
    SurfaceTouchCallback T Emitter → List (ActiveTouch Emitter)
  | .touchesBegan touches | .touchesMoved touches | .touchesEnded touches
  | .touchesCancelled touches => handler.activeTouchesFromTouches touches
  | .reset => handler.activeTouches.map Prod.snd

/-- An event that says of a table, and of the touches that are active afterwards, what it is to say
to its receiver. -/
structure Describes (handler after : RCTSurfaceTouchHandler T Emitter) (isChanged : T → Prop)
    (dispatched : TouchDispatched Emitter) : Prop where
  touches : ∀ touch, touch ∈ dispatched.event.touches ↔ ∃ entry ∈ handler.activeTouches,
    entry.2.touch = touch ∧ entry.2.eventEmitter.isSome ∧ entry.1 ∈ after.activeTouches.map Prod.fst
  changedTouches : ∀ touch, touch ∈ dispatched.event.changedTouches ↔
    ∃ entry ∈ handler.activeTouches,
      entry.2.touch = touch ∧ entry.2.eventEmitter.isSome ∧ isChanged entry.1
  targetTouches : ∀ touch, touch ∈ dispatched.event.targetTouches ↔
    ∃ entry ∈ handler.activeTouches, entry.2.touch = touch ∧
      entry.2.eventEmitter = some dispatched.receiver ∧ entry.1 ∈ after.activeTouches.map Prod.fst

/-- All events of a callback are consistent with the surface. -/
def EventsConsistent [DecidableEq Emitter] (handler : RCTSurfaceTouchHandler T Emitter)
    (callback : SurfaceTouchCallback T Emitter) : Prop :=
  ∀ prepared, handler.prepare callback = some prepared → ∀ dispatched ∈ prepared.dispatches callback,
    Describes prepared (prepared.finish callback) (Concerns callback) dispatched

/-- No touch that ends has an event emitter. -/
def EndsUnheard (handler : RCTSurfaceTouchHandler T Emitter)
    (callback : SurfaceTouchCallback T Emitter) : Prop :=
  isEndish (eventTypeOf callback) = true →
    ∀ entry ∈ handler.activeTouches, Concerns callback entry.1 → entry.2.eventEmitter = none

theorem mem_concerned (valid : handler.Valid) (callback : SurfaceTouchCallback T Emitter)
    {activeTouch : ActiveTouch Emitter} :
    activeTouch ∈ handler.concerned callback ↔
      ∃ entry ∈ handler.activeTouches, entry.2 = activeTouch ∧ Concerns callback entry.1 := by
  have lookedUp : ∀ touches : List (UITouch T Emitter),
      activeTouch ∈ handler.activeTouchesFromTouches touches ↔ ∃ entry ∈ handler.activeTouches,
          entry.2 = activeTouch ∧ entry.1 ∈ touches.map UITouch.touch := by
    intro touches
    rw [activeTouchesFromTouches, mem_filterMap]
    constructor
    · rintro ⟨touch, member, found⟩
      obtain ⟨entry, here, rfl⟩ := Option.map_eq_some_iff.mp found
      have isTouch : entry.1 = touch.touch := by simpa using find?_some here
      exact ⟨entry, mem_of_find?_eq_some here, rfl, isTouch ▸ mem_map_of_mem member⟩
    · rintro ⟨entry, isEntry, rfl, isChanged⟩
      obtain ⟨touch, member, same⟩ := mem_map.mp isChanged
      refine ⟨touch, member, ?_⟩
      cases found : handler.activeTouches.find? (·.1 = touch.touch) with
      | none =>
        rw [find?_eq_none] at found
        exact absurd (decide_eq_true same.symm) (found entry isEntry)
      | some other =>
        have isTouch : other.1 = touch.touch := by simpa using find?_some found
        rw [inj_on_of_nodup_map valid.keys (mem_of_find?_eq_some found) isEntry
          (isTouch.trans same)]
        rfl
  cases callback with
  | touchesBegan touches | touchesMoved touches | touchesEnded touches | touchesCancelled touches =>
    exact lookedUp touches
  | reset =>
    rw [concerned, mem_map]
    simp [Concerns]

variable {callback : SurfaceTouchCallback T Emitter}

theorem stays_iff {entry : T × ActiveTouch Emitter} (member : entry ∈ handler.activeTouches) :
    entry.1 ∈ (handler.finish callback).activeTouches.map Prod.fst ↔
      ¬(isEndish (eventTypeOf callback) = true ∧ Concerns callback entry.1) := by
  have unregistered : ∀ touches : List (UITouch T Emitter),
      entry.1 ∈ (handler.unregisterTouches touches).activeTouches.map Prod.fst ↔
        entry.1 ∉ touches.map UITouch.touch := by
    intro touches
    constructor
    · intro stays
      obtain ⟨_, isOther, same⟩ := mem_map.mp stays
      rw [← same]
      exact (mem_unregisterTouches.mp isOther).2
    · exact fun left => mem_map_of_mem (mem_unregisterTouches.mpr ⟨member, left⟩)
  cases callback with
  | touchesBegan | touchesMoved =>
    exact iff_of_true (mem_map_of_mem member) fun both => Bool.false_ne_true both.1
  | touchesEnded touches | touchesCancelled touches =>
    refine (unregistered touches).trans (not_congr ?_)
    exact (and_iff_right rfl).symm
  | reset =>
    rw [finish, if_pos (length_pos_of_mem member).ne']
    exact iff_of_false not_mem_nil fun not => not ⟨rfl, trivial⟩

theorem Valid.prepare (valid : handler.Valid) (allowed : handler.Allowed callback) :
    ∃ prepared, handler.prepare callback = some prepared ∧ prepared.Valid := by
  cases callback with
  | touchesBegan touches =>
    exact valid.registerTouches allowed.1 allowed.2.1 allowed.2.2
  | touchesMoved touches | touchesEnded touches | touchesCancelled touches =>
    exact ⟨_, rfl, valid.updateTouches touches⟩
  | reset => exact ⟨handler, rfl, valid⟩

theorem Valid.finish (valid : handler.Valid) (callback : SurfaceTouchCallback T Emitter) :
    (handler.finish callback).Valid := by
  cases callback with
  | touchesBegan | touchesMoved => exact valid
  | touchesEnded touches | touchesCancelled touches => exact valid.unregisterTouches touches
  | reset =>
    rw [RCTSurfaceTouchHandler.finish]
    split
    · refine ⟨nodup_nil, nodup_nil, nofun, ?_, valid.lastIndex⟩
      exact fun identifier => iff_of_false Bool.false_ne_true not_mem_nil
    · exact valid

theorem endsUnheard_prepare
    {prepared : RCTSurfaceTouchHandler T Emitter} (isPrepared : handler.prepare callback = some prepared) :
    prepared.EndsUnheard callback ↔ handler.EndsUnheard callback := by
  have updated : ∀ touches : List (UITouch T Emitter), ∀ isChanged : T → Prop,
      (∀ entry ∈ (handler.updateTouches touches).activeTouches, isChanged entry.1 →
        entry.2.eventEmitter = none) ↔
      ∀ entry ∈ handler.activeTouches, isChanged entry.1 → entry.2.eventEmitter = none := by
    intro touches isChanged
    have split : ∀ activeTouches : List (T × ActiveTouch Emitter),
        (∀ entry ∈ activeTouches, isChanged entry.1 → entry.2.eventEmitter = none) ↔
          ∀ kept ∈ activeTouches.map fun entry =>
            (entry.1, entry.2.touch.identifier, entry.2.eventEmitter),
              isChanged kept.1 → kept.2.2 = none := by
      intro activeTouches
      rw [forall_mem_map]
    rw [split, updateTouches_keeps, ← split]
  cases callback with
  | touchesBegan touches =>
    exact iff_of_true (fun ends => absurd ends Bool.false_ne_true)
      fun ends => absurd ends Bool.false_ne_true
  | touchesMoved touches =>
    exact iff_of_true (fun ends => absurd ends Bool.false_ne_true)
      fun ends => absurd ends Bool.false_ne_true
  | touchesEnded touches =>
    cases isPrepared
    exact imp_congr_right fun _ => updated touches _
  | touchesCancelled touches =>
    cases isPrepared
    exact imp_congr_right fun _ => updated touches _
  | reset =>
    cases isPrepared
    rfl

section Events

variable [DecidableEq Emitter]

theorem dispatches_eq (callback : SurfaceTouchCallback T Emitter) : handler.dispatches callback =
      handler.dispatchActiveTouches (handler.concerned callback) (eventTypeOf callback) := by
  cases callback with
  | touchesBegan | touchesMoved | touchesEnded | touchesCancelled => rfl
  | reset =>
    rw [dispatches]
    split
    · rfl
    next empty =>
      have none : handler.activeTouches = [] := length_eq_zero_iff.mp (not_not.mp empty)
      rw [concerned, none]
      rfl

structure Reports (handler : RCTSurfaceTouchHandler T Emitter) (eventType : RCTTouchEventType)
    (isChanged : T → Prop) (dispatched : TouchDispatched Emitter) : Prop where
  receiver : ∃ entry ∈ handler.activeTouches,
    entry.2.eventEmitter = some dispatched.receiver ∧ isChanged entry.1
  touches : ∀ touch, touch ∈ dispatched.event.touches ↔ ∃ entry ∈ handler.activeTouches,
    entry.2.touch = touch ∧ entry.2.eventEmitter.isSome ∧ ¬(isEndish eventType = true ∧ isChanged entry.1)
  changedTouches : ∀ touch, touch ∈ dispatched.event.changedTouches ↔
    ∃ entry ∈ handler.activeTouches,
      entry.2.touch = touch ∧ entry.2.eventEmitter.isSome ∧ isChanged entry.1
  targetTouches : ∀ touch, touch ∈ dispatched.event.targetTouches ↔
    ∃ entry ∈ handler.activeTouches, entry.2.touch = touch ∧
      entry.2.eventEmitter = some dispatched.receiver

variable {callback : SurfaceTouchCallback T Emitter}

section

variable (valid : handler.Valid) {dispatched : TouchDispatched Emitter}
  (isDispatched : dispatched ∈ handler.dispatches callback)
include valid isDispatched

theorem dispatches_report :
    Reports handler (eventTypeOf callback) (Concerns callback) dispatched := by
  have concerns := fun activeTouch => @mem_concerned T Emitter handler _ valid callback activeTouch
  have changed : ∀ touch, touch ∈ (((handler.concerned callback).filter
      (·.eventEmitter.isSome)).map ActiveTouch.touch).foldl insertTouch [] ↔
        ∃ entry ∈ handler.activeTouches,
          entry.2.touch = touch ∧ entry.2.eventEmitter.isSome ∧ Concerns callback entry.1 := by
    have known : ∀ touch, touch ∈ ((handler.concerned callback).filter
        (·.eventEmitter.isSome)).map ActiveTouch.touch ↔ ∃ entry ∈ handler.activeTouches,
          entry.2.touch = touch ∧ entry.2.eventEmitter.isSome ∧ Concerns callback entry.1 := by
      intro touch
      rw [mem_map]
      constructor
      · rintro ⟨activeTouch, member, rfl⟩
        obtain ⟨isConcerned, heard⟩ := mem_filter.mp member
        obtain ⟨entry, isEntry, rfl, isChanged⟩ := (concerns activeTouch).mp isConcerned
        exact ⟨entry, isEntry, rfl, heard, isChanged⟩
      · rintro ⟨entry, isEntry, rfl, heard, isChanged⟩
        exact ⟨entry.2, mem_filter.mpr
          ⟨(concerns entry.2).mpr ⟨entry, isEntry, rfl, isChanged⟩, heard⟩, rfl⟩
    intro touch
    rw [mem_insertTouches (valid.apart fun other member => ?_), ← known]
    · simp
    · obtain ⟨entry, isEntry, same, -⟩ := (known other).mp member
      exact ⟨entry, isEntry, same⟩
  rw [dispatches_eq, dispatchActiveTouches] at isDispatched
  obtain ⟨eventEmitter, isEmitter, rfl⟩ := mem_map.mp isDispatched
  constructor
  · obtain ⟨activeTouch, isConcerned, heard⟩ := mem_filterMap.mp (mem_dedup.mp isEmitter)
    obtain ⟨entry, isEntry, rfl, isChanged⟩ := (concerns activeTouch).mp isConcerned
    exact ⟨entry, isEntry, heard, isChanged⟩
  · intro touch
    refine (valid.mem_touchesOf _).trans (exists_congr fun entry => ?_)
    refine and_congr_right fun isEntry => and_congr_right fun _ => ?_
    rw [Bool.and_eq_true, Bool.not_eq_true', ← Bool.not_eq_true, Bool.and_eq_true, any_eq_true]
    refine and_congr_right fun heard => not_congr (and_congr_right fun _ => ?_)
    -- The touch with the identifier of an entry is the touch of that entry.
    constructor
    · rintro ⟨other, isChanged, same⟩
      obtain ⟨_, isFound, rfl, -, concernsIt⟩ := (changed other).mp isChanged
      rw [← inj_on_of_nodup_map valid.distinct isFound isEntry (of_decide_eq_true same)]
      exact concernsIt
    · intro concernsIt
      exact ⟨entry.2.touch, (changed _).mpr ⟨entry, isEntry, rfl, heard, concernsIt⟩,
        decide_eq_true rfl⟩
  · exact changed
  · intro touch
    refine (valid.mem_touchesOf _).trans ?_
    simp only [decide_eq_true_eq]

theorem describes_iff :
    Describes handler (handler.finish callback) (Concerns callback) dispatched ↔
      isEndish (eventTypeOf callback) = false := by
  have reports := dispatches_report valid isDispatched
  constructor
  · intro describes
    obtain ⟨entry, isEntry, heard, isChanged⟩ := reports.receiver
    by_contra ends
    have isTarget := (reports.targetTouches entry.2.touch).mpr ⟨entry, isEntry, rfl, heard⟩
    obtain ⟨_, isOther, same, -, stays⟩ := (describes.targetTouches _).mp isTarget
    have isEntryToo := inj_on_of_nodup_map valid.distinct isOther isEntry
      (congrArg SurfaceTouch.identifier same)
    subst isEntryToo
    exact (stays_iff isOther).mp stays ⟨Bool.eq_true_of_not_eq_false ends, isChanged⟩
  · intro goesOn
    have all : ∀ entry ∈ handler.activeTouches,
        entry.1 ∈ (handler.finish callback).activeTouches.map Prod.fst := by
      intro entry member
      exact (stays_iff member).mpr fun both => Bool.false_ne_true (goesOn.symm.trans both.1)
    constructor
    · intro touch
      refine (reports.touches touch).trans (exists_congr fun entry => ?_)
      refine and_congr_right fun isEntry => and_congr_right fun _ => and_congr_right fun _ => ?_
      exact iff_of_true (fun both => Bool.false_ne_true (goesOn.symm.trans both.1)) (all entry isEntry)
    · exact reports.changedTouches
    · intro touch
      refine (reports.targetTouches touch).trans (exists_congr fun entry => ?_)
      refine and_congr_right fun isEntry => and_congr_right fun _ => ?_
      exact (and_iff_left (all entry isEntry)).symm

end

theorem dispatches_eq_nil_iff (valid : handler.Valid) (callback : SurfaceTouchCallback T Emitter) :
    handler.dispatches callback = [] ↔ ∀ entry ∈ handler.activeTouches,
      Concerns callback entry.1 → entry.2.eventEmitter = none := by
  rw [dispatches_eq, dispatchActiveTouches, map_eq_nil_iff, eq_nil_iff_forall_not_mem]
  constructor
  · intro none entry isEntry isChanged
    rw [Option.eq_none_iff_forall_ne_some]
    intro eventEmitter heard
    refine none eventEmitter (mem_dedup.mpr (mem_filterMap.mpr ⟨entry.2, ?_, heard⟩))
    exact (mem_concerned valid callback).mpr ⟨entry, isEntry, rfl, isChanged⟩
  · intro unheard eventEmitter isEmitter
    obtain ⟨_, isConcerned, heard⟩ := mem_filterMap.mp (mem_dedup.mp isEmitter)
    obtain ⟨entry, isEntry, rfl, isChanged⟩ := (mem_concerned valid callback).mp isConcerned
    rw [unheard entry isEntry isChanged] at heard
    cases heard

/-- **The events of a callback are consistent exactly if** none of its touches ends with somebody to
tell. -/
theorem eventsConsistent_iff (valid : handler.Valid) (allowed : handler.Allowed callback) :
    handler.EventsConsistent callback ↔ handler.EndsUnheard callback := by
  obtain ⟨prepared, isPrepared, validPrepared⟩ := valid.prepare allowed
  rw [← endsUnheard_prepare isPrepared]
  constructor
  · intro consistent ends
    rw [← dispatches_eq_nil_iff validPrepared, eq_nil_iff_forall_not_mem]
    intro dispatched member
    have goesOn := (describes_iff validPrepared member).mp (consistent prepared isPrepared _ member)
    exact Bool.false_ne_true (goesOn.symm.trans ends)
  · intro unheard other isOther dispatched member
    rw [isPrepared] at isOther
    cases isOther
    refine (describes_iff validPrepared member).mpr (Bool.eq_false_iff.mpr fun ends => ?_)
    rw [(dispatches_eq_nil_iff validPrepared callback).mpr (unheard ends)] at member
    cases member

end Events

end

/-! ### Runs -/

section

variable [DecidableEq T]

theorem Valid.step {handler : RCTSurfaceTouchHandler T Emitter}
    {callback : SurfaceTouchCallback T Emitter} (valid : handler.Valid)
    (allowed : handler.Allowed callback) : ∃ next, handler.step callback = some next ∧ next.Valid := by
  obtain ⟨_, isPrepared, validPrepared⟩ := valid.prepare allowed
  exact ⟨_, by rw [RCTSurfaceTouchHandler.step, isPrepared]; rfl, validPrepared.finish callback⟩

/-- **Identifiers are distinct and in range in every state of a run**, which the pool never stops. Its
events are consistent with the surface exactly if no touch that ends, is cancelled or is reset has an
event emitter. -/
theorem touchEvents_consistent_iff [DecidableEq Emitter]
    {callbacks : List (SurfaceTouchCallback T Emitter)}
    (allowed : Along step Allowed ({} : RCTSurfaceTouchHandler T Emitter) callbacks) :
    (∀ taken rest, callbacks = taken ++ rest →
      ∃ middle, run step ({} : RCTSurfaceTouchHandler T Emitter) taken = some middle ∧
        middle.identifiers.Nodup ∧ ∀ identifier ∈ middle.identifiers, identifier < maxTouches) ∧
    (Along step EventsConsistent ({} : RCTSurfaceTouchHandler T Emitter) callbacks ↔
      Along step EndsUnheard ({} : RCTSurfaceTouchHandler T Emitter) callbacks) := by
  constructor
  · rintro taken rest rfl
    obtain ⟨middle, ran, valid⟩ := run_progress
      (fun _ _ valid allowed => Valid.step valid allowed) initial_valid (along_append allowed).1
    exact ⟨middle, ran, valid.distinct, valid.inRange⟩
  · refine along_iff_of_allowed ?_ (fun _ _ => eventsConsistent_iff) initial_valid allowed
    intro handler callback next valid isAllowed stepped
    obtain ⟨other, isNext, validNext⟩ := Valid.step valid isAllowed
    rw [stepped] at isNext
    cases isNext
    exact validNext

def touchesMove : List (SurfaceTouchCallback ℕ ℕ) :=
  [.touchesBegan [{ touch := 1, eventEmitter := some 7 }, { touch := 2, eventEmitter := some 7 }],
    .touchesMoved [{ touch := 1 }]]

theorem touchEvents_consistent_touchesMove :
    Along step EventsConsistent ({} : RCTSurfaceTouchHandler ℕ ℕ) touchesMove := by
  have allowed : Along step Allowed ({} : RCTSurfaceTouchHandler ℕ ℕ) touchesMove := by
    decide +kernel
  refine (touchEvents_consistent_iff allowed).2.mpr ⟨nofun, fun next _ => ⟨nofun, fun _ _ => trivial⟩⟩

theorem touchEnds_inconsistent : Along step Allowed ({} : RCTSurfaceTouchHandler ℕ ℕ)
      (touchesMove ++ [.touchesEnded [{ touch := 1 }]]) ∧
    (run step ({} : RCTSurfaceTouchHandler ℕ ℕ) touchesMove).map (fun handler =>
        ((handler.updateTouches [{ touch := 1 }]).dispatches (.touchesEnded [{ touch := 1 }])).map
          fun dispatched => (dispatched.event.touches.map SurfaceTouch.identifier,
            dispatched.event.targetTouches.map SurfaceTouch.identifier)) =
      some [([1], [0, 1])] := by
  decide +kernel

end

end RCTSurfaceTouchHandler

end ReactNative


