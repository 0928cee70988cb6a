import ReactNative.Timers.JSTimers

/-! A timer is in a slot from its creation until it is cleared or, unless it is an interval, called.
-/
namespace ReactNative

open List

variable {F E : Type}

/-! ### Slots -/

namespace TimerSlots

@[simp]
theorem live_some (timer : Timer F E) (slots : TimerSlots F E) :
    live (some timer :: slots) = timer :: live slots := rfl

theorem live_allocate (timer : Timer F E) (slots : TimerSlots F E) :
    (slots.allocate timer).live.Perm (timer :: slots.live) := by
  induction slots with
  | nil => exact List.Perm.refl _
  | cons slot slots ih =>
    cases slot with
    | none => exact List.Perm.refl _
    | some other => exact (ih.cons other).trans (List.Perm.swap timer other (live slots))

theorem live_clear_sublist (timerID : Nat) (slots : TimerSlots F E) :
    (slots.clear timerID).live.Sublist slots.live := by
  induction slots with
  | nil => exact List.Sublist.refl _
  | cons slot slots ih =>
    cases slot with
    | none => exact ih
    | some timer =>
      unfold clear
      split
      · exact sublist_cons_self timer (live slots)
      · exact ih.cons_cons timer

theorem mem_live_clear {timerID : Nat} {slots : TimerSlots F E}
    (unique : (slots.live.map Timer.timerID).Nodup) {timer : Timer F E} :
    timer ∈ (slots.clear timerID).live ↔ timer ∈ slots.live ∧ timer.timerID ≠ timerID := by
  induction slots with
  | nil => simp [clear, live]
  | cons slot slots ih =>
    cases slot with
    | none => exact ih unique
    | some other =>
      rw [live_some, map_cons, nodup_cons] at unique
      obtain ⟨apart, unique⟩ := unique
      unfold clear
      split
      case isTrue same =>
        -- The others have numbers of their own.
        have others : ∀ timer ∈ live slots, timer.timerID ≠ timerID := by
          rintro timer member rfl
          exact apart (same ▸ mem_map_of_mem member)
        constructor
        · intro member
          exact ⟨mem_cons_of_mem other member, others timer member⟩
        · rintro ⟨member, different⟩
          obtain rfl | later := mem_cons.mp member
          · exact absurd same different
          · exact later
      case isFalse different =>
        rw [live_some, live_some, mem_cons, mem_cons, ih unique]
        constructor
        · rintro (rfl | ⟨member, apart⟩)
          · exact ⟨.inl rfl, different⟩
          · exact ⟨.inr member, apart⟩
        · rintro ⟨rfl | member, apart⟩
          · exact .inl rfl
          · exact .inr ⟨member, apart⟩

variable {timerID : Nat} {slots : TimerSlots F E}

theorem clear_of_forall_ne (missing : ∀ timer ∈ slots.live, timer.timerID ≠ timerID) :
    slots.clear timerID = slots := by
  induction slots with
  | nil => rfl
  | cons slot slots ih =>
    cases slot with
    | none => exact congrArg (none :: ·) (ih missing)
    | some other =>
      unfold clear
      rw [if_neg (missing other mem_cons_self)]
      exact congrArg (some other :: ·) (ih fun timer member =>
        missing timer (mem_cons_of_mem other member))

theorem live_perm_clear {timer : Timer F E} (unique : (slots.live.map Timer.timerID).Nodup)
    (member : timer ∈ slots.live) :
    slots.live.Perm (timer :: (slots.clear timer.timerID).live) := by
  induction slots with
  | nil => cases member
  | cons slot slots ih =>
    cases slot with
    | none => exact ih unique member
    | some other =>
      rw [live_some, map_cons, nodup_cons] at unique
      obtain ⟨apart, unique⟩ := unique
      unfold clear
      obtain rfl | later := mem_cons.mp member
      · rw [if_pos rfl]
        exact List.Perm.refl _
      · have different : other.timerID ≠ timer.timerID := by
          intro same
          exact apart (same ▸ mem_map_of_mem later)
        rw [if_neg different]
        exact ((ih unique later).cons other).trans (List.Perm.swap timer other _)

theorem find_some {timer : Timer F E} (found : slots.find timerID = some timer) :
    timer ∈ slots.live ∧ timer.timerID = timerID := by
  induction slots with
  | nil => cases found
  | cons slot slots ih =>
    cases slot with
    | none => exact ih found
    | some other =>
      unfold find at found
      split at found
      case isTrue same =>
        cases found
        exact ⟨mem_cons_self, same⟩
      case isFalse =>
        obtain ⟨member, same⟩ := ih found
        exact ⟨mem_cons_of_mem other member, same⟩

theorem find_none (missing : slots.find timerID = none) :
    ∀ timer ∈ slots.live, timer.timerID ≠ timerID := by
  induction slots with
  | nil =>
    intro timer member
    cases member
  | cons slot slots ih =>
    cases slot with
    | none => exact ih missing
    | some =>
      unfold find at missing
      split at missing
      case isTrue => cases missing
      case isFalse different =>
        intro timer member
        obtain rfl | later := mem_cons.mp member
        · exact different
        · exact ih missing timer later

end TimerSlots

/-! ### Records -/

variable (log : List (TimerRecord F E))

/-- A timer has come to its end: it was cleared, or called and not to be called again. -/
def Ended (timer : Timer F E) : Prop :=
  .cleared timer.timerID ∈ log ∨ (∃ idle, .timeoutCleared timer.timerID idle ∈ log) ∨
    timer.type ≠ .setInterval ∧ ∃ callback, .ran timer.timerID callback ∈ log

/-- The number has been given out. -/
def GivenOut (timerID : Nat) : Prop := ∃ timer, .created timer ∈ log ∧ timer.timerID = timerID

/-- What a record may be, after the ones before it. -/
def Follows : TimerRecord F E → Prop
  | .created timer => ¬ GivenOut log timer.timerID
  | .ran timerID callback =>
    ∃ timer, .created timer ∈ log ∧ timer.timerID = timerID ∧ timer.callback = callback ∧
      ¬ Ended log timer
  | .cleared _ => True
  | .timeoutCleared timeoutID idle =>
    ∃ timer, .created timer ∈ log ∧ timer.timerID = timeoutID ∧ timer.callback = .idleTimeout idle

/-- Numbers are never given out again, a timer runs its own callback, a one-shot timer at
most once, no timer runs after it was cleared, and an idle callback clears no timeout but
its own. -/
def InOrder : List (TimerRecord F E) → Prop
  | [] => True
  | record :: log => Follows log record ∧ InOrder log

theorem InOrder.given_out {log : List (TimerRecord F E)} (inOrder : InOrder log) {timerID : Nat} :
    (∀ callback, .ran timerID callback ∈ log → GivenOut log timerID) ∧
      ∀ idle, .timeoutCleared timerID idle ∈ log → GivenOut log timerID := by
  induction log with
  | nil => simp
  | cons record log ih =>
    obtain ⟨follows, inOrder⟩ := inOrder
    have earlier : GivenOut log timerID → GivenOut (record :: log) timerID := by
      rintro ⟨timer, created, same⟩
      exact ⟨timer, mem_cons_of_mem record created, same⟩
    constructor
    · intro callback member
      obtain rfl | before := mem_cons.mp member
      · obtain ⟨timer, created, same, -⟩ := follows
        exact earlier ⟨timer, created, same⟩
      · exact earlier ((ih inOrder).1 callback before)
    · intro idle member
      obtain rfl | before := mem_cons.mp member
      · obtain ⟨timer, created, same, -⟩ := follows
        exact earlier ⟨timer, created, same⟩
      · exact earlier ((ih inOrder).2 idle before)

theorem InOrder.created_unique {log : List (TimerRecord F E)} (inOrder : InOrder log)
    {first second : Timer F E} (one : .created first ∈ log) (two : .created second ∈ log)
    (same : first.timerID = second.timerID) : first = second := by
  induction log with
  | nil => cases one
  | cons _ log ih =>
    obtain ⟨follows, inOrder⟩ := inOrder
    obtain rfl | before := mem_cons.mp one
    · obtain equal | earlier := mem_cons.mp two
      · injection equal with equal
        exact equal.symm
      · exact absurd ⟨second, earlier, same.symm⟩ follows
    · obtain rfl | earlier := mem_cons.mp two
      · exact absurd ⟨first, before, same⟩ follows
      · exact ih inOrder before earlier

variable {timer : Timer F E}

section

variable {log : List (TimerRecord F E)}

theorem ended_created {other : Timer F E} :
    Ended (.created timer :: log) other ↔ Ended log other := by
  simp [Ended]

theorem ended_cleared {timerID : Nat} :
    Ended (.cleared timerID :: log) timer ↔ Ended log timer ∨ timer.timerID = timerID := by
  simp only [Ended, mem_cons, TimerRecord.cleared.injEq, reduceCtorEq, false_or]
  tauto

theorem ended_timeoutCleared {timeoutID idle : Nat} :
    Ended (.timeoutCleared timeoutID idle :: log) timer ↔
      Ended log timer ∨ timer.timerID = timeoutID := by
  simp only [Ended, mem_cons, TimerRecord.timeoutCleared.injEq, reduceCtorEq, false_or,
    exists_or, exists_and_left]
  tauto

theorem ended_ran {timerID : Nat} {callback : TimerCallback F E} :
    Ended (.ran timerID callback :: log) timer ↔
      Ended log timer ∨ timer.type ≠ .setInterval ∧ timer.timerID = timerID := by
  simp only [Ended, mem_cons, TimerRecord.ran.injEq, reduceCtorEq, false_or, exists_or,
    exists_and_left]
  tauto

end

structure Tracked (slots : TimerSlots F E) (log : List (TimerRecord F E)) (guid : Nat)
    (timeouts : AList (fun _ : Nat => Nat)) : Prop where
  unique : (slots.live.map Timer.timerID).Nodup
  inOrder : InOrder log
  live_iff : ∀ timer, timer ∈ slots.live ↔ .created timer ∈ log ∧ ¬ Ended log timer
  numbered : ∀ timer, .created timer ∈ log → timer.timerID < guid
  cleared : ∀ timerID, .cleared timerID ∈ log → timerID < guid
  timeouts : ∀ idle timeoutID, timeouts.lookup idle = some timeoutID →
    ∃ timer, .created timer ∈ log ∧ timer.timerID = timeoutID ∧ timer.callback = .idleTimeout idle

namespace Tracked

variable {slots : TimerSlots F E} {log : List (TimerRecord F E)} {guid : Nat}
  {timeouts : AList (fun _ : Nat => Nat)}

variable {timer : Timer F E}

section

variable (tracked : Tracked slots log guid timeouts)
include tracked

theorem live_given (member : timer ∈ slots.live) : timer.timerID < guid :=
  tracked.numbered timer ((tracked.live_iff timer).mp member).1

theorem not_ended (fresh : timer.timerID = guid) : ¬ Ended log timer := by
  have given : ¬ GivenOut log timer.timerID := by
    rintro ⟨other, created, same⟩
    have := tracked.numbered other created
    omega
  rintro (cleared | ⟨idle, cleared⟩ | ⟨-, callback, ran⟩)
  · have := tracked.cleared _ cleared
    omega
  · exact given (tracked.inOrder.given_out.2 idle cleared)
  · exact given (tracked.inOrder.given_out.1 callback ran)

theorem allocate (fresh : timer.timerID = guid) :
    Tracked (slots.allocate timer) (.created timer :: log) (guid + 1) timeouts := by
  -- The identifier is new, since those given out are below the counter.
  have given : ¬ GivenOut log timer.timerID := by
    rintro ⟨other, created, same⟩
    have := tracked.numbered other created
    omega
  have live := slots.live_allocate timer
  -- The fields in the order of `Tracked`.
  refine ⟨?_, ⟨given, tracked.inOrder⟩, ?_, ?_, ?_, ?_⟩
  · refine ((live.map Timer.timerID).nodup_iff).mpr (nodup_cons.mpr ⟨?_, tracked.unique⟩)
    intro member
    obtain ⟨other, inside, same⟩ := mem_map.mp member
    have := tracked.live_given inside
    omega
  · intro other
    rw [live.mem_iff, mem_cons, mem_cons, ended_created, tracked.live_iff,
      TimerRecord.created.injEq]
    constructor
    · rintro (rfl | ⟨created, going⟩)
      · exact ⟨.inl rfl, tracked.not_ended fresh⟩
      · exact ⟨.inr created, going⟩
    · rintro ⟨rfl | created, going⟩
      · exact .inl rfl
      · exact .inr ⟨created, going⟩
  · intro other created
    obtain equal | before := mem_cons.mp created
    · injection equal with equal
      subst equal
      omega
    · exact Nat.lt_succ_of_lt (tracked.numbered other before)
  · intro timerID cleared
    obtain equal | before := mem_cons.mp cleared
    · cases equal
    · exact Nat.lt_succ_of_lt (tracked.cleared timerID before)
  · intro idle timeoutID found
    obtain ⟨other, created, same⟩ := tracked.timeouts idle timeoutID found
    exact ⟨other, mem_cons_of_mem _ created, same⟩

theorem record {after : TimerSlots F E} {record : TimerRecord F E} (follows : Follows log record)
    (other : ∀ timer, record ≠ .created timer)
    (bound : ∀ timerID, record = .cleared timerID → timerID < guid)
    (sublist : (after.live).Sublist slots.live)
    (ends : ∀ timer ∈ slots.live, timer ∈ after.live ↔ ¬ Ended (record :: log) timer)
    (lasting : ∀ timer, Ended log timer → Ended (record :: log) timer) :
    Tracked after (record :: log) guid timeouts := by
  have created : ∀ timer, .created timer ∈ record :: log ↔ .created timer ∈ log := by
    intro timer
    rw [mem_cons, or_iff_right (Ne.symm (other timer))]
  refine ⟨?_, ⟨follows, tracked.inOrder⟩, ?_, ?_, ?_, ?_⟩
  · exact (sublist.map Timer.timerID).nodup tracked.unique
  · intro timer
    rw [created]
    constructor
    · intro member
      have before := sublist.subset member
      exact ⟨((tracked.live_iff timer).mp before).1, (ends timer before).mp member⟩
    · rintro ⟨made, going⟩
      have before := (tracked.live_iff timer).mpr ⟨made, fun ended => going (lasting timer ended)⟩
      exact (ends timer before).mpr going
  · intro timer made
    exact tracked.numbered timer ((created timer).mp made)
  · intro timerID cleared
    obtain equal | before := mem_cons.mp cleared
    · exact bound timerID equal.symm
    · exact tracked.cleared timerID before
  · intro idle timeoutID found
    obtain ⟨timer, made, same⟩ := tracked.timeouts idle timeoutID found
    exact ⟨timer, (created timer).mpr made, same⟩

theorem clear {timerID : Nat} (given : timerID < guid) :
    Tracked (slots.clear timerID) (.cleared timerID :: log) guid timeouts := by
  have follows : Follows log (.cleared timerID) := trivial
  apply tracked.record follows (by simp) _ (slots.live_clear_sublist timerID)
  · intro timer member
    rw [TimerSlots.mem_live_clear tracked.unique, ended_cleared]
    have going := ((tracked.live_iff timer).mp member).2
    tauto
  · exact fun timer ended => ended_cleared.mpr (.inl ended)
  · rintro other ⟨⟩
    exact given

theorem clearTimeout {timeoutID idle : Nat} (found : timeouts.lookup idle = some timeoutID) :
    Tracked (slots.clear timeoutID) (.timeoutCleared timeoutID idle :: log) guid timeouts := by
  have follows : Follows log (.timeoutCleared timeoutID idle) :=
    tracked.timeouts idle timeoutID found
  apply tracked.record follows (by simp) (by simp) (slots.live_clear_sublist timeoutID)
  · intro timer member
    rw [TimerSlots.mem_live_clear tracked.unique, ended_timeoutCleared]
    have going := ((tracked.live_iff timer).mp member).2
    tauto
  · exact fun timer ended => ended_timeoutCleared.mpr (.inl ended)

theorem run (member : timer ∈ slots.live) :
    Tracked (if timer.type = .setInterval then slots else slots.clear timer.timerID)
      (.ran timer.timerID timer.callback :: log) guid timeouts := by
  obtain ⟨created, going⟩ := (tracked.live_iff timer).mp member
  -- The number stands for this timer alone, so its type decides for the number.
  have same : ∀ other ∈ slots.live, other.timerID = timer.timerID → other = timer := by
    intro other inside equal
    exact tracked.inOrder.created_unique ((tracked.live_iff other).mp inside).1 created equal
  have follows : Follows log (.ran timer.timerID timer.callback) :=
    ⟨timer, created, rfl, rfl, going⟩
  apply tracked.record follows (by simp) (by simp)
  · split
    · exact List.Sublist.refl _
    · exact slots.live_clear_sublist timer.timerID
  · intro other inside
    have still := ((tracked.live_iff other).mp inside).2
    rw [ended_ran]
    split
    case isTrue interval =>
      refine ⟨fun _ => ?_, fun _ => inside⟩
      rintro (ended | ⟨oneShot, equal⟩)
      · exact still ended
      · rw [same other inside equal] at oneShot
        exact oneShot interval
    case isFalse oneShot =>
      rw [TimerSlots.mem_live_clear tracked.unique]
      constructor
      · rintro ⟨-, different⟩ (ended | ⟨-, equal⟩)
        · exact still ended
        · exact different equal
      · intro continues
        refine ⟨inside, fun equal => continues (.inr ⟨?_, equal⟩)⟩
        rw [same other inside equal]
        exact oneShot
  · exact fun other ended => ended_ran.mpr (.inl ended)

theorem forget {fewer : AList (fun _ : Nat => Nat)}
    (subset : ∀ idle timeoutID, fewer.lookup idle = some timeoutID →
      timeouts.lookup idle = some timeoutID) : Tracked slots log guid fewer :=
  { tracked with
    timeouts := fun idle timeoutID found => tracked.timeouts idle timeoutID
      (subset idle timeoutID found) }

end

end Tracked

end ReactNative
