import ReactNative.Foundation.Runs
import ReactNative.Timers.TimerHistory

/-! Every operation finds its timer by number, so that a slot that is used again does no harm. -/
namespace ReactNative

open Runs List

variable {F E : Type}

namespace JSTimers

/-- The numbers whose turn in a pass over idle callbacks is still to come. -/
def awaited : TimerDriver → List Nat → List Nat
  | .callIdleCallbacks, rest => rest
  | .callTimers, _ | .callImmediates, _ => []

/-- The idle callbacks that will be called before the module is left again. -/
def passing : TimerControl → List Nat
  | .idle => []
  | .loop driver rest | .running driver rest _ => awaited driver rest
  | .calling driver rest _ timerID => timerID :: awaited driver rest

/-- Slots and records agree; idle callbacks are on the list, or among the given numbers;
native sends idle events while the list is not empty. -/
structure Keeps (slots : TimerSlots F E) (log : List (TimerRecord F E)) (guid : Nat)
    (timeouts : AList (fun _ : Nat => Nat)) (idle : List Nat) (sends : Bool)
    (others : List Nat) : Prop where
  tracked : Tracked slots log guid timeouts
  listed : ∀ timer ∈ slots.live, timer.type = .requestIdleCallback →
    timer.timerID ∈ idle ∨ timer.timerID ∈ others
  sending : idle ≠ [] → sends = true

def KeepsBut (others : List Nat) (state : JSTimers F E) : Prop :=
  Keeps state.slots state.log state.guid state.requestIdleCallbackTimeouts
    state.requestIdleCallbacks state.sendIdleEvents others

def Inv (state : JSTimers F E) : Prop := KeepsBut (passing state.control) state

variable {state next : JSTimers F E} {others : List Nat}

namespace KeepsBut

theorem mono {more : List Nat} (keeps : KeepsBut others state) (subset : others ⊆ more) :
    KeepsBut more state := by
  refine ⟨keeps.tracked, ?_, keeps.sending⟩
  intro timer member idle
  obtain listed | other := keeps.listed timer member idle
  · exact .inl listed
  · exact .inr (subset other)

/-! ### Setting and clearing -/

section

variable (keeps : KeepsBut others state)
include keeps

theorem allocateCallback (callback : TimerCallback F E) (type : TimerType)
    (notIdle : type ≠ .requestIdleCallback) :
    KeepsBut others (state.allocateCallback callback type) := by
  refine ⟨keeps.tracked.allocate rfl, ?_, keeps.sending⟩
  intro timer member idle
  obtain rfl | old := mem_cons.mp ((state.slots.live_allocate _).mem_iff.mp member)
  · exact absurd idle notIdle
  · exact keeps.listed timer old idle

theorem requestIdle (callback : TimerCallback F E) :
    KeepsBut others (state.requestIdle callback) := by
  refine ⟨keeps.tracked.allocate rfl, ?_, ?_⟩
  · intro timer member idle
    obtain rfl | old := mem_cons.mp ((state.slots.live_allocate _).mem_iff.mp member)
    · exact .inl (mem_append_right _ mem_cons_self)
    · obtain listed | other := keeps.listed timer old idle
      · exact .inl (mem_append_left _ listed)
      · exact .inr other
  · by_cases empty : state.requestIdleCallbacks = []
    · simp [JSTimers.requestIdle, empty]
    · simpa [JSTimers.requestIdle, empty] using keeps.sending empty

theorem requestIdleCallback (func : F) (timeout : Bool) :
    KeepsBut others (state.requestIdleCallback func timeout) := by
  cases timeout with
  | false => exact keeps.requestIdle _
  | true =>
    have both := (keeps.requestIdle (.clearsTimeout func)).allocateCallback
      (.idleTimeout state.guid) .setTimeout (by simp)
    refine ⟨{ both.tracked with timeouts := ?_ }, both.listed, both.sending⟩
    intro idle timeoutID found
    by_cases same : idle = state.guid
    · subst same
      rw [show (JSTimers.requestIdleCallback state func true).requestIdleCallbackTimeouts =
        state.requestIdleCallbackTimeouts.insert state.guid (state.guid + 1) from rfl,
        AList.lookup_insert] at found
      cases found
      exact ⟨_, mem_cons_self, rfl, rfl⟩
    · refine both.tracked.timeouts idle timeoutID ?_
      rwa [show (JSTimers.requestIdleCallback state func true).requestIdleCallbackTimeouts =
        state.requestIdleCallbackTimeouts.insert state.guid (state.guid + 1) from rfl,
        AList.lookup_insert_ne same] at found

theorem freeCallback (timerID : Nat) :
    KeepsBut others (state.freeCallback timerID) ∧
      ∀ timer ∈ (state.freeCallback timerID).slots.live, timer.timerID ≠ timerID := by
  have live := @TimerSlots.mem_live_clear F E timerID state.slots keeps.tracked.unique
  refine ⟨⟨?_, ?_, keeps.sending⟩, fun timer member => (live.mp member).2⟩
  · by_cases given : timerID < state.guid
    · have cleared := keeps.tracked.clear given
      simpa only [JSTimers.freeCallback, if_pos given] using cleared
    · -- No timer has a number that has not been given out.
      have same : ∀ timer, timer ∈ (state.slots.clear timerID).live ↔ timer ∈ state.slots.live := by
        intro timer
        rw [live]
        refine ⟨And.left, fun member => ⟨member, ?_⟩⟩
        have := keeps.tracked.live_given member
        omega
      have sublist := state.slots.live_clear_sublist timerID
      simp only [JSTimers.freeCallback, if_neg given]
      exact { keeps.tracked with
        unique := (sublist.map Timer.timerID).nodup keeps.tracked.unique
        live_iff := fun timer => (same timer).trans (keeps.tracked.live_iff timer) }
  · intro timer member idle
    exact keeps.listed timer (live.mp member).1 idle

theorem clearTimeoutOf (idle : Nat) : KeepsBut others (state.clearTimeoutOf idle) := by
  unfold JSTimers.clearTimeoutOf
  split
  case h_1 timeoutID found =>
    have cleared := keeps.tracked.clearTimeout found
    refine ⟨cleared.forget ?_, ?_, keeps.sending⟩
    · intro other otherID lookup
      by_cases same : other = idle
      · rw [same, AList.lookup_erase] at lookup
        cases lookup
      · rwa [AList.lookup_erase_ne same] at lookup
    · intro timer member
      exact keeps.listed timer ((state.slots.live_clear_sublist timeoutID).subset member)
  case h_2 => exact keeps

theorem stopIdleEvents : KeepsBut others state.stopIdleEvents := by
  refine ⟨keeps.tracked, keeps.listed, ?_⟩
  intro left
  have nonempty : state.requestIdleCallbacks ≠ [] := left
  simpa only [JSTimers.stopIdleEvents, if_neg nonempty] using keeps.sending nonempty

theorem eraseIdle (timerID : Nat) {more : List Nat} (subset : others ⊆ more)
    (elsewhere : ∀ timer ∈ state.slots.live, timer.timerID = timerID → timerID ∈ more) :
    KeepsBut more
      { state with requestIdleCallbacks := state.requestIdleCallbacks.erase timerID } := by
  refine ⟨keeps.tracked, ?_, ?_⟩
  · intro timer member idle
    by_cases same : timer.timerID = timerID
    · rw [same]
      exact .inr (elsewhere timer member same)
    · obtain listed | other := keeps.listed timer member idle
      · exact .inl ((mem_erase_of_ne same).mpr listed)
      · exact .inr (subset other)
  · intro left
    apply keeps.sending
    intro empty
    exact left (by simp [empty])

theorem cancelIdleCallback (timerID : Nat) :
    KeepsBut others (state.cancelIdleCallback timerID) := by
  obtain ⟨freed, gone⟩ := keeps.freeCallback timerID
  have erased := freed.eraseIdle timerID (List.Subset.refl others)
    fun timer member same => absurd same (gone timer member)
  exact (erased.clearTimeoutOf timerID).stopIdleEvents

end

/-! ### Calling -/

theorem endIdleTimeout (keeps : KeepsBut others state) (idle : Nat) :
    KeepsBut others (state.endIdleTimeout idle) := by
  apply stopIdleEvents
  refine ⟨keeps.tracked.forget ?_, keeps.listed, keeps.sending⟩
  intro other timeoutID found
  by_cases same : other = idle
  · rw [same, AList.lookup_erase] at found
    cases found
  · rwa [AList.lookup_erase_ne same] at found

theorem endIdleTimeouts (timeouts : List Nat) (keeps : KeepsBut others state) :
    KeepsBut others (timeouts.foldl JSTimers.endIdleTimeout state) := by
  induction timeouts generalizing state with
  | nil => exact keeps
  | cons idle timeouts ih => exact ih (keeps.endIdleTimeout idle)

variable {driver : TimerDriver} {rest : List Nat}

theorem resume (keeps : KeepsBut (awaited driver rest) state) (timeouts : List Nat) :
    (state.resume driver rest timeouts).Inv :=
  keeps.endIdleTimeouts timeouts

theorem beginCallback {timer : Timer F E} (member : timer ∈ state.slots.live)
    (keeps : KeepsBut (timer.timerID :: others) state) :
    KeepsBut others (state.beginCallback timer) := by
  refine ⟨keeps.tracked.run member, ?_, keeps.sending⟩
  intro other inside idle
  have before : other ∈ state.slots.live := by
    simp only [JSTimers.beginCallback] at inside
    split at inside
    · exact inside
    · exact (state.slots.live_clear_sublist _).subset inside
  obtain listed | waits := keeps.listed other before idle
  · exact .inl listed
  · obtain same | later := mem_cons.mp waits
    · -- It would have left its slot.
      have equal := keeps.tracked.inOrder.created_unique
        ((keeps.tracked.live_iff other).mp before).1 ((keeps.tracked.live_iff timer).mp member).1 same
      subst equal
      have oneShot : other.type ≠ .setInterval := by simp [idle]
      simp only [JSTimers.beginCallback, if_neg oneShot] at inside
      exact absurd rfl ((TimerSlots.mem_live_clear keeps.tracked.unique).mp inside).2
    · exact .inr later

theorem callCallback
    (keeps : KeepsBut (awaited driver rest) state) (timeouts : List Nat) (timer : Timer F E) :
    (state.callCallback driver rest timeouts timer).Inv := by
  unfold JSTimers.callCallback
  split
  case h_1 => exact keeps
  case h_2 => exact keeps.clearTimeoutOf timer.timerID
  case h_3 idle _ =>
    split
    · exact keeps.eraseIdle idle (subset_cons_self idle _) fun _ _ _ => mem_cons_self
    · exact keeps.resume (idle :: timeouts)
  case h_4 error _ =>
    have collected : KeepsBut (awaited driver rest)
      { state with errors := state.errors ++ [error] } := keeps
    exact collected.resume timeouts

theorem callTimer {timerID : Nat}
    (keeps : KeepsBut (timerID :: awaited driver rest) state) (timeouts : List Nat) :
    (state.callTimer driver rest timeouts timerID).Inv := by
  unfold JSTimers.callTimer
  split
  case h_1 missing =>
    have without : KeepsBut (awaited driver rest) state := by
      refine ⟨keeps.tracked, ?_, keeps.sending⟩
      intro timer member idle
      have different := TimerSlots.find_none missing timer member
      obtain listed | waits := keeps.listed timer member idle
      · exact .inl listed
      · obtain same | later := mem_cons.mp waits
        · exact absurd same different
        · exact .inr later
    exact without.resume timeouts
  case h_2 timer found =>
    obtain ⟨member, rfl⟩ := TimerSlots.find_some found
    exact (beginCallback member keeps).callCallback timeouts timer

theorem rethrowLater (errors : List E) (keeps : KeepsBut others state) :
    KeepsBut others (state.rethrowLater errors) := by
  induction errors generalizing state with
  | nil => exact keeps
  | cons _ errors ih => exact ih (keeps.allocateCallback _ _ (by simp))

theorem finishPass (keeps : KeepsBut (awaited driver []) state) :
    (state.finishPass driver).Inv := by
  cases driver with
  | callTimers =>
    simp only [JSTimers.finishPass]
    split
    · exact keeps
    case h_2 errors _ => exact keeps.rethrowLater errors
  | callIdleCallbacks => exact keeps.stopIdleEvents.rethrowLater state.errors
  | callImmediates =>
    simp only [JSTimers.finishPass]
    split
    · exact keeps.rethrowLater state.errors
    · exact keeps

end KeepsBut

/-! ### Runs -/

variable {event : TimerEvent F E}

theorem operate_keeps (keeps : KeepsBut others state)
    (operated : state.operate event = some next) : KeepsBut others next := by
  cases event <;> cases operated
  case setTimeout func => exact keeps.allocateCallback _ _ (by simp)
  case setInterval func => exact keeps.allocateCallback _ _ (by simp)
  case setImmediate func =>
    exact keeps.allocateCallback (.user func) .setImmediate (by simp)
  case requestAnimationFrame func => exact keeps.allocateCallback _ _ (by simp)
  case requestIdleCallback func timeout => exact keeps.requestIdleCallback func timeout
  case clearTimeout timerID => exact (keeps.freeCallback timerID).1
  case clearInterval timerID => exact (keeps.freeCallback timerID).1
  case clearImmediate timerID => exact (keeps.freeCallback timerID).1
  case cancelAnimationFrame timerID => exact (keeps.freeCallback timerID).1
  case cancelIdleCallback timerID => exact keeps.cancelIdleCallback timerID

theorem operate_control (operated : state.operate event = some next) :
    next.control = state.control := by
  cases event <;> cases operated
  case requestIdleCallback func timeout => cases timeout <;> rfl
  case cancelIdleCallback timerID =>
    simp only [cancelIdleCallback, clearTimeoutOf]
    split <;> rfl
  all_goals rfl

theorem drive_inv (inv : state.Inv) (driven : state.drive event = some next) : next.Inv := by
  -- One case for each event; the timers awaited by the pass are the ones left out.
  cases event <;> simp only [drive] at driven
  case callTimers timersToCall =>
    split at driven <;> cases driven
    case isTrue ready =>
      rw [Inv, ready.1] at inv
      exact inv.mono (nil_subset _)
  case callIdleCallbacks timeRemains =>
    split at driven <;> cases driven
    case isTrue ready =>
      rw [Inv, ready] at inv
      split
      · -- The whole list is handed to the pass.
        refine ⟨inv.tracked, ?_, fun left => absurd rfl left⟩
        intro timer member idle
        obtain listed | other := inv.listed timer member idle
        · exact .inr listed
        · cases other
      · rw [Inv, ready]
        exact inv
  case callImmediates =>
    split at driven <;> cases driven
    case isTrue ready =>
      rw [Inv, ready] at inv
      exact inv
  case proceed =>
    split at driven <;> cases driven
    case h_1 driver control =>
      rw [Inv, control] at inv
      exact inv.finishPass
    case h_2 driver timerID rest control =>
      rw [Inv, control] at inv
      have turn : KeepsBut (timerID :: awaited driver rest) state :=
        inv.mono (by cases driver <;> simp [passing, awaited])
      apply KeepsBut.callTimer
      exact turn
    case h_3 driver rest timeouts timerID control =>
      rw [Inv, control] at inv
      exact inv.callTimer timeouts
  case returns =>
    split at driven <;> cases driven
    case h_1 driver rest timeouts control =>
      rw [Inv, control] at inv
      exact inv.resume timeouts
  case throws error =>
    split at driven <;> cases driven
    case h_1 driver rest timeouts control =>
      rw [Inv, control] at inv
      apply KeepsBut.resume
      exact inv
  all_goals cases driven

theorem step_inv (inv : state.Inv) (stepped : state.step event = some next) : next.Inv := by
  unfold step at stepped
  split at stepped
  case h_1 operated =>
    split at stepped <;> cases stepped
    rw [Inv, operate_control operated]
    exact operate_keeps inv operated
  case h_2 => exact drive_inv inv stepped

/-- What a timer can rely on. -/
structure FiresCorrectly (state : JSTimers F E) : Prop where
  /-- The numbers of the timers that are waiting differ. -/
  unique : (state.slots.live.map Timer.timerID).Nodup
  /-- No number was given out twice, and whatever ran was a timer that had been set, with
  its own callback, and had neither been cleared nor, as a one-shot timer, run before. -/
  inOrder : InOrder state.log
  /-- Exactly the timers that have been set and have not come to their end are waiting. -/
  live_iff : ∀ timer, timer ∈ state.slots.live ↔
    .created timer ∈ state.log ∧ ¬ Ended state.log timer
  /-- Native sends idle events for the idle callbacks that are waiting, other than those
  that the pass under way will call. -/
  sendsIdleEvents : ∀ timer ∈ state.slots.live, timer.type = .requestIdleCallback →
    timer.timerID ∉ passing state.control → state.sendIdleEvents = true

theorem Inv.firesCorrectly (inv : state.Inv) : state.FiresCorrectly := by
  refine ⟨inv.tracked.unique, inv.tracked.inOrder, inv.tracked.live_iff, ?_⟩
  intro timer member idle notPassing
  obtain listed | passes := inv.listed timer member idle
  · apply inv.sending
    intro empty
    rw [empty] at listed
    cases listed
  · exact absurd passes notPassing

theorem start_inv : ({} : JSTimers F E).Inv := by
  refine ⟨⟨nodup_nil, trivial, ?_, ?_, ?_, ?_⟩, ?_, fun left => absurd rfl left⟩
  · simp [TimerSlots.live]
  · simp
  · simp
  · simp
  · simp [TimerSlots.live]

def sampleTimers : List (TimerEvent String String) :=
  [.setTimeout "first", .requestIdleCallback "idle" true, .callTimers [1, 1], .proceed,
    .clearTimeout 1, .setTimeout "second", .returns, .proceed, .proceed]

end JSTimers

end ReactNative

