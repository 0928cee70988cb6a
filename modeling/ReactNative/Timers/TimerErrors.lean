import Mathlib.Algebra.Order.Group.Multiset
import Mathlib.Tactic.Abel
import ReactNative.Timers.TimersCorrectness

/-! The errors of a pass are collected. One of them is thrown out of `callTimers`; the others, and
those of the other passes, get a timeout each that throws again when it is called. -/
namespace ReactNative

open Runs List

variable {F E : Type}

def Timer.rethrown (timer : Timer F E) : Option E :=
  match timer.callback with
  | .rethrow error => some error
  | .user _ | .clearsTimeout _ | .idleTimeout _ => none

namespace TimerSlots

def carried (slots : TimerSlots F E) : Multiset E := slots.live.filterMap Timer.rethrown

theorem carried_allocate (timer : Timer F E) (slots : TimerSlots F E) :
    (slots.allocate timer).carried = (timer.rethrown.toList : Multiset E) + slots.carried := by
  have perm := (slots.live_allocate timer).filterMap Timer.rethrown
  rw [carried, Multiset.coe_eq_coe.mpr perm, carried, Multiset.coe_add]
  cases rethrown : timer.rethrown <;> simp [rethrown]

theorem carried_clear {slots : TimerSlots F E} {timer : Timer F E}
    (unique : (slots.live.map Timer.timerID).Nodup) (member : timer ∈ slots.live) :
    slots.carried = (timer.rethrown.toList : Multiset E) + (slots.clear timer.timerID).carried := by
  have perm := (live_perm_clear unique member).filterMap Timer.rethrown
  rw [carried, Multiset.coe_eq_coe.mpr perm, carried, Multiset.coe_add]
  cases rethrown : timer.rethrown <;> simp [rethrown]

theorem carried_clear_spared {slots : TimerSlots F E} {timerID : Nat}
    (unique : (slots.live.map Timer.timerID).Nodup)
    (spared : ∀ timer ∈ slots.live, timer.timerID = timerID → timer.rethrown = none) :
    (slots.clear timerID).carried = slots.carried := by
  by_cases present : ∃ timer ∈ slots.live, timer.timerID = timerID
  · obtain ⟨timer, member, rfl⟩ := present
    rw [carried_clear unique member, spared timer member rfl]
    simp
  · rw [clear_of_forall_ne]
    intro timer member same
    exact present ⟨timer, member, same⟩

end TimerSlots

namespace JSTimers

/-- Every error that was thrown is out, carried, or among the given ones, and intervals
carry none. -/
structure Balanced (errors : Multiset E) (state : JSTimers F E) : Prop where
  balance : (state.thrown : Multiset E) =
    (state.surfaced : Multiset E) + state.slots.carried + errors
  interval : ∀ timer ∈ state.slots.live, timer.type = .setInterval → timer.rethrown = none

/-- The errors that the pass under way has collected; afterwards the variable is stale. -/
def collected (state : JSTimers F E) : Multiset E :=
  if state.control = .idle then 0 else state.errors

/-- User code does not clear the timeouts that throw again. -/
def SparesErrors (state : JSTimers F E) : TimerEvent F E → Prop
  | .clearTimeout timerID | .clearInterval timerID | .clearImmediate timerID
  | .cancelAnimationFrame timerID | .cancelIdleCallback timerID =>
    ∀ timer ∈ state.slots.live, timer.timerID = timerID → timer.rethrown = none
  | _ => True

variable {state next : JSTimers F E} {errors : Multiset E} {others : List Nat}

namespace Balanced

section

variable {after : JSTimers F E} (balanced : Balanced errors state)
  (thrown : after.thrown = state.thrown) (surfaced : after.surfaced = state.surfaced)
include balanced thrown surfaced

theorem congr (carried : after.slots.carried = state.slots.carried)
    (live : after.slots.live ⊆ state.slots.live) : Balanced errors after := by
  constructor
  · rw [thrown, surfaced, carried]
    exact balanced.balance
  · exact fun timer member => balanced.interval timer (live member)

theorem same (slots : after.slots = state.slots) : Balanced errors after :=
  balanced.congr thrown surfaced (by rw [slots]) (by rw [slots]; exact List.Subset.refl _)

end

theorem allocateCallback (balanced : Balanced errors state) (callback : TimerCallback F E)
    (type : TimerType) (plain : Timer.rethrown ⟨state.guid, type, callback⟩ = none) :
    Balanced errors (state.allocateCallback callback type) := by
  constructor
  · change (state.thrown : Multiset E) =
      (state.surfaced : Multiset E) + (state.slots.allocate _).carried + errors
    rw [TimerSlots.carried_allocate, plain, balanced.balance]
    simp
  · intro timer member repeats
    obtain rfl | old := mem_cons.mp ((state.slots.live_allocate _).mem_iff.mp member)
    · exact plain
    · exact balanced.interval timer old repeats

theorem rethrowOne {error : E} (balanced : Balanced (error ::ₘ errors) state) :
    Balanced errors (state.setTimeout (.rethrow error)) := by
  constructor
  · change (state.thrown : Multiset E) =
      (state.surfaced : Multiset E) + (state.slots.allocate _).carried + errors
    rw [TimerSlots.carried_allocate, balanced.balance]
    change _ = (state.surfaced : Multiset E) + ({error} + state.slots.carried) + errors
    rw [← Multiset.singleton_add]
    abel
  · intro timer member repeats
    obtain rfl | old := mem_cons.mp ((state.slots.live_allocate _).mem_iff.mp member)
    · cases repeats
    · exact balanced.interval timer old repeats

theorem rethrowLater (later : List E) (balanced : Balanced ((later : Multiset E) + errors) state) :
    Balanced errors (state.rethrowLater later) := by
  induction later generalizing state with
  | nil => simpa [JSTimers.rethrowLater] using balanced
  | cons _ later ih =>
    rw [← Multiset.cons_coe, Multiset.cons_add] at balanced
    exact ih balanced.rethrowOne

theorem freeCallback {timerID : Nat} (balanced : Balanced errors state)
    (keeps : KeepsBut others state)
    (spared : ∀ timer ∈ state.slots.live, timer.timerID = timerID → timer.rethrown = none) :
    Balanced errors (state.freeCallback timerID) :=
  balanced.congr rfl rfl (TimerSlots.carried_clear_spared keeps.tracked.unique spared)
    (state.slots.live_clear_sublist timerID).subset

theorem clearTimeoutOf (balanced : Balanced errors state) (keeps : KeepsBut others state)
    (idle : Nat) : Balanced errors (state.clearTimeoutOf idle) := by
  unfold JSTimers.clearTimeoutOf
  split
  case h_1 timeoutID found =>
    refine balanced.congr rfl rfl ?_ (state.slots.live_clear_sublist timeoutID).subset
    apply TimerSlots.carried_clear_spared keeps.tracked.unique
    intro timer member same
    obtain ⟨_, created, number, callback⟩ := keeps.tracked.timeouts idle timeoutID found
    have made := ((keeps.tracked.live_iff timer).mp member).1
    rw [keeps.tracked.inOrder.created_unique made created (same.trans number.symm), Timer.rethrown,
      callback]
  case h_2 => exact balanced

theorem beginCallback {timer : Timer F E} (balanced : Balanced errors state)
    (keeps : KeepsBut others state) (member : timer ∈ state.slots.live) :
    Balanced ((timer.rethrown.toList : Multiset E) + errors) (state.beginCallback timer) := by
  by_cases repeats : timer.type = .setInterval
  · rw [balanced.interval timer member repeats]
    simp only [JSTimers.beginCallback, if_pos repeats]
    rw [Option.toList_none, Multiset.coe_nil, zero_add]
    exact balanced.same rfl rfl rfl
  · simp only [JSTimers.beginCallback, if_neg repeats]
    constructor
    · rw [balanced.balance, TimerSlots.carried_clear keeps.tracked.unique member]
      abel
    · intro other inside
      exact balanced.interval other ((state.slots.live_clear_sublist _).subset inside)

end Balanced

/-! ### What a pass leaves alone -/

theorem endIdleTimeouts_eq (timeouts : List Nat) (state : JSTimers F E) :
    ∃ requestIdleCallbackTimeouts sendIdleEvents, timeouts.foldl endIdleTimeout state =
      { state with requestIdleCallbackTimeouts, sendIdleEvents } := by
  induction timeouts generalizing state with
  | nil => exact ⟨_, _, rfl⟩
  | cons idle timeouts ih =>
    obtain ⟨requestIdleCallbackTimeouts, sendIdleEvents, same⟩ := ih (state.endIdleTimeout idle)
    exact ⟨_, _, same⟩

theorem clearTimeoutOf_eq (state : JSTimers F E) (idle : Nat) :
    ∃ slots requestIdleCallbackTimeouts log, state.log ⊆ log ∧ state.clearTimeoutOf idle =
      { state with slots, requestIdleCallbackTimeouts, log } := by
  unfold clearTimeoutOf
  split
  · exact ⟨_, _, _, subset_cons_self _ _, rfl⟩
  · exact ⟨_, _, _, List.Subset.refl _, rfl⟩

theorem rethrowLater_eq (errors : List E) (state : JSTimers F E) :
    ∃ slots guid log, state.log ⊆ log ∧ state.rethrowLater errors =
      { state with slots, guid, log } := by
  induction errors generalizing state with
  | nil => exact ⟨_, _, _, List.Subset.refl _, rfl⟩
  | cons error errors ih =>
    obtain ⟨slots, guid, log, grows, same⟩ := ih (state.setTimeout (.rethrow error))
    exact ⟨slots, guid, log, fun record member => grows (mem_cons_of_mem _ member), same⟩

def remaining : TimerControl → List Nat
  | .idle => []
  | .loop _ rest | .calling _ rest _ _ | .running _ rest _ => rest

structure GoesOn (rest : List Nat) (before after : JSTimers F E) : Prop where
  active : after.control ≠ .idle
  remaining : remaining after.control = rest
  due : after.due = before.due
  passed : after.passed = before.passed
  log : before.log ⊆ after.log

section

variable (state : JSTimers F E) (driver : TimerDriver) (rest timeouts : List Nat)

theorem resume_goesOn : GoesOn rest state (state.resume driver rest timeouts) := by
  obtain ⟨_, _, same⟩ := endIdleTimeouts_eq timeouts state
  unfold resume
  rw [same]
  exact ⟨by simp, rfl, rfl, rfl, List.Subset.refl _⟩

theorem callCallback_goesOn (timer : Timer F E) :
    GoesOn rest state (state.callCallback driver rest timeouts timer) := by
  unfold callCallback
  split
  case h_1 => exact ⟨by simp, rfl, rfl, rfl, List.Subset.refl _⟩
  case h_2 =>
    obtain ⟨_, _, log, grows, same⟩ := state.clearTimeoutOf_eq timer.timerID
    rw [same]
    exact ⟨by simp, rfl, rfl, rfl, grows⟩
  case h_3 idle _ =>
    split
    · exact ⟨by simp, rfl, rfl, rfl, List.Subset.refl _⟩
    · exact state.resume_goesOn driver rest (idle :: timeouts)
  case h_4 error _ =>
    have goesOn := resume_goesOn { state with errors := state.errors ++ [error] } driver rest timeouts
    exact ⟨goesOn.active, goesOn.remaining, goesOn.due, goesOn.passed, goesOn.log⟩

theorem callTimer_goesOn (timerID : Nat) :
    GoesOn rest state (state.callTimer driver rest timeouts timerID) ∧
      ∀ timer, state.slots.find timerID = some timer →
        .ran timerID timer.callback ∈ (state.callTimer driver rest timeouts timerID).log := by
  unfold callTimer
  split
  case h_1 missing =>
    refine ⟨state.resume_goesOn driver rest timeouts, ?_⟩
    intro timer found
    rw [missing] at found
    cases found
  case h_2 timer found =>
    have goesOn := callCallback_goesOn (state.beginCallback timer) driver rest timeouts timer
    have recorded : .ran timer.timerID timer.callback ∈ (state.beginCallback timer).log :=
      mem_cons_self
    refine ⟨⟨goesOn.active, goesOn.remaining, goesOn.due, goesOn.passed, ?_⟩, ?_⟩
    · exact fun record member => goesOn.log (mem_cons_of_mem _ member)
    · rintro other found'
      cases found.symm.trans found'
      rw [← (TimerSlots.find_some found).2]
      exact goesOn.log recorded

end

/-! ### The balance of a pass -/

def Accounts (state : JSTimers F E) : Prop := Balanced state.collected state

theorem collected_active (active : state.control ≠ .idle) :
    state.collected = state.errors := if_neg active

theorem collected_idle (idle : state.control = .idle) : state.collected = 0 := if_pos idle

theorem resume_accounts (balanced : Balanced (state.errors : Multiset E) state)
    (driver : TimerDriver) (rest timeouts : List Nat) :
    (state.resume driver rest timeouts).Accounts := by
  obtain ⟨_, _, same⟩ := endIdleTimeouts_eq timeouts state
  unfold resume
  rw [same]
  exact balanced.same rfl rfl rfl

theorem callCallback_accounts {timer : Timer F E}
    (balanced : Balanced ((timer.rethrown.toList : Multiset E) + (state.errors : Multiset E)) state)
    (keeps : KeepsBut others state) (driver : TimerDriver) (rest timeouts : List Nat) :
    (state.callCallback driver rest timeouts timer).Accounts := by
  unfold callCallback
  rw [Timer.rethrown] at balanced
  split <;> rename_i callback <;> rw [callback] at balanced
  case h_4 error =>
    -- The error moves from the timeout to the collected ones.
    have moved : ((some error).toList : Multiset E) + (state.errors : Multiset E) =
        ((state.errors ++ [error] : List E) : Multiset E) := by
      exact Multiset.coe_eq_coe.mpr perm_append_comm
    rw [moved] at balanced
    apply resume_accounts
    exact balanced.same rfl rfl rfl
  case h_1 => exact balanced.same rfl rfl rfl
  case h_2 =>
    have cleared := balanced.clearTimeoutOf keeps timer.timerID
    obtain ⟨_, _, _, -, same⟩ := state.clearTimeoutOf_eq timer.timerID
    rw [same] at cleared ⊢
    exact cleared.same rfl rfl rfl
  case h_3 idle =>
    split
    · exact balanced.same rfl rfl rfl
    · exact resume_accounts balanced driver rest (idle :: timeouts)

theorem callTimer_accounts (balanced : Balanced (state.errors : Multiset E) state)
    (keeps : KeepsBut others state) (driver : TimerDriver) (rest timeouts : List Nat)
    (timerID : Nat) : (state.callTimer driver rest timeouts timerID).Accounts := by
  unfold callTimer
  split
  · exact resume_accounts balanced driver rest timeouts
  case h_2 timer found =>
    obtain ⟨member, -⟩ := TimerSlots.find_some found
    have begun := balanced.beginCallback keeps member
    have still : KeepsBut others (state.beginCallback timer) :=
      KeepsBut.beginCallback member (keeps.mono (subset_cons_self _ _))
    exact callCallback_accounts begun still driver rest timeouts

theorem finishPass_accounts (balanced : Balanced (state.errors : Multiset E) state)
    (driver : TimerDriver) : (state.finishPass driver).Accounts := by
  have later : ∀ before : JSTimers F E, Balanced (state.errors : Multiset E) before →
      Balanced 0 (before.rethrowLater state.errors) := by
    intro before balanced
    apply Balanced.rethrowLater
    rwa [add_zero]
  cases driver with
  | callTimers =>
    simp only [finishPass]
    split
    case h_1 none =>
      rw [none] at balanced
      exact balanced.same rfl rfl rfl
    case h_2 error errors some =>
      rw [some, ← Multiset.cons_coe, ← Multiset.singleton_add, add_comm] at balanced
      have left := balanced.rethrowLater errors
      obtain ⟨_, _, _, -, same⟩ := rethrowLater_eq errors state
      rw [same] at left ⊢
      refine ⟨?_, left.interval⟩
      have balance := left.balance
      rw [show (state.thrown : Multiset E) = _ from balance, ← Multiset.coe_add,
        Multiset.coe_singleton]
      abel
  | callIdleCallbacks =>
    exact (later state.stopIdleEvents (balanced.same rfl rfl rfl)).same rfl rfl rfl
  | callImmediates =>
    simp only [finishPass]
    split
    · exact (later state balanced).same rfl rfl rfl
    · exact balanced.same rfl rfl rfl

/-! ### Runs -/

variable {event : TimerEvent F E}

theorem operate_frame (operated : state.operate event = some next) :
    next.errors = state.errors ∧ next.due = state.due ∧ next.passed = state.passed ∧
      state.log ⊆ next.log := by
  have cleared : ∀ timerID, state.log ⊆ (state.freeCallback timerID).log := by
    intro timerID
    simp only [freeCallback]
    split
    · exact subset_cons_self _ _
    · exact List.Subset.refl _
  cases event <;> cases operated
  case setTimeout => exact ⟨rfl, rfl, rfl, subset_cons_self _ _⟩
  case setInterval => exact ⟨rfl, rfl, rfl, subset_cons_self _ _⟩
  case setImmediate => exact ⟨rfl, rfl, rfl, subset_cons_self _ _⟩
  case requestAnimationFrame => exact ⟨rfl, rfl, rfl, subset_cons_self _ _⟩
  case requestIdleCallback func timeout =>
    cases timeout with
    | false => exact ⟨rfl, rfl, rfl, subset_cons_self _ _⟩
    | true =>
      refine ⟨rfl, rfl, rfl, ?_⟩
      exact fun record member => mem_cons_of_mem _ (mem_cons_of_mem _ member)
  case clearTimeout timerID => exact ⟨rfl, rfl, rfl, cleared timerID⟩
  case clearInterval timerID => exact ⟨rfl, rfl, rfl, cleared timerID⟩
  case clearImmediate timerID => exact ⟨rfl, rfl, rfl, cleared timerID⟩
  case cancelAnimationFrame timerID => exact ⟨rfl, rfl, rfl, cleared timerID⟩
  case cancelIdleCallback timerID =>
    simp only [cancelIdleCallback]
    obtain ⟨_, _, log, grows, same⟩ := clearTimeoutOf_eq { state.freeCallback timerID with
      requestIdleCallbacks := (state.freeCallback timerID).requestIdleCallbacks.erase timerID } timerID
    rw [same]
    exact ⟨rfl, rfl, rfl, fun record member => grows (cleared timerID member)⟩

theorem operate_balanced (balanced : Balanced errors state)
    (keeps : KeepsBut others state) (spares : state.SparesErrors event)
    (operated : state.operate event = some next) : Balanced errors next := by
  cases event <;> cases operated
  case setTimeout func => exact balanced.allocateCallback _ _ rfl
  case setInterval func => exact balanced.allocateCallback _ _ rfl
  case setImmediate func =>
    exact (balanced.allocateCallback (.user func) .setImmediate rfl).same rfl rfl rfl
  case requestAnimationFrame func => exact balanced.allocateCallback _ _ rfl
  case requestIdleCallback func timeout =>
    cases timeout with
    | false =>
      exact (balanced.allocateCallback (.user func) .requestIdleCallback rfl).same rfl rfl rfl
    | true =>
      have first := balanced.allocateCallback (.clearsTimeout func) .requestIdleCallback rfl
      have second := first.allocateCallback (.idleTimeout state.guid) .setTimeout rfl
      exact second.same rfl rfl rfl
  case clearTimeout timerID => exact balanced.freeCallback keeps spares
  case clearInterval timerID => exact balanced.freeCallback keeps spares
  case clearImmediate timerID => exact (balanced.freeCallback keeps spares).same rfl rfl rfl
  case cancelAnimationFrame timerID => exact balanced.freeCallback keeps spares
  case cancelIdleCallback timerID =>
    obtain ⟨freed, gone⟩ := keeps.freeCallback timerID
    have erased := freed.eraseIdle timerID (List.Subset.refl others)
      fun timer member same => absurd same (gone timer member)
    have still : Balanced errors { state.freeCallback timerID with
        requestIdleCallbacks := (state.freeCallback timerID).requestIdleCallbacks.erase timerID } :=
      (balanced.freeCallback keeps spares).same rfl rfl rfl
    exact (still.clearTimeoutOf erased timerID).same rfl rfl rfl

theorem drive_accounts (accounts : state.Accounts) (inv : state.Inv)
    (driven : state.drive event = some next) : next.Accounts := by
  -- One case for each event; between two of them the control says where the pass stands.
  cases event <;> simp only [drive] at driven
  case callTimers timersToCall =>
    split at driven <;> cases driven
    case isTrue ready =>
      rw [Accounts, collected_idle ready.1] at accounts
      exact accounts.same rfl rfl rfl
  case callIdleCallbacks timeRemains =>
    split at driven <;> cases driven
    case isTrue ready =>
      split
      · rw [Accounts, collected_idle ready] at accounts
        exact accounts.same rfl rfl rfl
      · exact accounts
  case callImmediates =>
    split at driven <;> cases driven
    case isTrue ready =>
      rw [Accounts, collected_idle ready] at accounts
      exact accounts.same rfl rfl rfl
  case proceed =>
    split at driven <;> cases driven <;> rename_i control <;>
      rw [Accounts, collected_active (by simp [control])] at accounts
    case h_1 driver => exact finishPass_accounts accounts driver
    case h_2 driver timerID rest =>
      apply callTimer_accounts
      · exact accounts.same rfl rfl rfl
      · exact inv
    case h_3 driver rest timeouts timerID =>
      exact callTimer_accounts accounts inv driver rest timeouts timerID
  case returns =>
    split at driven <;> cases driven
    case h_1 driver rest timeouts control =>
      rw [Accounts, collected_active (by simp [control])] at accounts
      exact resume_accounts accounts driver rest timeouts
  -- A thrown error is collected, so that both sides grow by it.
  case throws error =>
    split at driven <;> cases driven
    case h_1 driver rest timeouts control =>
      rw [Accounts, collected_active (by simp [control])] at accounts
      apply resume_accounts
      refine ⟨?_, accounts.interval⟩
      rw [← Multiset.coe_add, ← Multiset.coe_add, accounts.balance]
      abel
  all_goals cases driven

theorem step_accounts (accounts : state.Accounts) (inv : state.Inv)
    (spares : state.SparesErrors event) (stepped : state.step event = some next) :
    next.Accounts := by
  unfold step at stepped
  split at stepped
  case h_1 operated =>
    split at stepped <;> cases stepped
    have collected : next.collected = state.collected := by
      simp only [JSTimers.collected, operate_control operated, (operate_frame operated).1]
    rw [Accounts, collected]
    exact operate_balanced accounts inv spares operated
  case h_2 => exact drive_accounts accounts inv stepped

/-- Every number of the pass has had its turn or is waiting for it, and whatever was there
at its turn has been called. -/
structure TakesTurns (state : JSTimers F E) : Prop where
  turns : state.due = state.passed.map Prod.fst ++ remaining state.control
  called : ∀ timerID, (timerID, true) ∈ state.passed → ∃ callback, .ran timerID callback ∈ state.log

theorem GoesOn.takesTurns {rest : List Nat} (goesOn : GoesOn rest state next)
    (turns : state.due = state.passed.map Prod.fst ++ rest)
    (called : ∀ timerID, (timerID, true) ∈ state.passed →
      ∃ callback, .ran timerID callback ∈ next.log) : next.TakesTurns := by
  constructor
  · rw [goesOn.due, goesOn.passed, goesOn.remaining]
    exact turns
  · rw [goesOn.passed]
    exact called

theorem TakesTurns.goesOn {rest : List Nat} (takesTurns : state.TakesTurns)
    (goesOn : GoesOn rest state next) (same : remaining state.control = rest) :
    next.TakesTurns := by
  apply goesOn.takesTurns
  · rw [← same]
    exact takesTurns.turns
  · intro timerID passed
    obtain ⟨callback, ran⟩ := takesTurns.called timerID passed
    exact ⟨callback, goesOn.log ran⟩

theorem finishPass_takesTurns {driver : TimerDriver} (turns : state.due = state.passed.map Prod.fst)
    (called : ∀ timerID, (timerID, true) ∈ state.passed →
      ∃ callback, .ran timerID callback ∈ state.log) : (state.finishPass driver).TakesTurns := by
  have ends : ∀ (before : JSTimers F E) (errors surfaced : List E), before.log = state.log →
      before.due = state.due → before.passed = state.passed →
      TakesTurns { before.rethrowLater errors with control := .idle, surfaced } := by
    intro before errors surfaced log due passed
    obtain ⟨_, _, _, grows, same⟩ := rethrowLater_eq errors before
    rw [same]
    constructor
    · change before.due = before.passed.map Prod.fst ++ []
      rw [due, passed, append_nil, turns]
    · intro timerID member
      rw [passed] at member
      obtain ⟨callback, ran⟩ := called timerID member
      exact ⟨callback, grows (log ▸ ran)⟩
  cases driver with
  | callTimers =>
    simp only [finishPass]
    split
    · exact ends state [] state.surfaced rfl rfl rfl
    · exact ends state _ _ rfl rfl rfl
  | callIdleCallbacks =>
    have done := ends state.stopIdleEvents state.errors
      (state.stopIdleEvents.rethrowLater state.errors).surfaced rfl rfl rfl
    exact done
  | callImmediates =>
    simp only [finishPass]
    split
    · exact ends state state.errors (state.rethrowLater state.errors).surfaced rfl rfl rfl
    · -- Immediates that were set meanwhile are due as well.
      exact ⟨by rw [turns]; rfl, called⟩

theorem drive_takesTurns (takesTurns : state.TakesTurns)
    (driven : state.drive event = some next) : next.TakesTurns := by
  -- A pass starts with everything due ahead of it.
  have started : ∀ (driver : TimerDriver) (due : List Nat),
      (state.startPass driver due).TakesTurns := by
    intro driver due
    constructor
    · rfl
    · nofun
  obtain ⟨turns, called⟩ := takesTurns
  -- One case for each event; only `proceed` takes a turn.
  cases event <;> simp only [drive] at driven
  case callTimers timersToCall =>
    split at driven <;> cases driven
    exact started .callTimers timersToCall
  case callIdleCallbacks timeRemains =>
    split at driven <;> cases driven
    split
    · obtain ⟨turns, called⟩ := started .callIdleCallbacks state.requestIdleCallbacks
      exact ⟨turns, called⟩
    · exact ⟨turns, called⟩
  case callImmediates =>
    split at driven <;> cases driven
    obtain ⟨turns, called⟩ := started .callImmediates state.immediates
    exact ⟨turns, called⟩
  case proceed =>
    split at driven <;> cases driven <;> rename_i control <;> rw [control] at turns
    case h_1 driver =>
      rw [remaining, append_nil] at turns
      exact finishPass_takesTurns turns called
    case h_2 driver timerID rest =>
      have turn := callTimer_goesOn { state with
        passed := state.passed ++ [(timerID, (state.slots.find timerID).isSome)] }
        driver rest [] timerID
      apply turn.1.takesTurns
      · simpa [remaining] using turns
      · intro other member
        obtain earlier | now := mem_append.mp member
        · obtain ⟨callback, ran⟩ := called other earlier
          exact ⟨callback, turn.1.log ran⟩
        · -- The turn of a timer that is there is a call.
          obtain ⟨rfl, present⟩ := Prod.mk.inj (mem_singleton.mp now)
          obtain ⟨timer, found⟩ := Option.isSome_iff_exists.mp present.symm
          exact ⟨timer.callback, turn.2 timer found⟩
    case h_3 driver rest timeouts timerID =>
      have goesOn := (state.callTimer_goesOn driver rest timeouts timerID).1
      exact TakesTurns.goesOn ⟨by rw [control]; exact turns, called⟩ goesOn (by rw [control]; rfl)
  case returns =>
    split at driven <;> cases driven
    case h_1 driver rest timeouts control =>
      have goesOn := state.resume_goesOn driver rest timeouts
      exact TakesTurns.goesOn ⟨turns, called⟩ goesOn (by rw [control]; rfl)
  case throws error =>
    split at driven <;> cases driven
    case h_1 driver rest timeouts control =>
      have goesOn := resume_goesOn { state with
        errors := state.errors ++ [error]
        thrown := state.thrown ++ [error] } driver rest timeouts
      rw [control] at turns
      apply goesOn.takesTurns turns
      intro timerID passed
      obtain ⟨callback, ran⟩ := called timerID passed
      exact ⟨callback, goesOn.log ran⟩
  all_goals cases driven

theorem step_takesTurns (takesTurns : state.TakesTurns)
    (stepped : state.step event = some next) : next.TakesTurns := by
  unfold step at stepped
  split at stepped
  case h_1 operated =>
    split at stepped <;> cases stepped
    obtain ⟨-, due, passed, grows⟩ := operate_frame operated
    constructor
    · rw [due, passed, operate_control operated]
      exact takesTurns.turns
    · rw [passed]
      intro timerID member
      obtain ⟨callback, ran⟩ := takesTurns.called timerID member
      exact ⟨callback, grows ran⟩
  case h_2 => exact drive_takesTurns takesTurns stepped

/-- What becomes of exceptions, and of the other timers of a pass. -/
structure LosesNoError (state : JSTimers F E) : Prop where
  /-- Between the calls of native every error that was thrown is out or carried by a timeout,
  and that as often as it was thrown. -/
  accounted : state.control = .idle →
    (state.thrown : Multiset E) = (state.surfaced : Multiset E) + state.slots.carried
  /-- A pass is over when every number has had its turn. -/
  complete : state.control = .idle → state.passed.map Prod.fst = state.due
  /-- A timer that is there at its turn is called. -/
  turn : ∀ driver timerID rest timer next, state.control = .loop driver (timerID :: rest) →
    timer ∈ state.slots.live → timer.timerID = timerID → state.step .proceed = some next →
    (timerID, true) ∈ next.passed ∧ .ran timerID timer.callback ∈ next.log
  called : ∀ timerID, (timerID, true) ∈ state.passed → ∃ callback, .ran timerID callback ∈ state.log

theorem proceed_calls (inv : state.Inv) {driver : TimerDriver} {rest : List Nat}
    {timer : Timer F E} (control : state.control = .loop driver (timer.timerID :: rest))
    (member : timer ∈ state.slots.live) (stepped : state.step .proceed = some next) :
    (timer.timerID, true) ∈ next.passed ∧ .ran timer.timerID timer.callback ∈ next.log := by
  have found : state.slots.find timer.timerID = some timer := by
    cases lookup : state.slots.find timer.timerID with
    | none => exact absurd rfl (TimerSlots.find_none lookup timer member)
    | some other =>
      obtain ⟨inside, same⟩ := TimerSlots.find_some lookup
      exact congrArg some (inv.tracked.inOrder.created_unique
        ((inv.tracked.live_iff other).mp inside).1 ((inv.tracked.live_iff timer).mp member).1 same)
  have turn := callTimer_goesOn { state with
    passed := state.passed ++ [(timer.timerID, (state.slots.find timer.timerID).isSome)] }
    driver rest [] timer.timerID
  rw [control] at turn
  simp only [step, operate, drive, control] at stepped
  cases stepped
  refine ⟨?_, turn.2 timer found⟩
  rw [turn.1.passed]
  simp [found]

/-- **No exception is lost** in any state of a run whose user code spares the timeouts that
throw again. -/
theorem run_losesNoError {events : List (TimerEvent F E)}
    (spares : Along step SparesErrors {} events) (ran : run step {} events = some state) :
    state.LosesNoError := by
  have start : ({} : JSTimers F E).Inv ∧ ({} : JSTimers F E).Accounts ∧
      ({} : JSTimers F E).TakesTurns := by
    refine ⟨start_inv, ⟨rfl, ?_⟩, rfl, ?_⟩
    · nofun
    · nofun
  have keeps : ∀ (before : JSTimers F E) (event : TimerEvent F E) (next : JSTimers F E),
      before.Inv ∧ before.Accounts ∧ before.TakesTurns → before.SparesErrors event →
      before.step event = some next → next.Inv ∧ next.Accounts ∧ next.TakesTurns := by
    rintro before event next ⟨inv, accounts, takesTurns⟩ spared stepped
    exact ⟨step_inv inv stepped, step_accounts accounts inv spared stepped,
      step_takesTurns takesTurns stepped⟩
  obtain ⟨inv, accounts, takesTurns⟩ := run_induction keeps start spares ran
  refine ⟨?_, ?_, ?_, takesTurns.called⟩
  · intro idle
    have balance := accounts.balance
    rwa [collected_idle idle, add_zero] at balance
  · intro idle
    have turns := takesTurns.turns
    rw [idle, remaining, append_nil] at turns
    exact turns.symm
  · rintro driver timerID rest timer next control member rfl stepped
    exact proceed_calls inv control member stepped

def sampleErrors : List (TimerEvent String String) :=
  [.setTimeout "first", .setTimeout "second", .setImmediate "third",
    .callTimers [1, 2], .proceed, .throws "one", .proceed, .throws "two", .proceed,
    .callImmediates, .proceed, .throws "three", .proceed,
    .callTimers [4, 5], .proceed, .proceed, .proceed]

theorem run_losesNoError_rescheduled :
    ∃ state, run step {} sampleErrors = some state ∧ state.control = .idle ∧
      state.surfaced = ["one", "two"] ∧ state.thrown = ["one", "two", "three"] ∧
      state.LosesNoError := by
  refine ⟨_, rfl, rfl, rfl, rfl, @run_losesNoError String String _ sampleErrors ?_ rfl⟩
  repeat refine along_cons trivial rfl ?_
  exact trivial

end JSTimers

end ReactNative

