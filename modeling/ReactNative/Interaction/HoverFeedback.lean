import ReactNative.Interaction.Pressability

/-! `onHoverIn` and `onHoverOut` are called when the pointer enters and leaves, each one perhaps
later, by a timer. Both timers are kept in the field of the first one, and an enter cancels the
field of the second one only. -/
namespace ReactNative

open Runs Function

namespace Pressability

/-- Whether the last feedback was `onHoverIn`. -/
def hoverAfter : Bool → Call → Bool
  | _, .onHoverIn => true
  | _, .onHoverOut => false
  | told, _ => told

variable (self : Pressability)

def toldHoverIn : Bool := self.calls.foldl hoverAfter false

def HoverMatches : Prop := self.timers = [] → self.toldHoverIn = self.isHovered

instance (self : Pressability) : Decidable self.HoverMatches :=
  inferInstanceAs (Decidable (self.timers = [] → self.toldHoverIn = self.isHovered))

def HoverAllowed : PressabilityEvent → Prop
  | .mouseEnter _ | .mouseLeave => True
  | .timer id => ∃ timer ∈ self.timers, timer.id = id
  | .responderGrant _ | .responderMove _ | .responderRelease _ | .responderTerminate _
  | .measured .. | .configure _ | .reset => False

instance (self : Pressability) : ∀ event, Decidable (self.HoverAllowed event)
  | .mouseEnter _ | .mouseLeave => .isTrue trivial
  | .timer id => inferInstanceAs (Decidable (∃ timer ∈ self.timers, timer.id = id))
  | .responderGrant _ | .responderMove _ | .responderRelease _ | .responderTerminate _
  | .measured .. | .configure _ | .reset => .isFalse not_false

/-- The pointer does not enter while a timer is pending. -/
def EntersUnhurried : PressabilityEvent → Prop
  | .mouseEnter isHoverEnabled => isHoverEnabled = true → self.timers = []
  | _ => True

instance (self : Pressability) : ∀ event, Decidable (self.EntersUnhurried event)
  | .mouseEnter isHoverEnabled =>
    inferInstanceAs (Decidable (isHoverEnabled = true → self.timers = []))
  | .responderGrant _ | .responderMove _ | .responderRelease _ | .responderTerminate _
  | .measured .. | .timer _ | .mouseLeave | .configure _ | .reset => .isTrue trivial

def step (clock : ℕ → ℚ) (os : PlatformOS) (self : Pressability) (event : PressabilityEvent) :
    Option Pressability :=
  (self.handle clock os event).toOption

@[simp]
theorem call_toldHoverIn (call : Call) :
    (self.call call).toldHoverIn = hoverAfter self.toldHoverIn call := by
  rw [toldHoverIn, Pressability.call, List.foldl_append]
  rfl

/-! ### The two handlers -/

theorem onMouseEnter_eq {self : Pressability} (given : self.config.onHoverIn = true)
    (noHoverOut : self.delayTimeout .hoverOut = none) :
    self.onMouseEnter true =
      if normalizeDelay self.config.delayHoverIn 0 0 > 0 then
        { self with isHovered := true }.setTimeout .hoverIn .onHoverIn
          (normalizeDelay self.config.delayHoverIn 0 0)
      else { self with isHovered := true }.call .onHoverIn := by
  have same : { self with isHovered := true }.cancelHoverOutDelayTimeout =
      { self with isHovered := true } := by
    simp only [cancelHoverOutDelayTimeout, cancelDelayTimeout, noHoverOut]
  simp only [onMouseEnter, same, given, if_true]

theorem onMouseLeave_eq {self : Pressability} (given : self.config.onHoverOut = true)
    (hovered : self.isHovered = true) {left : Pressability}
    (isLeft : { self with isHovered := false }.cancelHoverInDelayTimeout = left)
    (config : left.config = self.config) :
    self.onMouseLeave =
      if normalizeDelay self.config.delayHoverOut 0 0 > 0 then
        left.setTimeout .hoverIn .onHoverOut (normalizeDelay self.config.delayHoverOut 0 0)
      else left.call .onHoverOut := by
  simp only [onMouseLeave, hovered, if_true, isLeft, config, given]

theorem cancelHoverIn_config :
    { self with isHovered := false }.cancelHoverInDelayTimeout.config = self.config := by
  unfold cancelHoverInDelayTimeout cancelDelayTimeout
  split <;> rfl

/-! ### What is known along a run -/

/-- At most one timer is pending, and the field of `onHoverIn` has it: that one of an enter while the
pointer is inside, or that one of a leave while it is outside. -/
structure Hovers (state : Pressability) : Prop where
  onHoverIn : state.config.onHoverIn = true
  onHoverOut : state.config.onHoverOut = true
  fields : ∀ field, field ≠ .hoverIn → state.delayTimeout field = none
  pending : (state.timers = [] ∧ state.toldHoverIn = state.isHovered) ∨
    ∃ timer, state.timers = [timer] ∧ state.delayTimeout .hoverIn = some timer.id ∧
      timer.id < state.timeouts ∧
      (timer.callback = .onHoverIn ∧ state.isHovered = true ∧
          normalizeDelay state.config.delayHoverIn 0 0 > 0 ∨
        timer.callback = .onHoverOut ∧ state.isHovered = false)

theorem Hovers.matches {self : Pressability} (hovers : self.Hovers) : self.HoverMatches := by
  intro none
  rcases hovers.pending with ⟨-, same⟩ | ⟨_, one, -⟩
  · exact same
  · rw [none] at one
    cases one

theorem initial_hovers {config : PressabilityConfig} (givenIn : config.onHoverIn = true)
    (givenOut : config.onHoverOut = true) : Hovers { config := config } :=
  ⟨givenIn, givenOut, fun _ _ => rfl, .inl ⟨rfl, rfl⟩⟩

theorem Hovers.onMouseEnter {self : Pressability} (hovers : self.Hovers) (idle : self.timers = []) :
    (self.onMouseEnter true).Hovers := by
  rw [onMouseEnter_eq hovers.onHoverIn (hovers.fields .hoverOut (by decide))]
  split
  next delayed =>
    refine ⟨hovers.onHoverIn, hovers.onHoverOut, ?_,
      .inr ⟨⟨self.timeouts, .onHoverIn, normalizeDelay self.config.delayHoverIn 0 0⟩, ?_, ?_,
        Nat.lt_succ_self self.timeouts, .inl ⟨rfl, rfl, delayed⟩⟩⟩
    · intro field other
      exact (update_of_ne other _ _).trans (hovers.fields field other)
    · change self.timers ++ _ = _
      rw [idle, List.nil_append]
    · exact update_self DelayTimeout.hoverIn (some self.timeouts) self.delayTimeout
  next =>
    refine ⟨hovers.onHoverIn, hovers.onHoverOut, hovers.fields, .inl ⟨idle, ?_⟩⟩
    rw [call_toldHoverIn]
    rfl

theorem Hovers.onMouseLeave {self : Pressability} (hovers : self.Hovers) :
    self.onMouseLeave.Hovers := by
  cases hovered : self.isHovered with
  | false =>
    have same : self.onMouseLeave = self := by simp [Pressability.onMouseLeave, hovered]
    rw [same]
    exact hovers
  | true =>
    -- Whatever timer is pending is the one of the enter.
    obtain ⟨left, isLeft, config, outside, idle, fields⟩ : ∃ left,
        { self with isHovered := false }.cancelHoverInDelayTimeout = left ∧
          left.config = self.config ∧ left.isHovered = false ∧ left.timers = [] ∧
          ∀ field, field ≠ .hoverIn → left.delayTimeout field = none := by
      refine ⟨_, rfl, cancelHoverIn_config self, ?_⟩
      unfold cancelHoverInDelayTimeout cancelDelayTimeout
      rcases hovers.pending with ⟨idle, -⟩ | ⟨_, one, held, -⟩
      · split
        · exact ⟨rfl, idle, hovers.fields⟩
        · refine ⟨rfl, ?_, fun field other => ?_⟩
          · rw [idle, List.filter_nil]
          · exact (update_of_ne other _ _).trans (hovers.fields field other)
      · simp only [held]
        refine ⟨trivial, by simp [one], fun field other => ?_⟩
        rw [update_of_ne other]
        exact hovers.fields field other
    rw [onMouseLeave_eq hovers.onHoverOut hovered isLeft config]
    split
    next =>
      refine ⟨config ▸ hovers.onHoverIn, config ▸ hovers.onHoverOut, ?_,
        .inr ⟨⟨left.timeouts, .onHoverOut, normalizeDelay self.config.delayHoverOut 0 0⟩, ?_, ?_,
          Nat.lt_succ_self left.timeouts, .inr ⟨rfl, outside⟩⟩⟩
      · intro field other
        exact (update_of_ne other _ _).trans (fields field other)
      · change left.timers ++ _ = _
        rw [idle, List.nil_append]
      · exact update_self DelayTimeout.hoverIn (some left.timeouts) left.delayTimeout
    next =>
      refine ⟨config ▸ hovers.onHoverIn, config ▸ hovers.onHoverOut, fields, .inl ⟨idle, ?_⟩⟩
      rw [call_toldHoverIn]
      exact outside.symm

variable (clock : ℕ → ℚ) (os : PlatformOS) {next : Pressability}

section

variable {self : Pressability} (hovers : self.Hovers)
include hovers

theorem Hovers.fireTimer {id : ℕ} (fired : self.fireTimer clock os id = .ok next) :
    next.Hovers := by
  unfold Pressability.fireTimer at fired
  split at fired
  · cases fired
    exact hovers
  next timer found =>
    have member := List.mem_of_find?_eq_some found
    have isID : timer.id = id := by simpa using List.find?_some found
    rcases hovers.pending with ⟨idle, -⟩ | ⟨_, one, -, -, outcome⟩
    · rw [idle] at member
      cases member
    · rw [one, List.mem_singleton] at member
      subst member
      have left : self.timers.filter (·.id ≠ id) = [] := by simp [one, isID]
      rcases outcome with ⟨isIn, hovered, -⟩ | ⟨isOut, outside⟩
      · rw [isIn, left] at fired
        cases fired
        exact ⟨hovers.onHoverIn, hovers.onHoverOut, hovers.fields,
          .inl ⟨rfl, (call_toldHoverIn _ _).trans hovered.symm⟩⟩
      · rw [isOut, left] at fired
        cases fired
        exact ⟨hovers.onHoverIn, hovers.onHoverOut, hovers.fields,
          .inl ⟨rfl, (call_toldHoverIn _ _).trans outside.symm⟩⟩

theorem Hovers.step {event : PressabilityEvent} (allowed : self.HoverAllowed event)
    (unhurried : self.EntersUnhurried event) (stepped : self.step clock os event = some next) :
    next.Hovers := by
  cases event with
  | mouseEnter isHoverEnabled =>
    cases stepped
    split
    · cases isHoverEnabled with
      | false => exact hovers
      | true => exact hovers.onMouseEnter (unhurried rfl)
    · exact hovers
  | mouseLeave =>
    cases stepped
    split
    · exact hovers.onMouseLeave
    · exact hovers
  | timer id =>
    cases fired : self.fireTimer clock os id with
    | error =>
      rw [Pressability.step, Pressability.handle, fired] at stepped
      cases stepped
    | ok =>
      rw [Pressability.step, Pressability.handle, fired] at stepped
      cases stepped
      exact hovers.fireTimer clock os fired
  | responderGrant | responderMove | responderRelease | responderTerminate | measured | configure
  | reset => exact absurd allowed not_false

theorem Hovers.reset : self.reset.timers = [] := by
  have fewer : ∀ (field : DelayTimeout) (state : Pressability), state.timers = [] →
      (cancelDelayTimeout field state).timers = [] := by
    intro field state idle
    unfold cancelDelayTimeout
    split
    · exact idle
    · simp [idle]
  have first : self.cancelHoverInDelayTimeout.timers = [] := by
    unfold cancelHoverInDelayTimeout cancelDelayTimeout
    rcases hovers.pending with ⟨idle, -⟩ | ⟨_, one, held, -⟩
    · exact fewer .hoverIn self idle
    · simp [held, one]
  exact fewer _ _ (fewer _ _ (fewer _ _ (fewer _ _ first)))

end

/-! ### An enter while a timer is pending -/

/-- Whether a state can come of another one by what a pointer and the timers do. -/
def HoverReaches (self reached : Pressability) : Prop :=
  ∃ events, Along (step clock os) HoverAllowed self events ∧
    run (step clock os) self events = some reached

theorem hoverReaches_cons {self reached : Pressability} {event : PressabilityEvent}
    (allowed : self.HoverAllowed event) (stepped : self.step clock os event = some next)
    (later : next.HoverReaches clock os reached) : self.HoverReaches clock os reached := by
  obtain ⟨events, along, ran⟩ := later
  exact ⟨event :: events, along_cons allowed stepped along, run_cons.mpr ⟨next, stepped, ran⟩⟩

theorem hoverReaches_refl (self : Pressability) : self.HoverReaches clock os self :=
  ⟨[], trivial, rfl⟩

def callOf : TimerCallback → Option Call
  | .onHoverIn => some .onHoverIn
  | .onHoverOut => some .onHoverOut
  | _ => none

variable {timer : PendingTimer} {call : Call}

theorem step_hoverTimer {self : Pressability}
    (found : self.timers.find? (·.id = timer.id) = some timer)
    (calls : callOf timer.callback = some call) :
    self.step clock os (.timer timer.id) =
      some ({ self with timers := self.timers.filter (·.id ≠ timer.id) }.call call) := by
  rw [step, handle, Pressability.fireTimer, found]
  cases called : timer.callback with
  | onHoverIn =>
    rw [called] at calls
    cases calls
    simp only [called]
    rfl
  | onHoverOut =>
    rw [called] at calls
    cases calls
    simp only [called]
    rfl
  | receiveDelay | handleLongPress | onPressOut =>
    rw [called] at calls
    cases calls

theorem lastTimer_mismatch (self : Pressability)
    (one : self.timers = [timer]) (calls : callOf timer.callback = some call)
    (wrong : hoverAfter self.toldHoverIn call ≠ self.isHovered) :
    ∃ reached, self.HoverReaches clock os reached ∧ ¬ reached.HoverMatches := by
  have found : self.timers.find? (·.id = timer.id) = some timer := by simp [one]
  have allowed : self.HoverAllowed (.timer timer.id) := ⟨timer, by simp [one], rfl⟩
  refine ⟨_, hoverReaches_cons clock os allowed (step_hoverTimer clock os found calls)
    (hoverReaches_refl clock os _), ?_⟩
  intro same
  apply wrong
  have idle : self.timers.filter (·.id ≠ timer.id) = [] := by simp [one]
  have told := same idle
  rw [call_toldHoverIn] at told
  exact told

theorem newTimer_reaches {self : Pressability} {old new : PendingTimer}
    (two : self.timers = [old, new]) (older : old.id < new.id)
    (calls : callOf new.callback = some call) {reached : Pressability}
    (later : ({ self with timers := [old] }.call call).HoverReaches clock os reached) :
    self.HoverReaches clock os reached := by
  have found : self.timers.find? (·.id = new.id) = some new := by simp [two, older.ne]
  have left : self.timers.filter (·.id ≠ new.id) = [old] := by simp [two, older.ne]
  have stepped := step_hoverTimer clock os found calls
  rw [left] at stepped
  have allowed : self.HoverAllowed (.timer new.id) := ⟨new, by simp [two], rfl⟩
  exact hoverReaches_cons clock os allowed stepped later

theorem onHoverOut_survives {self : Pressability}
    (given : self.config.onHoverIn = true) (noHoverOut : self.delayTimeout .hoverOut = none)
    (one : self.timers = [timer]) (older : timer.id < self.timeouts)
    (isOut : timer.callback = .onHoverOut) :
    ∃ reached, (self.onMouseEnter true).HoverReaches clock os reached ∧ ¬ reached.HoverMatches := by
  rw [onMouseEnter_eq given noHoverOut]
  have calls : callOf timer.callback = some .onHoverOut := by
    rw [isOut]
    rfl
  split
  next =>
    -- The timer of the enter fires first.
    have two : ({ self with isHovered := true }.setTimeout .hoverIn .onHoverIn
        (normalizeDelay self.config.delayHoverIn 0 0)).timers =
          [timer, ⟨self.timeouts, .onHoverIn, normalizeDelay self.config.delayHoverIn 0 0⟩] := by
      simp [setTimeout, one]
    obtain ⟨reached, reaches, mismatch⟩ := lastTimer_mismatch clock os
      ({ { self with isHovered := true }.setTimeout .hoverIn .onHoverIn
        (normalizeDelay self.config.delayHoverIn 0 0) with timers := [timer] }.call .onHoverIn)
      rfl calls (by nofun)
    exact ⟨reached, newTimer_reaches clock os two older rfl reaches, mismatch⟩
  next =>
    exact lastTimer_mismatch clock os ({ self with isHovered := true }.call .onHoverIn) one calls
      (by nofun)

theorem onHoverIn_survives {self : Pressability}
    (givenIn : self.config.onHoverIn = true) (givenOut : self.config.onHoverOut = true)
    (mouse : hasMouseEvents os = true) (noHoverOut : self.delayTimeout .hoverOut = none)
    (one : self.timers = [timer]) (older : timer.id < self.timeouts)
    (isIn : timer.callback = .onHoverIn)
    (delayed : normalizeDelay self.config.delayHoverIn 0 0 > 0) :
    ∃ reached, (self.onMouseEnter true).HoverReaches clock os reached ∧ ¬ reached.HoverMatches := by
  rw [onMouseEnter_eq givenIn noHoverOut, if_pos delayed]
  generalize isEntered : { self with isHovered := true }.setTimeout .hoverIn .onHoverIn
    (normalizeDelay self.config.delayHoverIn 0 0) = entered
  obtain ⟨left, isLeft, config, outside, timers, timeouts⟩ : ∃ left,
      { entered with isHovered := false }.cancelHoverInDelayTimeout = left ∧
        left.config = entered.config ∧ left.isHovered = false ∧ left.timers = [timer] ∧
        timer.id < left.timeouts := by
    subst isEntered
    simp [cancelHoverInDelayTimeout, cancelDelayTimeout, setTimeout, one, older.ne,
      older.trans (Nat.lt_succ_self _)]
  have stepped : entered.step clock os .mouseLeave = some entered.onMouseLeave := by
    rw [step, handle, if_pos mouse]
    rfl
  have hovered : entered.isHovered = true := by
    subst isEntered
    rfl
  have given : entered.config.onHoverOut = true := by
    subst isEntered
    exact givenOut
  rw [onMouseLeave_eq given hovered isLeft config] at stepped
  suffices later : ∃ reached, (if normalizeDelay entered.config.delayHoverOut 0 0 > 0 then
      left.setTimeout .hoverIn .onHoverOut (normalizeDelay entered.config.delayHoverOut 0 0)
      else left.call .onHoverOut).HoverReaches clock os reached ∧ ¬ reached.HoverMatches by
    obtain ⟨reached, reaches, mismatch⟩ := later
    have allowed : entered.HoverAllowed .mouseLeave := trivial
    exact ⟨reached, hoverReaches_cons clock os allowed stepped reaches, mismatch⟩
  have calls : callOf timer.callback = some .onHoverIn := by
    rw [isIn]
    rfl
  split
  next =>
    have two : (left.setTimeout .hoverIn .onHoverOut
        (normalizeDelay entered.config.delayHoverOut 0 0)).timers = [timer,
          ⟨left.timeouts, .onHoverOut, normalizeDelay entered.config.delayHoverOut 0 0⟩] := by
      simp [setTimeout, timers]
    obtain ⟨reached, reaches, mismatch⟩ := lastTimer_mismatch clock os
      ({ left.setTimeout .hoverIn .onHoverOut
        (normalizeDelay entered.config.delayHoverOut 0 0) with timers := [timer] }.call .onHoverOut)
      rfl calls (fun same => Bool.false_ne_true (outside.symm.trans same.symm))
    exact ⟨reached, newTimer_reaches clock os two timeouts rfl reaches, mismatch⟩
  next =>
    exact lastTimer_mismatch clock os (left.call .onHoverOut) timers calls
      (fun same => Bool.false_ne_true (outside.symm.trans same.symm))

theorem Hovers.onMouseEnter_mismatch {self : Pressability} (hovers : self.Hovers)
    (mouse : hasMouseEvents os = true) (hurried : self.timers ≠ []) :
    ∃ reached, (self.onMouseEnter true).HoverReaches clock os reached ∧ ¬ reached.HoverMatches := by
  rcases hovers.pending with ⟨idle, -⟩ | ⟨_, one, -, older, outcome⟩
  · exact absurd idle hurried
  · rcases outcome with ⟨isIn, -, delayed⟩ | ⟨isOut, -⟩
    · exact onHoverIn_survives clock os hovers.onHoverIn hovers.onHoverOut mouse
        (hovers.fields .hoverOut (by decide)) one older isIn delayed
    · exact onHoverOut_survives clock os hovers.onHoverIn (hovers.fields .hoverOut (by decide)) one
        older isOut

/-! ### Runs -/

theorem reset_calls (self : Pressability) : self.reset.calls = self.calls := by
  have kept : ∀ (field : DelayTimeout) (state : Pressability),
      (cancelDelayTimeout field state).calls = state.calls := by
    intro field state
    unfold cancelDelayTimeout
    split <;> rfl
  simp only [reset, cancelHoverInDelayTimeout, cancelHoverOutDelayTimeout,
    cancelLongPressDelayTimeout, cancelPressDelayTimeout, cancelPressOutDelayTimeout, kept]

/-- **Feedback matches the pointer** as long as it does not enter while a timer is pending, and a
reset then leaves no timer; after the first such enter a mismatch can be reached. -/
theorem hover_matches {config : PressabilityConfig} (givenIn : config.onHoverIn = true)
    (givenOut : config.onHoverOut = true) {events : List PressabilityEvent}
    (along : Along (step clock os)
      (fun self event => self.HoverAllowed event ∧ self.EntersUnhurried event)
      { config := config } events) {reached : Pressability}
    (ran : run (step clock os) { config := config } events = some reached) :
    reached.HoverMatches ∧ reached.reset.timers = [] ∧ reached.reset.calls = reached.calls ∧
      (hasMouseEvents os = true → reached.timers ≠ [] → ∃ mismatched,
        (reached.onMouseEnter true).HoverReaches clock os mismatched ∧ ¬ mismatched.HoverMatches) := by
  have hovers : reached.Hovers := by
    refine run_induction ?_ (initial_hovers givenIn givenOut) along ran
    intro self event next hovers allowed stepped
    exact hovers.step clock os allowed.1 allowed.2 stepped
  exact ⟨hovers.matches, hovers.reset, reset_calls reached, hovers.onMouseEnter_mismatch clock os⟩

def delayedHovers : PressabilityConfig where
  onHoverIn := true
  onHoverOut := true
  delayHoverIn := some 50
  delayHoverOut := some 100

def enterAndLeave : List PressabilityEvent := [.mouseEnter true, .timer 0, .mouseLeave]

theorem hover_matches_enterAndLeave : ∃ reached,
    run (step (fun _ => 0) .macos) { config := delayedHovers } enterAndLeave = some reached ∧
      reached.HoverMatches ∧ reached.reset.timers = [] ∧ ∃ mismatched,
        (reached.onMouseEnter true).HoverReaches (fun _ => 0) .macos mismatched ∧
          ¬ mismatched.HoverMatches := by
  have along : Along (step (fun _ => 0) .macos)
      (fun self event => self.HoverAllowed event ∧ self.EntersUnhurried event)
      { config := delayedHovers } enterAndLeave := by decide +kernel
  have ends : (run (step (fun _ => 0) .macos) { config := delayedHovers } enterAndLeave).any
      (fun reached => reached.timers ≠ []) = true := by decide +kernel
  obtain ⟨reached, ran, pending⟩ : ∃ reached,
      run (step (fun _ => 0) .macos) { config := delayedHovers } enterAndLeave = some reached ∧
        reached.timers ≠ [] := by simpa [Option.any_eq_true] using ends
  obtain ⟨same, idle, -, hurried⟩ := hover_matches (fun _ => 0) .macos rfl rfl along ran
  exact ⟨reached, ran, same, idle, hurried rfl pending⟩

def leaveAndEnter : List PressabilityEvent :=
  [.mouseEnter true, .timer 0, .mouseLeave, .mouseEnter true, .timer 2, .timer 1]

theorem leaveAndEnter_mismatch :
    Along (step (fun _ => 0) .macos) HoverAllowed { config := delayedHovers } leaveAndEnter ∧
    (∃ reached, run (step (fun _ => 0) .macos) { config := delayedHovers } leaveAndEnter =
        some reached ∧ reached.isHovered = true ∧ reached.timers = [] ∧
      reached.toldHoverIn = false ∧ ¬ reached.HoverMatches) ∧
    ∃ reached, run (step (fun _ => 0) .macos) { config := delayedHovers }
        (leaveAndEnter.take 4 ++ [.reset, .timer 1]) = some reached ∧
      reached.calls = [.onHoverIn, .onHoverOut] := by
  refine ⟨by decide +kernel, ?_, ?_⟩
  · have mismatch : (run (step (fun _ => 0) .macos) { config := delayedHovers } leaveAndEnter).any
        (fun reached => reached.isHovered = true ∧ reached.timers = [] ∧
          reached.toldHoverIn = false ∧ ¬ reached.HoverMatches) = true := by decide +kernel
    simpa [Option.any_eq_true] using mismatch
  · have called : (run (step (fun _ => 0) .macos) { config := delayedHovers }
        (leaveAndEnter.take 4 ++ [.reset, .timer 1])).any
          (fun reached => reached.calls = [.onHoverIn, .onHoverOut]) = true := by decide +kernel
    simpa [Option.any_eq_true] using called

end Pressability

end ReactNative

