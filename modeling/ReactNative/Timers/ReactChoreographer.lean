import Mathlib.Algebra.BigOperators.Group.Finset.Piecewise
import Mathlib.Algebra.Order.Ring.Int
import ReactNative.Foundation.Runs

/-! Callbacks wait for a frame, in one queue for each type. The dispatcher that runs them is posted
with a choreographer, which there is only once the UI thread has made it. -/
namespace ReactNative

open Runs List Function

inductive CallbackType
  | perfMarkers | dispatchUI | nativeAnimatedModule | timersEvents | idleEvent

def CallbackType.getOrder (type : CallbackType) : ℕ := type.ctorIdx

/-- Where `doFrame` is: in which queue, how often it still takes a callback from it, and whether it
has called one. -/
structure FrameLoop where
  queue : ℕ
  left : ℕ
  running : Bool := false

structure ReactChoreographer (C : Type) where
  mCallbackQueues : ℕ → List C := fun _ => []
  mTotalCallbacks : ℤ := 0
  mHasPostedCallback : Bool := false
  mChoreographer : Bool := false
  /-- How often the choreographer has the dispatcher, at least. -/
  posted : ℕ := 0
  /-- The tasks for the UI thread, and whether they post the dispatcher. -/
  runnables : List Bool := [false]
  /-- A task has posted the dispatcher and not yet set the flag; it does not take the lock. -/
  settingFlag : Bool := false
  frame : Option FrameLoop := none

inductive ChoreographerEvent (C : Type)
  | postFrameCallback (type : CallbackType) (frameCallback : C)
  | removeFrameCallback (type : CallbackType) (frameCallback : C)
  | runTask
  | setFlag
  | doFrame
  | turn
  | returns

namespace ReactChoreographer

variable {C : Type} (self : ReactChoreographer C)

def postFrameCallback (type : CallbackType) (frameCallback : C) : ReactChoreographer C :=
  let order := type.getOrder
  let self := { self with
    mCallbackQueues :=
      update self.mCallbackQueues order (self.mCallbackQueues order ++ [frameCallback])
    mTotalCallbacks := self.mTotalCallbacks + 1 }
  if self.mHasPostedCallback then self
  else if self.mChoreographer then
    { self with posted := self.posted + 1, mHasPostedCallback := true }
  else { self with runnables := self.runnables ++ [true] }

def maybeRemoveFrameCallback : ReactChoreographer C :=
  if self.mTotalCallbacks = 0 ∧ self.mHasPostedCallback then
    { self with
      posted := if self.mChoreographer then 0 else self.posted
      mHasPostedCallback := false }
  else self

def removeFrameCallback [DecidableEq C] (type : CallbackType) (frameCallback : C) :
    ReactChoreographer C :=
  let order := type.getOrder
  if frameCallback ∈ self.mCallbackQueues order then
    maybeRemoveFrameCallback { self with
      mCallbackQueues :=
        update self.mCallbackQueues order ((self.mCallbackQueues order).erase frameCallback)
      mTotalCallbacks := self.mTotalCallbacks - 1 }
  else self

/-- The loops of `doFrame` go on. -/
def turn (loop : FrameLoop) : ReactChoreographer C :=
  if loop.queue < 5 then
    if loop.left = 0 then
      let queue := loop.queue + 1
      { self with frame := some { queue, left := (self.mCallbackQueues queue).length } }
    else
      let callbackQueue := self.mCallbackQueues loop.queue
      { self with
        mCallbackQueues := update self.mCallbackQueues loop.queue callbackQueue.tail
        frame := some { loop with left := loop.left - 1, running := callbackQueue ≠ [] } }
  else { self with frame := none }.maybeRemoveFrameCallback

def running : Bool := self.frame.elim false FrameLoop.running

/-- In a frame only the callback that is called gets to the queues. A dispatcher that was taken back
may still be called if it was due. -/
def isEnabled (event : ChoreographerEvent C) : Bool :=
  let isFree := self.frame.isNone && !self.settingFlag
  match event with
  | .postFrameCallback .. | .removeFrameCallback .. => self.frame.isNone || self.running
  | .runTask => isFree && self.runnables ≠ []
  | .setFlag => self.settingFlag
  | .doFrame => isFree && self.mChoreographer
  | .turn => self.frame.isSome && !self.running
  | .returns => self.running

def perform [DecidableEq C] : ChoreographerEvent C → ReactChoreographer C
  | .postFrameCallback type frameCallback => self.postFrameCallback type frameCallback
  | .removeFrameCallback type frameCallback => self.removeFrameCallback type frameCallback
  | .runTask =>
    let posts := self.runnables.headD false
    { self with
      mChoreographer := true
      posted := self.posted + posts.toNat
      settingFlag := posts
      runnables := self.runnables.tail }
  | .setFlag => { self with mHasPostedCallback := true, settingFlag := false }
  | .doFrame => { self with
    posted := self.posted - 1
    mHasPostedCallback := false
    frame := some { queue := 0, left := (self.mCallbackQueues 0).length } }
  | .turn => self.frame.elim self self.turn
  | .returns => { self with
    mTotalCallbacks := self.mTotalCallbacks - 1
    frame := self.frame.map fun loop => { loop with running := false } }

def step [DecidableEq C] (self : ReactChoreographer C) (event : ChoreographerEvent C) :
    Option (ReactChoreographer C) :=
  if self.isEnabled event then some (self.perform event) else none

def waiting (queues : ℕ → List C) : ℕ := ∑ order ∈ Finset.range 5, (queues order).length

/-- No step takes back the dispatcher that a task has posted, before the task sets the flag. -/
def Careful [DecidableEq C] (self : ReactChoreographer C) (event : ChoreographerEvent C) : Prop :=
  self.settingFlag = true → self.mHasPostedCallback = true →
    (self.perform event).mHasPostedCallback = true

structure Inv (state : ReactChoreographer C) : Prop where
  counted : state.mTotalCallbacks = waiting state.mCallbackQueues + state.running.toNat
  posted : state.mHasPostedCallback = true ∨ state.settingFlag = true → 0 < state.posted
  made : 0 < state.posted ∨ state.frame.isSome = true → state.mChoreographer = true
  apart : state.frame.isSome = true → state.settingFlag = false
  idle : state.frame = none → 0 < waiting state.mCallbackQueues →
    state.mHasPostedCallback = true ∨ state.settingFlag = true ∨ true ∈ state.runnables
  passed : ∀ loop, state.frame = some loop → state.mHasPostedCallback = true ∨
    (∀ order < loop.queue, state.mCallbackQueues order = []) ∧
      (state.mCallbackQueues loop.queue).length ≤ loop.left

variable {self} {next : ReactChoreographer C}

theorem waiting_update (queues : ℕ → List C) {order : ℕ} (inside : order < 5) (queue : List C) :
    waiting (update queues order queue) + (queues order).length =
      waiting queues + queue.length := by
  have isOrder := Finset.mem_range.mpr inside
  have others := Finset.sum_update_of_mem isOrder (length ∘ queues) queue.length
  rw [← comp_update, Finset.sdiff_singleton_eq_erase] at others
  have split := Finset.add_sum_erase _ (length ∘ queues) isOrder
  simp only [waiting, comp_apply] at *
  omega

theorem getOrder_lt (type : CallbackType) : type.getOrder < 5 := by cases type <;> decide

theorem Inv.maybeRemoveFrameCallback (inv : self.Inv)
    (free : self.frame.isSome = true → self.running = true)
    (careful : self.settingFlag = true → self.mHasPostedCallback = true →
      self.maybeRemoveFrameCallback.mHasPostedCallback = true) :
    self.maybeRemoveFrameCallback.Inv := by
  have counted := inv.counted
  unfold ReactChoreographer.maybeRemoveFrameCallback at careful ⊢
  by_cases empty : self.mTotalCallbacks = 0 ∧ self.mHasPostedCallback
  · rw [if_pos empty] at careful ⊢
    have notRunning : ¬ self.running = true := fun running => by
      simp [running, empty.1] at counted
      omega
    have noFrame : self.frame = none := Option.not_isSome_iff_eq_none.mp (mt free notRunning)
    have notSetting : ¬ self.settingFlag = true := fun setting => nomatch careful setting empty.2
    have noneLeft : waiting self.mCallbackQueues = 0 := by
      simpa [notRunning, empty.1] using counted.symm
    have made := inv.made (.inl (inv.posted (.inl empty.2)))
    exact ⟨counted, by simp [notSetting], fun _ => made, inv.apart,
      fun _ some => absurd noneLeft (Nat.ne_of_gt some), by simp [noFrame]⟩
  · rw [if_neg empty]
    exact inv

theorem Inv.postFrameCallback (inv : self.Inv) (type : CallbackType) (frameCallback : C) :
    (self.postFrameCallback type frameCallback).Inv := by
  have more := waiting_update self.mCallbackQueues (getOrder_lt type)
    (self.mCallbackQueues type.getOrder ++ [frameCallback])
  rw [length_append, length_singleton] at more
  have counted : self.mTotalCallbacks + 1 = waiting (update self.mCallbackQueues type.getOrder
      (self.mCallbackQueues type.getOrder ++ [frameCallback])) + self.running.toNat := by
    rw [inv.counted]
    omega
  unfold ReactChoreographer.postFrameCallback
  dsimp only
  split_ifs with posted made
  · exact ⟨counted, inv.posted, inv.made, inv.apart, fun _ _ => .inl posted, fun _ _ => .inl posted⟩
  · exact ⟨counted, fun _ => Nat.succ_pos _, fun _ => made, inv.apart, fun _ _ => .inl rfl,
      fun _ _ => .inl rfl⟩
  · exact ⟨counted, inv.posted, inv.made, inv.apart, fun _ _ => .inr (.inr mem_concat_self),
      fun loop isLoop => absurd (inv.made (.inr (Option.isSome_of_eq_some isLoop))) made⟩

theorem Inv.turn (inv : self.Inv) {loop : FrameLoop} (isLoop : self.frame = some loop)
    (returned : loop.running = false) : (self.turn loop).Inv := by
  have counted : self.mTotalCallbacks = waiting self.mCallbackQueues := by
    simpa [running, isLoop, returned] using inv.counted
  have inFrame : self.frame.isSome = true := by simp [isLoop]
  have apart := inv.apart inFrame
  have passed := inv.passed loop isLoop
  unfold ReactChoreographer.turn
  split_ifs with inside done
  · refine ⟨by simp [running, counted], inv.posted, fun _ => inv.made (.inr inFrame), fun _ => apart,
      nofun, ?_⟩
    rintro _ ⟨⟩
    refine passed.imp_right fun ⟨empty, few⟩ => ⟨fun order below => ?_, Nat.le_refl _⟩
    rcases Nat.lt_succ_iff_lt_or_eq.mp below with before | rfl
    · exact empty order before
    · exact length_eq_zero_iff.mp (Nat.le_zero.mp (done ▸ few))
  · have fewer := waiting_update self.mCallbackQueues inside
      (self.mCallbackQueues loop.queue).tail
    refine ⟨?_, inv.posted, fun _ => inv.made (.inr inFrame), fun _ => apart, nofun, ?_⟩
    · cases queue : self.mCallbackQueues loop.queue <;>
        simp [queue, running, counted] at fewer ⊢ <;> omega
    · rintro _ ⟨⟩
      refine passed.imp_right fun ⟨empty, few⟩ => ⟨fun order below => ?_, ?_⟩
      · exact (update_of_ne (Nat.ne_of_lt below) _ _).trans (empty order below)
      · simpa using Nat.sub_le_sub_right few 1
  · refine Inv.maybeRemoveFrameCallback ⟨by simp [running, counted], inv.posted,
      fun _ => inv.made (.inr inFrame), nofun, fun _ some => .inl ?_, nofun⟩ nofun (by simp [apart])
    -- The loops have come past all queues.
    refine passed.resolve_right fun ⟨empty, _⟩ => Nat.ne_of_gt some ?_
    refine Finset.sum_eq_zero fun order member => ?_
    rw [empty order ((Finset.mem_range.mp member).trans_le (Nat.not_lt.mp inside)), length_nil]

variable [DecidableEq C] {event : ChoreographerEvent C}

instance : Decidable (self.Careful event) := inferInstanceAs (Decidable (_ → _ → _))

theorem Inv.removeFrameCallback (inv : self.Inv) (type : CallbackType) (frameCallback : C)
    (free : self.frame.isSome = true → self.running = true)
    (careful : self.Careful (.removeFrameCallback type frameCallback)) :
    (self.removeFrameCallback type frameCallback).Inv := by
  unfold Careful perform at careful
  unfold ReactChoreographer.removeFrameCallback at careful ⊢
  dsimp only at careful ⊢
  split_ifs at careful ⊢ with found
  · have fewer := waiting_update self.mCallbackQueues (getOrder_lt type)
      ((self.mCallbackQueues type.getOrder).erase frameCallback)
    rw [length_erase_of_mem found] at fewer
    have some := length_pos_of_mem found
    have counted := inv.counted
    have noLonger (order : ℕ) : (update self.mCallbackQueues type.getOrder
        ((self.mCallbackQueues type.getOrder).erase frameCallback) order).length ≤
        (self.mCallbackQueues order).length := by
      rw [update_apply]
      split_ifs with same
      · exact same ▸ length_erase_le
      · exact Nat.le_refl _
    refine Inv.maybeRemoveFrameCallback ⟨?_, inv.posted, inv.made, inv.apart,
      fun noFrame left => inv.idle noFrame (by omega), ?_⟩ free careful
    · simp only [running] at counted ⊢
      omega
    · refine fun loop isLoop => (inv.passed loop isLoop).imp_right fun ⟨empty, few⟩ => ⟨?_, ?_⟩
      · intro order below
        have none := noLonger order
        rwa [empty order below, length_nil, Nat.le_zero, length_eq_zero_iff] at none
      · exact (noLonger loop.queue).trans few
  · exact inv

theorem Inv.step (inv : self.Inv) (careful : self.Careful event)
    (stepped : self.step event = some next) : next.Inv := by
  unfold ReactChoreographer.step at stepped
  split_ifs at stepped with enabled
  cases stepped
  cases event with
  | postFrameCallback type frameCallback => exact inv.postFrameCallback type frameCallback
  | removeFrameCallback type frameCallback =>
    refine inv.removeFrameCallback type frameCallback (fun inFrame => ?_) careful
    simpa [isEnabled, Option.isSome_iff_ne_none.mp inFrame] using enabled
  | runTask =>
    simp [isEnabled] at enabled
    obtain ⟨⟨noFrame, notSetting⟩, some⟩ := enabled
    obtain ⟨posts, others, tasks⟩ := exists_cons_of_ne_nil some
    simp only [perform, tasks, headD_cons, tail_cons]
    refine ⟨inv.counted, ?_, fun _ => rfl, by simp [noFrame], fun _ waits => ?_, inv.passed⟩
    · rintro (posted | rfl)
      · exact Nat.add_pos_left (inv.posted (.inl posted)) _
      · exact Nat.succ_pos _
    · simpa [notSetting, tasks, @eq_comm _ true posts] using inv.idle noFrame waits
  | setFlag =>
    have posted := inv.posted (.inr enabled)
    exact ⟨inv.counted, fun _ => posted, inv.made, fun _ => rfl, fun _ _ => .inl rfl,
      fun _ _ => .inl rfl⟩
  | doFrame =>
    simp [isEnabled] at enabled
    obtain ⟨⟨noFrame, notSetting⟩, made⟩ := enabled
    refine ⟨?_, by simp [perform, notSetting], fun _ => made, fun _ => notSetting, nofun, ?_⟩
    · simpa [perform, running, noFrame] using inv.counted
    · rintro _ ⟨⟩
      exact .inr ⟨nofun, Nat.le_refl _⟩
  | turn =>
    cases isLoop : self.frame with
    | none => simp [isEnabled, isLoop] at enabled
    | some loop =>
      simp only [perform, isLoop, Option.elim_some]
      exact inv.turn isLoop (by simpa [isEnabled, isLoop, running] using enabled)
  | returns =>
    cases isLoop : self.frame with
    | none => simp [isEnabled, running, isLoop] at enabled
    | some loop =>
      have isRunning : self.running = true := enabled
      have inFrame : self.frame.isSome = true := by simp [isLoop]
      have counted := inv.counted
      rw [isRunning] at counted
      simp only [perform, isLoop, Option.map_some]
      refine ⟨by simp [running, counted], inv.posted, fun _ => inv.made (.inr inFrame),
        fun _ => inv.apart inFrame, nofun, ?_⟩
      rintro _ ⟨⟩
      exact inv.passed loop isLoop

/-- **No callback is stranded**: callbacks are counted, and outside of a frame those that wait have a
dispatcher that is posted, or a task that will post it, as long as none is taken back from a task
that is about to set the flag. -/
theorem callbacks_not_stranded (events : List (ChoreographerEvent C)) (final : ReactChoreographer C)
    (careful : Along step Careful {} events) (ran : run step {} events = some final) :
    final.mTotalCallbacks = waiting final.mCallbackQueues + final.running.toNat ∧
      (final.frame = none → 0 < waiting final.mCallbackQueues →
        0 < final.posted ∨ true ∈ final.runnables) := by
  have start : Inv ({} : ReactChoreographer C) :=
    ⟨rfl, nofun, nofun, nofun, fun _ waits => absurd waits (by simp [waiting]), nofun⟩
  have inv : final.Inv :=
    run_induction (fun _ _ _ inv careful stepped => inv.step careful stepped) start careful ran
  refine ⟨inv.counted, fun noFrame waits => ?_⟩
  rcases inv.idle noFrame waits with posted | setting | task
  · exact .inl (inv.posted (.inl posted))
  · exact .inl (inv.posted (.inr setting))
  · exact .inr task

def early : List (ChoreographerEvent ℕ) :=
  [.postFrameCallback .timersEvents 0, .runTask, .runTask]

theorem callbacks_not_stranded_early : ∃ final, run step {} early = some final ∧
    (final.frame = none → 0 < waiting final.mCallbackQueues →
      0 < final.posted ∨ true ∈ final.runnables) :=
  ⟨_, rfl, (callbacks_not_stranded early _ (by decide) rfl).2⟩

/-- The task sets the flag although the dispatcher has been taken back. -/
theorem removal_strands : ∃ final, run step {} (early ++ [.postFrameCallback .timersEvents 1,
      .removeFrameCallback .timersEvents 1, .removeFrameCallback .timersEvents 0, .setFlag,
      .postFrameCallback .timersEvents 2]) = some final ∧ 0 < waiting final.mCallbackQueues ∧
    final.posted = 0 ∧ final.runnables = [] := ⟨_, rfl, by decide, rfl, rfl⟩

end ReactChoreographer

end ReactNative
