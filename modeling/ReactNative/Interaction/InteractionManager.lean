import Mathlib.Data.Finset.Card
import ReactNative.Foundation.Runs
import ReactNative.Interaction.TaskQueue

/-! Handles that are created and cleared are collected in two sets and merged by the next update. -/
namespace ReactNative

open Runs

/-- Where `_processUpdate` waits for other code: for the listeners, with whether no
interaction was left after the merge, or for a task. -/
inductive InteractionPhase where
  | idle
  | listening (quiet : Bool)
  | working
  deriving DecidableEq

structure InteractionManager where
  interactionSet : Finset Nat := ∅
  addInteractionSet : Finset Nat := ∅
  deleteInteractionSet : Finset Nat := ∅
  taskQueue : TaskQueue := {}
  inc : Nat := 0
  deadline : Int := -1
  phase : InteractionPhase := .idle
  /-- The handles that have been created and not cleared. -/
  opened : Finset Nat := ∅
  /-- The open handles when the latest update began. -/
  begun : Finset Nat := ∅
  /-- For every update, the set of interactions after the merge, and the open handles. -/
  updates : List (Finset Nat × Finset Nat) := []
  /-- For every task that was started, the open handles when its update began. -/
  starts : List (Finset Nat) := []

inductive InteractionEvent where
  | createInteractionHandle
  | clearInteractionHandle (handle : Nat)
  | runAfterInteractions (task : Option Task) (resolve : Task)
  | cancel (tasks : List Task)
  | resolve (promise : Nat)
  | setDeadline (deadline : Int)
  | processUpdate
  | listenersReturn
  | taskReturns (eventLoopRunningTime : Int)
  | throws

namespace InteractionManager

variable (state : InteractionManager)

def createInteractionHandle : InteractionManager :=
  { state with
    inc := state.inc + 1
    addInteractionSet := insert (state.inc + 1) state.addInteractionSet
    opened := insert (state.inc + 1) state.opened }

def clearInteractionHandle (handle : Nat) : InteractionManager :=
  { state with
    addInteractionSet := state.addInteractionSet.erase handle
    deleteInteractionSet := insert handle state.deleteInteractionSet
    opened := state.opened.erase handle }

def runAfterInteractions (task : Option Task) (resolve : Task) : InteractionManager :=
  { state with taskQueue := (task.toList ++ [resolve]).foldl TaskQueue.enqueue state.taskQueue }

def merged : Finset Nat :=
  (state.interactionSet ∪ state.addInteractionSet) \ state.deleteInteractionSet

def finish : InteractionManager :=
  { state with addInteractionSet := ∅, deleteInteractionSet := ∅, phase := .idle }

def startTask : InteractionManager :=
  { state with
    taskQueue := state.taskQueue.processNext
    phase := .working
    starts := state.starts ++ [state.begun] }

def processTasks : InteractionManager :=
  if state.taskQueue.queueStack.hasTasksToProcess then state.startTask else state.finish

def afterListeners (quiet : Bool) : InteractionManager :=
  if quiet then state.processTasks else state.finish

/-- `_processUpdate` up to the listeners, which only a transition calls. -/
def processUpdate : InteractionManager :=
  let interactionCount := state.interactionSet.card
  let state := { state with
    interactionSet := state.merged
    begun := state.opened
    updates := state.updates ++ [(state.merged, state.opened)] }
  let nextInteractionCount := state.interactionSet.card
  if (interactionCount ≠ 0 ∧ nextInteractionCount = 0) ∨
      (interactionCount = 0 ∧ nextInteractionCount ≠ 0) then
    { state with phase := .listening (nextInteractionCount = 0) }
  else state.afterListeners (nextInteractionCount = 0)

def hitsDeadline (eventLoopRunningTime : Int) : Bool :=
  state.deadline > 0 && eventLoopRunningTime ≥ state.deadline

def step : InteractionEvent → Option InteractionManager
  | .createInteractionHandle => some state.createInteractionHandle
  | .clearInteractionHandle handle =>
    if 0 < handle ∧ handle ≤ state.inc then some (state.clearInteractionHandle handle) else none
  | .runAfterInteractions task resolve => some (state.runAfterInteractions task resolve)
  | .cancel tasks => some { state with taskQueue := state.taskQueue.cancelTasks tasks }
  | .resolve promise =>
    (state.taskQueue.resolve promise).map fun taskQueue => { state with taskQueue }
  | .setDeadline deadline => some { state with deadline }
  | .processUpdate => if state.phase = .idle then some state.processUpdate else none
  | .listenersReturn =>
    match state.phase with
    | .listening quiet => some (state.afterListeners quiet)
    | _ => none
  | .taskReturns eventLoopRunningTime =>
    if state.phase = .working then
      some (if state.hitsDeadline eventLoopRunningTime then state.finish else state.processTasks)
    else none
  | .throws => if state.phase = .idle then none else some { state with phase := .idle }

structure TracksHandles : Prop where
  merges : ∀ update ∈ state.updates, update.1 = update.2
  determines : state.phase = .idle → state.merged = state.opened
  waits : ∀ handles ∈ state.starts, handles = ∅

/-- The event lets the update that is under way run to its end. -/
def Finishes : InteractionEvent → Prop
  | .listenersReturn =>
    state.phase = .listening false ∨
      state.phase = .listening true ∧ state.taskQueue.queueStack.hasTasksToProcess = false
  | .taskReturns eventLoopRunningTime =>
    state.phase = .working ∧ (state.hitsDeadline eventLoopRunningTime = true ∨
      state.taskQueue.queueStack.hasTasksToProcess = false)
  | _ => False

def Neutral (event : InteractionEvent) : Prop := state.Finishes event → state.opened = state.begun

/-! ### What every step keeps -/

variable {state next : InteractionManager}

/-- What the sets are, whatever the update is doing. -/
structure Sound (state : InteractionManager) : Prop where
  deleted : ∀ handle ∈ state.deleteInteractionSet, handle ≤ state.inc
  tracks : state.merged = state.opened
  merges : ∀ update ∈ state.updates, update.1 = update.2
  waits : ∀ handles ∈ state.starts, handles = ∅

/-- During an update the merged set stays as it is, and tasks are let run only if it
is empty. -/
structure Inv (state : InteractionManager) : Prop extends Sound state where
  held : state.phase ≠ .idle → state.interactionSet = state.begun
  quiet : state.phase = .listening true ∨ state.phase = .working → state.begun = ∅

section

variable (sound : state.Sound)
include sound

theorem Sound.create : state.createInteractionHandle.Sound := by
  refine ⟨?_, ?_, sound.merges, sound.waits⟩
  · intro handle member
    exact Nat.le_succ_of_le (sound.deleted handle member)
  · -- The new number has not been cleared before.
    have fresh : state.inc + 1 ∉ state.deleteInteractionSet := by
      intro member
      have := sound.deleted _ member
      omega
    change (state.interactionSet ∪ insert (state.inc + 1) state.addInteractionSet) \
      state.deleteInteractionSet = insert (state.inc + 1) state.opened
    rw [Finset.union_insert, Finset.insert_sdiff_of_notMem _ fresh, ← sound.tracks]
    rfl

theorem Sound.clear {handle : Nat} (created : handle ≤ state.inc) :
    (state.clearInteractionHandle handle).Sound := by
  refine ⟨?_, ?_, sound.merges, sound.waits⟩
  · intro other member
    obtain rfl | old := Finset.mem_insert.mp member
    · exact created
    · exact sound.deleted other old
  · change (state.interactionSet ∪ state.addInteractionSet.erase handle) \
      insert handle state.deleteInteractionSet = state.opened.erase handle
    rw [← sound.tracks]
    ext other
    simp only [merged, Finset.mem_sdiff, Finset.mem_union, Finset.mem_erase, Finset.mem_insert]
    tauto

section

variable (held : state.interactionSet = state.begun)
include held

theorem Sound.finish (neutral : state.opened = state.begun) : state.finish.Inv := by
  refine ⟨⟨?_, ?_, sound.merges, sound.waits⟩, ?_, ?_⟩
  · nofun
  · simpa [merged, InteractionManager.finish, held] using neutral.symm
  · exact fun active => absurd rfl active
  · rintro (listening | working)
    · cases listening
    · cases working

theorem Sound.processTasks (quiet : state.begun = ∅)
    (neutral : state.taskQueue.queueStack.hasTasksToProcess = false → state.opened = state.begun) :
    state.processTasks.Inv := by
  unfold InteractionManager.processTasks
  split
  case isTrue =>
    refine ⟨⟨sound.deleted, sound.tracks, sound.merges, ?_⟩, fun _ => held, fun _ => quiet⟩
    intro handles member
    obtain old | new := List.mem_append.mp member
    · exact sound.waits handles old
    · rw [List.mem_singleton.mp new]
      exact quiet
  case isFalse none =>
    exact sound.finish held (neutral (by simpa using none))

theorem Sound.afterListeners {calm : Bool} (quiet : calm = true → state.begun = ∅)
    (neutral : calm = false ∨ state.taskQueue.queueStack.hasTasksToProcess = false →
      state.opened = state.begun) : (state.afterListeners calm).Inv := by
  cases calm with
  | false => exact sound.finish held (neutral (.inl rfl))
  | true => exact sound.processTasks held (quiet rfl) fun none => neutral (.inr none)

end

theorem Sound.processUpdate : state.processUpdate.Inv := by
  have merged : Sound { state with
      interactionSet := state.merged
      begun := state.opened
      updates := state.updates ++ [(state.merged, state.opened)] } := by
    refine ⟨sound.deleted, ?_, ?_, sound.waits⟩
    · -- Merging a second time changes nothing.
      refine Eq.trans ?_ sound.tracks
      ext handle
      simp only [InteractionManager.merged, Finset.mem_sdiff, Finset.mem_union]
      tauto
    · intro update member
      obtain old | new := List.mem_append.mp member
      · exact sound.merges update old
      · rw [List.mem_singleton.mp new]
        exact sound.tracks
  have empty : decide (state.merged.card = 0) = true → state.opened = ∅ := by
    intro none
    rw [← sound.tracks]
    exact Finset.card_eq_zero.mp (of_decide_eq_true none)
  unfold InteractionManager.processUpdate
  dsimp only
  split
  · refine ⟨⟨merged.deleted, merged.tracks, merged.merges, merged.waits⟩, fun _ => sound.tracks, ?_⟩
    rintro (listening | working)
    · injection listening with none
      exact empty none
    · cases working
  · exact merged.afterListeners sound.tracks empty fun _ => rfl

end

variable {event : InteractionEvent}

theorem step_inv (inv : state.Inv) (neutral : state.Neutral event)
    (stepped : state.step event = some next) : next.Inv := by
  -- The task queue and the deadline do not occur in the invariant.
  have same : ∀ (taskQueue : TaskQueue) (deadline : Int),
      Inv { state with taskQueue, deadline } := fun taskQueue deadline =>
    ⟨⟨inv.deleted, inv.tracks, inv.merges, inv.waits⟩, inv.held, inv.quiet⟩
  cases event with
  | createInteractionHandle =>
    cases stepped
    exact ⟨inv.toSound.create, inv.held, inv.quiet⟩
  | clearInteractionHandle =>
    simp only [step] at stepped
    split at stepped
    case isTrue created =>
      cases stepped
      exact ⟨inv.toSound.clear created.2, inv.held, inv.quiet⟩
    case isFalse => cases stepped
  | runAfterInteractions _ resolve =>
    cases stepped
    exact same _ _
  | cancel =>
    cases stepped
    exact same _ _
  | resolve =>
    obtain ⟨taskQueue, -, rfl⟩ := Option.map_eq_some_iff.mp stepped
    exact same _ _
  | setDeadline deadline =>
    cases stepped
    exact same _ _
  | processUpdate =>
    simp only [step] at stepped
    split at stepped
    · cases stepped
      exact inv.toSound.processUpdate
    · cases stepped
  -- The listeners return: the work that is left decides which phase follows.
  | listenersReturn =>
    simp only [step] at stepped
    split at stepped
    case h_1 calm listening =>
      cases stepped
      apply inv.toSound.afterListeners (inv.held (by simp [listening]))
      · rintro rfl
        exact inv.quiet (.inl listening)
      · intro ends
        apply neutral
        cases calm with
        | false => exact .inl listening
        | true => exact .inr ⟨listening, by simpa using ends⟩
    case h_2 => cases stepped
  -- A task returns: the rest runs now, or after the event loop if the deadline was hit.
  | taskReturns =>
    simp only [step] at stepped
    split at stepped
    case isTrue working =>
      cases stepped
      have held := inv.held (by simp [working])
      split
      case isTrue hit => exact inv.toSound.finish held (neutral ⟨working, .inl hit⟩)
      case isFalse =>
        exact inv.toSound.processTasks held (inv.quiet (.inr working))
          fun none => neutral ⟨working, .inr none⟩
    case isFalse => cases stepped
  | throws =>
    simp only [step] at stepped
    split at stepped
    · cases stepped
    · cases stepped
      refine ⟨⟨inv.deleted, inv.tracks, inv.merges, inv.waits⟩, ?_, ?_⟩
      · exact fun active => absurd rfl active
      · rintro (listening | working)
        · cases listening
        · cases working

theorem Inv.tracksHandles (inv : state.Inv) : state.TracksHandles :=
  ⟨inv.merges, fun _ => inv.tracks, inv.waits⟩

theorem start_inv : Inv {} := by
  refine ⟨⟨?_, rfl, ?_, ?_⟩, ?_, ?_⟩
  · nofun
  · nofun
  · nofun
  · exact fun active => absurd rfl active
  · exact fun _ => rfl

/-! ### The condition is needed -/

/-- While an update is under way it is the last one on record, and the set of
interactions is still what its merge has left. -/
def Recorded (state : InteractionManager) : Prop :=
  state.phase ≠ .idle → (state.interactionSet, state.begun) ∈ state.updates

theorem afterListeners_recorded {calm : Bool}
    (recorded : (state.interactionSet, state.begun) ∈ state.updates) :
    (state.afterListeners calm).Recorded := by
  cases calm with
  | false => exact fun active => absurd rfl active
  | true =>
    change state.processTasks.Recorded
    unfold processTasks
    split
    · exact fun _ => recorded
    · exact fun active => absurd rfl active

theorem step_recorded (recorded : state.Recorded) (stepped : state.step event = some next) :
    next.Recorded := by
  -- One case for each event; only updates and returning listeners record anything.
  cases event with
  | createInteractionHandle =>
    cases stepped
    exact recorded
  | clearInteractionHandle =>
    simp only [step] at stepped
    split at stepped <;> cases stepped
    exact recorded
  | runAfterInteractions _ resolve =>
    cases stepped
    exact recorded
  | cancel =>
    cases stepped
    exact recorded
  | resolve =>
    obtain ⟨-, -, rfl⟩ := Option.map_eq_some_iff.mp stepped
    exact recorded
  | setDeadline =>
    cases stepped
    exact recorded
  | processUpdate =>
    simp only [step] at stepped
    split at stepped <;> cases stepped
    unfold processUpdate
    dsimp only
    split
    · exact fun _ => List.mem_append_right _ List.mem_cons_self
    · exact afterListeners_recorded (List.mem_append_right _ List.mem_cons_self)
  | listenersReturn =>
    simp only [step] at stepped
    split at stepped
    case h_1 calm listening =>
      cases stepped
      exact afterListeners_recorded (recorded (by simp [listening]))
    case h_2 => cases stepped
  | taskReturns =>
    simp only [step] at stepped
    split at stepped
    case isTrue working =>
      cases stepped
      split
      · exact fun active => absurd rfl active
      · exact @afterListeners_recorded state true (recorded (by simp [working]))
    case isFalse => cases stepped
  | throws =>
    simp only [step] at stepped
    split at stepped <;> cases stepped
    exact fun active => absurd rfl active

theorem run_recorded {events : List InteractionEvent} (ran : run step {} events = some state) :
    state.Recorded :=
  run_induction (fun _ _ _ recorded _ stepped => step_recorded recorded stepped)
    (fun active => absurd rfl active) (along_of_forall (fun _ _ => trivial) _) ran

theorem Finishes.step (finishes : state.Finishes event) :
    state.phase ≠ .idle ∧ state.step event = some state.finish := by
  cases event with
  | listenersReturn =>
    obtain loud | ⟨calm, none⟩ := finishes
    · simp [InteractionManager.step, loud, InteractionManager.afterListeners]
    · simp [InteractionManager.step, calm, InteractionManager.afterListeners,
        InteractionManager.processTasks, none]
  | taskReturns =>
    obtain ⟨working, hit | none⟩ := finishes
    · simp [InteractionManager.step, working, hit]
    · simp [InteractionManager.step, working, InteractionManager.processTasks, none]
  | _ => cases finishes

/-- **Handles are tracked** in every state that a run goes through, if and only if every
update that runs to its end is neutral. -/
theorem tracksHandles_iff (events : List InteractionEvent) :
    (∀ first second, events = first ++ second → ∀ state, run step {} first = some state →
      state.TracksHandles) ↔ Along step Neutral {} events := by
  constructor
  · intro tracks
    apply along_of_prefixes
    intro first event second state split ran finishes
    obtain ⟨active, stepped⟩ := finishes.step
    have before := tracks first _ split state ran
    have after : state.finish.TracksHandles := by
      refine tracks (first ++ [event]) second (by simp [split]) state.finish ?_
      rw [run_append, ran]
      simp [run, stepped]
    -- The set of interactions is the merged one before, and has to be the open one after.
    have merged := before.merges _ (run_recorded ran active)
    have opened := after.determines rfl
    simp only [InteractionManager.merged, InteractionManager.finish, Finset.union_empty,
      Finset.sdiff_empty] at opened
    exact opened.symm.trans merged
  · intro neutral first second split state ran
    rw [split] at neutral
    have inv := run_induction (fun _ _ _ => step_inv) start_inv (along_append neutral).1 ran
    exact inv.tracksHandles

theorem cleared_by_listener_lost :
    ¬ ∀ (events : List InteractionEvent) (state : InteractionManager),
      run step {} events = some state → state.TracksHandles := by
  intro always
  have tracks := always [.createInteractionHandle, .processUpdate, .clearInteractionHandle 1,
    .listenersReturn] _ rfl
  exact absurd (tracks.determines rfl) (by decide)

end InteractionManager

end ReactNative

