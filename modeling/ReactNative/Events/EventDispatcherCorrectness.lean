import ReactNative.Events.DispatchQueue

/-! `mIsPosted` is cleared before the staged events are moved and `mHasDispatchScheduled` before the
queue is dispatched. -/
namespace ReactNative

open Runs

namespace EventDispatcher

variable {Content : Type} {dispatcher after : EventDispatcher Content}

/-- A call is about to find that no callback is posted, or about to post or schedule one, or a
frame has still to move the staged events. -/
def LeadsToFrame (dispatcher : EventDispatcher Content) : Prop :=
  (dispatcher.isPosted = false ∧
    (dispatcher.uiThread = .reading ∨ dispatcher.uiThread = .maybePosting ∨
      ∃ thread, dispatcher.threads thread = .reading)) ∨
  (∃ thread, dispatcher.threads thread = .scheduling) ∨
  dispatcher.uiThread = .posting ∨ dispatcher.uiThread = .beginningFrame ∨
  dispatcher.uiThread = .moving

/-- A frame has still to look whether the runnable is scheduled, or to enqueue it. -/
def LeadsToRunnable (dispatcher : EventDispatcher Content) : Prop :=
  dispatcher.uiThread = .testing ∨ dispatcher.uiThread = .setting ∨
    dispatcher.uiThread = .enqueueing

structure Inv (dispatcher : EventDispatcher Content) : Prop where
  sound : dispatcher.queues.Sound
  posted : dispatcher.isPosted = true → 0 < dispatcher.frameCallbacks ∨
    dispatcher.uiThread = .posting ∨ dispatcher.uiThread = .beginningFrame
  staged : dispatcher.queues.eventStaging ≠ [] → 0 < dispatcher.frameCallbacks ∨
    0 < dispatcher.maybePosts ∨ dispatcher.LeadsToFrame
  scheduled : dispatcher.hasDispatchScheduled = true → 0 < dispatcher.runnables ∨
    dispatcher.jsThread = .clearing ∨ dispatcher.uiThread = .enqueueing
  toDispatch : dispatcher.queues.eventsToDispatch ≠ [] → 0 < dispatcher.runnables ∨
    dispatcher.jsThread ≠ .idle ∨ dispatcher.LeadsToRunnable

theorem Inv.initial : ({} : EventDispatcher Content).Inv where
  sound := EventQueues.Sound.initial
  posted isPosted := by cases isPosted
  staged nonempty := absurd rfl nonempty
  scheduled isScheduled := by cases isScheduled
  toDispatch nonempty := absurd rfl nonempty

section

variable (inv : dispatcher.Inv)
include inv

theorem Inv.staged_of_isPosted (isPosted : dispatcher.isPosted = true) :
    0 < dispatcher.frameCallbacks ∨ dispatcher.uiThread = .posting ∨
      dispatcher.uiThread = .beginningFrame ∨ dispatcher.uiThread = .moving := by
  rcases inv.posted isPosted with posted | posting | beginning
  · exact Or.inl posted
  · exact Or.inr (Or.inl posting)
  · exact Or.inr (Or.inr (Or.inl beginning))

theorem Inv.maybePostFrameCallbackFromNonUI {queues : EventQueues Content} (sound : queues.Sound)
    (toDispatch : queues.eventsToDispatch = dispatcher.queues.eventsToDispatch)
    {thread : Option ℕ} (entered : ({ dispatcher with queues := queues }
      : EventDispatcher Content).maybePostFrameCallbackFromNonUI thread = some after) :
    after.Inv := by
  have leads := inv.toDispatch
  rw [← toDispatch] at leads
  unfold EventDispatcher.maybePostFrameCallbackFromNonUI at entered
  -- The UI thread calls and may post at once; any other thread is left about to read.
  split at entered
  next =>
    split at entered
    next idle =>
      cases entered
      have posted : dispatcher.isPosted = true → 0 < dispatcher.frameCallbacks := by
        have := inv.posted
        simp_all
      refine ⟨sound, fun isPosted => Or.inl (posted isPosted), ?_, ?_, ?_⟩
      · intro _
        rcases Bool.eq_false_or_eq_true dispatcher.isPosted with isPosted | notPosted
        · exact Or.inl (posted isPosted)
        · exact Or.inr (Or.inr (Or.inl ⟨notPosted, Or.inl rfl⟩))
      · have := inv.scheduled
        simp_all
      · simp_all [LeadsToRunnable]
    next => cases entered
  next thread =>
    split at entered
    next idle =>
      cases entered
      refine ⟨sound, inv.posted, ?_, inv.scheduled, leads⟩
      intro _
      -- If `mIsPosted` is set, what it stands for leads on; if not, this thread will read it so.
      rcases Bool.eq_false_or_eq_true dispatcher.isPosted with isPosted | notPosted
      · rcases inv.staged_of_isPosted isPosted with posted | inFrame
        · exact Or.inl posted
        · exact Or.inr (Or.inr (Or.inr (Or.inr inFrame)))
      · have reads : Function.update dispatcher.threads thread .reading thread = .reading :=
          Function.update_self _ _ _
        exact Or.inr (Or.inr (Or.inl ⟨notPosted, Or.inr (Or.inr ⟨thread, reads⟩)⟩))
    next => cases entered

theorem Inv.continueThread {thread : ℕ}
    (continued : dispatcher.continueThread thread = some after) : after.Inv := by
  unfold EventDispatcher.continueThread at continued
  split at continued
  next => cases continued
  next =>
    cases continued
    refine ⟨inv.sound, inv.posted, ?_, inv.scheduled, inv.toDispatch⟩
    intro _
    rcases Bool.eq_false_or_eq_true dispatcher.isPosted with isPosted | notPosted
    · rcases inv.staged_of_isPosted isPosted with posted | inFrame
      · exact Or.inl posted
      · exact Or.inr (Or.inr (Or.inr (Or.inr inFrame)))
    · have schedules : Function.update dispatcher.threads thread
          (if dispatcher.isPosted then .idle else .scheduling) thread = .scheduling := by
        rw [Function.update_self, notPosted]
        rfl
      exact Or.inr (Or.inr (Or.inr (Or.inl ⟨thread, schedules⟩)))
  next =>
    cases continued
    exact ⟨inv.sound, inv.posted, fun _ => Or.inr (Or.inl (Nat.succ_pos _)), inv.scheduled,
      inv.toDispatch⟩

theorem Inv.continueUI (continued : dispatcher.continueUI = some after) : after.Inv := by
  obtain ⟨sound, posted, staged, scheduled, toDispatch⟩ := inv
  simp only [LeadsToFrame, LeadsToRunnable] at staged toDispatch
  unfold EventDispatcher.continueUI at continued
  split at continued
  next => cases continued
  next reading =>
    cases continued
    refine ⟨sound, ?_, ?_, ?_, ?_⟩ <;> simp only [LeadsToFrame, LeadsToRunnable] <;> grind
  next maybePosting =>
    split at continued
    next isPosted =>
      -- The thread is not in a frame, so the callback that the flag stands for is posted.
      cases continued
      refine ⟨sound, ?_, ?_, ?_, ?_⟩ <;> simp only [LeadsToFrame, LeadsToRunnable] <;> grind
    next notPosted =>
      cases continued
      refine ⟨sound, ?_, ?_, ?_, ?_⟩ <;> simp only [LeadsToFrame, LeadsToRunnable] <;> grind
  next posting =>
    cases continued
    refine ⟨sound, ?_, ?_, ?_, ?_⟩ <;> simp only [LeadsToFrame, LeadsToRunnable] <;> grind
  next beginning =>
    split at continued
    next stops =>
      -- The flag is cleared while the events have still to be moved.
      cases continued
      refine ⟨sound, ?_, ?_, ?_, ?_⟩ <;> simp only [LeadsToFrame, LeadsToRunnable] <;> grind
    next =>
      cases continued
      refine ⟨sound, ?_, ?_, ?_, ?_⟩ <;> simp only [LeadsToFrame, LeadsToRunnable] <;> grind
  next moving =>
    obtain ⟨queues, moved, soundAfter, noneStaged⟩ := sound.moveStagedEventsToDispatchQueue
    rw [moved] at continued
    cases continued
    refine ⟨soundAfter, ?_, ?_, ?_, ?_⟩ <;> simp only [LeadsToFrame, LeadsToRunnable] <;> grind
  next testing =>
    -- A flag that is set stands for a runnable that has not cleared it, let alone dispatched.
    cases continued
    refine ⟨sound, ?_, ?_, ?_, ?_⟩ <;> simp only [LeadsToFrame, LeadsToRunnable] <;> grind
  next setting =>
    cases continued
    refine ⟨sound, ?_, ?_, ?_, ?_⟩ <;> simp only [LeadsToFrame, LeadsToRunnable] <;> grind
  next enqueueing =>
    cases continued
    refine ⟨sound, ?_, ?_, ?_, ?_⟩ <;> simp only [LeadsToFrame, LeadsToRunnable] <;> grind

theorem Inv.continueJS (continued : dispatcher.continueJS = some after) : after.Inv := by
  unfold EventDispatcher.continueJS at continued
  split at continued
  next => cases continued
  next =>
    cases continued
    have dispatching : JSThread.dispatching ≠ .idle := by simp
    exact ⟨inv.sound, inv.posted, inv.staged, nofun, fun _ => Or.inr (Or.inl dispatching)⟩
  next =>
    cases continued
    obtain ⟨-, -, sameStaging, noneLeft, -⟩ := EventQueues.dispatchEvents_eq dispatcher.queues
    refine ⟨inv.sound.dispatchEvents, inv.posted, ?_, ?_, fun nonempty => absurd noneLeft nonempty⟩
    · intro nonempty
      exact inv.staged (sameStaging ▸ nonempty)
    · have := inv.scheduled
      simp_all

theorem Inv.step {action : DispatcherAction Content}
    (stepped : dispatcher.step action = some after) : after.Inv := by
  -- One case for each action; those of the UI and JS threads are lemmas of their own.
  cases action with
  | dispatchEvent thread event =>
    exact inv.maybePostFrameCallbackFromNonUI (inv.sound.stage event) rfl stepped
  | dispatchAllEvents thread => exact inv.maybePostFrameCallbackFromNonUI inv.sound rfl stepped
  | continueThread thread => exact inv.continueThread stepped
  | continueUI => exact inv.continueUI stepped
  | continueJS => exact inv.continueJS stepped
  | runMaybePost | doFrame =>
    obtain ⟨sound, posted, staged, scheduled, toDispatch⟩ := inv
    simp only [EventDispatcher.step, LeadsToFrame, LeadsToRunnable] at stepped staged toDispatch
    split at stepped
    next idle =>
      cases stepped
      refine ⟨sound, ?_, ?_, ?_, ?_⟩ <;> simp only [LeadsToFrame, LeadsToRunnable] <;> grind
    next => cases stepped
  | stopFrameCallback =>
    simp only [EventDispatcher.step] at stepped
    split at stepped
    next =>
      cases stepped
      exact ⟨inv.sound, inv.posted, inv.staged, inv.scheduled, inv.toDispatch⟩
    next => cases stepped
  | run =>
    simp only [EventDispatcher.step] at stepped
    split at stepped
    next =>
      cases stepped
      have clearing : JSThread.clearing ≠ .idle := by simp
      exact ⟨inv.sound, inv.posted, inv.staged, fun _ => Or.inr (Or.inl rfl),
        fun _ => Or.inr (Or.inl clearing)⟩
    next => cases stepped

end

/-- **The dispatcher never strands an event**, whatever the order in which the threads take their
steps. Staged events have a callback, a `maybePost` or a call that leads to one, or a frame that
moves them; events in the queue have a runnable that dispatches them or a frame that enqueues it;
no event is dispatched twice or both coalesced and dispatched; and moving events never throws. -/
theorem run_notStranded {actions : List (DispatcherAction Content)}
    {final : EventDispatcher Content} (ran : Runs.run step {} actions = some final) :
    (final.queues.eventStaging ≠ [] →
      0 < final.frameCallbacks ∨ 0 < final.maybePosts ∨ final.LeadsToFrame) ∧
    (final.queues.eventsToDispatch ≠ [] →
      0 < final.runnables ∨ final.jsThread ≠ .idle ∨ final.LeadsToRunnable) ∧
    (final.queues.waiting ++
      (final.queues.dispatched ++ final.queues.coalesced.map Prod.fst)).Nodup ∧
    (final.uiThread = .moving → final.step .continueUI ≠ none) := by
  have inv : final.Inv :=
    run_induction (fun _ _ _ inv _ stepped => inv.step stepped) Inv.initial
      (along_of_forall (fun _ _ => trivial) _) ran
  refine ⟨inv.staged, inv.toDispatch, inv.sound.nodup, ?_⟩
  intro moving
  obtain ⟨queues, moved, -⟩ := inv.sound.moveStagedEventsToDispatchQueue
  simp [EventDispatcher.step, EventDispatcher.continueUI, moving, moved]

def pausedFrame : List (DispatcherAction Unit) :=
  [.dispatchAllEvents none, .continueUI, .continueUI, .continueUI, .stopFrameCallback, .doFrame,
    .continueUI, .dispatchEvent (some 0) ⟨0, 3, "topScroll", true, 0, 5, ()⟩, .continueThread 0,
    .continueUI]

theorem run_notStranded_pausedFrame :
    ∃ final, Runs.run step {} pausedFrame = some final ∧ final.queues.eventStaging = [] ∧
      (final.queues.eventsToDispatch ≠ [] →
        0 < final.runnables ∨ final.jsThread ≠ .idle ∨ final.LeadsToRunnable) ∧
      final.queues.eventsToDispatch.length = 1 := by
  obtain ⟨final, ran, staging, length⟩ : ∃ final, Runs.run step {} pausedFrame = some final ∧
      final.queues.eventStaging = [] ∧ final.queues.eventsToDispatch.length = 1 :=
    ⟨_, rfl, rfl, rfl⟩
  exact ⟨final, ran, staging, (run_notStranded ran).2.1, length⟩

end EventDispatcher

end ReactNative

