import ReactNative.Foundation.Runs
import ReactNative.Interaction.TaskQueue

/-! The handler of a promise finds the queue of the promise as long as nothing below that queue
leaves the stack. -/
namespace ReactNative

open Runs List QueueStack

namespace QueueStack

@[simp]
theorem waiting_nil : waiting [] = [] := rfl

@[simp]
theorem waiting_cons (queue : StackedQueue) (below : QueueStack) :
    waiting (queue :: below) = queue.tasks ++ waiting below := rfl

theorem queueAt_lt {stackIdx : Nat} {stack : QueueStack} {queue : StackedQueue}
    (found : stack.queueAt stackIdx = some queue) : stackIdx < stack.length := by
  induction stack with
  | nil => cases found
  | cons _ _ ih =>
    unfold queueAt at found
    rw [length_cons]
    split at found
    · omega
    · have := ih found
      omega

end QueueStack

/-! ### How the stack is built -/

structure OwnedBy (promises : List TaskPromise) (queue : StackedQueue) (promise : Nat)
    (record : TaskPromise) : Prop where
  owner : queue.owner = some promise
  known : promises[promise]? = some record
  popable : queue.popable = record.resolved
  home : ∀ queued ∈ queue.tasks, queued.home = some promise

/-- The lowest queue belongs to no promise, the others to one each. A promise that
is unresolved remembers the right position, and the tasks at or above its queue
have been enqueued since it started. -/
inductive WellStacked (promises : List TaskPromise) : QueueStack → Prop where
  | base {queue : StackedQueue} (owner : queue.owner = none) (popable : queue.popable = false)
      (home : ∀ queued ∈ queue.tasks, queued.home = none) : WellStacked promises [queue]
  | push {queue : StackedQueue} {below : QueueStack} {promise : Nat} {record : TaskPromise}
      (owned : OwnedBy promises queue promise record)
      (position : record.resolved = false → record.stackIdx = below.length)
      (once : promise ∉ below.owners)
      (later : ∀ queued ∈ queue.tasks, ∀ other ∈ promise :: below.owners, ∀ record,
        promises[other]? = some record → record.start ≤ queued.stamp)
      (rest : WellStacked promises below) : WellStacked promises (queue :: below)

namespace WellStacked

variable {promises : List TaskPromise} {stack : QueueStack}

theorem ne_nil (stacked : WellStacked promises stack) : stack ≠ [] := by
  cases stacked <;> simp

variable {queue : StackedQueue} {below : QueueStack} {promise : Nat}

theorem owners_push (owner : queue.owner = some promise) :
    owners (queue :: below) = promise :: below.owners := by
  simp [owners, owner]

theorem owners_base (owner : queue.owner = none) : owners [queue] = [] := by
  simp [owners, owner]

variable {queued : QueuedTask}

theorem home_mem (stacked : WellStacked promises stack)
    (member : queued ∈ stack.waiting) (home : queued.home = some promise) :
    promise ∈ stack.owners := by
  induction stacked with
  | base owner _ none =>
    rw [waiting_cons, waiting_nil, append_nil] at member
    rw [none queued member] at home
    cases home
  | push owned _ _ _ _ ih =>
    rw [owners_push owned.owner]
    obtain here | lower := mem_append.mp member
    · rw [owned.home queued here] at home
      cases home
      exact mem_cons_self
    · exact mem_cons_of_mem _ (ih lower)

variable {record : TaskPromise}

theorem top_later (stacked : WellStacked promises (queue :: below)) (member : queued ∈ queue.tasks)
    (owner : promise ∈ owners (queue :: below))
    (known : promises[promise]? = some record) : record.start ≤ queued.stamp := by
  cases stacked with
  | base none =>
    rw [owners_base none] at owner
    cases owner
  | push owned _ _ later =>
    rw [owners_push owned.owner] at owner
    exact later queued member promise owner record known

theorem queueAt_pending (stacked : WellStacked promises stack)
    (known : promises[promise]? = some record)
    (pending : record.resolved = false) (owner : promise ∈ stack.owners) :
    ∃ queue, stack.queueAt record.stackIdx = some queue ∧ queue.owner = some promise := by
  induction stacked with
  | base none =>
    rw [owners_base none] at owner
    cases owner
  | @push queue _ _ own owned position _ _ _ ih =>
    rw [owners_push owned.owner] at owner
    unfold queueAt
    obtain rfl | lower := mem_cons.mp owner
    · have same : own = record := Option.some.inj (owned.known.symm.trans known)
      subst same
      exact ⟨queue, if_pos (position pending).symm, owned.owner⟩
    · obtain ⟨found, lookup, owns⟩ := ih lower
      have lower := queueAt_lt lookup
      refine ⟨found, ?_, owns⟩
      rw [if_neg (by omega)]
      exact lookup

/-! ### What the operations do to it -/

theorem getCurrentQueue (stacked : WellStacked promises stack) :
    WellStacked promises stack.getCurrentQueue ∧ stack.getCurrentQueue.waiting = stack.waiting ∧
      ∀ promise ∈ stack.owners, ∀ record, promises[promise]? = some record →
        record.resolved = false → promise ∈ stack.getCurrentQueue.owners := by
  induction stacked with
  | base owner popable home =>
    exact ⟨.base owner popable home, rfl, fun promise member _ _ _ => member⟩
  | @push queue below _ _ owned position once later rest ih =>
    cases below with
    | nil => exact absurd rfl rest.ne_nil
    | cons _ below =>
      unfold QueueStack.getCurrentQueue
      split
      case isTrue finished =>
        obtain ⟨popable, empty⟩ := Bool.and_eq_true_iff.mp finished
        obtain ⟨stacked, same, kept⟩ := ih
        refine ⟨stacked, ?_, ?_⟩
        · rw [same, waiting_cons queue, List.isEmpty_iff.mp empty, nil_append]
        · intro promise member record known pending
          rw [owners_push owned.owner] at member
          obtain rfl | lower := mem_cons.mp member
          · -- The queue that goes belongs to a promise that has resolved.
            cases owned.known.symm.trans known
            rw [owned.popable, pending] at popable
            cases popable
          · exact kept promise lower record known pending
      case isFalse =>
        exact ⟨.push owned position once later rest, rfl, fun promise member _ _ _ => member⟩

theorem enqueue (stacked : WellStacked promises stack) (task : Task) {stamp : Nat}
    (new : ∀ record ∈ promises, record.start ≤ stamp) :
    WellStacked promises (stack.enqueue task stamp) ∧
      ((stack.enqueue task stamp).waiting.map QueuedTask.stamp).Perm
        (stamp :: stack.waiting.map QueuedTask.stamp) ∧
      (stack.enqueue task stamp).owners = stack.getCurrentQueue.owners := by
  obtain ⟨current, same, -⟩ := stacked.getCurrentQueue
  rw [← same]
  unfold QueueStack.enqueue
  generalize stack.getCurrentQueue = top at current
  cases current with
  | @base queue owner popable home =>
    refine ⟨.base owner popable ?_, ?_, rfl⟩
    · intro queued member
      obtain old | added := mem_append.mp member
      · exact home queued old
      · rw [mem_singleton.mp added]
        exact owner
    · simp
  | @push queue _ _ record owned position once later rest =>
    refine ⟨.push ⟨owned.owner, owned.known, owned.popable, ?_⟩ position once ?_ rest, ?_, rfl⟩
    · intro queued member
      obtain old | added := mem_append.mp member
      · exact owned.home queued old
      · rw [mem_singleton.mp added]
        exact owned.owner
    · intro queued member other owner record known
      obtain old | added := mem_append.mp member
      · exact later queued old other owner record known
      · rw [mem_singleton.mp added]
        exact new record (mem_of_getElem? known)
    · simp [perm_middle]

theorem shift {tasks : List QueuedTask} (stacked : WellStacked promises (queue :: below))
    (first : queue.tasks = queued :: tasks) :
    WellStacked promises ({ queue with tasks } :: below) := by
  have fewer : ∀ other ∈ tasks, other ∈ queue.tasks := by
    intro other member
    rw [first]
    exact mem_cons_of_mem queued member
  cases stacked with
  | base owner popable home =>
    exact .base owner popable fun other member => home other (fewer other member)
  | push owned position once later rest =>
    refine .push ⟨owned.owner, owned.known, owned.popable, ?_⟩ position once ?_ rest
    · exact fun other member => owned.home other (fewer other member)
    · exact fun other member => later other (fewer other member)

theorem owner_known (stacked : WellStacked promises stack)
    (member : promise ∈ stack.owners) : ∃ record, promises[promise]? = some record := by
  induction stacked with
  | base none =>
    rw [owners_base none] at member
    cases member
  | push owned _ _ _ _ ih =>
    rw [owners_push owned.owner] at member
    obtain rfl | lower := mem_cons.mp member
    · exact ⟨_, owned.known⟩
    · exact ih lower

theorem congr {after : List TaskPromise} (stacked : WellStacked promises stack)
    (same : ∀ promise ∈ stack.owners, after[promise]? = promises[promise]?) :
    WellStacked after stack := by
  induction stacked with
  | base owner popable home => exact .base owner popable home
  | @push _ _ promise record owned position once later _ ih =>
    rw [owners_push owned.owner] at same
    refine .push ⟨owned.owner, ?_, owned.popable, owned.home⟩ position once ?_ (ih ?_)
    · rw [same promise mem_cons_self]
      exact owned.known
    · intro queued member other owner record known
      rw [same other owner] at known
      exact later queued member other owner record known
    · intro other owner
      exact same other (mem_cons_of_mem promise owner)

theorem genPromise (stacked : WellStacked promises stack) (start : Nat) :
    WellStacked (promises ++ [{ stackIdx := stack.length, start }])
      ({ owner := some promises.length } :: stack) := by
  have older : ∀ promise ∈ stack.owners, promise < promises.length := by
    intro promise member
    obtain ⟨_, known⟩ := stacked.owner_known member
    exact (List.getElem?_eq_some_iff.mp known).1
  refine .push ⟨rfl, getElem?_concat_length, rfl, ?_⟩ (fun _ => rfl) ?_ ?_ ?_
  · nofun
  · intro member
    exact absurd (older _ member) (Nat.lt_irrefl _)
  · nofun
  · refine stacked.congr ?_
    intro promise member
    exact getElem?_append_left (older promise member)

theorem start_resolved {other : Nat} {after : TaskPromise}
    (known : promises[promise]? = some record)
    (found : (promises.set promise { record with resolved := true })[other]? = some after) :
    ∃ before, promises[other]? = some before ∧ before.start = after.start := by
  by_cases same : promise = other
  · subst same
    rw [getElem?_set_self (List.getElem?_eq_some_iff.mp known).1] at found
    cases found
    exact ⟨record, known, rfl⟩
  · rw [getElem?_set_ne same] at found
    exact ⟨after, found, rfl⟩

theorem setPopable (stacked : WellStacked promises stack)
    (known : promises[promise]? = some record) (pending : record.resolved = false)
    (owner : promise ∈ stack.owners) :
    ∃ after, stack.setPopable record.stackIdx = some after ∧
      WellStacked (promises.set promise { record with resolved := true }) after ∧
      after.waiting = stack.waiting ∧ after.owners = stack.owners ∧
      after.length = stack.length := by
  have bound := (List.getElem?_eq_some_iff.mp known).1
  -- Induction over the stack: the promise owns the top queue, or one further down.
  induction stacked with
  | base none =>
    rw [owners_base none] at owner
    cases owner
  | @push queue below top _ owned position once later rest ih =>
    rw [owners_push owned.owner] at owner
    -- Marking a promise as resolved does not change when it started.
    have started : ∀ queued ∈ queue.tasks, ∀ other ∈ top :: below.owners, ∀ after,
        (promises.set promise { record with resolved := true })[other]? = some after →
        after.start ≤ queued.stamp := by
      intro queued member other owner after found
      obtain ⟨before, knew, same⟩ := start_resolved known found
      rw [← same]
      exact later queued member other owner before knew
    unfold QueueStack.setPopable
    obtain rfl | lower := mem_cons.mp owner
    · cases owned.known.symm.trans known
      refine ⟨_, if_pos (position pending).symm, ?_, rfl, rfl, rfl⟩
      refine .push ⟨owned.owner, getElem?_set_self bound, rfl, owned.home⟩ (by simp) once
        started (rest.congr ?_)
      intro other member
      apply getElem?_set_ne
      rintro rfl
      exact once member
    · obtain ⟨after, marked, stacked, waiting, owners, length⟩ := ih lower
      have apart : promise ≠ top := by
        rintro rfl
        exact once lower
      obtain ⟨found, lookup, -⟩ := rest.queueAt_pending known pending lower
      have below := queueAt_lt lookup
      refine ⟨queue :: after, ?_, ?_, ?_, ?_, ?_⟩
      · rw [if_neg (by omega), marked]
        rfl
      · refine .push ⟨owned.owner, ?_, owned.popable, owned.home⟩ ?_ ?_ ?_ stacked
        · rw [getElem?_set_ne apart]
          exact owned.known
        · rw [length]
          exact position
        · rw [owners]
          exact once
        · rw [owners]
          exact started
      · rw [waiting_cons, waiting]
        rfl
      · rw [owners_push owned.owner, owners_push owned.owner, owners]
      · rw [length_cons, length_cons, length]

end WellStacked

/-! ### Cancelling -/

namespace QueueStack

variable (tasksToCancel : List Task)

/-- All the tasks of a queue are cancelled; a queue without tasks counts. -/
def Empties (queue : StackedQueue) : Prop := ∀ queued ∈ queue.tasks, queued.task ∈ tasksToCancel

/-- Where a queue is not popable yet, neither it nor a queue below it, the lowest
apart, is emptied. -/
def SparesPending (tasksToCancel : List Task) : QueueStack → Prop
  | [] => True
  | queue :: below =>
    (queue.popable = false → ∀ emptied ∈ (queue :: below).dropLast,
      ¬ Empties tasksToCancel emptied) ∧ SparesPending tasksToCancel below

theorem keepTasks_isEmpty {tasksToCancel : List Task} {queue : StackedQueue} :
    (keepTasks tasksToCancel queue).tasks.isEmpty = true ↔ Empties tasksToCancel queue := by
  simp [keepTasks, Empties]

theorem cancelTasks_cons (queue next : StackedQueue) (below : QueueStack) :
    cancelTasks tasksToCancel (queue :: next :: below) =
      if (keepTasks tasksToCancel queue).tasks.isEmpty then cancelTasks tasksToCancel (next :: below)
      else keepTasks tasksToCancel queue :: cancelTasks tasksToCancel (next :: below) := rfl

theorem cancelTasks_waiting (stack : QueueStack) : (stack.cancelTasks tasksToCancel).waiting =
      stack.waiting.filter fun queued => queued.task ∉ tasksToCancel := by
  induction stack with
  | nil => rfl
  | cons queue below ih =>
    cases below with
    | nil => simp [cancelTasks, keepTasks]
    | cons _ below =>
      rw [waiting_cons, filter_append, ← ih, cancelTasks_cons]
      split
      case isTrue empty =>
        have gone : queue.tasks.filter (fun queued => queued.task ∉ tasksToCancel) = [] :=
          List.isEmpty_iff.mp empty
        rw [gone, nil_append]
      case isFalse => rfl

theorem cancelTasks_length {tasksToCancel : List Task} {stack : QueueStack}
    (none : ∀ emptied ∈ stack.dropLast, ¬ Empties tasksToCancel emptied) :
    (stack.cancelTasks tasksToCancel).length = stack.length := by
  induction stack with
  | nil => rfl
  | cons queue below ih =>
    cases below with
    | nil => rfl
    | cons _ below =>
      have kept := none queue mem_cons_self
      have lower := ih fun emptied member => none emptied (mem_cons_of_mem queue member)
      rw [cancelTasks_cons, if_neg (mt keepTasks_isEmpty.mp kept), length_cons, lower]
      rfl

theorem cancelTasks_owners (stack : QueueStack) :
    (stack.cancelTasks tasksToCancel).owners ⊆ stack.owners := by
  induction stack with
  | nil => exact List.Subset.refl _
  | cons queue below ih =>
    cases below with
    | nil => exact List.Subset.refl _
    | cons next below =>
      have rest : owners (next :: below) ⊆ owners (queue :: next :: below) := by
        intro promise member
        obtain ⟨other, inside, owner⟩ := mem_filterMap.mp member
        exact mem_filterMap.mpr ⟨other, mem_cons_of_mem queue inside, owner⟩
      rw [cancelTasks_cons]
      split
      · exact fun promise member => rest (ih member)
      · intro promise member
        obtain ⟨other, inside, owner⟩ := mem_filterMap.mp member
        obtain rfl | lower := mem_cons.mp inside
        · exact mem_filterMap.mpr ⟨queue, mem_cons_self, owner⟩
        · exact rest (ih (mem_filterMap.mpr ⟨other, lower, owner⟩))

end QueueStack

namespace WellStacked

variable {promises : List TaskPromise} {stack : QueueStack}

theorem cancelTasks (stacked : WellStacked promises stack) {tasksToCancel : List Task}
    (spares : stack.SparesPending tasksToCancel) :
    WellStacked promises (stack.cancelTasks tasksToCancel) ∧
      ∀ promise ∈ stack.owners, ∀ record, promises[promise]? = some record →
        record.resolved = false → promise ∈ (stack.cancelTasks tasksToCancel).owners := by
  have fewer : ∀ (queue : StackedQueue) (queued : QueuedTask),
      queued ∈ (keepTasks tasksToCancel queue).tasks → queued ∈ queue.tasks :=
    fun queue queued member => mem_of_mem_filter member
  -- Induction over the stack, from the bottom, which always stays.
  induction stacked with
  | base owner popable home =>
    refine ⟨.base owner popable fun queued member => home queued (fewer _ queued member), ?_⟩
    exact fun promise member _ _ _ => member
  | @push queue below top _ owned position once later rest ih =>
    obtain ⟨here, lower⟩ := spares
    obtain ⟨stacked, kept⟩ := ih lower
    -- The queue on top goes if it has been emptied and is not the last one.
    cases below with
    | nil => exact absurd rfl rest.ne_nil
    | cons next below =>
      rw [owners_push owned.owner]
      rw [cancelTasks_cons]
      split
      case isTrue empty =>
        refine ⟨stacked, ?_⟩
        intro promise member record known pending
        obtain rfl | lower := mem_cons.mp member
        · -- An emptied queue is popable, so its promise has resolved.
          cases owned.known.symm.trans known
          have unpopable : queue.popable = false := owned.popable.trans pending
          exact absurd (keepTasks_isEmpty.mp empty)
            (here unpopable queue mem_cons_self)
        · exact kept promise lower record known pending
      case isFalse =>
        have subset := cancelTasks_owners tasksToCancel (next :: below)
        have owner : (keepTasks tasksToCancel queue).owner = some top := owned.owner
        constructor
        · refine .push ⟨owner, owned.known, owned.popable, ?_⟩ ?_ ?_ ?_ stacked
          · exact fun queued member => owned.home queued (fewer queue queued member)
          · intro pending
            rw [cancelTasks_length]
            · exact position pending
            · intro emptied member
              exact here (owned.popable.trans pending) emptied (mem_cons_of_mem queue member)
          · exact fun member => once (subset member)
          · intro queued member other owner
            refine later queued (fewer queue queued member) other ?_
            obtain rfl | inside := mem_cons.mp owner
            · exact mem_cons_self
            · exact mem_cons_of_mem top (subset inside)
        · intro promise member record known pending
          rw [owners_push owner]
          obtain rfl | lower := mem_cons.mp member
          · exact mem_cons_self
          · exact mem_cons_of_mem top (kept promise lower record known pending)

end WellStacked

/-! ### Runs -/

namespace TaskQueue

/-- What the queue keeps while cancelling spares the promises. -/
structure Sound (state : TaskQueue) : Prop where
  stacked : WellStacked state.promises state.queueStack
  pending : ∀ promise record, state.promises[promise]? = some record → record.resolved = false →
    promise ∈ state.queueStack.owners
  started : ∀ record ∈ state.promises, record.start ≤ state.enqueued
  conserves : (range state.enqueued).Perm
    (state.ran ++ state.cancelled ++ state.queueStack.waiting.map QueuedTask.stamp)

/-- The exact condition on a step. -/
def SparesPending (state : TaskQueue) : TaskQueueEvent → Prop
  | .cancelTasks tasksToCancel => state.queueStack.SparesPending tasksToCancel
  | _ => True

variable {state next : TaskQueue}

theorem Sound.pop (sound : state.Sound) :
    Sound { state with queueStack := state.queueStack.getCurrentQueue } := by
  obtain ⟨stacked, waiting, kept⟩ := sound.stacked.getCurrentQueue
  refine ⟨stacked, ?_, sound.started, ?_⟩
  · intro promise record known pending
    exact kept promise (sound.pending promise record known pending) record known pending
  · rw [waiting]
    exact sound.conserves

theorem Sound.enqueue (sound : state.Sound) (task : Task) : (state.enqueue task).Sound := by
  obtain ⟨stacked, waiting, owners⟩ := sound.stacked.enqueue task sound.started
  refine ⟨stacked, ?_, ?_, ?_⟩
  · intro promise record known pending
    change promise ∈ (state.queueStack.enqueue task state.enqueued).owners
    rw [owners]
    exact sound.pop.pending promise record known pending
  · intro record member
    exact Nat.le_succ_of_le (sound.started record member)
  · change (range (state.enqueued + 1)).Perm (state.ran ++ state.cancelled ++ _)
    rw [range_succ]
    have moved : (state.ran ++ state.cancelled ++
        state.queueStack.waiting.map QueuedTask.stamp ++ [state.enqueued]).Perm
        (state.ran ++ state.cancelled ++
          (state.enqueued :: state.queueStack.waiting.map QueuedTask.stamp)) := by
      rw [append_assoc]
      exact List.Perm.append_left _ perm_append_comm
    exact ((sound.conserves.append_right _).trans moved).trans
      (List.Perm.append_left _ waiting.symm)

theorem Sound.cancelTasks (sound : state.Sound) {tasksToCancel : List Task}
    (spares : state.queueStack.SparesPending tasksToCancel) :
    (state.cancelTasks tasksToCancel).Sound := by
  obtain ⟨stacked, kept⟩ := sound.stacked.cancelTasks spares
  refine ⟨stacked, ?_, sound.started, ?_⟩
  · intro promise record known pending
    exact kept promise (sound.pending promise record known pending) record known pending
  · change (range state.enqueued).Perm (state.ran ++ (state.cancelled ++ _) ++
      (state.queueStack.cancelTasks tasksToCancel).waiting.map QueuedTask.stamp)
    rw [cancelTasks_waiting, ← append_assoc, append_assoc, ← map_append]
    refine sound.conserves.trans (List.Perm.append_left _ ?_)
    have split := filter_append_perm (fun queued => decide (queued.task ∈ tasksToCancel))
      state.queueStack.waiting
    simpa using (split.map QueuedTask.stamp).symm

theorem Sound.genPromise (sound : state.Sound) : state.genPromise.Sound := by
  refine ⟨sound.stacked.genPromise state.enqueued, ?_, ?_, sound.conserves⟩
  · intro promise record known pending
    obtain earlier | new : promise < state.promises.length ∨ promise = state.promises.length := by
      have bound := (List.getElem?_eq_some_iff.mp known).1
      simp only [TaskQueue.genPromise, length_append, length_singleton] at bound
      omega
    · have before : state.promises[promise]? = some record :=
        (getElem?_append_left earlier).symm.trans known
      exact mem_cons_of_mem _ (sound.pending promise record before pending)
    · rw [new]
      exact mem_cons_self
  · intro record member
    obtain old | new := mem_append.mp member
    · exact sound.started record old
    · rw [mem_singleton.mp new]
      exact Nat.le_refl state.enqueued

theorem Sound.shift {queue : StackedQueue} {below : QueueStack} {queued : QueuedTask}
    {tasks : List QueuedTask} (sound : state.Sound)
    (current : state.queueStack = queue :: below) (first : queue.tasks = queued :: tasks) :
    Sound { state with
      queueStack := { queue with tasks } :: below
      ran := state.ran ++ [queued.stamp] } := by
  have stacked := sound.stacked
  rw [current] at stacked
  refine ⟨stacked.shift first, ?_, sound.started, ?_⟩
  · intro promise record known pending
    have owner := sound.pending promise record known pending
    rw [current] at owner
    exact owner
  · have conserves := sound.conserves
    rw [current] at conserves
    refine conserves.trans ?_
    simp only [waiting_cons, first, cons_append, map_cons, append_assoc]
    refine List.Perm.append_left state.ran ?_
    exact perm_middle

theorem Sound.processNext (sound : state.Sound) : state.processNext.Sound := by
  have popped := sound.pop
  unfold TaskQueue.processNext
  split
  case h_1 queue below current =>
    split
    · rw [← current]
      exact popped
    case h_2 queued tasks first =>
      have shifted := popped.shift current first
      split
      · exact shifted.genPromise
      · exact shifted
      · exact shifted
  case h_2 current => exact absurd current popped.stacked.ne_nil

theorem Sound.mark {promise : Nat} {record : TaskPromise} (sound : state.Sound)
    (known : state.promises[promise]? = some record) (pending : record.resolved = false) :
    ∃ after, state.queueStack.setPopable record.stackIdx = some after ∧
      Sound { state with
        queueStack := after
        promises := state.promises.set promise { record with resolved := true } } := by
  obtain ⟨after, marked, stacked, waiting, owners, -⟩ :=
    sound.stacked.setPopable known pending (sound.pending promise record known pending)
  refine ⟨after, marked, stacked, ?_, ?_, ?_⟩
  · intro other found lookup still
    rw [owners]
    by_cases same : promise = other
    · subst same
      rw [getElem?_set_self (List.getElem?_eq_some_iff.mp known).1] at lookup
      cases lookup
      cases still
    · rw [getElem?_set_ne same] at lookup
      exact sound.pending other found lookup still
  · intro found member
    obtain ⟨other, lookup⟩ := mem_iff_getElem?.mp member
    obtain ⟨before, knew, same⟩ := WellStacked.start_resolved known lookup
    rw [← same]
    exact sound.started before (mem_of_getElem? knew)
  · rw [waiting]
    exact sound.conserves

theorem Sound.resolve {promise : Nat} (sound : state.Sound)
    (resolved : state.resolve promise = some next) : next.Sound := by
  unfold TaskQueue.resolve at resolved
  split at resolved
  · cases resolved
  case h_2 record known =>
    split at resolved
    · cases resolved
    case isFalse unresolved =>
      obtain ⟨_, marked, still⟩ := sound.mark known (by simpa using unresolved)
      simp only [marked] at resolved
      cases resolved
      exact still.pop

theorem step_sound {event : TaskQueueEvent} (sound : state.Sound)
    (spares : state.SparesPending event) (stepped : state.step event = some next) : next.Sound := by
  cases event with
  | enqueue task =>
    cases stepped
    exact sound.enqueue task
  | cancelTasks =>
    cases stepped
    exact sound.cancelTasks spares
  | hasTasksToProcess =>
    cases stepped
    exact sound.pop
  | processNext =>
    cases stepped
    exact sound.processNext
  | resolve => exact sound.resolve stepped

theorem Sound.respectsPromises (sound : state.Sound) : state.RespectsPromises := by
  obtain ⟨popped, waiting, -⟩ := sound.stacked.getCurrentQueue
  refine ⟨?_, sound.conserves, ?_⟩
  · intro queue below queued tasks current first promise record known earlier
    rw [current] at popped
    have member : queued ∈ queue.tasks := by simp [first]
    -- A promise that started after the task was enqueued has left the stack.
    have gone : promise ∉ state.queueStack.getCurrentQueue.owners := by
      intro owner
      rw [current] at owner
      have later := popped.top_later member owner known
      omega
    constructor
    · by_contra unresolved
      have pending : record.resolved = false := by simpa using unresolved
      exact gone (sound.pop.pending promise record known pending)
    · intro other inside home
      rw [← waiting] at inside
      exact gone (sound.pop.stacked.home_mem inside home)
  · intro promise record known pending
    exact sound.stacked.queueAt_pending known pending (sound.pending promise record known pending)

/-- **Promises block.** In every state of a run in which cancelling spares the queues of
promises that have not resolved. -/
theorem run_respectsPromises {events : List TaskQueueEvent}
    (spares : Along step SparesPending {} events) (ran : run step {} events = some state) :
    state.RespectsPromises := by
  have start : Sound {} := by
    refine ⟨.base rfl rfl ?_, ?_, ?_, List.Perm.refl []⟩
    · nofun
    · nofun
    · nofun
  exact (run_induction (fun _ _ _ => step_sound) start spares ran).respectsPromises

def sampleTasks : List TaskQueueEvent :=
  [.enqueue (.promiseTask 0), .enqueue (.function 1), .processNext, .enqueue (.simpleTask 2),
    .enqueue (.function 3), .cancelTasks [.function 3], .resolve 0, .processNext, .processNext]

theorem run_respectsPromises_resolved :
    ∃ state, run step {} sampleTasks = some state ∧ state.ran = [0, 2, 1] ∧
      state.cancelled = [3] ∧ state.RespectsPromises := by
  refine ⟨_, rfl, by decide, by decide, @run_respectsPromises _ sampleTasks ?_ rfl⟩
  refine along_cons trivial rfl <| along_cons trivial rfl <| along_cons trivial rfl <|
    along_cons trivial rfl <| along_cons trivial rfl <| along_cons ?_ rfl <|
    along_cons trivial rfl <| along_cons trivial rfl <| along_cons trivial rfl trivial
  simp [SparesPending, QueueStack.SparesPending, QueueStack.Empties, TaskQueue.enqueue,
    TaskQueue.processNext, TaskQueue.genPromise, QueueStack.enqueue, QueueStack.getCurrentQueue]

theorem cancel_unblocks_waiting : ¬ ∀ (events : List TaskQueueEvent) (state : TaskQueue),
      run step {} events = some state → state.RespectsPromises := by
  intro always
  have respects := always
    [.enqueue (.promiseTask 0), .enqueue (.function 1), .processNext, .cancelTasks []] _ rfl
  obtain ⟨queue, found, -⟩ := respects.finds 0 ⟨1, 2, false⟩ rfl rfl
  cases found

end TaskQueue

end ReactNative

