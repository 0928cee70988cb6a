import Mathlib.Data.List.Perm.Basic

/-! A task that returns a promise pushes a queue of its own onto a stack, so that the tasks queued
before wait until the promise has resolved and the new queue is empty. -/
namespace ReactNative

/-- The references are what the language compares tasks by. -/
inductive Task where
  | function (reference : Nat)
  | simpleTask (reference : Nat)
  | promiseTask (reference : Nat)
  deriving DecidableEq

/-- A task in a queue, with what the source does not keep: a number of its own, and
the promise to whose queue it was added. -/
structure QueuedTask where
  task : Task
  stamp : Nat
  home : Option Nat
  deriving DecidableEq

/-- An entry of the stack. The source does not keep the promise that pushed it. -/
structure StackedQueue where
  tasks : List QueuedTask := []
  popable : Bool := false
  owner : Option Nat := none
  deriving DecidableEq

abbrev QueueStack := List StackedQueue

namespace QueueStack

def getCurrentQueue : QueueStack → QueueStack
  | queue :: next :: below =>
    if queue.popable && queue.tasks.isEmpty then getCurrentQueue (next :: below)
    else queue :: next :: below
  | stack => stack

variable (stack : QueueStack)

def hasTasksToProcess : Bool :=
  match stack.getCurrentQueue with
  | queue :: _ => !queue.tasks.isEmpty
  | [] => false

def enqueue (task : Task) (stamp : Nat) : QueueStack :=
  match stack.getCurrentQueue with
  | queue :: below =>
    { queue with tasks := queue.tasks ++ [⟨task, stamp, queue.owner⟩] } :: below
  | [] => []

def keepTasks (tasksToCancel : List Task) (queue : StackedQueue) : StackedQueue :=
  { queue with tasks := queue.tasks.filter fun queued => queued.task ∉ tasksToCancel }

/-- Queues that are left without tasks are removed, except for the lowest. -/
def cancelTasks (tasksToCancel : List Task) : QueueStack → QueueStack
  | [] => []
  | [queue] => [keepTasks tasksToCancel queue]
  | queue :: below =>
    if (keepTasks tasksToCancel queue).tasks.isEmpty then cancelTasks tasksToCancel below
    else keepTasks tasksToCancel queue :: cancelTasks tasksToCancel below

def queueAt (stackIdx : Nat) : QueueStack → Option StackedQueue
  | [] => none
  | queue :: below => if below.length = stackIdx then some queue else queueAt stackIdx below

/-- `_queueStack[stackIdx].popable = true`; there is nothing to set in `undefined`. -/
def setPopable (stackIdx : Nat) : QueueStack → Option QueueStack
  | [] => none
  | queue :: below =>
    if below.length = stackIdx then some ({ queue with popable := true } :: below)
    else (setPopable stackIdx below).map (queue :: ·)

def waiting : List QueuedTask := stack.flatMap StackedQueue.tasks

def owners : List Nat := stack.filterMap StackedQueue.owner

end QueueStack

/-- A promise that a task returned, with the position that its handler remembers,
the number of tasks enqueued by then, and whether the handler has run. -/
structure TaskPromise where
  stackIdx : Nat
  start : Nat
  resolved : Bool := false
  deriving DecidableEq

structure TaskQueue where
  queueStack : QueueStack := [{}]
  promises : List TaskPromise := []
  enqueued : Nat := 0
  ran : List Nat := []
  cancelled : List Nat := []
  deriving DecidableEq

/-- The methods of the queue, and the handler of a promise. Tasks and promises run
other code, which is free to call the methods again. -/
inductive TaskQueueEvent where
  | enqueue (task : Task)
  | cancelTasks (tasksToCancel : List Task)
  | hasTasksToProcess
  | processNext
  | resolve (promise : Nat)

namespace TaskQueue

def enqueue (state : TaskQueue) (task : Task) : TaskQueue :=
  { state with
    queueStack := state.queueStack.enqueue task state.enqueued
    enqueued := state.enqueued + 1 }

def cancelTasks (state : TaskQueue) (tasksToCancel : List Task) : TaskQueue :=
  { state with
    queueStack := state.queueStack.cancelTasks tasksToCancel
    cancelled :=
      state.cancelled ++ (state.queueStack.waiting.filter fun queued =>
        queued.task ∈ tasksToCancel).map QueuedTask.stamp }

variable (state : TaskQueue)

def genPromise : TaskQueue :=
  { state with
    queueStack := { owner := some state.promises.length } :: state.queueStack
    promises :=
      state.promises ++ [{ stackIdx := state.queueStack.length, start := state.enqueued }] }

def processNext : TaskQueue :=
  match state.queueStack.getCurrentQueue with
  | queue :: below =>
    match queue.tasks with
    | [] => { state with queueStack := queue :: below }
    | queued :: tasks =>
      let state := { state with
        queueStack := { queue with tasks } :: below
        ran := state.ran ++ [queued.stamp] }
      match queued.task with
      | .promiseTask _ => state.genPromise
      | .function _ | .simpleTask _ => state
  | [] => { state with queueStack := [] }

/-- The handler runs once; it fails when its entry of the stack is missing. -/
def resolve (promise : Nat) : Option TaskQueue :=
  match state.promises[promise]? with
  | none => none
  | some record =>
    if record.resolved then none
    else
      let promises := state.promises.set promise { record with resolved := true }
      match state.queueStack.setPopable record.stackIdx with
      | none => some { state with promises }
      | some stack => some { state with promises, queueStack := stack.getCurrentQueue }

def step : TaskQueueEvent → Option TaskQueue
  | .enqueue task => some (state.enqueue task)
  | .cancelTasks tasksToCancel => some (state.cancelTasks tasksToCancel)
  | .hasTasksToProcess => some { state with queueStack := state.queueStack.getCurrentQueue }
  | .processNext => some state.processNext
  | .resolve promise => state.resolve promise

structure RespectsPromises : Prop where
  /-- The next task was not waiting when a promise was made that is unresolved, or whose
  queue has had tasks that are still waiting. -/
  blocks : ∀ queue below queued tasks, state.queueStack.getCurrentQueue = queue :: below →
    queue.tasks = queued :: tasks → ∀ promise record, state.promises[promise]? = some record →
    queued.stamp < record.start → record.resolved = true ∧
      ∀ other ∈ state.queueStack.waiting, other.home ≠ some promise
  /-- Every enqueued task is one of: run, cancelled, waiting; and that once. -/
  conserves : (List.range state.enqueued).Perm
    (state.ran ++ state.cancelled ++ state.queueStack.waiting.map QueuedTask.stamp)
  /-- The handler of a promise finds the queue of the promise. -/
  finds : ∀ promise record, state.promises[promise]? = some record → record.resolved = false →
    ∃ queue, state.queueStack.queueAt record.stackIdx = some queue ∧ queue.owner = some promise

end TaskQueue

end ReactNative

