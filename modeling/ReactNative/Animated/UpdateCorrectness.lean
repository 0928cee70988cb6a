import ReactNative.Animated.GraphWalks
import ReactNative.Animated.OperatorNodes
import Mathlib.Data.Fin.VecNotation

/-! The first walk ends with the nodes that can be reached and the number of edges into each of
them. -/
namespace ReactNative

open TopologicalOrder Loops List

variable {N D E : Type}

namespace GraphWalk

variable [DecidableEq N]

/-! ### First walk -/

/-- The first walk after it has polled some nodes. -/
structure Counts (children : N → List N) (starts processed : List N) (walk : GraphWalk N D) :
    Prop where
  marks : Marks (processed ++ walk.nodesQueue) walk
  reached : ∀ n ∈ processed ++ walk.nodesQueue, Reaches children starts n
  starts : ∀ n ∈ starts, n ∈ processed ++ walk.nodesQueue
  closed : ∀ a ∈ processed, ∀ b, Edge children a b → b ∈ processed ++ walk.nodesQueue
  counts : ∀ n, walk.activeIncomingNodes n = incoming children processed n
  second : ∀ n, walk.bfsColor n ≠ nextColor walk.animatedGraphBFSColor
  noUpdates : walk.updated = []

variable {children : N → List N} {starts processed : List N} {walk next : GraphWalk N D}

variable {a : N} {rest : List N}

theorem Counts.turn (counts : Counts children starts processed walk)
    (queue : walk.nodesQueue = a :: rest) :
    Counts children starts (processed ++ [a])
      ((children a).foldl countChild { walk with nodesQueue := rest }) := by
  obtain ⟨added, enqueued⟩ := Enqueued.foldl enqueued_countChild (children a)
    { walk with nodesQueue := rest }
  have colored := colored_foldl_start colored_countChild (children a)
    { walk with nodesQueue := rest }
  have active := incoming_foldl incoming_countChild (children a) { walk with nodesQueue := rest }
  generalize (children a).foldl countChild { walk with nodesQueue := rest } = next
    at enqueued colored active
  have polled : Marks (processed ++ a :: rest) { walk with nodesQueue := rest } := by
    rw [← queue]
    exact ⟨counts.marks.nodup, counts.marks.colored, counts.marks.count⟩
  -- The nodes that have been in the queue are the ones from before and the new ones.
  have visited : processed ++ [a] ++ next.nodesQueue = processed ++ walk.nodesQueue ++ added := by
    rw [enqueued.queue, queue]
    simp
  have marks : Marks (processed ++ walk.nodesQueue ++ added) next := by
    rw [queue]
    exact polled.enqueued enqueued
  have isEdge : ∀ n ∈ added, Edge children a n := by
    intro n member
    obtain ⟨isColored, new⟩ := (polled.mem_added_iff enqueued).mp member
    rcases (colored n).mp isColored with old | child
    · exact absurd ((polled.colored n).mp old) new
    · exact child
  have reachesA : Reaches children starts a := counts.reached a (by rw [queue]; simp)
  constructor
  · rw [visited]
    exact marks
  · rw [visited]
    intro n member
    rcases mem_append.mp member with old | new
    · exact counts.reached n old
    · exact reachesA.edge (isEdge n new)
  · rw [visited]
    intro n member
    exact mem_append_left added (counts.starts n member)
  · rw [visited]
    intro b member child edge
    rcases mem_append.mp member with old | isLast
    · exact mem_append_left added (counts.closed b old child edge)
    · obtain rfl := mem_singleton.mp isLast
      exact (marks.colored child).mp ((colored child).mpr (.inr edge))
  · intro n
    rw [active, incoming_concat]
    have before := counts.counts n
    push_cast
    omega
  · intro n
    rw [enqueued.color, enqueued.sameColor]
    split
    · exact (nextColor_ne _).symm
    · exact counts.second n
  · rw [enqueued.sameUpdated]
    exact counts.noUpdates

theorem loop_countTurn [Fintype N] (counts : Counts children starts [] walk) {fuel : ℕ}
    (enough : Fintype.card N < fuel) :
    ∃ final reached, loop (countTurn (E := E) children) fuel walk = some (.ok final) ∧
      final.nodesQueue = [] ∧ Counts children starts reached final := by
  -- The loop is left after at most as many turns as there are nodes: each turn processes a new one.
  let Inv : ℕ → GraphWalk N D → Prop := fun left walk =>
    ∃ processed, left + processed.length = Fintype.card N ∧ Counts children starts processed walk
  have start : Inv (Fintype.card N) walk := ⟨[], rfl, counts⟩
  have stops : ∀ walk, Inv 0 walk → countTurn (E := E) children walk = none := by
    rintro walk ⟨processed, left, counts⟩
    rw [countTurn, counts.marks.queue_eq_nil (by omega)]
  have keeps : ∀ left walk next, Inv (left + 1) walk →
      countTurn (E := E) children walk = some (.ok next) → Inv left next := by
    rintro left walk next ⟨processed, size, counts⟩ turn
    unfold countTurn at turn
    split at turn
    · cases turn
    · rename_i a rest queue
      cases turn
      refine ⟨processed ++ [a], ?_, counts.turn queue⟩
      rw [length_append, length_singleton]
      omega
  -- The first walk calls no method of a node, and so never throws.
  have fails : ∀ left walk exception, Inv left walk →
      countTurn (E := E) children walk = some (.error exception) → False := by
    rintro left walk exception - turn
    unfold countTurn at turn
    split at turn <;> cases turn
  have ends := loop_countdown (countTurn children) Inv (fun _ => False) stops keeps fails start
    enough
  rcases ends with ⟨final, rest, ran, stopped, processed, -, counted⟩ | ⟨_, _, impossible⟩
  · refine ⟨final, processed, ran, ?_, counted⟩
    unfold countTurn at stopped
    split at stopped
    · assumption
    · cases stopped
  · cases impossible

/-! ### Second walk -/

structure Releases (children : N → List N) (starts all : List N) (walk : GraphWalk N D) : Prop where
  marks : Marks (walk.updated ++ walk.nodesQueue) walk
  subset : walk.updated ++ walk.nodesQueue ⊆ all
  counts : ∀ n, walk.activeIncomingNodes n + incoming children walk.updated n =
    incoming children all n
  zero : ∀ n ∈ walk.updated ++ walk.nodesQueue, walk.activeIncomingNodes n = 0
  ready : ∀ n ∈ all, walk.activeIncomingNodes n = 0 → n ∈ walk.updated ++ walk.nodesQueue
  ordered : Ordered children (Reaches children starts) walk.updated

variable {all : List N}

section

variable (releases : Releases children starts all walk)
  (reached : ∀ n, n ∈ all ↔ Reaches children starts n) (queue : walk.nodesQueue = a :: rest)
include releases reached queue

theorem Releases.ordered_poll :
    Ordered children (Reaches children starts) (walk.updated ++ [a]) := by
  apply releases.ordered.concat
  intro b reachesB edge
  by_contra missing
  -- An edge from a node that has not been updated would still be counted.
  have fewer := incoming_lt releases.marks.nodup.of_append_left
    (append_subset.mp releases.subset).1 ((reached b).mpr reachesB) missing edge
  have zero := releases.zero a (by rw [queue]; simp)
  have counts := releases.counts a
  omega

theorem Releases.turn (data : D) :
    Releases children starts all ((children a).foldl releaseChild
      { walk with nodesQueue := rest, updated := walk.updated ++ [a], data := data }) := by
  have marks := releases.marks
  have subset := releases.subset
  have zero := releases.zero
  have ready := releases.ready
  rw [queue] at marks subset zero ready
  have split : walk.updated ++ a :: rest = walk.updated ++ [a] ++ rest := by simp
  -- The edges from the node are among those that are still counted.
  have enough : ∀ n, ((children a).count n : Int) ≤ walk.activeIncomingNodes n := by
    intro n
    rw [split] at marks subset
    have bound : incoming children (walk.updated ++ [a]) n ≤ incoming children all n :=
      incoming_le marks.nodup.of_append_left (append_subset.mp subset).1 n
    rw [incoming_concat] at bound
    have counts := releases.counts n
    omega
  let polled : GraphWalk N D :=
    { walk with nodesQueue := rest, updated := walk.updated ++ [a], data := data }
  obtain ⟨added, enqueued⟩ := Enqueued.foldl enqueued_releaseChild (children a) polled
  have colored : ∀ n, ((children a).foldl releaseChild polled).Colored n ↔
      polled.Colored n ∨ (n ∈ children a ∧ walk.activeIncomingNodes n = (children a).count n) :=
    fun n => colored_foldl_releaseChild (children a) polled n (enough n)
  have active := incoming_foldl incoming_releaseChild (children a) polled
  generalize (children a).foldl releaseChild polled = next at enqueued colored active
  have polledMarks : Marks (walk.updated ++ a :: rest) polled :=
    ⟨marks.nodup, marks.colored, marks.count⟩
  have nextMarks := polledMarks.enqueued enqueued
  have activeNext : ∀ n, next.activeIncomingNodes n =
      walk.activeIncomingNodes n - (children a).count n := by
    intro n
    rw [active]
    change walk.activeIncomingNodes n + _ = _
    omega
  have updated : next.updated = walk.updated ++ [a] := enqueued.sameUpdated
  have visited : next.updated ++ next.nodesQueue = walk.updated ++ a :: rest ++ added := by
    rw [updated, enqueued.queue]
    simp [polled]
  have isReady : ∀ n ∈ added,
      n ∈ children a ∧ walk.activeIncomingNodes n = (children a).count n := by
    intro n member
    obtain ⟨isColored, new⟩ := (polledMarks.mem_added_iff enqueued).mp member
    rcases (colored n).mp isColored with old | released
    · exact absurd ((polledMarks.colored n).mp old) new
    · exact released
  have reachesA : Reaches children starts a :=
    (reached a).mp (subset (mem_append_right walk.updated mem_cons_self))
  constructor
  · rw [visited]
    exact nextMarks
  · rw [visited, append_subset]
    refine ⟨subset, ?_⟩
    intro n member
    exact (reached n).mpr (reachesA.edge (isReady n member).1)
  · intro n
    have counts := releases.counts n
    rw [activeNext, updated, incoming_concat]
    omega
  · rw [visited]
    intro n member
    rw [activeNext]
    rcases mem_append.mp member with old | new
    · have wasZero := zero n old
      have bound := enough n
      omega
    · have released := (isReady n new).2
      omega
  · rw [visited]
    intro n member isZero
    rw [activeNext] at isZero
    by_cases wasZero : walk.activeIncomingNodes n = 0
    · exact mem_append_left added (ready n member wasZero)
    · have child : n ∈ children a := count_pos_iff.mp (by omega)
      exact (nextMarks.colored n).mp ((colored n).mpr (.inr ⟨child, by omega⟩))
  · rw [updated]
    exact releases.ordered_poll reached queue

end

/-- Every call of `update()` was on a node that can be reached, after its predecessors, and
was the only one. -/
structure InOrder (children : N → List N) (starts updated : List N) : Prop where
  once : updated.Nodup
  reached : ∀ n ∈ updated, Reaches children starts n
  ordered : Ordered children (Reaches children starts) updated

/-- A node that was visited has thrown the exception. -/
def ThrownByNode (children : N → List N) (methods : N → AnimatedNodeMethods D E)
    (starts : List N) (thrown : UpdateException E × GraphWalk N D) : Prop :=
  InOrder children starts thrown.2.updated ∧ ∃ error, thrown.1 = .thrown error ∧
      ∃ n ∈ thrown.2.updated, ∃ data changed, (methods n).visit data = .error (error, changed)

theorem loop_updateTurn [Fintype N] (methods : N → AnimatedNodeMethods D E)
    (reached : ∀ n, n ∈ all ↔ Reaches children starts n)
    (noUpdates : walk.updated = []) (releases : Releases children starts all walk) {fuel : ℕ}
    (enough : Fintype.card N < fuel) :
    (∃ final, loop (updateTurn children methods) fuel walk = some (.ok final) ∧
      final.nodesQueue = [] ∧ Releases children starts all final) ∨
    ∃ thrown, loop (updateTurn children methods) fuel walk = some (.error thrown) ∧
      ThrownByNode children methods starts thrown := by
  -- As in the first walk, the nodes updated so far bound the turns that remain.
  let Inv : ℕ → GraphWalk N D → Prop := fun left walk =>
    left + walk.updated.length = Fintype.card N ∧ Releases children starts all walk
  have start : Inv (Fintype.card N) walk := by
    refine ⟨?_, releases⟩
    rw [noUpdates]
    rfl
  have stops : ∀ walk, Inv 0 walk → updateTurn children methods walk = none := by
    rintro walk ⟨size, releases⟩
    rw [updateTurn, releases.marks.queue_eq_nil (by omega)]
  have keeps : ∀ left walk next, Inv (left + 1) walk →
      updateTurn children methods walk = some (.ok next) → Inv left next := by
    rintro left walk next ⟨size, releases⟩ turn
    unfold updateTurn at turn
    split at turn
    · cases turn
    · rename_i a rest queue
      split at turn
      · cases turn
      · rename_i data _
        cases turn
        refine ⟨?_, releases.turn reached queue data⟩
        obtain ⟨added, enqueued⟩ := Enqueued.foldl enqueued_releaseChild (children a)
          { walk with nodesQueue := rest, updated := walk.updated ++ [a], data := data }
        rw [enqueued.sameUpdated, length_append, length_singleton]
        omega
  -- If a turn throws, everything updated before was reached and in order.
  have fails : ∀ left walk thrown, Inv left walk →
      updateTurn children methods walk = some (.error thrown) →
      ThrownByNode children methods starts thrown := by
    rintro left walk thrown ⟨-, releases⟩ turn
    unfold updateTurn at turn
    split at turn
    · cases turn
    · rename_i a rest queue
      split at turn
      · rename_i error data visit
        cases turn
        have nodup := releases.marks.nodup
        have subset := releases.subset
        rw [queue, show walk.updated ++ a :: rest = walk.updated ++ [a] ++ rest by simp]
          at nodup subset
        refine ⟨⟨nodup.of_append_left, ?_, releases.ordered_poll reached queue⟩, error, rfl, a,
          mem_append_right _ mem_cons_self, walk.data, data, visit⟩
        intro n member
        exact (reached n).mp (subset (mem_append_left rest member))
      · cases turn
  rcases loop_countdown (updateTurn children methods) Inv
      (ThrownByNode children methods starts) stops keeps fails start enough with
    ⟨final, rest, ran, stopped, -, released⟩ | thrown
  · left
    refine ⟨final, ran, ?_, released⟩
    unfold updateTurn at stopped
    split at stopped
    · assumption
    · split at stopped <;> cases stopped
  · right
    exact thrown

/-! ### Starts and ends of the walks -/

omit [DecidableEq N] in
theorem marks_useNextColor {walk : GraphWalk N D}
    (fresh : ∀ n, walk.bfsColor n ≠ nextColor walk.animatedGraphBFSColor)
    (noCount : walk.nodesCount = 0) : Marks [] walk.useNextColor where
  nodup := nodup_nil
  colored n := by
    constructor
    · intro colored
      exact absurd colored (fresh n)
    · nofun
  count := noCount

theorem counts_start (children : N → List N) {manager : NativeAnimatedNodesManager N D} (fresh : manager.FreshColors)
    (idle : ∀ n, manager.activeIncomingNodes n = 0) (nodes : List N) :
    Counts children nodes [] (nodes.foldl start (useNextColor { manager with })) := by
  have empty : Marks [] (useNextColor { manager with }) :=
    marks_useNextColor (fun n => (fresh n).1) rfl
  obtain ⟨added, enqueued⟩ := Enqueued.foldl enqueued_start nodes (useNextColor { manager with })
  have colored := colored_foldl_start colored_start nodes (useNextColor { manager with })
  have active := incoming_foldl_same incoming_start nodes (useNextColor { manager with })
  have mem_added : ∀ n, n ∈ added ↔ n ∈ nodes := by
    intro n
    rw [empty.mem_added_iff enqueued, colored, empty.colored]
    simp
  have queue : (nodes.foldl start (useNextColor { manager with })).nodesQueue = added :=
    enqueued.queue
  constructor
  · rw [queue]
    exact empty.enqueued enqueued
  · rw [queue]
    intro n member
    exact .start ((mem_added n).mp member)
  · rw [queue]
    intro n member
    exact (mem_added n).mpr member
  · nofun
  · intro n
    rw [active]
    exact idle n
  · intro n
    rw [enqueued.color, enqueued.sameColor]
    split
    · exact (nextColor_ne _).symm
    · exact (fresh n).2
  · exact enqueued.sameUpdated

theorem Counts.mem_iff (counts : Counts children starts all walk) (ended : walk.nodesQueue = [])
    (n : N) : n ∈ all ↔ Reaches children starts n := by
  have reached := counts.reached
  have hasStarts := counts.starts
  have closed := counts.closed
  rw [ended, append_nil] at reached hasStarts closed
  constructor
  · exact reached n
  · intro reaches
    exact reaches.mem_of_closed hasStarts (fun a b member edge => closed a member b edge)

theorem releases_start (counts : Counts children starts all walk) (ended : walk.nodesQueue = []) :
    Releases children starts all
      (starts.foldl startReady (useNextColor { walk with nodesCount := 0 })) := by
  have reached := counts.mem_iff ended
  have empty : Marks [] (useNextColor { walk with nodesCount := 0 }) :=
    marks_useNextColor counts.second rfl
  obtain ⟨added, enqueued⟩ := Enqueued.foldl enqueued_startReady starts
    (useNextColor { walk with nodesCount := 0 })
  have colored := colored_foldl_startReady starts (useNextColor { walk with nodesCount := 0 })
  have active := incoming_foldl_same incoming_startReady starts
    (useNextColor { walk with nodesCount := 0 })
  -- The start queues the nodes it names that nothing counted points to.
  have mem_added : ∀ n, n ∈ added ↔ n ∈ starts ∧ walk.activeIncomingNodes n = 0 := by
    intro n
    rw [empty.mem_added_iff enqueued, colored, empty.colored]
    simp only [not_mem_nil, false_or, not_false_eq_true, and_true]
    rfl
  have nextMarks := empty.enqueued enqueued
  generalize starts.foldl startReady (useNextColor { walk with nodesCount := 0 }) = next
    at enqueued active nextMarks
  have updated : next.updated = [] := by
    rw [enqueued.sameUpdated]
    exact counts.noUpdates
  have queue : next.nodesQueue = added := by
    rw [enqueued.queue]
    change walk.nodesQueue ++ added = added
    rw [ended, nil_append]
  have sameActive : ∀ n, next.activeIncomingNodes n = walk.activeIncomingNodes n := congrFun active
  constructor
  · rw [updated, queue]
    exact nextMarks
  · rw [updated, queue]
    intro n member
    exact (reached n).mpr (.start ((mem_added n).mp member).1)
  · intro n
    rw [sameActive, updated, counts.counts]
    rfl
  · rw [updated, queue]
    intro n member
    rw [sameActive]
    exact ((mem_added n).mp member).2
  -- A node that was not queued has an incoming edge from a node that was reached.
  · rw [updated, queue]
    intro n member zero
    rw [sameActive] at zero
    rcases ((reached n).mp member).cases with isStart | ⟨a, reachesA, edge⟩
    · exact (mem_added n).mpr ⟨isStart, zero⟩
    · have positive := incoming_lt nodup_nil (nil_subset all)
        ((reached a).mpr reachesA) (not_mem_nil) edge
      have counted := counts.counts n
      omega
  · rw [updated]
    exact ordered_nil

section End

variable (releases : Releases children starts all walk) (ended : walk.nodesQueue = [])
  (reached : ∀ n, n ∈ all ↔ Reaches children starts n)
include releases ended

theorem Releases.updated_subset : walk.updated ⊆ all := by
  have subset := releases.subset
  rw [ended, append_nil] at subset
  exact subset

include reached in
theorem Releases.inOrder : InOrder children starts walk.updated where
  once := releases.marks.nodup.of_append_left
  reached n member := (reached n).mp (releases.updated_subset ended member)
  ordered := releases.ordered

theorem Releases.subset_of_length (same : all.length = walk.nodesCount) : all ⊆ walk.updated := by
  have count := releases.marks.count
  rw [ended, append_nil] at count
  have subperm := releases.marks.nodup.of_append_left.subperm (releases.updated_subset ended)
  have perm : walk.updated.Perm all := subperm.perm_of_length_le (by omega)
  exact perm.symm.subset

include reached in
/-- Without a cycle, all nodes were updated, and no edge is counted any more. -/
theorem Releases.complete [Finite N] (nodup : all.Nodup) (acyclic : ¬ HasCycle children starts) :
    walk.updated.Perm all ∧ ∀ n, walk.activeIncomingNodes n = 0 := by
  have ready := releases.ready
  rw [ended, append_nil] at ready
  have isUpdated : ∀ n, Reaches children starts n → n ∈ walk.updated := by
    intro n reaches
    refine reaches.mem_of_acyclic acyclic (fun n => n ∈ walk.updated) ?_
    intro m reachesM predecessors
    apply ready m ((reached m).mpr reachesM)
    -- All edges into the node come from nodes that have been updated.
    have fewer : incoming children all m ≤ incoming children walk.updated m :=
      incoming_le_of_edges nodup fun a member => predecessors a ((reached a).mp member)
    have more : incoming children walk.updated m ≤ incoming children all m :=
      incoming_le releases.marks.nodup.of_append_left (releases.updated_subset ended) m
    have counts := releases.counts m
    omega
  have perm : walk.updated.Perm all :=
    (perm_ext_iff_of_nodup releases.marks.nodup.of_append_left nodup).mpr fun n =>
      ⟨fun member => releases.updated_subset ended member,
        fun member => isUpdated n ((reached n).mp member)⟩
  refine ⟨perm, ?_⟩
  intro n
  have counts := releases.counts n
  rw [incoming_perm perm n] at counts
  omega

end End

end GraphWalk

open GraphWalk

variable [DecidableEq N]

def thrownMessage {N D E : Type} :
    Option (Except (UpdateException E × GraphWalk N D) (GraphWalk N D)) → Option E
  | some (.error (.thrown message, _)) => some message
  | _ => none

theorem thrownMessage_eq_some {N D E : Type} {message : E}
    {result : Option (Except (UpdateException E × GraphWalk N D) (GraphWalk N D))}
    (thrown : thrownMessage result = some message) :
    ∃ walk, result = some (.error (.thrown message, walk)) := by
  unfold thrownMessage at thrown
  split at thrown
  · rename_i text walk
    cases thrown
    exact ⟨walk, rfl⟩
  · cases thrown

end ReactNative

