import ReactNative.Animated.RemoveChild
import Mathlib.Data.Fin.VecNotation

/-! After every operation the connections between counterparts are those between native nodes and
their children, as long as no node is dropped that native nodes still have as a child (`Careful`).
-/
namespace ReactNative

open Loops Runs

namespace AnimatedNodes

variable {count : ℕ} {parents : Fin count → List (Fin count)} {nodes after : AnimatedNodes count}
  {n child : Fin count} {connected : Multiset (Fin count × Fin count)}

/-! ### What each operation does -/

theorem attach_spec (older : ∀ n, ∀ parent ∈ parents n, parent < n)
    (mirrors : nodes.Mirrors connected) (n : Fin count) :
    ∃ after connectedAfter,
      (parents n).foldlM (fun nodes parent => addChild parents count nodes parent n) nodes =
        some after ∧ Adds nodes connected after connectedAfter := by
  obtain ⟨after, loops, connectedAfter, adds⟩ := foldlM_countdown
    (fun nodes parent => addChild parents count nodes parent n)
    (fun _ state => ∃ connectedHere, Adds nodes connected state connectedHere) (by
      rintro parent rest state ⟨connectedHere, adds⟩
      obtain ⟨next, connectedNext, addsParent, addsNext⟩ :=
        addChild_spec older adds.mirrors parent.isLt n
      exact ⟨next, addsParent, connectedNext, adds.trans addsNext⟩)
    (⟨connected, Adds.refl mirrors⟩ : ∃ connectedHere, Adds nodes connected nodes connectedHere)
  exact ⟨after, connectedAfter, loops, adds⟩

theorem makeNativeQueued_spec (older : ∀ n, ∀ parent ∈ parents n, parent < n)
    (mirrors : nodes.Mirrors connected) (unqueued : nodes.queue = [])
    (queueOff : nodes.queueConnections = false) (n : Fin count) :
    ∃ after connectedAfter,
      (makeNative parents (nativeFuel count) nodes.enableQueue n).map disableQueue = some after ∧
        Adds nodes connected after connectedAfter := by
  have enabled : nodes.enableQueue.Mirrors connected :=
    mirrors.of_same (fun _ => rfl) (fun _ => id) rfl rfl rfl
  obtain ⟨made, connectedMade, makes, nativizes, -⟩ :=
    makeNative_spec older enabled (enough_fuel nodes.enableQueue n)
  refine ⟨made.disableQueue, connectedMade, by rw [makes]; rfl, ?_⟩
  have adds := nativizes.adds
  refine ⟨?_, adds.children, adds.listeners, adds.native, queueOff.symm, fun _ => unqueued.symm,
    adds.closed, adds.mirrors.disableQueue, adds.balance⟩
  exact adds.created

/-- The listeners of a node have changed, and its tag may have been read for that. -/
structure Relistens (nodes : AnimatedNodes count) (n : Fin count) (after : AnimatedNodes count) :
    Prop where
  created : ∀ m, (after.node m).nativeTag ≠ none → (nodes.node m).nativeTag ≠ none ∨ m = n
  children : ∀ m, (after.node m).children = (nodes.node m).children
  listeners : ∀ m, m ≠ n → (after.node m).listeners = (nodes.node m).listeners
  native : ∀ m, (after.node m).isNative = (nodes.node m).isNative
  queueConnections : after.queueConnections = nodes.queueConnections
  queue : nodes.queueConnections = false → after.queue = nodes.queue

theorem relistens_modify (nodes : AnimatedNodes count) (n : Fin count) (uniqueId : ℕ)
    (change : Finset ℕ → Finset ℕ) :
    Relistens nodes n (({ nodes with uniqueId := uniqueId } : AnimatedNodes count).modify n
      fun node => { node with listeners := change node.listeners }) where
  created m tagged := by
    rw [modify_node_eq AnimatedNode.nativeTag rfl] at tagged
    exact Or.inl tagged
  children := modify_node_eq AnimatedNode.children rfl
  listeners m differs := by rw [modify_node_of_ne _ _ differs]
  native := modify_node_eq AnimatedNode.isNative rfl
  queueConnections := rfl
  queue _ := rfl

theorem Relistens.reads {between : AnimatedNodes count} (relistens : Relistens nodes n between)
    (reads : ReadsTags (· = n) between after) : Relistens nodes n after where
  created m tagged := by
    rcases reads.created m tagged with taggedBetween | isNode
    · exact relistens.created m taggedBetween
    · exact Or.inr isNode
  children m := (reads.children m).trans (relistens.children m)
  listeners m differs := (reads.listeners m).trans (relistens.listeners m differs)
  native m := (reads.native m).trans (relistens.native m)
  queueConnections := reads.queueConnections.trans relistens.queueConnections
  queue queueOff := (reads.queue (relistens.queueConnections.trans queueOff)).trans
    (relistens.queue queueOff)

section

variable (mirrors : nodes.Mirrors connected) (n : Fin count)
include mirrors

theorem addListener_spec :
    (nodes.addListener n).Mirrors connected ∧ Relistens nodes n (nodes.addListener n) ∧
      ((nodes.addListener n).node n).listeners ≠ ∅ := by
  have counted : ({ nodes with uniqueId := nodes.uniqueId + 1 } : AnimatedNodes count).Mirrors
      connected := mirrors.of_same (fun _ => rfl) (fun _ => id) rfl rfl rfl
  have modified := counted.modify n
    (fun node => { node with listeners := insert nodes.uniqueId node.listeners }) rfl id
  have relistens := relistens_modify nodes n (nodes.uniqueId + 1) (insert nodes.uniqueId)
  have listened : ((({ nodes with
      uniqueId := nodes.uniqueId + 1 } : AnimatedNodes count).modify n fun node =>
        { node with listeners := insert nodes.uniqueId node.listeners }).node n).listeners ≠ ∅ := by
    rw [modify_node_self]
    exact Finset.insert_ne_empty _ _
  rw [addListener]
  split
  next isNative =>
    obtain ⟨mirrorsAfter, reads⟩ := modified.startListening isNative
    refine ⟨mirrorsAfter, relistens.reads reads, ?_⟩
    rw [reads.listeners]
    exact listened
  next => exact ⟨modified, relistens, listened⟩

theorem removeListener_spec (id : ℕ) :
    (nodes.removeListener n id).Mirrors connected ∧
      Relistens nodes n (nodes.removeListener n id) := by
  have modified := mirrors.modify n
    (fun node => { node with listeners := node.listeners.erase id }) rfl fun isNative => isNative
  have relistens := relistens_modify nodes n nodes.uniqueId fun listeners => listeners.erase id
  rw [removeListener]
  split
  next stops =>
    obtain ⟨mirrorsAfter, reads⟩ := modified.stopListening stops.1
    exact ⟨mirrorsAfter, relistens.reads reads⟩
  next => exact ⟨modified, relistens⟩

theorem removeAllListeners_spec :
    (nodes.removeAllListeners n).Mirrors connected ∧
      Relistens nodes n (nodes.removeAllListeners n) := by
  have modified := mirrors.modify n (fun node => { node with listeners := ∅ }) rfl id
  have relistens := relistens_modify nodes n nodes.uniqueId fun _ => ∅
  rw [removeAllListeners]
  split
  next isNative =>
    obtain ⟨mirrorsAfter, reads⟩ := modified.stopListening isNative
    exact ⟨mirrorsAfter, relistens.reads reads⟩
  next => exact ⟨modified, relistens⟩

end

/-! ### Nodes that are detached -/

/-- The nodes that are detached with the given one: those that lose all their children. -/
inductive Detaches (nodes : AnimatedNodes count) (first : Fin count) : Fin count → Prop
  | first : Detaches nodes first first
  | emptied (m : Fin count) : (nodes.node m).children ≠ [] →
    (∀ child ∈ (nodes.node m).children, Detaches nodes first child) → Detaches nodes first m

/-- Native nodes have the node as a child only as often as it has them as parents. -/
def Owned (parents : Fin count → List (Fin count)) (nodes : AnimatedNodes count)
    (m : Fin count) : Prop :=
  (nodes.node m).isNative = true → ∀ parent, (nodes.node parent).isNative = true →
    (nodes.node parent).children.count m ≤ (parents m).count parent

instance (nodes : AnimatedNodes count) (m : Fin count) : Decidable (Owned parents nodes m) :=
  inferInstanceAs (Decidable (_ → _))

/-- A native node is detached without children, and the nodes that are detached own their
places. -/
def Careful (parents : Fin count → List (Fin count)) (nodes : AnimatedNodes count) :
    AnimatedOperation count → Prop
  | .detach n => ((nodes.node n).isNative = true → (nodes.node n).children = []) ∧
    ∀ m, nodes.Detaches n m → Owned parents nodes m
  | .removeChild n child => (nodes.node n).children = [child] →
    ∀ m, nodes.Detaches n m → Owned parents nodes m
  | _ => True

theorem detachable_of_owned (owned : ∀ m, nodes.Detaches n m → Owned parents nodes m) :
    Detachable parents (nodes.Detaches n) nodes where
  emptied := Detaches.emptied
  owned := owned

theorem within_refl (detached : Fin count → Prop) (nodes : AnimatedNodes count) :
    Within detached nodes nodes := ⟨Shrinks.refl nodes, fun _ _ => Or.inl⟩

variable {connectedAfter : Multiset (Fin count × Fin count)}

theorem Splices.detaches (splices : Splices nodes connected n child after connectedAfter)
    {m : Fin count} (detaches : after.Detaches n m) : nodes.Detaches n m := by
  induction detaches with
  | first => exact Detaches.first
  | emptied m hasChildren _ ih =>
    by_cases isNode : m = n
    · subst isNode
      exact Detaches.first
    · rw [splices.others m isNode] at hasChildren ih
      exact Detaches.emptied m hasChildren ih

theorem Shrinks.owned (shrinks : Shrinks nodes after) {m : Fin count}
    (owned : Owned parents nodes m) : Owned parents after m := by
  intro isNative parent parentNative
  rw [shrinks.native] at isNative parentNative
  exact ((shrinks.children parent).count_le m).trans (owned isNative parent parentNative)

/-! ### The invariant -/

structure Mirrored (nodes : AnimatedNodes count) : Prop where
  closed : nodes.Closed
  mirrors : nodes.Mirrors nodes.edges
  unqueued : nodes.queue = []
  queueOff : nodes.queueConnections = false

theorem mirrored_initial : Mirrored ({} : AnimatedNodes count) := by
  have none : ({} : AnimatedNodes count).edges = 0 := by
    exact Finset.sum_eq_zero fun m _ => rfl
  refine ⟨nofun, ?_, rfl, rfl⟩
  rw [none]
  refine ⟨⟨?_, ?_, ?_, ?_, ?_, ?_, ?_, ?_⟩, rfl, ?_⟩
  · nofun
  · nofun
  · nofun
  · intro tag
    constructor
    · intro member
      exact absurd member (Finset.notMem_empty tag)
    · rintro ⟨m, isTag⟩
      cases isTag
  · intro before command after split
    exact absurd split.symm (List.append_ne_nil_of_right_ne_nil _ (List.cons_ne_nil _ _))
  · intro tag _
    rfl
  · intro tag
    exact Nat.zero_le 1
  · intro tag
    rfl
  · intro pair member
    exact absurd member (Multiset.notMem_zero pair)

theorem Adds.mirrored
    (adds : Adds nodes nodes.edges after connectedAfter) (mirrored : nodes.Mirrored) :
    after.Mirrored where
  closed := adds.closed mirrored.closed
  mirrors := by
    have same : connectedAfter = after.edges := by
      have balance := adds.balance
      rw [add_comm] at balance
      exact add_left_cancel balance
    rw [← same]
    exact adds.mirrors
  unqueued := (adds.queue mirrored.queueOff).trans mirrored.unqueued
  queueOff := adds.queueConnections.trans mirrored.queueOff

theorem Relistens.mirrored (relistens : Relistens nodes n after)
    (mirrors : after.Mirrors nodes.edges) (mirrored : nodes.Mirrored) : after.Mirrored where
  closed m isNative child isChild := by
    rw [relistens.native] at isNative ⊢
    rw [relistens.children] at isChild
    exact mirrored.closed m isNative child isChild
  mirrors := by
    rw [edges_congr relistens.children relistens.native]
    exact mirrors
  unqueued := (relistens.queue mirrored.queueOff).trans mirrored.unqueued
  queueOff := relistens.queueConnections.trans mirrored.queueOff

theorem Shrinks.mirrored (shrinks : Shrinks nodes after) (mirrored : nodes.Mirrored)
    (mirrors : after.Mirrors connectedAfter)
    (isEdges : connectedAfter = after.edges) : after.Mirrored where
  closed := shrinks.closed mirrored.closed
  mirrors := isEdges ▸ mirrors
  unqueued := shrinks.queue.trans mirrored.unqueued
  queueOff := shrinks.queueConnections.trans mirrored.queueOff

section

variable (older : ∀ n, ∀ parent ∈ parents n, parent < n) (mirrored : nodes.Mirrored)
include older mirrored

theorem Mirrored.detach {fuel : ℕ} (enough : (n : ℕ) ≤ fuel)
    (noChildren : (nodes.node n).isNative = true → (nodes.node n).children = [])
    (owned : ∀ m, nodes.Detaches n m → Owned parents nodes m) :
    ∃ after, detachFrom parents (removeChild parents fuel) nodes n = some after ∧
      after.Mirrored := by
  obtain ⟨after, _, detaches, drops⟩ :=
    detach_spec older mirrored.mirrors mirrored.unqueued mirrored.queueOff enough
  obtain ⟨-, isEdges⟩ := drops.exact _ nodes (detachable_of_owned owned) (within_refl _ nodes)
    Detaches.first noChildren mirrored.closed rfl
  exact ⟨after, detaches, drops.shrinks.mirrored mirrored drops.mirrors isEdges⟩

theorem Mirrored.removeChild
    (owned : (nodes.node n).children = [child] → ∀ m, nodes.Detaches n m → Owned parents nodes m) :
    ∃ after, AnimatedNodes.removeChild parents count nodes n child = some after ∧
      after.Mirrored := by
  obtain ⟨_, rfl⟩ := Nat.exists_eq_succ_of_ne_zero (Nat.ne_of_gt (Fin.pos n))
  rw [removeChild_eq]
  by_cases isChild : child ∈ (nodes.node n).children
  · rw [if_neg (not_not_intro isChild)]
    obtain ⟨_, splices⟩ :=
      splice_spec mirrored.mirrors mirrored.unqueued mirrored.queueOff isChild
    have mirroredSpliced : (nodes.splice n child).Mirrored :=
      splices.shrinks.mirrored mirrored splices.mirrors (splices.exact mirrored.closed rfl)
    split
    next noChildren =>
      refine mirroredSpliced.detach older (Nat.le_of_lt_succ n.isLt) (fun _ => noChildren) ?_
      intro m detaches
      refine splices.shrinks.owned (owned ?_ m (splices.detaches detaches))
      rw [splices.here, List.erase_eq_nil_iff] at noChildren
      exact noChildren.resolve_left (List.ne_nil_of_mem isChild)
    next => exact ⟨_, rfl, mirroredSpliced⟩
  · rw [if_pos isChild]
    exact ⟨nodes, rfl, mirrored⟩

/-- **Each careful operation ends and keeps the connections those of the children.** -/
theorem Mirrored.step {operation : AnimatedOperation count}
    (careful : Careful parents nodes operation) :
    ∃ after, step parents nodes operation = some after ∧ after.Mirrored := by
  cases operation with
  | attach n =>
    obtain ⟨after, connectedAfter, attaches, adds⟩ := attach_spec older mirrored.mirrors n
    exact ⟨after, attaches, adds.mirrored mirrored⟩
  | detach n => exact mirrored.detach older (Nat.le_of_lt n.isLt) careful.1 careful.2
  | addChild n child =>
    obtain ⟨after, connectedAfter, addsChild, adds⟩ :=
      addChild_spec older mirrored.mirrors n.isLt child
    exact ⟨after, addsChild, adds.mirrored mirrored⟩
  | removeChild n child => exact mirrored.removeChild older careful
  | makeNative n =>
    obtain ⟨after, connectedAfter, makes, nativizes, -⟩ :=
      makeNative_spec older mirrored.mirrors (enough_fuel nodes n)
    exact ⟨after, makes, nativizes.adds.mirrored mirrored⟩
  | makeNativeQueued n =>
    obtain ⟨after, connectedAfter, makes, adds⟩ :=
      makeNativeQueued_spec older mirrored.mirrors mirrored.unqueued mirrored.queueOff n
    exact ⟨after, makes, adds.mirrored mirrored⟩
  | addListener n =>
    obtain ⟨mirrors, relistens, -⟩ := addListener_spec mirrored.mirrors n
    exact ⟨_, rfl, relistens.mirrored mirrors mirrored⟩
  | removeListener n id =>
    obtain ⟨mirrors, relistens⟩ := removeListener_spec mirrored.mirrors n id
    exact ⟨_, rfl, relistens.mirrored mirrors mirrored⟩
  | removeAllListeners n =>
    obtain ⟨mirrors, relistens⟩ := removeAllListeners_spec mirrored.mirrors n
    exact ⟨_, rfl, relistens.mirrored mirrors mirrored⟩

end

/-- The edges between native nodes, by their tags. -/
def nativeEdges (nodes : AnimatedNodes count) : Multiset (Option ℕ × Option ℕ) :=
  Finset.univ.sum fun parent =>
    if (nodes.node parent).isNative then
      (((nodes.node parent).children.filter fun child => (nodes.node child).isNative).map
        fun child => ((nodes.node parent).nativeTag, (nodes.node child).nativeTag) : List _)
    else 0

theorem Closed.nativeEdges_eq (closed : nodes.Closed) :
    nodes.nativeEdges = nodes.edges.map fun pair =>
      ((nodes.node pair.1).nativeTag, (nodes.node pair.2).nativeTag) := by
  rw [nativeEdges, edges, ← Multiset.coe_mapAddMonoidHom, map_sum]
  refine Finset.sum_congr rfl fun m _ => ?_
  rw [Multiset.coe_mapAddMonoidHom, edgesFrom]
  split
  next isNative =>
    have all : ((nodes.node m).children.filter fun child => (nodes.node child).isNative) =
        (nodes.node m).children := List.filter_eq_self.mpr (closed m isNative)
    rw [all, Multiset.map_coe, List.map_map]
    rfl
  next => rfl

theorem Mirrored.nativeGraph_edges (mirrored : nodes.Mirrored) :
    (nativeGraph nodes.commands).edges.map (fun edge => (some edge.1, some edge.2)) =
      nodes.nativeEdges := by
  have edges := mirrored.mirrors.edges
  rw [mirrored.unqueued, Multiset.coe_nil, add_zero] at edges
  rw [mirrored.closed.nativeEdges_eq, edges, Multiset.map_map]
  refine Multiset.map_congr rfl fun pair member => ?_
  obtain ⟨parentTagged, childTagged⟩ := mirrored.mirrors.tagged pair member
  obtain ⟨_, isParent⟩ := Option.ne_none_iff_exists'.mp parentTagged
  obtain ⟨_, isChild⟩ := Option.ne_none_iff_exists'.mp childTagged
  rw [Function.comp_apply, tagPair_eq isParent isChild, isParent, isChild]

/-- **The native graph mirrors the nodes** after every run of careful operations: its connections
are the edges between native nodes, and all commands refer to counterparts that exist. -/
theorem nativeGraph_mirrors (older : ∀ n, ∀ parent ∈ parents n, parent < n)
    {operations : List (AnimatedOperation count)}
    (along : Along (step parents) (Careful parents) {} operations) :
    ∃ final, run (step parents) {} operations = some final ∧ Refers final.commands ∧
      (nativeGraph final.commands).edges.map (fun edge => (some edge.1, some edge.2)) =
        final.nativeEdges := by
  obtain ⟨final, ran, mirrored⟩ := run_progress
    (fun _ _ mirrored careful => Mirrored.step older mirrored careful) mirrored_initial along
  exact ⟨final, ran, mirrored.mirrors.refers, mirrored.nativeGraph_edges⟩

theorem nativeGraph_mirrors_interpolation :
    ∃ final, run (step ![[], [0]]) {} [.makeNative 0, .attach 1, .detach 1] = some final ∧
      Refers final.commands ∧
      (nativeGraph final.commands).edges.map (fun edge => (some edge.1, some edge.2)) =
        final.nativeEdges := by
  refine nativeGraph_mirrors (by decide) ?_
  refine along_cons trivial rfl (along_cons trivial rfl (along_cons ?_ rfl trivial))
  refine ⟨by decide +kernel, ?_⟩
  intro m detaches
  clear detaches
  revert m
  decide +kernel

theorem drop_not_mirrors : ∃ final, run (step fun _ : Fin 3 => []) {}
        [.makeNative 0, .addChild 0 1, .addChild 1 2, .removeChild 1 2] = some final ∧
      (nativeGraph final.commands).edges.map (fun edge => (some edge.1, some edge.2)) = 0 ∧
      final.nativeEdges = {(some 1, none)} := by
  refine ⟨_, rfl, ?_⟩
  decide +kernel

end AnimatedNodes

end ReactNative

