import ReactNative.Animated.MakeNative

/-! A node that loses its last child is detached: it is removed from its parents, which may lose
their last child with it, and its counterpart is dropped. -/
namespace ReactNative

open Loops List

namespace AnimatedNodes

variable {count : ℕ} {parents : Fin count → List (Fin count)} {start nodes after : AnimatedNodes count}
  {n child : Fin count} {connected : Multiset (Fin count × Fin count)}

theorem mem_edges {pair : Fin count × Fin count} : pair ∈ nodes.edges ↔
      (nodes.node pair.1).isNative = true ∧ pair.2 ∈ (nodes.node pair.1).children := by
  have isFrom : ∀ m, pair ∈ nodes.edgesFrom m ↔
      m = pair.1 ∧ (nodes.node m).isNative = true ∧ pair.2 ∈ (nodes.node m).children := by
    intro m
    rw [edgesFrom]
    split
    next isNative =>
      rw [Multiset.mem_coe, mem_map]
      constructor
      · rintro ⟨_, isChild, rfl⟩
        exact ⟨rfl, isNative, isChild⟩
      · rintro ⟨rfl, -, isChild⟩
        exact ⟨pair.2, isChild, rfl⟩
    next notNative => simp [notNative]
  rw [edges, Multiset.mem_sum]
  constructor
  · rintro ⟨m, -, member⟩
    obtain ⟨rfl, isNative, isChild⟩ := (isFrom m).mp member
    exact ⟨isNative, isChild⟩
  · rintro ⟨isNative, isChild⟩
    exact ⟨pair.1, Finset.mem_univ _, (isFrom pair.1).mpr ⟨rfl, isNative, isChild⟩⟩

structure Shrinks (nodes after : AnimatedNodes count) : Prop where
  children : ∀ m, (after.node m).children.Sublist (nodes.node m).children
  listeners : ∀ m, (after.node m).listeners = (nodes.node m).listeners
  native : ∀ m, (after.node m).isNative = (nodes.node m).isNative
  queueConnections : after.queueConnections = nodes.queueConnections
  queue : after.queue = nodes.queue

theorem Shrinks.refl (nodes : AnimatedNodes count) : Shrinks nodes nodes :=
  ⟨fun _ => List.Sublist.refl _, fun _ => rfl, fun _ => rfl, rfl, rfl⟩

theorem Shrinks.trans {between : AnimatedNodes count} (first : Shrinks nodes between)
    (second : Shrinks between after) : Shrinks nodes after where
  children m := (second.children m).trans (first.children m)
  listeners m := (second.listeners m).trans (first.listeners m)
  native m := (second.native m).trans (first.native m)
  queueConnections := second.queueConnections.trans first.queueConnections
  queue := second.queue.trans first.queue

theorem Shrinks.closed (shrinks : Shrinks nodes after) (closed : nodes.Closed) : after.Closed := by
  intro m isNative child isChild
  rw [shrinks.native] at isNative ⊢
  exact closed m isNative child ((shrinks.children m).subset isChild)

theorem ReadsTags.shrinks {named : Fin count → Prop} (reads : ReadsTags named nodes after)
    (queueOff : nodes.queueConnections = false) : Shrinks nodes after where
  children m := by rw [reads.children]
  listeners := reads.listeners
  native := reads.native
  queueConnections := reads.queueConnections
  queue := reads.queue queueOff

def HeldOutside (named : Fin count → Prop) (nodes : AnimatedNodes count) : Prop :=
  ∀ m, ¬ named m → (nodes.node m).nativeTag ≠ none → nodes.Held m

/-- The nodes that are detached are among the children of native nodes as often as these are their
parents, and with all its children a node is detached too. -/
structure Detachable (parents : Fin count → List (Fin count)) (detached : Fin count → Prop)
    (start : AnimatedNodes count) : Prop where
  emptied : ∀ m, (start.node m).children ≠ [] →
    (∀ child ∈ (start.node m).children, detached child) → detached m
  owned : ∀ m, detached m → (start.node m).isNative = true →
    ∀ parent, (start.node parent).isNative = true →
      (start.node parent).children.count m ≤ (parents m).count parent

structure Within (detached : Fin count → Prop) (start nodes : AnimatedNodes count) : Prop where
  shrinks : Shrinks start nodes
  left : ∀ m, ∀ child ∈ (start.node m).children, child ∈ (nodes.node m).children ∨ detached child

/-! ### Taking a child out of a list -/

structure Splices (nodes : AnimatedNodes count) (connected : Multiset (Fin count × Fin count))
    (n child : Fin count) (after : AnimatedNodes count)
    (connectedAfter : Multiset (Fin count × Fin count)) : Prop where
  others : ∀ m, m ≠ n → (after.node m).children = (nodes.node m).children
  here : (after.node n).children = (nodes.node n).children.erase child
  shrinks : Shrinks nodes after
  created : ∀ m, (after.node m).nativeTag ≠ none →
    (nodes.node m).nativeTag ≠ none ∨ m = n ∨ m = child
  mirrors : after.Mirrors connectedAfter
  exact : nodes.Closed → connected = nodes.edges → connectedAfter = after.edges

theorem edges_splice (isNative : (nodes.node n).isNative = true)
    (isChild : child ∈ (nodes.node n).children) :
    nodes.edges = (n, child) ::ₘ (nodes.modify n fun node =>
      { node with children := node.children.erase child }).edges := by
  have modified := nodes.edges_modify n fun node =>
    { node with children := node.children.erase child }
  have here : nodes.edgesFrom n = (n, child) ::ₘ (nodes.modify n fun node =>
      { node with children := node.children.erase child }).edgesFrom n := by
    rw [edgesFrom, edgesFrom, modify_node_self, if_pos isNative, if_pos isNative,
      Multiset.cons_coe, ← map_cons]
    exact Multiset.coe_eq_coe.mpr ((perm_cons_erase isChild).map _)
  rw [here, Multiset.add_cons, ← Multiset.cons_add] at modified
  exact (add_right_cancel modified).symm

theorem edges_splice_of_not_native (notNative : (nodes.node n).isNative = false) :
    (nodes.modify n fun node => { node with children := node.children.erase child }).edges =
      nodes.edges := by
  refine Finset.sum_congr rfl fun m _ => ?_
  by_cases same : m = n
  · rw [same, edgesFrom, edgesFrom, modify_node_self, notNative]
    rfl
  · rw [edgesFrom, edgesFrom, modify_node_of_ne _ _ same]

def splice (nodes : AnimatedNodes count) (n child : Fin count) : AnimatedNodes count :=
  (if (nodes.node n).isNative ∧ (nodes.node child).isNative then nodes.disconnect n child
    else nodes).modify n fun node => { node with children := node.children.erase child }

theorem splice_spec (mirrors : nodes.Mirrors connected) (unqueued : nodes.queue = [])
    (queueOff : nodes.queueConnections = false) (isChild : child ∈ (nodes.node n).children) :
    ∃ connectedAfter, Splices nodes connected n child (nodes.splice n child) connectedAfter := by
  -- First the disconnection, made only if both are native.
  have disconnected : ∃ between connectedBetween,
      (if (nodes.node n).isNative ∧ (nodes.node child).isNative then nodes.disconnect n child
        else nodes) = between ∧ between.Mirrors connectedBetween ∧
      ReadsTags (fun m => m = n ∨ m = child) nodes between ∧
      (nodes.Closed → (nodes.node n).isNative = true →
        connectedBetween = connected.erase (n, child)) ∧
      ((nodes.node n).isNative = false → connectedBetween = connected) := by
    split
    next native =>
      obtain ⟨mirrorsBetween, reads⟩ := mirrors.disconnect unqueued queueOff native.1 native.2
      exact ⟨_, _, rfl, mirrorsBetween, reads, fun _ _ => rfl,
        fun notNative => by cases notNative.symm.trans native.1⟩
    next notBoth =>
      exact ⟨nodes, connected, rfl, mirrors, ReadsTags.refl _ nodes,
        fun closed isNative => absurd ⟨isNative, closed n isNative child isChild⟩ notBoth,
        fun _ => rfl⟩
  obtain ⟨between, connectedBetween, isBetween, mirrorsBetween, reads, erased, same⟩ := disconnected
  refine ⟨connectedBetween, ?_⟩
  rw [splice, isBetween]
  -- Then the splice, which takes the child from one list and reads nothing else.
  have spliced : Shrinks between (between.modify n fun node =>
      { node with children := node.children.erase child }) := by
    refine ⟨fun m => ?_, modify_node_eq AnimatedNode.listeners rfl,
      modify_node_eq AnimatedNode.isNative rfl, rfl, rfl⟩
    by_cases isNode : m = n
    · rw [isNode, modify_node_self]
      exact erase_sublist
    · rw [modify_node_of_ne _ _ isNode]
  refine ⟨?_, ?_, (reads.shrinks queueOff).trans spliced, ?_, mirrorsBetween.modify n _ rfl id, ?_⟩
  · intro m differs
    rw [modify_node_of_ne _ _ differs, reads.children]
  · rw [modify_node_self, reads.children]
  · intro m tagged
    rw [modify_node_eq AnimatedNode.nativeTag rfl] at tagged
    exact reads.created m tagged
  · intro closed isEdges
    -- For a native node the splice takes one edge, the one that was disconnected.
    cases isNative : (nodes.node n).isNative with
    | true =>
      have nativeBetween : (between.node n).isNative = true := (reads.native n).trans isNative
      have isChildBetween : child ∈ (between.node n).children := by
        rw [reads.children]
        exact isChild
      have edges := edges_splice nativeBetween isChildBetween
      rw [reads.edges] at edges
      rw [erased closed isNative, isEdges, edges, Multiset.erase_cons_head]
    | false =>
      have notNative : (between.node n).isNative = false := (reads.native n).trans isNative
      rw [edges_splice_of_not_native notNative, reads.edges, same isNative, isEdges]

/-! ### Removing a child, and detaching a node -/

/-- A child was removed, and the nodes that lost their last child with it are detached. -/
structure Removes (parents : Fin count → List (Fin count)) (nodes : AnimatedNodes count)
    (connected : Multiset (Fin count × Fin count)) (n child : Fin count)
    (after : AnimatedNodes count) (connectedAfter : Multiset (Fin count × Fin count)) : Prop where
  shrinks : Shrinks nodes after
  mirrors : after.Mirrors connectedAfter
  held : ∀ named, named child → HeldOutside named nodes → HeldOutside named after
  fewer : (after.node n).children.count child ≤ (nodes.node n).children.count child - 1
  exact : ∀ detached start, Detachable parents detached start → Within detached start nodes →
    detached child → nodes.Closed → connected = nodes.edges →
      Within detached start after ∧ connectedAfter = after.edges

/-- The node is on its way out: it was removed from all its parents but those that are still to
come. -/
structure RemovesFrom (parents : Fin count → List (Fin count)) (nodes : AnimatedNodes count)
    (connected : Multiset (Fin count × Fin count)) (n : Fin count) (rest : List (Fin count))
    (state : AnimatedNodes count) (connectedHere : Multiset (Fin count × Fin count)) : Prop where
  shrinks : Shrinks nodes state
  mirrors : state.Mirrors connectedHere
  held : ∀ named, named n → HeldOutside named nodes → HeldOutside named state
  fewer : ∀ parent, (nodes.node parent).children.count n ≤ (parents n).count parent →
    (state.node parent).children.count n ≤ rest.count parent
  exact : ∀ detached start, Detachable parents detached start → Within detached start nodes →
    detached n → nodes.Closed → connected = nodes.edges →
      Within detached start state ∧ connectedHere = state.edges

structure Drops (parents : Fin count → List (Fin count)) (nodes : AnimatedNodes count)
    (connected : Multiset (Fin count × Fin count)) (n : Fin count)
    (after : AnimatedNodes count) (connectedAfter : Multiset (Fin count × Fin count)) : Prop where
  shrinks : Shrinks nodes after
  mirrors : after.Mirrors connectedAfter
  held : ∀ named : Fin count → Prop, HeldOutside (fun m => named m ∨ m = n) nodes →
    HeldOutside named after
  exact : ∀ detached start, Detachable parents detached start → Within detached start nodes →
    detached n → ((nodes.node n).isNative = true → (nodes.node n).children = []) →
      nodes.Closed → connected = nodes.edges →
        Within detached start after ∧ connectedAfter = after.edges

theorem removesFrom_start (mirrors : nodes.Mirrors connected) :
    RemovesFrom parents nodes connected n (parents n) nodes connected where
  shrinks := Shrinks.refl nodes
  mirrors := mirrors
  held _ _ := id
  fewer _ := id
  exact _ _ _ within _ _ isEdges := ⟨within, isEdges⟩

variable {connectedAfter : Multiset (Fin count × Fin count)}

variable {state : AnimatedNodes count} {connectedHere : Multiset (Fin count × Fin count)}

theorem RemovesFrom.next {parent : Fin count} {rest : List (Fin count)}
    (removing : RemovesFrom parents nodes connected n (parent :: rest) state connectedHere)
    (removes : Removes parents state connectedHere parent n after connectedAfter) :
    RemovesFrom parents nodes connected n rest after connectedAfter where
  shrinks := removing.shrinks.trans removes.shrinks
  mirrors := removes.mirrors
  held named isNamed outside := removes.held named isNamed (removing.held named isNamed outside)
  fewer other bound := by
    have before := removing.fewer other bound
    by_cases same : other = parent
    · subst same
      have here := removes.fewer
      rw [count_cons_self] at before
      omega
    · rw [count_cons_of_ne (Ne.symm same)] at before
      exact ((removes.shrinks.children other).count_le n).trans before
  exact detached start detachable within isDetached closed isEdges := by
    obtain ⟨withinHere, isEdgesHere⟩ :=
      removing.exact detached start detachable within isDetached closed isEdges
    exact removes.exact detached start detachable withinHere isDetached
      (removing.shrinks.closed closed) isEdgesHere

theorem dropAnimatedNode_node_eq {V : Type} (field : AnimatedNode count → V)
    (same : ∀ node : AnimatedNode count, field { node with nativeTag := none } = field node)
    (nodes : AnimatedNodes count) (n m : Fin count) :
    field ((nodes.dropAnimatedNode n).node m) = field (nodes.node m) := by
  rw [AnimatedNodes.dropAnimatedNode]
  split
  next => rfl
  next =>
    split
    next => exact modify_node_eq field (same _) m
    next => rfl

theorem shrinks_drop (nodes : AnimatedNodes count) (n : Fin count) :
    Shrinks nodes (nodes.dropAnimatedNode n) := by
  have queues : (nodes.dropAnimatedNode n).queueConnections = nodes.queueConnections ∧
      (nodes.dropAnimatedNode n).queue = nodes.queue := by
    rw [AnimatedNodes.dropAnimatedNode]
    split
    next => exact ⟨rfl, rfl⟩
    next =>
      split
      next => exact ⟨rfl, rfl⟩
      next => exact ⟨rfl, rfl⟩
  refine ⟨fun m => ?_, dropAnimatedNode_node_eq AnimatedNode.listeners (fun _ => rfl) nodes n,
    dropAnimatedNode_node_eq AnimatedNode.isNative (fun _ => rfl) nodes n, queues.1, queues.2⟩
  rw [dropAnimatedNode_node_eq AnimatedNode.children (fun _ => rfl)]

theorem filter_edges_of_left
    (noChildren : (nodes.node n).isNative = true → (nodes.node n).children = [])
    (noParents : ∀ parent, (nodes.node parent).isNative = true → n ∉ (nodes.node parent).children) :
    nodes.edges.filter (fun pair => pair.1 ≠ n ∧ pair.2 ≠ n) = nodes.edges := by
  rw [Multiset.filter_eq_self]
  intro pair member
  obtain ⟨isNative, isChild⟩ := mem_edges.mp member
  refine ⟨?_, ?_⟩
  · intro same
    rw [same] at isNative isChild
    rw [noChildren isNative] at isChild
    cases isChild
  · intro same
    rw [same] at isChild
    exact noParents pair.1 isNative isChild

theorem RemovesFrom.drops (removing : RemovesFrom parents nodes connected n [] state connectedHere)
    (unqueued : state.queue = []) :
    Drops parents nodes connected n (state.dropAnimatedNode n)
      (connectedHere.filter fun pair => pair.1 ≠ n ∧ pair.2 ≠ n) := by
  have dropped := shrinks_drop state n
  have sameChildren : ∀ m, ((state.dropAnimatedNode n).node m).children = (state.node m).children :=
    dropAnimatedNode_node_eq AnimatedNode.children (fun _ => rfl) state n
  -- The drop shrinks the graph; who still has a tag is held, as it was before the drop.
  refine ⟨removing.shrinks.trans dropped, removing.mirrors.dropAnimatedNode unqueued n, ?_, ?_⟩
  · intro named outside m notNamed tagged
    obtain ⟨tag, isTag⟩ := Option.ne_none_iff_exists'.mp tagged
    obtain ⟨differs, isTag⟩ := (removing.mirrors.toTagsSound.isTag_drop n m tag).mp isTag
    have before := removing.held _ (Or.inr rfl) outside m
      (by rintro (isNamed | same)
          · exact notNamed isNamed
          · exact differs same)
      (isTag ▸ Option.some_ne_none tag)
    exact (held_iff sameChildren dropped.listeners m).mpr before
  -- The edges that remain are those in which the dropped node does not occur.
  · intro detached start detachable within isDetached noChildren closed isEdges
    obtain ⟨withinState, isEdgesState⟩ :=
      removing.exact detached start detachable within isDetached closed isEdges
    refine ⟨⟨withinState.shrinks.trans dropped, fun m child isChild => ?_⟩, ?_⟩
    · rw [sameChildren]
      exact withinState.left m child isChild
    · rw [edges_congr sameChildren dropped.native, isEdgesState]
      refine filter_edges_of_left ?_ ?_
      · intro isNative
        rw [removing.shrinks.native] at isNative
        exact sublist_nil.mp (noChildren isNative ▸ removing.shrinks.children n)
      · -- A native parent has the node as often as the node has this parent.
        intro parent parentNative isChild
        have isNative := removing.shrinks.closed closed parent parentNative n isChild
        rw [removing.shrinks.native] at parentNative isNative
        have owned : (nodes.node parent).children.count n ≤ (parents n).count parent := by
          refine ((within.shrinks.children parent).count_le n).trans ?_
          exact detachable.owned n isDetached ((within.shrinks.native n).symm.trans isNative) parent
            ((within.shrinks.native parent).symm.trans parentNative)
        have none := removing.fewer parent owned
        rw [count_nil] at none
        exact absurd (count_pos_iff.mpr isChild) (by omega)

/-- **`__detach` ends**, with what removes the node from one parent. -/
theorem detachFrom_spec {remove : AnimatedNodes count → Fin count → Fin count →
      Option (AnimatedNodes count)}
    (removes : ∀ parent ∈ parents n, ∀ {state : AnimatedNodes count}
      {connectedHere : Multiset (Fin count × Fin count)}, state.Mirrors connectedHere →
        state.queue = [] → state.queueConnections = false →
          ∃ after connectedAfter, remove state parent n = some after ∧
            Removes parents state connectedHere parent n after connectedAfter)
    (mirrors : nodes.Mirrors connected) (unqueued : nodes.queue = [])
    (queueOff : nodes.queueConnections = false) :
    ∃ after connectedAfter, detachFrom parents remove nodes n = some after ∧
      Drops parents nodes connected n after connectedAfter := by
  obtain ⟨state, loops, -, connectedHere, removing⟩ := foldlM_countdown
    (fun nodes parent => remove nodes parent n)
    (fun rest state => (∀ parent ∈ rest, parent ∈ parents n) ∧
      ∃ connectedHere, RemovesFrom parents nodes connected n rest state connectedHere) (by
      rintro parent rest state ⟨isParent, connectedHere, removing⟩
      obtain ⟨next, connectedNext, acts, removesNext⟩ :=
        removes parent (isParent parent mem_cons_self) removing.mirrors
          (removing.shrinks.queue.trans unqueued)
          (removing.shrinks.queueConnections.trans queueOff)
      exact ⟨next, acts, fun other member => isParent other (mem_cons_of_mem _ member),
        connectedNext, removing.next removesNext⟩)
    (⟨fun _ => id, connected, removesFrom_start mirrors⟩ :
      (∀ parent ∈ parents n, parent ∈ parents n) ∧
        ∃ connectedHere, RemovesFrom parents nodes connected n (parents n) nodes connectedHere)
  refine ⟨state.dropAnimatedNode n, _, ?_, removing.drops (removing.shrinks.queue.trans unqueued)⟩
  rw [detachFrom, loops]
  rfl

theorem removes_of_missing (mirrors : nodes.Mirrors connected)
    (missing : child ∉ (nodes.node n).children) :
    Removes parents nodes connected n child nodes connected where
  shrinks := Shrinks.refl nodes
  mirrors := mirrors
  held _ _ := id
  fewer := by rw [count_eq_zero_of_not_mem missing]
  exact _ _ _ within _ _ isEdges := ⟨within, isEdges⟩

section

variable (splices : Splices nodes connected n child after connectedAfter)
include splices

theorem Splices.heldOutside {named : Fin count → Prop} (isNamed : named child)
    (outside : HeldOutside named nodes) (left : (after.node n).children ≠ [] ∨ named n) :
    HeldOutside named after := by
  intro m notNamed tagged
  by_cases isNode : m = n
  · subst isNode
    rcases left with hasChildren | named
    · exact Or.inl hasChildren
    · exact absurd named notNamed
  · have taggedBefore : (nodes.node m).nativeTag ≠ none := by
      rcases splices.created m tagged with before | same | same
      · exact before
      · exact absurd same isNode
      · exact absurd (same ▸ isNamed) notNamed
    have isOther : m ≠ child := fun same => notNamed (same ▸ isNamed)
    rcases outside m notNamed taggedBefore with hasChildren | ⟨parent, isChild⟩ | listened
    · rw [← splices.others m isNode] at hasChildren
      exact Or.inl hasChildren
    · refine Or.inr (Or.inl ⟨parent, ?_⟩)
      by_cases same : parent = n
      · subst same
        rw [splices.here]
        exact (mem_erase_of_ne isOther).mpr isChild
      · rw [splices.others parent same]
        exact isChild
    · rw [← splices.shrinks.listeners m] at listened
      exact Or.inr (Or.inr listened)

theorem Splices.within {detached : Fin count → Prop} (within : Within detached start nodes)
    (isDetached : detached child) :
    Within detached start after where
  shrinks := within.shrinks.trans splices.shrinks
  left m other isOther := by
    rcases within.left m other isOther with isChild | otherDetached
    · by_cases isNode : m = n
      · subst isNode
        rw [splices.here]
        by_cases same : other = child
        · exact Or.inr (same ▸ isDetached)
        · exact Or.inl ((mem_erase_of_ne same).mpr isChild)
      · rw [splices.others m isNode]
        exact Or.inl isChild
    · exact Or.inr otherDetached

theorem Splices.fewer :
    (after.node n).children.count child ≤ (nodes.node n).children.count child - 1 := by
  rw [splices.here, count_erase_self]

theorem Splices.removes (hasChildren : (after.node n).children ≠ []) :
    Removes parents nodes connected n child after connectedAfter where
  shrinks := splices.shrinks
  mirrors := splices.mirrors
  held _ isNamed outside := splices.heldOutside isNamed outside (Or.inl hasChildren)
  fewer := splices.fewer
  exact _ _ _ within isDetached closed isEdges :=
    ⟨splices.within within isDetached, splices.exact closed isEdges⟩

end

theorem Splices.removes_drops {spliced : AnimatedNodes count}
    {connectedSpliced : Multiset (Fin count × Fin count)}
    (isChild : child ∈ (nodes.node n).children)
    (splices : Splices nodes connected n child spliced connectedSpliced)
    (noChildren : (spliced.node n).children = [])
    (drops : Drops parents spliced connectedSpliced n after connectedAfter) :
    Removes parents nodes connected n child after connectedAfter where
  shrinks := splices.shrinks.trans drops.shrinks
  mirrors := drops.mirrors
  held named isNamed outside := by
    refine drops.held named (splices.heldOutside (Or.inl isNamed) ?_ (Or.inr (Or.inr rfl)))
    intro m notNamed
    exact outside m fun isNamed => notNamed (Or.inl isNamed)
  fewer := ((drops.shrinks.children n).count_le child).trans splices.fewer
  exact detached start detachable within isDetached closed isEdges := by
    have withinSpliced := splices.within within isDetached
    -- All that the node ever had are detached, so it is detached itself.
    have nodeDetached : detached n := by
      refine detachable.emptied n (ne_nil_of_mem ((within.shrinks.children n).subset isChild)) ?_
      intro other isOther
      rcases withinSpliced.left n other isOther with remains | otherDetached
      · rw [noChildren] at remains
        cases remains
      · exact otherDetached
    exact drops.exact detached start detachable withinSpliced nodeDetached (fun _ => noChildren)
      (splices.shrinks.closed closed) (splices.exact closed isEdges)

theorem removeChild_eq (fuel : ℕ) (nodes : AnimatedNodes count) (n child : Fin count) :
    removeChild parents (fuel + 1) nodes n child =
      if child ∉ (nodes.node n).children then some nodes
      else if ((nodes.splice n child).node n).children = [] then
        detachFrom parents (removeChild parents fuel) (nodes.splice n child) n
      else some (nodes.splice n child) := rfl

section

variable (older : ∀ n, ∀ parent ∈ parents n, parent < n) {fuel : ℕ}
  (mirrors : nodes.Mirrors connected) (unqueued : nodes.queue = [])
  (queueOff : nodes.queueConnections = false)
include older mirrors unqueued queueOff

/-- **`removeChild` always ends**, and keeps the connections to the children that remain if the
nodes that it detaches own their places. -/
theorem removeChild_spec (enough : (n : ℕ) < fuel) (child : Fin count) :
    ∃ after connectedAfter, removeChild parents fuel nodes n child = some after ∧
      Removes parents nodes connected n child after connectedAfter := by
  induction fuel generalizing nodes n connected child with
  | zero => exact absurd enough (Nat.not_lt_zero _)
  | succ fuel ih =>
    rw [removeChild_eq]
    by_cases isChild : child ∈ (nodes.node n).children
    · rw [if_neg (not_not_intro isChild)]
      obtain ⟨connectedSpliced, splices⟩ := splice_spec mirrors unqueued queueOff isChild
      split
      next noChildren =>
        obtain ⟨after, connectedAfter, detaches, drops⟩ := detachFrom_spec (by
            intro parent isParent state connectedHere mirrorsHere unqueuedHere queueOffHere
            have smaller : (parent : ℕ) < n := older n parent isParent
            exact ih mirrorsHere unqueuedHere queueOffHere (by omega : (parent : ℕ) < fuel) n)
          splices.mirrors (splices.shrinks.queue.trans unqueued)
          (splices.shrinks.queueConnections.trans queueOff)
        exact ⟨after, connectedAfter, detaches, splices.removes_drops isChild noChildren drops⟩
      next hasChildren =>
        exact ⟨_, connectedSpliced, rfl, splices.removes hasChildren⟩
    · rw [if_pos isChild]
      exact ⟨nodes, connected, rfl, removes_of_missing mirrors isChild⟩

theorem detach_spec (enough : (n : ℕ) ≤ fuel) :
    ∃ after connectedAfter, detachFrom parents (removeChild parents fuel) nodes n = some after ∧
      Drops parents nodes connected n after connectedAfter := by
  refine detachFrom_spec ?_ mirrors unqueued queueOff
  intro parent isParent state connectedHere mirrorsHere unqueuedHere queueOffHere
  have smaller : (parent : ℕ) < n := older n parent isParent
  exact removeChild_spec older mirrorsHere unqueuedHere queueOffHere
    (by omega : (parent : ℕ) < fuel) n

end

end AnimatedNodes

end ReactNative

