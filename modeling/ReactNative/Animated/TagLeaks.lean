import ReactNative.Animated.NativeMirror

/-! A tag is needed by a node that has children, is a child or has listeners (`Held`). A node that
loses its last child is detached, and its counterpart is dropped. -/
namespace ReactNative

open Runs

namespace AnimatedNodes

variable {count : ℕ} {parents : Fin count → List (Fin count)} {nodes after : AnimatedNodes count}
  {n child : Fin count} {connected : Multiset (Fin count × Fin count)}

/-- The listener that goes is not the last thing that the node needs its tag for, or the node has no
tag and reads none. -/
def KeepsNeed (nodes : AnimatedNodes count) (n : Fin count) (listeners : Finset ℕ) : Prop :=
  (nodes.node n).isNative = false ∨ listeners ≠ ∅ ∨ (nodes.node n).children ≠ [] ∨
    (∃ parent, n ∈ (nodes.node parent).children) ∨
    (nodes.node n).nativeTag = none ∧ (nodes.node n).nativeAnimatedValueListener = false

instance (nodes : AnimatedNodes count) (n : Fin count) (listeners : Finset ℕ) :
    Decidable (nodes.KeepsNeed n listeners) := inferInstanceAs (Decidable (_ ∨ _))

/-- A step after which no tag is left that was needed before: it does not remove the last listener
of a node that nothing else holds, nor a child that does not remove itself. -/
def LeavesNothing (nodes : AnimatedNodes count) : AnimatedOperation count → Prop
  | .removeListener n id => nodes.KeepsNeed n ((nodes.node n).listeners.erase id)
  | .removeAllListeners n => nodes.KeepsNeed n ∅
  | .removeChild n child => child ∉ (nodes.node n).children ∨ child = n ∨
    (nodes.node child).children ≠ [] ∨ (nodes.node child).listeners ≠ ∅ ∨
    (∃ parent, parent ≠ n ∧ child ∈ (nodes.node parent).children) ∨
    1 < (nodes.node n).children.count child ∨
    (nodes.node child).nativeTag = none ∧
      ¬ ((nodes.node n).isNative = true ∧ (nodes.node child).isNative = true)
  | _ => True

instance (nodes : AnimatedNodes count) : ∀ operation, Decidable (nodes.LeavesNothing operation)
  | .removeListener _ _ | .removeAllListeners _ => inferInstanceAs (Decidable (KeepsNeed _ _ _))
  | .removeChild _ _ => inferInstanceAs (Decidable (_ ∨ _))
  | .attach _ | .detach _ | .addChild _ _ | .makeNative _ | .makeNativeQueued _
  | .addListener _ => inferInstanceAs (Decidable True)

structure Needed (nodes : AnimatedNodes count) : Prop where
  mirrors : ∃ connected, nodes.Mirrors connected
  held : ∀ m, (nodes.node m).nativeTag ≠ none → nodes.Held m
  unqueued : nodes.queue = []
  queueOff : nodes.queueConnections = false

theorem needed_initial : Needed ({} : AnimatedNodes count) where
  mirrors := ⟨_, mirrored_initial.mirrors⟩
  held _ tagged := absurd rfl tagged
  unqueued := rfl
  queueOff := rfl

theorem Needed.heldOutside (needed : nodes.Needed) (named : Fin count → Prop) :
    HeldOutside named nodes := fun m _ tagged => needed.held m tagged

variable {connectedAfter : Multiset (Fin count × Fin count)}

theorem Adds.needed (adds : Adds nodes connected after connectedAfter) (needed : nodes.Needed) :
    after.Needed where
  mirrors := ⟨_, adds.mirrors⟩
  held m tagged := by
    rcases adds.created m tagged with taggedBefore | held
    · exact held_of_more adds.children adds.listeners (needed.held m taggedBefore)
    · exact held
  unqueued := (adds.queue needed.queueOff).trans needed.unqueued
  queueOff := adds.queueConnections.trans needed.queueOff

theorem Shrinks.needed (shrinks : Shrinks nodes after) (needed : nodes.Needed)
    (mirrors : after.Mirrors connected) (held : HeldOutside (fun _ => False) after) :
    after.Needed where
  mirrors := ⟨_, mirrors⟩
  held m := held m not_false
  unqueued := shrinks.queue.trans needed.unqueued
  queueOff := shrinks.queueConnections.trans needed.queueOff

theorem Relistens.needed (relistens : Relistens nodes n after) (needed : nodes.Needed)
    (mirrors : after.Mirrors connected)
    (held : (after.node n).nativeTag ≠ none → after.Held n) : after.Needed where
  mirrors := ⟨_, mirrors⟩
  held m tagged := by
    by_cases isNode : m = n
    · subst isNode
      exact held tagged
    · have taggedBefore := (relistens.created m tagged).resolve_right isNode
      unfold Held
      simp only [relistens.children, relistens.listeners m isNode]
      exact needed.held m taggedBefore
  unqueued := (relistens.queue needed.queueOff).trans needed.unqueued
  queueOff := relistens.queueConnections.trans needed.queueOff

/-! ### Removing listeners -/

theorem stopListening_of_not_listening
    (notListening : (nodes.node n).nativeAnimatedValueListener = false) :
    nodes.stopListeningForNativeValueUpdates n = nodes := if_pos notListening

theorem Needed.relisten (needed : nodes.Needed) {listeners : Finset ℕ}
    (isAfter : after = nodes.modify n (fun node => { node with listeners := listeners }) ∨
      (nodes.node n).isNative = true ∧ after = (nodes.modify n fun node =>
        { node with listeners := listeners }).stopListeningForNativeValueUpdates n)
    (keeps : nodes.KeepsNeed n listeners) : after.Needed := by
  obtain ⟨connected, mirrors⟩ := needed.mirrors
  have modified := mirrors.modify n (fun node => { node with listeners := listeners }) rfl id
  -- In both cases the graph is mirrored, and the node has the listeners given.
  have whole : after.Mirrors connected ∧ Relistens nodes n after ∧
      (after.node n).listeners = listeners := by
    have relistens := relistens_modify nodes n nodes.uniqueId fun _ => listeners
    have same : ((nodes.modify n fun node => { node with listeners := listeners }).node
        n).listeners = listeners := by rw [modify_node_self]
    rcases isAfter with rfl | ⟨isNative, rfl⟩
    · exact ⟨modified, relistens, same⟩
    · have stillNative : ((nodes.modify n fun node => { node with listeners := listeners }).node
          n).isNative = true := by
        rw [modify_node_self]
        exact isNative
      obtain ⟨mirrorsAfter, reads⟩ := modified.stopListening stillNative
      exact ⟨mirrorsAfter, relistens.reads reads, (reads.listeners n).trans same⟩
  obtain ⟨mirrorsAfter, relistens, same⟩ := whole
  refine relistens.needed needed mirrorsAfter fun tagged => ?_
  -- One case for each reason to keep the tag.
  rcases keeps with notNative | listened | hasChildren | ⟨parent, isChild⟩ | ⟨untagged, notListening⟩
  · -- A node that is not native has no tag.
    obtain ⟨tag, isTag⟩ := Option.ne_none_iff_exists'.mp tagged
    have isNative := mirrorsAfter.native n tag isTag
    rw [relistens.native, notNative] at isNative
    cases isNative
  · exact Or.inr (Or.inr (same.symm ▸ listened))
  · exact Or.inl (by rw [relistens.children]; exact hasChildren)
  · exact Or.inr (Or.inl ⟨parent, by rw [relistens.children]; exact isChild⟩)
  · -- It does not stop listening, so no tag is read.
    exfalso
    have silent : ((nodes.modify n fun node => { node with listeners := listeners }).node
        n).nativeAnimatedValueListener = false := by
      rw [modify_node_self]
      exact notListening
    rw [stopListening_of_not_listening silent] at isAfter
    have isModified := isAfter.elim id And.right
    rw [isModified, modify_node_self] at tagged
    exact tagged untagged

theorem Needed.removeListener (needed : nodes.Needed) {id : ℕ}
    (keeps : nodes.KeepsNeed n ((nodes.node n).listeners.erase id)) :
    (nodes.removeListener n id).Needed := by
  refine needed.relisten ?_ keeps
  rw [AnimatedNodes.removeListener]
  split
  next stops =>
    rw [modify_node_eq AnimatedNode.isNative rfl] at stops
    exact Or.inr ⟨stops.1, rfl⟩
  next => exact Or.inl rfl

theorem Needed.removeAllListeners (needed : nodes.Needed) (keeps : nodes.KeepsNeed n ∅) :
    (nodes.removeAllListeners n).Needed := by
  refine needed.relisten ?_ keeps
  rw [AnimatedNodes.removeAllListeners]
  split
  next isNative =>
    rw [modify_node_eq AnimatedNode.isNative rfl] at isNative
    exact Or.inr ⟨isNative, rfl⟩
  next => exact Or.inl rfl

/-! ### Removing a child -/

theorem Splices.held
    (splices : Splices nodes connected n child after connectedAfter) (differs : child ≠ n)
    (leaves : (nodes.node child).children ≠ [] ∨ (nodes.node child).listeners ≠ ∅ ∨
      (∃ parent, parent ≠ n ∧ child ∈ (nodes.node parent).children) ∨
      1 < (nodes.node n).children.count child) : after.Held child := by
  rcases leaves with hasChildren | listened | ⟨parent, isOther, isChild⟩ | twice
  · exact Or.inl (by rw [splices.others child differs]; exact hasChildren)
  · exact Or.inr (Or.inr (by rw [splices.shrinks.listeners]; exact listened))
  · exact Or.inr (Or.inl ⟨parent, by rw [splices.others parent isOther]; exact isChild⟩)
  · refine Or.inr (Or.inl ⟨n, ?_⟩)
    rw [splices.here, ← List.count_pos_iff, List.count_erase_self]
    omega

theorem nativeTag_splice (notBoth :
      ¬ ((nodes.node n).isNative = true ∧ (nodes.node child).isNative = true)) (m : Fin count) :
    ((nodes.splice n child).node m).nativeTag = (nodes.node m).nativeTag := by
  rw [splice, if_neg notBoth]
  exact modify_node_eq AnimatedNode.nativeTag rfl m

theorem Splices.heldOutside_self
    (splices : Splices nodes connected n child (nodes.splice n child) connectedAfter)
    (needed : nodes.Needed) (isChild : child ∈ (nodes.node n).children)
    (leaves : nodes.LeavesNothing (.removeChild n child)) :
    HeldOutside (fun m => m = n) (nodes.splice n child) := by
  have outside : HeldOutside (fun m => m = child ∨ m = n) (nodes.splice n child) :=
    splices.heldOutside (Or.inl rfl) (needed.heldOutside _) (Or.inr (Or.inr rfl))
  intro m isOther tagged
  by_cases same : m = child
  · subst same
    rcases leaves with missing | isNode | hasChildren | listened | elsewhere | twice | untagged
    · exact absurd isChild missing
    · exact absurd isNode isOther
    · exact splices.held isOther (Or.inl hasChildren)
    · exact splices.held isOther (Or.inr (Or.inl listened))
    · exact splices.held isOther (Or.inr (Or.inr (Or.inl elsewhere)))
    · exact splices.held isOther (Or.inr (Or.inr (Or.inr twice)))
    · rw [nativeTag_splice untagged.2] at tagged
      exact absurd untagged.1 tagged
  · exact outside m (by rintro (isChild | isNode); exacts [same isChild, isOther isNode]) tagged

section

variable (older : ∀ n, ∀ parent ∈ parents n, parent < n) (needed : nodes.Needed)
include older needed

theorem Needed.detach {fuel : ℕ} (enough : (n : ℕ) ≤ fuel) :
    ∃ after, detachFrom parents (AnimatedNodes.removeChild parents fuel) nodes n = some after ∧
      after.Needed := by
  obtain ⟨_, mirrors⟩ := needed.mirrors
  obtain ⟨after, _, detaches, drops⟩ :=
    detach_spec older mirrors needed.unqueued needed.queueOff enough
  exact ⟨after, detaches,
    drops.shrinks.needed needed drops.mirrors (drops.held _ (needed.heldOutside _))⟩

theorem Needed.removeChild (leaves : nodes.LeavesNothing (.removeChild n child)) :
    ∃ after, AnimatedNodes.removeChild parents count nodes n child = some after ∧ after.Needed := by
  obtain ⟨_, rfl⟩ := Nat.exists_eq_succ_of_ne_zero (Nat.ne_of_gt (Fin.pos n))
  rw [removeChild_eq]
  by_cases isChild : child ∈ (nodes.node n).children
  · rw [if_neg (not_not_intro isChild)]
    obtain ⟨_, mirrors⟩ := needed.mirrors
    obtain ⟨_, splices⟩ :=
      splice_spec mirrors needed.unqueued needed.queueOff isChild
    have outside := splices.heldOutside_self needed isChild leaves
    split
    next noChildren =>
      -- The node needs its tag no more, and it is dropped.
      obtain ⟨after, _, detaches, drops⟩ :=
        detach_spec older splices.mirrors (splices.shrinks.queue.trans needed.unqueued)
          (splices.shrinks.queueConnections.trans needed.queueOff) (Nat.le_of_lt_succ n.isLt)
      refine ⟨after, detaches, (splices.shrinks.trans drops.shrinks).needed needed drops.mirrors ?_⟩
      exact drops.held _ fun m notNamed => outside m fun isNode => notNamed (Or.inr isNode)
    next hasChildren =>
      refine ⟨_, rfl, splices.shrinks.needed needed splices.mirrors fun m _ tagged => ?_⟩
      by_cases isNode : m = n
      · subst isNode
        exact Or.inl hasChildren
      · exact outside m isNode tagged
  · rw [if_pos isChild]
    exact ⟨nodes, rfl, needed⟩

/-- **Each operation that leaves nothing behind keeps tags to the nodes that need them.** -/
theorem Needed.step {operation : AnimatedOperation count} (leaves : nodes.LeavesNothing operation) :
    ∃ after, step parents nodes operation = some after ∧ after.Needed := by
  obtain ⟨_, mirrors⟩ := needed.mirrors
  cases operation with
  | attach n =>
    obtain ⟨after, connectedAfter, attaches, adds⟩ := attach_spec older mirrors n
    exact ⟨after, attaches, adds.needed needed⟩
  | detach n => exact needed.detach older (Nat.le_of_lt n.isLt)
  | addChild n child =>
    obtain ⟨after, connectedAfter, addsChild, adds⟩ := addChild_spec older mirrors n.isLt child
    exact ⟨after, addsChild, adds.needed needed⟩
  | removeChild n child => exact needed.removeChild older leaves
  | makeNative n =>
    obtain ⟨after, connectedAfter, makes, nativizes, -⟩ :=
      makeNative_spec older mirrors (enough_fuel nodes n)
    exact ⟨after, makes, nativizes.adds.needed needed⟩
  | makeNativeQueued n =>
    obtain ⟨after, connectedAfter, makes, adds⟩ :=
      makeNativeQueued_spec older mirrors needed.unqueued needed.queueOff n
    exact ⟨after, makes, adds.needed needed⟩
  | addListener n =>
    obtain ⟨mirrorsAfter, relistens, listened⟩ := addListener_spec mirrors n
    exact ⟨_, rfl, relistens.needed needed mirrorsAfter fun _ => Or.inr (Or.inr listened)⟩
  | removeListener n => exact ⟨_, rfl, needed.removeListener leaves⟩
  | removeAllListeners n => exact ⟨_, rfl, needed.removeAllListeners leaves⟩

end

theorem Needed.count_drop (needed : nodes.Needed)
    (idle : ∀ m, (nodes.node m).children = [] ∧ (nodes.node m).listeners = ∅) {tag : ℕ}
    (created : .createAnimatedNode tag ∈ nodes.commands) :
    nodes.commands.count (.dropAnimatedNode tag) = 1 := by
  obtain ⟨connected, mirrors⟩ := needed.mirrors
  have gone : tag ∉ (nativeGraph nodes.commands).nodes := by
    intro existing
    obtain ⟨m, isTag⟩ := (mirrors.existing tag).mp existing
    rcases needed.held m (isTag ▸ Option.some_ne_none tag) with hasChildren | ⟨parent, isChild⟩ | listened
    · exact hasChildren (idle m).1
    · rw [(idle parent).1] at isChild
      cases isChild
    · exact listened (idle m).2
  have dropped := mirrors.dropped tag
  rw [if_neg gone, add_zero] at dropped
  have once := mirrors.once tag
  have positive := List.count_pos_iff.mpr created
  omega

end AnimatedNodes

end ReactNative

