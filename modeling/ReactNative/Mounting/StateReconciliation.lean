import ReactNative.Core.ShadowNode
import ReactNative.Foundation.DiffScripts

/-! Before a commit the states of the new tree are brought up to date with the committed one. The
walk stops at a pair whose committed state revision, a sum over the subtree, is not larger. A clone
with new children takes over Yoga nodes, which clones some children that the walk has left. -/
namespace ReactNative

open KeyedTree ShadowNode List Option Tree

variable {D : Type} [DecidableEq D]

section Reconcile

variable (owners : YogaOwners D) (mostRecentState : ShadowNodeFamily → Option (State D))

/-- Collects all children, cloned or uncloned, into a new list. -/
def mergeChangedPairs : List (ShadowNode D) → List (ShadowNode D × ShadowNode D) →
    List (ShadowNode D)
  | [], _ => []
  | child :: rest, [] => child :: mergeChangedPairs rest []
  | child :: rest, (first, second) :: changedPairs =>
    if first = child then second :: mergeChangedPairs rest changedPairs
    else child :: mergeChangedPairs rest ((first, second) :: changedPairs)

mutual
/-- The reconciled clone, or `none` if there is nothing to reconcile. -/
def reconcileStateWithTree : ShadowNode D → ShadowNode D → Option (ShadowNode D)
  | ⟨fields, newChildren⟩, committedNode =>
    if committedNode.getStateRevision ≤ fields.stateRevision then none
    else
      let newNode : ShadowNode D := ⟨fields, newChildren⟩
      let changedPairs := reconcileStateWithChildren newChildren committedNode.getChildren
      let clonedChildren :=
        if changedPairs.isEmpty then none else some (mergeChangedPairs newChildren changedPairs)
      some (newNode.cloneShadowNode owners mostRecentState
        { children := clonedChildren, state := mostRecentState fields.family })

def reconcileStateWithChildren : List (ShadowNode D) → List (ShadowNode D) →
    List (ShadowNode D × ShadowNode D)
  | [], _ => []
  | child :: rest, oldChildren =>
    let changed := match oldChildren.find? fun el => child.sameFamily el with
      | some oldChild => reconcileStateWithTree child oldChild
      | none => none
    match changed with
    | some newChild => (child, newChild) :: reconcileStateWithChildren rest oldChildren
    | none => reconcileStateWithChildren rest oldChildren
end

def reconciledRoot (newRootShadowNode oldRootShadowNode : ShadowNode D) : ShadowNode D :=
  match reconcileStateWithTree owners mostRecentState newRootShadowNode oldRootShadowNode with
  | some reconciledNode => reconciledNode.cloneShadowNode owners mostRecentState {}
  | none => newRootShadowNode

/-! ### The reconciled tree, child by child -/

def changedChild (oldChildren : List (ShadowNode D)) (child : ShadowNode D) :
    Option (ShadowNode D) :=
  (oldChildren.find? fun el => child.sameFamily el).bind
    (reconcileStateWithTree owners mostRecentState child)

theorem reconcileStateWithChildren_eq (newChildren oldChildren : List (ShadowNode D)) :
    reconcileStateWithChildren owners mostRecentState newChildren oldChildren =
      newChildren.filterMap fun child =>
        (changedChild owners mostRecentState oldChildren child).map fun newChild =>
          (child, newChild) := by
  induction newChildren with
  | nil => simp [reconcileStateWithChildren]
  | cons child _ ih =>
    rw [reconcileStateWithChildren, ih, filterMap_cons, changedChild]
    cases oldChildren.find? fun el => child.sameFamily el with
    | none => rfl
    | some oldChild =>
      simp only [bind_some]
      cases reconcileStateWithTree owners mostRecentState child oldChild <;> rfl

omit owners mostRecentState in
theorem mergeChangedPairs_eq (changed : ShadowNode D → Option (ShadowNode D))
    (newChildren : List (ShadowNode D)) :
    mergeChangedPairs newChildren
        (newChildren.filterMap fun child => (changed child).map fun newChild => (child, newChild)) =
      newChildren.map fun child => (changed child).getD child := by
  induction newChildren with
  | nil => rfl
  | cons child rest ih =>
    rw [filterMap_cons, map_cons, ← ih]
    cases own : changed child with
    | some newChild => simp [mergeChangedPairs]
    | none =>
      simp only [map_none, getD_none]
      cases later : rest.filterMap fun child => (changed child).map fun newChild =>
          (child, newChild) with
      | nil => rfl
      | cons pair more =>
        -- The next pair belongs to a child that has a clone.
        have listed : pair ∈ rest.filterMap fun child => (changed child).map fun newChild =>
            (child, newChild) := by simp [later]
        obtain ⟨other, -, found⟩ := mem_filterMap.mp listed
        obtain ⟨newChild, changedEq, rfl⟩ := map_eq_some_iff.mp found
        have apart : other ≠ child := by
          rintro rfl
          rw [own] at changedEq
          cases changedEq
        rw [mergeChangedPairs, if_neg apart]

/-- Whether a child was cloned, so that the list of the children is made anew. -/
def changesChildren (newNode committedNode : ShadowNode D) : Bool :=
  newNode.getChildren.any fun child =>
    (changedChild owners mostRecentState committedNode.getChildren child).isSome

theorem isEmpty_reconcileStateWithChildren (newNode committedNode : ShadowNode D) :
    (reconcileStateWithChildren owners mostRecentState newNode.getChildren
      committedNode.getChildren).isEmpty =
        !changesChildren owners mostRecentState newNode committedNode := by
  rw [reconcileStateWithChildren_eq, changesChildren, Bool.eq_iff_iff]
  simp [List.isEmpty_iff, filterMap_eq_nil_iff]

omit [DecidableEq D] in
theorem cloneShadowNode_recent (source : ShadowNode D) (children : Option (List (ShadowNode D))) :
    cloneShadowNode owners mostRecentState source
        { children, state := mostRecentState source.getFamily } =
      cloneShadowNode owners mostRecentState source { children } := by
  rw [cloneShadowNode, cloneShadowNode, clone, clone]
  cases mostRecentState source.getFamily <;> rfl

theorem reconcileStateWithTree_eq (newNode committedNode : ShadowNode D) :
    reconcileStateWithTree owners mostRecentState newNode committedNode =
      if committedNode.getStateRevision ≤ newNode.getStateRevision then none
      else some (newNode.cloneShadowNode owners mostRecentState
        { children :=
            if changesChildren owners mostRecentState newNode committedNode then
              some (newNode.getChildren.map fun child =>
                (changedChild owners mostRecentState committedNode.getChildren child).getD child)
            else none }) := by
  obtain ⟨fields, newChildren⟩ := newNode
  have merged := mergeChangedPairs_eq
    (changedChild owners mostRecentState committedNode.getChildren) newChildren
  rw [← reconcileStateWithChildren_eq] at merged
  have empty := isEmpty_reconcileStateWithChildren owners mostRecentState ⟨fields, newChildren⟩
    committedNode
  by_cases stops : committedNode.getStateRevision ≤ fields.stateRevision
  · exact (if_pos stops).trans (if_pos stops).symm
  · refine (if_neg stops).trans (Eq.trans (congrArg some ?_) (if_neg stops).symm)
    refine (cloneShadowNode_recent owners mostRecentState ⟨fields, newChildren⟩ _).trans ?_
    rw [merged, show (reconcileStateWithChildren owners mostRecentState newChildren
      committedNode.getChildren).isEmpty = _ from empty]
    cases changesChildren owners mostRecentState ⟨fields, newChildren⟩ committedNode <;> rfl

end Reconcile

/-! ### What is compared -/

def revisionOf (state : Option (State D)) : Nat :=
  match state with
  | some state => state.revision
  | none => 0

/-- The pair of nodes that the walk would meet, were it not stopped. -/
inductive Paired : ShadowNode D → ShadowNode D → ShadowNode D → ShadowNode D → Prop
  | here (new old : ShadowNode D) : Paired new old new old
  | inside {new old child oldChild n o : ShadowNode D} (newMem : child ∈ new.getChildren)
      (oldMem : oldChild ∈ old.getChildren) (same : child.getFamily = oldChild.getFamily)
      (deeper : Paired child oldChild n o) : Paired new old n o

section Conditions

variable (owners : YogaOwners D)

/-- The walk stops at the child and goes on at one of its siblings. The parent takes over the Yoga
node of the child, which has an owner already. -/
structure Refreshed (new old child oldChild : ShadowNode D) : Prop where
  stops : oldChild.getStateRevision ≤ child.getStateRevision
  taken : new.takesYogaChildren
  owned : child.isOwned owners
  changed : ∃ sibling ∈ new.getChildren, ∃ oldSibling ∈ old.getChildren,
    sibling.getFamily = oldSibling.getFamily ∧
      ¬ oldSibling.getStateRevision ≤ sibling.getStateRevision

/-- The walk stops at or above the pair, and the node stays as it is. -/
inductive Masked : ShadowNode D → ShadowNode D → ShadowNode D → ShadowNode D → Prop
  | here {new old n o : ShadowNode D} (stops : old.getStateRevision ≤ new.getStateRevision)
      (paired : Paired new old n o) : Masked new old n o
  | inside {new old child oldChild n o : ShadowNode D}
      (goes : ¬ old.getStateRevision ≤ new.getStateRevision) (newMem : child ∈ new.getChildren)
      (oldMem : oldChild ∈ old.getChildren) (same : child.getFamily = oldChild.getFamily)
      (deeper : Masked child oldChild n o)
      (stays : Refreshed owners new old child oldChild → n ≠ child) : Masked new old n o

/-- No node that holds an outdated state is masked. -/
def NoMaskedState (new old : ShadowNode D) : Prop :=
  ∀ n o, Masked owners new old n o → revisionOf o.getState ≤ revisionOf n.getState

end Conditions

/-- The two trees have the same root family; a family occurs at most once in each
and keeps its parent. -/
structure Reconcilable (new old : ShadowNode D) : Prop where
  root : new.getFamily = old.getFamily
  distinctNew : Distinct familyOf old.getFamily new.getChildren
  distinctOld : Distinct familyOf old.getFamily old.getChildren
  parents : SameParents familyOf old.getFamily new.getChildren old.getChildren

variable {new old : ShadowNode D}

omit [DecidableEq D] in
theorem Reconcilable.child {child oldChild : ShadowNode D} (reconcilable : Reconcilable new old)
    (newMem : child ∈ new.getChildren) (oldMem : oldChild ∈ old.getChildren)
    (same : child.getFamily = oldChild.getFamily) : Reconcilable child oldChild := by
  refine ⟨same, ?_, reconcilable.distinctOld.children oldMem,
    reconcilable.parents.children newMem oldMem same⟩
  have distinct := reconcilable.distinctNew.children newMem
  rw [show familyOf child.label = familyOf oldChild.label from same] at distinct
  exact distinct

omit [DecidableEq D] in
theorem mem_nodes_family {tree node : ShadowNode D} (member : node ∈ nodes tree) :
    tree.getFamily = node.getFamily ∨ node.getFamily ∈ keys familyOf tree.getChildren := by
  rcases mem_nodes.mp member with rfl | below
  · exact .inl rfl
  · exact .inr (mem_keys.mpr ⟨node, below, rfl⟩)

variable {o : ShadowNode D}

omit [DecidableEq D] in
/-- A node of the old tree whose family occurs at or below a child of the new root
is at or below the old child of that child's family. -/
theorem Reconcilable.match_child {child : ShadowNode D} (reconcilable : Reconcilable new old)
    (newMem : child ∈ new.getChildren)
    (inChild : child.getFamily = o.getFamily ∨ o.getFamily ∈ keys familyOf child.getChildren)
    (inOld : o ∈ forestNodes old.getChildren) :
    ∃ oldChild ∈ old.getChildren, child.getFamily = oldChild.getFamily ∧
      o ∈ nodes oldChild := by
  obtain ⟨-, distinctNew, distinctOld, parents⟩ := reconcilable
  obtain ⟨oldChild, oldMem, same, region⟩ := parents.region_stays distinctNew distinctOld newMem
    inChild (mem_keys.mpr ⟨o, inOld, rfl⟩)
  refine ⟨oldChild, oldMem, same.symm, ?_⟩
  rcases region with here | below
  · have equal := distinctOld.node_unique (root_mem_forestNodes oldMem) inOld here
    exact equal ▸ self_mem_nodes oldChild
  · obtain ⟨inner, innerMem, innerKey⟩ := mem_keys.mp below
    have equal := distinctOld.node_unique (below_mem_forestNodes oldMem innerMem) inOld innerKey
    exact mem_nodes.mpr (.inr (equal ▸ innerMem))

omit [DecidableEq D] in
theorem Reconcilable.root_unique {node : ShadowNode D} (reconcilable : Reconcilable new old)
    (member : node ∈ nodes old) (same : old.getFamily = node.getFamily) :
    node = old := by
  rcases mem_nodes.mp member with equal | below
  · exact equal
  · exact absurd (mem_keys.mpr ⟨node, below, same.symm⟩) reconcilable.distinctOld.root_not_mem

variable {n : ShadowNode D}

section

omit [DecidableEq D]

/-- Below the root of the new tree only nodes below the old root can be met. -/
theorem Reconcilable.below_root (reconcilable : Reconcilable new old)
    (below : n ∈ forestNodes new.getChildren) (member : o ∈ nodes old)
    (same : n.getFamily = o.getFamily) : o ∈ forestNodes old.getChildren := by
  rcases mem_nodes.mp member with rfl | inside
  · exact absurd (mem_keys.mpr ⟨n, below, same⟩) reconcilable.distinctNew.root_not_mem
  · exact inside

theorem Reconcilable.paired (new : ShadowNode D) : ∀ old : ShadowNode D, Reconcilable new old →
    ∀ n o : ShadowNode D, n ∈ nodes new → o ∈ nodes old →
      n.getFamily = o.getFamily → Paired new old n o := by
  induction new using induction with
  | step new ih =>
    intro old reconcilable n o newMem oldMem same
    rcases mem_nodes.mp newMem with rfl | belowNew
    · have equal := reconcilable.root_unique oldMem (reconcilable.root.symm.trans same)
      rw [equal]
      exact .here _ _
    · obtain ⟨child, childMem, inChild⟩ := mem_forestNodes.mp belowNew
      have located := mem_nodes_family inChild
      rw [same] at located
      obtain ⟨oldChild, oldChildMem, sameChild, inside⟩ := reconcilable.match_child childMem located
        (reconcilable.below_root belowNew oldMem same)
      exact .inside childMem oldChildMem sameChild (ih child childMem oldChild
        (reconcilable.child childMem oldChildMem sameChild) n o inChild inside same)

theorem Paired.mem (paired : Paired new old n o) : n ∈ nodes new ∧ o ∈ nodes old := by
  induction paired with
  | here => exact ⟨self_mem_nodes _, self_mem_nodes _⟩
  | inside newMem oldMem _ _ ih =>
    exact ⟨mem_nodes.mpr (.inr (mem_forestNodes.mpr ⟨_, newMem, ih.1⟩)),
      mem_nodes.mpr (.inr (mem_forestNodes.mpr ⟨_, oldMem, ih.2⟩))⟩

theorem Masked.paired {owners : YogaOwners D} (masked : Masked owners new old n o) :
    Paired new old n o := by
  induction masked with
  | here _ paired => exact paired
  | inside _ newMem oldMem same _ _ ih => exact .inside newMem oldMem same ih

theorem Paired.same_family (paired : Paired new old n o) (root : new.getFamily = old.getFamily) :
    n.getFamily = o.getFamily := by
  induction paired with
  | here => exact root
  | inside _ _ same _ ih => exact ih same

end

section Result

variable (owners : YogaOwners D) (mostRecentState : ShadowNodeFamily → Option (State D))

def reconciled (new old : ShadowNode D) : ShadowNode D :=
  (reconcileStateWithTree owners mostRecentState new old).getD new

def reconciledChild (oldChildren : List (ShadowNode D)) (child : ShadowNode D) : ShadowNode D :=
  match oldChildren.find? fun el => child.sameFamily el with
  | some oldChild => reconciled owners mostRecentState child oldChild
  | none => child

/-- The child that the clone of the parent has in the end. -/
def adoptedChild (new old child : ShadowNode D) : ShadowNode D :=
  if changesChildren owners mostRecentState new old && new.takesYogaChildren then
    appendChildYogaNode owners mostRecentState
      (reconciledChild owners mostRecentState old.getChildren child)
  else reconciledChild owners mostRecentState old.getChildren child

variable {new old : ShadowNode D}

theorem reconciled_stopped (stops : old.getStateRevision ≤ new.getStateRevision) :
    reconciled owners mostRecentState new old = new := by
  rw [reconciled, reconcileStateWithTree_eq, if_pos stops, getD_none]

theorem changedChild_getD (oldChildren : List (ShadowNode D)) (child : ShadowNode D) :
    (changedChild owners mostRecentState oldChildren child).getD child =
      reconciledChild owners mostRecentState oldChildren child := by
  rw [changedChild, reconciledChild]
  cases oldChildren.find? fun el => child.sameFamily el <;> rfl

variable (goes : ¬ old.getStateRevision ≤ new.getStateRevision)
include goes

theorem reconciled_cloned : ∃ children, reconciled owners mostRecentState new old =
    new.cloneShadowNode owners mostRecentState { children } := by
  rw [reconciled, reconcileStateWithTree_eq, if_neg goes, getD_some]
  exact ⟨_, rfl⟩

theorem getChildren_reconciled : (reconciled owners mostRecentState new old).getChildren =
    new.getChildren.map (adoptedChild owners mostRecentState new old) := by
  rw [reconciled, reconcileStateWithTree_eq, if_neg goes, getD_some]
  simp only [changedChild_getD]
  cases changes : changesChildren owners mostRecentState new old with
  | true =>
    rw [if_pos rfl, getChildren_cloneShadowNode, givenChildren]
    split
    next taken =>
      rw [List.map_map]
      refine map_congr_left fun child _ => ?_
      rw [adoptedChild, changes, Bool.true_and, if_pos taken, Function.comp]
    next refused =>
      refine map_congr_left fun child _ => ?_
      rw [adoptedChild, changes, Bool.true_and, if_neg refused]
  | false =>
    -- without a changed child each child is its own reconciled one
    rw [getChildren_cloneShadowNode_of_none owners mostRecentState new (by rfl)]
    refine (List.map_id _).symm.trans (map_congr_left fun child member => ?_)
    have unchanged := List.any_eq_false.mp changes child member
    rw [Bool.not_eq_true, Option.isSome_eq_false_iff, Option.isNone_iff_eq_none] at unchanged
    rw [adoptedChild, changes, Bool.false_and, if_neg Bool.false_ne_true, ← changedChild_getD,
      unchanged]
    rfl

omit goes

/-! ### What stays of a node -/

def outline (fields : ShadowNodeFields D) : ShadowNodeFamily × Pointer :=
  (fields.family, fields.props)

omit [DecidableEq D] in
theorem appendChildYogaNode_outline (child : ShadowNode D) :
    (appendChildYogaNode owners mostRecentState child).map outline =
      KeyedTree.Tree.map outline child := by
  rw [appendChildYogaNode]
  split
  · rw [map_eq, map_eq outline child]
    rfl
  · rfl

theorem reconciled_outline (new : ShadowNode D) : ∀ old : ShadowNode D,
    (reconciled owners mostRecentState new old).map outline = KeyedTree.Tree.map outline new := by
  induction new using induction with
  | step new ih =>
    intro old
    by_cases stops : old.getStateRevision ≤ getStateRevision new
    · rw [reconciled_stopped owners mostRecentState stops]
    · have reconciledOutline : ∀ child ∈ getChildren new,
          (reconciledChild owners mostRecentState old.getChildren child).map outline =
            KeyedTree.Tree.map outline child := by
        intro child member
        rw [reconciledChild]
        split
        · exact ih child member _
        · rfl
      have children : (getChildren (reconciled owners mostRecentState new old)).map
          (KeyedTree.Tree.map outline) = (getChildren new).map (KeyedTree.Tree.map outline) := by
        rw [getChildren_reconciled owners mostRecentState stops, List.map_map]
        refine map_congr_left fun child member => ?_
        rw [Function.comp, adoptedChild]
        split
        · rw [appendChildYogaNode_outline, reconciledOutline child member]
        · exact reconciledOutline child member
      obtain ⟨_, cloned⟩ := reconciled_cloned owners mostRecentState stops
      rw [map_eq, map_eq]
      refine congrArg₂ mk ?_ children
      rw [cloned]
      rfl

variable {owners mostRecentState}

omit [DecidableEq D] in
theorem Reconcilable.find?_sameFamily {child oldChild : ShadowNode D}
    (reconcilable : Reconcilable new old) (oldMem : oldChild ∈ old.getChildren)
    (same : child.getFamily = oldChild.getFamily) :
    (old.getChildren.find? fun el => child.sameFamily el) = some oldChild := by
  cases found : old.getChildren.find? fun el => child.sameFamily el with
  | none =>
    have miss := find?_eq_none.mp found oldChild oldMem
    simp [sameFamily, same] at miss
  | some other =>
    have hit : child.getFamily = other.getFamily := by
      simpa [sameFamily] using find?_some found
    rw [reconcilable.distinctOld.tree_unique (mem_of_find?_eq_some found) oldMem
      (hit.symm.trans same)]

theorem reconciledChild_matched {child oldChild : ShadowNode D}
    (reconcilable : Reconcilable new old) (oldMem : oldChild ∈ old.getChildren)
    (same : child.getFamily = oldChild.getFamily) :
    reconciledChild owners mostRecentState old.getChildren child =
      reconciled owners mostRecentState child oldChild := by
  rw [reconciledChild, reconcilable.find?_sameFamily oldMem same]

/-- The walk went on at a child: it has a clone. -/
theorem changesChildren_iff (reconcilable : Reconcilable new old) :
    changesChildren owners mostRecentState new old ↔
      ∃ sibling ∈ new.getChildren, ∃ oldSibling ∈ old.getChildren,
        sibling.getFamily = oldSibling.getFamily ∧
          ¬ oldSibling.getStateRevision ≤ sibling.getStateRevision := by
  have changed : ∀ child oldChild : ShadowNode D, oldChild ∈ old.getChildren →
      child.getFamily = oldChild.getFamily →
      ((changedChild owners mostRecentState old.getChildren child).isSome ↔
        ¬ oldChild.getStateRevision ≤ child.getStateRevision) := by
    intro child oldChild oldMem same
    rw [changedChild, reconcilable.find?_sameFamily oldMem same, Option.bind_some,
      reconcileStateWithTree_eq]
    split <;> simp [*]
  rw [changesChildren, List.any_eq_true]
  constructor
  · rintro ⟨child, newMem, isChanged⟩
    cases found : old.getChildren.find? fun el => child.sameFamily el with
    | none =>
      rw [changedChild, found] at isChanged
      cases isChanged
    | some oldChild =>
      have oldMem := mem_of_find?_eq_some found
      have same : child.getFamily = oldChild.getFamily := by
        simpa [sameFamily] using find?_some found
      exact ⟨child, newMem, oldChild, oldMem, same, (changed child oldChild oldMem same).mp isChanged⟩
  · rintro ⟨child, newMem, oldChild, oldMem, same, goes⟩
    exact ⟨child, newMem, (changed child oldChild oldMem same).mpr goes⟩

/-- Only a child at which the walk has stopped has an owner. -/
theorem reconciledChild_owned {child : ShadowNode D}
    (owned : (reconciledChild owners mostRecentState old.getChildren child).isOwned owners) :
    reconciledChild owners mostRecentState old.getChildren child = child := by
  rw [reconciledChild] at owned ⊢
  split at owned
  next oldChild _ =>
    by_cases stops : oldChild.getStateRevision ≤ child.getStateRevision
    · exact reconciled_stopped owners mostRecentState stops
    · obtain ⟨_, cloned⟩ := reconciled_cloned owners mostRecentState stops
      rw [cloned, isOwned_cloneShadowNode] at owned
      cases owned
  next => rfl

/-- A node at or below a child in the end has the most recent state, or is at or below the
reconciled child, and was not refreshed there. -/
theorem mem_adoptedChild {child r : ShadowNode D} (reconcilable : Reconcilable new old)
    (newMem : child ∈ new.getChildren)
    (member : r ∈ nodes (adoptedChild owners mostRecentState new old child)) :
    r.getState = mostRecentState r.getFamily ∨
      r ∈ nodes (reconciledChild owners mostRecentState old.getChildren child) ∧
        ∀ oldChild ∈ old.getChildren, child.getFamily = oldChild.getFamily →
          Refreshed owners new old child oldChild → r ≠ child := by
  rw [adoptedChild] at member
  split at member
  next adopts =>
    rw [appendChildYogaNode] at member
    split at member
    next owned =>
      rw [reconciledChild_owned owned] at member ⊢
      rcases mem_nodes.mp member with rfl | below
      · exact .inl rfl
      · refine .inr ⟨mem_nodes.mpr (.inr below), fun _ _ _ _ isChild => ?_⟩
        -- a node is not below itself
        subst isChild
        exact (reconcilable.distinctNew.children newMem).root_not_mem (mem_keys.mpr ⟨_, below, rfl⟩)
    next free =>
      refine .inr ⟨member, fun oldChild oldMem same refreshed _ => free ?_⟩
      rw [reconciledChild_matched reconcilable oldMem same,
        reconciled_stopped owners mostRecentState refreshed.stops]
      exact refreshed.owned
  next kept =>
    refine .inr ⟨member, fun oldChild oldMem same refreshed _ => kept ?_⟩
    rw [(changesChildren_iff reconcilable).mpr refreshed.changed, refreshed.taken]
    rfl

theorem reconciled_cases (new : ShadowNode D) : ∀ old : ShadowNode D, Reconcilable new old →
    ∀ r : ShadowNode D, r ∈ nodes (reconciled owners mostRecentState new old) →
      r.getState = mostRecentState r.getFamily ∨
        r ∈ nodes new ∧ ∀ o : ShadowNode D, o ∈ nodes old →
          r.getFamily = o.getFamily → Masked owners new old r o := by
  -- Induction over the new tree: the walk stops at a node, or takes its most recent state.
  induction new using induction with
  | step new ih =>
    intro old reconcilable r member
    by_cases stops : old.getStateRevision ≤ getStateRevision new
    · rw [reconciled_stopped owners mostRecentState stops] at member
      exact .inr ⟨member, fun o oldMem same =>
        .here stops (reconcilable.paired new old r o member oldMem same)⟩
    · rcases mem_nodes.mp member with rfl | below
      · obtain ⟨_, cloned⟩ := reconciled_cloned owners mostRecentState stops
        rw [cloned]
        exact .inl rfl
      · rw [show children _ = _ from getChildren_reconciled owners mostRecentState stops] at below
        obtain ⟨_, placeMem, adopted⟩ := mem_forestNodes.mp below
        obtain ⟨child, childMem, rfl⟩ := mem_map.mp placeMem
        obtain recent | ⟨inPlace, stays⟩ := mem_adoptedChild reconcilable childMem adopted
        · exact .inl recent
        rw [reconciledChild] at inPlace
        split at inPlace
        · next oldChild found =>
          have oldChildMem := mem_of_find?_eq_some found
          have sameChild : child.getFamily = oldChild.getFamily := by
            simpa [sameFamily] using find?_some found
          rcases ih child childMem oldChild (reconcilable.child childMem oldChildMem sameChild) r
            inPlace with recent | ⟨inChild, masked⟩
          · exact .inl recent
          · have belowNew := mem_forestNodes.mpr ⟨child, childMem, inChild⟩
            refine .inr ⟨mem_nodes.mpr (.inr belowNew), fun o oldMem same => ?_⟩
            -- The partner is below the old child of the same family.
            have located := mem_nodes_family inChild
            rw [same] at located
            obtain ⟨_, oldChildMem', sameChild', inside⟩ := reconcilable.match_child childMem
              located (reconcilable.below_root belowNew oldMem same)
            have equal := reconcilable.distinctOld.tree_unique oldChildMem oldChildMem'
              (sameChild.symm.trans sameChild')
            exact .inside stops childMem oldChildMem sameChild (masked o (equal ▸ inside) same)
              (stays oldChild oldChildMem sameChild)
        · next unmatched =>
          have belowNew := mem_forestNodes.mpr ⟨child, childMem, inPlace⟩
          refine .inr ⟨mem_nodes.mpr (.inr belowNew), fun o oldMem same => ?_⟩
          have located := mem_nodes_family inPlace
          rw [same] at located
          obtain ⟨oldChild, oldChildMem, sameChild, -⟩ := reconcilable.match_child childMem located
            (reconcilable.below_root belowNew oldMem same)
          have miss := find?_eq_none.mp unmatched oldChild oldChildMem
          simp [sameFamily, sameChild] at miss

/-- **Unmasked states are brought up to date.** -/
theorem reconciled_states (reconcilable : Reconcilable new old)
    (recent : ∀ o : ShadowNode D, o ∈ nodes old → mostRecentState o.getFamily = o.getState)
    (noMasked : NoMaskedState owners new old) {n o : ShadowNode D}
    (newMem : n ∈ nodes (reconciled owners mostRecentState new old))
    (oldMem : o ∈ nodes old) (same : n.getFamily = o.getFamily) :
    revisionOf o.getState ≤ revisionOf n.getState := by
  rcases reconciled_cases new old reconcilable n newMem with isRecent | ⟨-, masked⟩
  · rw [isRecent, same, recent o oldMem]
  · exact noMasked n o (masked o oldMem same)

variable (owners mostRecentState)

theorem reconciled_masked {n o : ShadowNode D} (masked : Masked owners new old n o)
    (reconcilable : Reconcilable new old) :
    ∃ n' ∈ nodes (reconciled owners mostRecentState new old),
      getFamily n' = n.getFamily ∧ getState n' = n.getState := by
  induction masked with
  | here stops paired =>
    rw [reconciled_stopped owners mostRecentState stops]
    exact ⟨_, paired.mem.1, rfl, rfl⟩
  | @inside new old child oldChild n o goes newMem oldMem same deeper stays ih =>
    obtain ⟨n', member, facts⟩ := ih (reconcilable.child newMem oldMem same)
    rw [← reconciledChild_matched reconcilable oldMem same] at member
    -- it is enough to find the node at or below the child that the clone has in the end
    suffices adopted : ∃ n' ∈ nodes (adoptedChild owners mostRecentState new old child),
        getFamily n' = n.getFamily ∧ getState n' = n.getState by
      obtain ⟨n', inside, facts⟩ := adopted
      refine ⟨n', mem_nodes.mpr (.inr ?_), facts⟩
      rw [show children _ = _ from getChildren_reconciled owners mostRecentState goes]
      exact mem_forestNodes.mpr ⟨_, mem_map_of_mem newMem, inside⟩
    rw [adoptedChild]
    split
    next adopts =>
      obtain ⟨changes, taken⟩ := Bool.and_eq_true_iff.mp adopts
      rw [appendChildYogaNode]
      split
      next owned =>
        -- the child is refreshed, and the node is below it
        have unchanged := reconciledChild_owned owned
        rw [unchanged] at owned ⊢
        have stops : oldChild.getStateRevision ≤ child.getStateRevision := by
          by_contra goesOn
          rw [reconciledChild_matched reconcilable oldMem same] at unchanged
          obtain ⟨_, cloned⟩ := reconciled_cloned owners mostRecentState goesOn
          rw [← unchanged, cloned, isOwned_cloneShadowNode] at owned
          cases owned
        have apart := stays ⟨stops, taken, owned, (changesChildren_iff reconcilable).mp changes⟩
        have below := (mem_nodes.mp deeper.paired.mem.1).resolve_left apart
        exact ⟨n, mem_nodes.mpr (.inr below), rfl, rfl⟩
      next => exact ⟨n', member, facts⟩
    next => exact ⟨n', member, facts⟩

def contents (fields : ShadowNodeFields D) : ShadowNodeFamily × Pointer × Option (State D) :=
  (fields.family, fields.props, fields.state)

theorem reconciledRoot_contents (new old : ShadowNode D) :
    (reconciledRoot owners mostRecentState new old).map contents =
      (reconciled owners mostRecentState new old).map contents := by
  rw [reconciledRoot]
  by_cases stops : old.getStateRevision ≤ new.getStateRevision
  · rw [reconciled, reconcileStateWithTree_eq, if_pos stops]
    rfl
  · obtain ⟨_, cloned⟩ := reconciled_cloned owners mostRecentState stops
    have found : reconcileStateWithTree owners mostRecentState new old =
        some (reconciled owners mostRecentState new old) := by
      rw [reconciled, reconcileStateWithTree_eq, if_neg stops]
      rfl
    rw [found, map_eq]
    simp only
    rw [map_eq, show children (cloneShadowNode _ _ _ _) = _ from
      getChildren_cloneShadowNode_of_none _ _ _ rfl, cloned]
    rfl

variable {owners mostRecentState}

/-- The result holds, for each node whose family also occurs in the old tree, a state
at least as recent as there; props and child order are those of the new tree. -/
structure LosesNoState (new old result : ShadowNode D) : Prop where
  states : ∀ n o : ShadowNode D, n ∈ nodes result → o ∈ nodes old →
    n.getFamily = o.getFamily → revisionOf o.getState ≤ revisionOf n.getState
  unchanged : KeyedTree.Tree.map outline result = KeyedTree.Tree.map outline new

/-- **Reconciliation loses no state exactly where none is masked.** -/
theorem losesNoState_iff {new old : ShadowNode D} (reconcilable : Reconcilable new old)
    (recent : ∀ o : ShadowNode D, o ∈ nodes old → mostRecentState o.getFamily = o.getState) :
    LosesNoState new old (reconciledRoot owners mostRecentState new old) ↔
      NoMaskedState owners new old := by
  have same := reconciledRoot_contents owners mostRecentState new old
  constructor
  -- A masked state is in the result, and shows that it is older.
  · intro loses n o masked
    obtain ⟨m, member, family, state⟩ := reconciled_masked owners mostRecentState
      masked reconcilable
    obtain ⟨m', member', equal⟩ := exists_node_of_map_eq contents same.symm member
    rw [map_eq, map_eq] at equal
    have family' : getFamily m' = getFamily m := congrArg (fun tree => tree.label.1) equal
    have state' : getState m' = getState m := congrArg (fun tree => tree.label.2.2) equal
    have families := masked.paired.same_family reconcilable.root
    have bound := loses.states m' o member' masked.paired.mem.2
      (family'.trans (family.trans families))
    rwa [state', state] at bound
  -- If none is masked, the result is up to date, and looks as the new tree does.
  · intro noMasked
    constructor
    · intro n o member oldMem families
      obtain ⟨m, member', equal⟩ := exists_node_of_map_eq contents same member
      rw [map_eq, map_eq] at equal
      have family' : getFamily m = getFamily n := congrArg (fun tree => tree.label.1) equal
      have state' : getState m = getState n := congrArg (fun tree => tree.label.2.2) equal
      rw [← state']
      exact reconciled_states reconcilable recent noMasked member' oldMem
        (family'.trans families)
    · have forget : outline = (fun whole : ShadowNodeFamily × Pointer × Option (State D) =>
          (whole.1, whole.2.1)) ∘ contents := rfl
      have root : KeyedTree.Tree.map outline (reconciledRoot owners mostRecentState new old) =
          KeyedTree.Tree.map outline (reconciled owners mostRecentState new old) := by
        rw [forget, ← Tree.map_map, same, Tree.map_map]
      rw [root, reconciled_outline]

end Result

/-- The families of the samples below: `2` and `3` hold later states. -/
def committedState (family : ShadowNodeFamily) : Option (State Nat) :=
  if family.tag = 2 then some ⟨0, 20, 2⟩ else if family.tag = 3 then some ⟨3, 50, 5⟩ else none

/-- All nodes of the samples below have owners, but for their clones. -/
def sampleOwners : YogaOwners ℕ where
  cloneAddress node := node.label.address + 10
  hasOwner address := decide (address < 10)
  clone_unowned _ := decide_eq_false (Nat.not_lt.mpr (Nat.le_add_left 10 _))

/-- The walk stops at the first child, but goes on at the second one. -/
theorem losesNoState_refreshed :
    let old := statefulNode 1 1 none
      [statefulNode 2 2 (some ⟨0, 20, 2⟩) [], statefulNode 6 3 (some ⟨3, 50, 5⟩) []]
    let new := statefulNode 3 1 none
      [statefulNode 4 2 (some ⟨1, 10, 1⟩) [statefulNode 7 4 (some ⟨4, 60, 1⟩) []],
        statefulNode 5 3 (some ⟨2, 30, 1⟩) []]
    LosesNoState new old (reconciledRoot sampleOwners committedState new old) := by
  intro old new
  refine (losesNoState_iff ⟨by decide, by unfold Distinct; decide, by unfold Distinct; decide,
    by decide⟩ (by decide)).mpr ?_
  intro n o masked
  cases masked with
  | here stops => exact absurd stops (by decide)
  | inside _ newMem oldMem same deeper stays =>
    simp only [new, old, statefulNode, getChildren, mem_cons, not_mem_nil, or_false] at newMem oldMem
    rcases newMem with rfl | rfl <;> rcases oldMem with rfl | rfl
    · -- the first children
      cases deeper with
      | here _ paired =>
        cases paired with
        | here => exact absurd rfl (stays ⟨by decide, by decide, by decide, by decide⟩)
        | inside _ oldMem => simp [getChildren] at oldMem
      | inside goes => exact absurd (by decide) goes
    · exact absurd same (by decide)
    · exact absurd same (by decide)
    · -- the second ones
      cases deeper with
      | here stops => exact absurd stops (by decide)
      | inside _ newMem => simp [getChildren] at newMem

theorem masked_state_lost : let old := statefulNode 1 1 none [statefulNode 2 2 (some ⟨0, 20, 2⟩) []]
    let new := statefulNode 3 1 none
      [statefulNode 4 2 (some ⟨1, 10, 1⟩) [], statefulNode 5 4 (some ⟨2, 30, 1⟩) []]
    Reconcilable new old ∧
      (∀ o : ShadowNode Nat, o ∈ nodes old → committedState o.getFamily = o.getState) ∧
      ¬ LosesNoState new old (reconciledRoot sampleOwners committedState new old) := by
  intro old new
  refine ⟨⟨by decide, by unfold Distinct; decide, by unfold Distinct; decide, by decide⟩,
    by decide, ?_⟩
  intro loses
  have bound := loses.states (statefulNode 4 2 (some ⟨1, 10, 1⟩) [])
    (statefulNode 2 2 (some ⟨0, 20, 2⟩) []) (by decide +kernel) (by decide +kernel) (by decide)
  exact absurd bound (by decide)

end ReactNative
