import ReactNative.Core.ShadowNode
import Mathlib.Data.List.Sort

/-! The differentiator works on the views that shadow nodes form. A node that forms a stacking
context keeps the views of its descendants below its own; every other node passes them up to its
parent. -/
namespace ReactNative

open KeyedTree ShadowNode

variable {D : Type}

structure ShadowView (D : Type) where
  componentName : String := ""
  tag : Tag := 0
  props : Option Pointer := none
  eventEmitter : Option Pointer := none
  layoutMetrics : LayoutMetrics := EmptyLayoutMetrics
  state : Option (State D) := none
  deriving DecidableEq

variable (shadowNode : ShadowNode D)

def layoutMetricsFromShadowNode : LayoutMetrics :=
  if shadowNode.getTraits.layoutableKind then shadowNode.label.layoutMetrics
  else EmptyLayoutMetrics

def ShadowView.ofShadowNode : ShadowView D where
  componentName := shadowNode.getComponentName
  tag := shadowNode.getTag
  props := some shadowNode.getProps
  eventEmitter := some shadowNode.getEventEmitter
  layoutMetrics := layoutMetricsFromShadowNode shadowNode
  state := shadowNode.getState

structure ShadowViewNodePair (D : Type) where
  shadowView : ShadowView D
  shadowNode : ShadowNode D

/-- The stored pointer to `ShadowNode` represents an identity of the pair. -/
def ShadowViewNodePair.same [DecidableEq D] (lhs rhs : ShadowViewNodePair D) : Bool :=
  lhs.shadowNode = rhs.shadowNode

/-- Stable sort by order index, skipped where it would change nothing. -/
def reorderBy {P : Type} (orderIndex : P → Int) (pairs : List P) : List P :=
  if pairs.length < 2 then pairs
  else if pairs.any fun pair => orderIndex pair ≠ 0 then
    pairs.insertionSort fun lhs rhs => orderIndex lhs ≤ orderIndex rhs
  else pairs

def reorderInPlaceIfNeeded (pairs : List (ShadowViewNodePair D)) : List (ShadowViewNodePair D) :=
  reorderBy (fun pair => pair.shadowNode.getOrderIndex) pairs

/-- The view of a sliced node, placed relative to the view it is sliced into. -/
def slicedShadowView (layoutOffset : Point) (shadowNode : ShadowNode D) : ShadowView D :=
  let shadowView := ShadowView.ofShadowNode shadowNode
  if shadowView.layoutMetrics ≠ EmptyLayoutMetrics then
    { shadowView with
      layoutMetrics.frame.origin := shadowView.layoutMetrics.frame.origin + layoutOffset }
  else shadowView

mutual
def sliceShadowNode (layoutOffset : Point) : ShadowNode D → List (ShadowViewNodePair D)
  | ⟨fields, children⟩ =>
    let shadowView := slicedShadowView layoutOffset ⟨fields, children⟩
    if fields.traits.formsStackingContext then [⟨shadowView, ⟨fields, children⟩⟩]
    else
      (if fields.traits.formsView then [⟨shadowView, ⟨fields, children⟩⟩] else []) ++
        sliceShadowNodes shadowView.layoutMetrics.frame.origin children

def sliceShadowNodes (layoutOffset : Point) : List (ShadowNode D) → List (ShadowViewNodePair D)
  | [] => []
  | child :: rest => sliceShadowNode layoutOffset child ++ sliceShadowNodes layoutOffset rest
end

def sliceChildShadowNodeViewPairsRecursively (layoutOffset : Point) (shadowNode : ShadowNode D) :
    List (ShadowViewNodePair D) :=
  sliceShadowNodes layoutOffset shadowNode.getChildren

def sliceChildShadowNodeViewPairs (shadowNode : ShadowNode D) : List (ShadowViewNodePair D) :=
  if !shadowNode.getTraits.formsStackingContext && shadowNode.getTraits.formsView then []
  else sliceChildShadowNodeViewPairsRecursively {} shadowNode

/-! ### Mutations -/

inductive MutationType where
  | create
  | delete
  | insert
  | remove
  | update
  deriving DecidableEq

structure ShadowViewMutation (D : Type) where
  type : MutationType := .create
  parentShadowView : ShadowView D := {}
  oldChildShadowView : ShadowView D := {}
  newChildShadowView : ShadowView D := {}
  index : Int := 0

namespace ShadowViewMutation

variable (shadowView : ShadowView D)

def createMutation : ShadowViewMutation D where
  type := .create
  newChildShadowView := shadowView
  index := -1

def deleteMutation : ShadowViewMutation D where
  type := .delete
  oldChildShadowView := shadowView
  index := -1

def insertMutation (parentShadowView childShadowView : ShadowView D) (index : Int) :
    ShadowViewMutation D where
  type := .insert
  parentShadowView := parentShadowView
  newChildShadowView := childShadowView
  index := index

def removeMutation (parentShadowView childShadowView : ShadowView D) (index : Int) :
    ShadowViewMutation D where
  type := .remove
  parentShadowView := parentShadowView
  oldChildShadowView := childShadowView
  index := index

def updateMutation (parentShadowView oldChildShadowView newChildShadowView : ShadowView D)
    (index : Int) : ShadowViewMutation D where
  type := .update
  parentShadowView := parentShadowView
  oldChildShadowView := oldChildShadowView
  newChildShadowView := newChildShadowView
  index := index

end ShadowViewMutation

/-! ### The view hierarchy -/

mutual
/-- The subtrees of views that a node contributes to the layer above it, each
with the order index it is sorted by. -/
def viewsOfNode (layoutOffset : Point) : ShadowNode D → List (Int × KeyedTree.Tree (ShadowView D))
  | ⟨fields, children⟩ =>
    let shadowView := slicedShadowView layoutOffset ⟨fields, children⟩
    if fields.traits.formsStackingContext then
      [(fields.orderIndex,
        ⟨shadowView, (reorderBy Prod.fst (viewsOfNodes {} children)).map Prod.snd⟩)]
    else
      (if fields.traits.formsView then [(fields.orderIndex, ⟨shadowView, []⟩)] else []) ++
        viewsOfNodes shadowView.layoutMetrics.frame.origin children

def viewsOfNodes (layoutOffset : Point) :
    List (ShadowNode D) → List (Int × KeyedTree.Tree (ShadowView D))
  | [] => []
  | child :: rest => viewsOfNode layoutOffset child ++ viewsOfNodes layoutOffset rest
end

variable (shadowNode : ShadowNode D)

/-- The views mounted below the view of a node, in mounting order. -/
def viewForest : List (KeyedTree.Tree (ShadowView D)) :=
  if !shadowNode.getTraits.formsStackingContext && shadowNode.getTraits.formsView then []
  else (reorderBy Prod.fst (viewsOfNodes {} shadowNode.getChildren)).map Prod.snd

def ShadowViewNodePair.tree (pair : ShadowViewNodePair D) : KeyedTree.Tree (ShadowView D) :=
  ⟨pair.shadowView, viewForest pair.shadowNode⟩

def ShadowNode.formsAnyView : Bool :=
  shadowNode.getTraits.formsStackingContext || shadowNode.getTraits.formsView

theorem reorderBy_perm {P : Type} (orderIndex : P → Int) (pairs : List P) :
    (reorderBy orderIndex pairs).Perm pairs := by
  unfold reorderBy
  split
  · exact .refl _
  · split
    · exact List.perm_insertionSort _ _
    · exact .refl _

theorem reorderBy_map {P Q : Type} (orderIndex : P → Int) (orderIndex' : Q → Int) (f : P → Q)
    (agree : ∀ pair, orderIndex' (f pair) = orderIndex pair) (pairs : List P) :
    (reorderBy orderIndex pairs).map f = reorderBy orderIndex' (pairs.map f) := by
  simp only [reorderBy, List.length_map, List.any_map, Function.comp_def, agree]
  split
  · rfl
  · split
    · exact List.map_insertionSort _ _ f pairs fun a _ b _ => by simp only [agree]
    · rfl

variable (children : List (ShadowNode D))

theorem viewsOfNodes_eq : ∀ layoutOffset : Point, viewsOfNodes layoutOffset children =
      (sliceShadowNodes layoutOffset children).map
        fun pair => (pair.shadowNode.getOrderIndex, pair.tree) := by
  have node : ∀ child : ShadowNode D, ∀ layoutOffset : Point, viewsOfNode layoutOffset child =
      (sliceShadowNode layoutOffset child).map
        fun pair => (pair.shadowNode.getOrderIndex, pair.tree) := by
    refine Tree.induction ?_
    rintro ⟨_, below⟩ ih layoutOffset
    have inside : ∀ offset, viewsOfNodes offset below = (sliceShadowNodes offset below).map
        fun pair => (pair.shadowNode.getOrderIndex, pair.tree) := by
      intro offset
      induction below with
      | nil => rfl
      | cons first rest tail =>
        simp only [viewsOfNodes, sliceShadowNodes, List.map_append]
        rw [ih first (by simp), tail fun child member => ih child (by simp [member])]
    simp only [viewsOfNode, sliceShadowNode]
    split
    next stacking =>
      simp [ShadowViewNodePair.tree, viewForest, getOrderIndex, getTraits, getChildren, stacking]
    next flat =>
      rw [List.map_append, ← inside]
      split
      next formsView =>
        simp [ShadowViewNodePair.tree, viewForest, getOrderIndex, getTraits, flat, formsView]
      next => rfl
  intro layoutOffset
  induction children with
  | nil => rfl
  | cons first rest ih =>
    simp only [viewsOfNodes, sliceShadowNodes, List.map_append, ih, node]

theorem viewForest_eq : viewForest shadowNode =
      (reorderInPlaceIfNeeded (sliceChildShadowNodeViewPairs shadowNode)).map
        ShadowViewNodePair.tree := by
  unfold viewForest sliceChildShadowNodeViewPairs
  split
  · rfl
  · rw [viewsOfNodes_eq, sliceChildShadowNodeViewPairsRecursively, reorderInPlaceIfNeeded,
      ← reorderBy_map (fun pair : ShadowViewNodePair D => pair.shadowNode.getOrderIndex) Prod.fst _
        fun _ => rfl, List.map_map]
    rfl

/-! ### Which views there are -/

@[simp] theorem slicedShadowView_tag (layoutOffset : Point) (shadowNode : ShadowNode D) :
    (slicedShadowView layoutOffset shadowNode).tag = shadowNode.getTag := by
  simp only [slicedShadowView, apply_ite ShadowView.tag, ite_self]
  rfl

theorem viewsOfNodes_keys : ∀ layoutOffset : Point,
      (keys ShadowView.tag ((viewsOfNodes layoutOffset children).map Prod.snd)).Perm
        (((forestNodes children).filter formsAnyView).map getTag) := by
  have node : ∀ child : ShadowNode D, ∀ layoutOffset : Point,
      (keys ShadowView.tag ((viewsOfNode layoutOffset child).map Prod.snd)).Perm
        ((child.nodes.filter formsAnyView).map getTag) := by
    refine Tree.induction ?_
    rintro ⟨fields, below⟩ ih layoutOffset
    have inside : ∀ offset, (keys ShadowView.tag ((viewsOfNodes offset below).map Prod.snd)).Perm
        (((forestNodes below).filter formsAnyView).map getTag) := by
      intro offset
      induction below with
      | nil => exact .refl _
      | cons first rest tail =>
        simp only [viewsOfNodes, forestNodes, List.map_append, List.filter_append, keys_append]
        exact (ih first (by simp) offset).append (tail fun child member => ih child (by simp [member]))
    have viewTag := slicedShadowView_tag layoutOffset ⟨fields, below⟩
    simp only [viewsOfNode, Tree.nodes]
    split
    next stacking =>
      -- Sorting the layer below does not change which views it has.
      have sorted : (keys ShadowView.tag _).Perm _ :=
        keys_perm ((reorderBy_perm Prod.fst (viewsOfNodes {} below)).map Prod.snd)
      simp only [List.map_cons, List.map_nil, keys_cons, keys_nil, List.append_nil, viewTag]
      rw [List.filter_cons_of_pos (by simp [formsAnyView, getTraits, stacking]), List.map_cons]
      exact (sorted.trans (inside {})).cons _
    next flat =>
      split
      next formsView =>
        rw [List.filter_cons_of_pos
          (by simp [formsAnyView, getTraits, formsView]), List.map_cons]
        simp only [List.cons_append, List.nil_append, List.map_cons, keys_cons, keys_nil, viewTag]
        exact (inside _).cons _
      next plain =>
        rw [List.filter_cons_of_neg
          (by simp [formsAnyView, getTraits, flat, plain])]
        exact inside _
  intro layoutOffset
  induction children with
  | nil => exact .refl _
  | cons first rest ih =>
    simp only [viewsOfNodes, forestNodes, List.map_append, List.filter_append, keys_append]
    exact (node first layoutOffset).append ih

variable {shadowNode : ShadowNode D}

theorem viewForest_keys
    (keeps : shadowNode.getTraits.formsStackingContext ∨ ¬ shadowNode.getTraits.formsView) :
    (keys ShadowView.tag (viewForest shadowNode)).Perm
      (((forestNodes shadowNode.getChildren).filter formsAnyView).map
        getTag) := by
  have applies : ¬ ((!shadowNode.getTraits.formsStackingContext &&
      shadowNode.getTraits.formsView) = true) := by
    rcases keeps with stacking | plain
    · simp [stacking]
    · simp [plain]
  rw [viewForest, if_neg applies]
  exact (keys_perm ((reorderBy_perm _ _).map _)).trans (viewsOfNodes_keys _ _)

theorem viewForest_keys_subset {tag : Tag}
    (member : tag ∈ keys ShadowView.tag (viewForest shadowNode)) :
    ∃ node ∈ forestNodes shadowNode.getChildren, formsAnyView node ∧ getTag node = tag := by
  by_cases keeps : shadowNode.getTraits.formsStackingContext ∨ ¬ shadowNode.getTraits.formsView
  · obtain ⟨node, found, rfl⟩ := List.mem_map.mp ((viewForest_keys keeps).mem_iff.mp member)
    obtain ⟨inside, forms⟩ := List.mem_filter.mp found
    exact ⟨node, inside, forms, rfl⟩
  · simp only [not_or, not_not] at keeps
    simp [viewForest, keeps] at member

theorem mem_sliceShadowNodes {children : List (ShadowNode D)} {layoutOffset : Point}
    {pair : ShadowViewNodePair D} (member : pair ∈ sliceShadowNodes layoutOffset children) :
    pair.shadowNode ∈ forestNodes children ∧ formsAnyView pair.shadowNode ∧
      pair.shadowView.tag = getTag pair.shadowNode := by
  -- First the lists, given what holds of each of their nodes.
  have nodes : ∀ children : List (ShadowNode D),
      (∀ child ∈ children, ∀ offset, ∀ pair ∈ sliceShadowNode offset child,
        pair.shadowNode ∈ Tree.nodes child ∧ formsAnyView pair.shadowNode ∧
          pair.shadowView.tag = getTag pair.shadowNode) →
      ∀ offset, ∀ pair ∈ sliceShadowNodes offset children,
        pair.shadowNode ∈ forestNodes children ∧ formsAnyView pair.shadowNode ∧
          pair.shadowView.tag = getTag pair.shadowNode := by
    intro children each offset
    induction children with
    | nil => simp [sliceShadowNodes]
    | cons first _ ih =>
      intro pair member
      rcases List.mem_append.mp member with here | later
      · obtain ⟨inside, facts⟩ := each first (by simp) offset pair here
        exact ⟨List.mem_append_left _ inside, facts⟩
      · obtain ⟨inside, facts⟩ :=
          ih (fun child childMem => each child (by simp [childMem])) pair later
        exact ⟨List.mem_append_right _ inside, facts⟩
  -- Then each node, by induction over the tree.
  have node : ∀ child : ShadowNode D, ∀ offset, ∀ pair ∈ sliceShadowNode offset child,
      pair.shadowNode ∈ Tree.nodes child ∧ formsAnyView pair.shadowNode ∧
        pair.shadowView.tag = getTag pair.shadowNode := by
    refine Tree.induction ?_
    rintro ⟨_, below⟩ ih offset pair member
    simp only [sliceShadowNode] at member
    split at member
    next stacking =>
      rw [List.mem_singleton.mp member]
      exact ⟨self_mem_nodes _, by simp [formsAnyView, getTraits, stacking],
        slicedShadowView_tag _ _⟩
    next =>
      rcases List.mem_append.mp member with here | later
      · split at here
        next formsView =>
          rw [List.mem_singleton.mp here]
          exact ⟨self_mem_nodes _,
            by simp [formsAnyView, getTraits, formsView],
            slicedShadowView_tag _ _⟩
        next => simp at here
      · obtain ⟨inside, facts⟩ := nodes below ih _ pair later
        exact ⟨mem_nodes.mpr (.inr inside), facts⟩
  exact nodes children (fun child _ => node child) layoutOffset pair member

theorem viewForest_node {tree : KeyedTree.Tree (ShadowView D)}
    (member : tree ∈ forestNodes (viewForest shadowNode)) :
    ∃ node ∈ forestNodes shadowNode.getChildren, formsAnyView node ∧
      tree.label.tag = getTag node ∧ tree.children = viewForest node := by
  have root : ∀ shadowNode : ShadowNode D, ∀ top ∈ viewForest shadowNode,
      ∃ node ∈ forestNodes shadowNode.getChildren, formsAnyView node ∧
        top.label.tag = getTag node ∧ top.children = viewForest node := by
    intro shadowNode top topMem
    rw [viewForest_eq] at topMem
    obtain ⟨pair, pairMem, rfl⟩ := List.mem_map.mp topMem
    have sliced := (reorderBy_perm _ _).mem_iff.mp pairMem
    unfold sliceChildShadowNodeViewPairs at sliced
    split at sliced
    · simp at sliced
    · obtain ⟨inside, forms, tag⟩ := mem_sliceShadowNodes sliced
      exact ⟨pair.shadowNode, inside, forms, tag, rfl⟩
  have below : ∀ top : KeyedTree.Tree (ShadowView D), ∀ shadowNode : ShadowNode D,
      top ∈ viewForest shadowNode → ∀ tree ∈ top.nodes,
        ∃ node ∈ forestNodes shadowNode.getChildren, formsAnyView node ∧
          tree.label.tag = getTag node ∧ tree.children = viewForest node := by
    refine Tree.induction ?_
    intro top ih shadowNode topMem tree treeMem
    rcases mem_nodes.mp treeMem with rfl | deeper
    · exact root shadowNode tree topMem
    · obtain ⟨node, nodeMem, -, -, children⟩ := root shadowNode top topMem
      obtain ⟨child, childMem, inChild⟩ := mem_forestNodes.mp deeper
      obtain ⟨inner, innerMem, facts⟩ := ih child childMem node (children ▸ childMem) tree inChild
      exact ⟨inner, forestNodes_trans nodeMem innerMem, facts⟩
  obtain ⟨top, topMem, treeMem⟩ := mem_forestNodes.mp member
  exact below top shadowNode topMem tree treeMem

theorem viewForest_height (shadowNode : ShadowNode D) :
    forestHeight (viewForest shadowNode) < shadowNode.height := by
  -- As above: first the lists of a slice, then each node.
  have nodes : ∀ children : List (ShadowNode D),
      (∀ child ∈ children, ∀ offset, ∀ view ∈ viewsOfNode offset child,
        view.2.height ≤ child.height) →
      ∀ offset, ∀ view ∈ viewsOfNodes offset children, view.2.height ≤ forestHeight children := by
    intro children each offset
    induction children with
    | nil => simp [viewsOfNodes]
    | cons first _ ih =>
      intro view member
      rcases List.mem_append.mp member with here | later
      · exact (each first (by simp) offset view here).trans (Nat.le_max_left _ _)
      · exact (ih (fun child childMem => each child (by simp [childMem])) view later).trans
          (Nat.le_max_right _ _)
  have node : ∀ child : ShadowNode D, ∀ offset, ∀ view ∈ viewsOfNode offset child,
      view.2.height ≤ child.height := by
    refine Tree.induction ?_
    rintro ⟨_, below⟩ ih offset view member
    simp only [viewsOfNode] at member
    split at member
    · rw [List.mem_singleton] at member
      subst member
      refine Nat.succ_le_succ (forestHeight_le_iff.mpr ?_)
      intro tree layered
      obtain ⟨inner, innerMem, rfl⟩ := List.mem_map.mp layered
      exact nodes below ih _ inner ((reorderBy_perm _ _).mem_iff.mp innerMem)
    · rcases List.mem_append.mp member with here | later
      · split at here
        · rw [List.mem_singleton] at here
          subst here
          simp [KeyedTree.Tree.height, forestHeight]
        · simp at here
      · exact (nodes below ih _ view later).trans (Nat.le_succ _)
  -- The views of the root are the children of its own, one level below.
  rw [height_eq, Nat.lt_succ_iff, forestHeight_le_iff]
  intro tree member
  unfold viewForest at member
  split at member
  · simp at member
  · obtain ⟨view, viewMem, rfl⟩ := List.mem_map.mp member
    exact nodes _ (fun child _ => node child) _ view ((reorderBy_perm _ _).mem_iff.mp viewMem)

end ReactNative

