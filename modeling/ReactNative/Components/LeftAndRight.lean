import Mathlib.Data.Rat.Defs
import ReactNative.Foundation.KeyedTree

/-! Before a layout, the values for the left and right edges become values for the start and the
end, in the Yoga nodes and in the props of a tree. A value that is not set is `none`. Props are
objects that nodes may share. -/
namespace ReactNative

open KeyedTree List Function

inductive YGEdge where
  | left | top | right | bottom | start | end | horizontal | vertical | all
  deriving DecidableEq

inductive Corner where
  | topLeft | topRight | bottomLeft | bottomRight | topStart | topEnd | bottomStart | bottomEnd | all
  deriving DecidableEq

/-- A value that is not `YGValueUndefined`. -/
inductive YGValue where
  | auto
  | point (value : ℚ)
  | percent (value : ℚ)
  deriving DecidableEq

abbrev YogaEdges := YGEdge → Option YGValue

/-- The groups of edges of a style. -/
structure YGStyle where
  position : YogaEdges := fun _ => none
  padding : YogaEdges := fun _ => none
  margin : YogaEdges := fun _ => none
  border : YogaEdges := fun _ => none

inductive BorderStyle where
  | solid
  | dotted
  | dashed

/-- The props that the swapping changes. A color is a pointer. -/
structure BorderProps where
  borderRadii : Corner → Option ℚ := fun _ => none
  borderColors : YGEdge → Option ℕ := fun _ => none
  borderStyles : YGEdge → Option BorderStyle := fun _ => none
  yogaStyle : YGStyle := {}

/-- A shadow node with its Yoga node, which has an address and an owner. -/
structure StyledNode where
  yogaNode : ℕ
  owner : Option ℕ := none
  yogaLayoutableKind : Bool := true
  style : YGStyle := {}
  props : ℕ := 0

abbrev PropsHeap := ℕ → BorderProps

abbrev StyledTree := KeyedTree.Tree StyledNode

namespace LeftAndRight

section Values

variable {I T : Type} [DecidableEq I]

/-- A value at the side goes to the other place, over what is there. -/
def moveSide (values : I → Option T) (side place : I) : I → Option T :=
  if (values side).isSome then
    Function.update (Function.update values place (values side)) side none
  else values

/-- As `moveSide` for the right edge, but it is the left one that is cleared. -/
def moveRightClearingLeft (margin : YGEdge → Option T) : YGEdge → Option T :=
  if (margin .right).isSome then
    Function.update (Function.update margin .end (margin .right)) .left none
  else margin

def moveCorners (borderRadii : Corner → Option T) : Corner → Option T :=
  moveSide (moveSide (moveSide (moveSide borderRadii .topLeft .topStart) .bottomLeft .bottomStart)
    .topRight .topEnd) .bottomRight .bottomEnd

end Values

def swapLeftAndRightInYogaStyleProps (yogaStyle : YGStyle) : YGStyle :=
  { yogaStyle with
    position := moveSide (moveSide yogaStyle.position .left .start) .right .end
    padding := moveSide (moveSide yogaStyle.padding .left .start) .right .end
    margin := moveRightClearingLeft (moveSide yogaStyle.margin .left .start) }

def swapLeftAndRightInViewProps (props : BorderProps) : BorderProps where
  borderRadii := moveCorners props.borderRadii
  borderColors := moveSide (moveSide props.borderColors .left .start) .right .end
  borderStyles := moveSide (moveSide props.borderStyles .left .start) .right .end
  yogaStyle := { props.yogaStyle with
    border := moveSide (moveSide props.yogaStyle.border .left .start) .right .end }

def doesOwn (node child : StyledNode) : Bool := child.owner = some node.yogaNode

def goesInto (shadowNode child : StyledNode) : Bool :=
  child.yogaLayoutableKind && !doesOwn child shadowNode

mutual
def swapLeftAndRightInTree : StyledTree → PropsHeap → StyledTree × PropsHeap
  | ⟨shadowNode, children⟩, props =>
    let swapped := { shadowNode with style := swapLeftAndRightInYogaStyleProps shadowNode.style }
    let swappedProps := Function.update props shadowNode.props
      (swapLeftAndRightInViewProps (props shadowNode.props))
    let below := swapChildren shadowNode children swappedProps
    (⟨swapped, below.1⟩, below.2)

def swapChildren (shadowNode : StyledNode) :
    List StyledTree → PropsHeap → List StyledTree × PropsHeap
  | [], props => ([], props)
  | child :: rest, props =>
    let first := if goesInto shadowNode child.label then swapLeftAndRightInTree child props
      else (child, props)
    let others := swapChildren shadowNode rest first.2
    (first.1 :: others.1, others.2)
end

/-! ### What the swapping is for -/

/-- The sides are empty, and the start and the end have their values if there were any. -/
def sidesMoved {T : Type} (values : YGEdge → Option T) : YGEdge → Option T
  | .left => none
  | .right => none
  | .start => (values .left).or (values .start)
  | .end => (values .right).or (values .end)
  | edge => values edge

variable (style : YGStyle)

/-- All four groups have their sides at the start and the end. -/
def allSidesMoved : YGStyle where
  position := sidesMoved style.position
  padding := sidesMoved style.padding
  margin := sidesMoved style.margin
  border := sidesMoved style.border

/-- A node as the swapping should leave it. -/
def swappedNode (node : StyledNode) : StyledNode := { node with style := allSidesMoved node.style }

/-- All left and right values of the tree move, and then the swapping has nothing left to do. -/
def SwapsSides (tree : StyledTree) (props : PropsHeap) : Prop :=
  let swapped := swapLeftAndRightInTree tree props
  swapped.1 = tree.map swappedNode ∧ swapLeftAndRightInTree swapped.1 swapped.2 = swapped

/-- No side is set in the groups. -/
def NoSides (edges : YogaEdges) : Prop := edges .left = none ∧ edges .right = none

/-- The values that the walk does not move are not set. -/
def LosesNothing : Prop := style.margin .right = none ∧ NoSides style.border

def NothingToMove : Prop :=
  NoSides style.position ∧ NoSides style.padding ∧ NoSides style.margin ∧ NoSides style.border

mutual
/-- No right margin and no border is set at the nodes that the walk comes to, and no sides at all
are at the others. -/
def SidesMovable : StyledTree → Prop
  | ⟨shadowNode, children⟩ => LosesNothing shadowNode.style ∧ ChildrenMovable shadowNode children

def ChildrenMovable (shadowNode : StyledNode) : List StyledTree → Prop
  | [] => True
  | child :: rest =>
    (if goesInto shadowNode child.label then SidesMovable child
      else ∀ node ∈ child.nodes, NothingToMove node.label.style) ∧ ChildrenMovable shadowNode rest
end

mutual
def walked : StyledTree → List StyledNode
  | ⟨shadowNode, children⟩ => shadowNode :: walkedChildren shadowNode children

def walkedChildren (shadowNode : StyledNode) : List StyledTree → List StyledNode
  | [] => []
  | child :: rest => (if goesInto shadowNode child.label then walked child else []) ++
      walkedChildren shadowNode rest
end

section Edges

variable {I T : Type} [DecidableEq I] {values : YGEdge → Option T}

theorem moveSide_none {values : I → Option T} {side : I} (place : I) (unset : values side = none) :
    moveSide values side place = values := by
  rw [moveSide, unset]
  rfl

theorem moveSide_cleared (values : I → Option T) (side place : I) :
    moveSide values side place side = none := by
  rw [moveSide]
  split
  next => rw [update_self]
  next unset => simpa using unset

theorem moveSide_other {values : I → Option T} {side place other : I} (sides : other ≠ side)
    (places : other ≠ place) : moveSide values side place other = values other := by
  rw [moveSide]
  split
  next => rw [update_of_ne sides, update_of_ne places]
  next => rfl

theorem moveSide_sides (values : YGEdge → Option T) :
    moveSide (moveSide values .left .start) .right .end = sidesMoved values := by
  funext edge
  cases hasLeft : values .left <;> cases hasRight : values .right <;> cases edge <;>
    simp [sidesMoved, moveSide, hasLeft, hasRight]

theorem moveRightClearingLeft_iff (values : YGEdge → Option T) :
    moveRightClearingLeft (moveSide values .left .start) = sidesMoved values ↔
      values .right = none := by
  constructor
  · intro moved
    have right := congrFun moved .right
    cases hasRight : values .right with
    | none => rfl
    | some =>
      cases hasLeft : values .left <;>
        simp [sidesMoved, moveRightClearingLeft, moveSide, hasLeft, hasRight] at right
  · intro hasRight
    rw [← moveSide_sides]
    cases hasLeft : values .left <;>
      simp [moveRightClearingLeft, moveSide, hasLeft, hasRight]

theorem sidesMoved_eq_self_iff : sidesMoved values = values ↔
    values .left = none ∧ values .right = none := by
  constructor
  · intro same
    exact ⟨(congrFun same .left).symm, (congrFun same .right).symm⟩
  · rintro ⟨hasLeft, hasRight⟩
    funext edge
    cases edge <;> simp [sidesMoved, hasLeft, hasRight]

theorem sidesMoved_idem : sidesMoved (sidesMoved values) = sidesMoved values :=
  sidesMoved_eq_self_iff.mpr ⟨rfl, rfl⟩

theorem moveRightClearingLeft_idem (values : YGEdge → Option T) : moveRightClearingLeft (moveSide
        (moveRightClearingLeft (moveSide values .left .start)) .left .start) =
      moveRightClearingLeft (moveSide values .left .start) := by
  funext edge
  cases hasLeft : values .left <;> cases hasRight : values .right <;> cases edge <;>
    simp [moveRightClearingLeft, moveSide, hasLeft, hasRight]

end Edges

section Node

variable {style : YGStyle}

theorem swapLeftAndRightInYogaStyleProps_eq_iff :
    swapLeftAndRightInYogaStyleProps style = allSidesMoved style ↔ LosesNothing style := by
  simp only [swapLeftAndRightInYogaStyleProps, allSidesMoved, YGStyle.mk.injEq, moveSide_sides,
    moveRightClearingLeft_iff, true_and, LosesNothing, NoSides]
  rw [@eq_comm _ style.border, sidesMoved_eq_self_iff]

theorem allSidesMoved_eq_self_iff : allSidesMoved style = style ↔ NothingToMove style := by
  obtain ⟨-, -, -, -⟩ := style
  simp only [allSidesMoved, YGStyle.mk.injEq, sidesMoved_eq_self_iff, NothingToMove, NoSides]

theorem swapLeftAndRightInYogaStyleProps_idem :
    swapLeftAndRightInYogaStyleProps (swapLeftAndRightInYogaStyleProps style) =
      swapLeftAndRightInYogaStyleProps style := by
  simp only [swapLeftAndRightInYogaStyleProps, moveSide_sides, sidesMoved_idem,
    moveRightClearingLeft_idem]

theorem moveCorners_idem {T : Type} (corners : Corner → Option T) :
    moveCorners (moveCorners corners) = moveCorners corners := by
  have topLeft : moveCorners corners .topLeft = none := by
    rw [moveCorners, moveSide_other (by decide) (by decide), moveSide_other (by decide) (by decide),
      moveSide_other (by decide) (by decide), moveSide_cleared]
  have bottomLeft : moveCorners corners .bottomLeft = none := by
    rw [moveCorners, moveSide_other (by decide) (by decide), moveSide_other (by decide) (by decide),
      moveSide_cleared]
  have topRight : moveCorners corners .topRight = none := by
    rw [moveCorners, moveSide_other (by decide) (by decide), moveSide_cleared]
  have bottomRight : moveCorners corners .bottomRight = none := moveSide_cleared _ _ _
  rw [moveCorners, moveSide_none _ topLeft, moveSide_none _ bottomLeft, moveSide_none _ topRight,
    moveSide_none _ bottomRight]

theorem swapLeftAndRightInViewProps_idem (props : BorderProps) :
    swapLeftAndRightInViewProps (swapLeftAndRightInViewProps props) =
      swapLeftAndRightInViewProps props := by
  simp only [swapLeftAndRightInViewProps, moveSide_sides, sidesMoved_idem, moveCorners_idem]

end Node

section Walk

variable {tree : StyledTree} {shadowNode : StyledNode} {children : List StyledTree}

def restyled (node : StyledNode) : StyledNode :=
  { node with style := swapLeftAndRightInYogaStyleProps node.style }

theorem goesInto_label (child : StyledTree) (props : PropsHeap) :
    goesInto (restyled shadowNode) (swapLeftAndRightInTree child props).1.label =
      goesInto shadowNode child.label := by
  cases child
  rfl

theorem goesInto_restyled (child : StyledNode) :
    goesInto (restyled shadowNode) child = goesInto shadowNode child := rfl

theorem swapLeftAndRightInTree_props (tree : StyledTree) (props : PropsHeap) (address : ℕ) :
    (swapLeftAndRightInTree tree props).2 address =
      if address ∈ (walked tree).map StyledNode.props then
        swapLeftAndRightInViewProps (props address) else props address := by
  revert tree props
  refine @Tree.induction_children _ _
    (fun shadowNode children => ∀ props, (swapChildren shadowNode children props).2 address =
      if address ∈ (walkedChildren shadowNode children).map StyledNode.props then
        swapLeftAndRightInViewProps (props address) else props address)
    ?node ?nil ?cons
  case node =>
    intro shadowNode children below props
    rw [swapLeftAndRightInTree, walked]
    simp only [below, map_cons, mem_cons]
    by_cases here : address = shadowNode.props
    · -- nodes below may share the props of this one, and change them no further
      subst here
      rw [update_self]
      simp only [true_or, if_true]
      split_ifs <;> simp only [swapLeftAndRightInViewProps_idem]
    · simp [here]
  case nil => simp [swapChildren, walkedChildren]
  case cons =>
    intro shadowNode child rest first others props
    rw [swapChildren, walkedChildren]
    split
    next =>
      simp only [others, first, map_append, mem_append]
      by_cases inFirst : address ∈ (walked child).map StyledNode.props <;>
        by_cases inRest : address ∈ (walkedChildren shadowNode rest).map StyledNode.props <;>
        simp only [inFirst, inRest, if_true, if_false, or_true, or_false,
          swapLeftAndRightInViewProps_idem]
    next => simpa using others props

theorem walked_swapLeftAndRightInTree (tree : StyledTree) (props : PropsHeap) :
    walked (swapLeftAndRightInTree tree props).1 = (walked tree).map restyled := by
  revert tree props
  refine @Tree.induction_children _ _
    (fun shadowNode children => ∀ props : PropsHeap, walkedChildren (restyled shadowNode)
      (swapChildren shadowNode children props).1 =
        (walkedChildren shadowNode children).map restyled)
    ?node ?nil ?cons
  case node =>
    intro shadowNode children below props
    rw [swapLeftAndRightInTree, walked, walked, map_cons, ← restyled, below]
  case nil => simp [swapChildren, walkedChildren]
  case cons =>
    intro shadowNode child rest first others props
    rw [swapChildren, walkedChildren, walkedChildren, map_append, others]
    split
    next goes => rw [goesInto_label, if_pos goes, first]
    next stays => rw [goesInto_restyled, if_neg stays, map_nil]

theorem swapLeftAndRightInTree_fixed (tree : StyledTree) (props : PropsHeap)
    (fixed : ∀ node ∈ walked tree, restyled node = node) :
    (swapLeftAndRightInTree tree props).1 = tree := by
  revert tree props fixed
  refine @Tree.induction_children _ _
    (fun shadowNode children => ∀ props : PropsHeap,
      (∀ node ∈ walkedChildren shadowNode children, restyled node = node) →
        (swapChildren shadowNode children props).1 = children)
    ?node ?nil ?cons
  case node =>
    intro shadowNode children below props fixed
    rw [walked, forall_mem_cons] at fixed
    rw [swapLeftAndRightInTree]
    rw [below _ fixed.2, ← restyled, fixed.1]
  case nil => simp [swapChildren]
  case cons =>
    intro shadowNode child rest first others props fixed
    rw [walkedChildren, forall_mem_append] at fixed
    rw [swapChildren]
    rw [others _ fixed.2]
    split
    next goes =>
      rw [if_pos goes] at fixed
      rw [first props fixed.1]
    next => rfl

theorem restyled_idem (node : StyledNode) : restyled (restyled node) = restyled node := by
  simp only [restyled, swapLeftAndRightInYogaStyleProps_idem]

theorem swapLeftAndRightInTree_idem (tree : StyledTree) (props : PropsHeap) :
    let swapped := swapLeftAndRightInTree tree props
    swapLeftAndRightInTree swapped.1 swapped.2 = swapped := by
  intro swapped
  refine Prod.ext ?_ (funext fun address => ?_)
  · apply swapLeftAndRightInTree_fixed
    intro node member
    rw [walked_swapLeftAndRightInTree] at member
    obtain ⟨source, -, rfl⟩ := mem_map.mp member
    exact restyled_idem source
  · have sameProps : StyledNode.props ∘ restyled = StyledNode.props := rfl
    rw [swapLeftAndRightInTree_props, walked_swapLeftAndRightInTree, List.map_map, sameProps]
    simp only [swapped, swapLeftAndRightInTree_props]
    split_ifs <;> simp only [swapLeftAndRightInViewProps_idem]

end Walk

/-! ### The whole tree -/

theorem map_swappedNode_eq_self_iff (tree : StyledTree) :
    tree.map swappedNode = tree ↔ ∀ node ∈ tree.nodes, NothingToMove node.label.style := by
  revert tree
  refine @Tree.induction_children _ _
    (fun _ children => children.map (KeyedTree.Tree.map swappedNode) = children ↔
      ∀ node ∈ forestNodes children, NothingToMove node.label.style)
    ?node ?nil ?cons
  case node =>
    intro shadowNode children below
    have label : swappedNode shadowNode = shadowNode ↔ NothingToMove shadowNode.style := by
      obtain ⟨-, -, -, style, -⟩ := shadowNode
      simp only [swappedNode, StyledNode.mk.injEq, allSidesMoved_eq_self_iff, true_and, and_true]
    rw [Tree.map_eq, Tree.mk.injEq, label, below, Tree.nodes, forall_mem_cons]
  case nil => simp
  case cons =>
    intro _ child rest first others
    rw [map_cons, List.cons.injEq, first, others, forestNodes, forall_mem_append]

theorem swapLeftAndRightInTree_eq_map_iff (tree : StyledTree) (props : PropsHeap) :
    (swapLeftAndRightInTree tree props).1 = tree.map swappedNode ↔ SidesMovable tree := by
  revert tree props
  refine @Tree.induction_children _ _
    (fun shadowNode children => ∀ props : PropsHeap, (swapChildren shadowNode children props).1 =
      children.map (KeyedTree.Tree.map swappedNode) ↔ ChildrenMovable shadowNode children)
    ?node ?nil ?cons
  case node =>
    intro shadowNode children below props
    have label : restyled shadowNode = swappedNode shadowNode ↔ LosesNothing shadowNode.style := by
      simp only [restyled, swappedNode, StyledNode.mk.injEq, true_and, and_true,
        swapLeftAndRightInYogaStyleProps_eq_iff]
    rw [swapLeftAndRightInTree, SidesMovable, Tree.map_eq, Tree.mk.injEq, ← restyled, label, below]
  case nil => simp [swapChildren, ChildrenMovable]
  case cons =>
    intro shadowNode child rest first others props
    rw [swapChildren, ChildrenMovable, map_cons, List.cons.injEq, others]
    split
    next => rw [first]
    -- a node that the walk leaves out stays as it is, with all below it
    next => rw [eq_comm, map_swappedNode_eq_self_iff]

/-- All left and right values of a tree move exactly if no right margin and no border is set at the
nodes that the walk comes to. -/
theorem swapsSides_iff (tree : StyledTree) (props : PropsHeap) :
    SwapsSides tree props ↔ SidesMovable tree := by
  rw [SwapsSides, and_iff_left (swapLeftAndRightInTree_idem tree props)]
  exact swapLeftAndRightInTree_eq_map_iff tree props

def rightMargin : StyledTree :=
  ⟨{ yogaNode := 1, style := { margin := Function.update (fun _ => none) .right (some .auto) } }, []⟩

theorem rightMargin_not_swapped : ¬SwapsSides rightMargin fun _ => {} := by
  rintro ⟨swapped, -⟩
  have right := congrArg (fun tree : StyledTree => tree.label.style.margin .right) swapped
  exact absurd right (by decide)

end LeftAndRight

end ReactNative


