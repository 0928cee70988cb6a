import ReactNative.Foundation.KeyedTree
import Mathlib.Algebra.Order.Ring.Rat

/-! The immutable part of the shadow tree. Objects held through a `shared_ptr` carry an `address`,
so that equality of two values is equality of pointers: one address never belongs to two different
objects. -/
namespace ReactNative

open KeyedTree

/-- Address of an object whose contents the mounting layer only passes along. -/
abbrev Pointer := Nat

abbrev Tag := Int

structure Point where
  x : ℚ := 0
  y : ℚ := 0
  deriving DecidableEq

instance : Add Point := ⟨fun lhs rhs => ⟨lhs.x + rhs.x, lhs.y + rhs.y⟩⟩

structure Size where
  width : ℚ := 0
  height : ℚ := 0
  deriving DecidableEq

structure Rect where
  origin : Point := {}
  size : Size := {}
  deriving DecidableEq

structure EdgeInsets where
  left : ℚ := 0
  top : ℚ := 0
  right : ℚ := 0
  bottom : ℚ := 0
  deriving DecidableEq

inductive DisplayType where
  | none
  | flex
  | inline
  deriving DecidableEq

inductive LayoutDirection where
  | undefined
  | leftToRight
  | rightToLeft
  deriving DecidableEq

structure LayoutMetrics where
  frame : Rect := {}
  contentInsets : EdgeInsets := {}
  borderWidth : EdgeInsets := {}
  displayType : DisplayType := .flex
  layoutDirection : LayoutDirection := .undefined
  pointScaleFactor : ℚ := 1
  deriving DecidableEq

def EmptyLayoutMetrics : LayoutMetrics := { frame := { size := ⟨-1, -1⟩ } }

/-- What all revisions of a node share. -/
structure ShadowNodeFamily where
  address : Pointer
  tag : Tag
  componentName : String
  eventEmitter : Pointer
  deriving DecidableEq

structure State (D : Type) where
  address : Pointer
  data : D
  revision : Nat
  deriving DecidableEq

structure ShadowNodeTraits where
  layoutableKind : Bool := true
  yogaLayoutableKind : Bool := true
  formsStackingContext : Bool := false
  formsView : Bool := false
  rootNodeKind : Bool := false
  leafYogaNode : Bool := false
  deriving DecidableEq

structure ShadowNodeFields (D : Type) where
  address : Pointer
  family : ShadowNodeFamily
  props : Pointer
  state : Option (State D)
  orderIndex : Int
  stateRevision : Int
  traits : ShadowNodeTraits
  layoutMetrics : LayoutMetrics
  deriving DecidableEq

/-- The key of a node: families stay while nodes are cloned. -/
def familyOf {D : Type} (fields : ShadowNodeFields D) : ShadowNodeFamily := fields.family

abbrev ShadowNode (D : Type) := KeyedTree.Tree (ShadowNodeFields D)

namespace ShadowNode

variable {D : Type} (node : ShadowNode D)

def getChildren : List (ShadowNode D) := Tree.children node

def getFamily : ShadowNodeFamily := node.label.family

def getTag : Tag := node.getFamily.tag

def getComponentName : String := node.getFamily.componentName

def getEventEmitter : Pointer := node.getFamily.eventEmitter

def getProps : Pointer := node.label.props

def getState : Option (State D) := node.label.state

def getTraits : ShadowNodeTraits := node.label.traits

def getOrderIndex : Int := node.label.orderIndex

def getStateRevision : Int := node.label.stateRevision

def sameFamily (first second : ShadowNode D) : Bool := first.getFamily = second.getFamily

/-- Own revision, zero without a state, plus those of the children. -/
def computeStateRevision (state : Option (State D)) (children : List (ShadowNode D)) : Int :=
  let fragmentStateRevision : Int := match state with
    | some state => state.revision
    | none => 0
  let childrenSum := (children.map getStateRevision).sum
  fragmentStateRevision + childrenSum

/-- What a clone replaces; the placeholders of a fragment are `none`. -/
structure Fragment (D : Type) where
  props : Option Pointer := none
  children : Option (List (ShadowNode D)) := none
  state : Option (State D) := none

/-- The cloning constructor of the base class. A fragment without a state takes the most recent
state of the family. -/
def clone (source : ShadowNode D) (mostRecentState : Option (State D)) (fragment : Fragment D)
    (address : Pointer) : ShadowNode D :=
  let children := fragment.children.getD source.getChildren
  let state := match fragment.state with
    | some state => some state
    | none => mostRecentState
  ⟨{ source.label with
      address := address
      props := fragment.props.getD source.getProps
      state := state
      stateRevision := computeStateRevision state children }, children⟩

/-- Whether the node takes over the Yoga nodes of the children that it is given. -/
def takesYogaChildren : Bool :=
  node.getTraits.yogaLayoutableKind && !node.getTraits.leafYogaNode

end ShadowNode

/-- Where clones are put, and which Yoga nodes have an owner. That of a new clone has none. -/
structure YogaOwners (D : Type) where
  cloneAddress : ShadowNode D → Pointer
  hasOwner : Pointer → Bool
  clone_unowned : ∀ node, hasOwner (cloneAddress node) = false

namespace ShadowNode

variable {D : Type} (owners : YogaOwners D)

def isOwned (node : ShadowNode D) : Bool :=
  node.getTraits.yogaLayoutableKind && owners.hasOwner node.label.address

variable (mostRecentState : ShadowNodeFamily → Option (State D))

/-- The child that the list gets: a Yoga node with an owner must not be shared, and its node is
cloned and replaced. -/
def appendChildYogaNode (child : ShadowNode D) : ShadowNode D :=
  if child.isOwned owners then
    child.clone (mostRecentState child.getFamily) {} (owners.cloneAddress child)
  else child

/-- Clones a node of any class. `replaceChild` keeps the sum of the state revisions. -/
def cloneShadowNode (source : ShadowNode D) (fragment : Fragment D) : ShadowNode D :=
  source.clone (mostRecentState source.getFamily)
    { fragment with
      children :=
        if source.takesYogaChildren then
          fragment.children.map (List.map (appendChildYogaNode owners mostRecentState))
        else fragment.children }
    (owners.cloneAddress source)

theorem isOwned_cloneShadowNode (source : ShadowNode D) (fragment : Fragment D) :
    (cloneShadowNode owners mostRecentState source fragment).isOwned owners = false := by
  rw [isOwned]
  exact Bool.and_eq_false_imp.mpr fun _ => owners.clone_unowned source

/-- The children that a clone gets for a given list. -/
def givenChildren (source : ShadowNode D) (children : List (ShadowNode D)) : List (ShadowNode D) :=
  if source.takesYogaChildren then children.map (appendChildYogaNode owners mostRecentState)
  else children

theorem getChildren_cloneShadowNode (source : ShadowNode D) (children : List (ShadowNode D)) :
    (cloneShadowNode owners mostRecentState source { children := some children }).getChildren =
      givenChildren owners mostRecentState source children := by
  rw [givenChildren, cloneShadowNode]
  split <;> rfl

theorem getChildren_cloneShadowNode_of_none (source : ShadowNode D) {fragment : Fragment D}
    (placeholder : fragment.children = none) :
    (cloneShadowNode owners mostRecentState source fragment).getChildren = source.getChildren := by
  rw [cloneShadowNode, placeholder]
  split <;> rfl

end ShadowNode

def statefulNode (address : Pointer) (tag : Tag) (state : Option (State Nat))
    (children : List (ShadowNode Nat)) : ShadowNode Nat :=
  ⟨{ address
     family := ⟨tag.toNat, tag, "ScrollView", tag.toNat⟩
     props := 0
     state
     orderIndex := 0
     stateRevision := ShadowNode.computeStateRevision state children
     traits := {}
     layoutMetrics := {} }, children⟩

end ReactNative

