import ReactNative.UIManager.NativeViewHierarchyManager

/-! The fields of all nodes are maps from their tags; a tag that has not been used has the fields of
a new node. -/
namespace ReactNative

inductive NativeKind where
  | parent
  | leaf
  | none
  deriving DecidableEq

/-- What the class of a node decides. Nodes of plain views, which may be layout-only, do not
hoist their children. -/
structure ShadowNodeClass where
  isVirtual : Bool := false
  isYogaLeafNode : Bool := false
  hoistNativeChildren : Bool := false
  isView : Bool := false
  hosts_of_view : isView = true → hoistNativeChildren = false := by decide

structure ShadowTree where
  nodeClass : Tag → ShadowNodeClass := fun _ => {}
  isLayoutOnly : Tag → Bool := fun _ => false
  children : Tag → List Tag := fun _ => []
  parent : Tag → Option Tag := fun _ => none
  totalNativeChildren : Tag → ℤ := fun _ => 0
  /-- The tags in the registry, and all tags that have ever been there. -/
  registry : Finset Tag := ∅
  tags : Finset Tag := ∅

namespace ShadowTree

variable (shadow : ShadowTree)

def depth : ℕ := shadow.tags.card + 1

variable (node : Tag)

def getNativeKind : NativeKind :=
  if (shadow.nodeClass node).isVirtual || shadow.isLayoutOnly node then .none
  else if (shadow.nodeClass node).hoistNativeChildren then .leaf
  else .parent

def getTotalNativeNodeContributionToParent : ℤ :=
  match shadow.getNativeKind node with
  | .none => shadow.totalNativeChildren node
  | .leaf => 1 + shadow.totalNativeChildren node
  | .parent => 1

def addToTotal (delta : ℤ) : ShadowTree :=
  { shadow with
    totalNativeChildren := Function.update shadow.totalNativeChildren node
      (shadow.totalNativeChildren node + delta) }

/-- The loop up to the next node that hosts native children. -/
def addToTotalsAbove (delta : ℤ) : ℕ → Option Tag → ShadowTree → Option ShadowTree
  | _, none, shadow => some shadow
  | 0, some _, _ => none
  | fuel + 1, some parent, shadow =>
    let counted := shadow.addToTotal parent delta
    if shadow.getNativeKind parent = .parent then some counted
    else addToTotalsAbove delta fuel (shadow.parent parent) counted

def updateNativeChildrenCountInParent (delta : ℤ) : Option ShadowTree :=
  if shadow.getNativeKind node = .parent then some shadow
  else addToTotalsAbove delta shadow.depth (shadow.parent node) shadow

/-- A node counts a child in or out, and so do the nodes above. -/
def countChild (delta : ℤ) : Option ShadowTree :=
  (shadow.addToTotal node delta).updateNativeChildrenCountInParent node delta

/-- Virtual nodes have no Yoga node, and leaves of Yoga lay their children out themselves. -/
def managesYogaChildren : Bool :=
  !(shadow.nodeClass node).isVirtual && !(shadow.nodeClass node).isYogaLeafNode

/-- The child in the lists of the shadow tree; what Yoga refuses is not added. -/
def addChildAt (node child : Tag) (index : ℕ) : Option ShadowTree :=
  if (shadow.children node).length < index then none
  else
    let added :=
      { shadow with
        children := Function.update shadow.children node
          ((shadow.children node).insertIdx index child)
        parent := Function.update shadow.parent child (some node) }
    added.countChild node (added.getTotalNativeNodeContributionToParent child)

def removeChildAt (index : ℕ) : Option ShadowTree :=
  match (shadow.children node)[index]? with
  | none => none
  | some removed =>
    let taken :=
      { shadow with
        children := Function.update shadow.children node ((shadow.children node).eraseIdx index)
        parent := Function.update shadow.parent removed none }
    taken.countChild node (-taken.getTotalNativeNodeContributionToParent removed)

/-- The number of native nodes before those of a child; an exception if it is no child. -/
def getNativeOffsetForChild (node child : Tag) : Option ℤ :=
  if child ∈ shadow.children node then
    some (((shadow.children node).takeWhile fun current => current ≠ child).map
      shadow.getTotalNativeNodeContributionToParent).sum
  else none

def addNode (nodeClass : ShadowNodeClass) : ShadowTree :=
  { shadow with
    nodeClass := Function.update shadow.nodeClass node nodeClass
    registry := insert node shadow.registry
    tags := insert node shadow.tags }

def subtree (shadow : ShadowTree) : ℕ → Tag → List Tag
  | 0, _ => []
  | fuel + 1, node => node :: (shadow.children node).flatMap (shadow.subtree fuel)

/-- The node and all nodes below it leave the registry. -/
def removeShadowNode : ShadowTree :=
  { shadow with registry := shadow.registry \ (shadow.subtree shadow.depth node).toFinset }

end ShadowTree

end ReactNative

