import ReactNative.Components.YogaTree

/-! A Yoga node holds the style that the engine lays it out with and a flag that says that its
layout is out of date. The cloning constructor copies both from the source. -/
namespace ReactNative

/-- What a shadow node and its Yoga node say about the layout. -/
structure NodeLayout (Style : Type) where
  style : Style
  yogaStyle : Style
  isDirty : Bool
  /-- Whether `yogaNode_.getDirtied()` is a function: the callback that Yoga calls when
  the node becomes dirty, which is null unless somebody sets one. -/
  dirtied : Bool

structure YogaLayout (Style : Type) where
  tree : YogaTree
  state : NodeId → NodeLayout Style

namespace YogaLayout

variable {Style : Type} [BEq Style]

def nodeCount (layout : YogaLayout Style) : Nat := layout.tree.heap.nodeCount

def isLayoutable (layout : YogaLayout Style) (node : NodeId) : Bool := layout.tree.isLayoutable node

variable (layout : YogaLayout Style) (node : NodeId)

def isLeaf : Bool := (layout.tree.yoga node).leafYogaNode

def yogaChildren : List NodeId := (layout.tree.yoga node).children

def isOwned : Bool := (layout.tree.yoga node).owner.isSome

def getChildren (layout : YogaLayout Style) (node : NodeId) : List NodeId :=
  layout.tree.getChildren node

def setDirty (isDirty : Bool) : YogaLayout Style :=
  { layout with
    state := Function.update layout.state node { layout.state node with isDirty } }

def setStyle (style : Style) : YogaLayout Style :=
  { layout with state := Function.update layout.state node { layout.state node with style } }

/-- The parts of the cloning constructor before it looks at props and children. -/
def cloneNode (layout : YogaLayout Style) (source : NodeId) (props : Option Style)
    (children : Option ListAddress) : YogaLayout Style where
  tree := layout.tree.cloneNode source children
  state := Function.update layout.state layout.nodeCount
    { layout.state source with yogaStyle := props.getD (layout.state source).yogaStyle }

/-- Resets the flag only if the Yoga part of the props was changed. -/
def updateYogaProps : YogaLayout Style :=
  let yogaStyle := (layout.state node).yogaStyle
  let layout :=
    if !(layout.state node).isDirty && yogaStyle != (layout.state node).style then
      layout.setDirty node true
    else layout
  layout.setStyle node yogaStyle

section Children

-- What the component descriptor of a node does to the layout of a new clone of it.
variable (adopt : NodeId → NodeLayout Style → NodeLayout Style)

def cloneAndReplaceChild (layout : YogaLayout Style) (node child : NodeId)
    (suggestedIndex : Int) : Option (YogaLayout Style × NodeId) := do
  let (tree, clonedChild) ← layout.tree.cloneAndReplaceChild node child suggestedIndex
  let cloned := layout.cloneNode child none none
  let state := Function.update cloned.state clonedChild (adopt child (cloned.state clonedChild))
  return ({ tree, state }, clonedChild)

variable (layout : YogaLayout Style)

/-- Fails where the code asserts that the inserted node has no owner. -/
def appendChildYogaNode (node child : NodeId) : Option (YogaLayout Style) :=
  if layout.isLeaf node then some layout
  else do
    let layout := layout.setDirty node true
    let (layout, child) ← if layout.isOwned child then
        layout.cloneAndReplaceChild adopt node child (layout.yogaChildren node).length
      else some (layout, child)
    if layout.isOwned child then none
    else
      let tree := layout.tree.setOwner child node
      return { layout with
        tree := tree.setYogaChildren node ((tree.yoga node).children ++ [child]) }

/-- The loop of `updateYogaChildren`. Of `oldChildren` it gets those from `i` on; they are
read only as long as `isClean` holds, and then `i` moves with every Yoga child. -/
def appendYogaChildren (node : NodeId) :
    List NodeId → List NodeId → Bool → YogaLayout Style → Option (YogaLayout Style × Bool)
  | [], _, isClean, layout => some (layout, isClean)
  | child :: rest, oldChildren, isClean, layout =>
    if ¬ layout.isLayoutable child then
      appendYogaChildren node rest oldChildren isClean layout
    else do
      let layout ← layout.appendChildYogaNode adopt node child
      let isClean := isClean && !(layout.state child).isDirty && oldChildren.head?.any fun old =>
        (layout.state child).style == (layout.state old).style
      appendYogaChildren node rest oldChildren.tail isClean layout

variable (node : NodeId)

def updateYogaChildren : Option (YogaLayout Style) :=
  if layout.isLeaf node then some layout
  else do
    let children := layout.getChildren node
    let isClean := !(layout.state node).dirtied &&
      children.length == (layout.yogaChildren node).length
    let oldChildren := if isClean then layout.yogaChildren node else []
    let emptied := { layout with tree := layout.tree.setYogaChildren node [] }
    let (layout, isClean) ← appendYogaChildren adopt node children oldChildren isClean emptied
    return layout.setDirty node (!isClean)

/-- The cloning constructors, with the Yoga style of the new props and the list of new
children that the fragment may have. -/
def clone (source : NodeId) (props : Option Style)
    (children : Option ListAddress) : Option (YogaLayout Style) :=
  let node := layout.nodeCount
  let layout := layout.cloneNode source props children
  if ¬ layout.isLayoutable node then some layout
  else
    let layout := if props.isSome then layout.updateYogaProps node else layout
    if children.isSome then layout.updateYogaChildren adopt node else some layout

@[simp] theorem updateYogaProps_tree : (layout.updateYogaProps node).tree = layout.tree := by
  simp only [updateYogaProps, setStyle]
  split <;> rfl

end Children

end YogaLayout
end ReactNative


