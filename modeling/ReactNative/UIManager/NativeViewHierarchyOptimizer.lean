import ReactNative.UIManager.ShadowTree

/-! Calls on the shadow tree are translated into operations on native views. -/
namespace ReactNative

inductive UIOperation where
  | createView (tag : Tag)
  | updateProperties (tag : Tag)
  | manageChildren (tag : Tag) (call : ManageChildren)
  | updateLayout (parentTag tag : Tag)

/-- The native side of the nodes, and the operations that have been enqueued. -/
structure NativeTree where
  nativeChildren : Tag → List Tag := fun _ => []
  nativeParent : Tag → Option Tag := fun _ => none
  operations : List UIOperation := []

namespace NativeTree

variable (native : NativeTree)

def enqueue (operation : UIOperation) : NativeTree :=
  { native with operations := native.operations ++ [operation] }

def addNativeChildAt (shadow : ShadowTree) (node child : Tag) (index : ℤ) : Option NativeTree :=
  if shadow.getNativeKind node = .parent ∧ shadow.getNativeKind child ≠ .none ∧
      0 ≤ index ∧ index ≤ (native.nativeChildren node).length then
    some
      { native with
        nativeChildren := Function.update native.nativeChildren node
          ((native.nativeChildren node).insertIdx index.toNat child)
        nativeParent := Function.update native.nativeParent child (some node) }
  else none

def removeNativeChildAt (node : Tag) (index : ℕ) : Option NativeTree :=
  match (native.nativeChildren node)[index]? with
  | none => none
  | some removed =>
    some
      { native with
        nativeChildren := Function.update native.nativeChildren node
          ((native.nativeChildren node).eraseIdx index)
        nativeParent := Function.update native.nativeParent removed none }

end NativeTree

namespace Optimizer

section Native

variable (shadow : ShadowTree)

/-- A node leaves its native parent, if it has one. -/
def detach (shouldDelete : Bool) (node : Tag) (native : NativeTree) : Option NativeTree :=
  match native.nativeParent node with
  | none => some native
  | some nativeParent =>
    let index := (native.nativeChildren nativeParent).idxOf node
    match native.removeNativeChildAt nativeParent index with
    | none => none
    | some removed =>
      some (removed.enqueue (.manageChildren nativeParent
        { indicesToRemove := [index], tagsToDelete := if shouldDelete then [node] else [] }))

def removeNodeFromParent (shouldDelete : Bool) : ℕ → Tag → NativeTree → Option NativeTree
  | 0, _, _ => none
  | fuel + 1, nodeToRemove, native =>
    let below :=
      if shadow.getNativeKind nodeToRemove = .parent then some native
      else
        (shadow.children nodeToRemove).reverse.foldlM
          (fun native child => removeNodeFromParent shouldDelete fuel child native) native
    below.bind (detach shouldDelete nodeToRemove)

/-- The view of a child is added, and then the views below it if it cannot host them. -/
def addNativeChild (addGrandchildren : Tag → Tag → ℤ → NativeTree → Option NativeTree)
    (parent child : Tag) (index : ℤ) (native : NativeTree) : Option NativeTree :=
  match native.addNativeChildAt shadow parent child index with
  | none => none
  | some added =>
    let enqueued := added.enqueue (.manageChildren parent { viewsToAdd := [⟨child, index.toNat⟩] })
    if shadow.getNativeKind child = .parent then some enqueued
    else addGrandchildren parent child (index + 1) enqueued

/-- One turn of the loop over the children of a node that does not host them. -/
def addGrandchild (addGrandchildren : Tag → Tag → ℤ → NativeTree → Option NativeTree)
    (nativeParent : Tag) (state : NativeTree × ℤ) (grandchild : Tag) :
    Option (NativeTree × ℤ) :=
  let (native, currentIndex) := state
  if native.nativeParent grandchild ≠ none then none
  else
    let added :=
      if shadow.getNativeKind grandchild = .none then
        addGrandchildren nativeParent grandchild currentIndex native
      else addNativeChild shadow addGrandchildren nativeParent grandchild currentIndex native
    added.map fun after => (after, currentIndex +
      ((after.nativeChildren nativeParent).length - (native.nativeChildren nativeParent).length))

def addGrandchildren : ℕ → Tag → Tag → ℤ → NativeTree → Option NativeTree
  | 0, _, _, _, _ => none
  | fuel + 1, nativeParent, child, index, native =>
    if shadow.getNativeKind child = .parent then none
    else
      ((shadow.children child).foldlM
        (addGrandchild shadow (addGrandchildren fuel) nativeParent) (native, index)).map Prod.fst

/-- The next node that hosts native children, with the index among them; no such node is no
failure. -/
def walkUpUntilNativeKindIsParent : ℕ → Tag → ℤ → Option (Option (Tag × ℤ))
  | 0, _, _ => none
  | fuel + 1, node, indexInNativeChildren =>
    if shadow.getNativeKind node = .parent then some (some (node, indexInNativeChildren))
    else
      match shadow.parent node with
      | none => some none
      | some parent =>
        match shadow.getNativeOffsetForChild parent node with
        | none => none
        | some offset =>
          walkUpUntilNativeKindIsParent fuel parent
            (indexInNativeChildren + (if shadow.getNativeKind node = .leaf then 1 else 0) + offset)

def addNodeToNode (parent child : Tag) (index : ℕ) (native : NativeTree) : Option NativeTree :=
  match (shadow.children parent)[index]? with
  | none => none
  | some childAtIndex =>
    match shadow.getNativeOffsetForChild parent childAtIndex with
    | none => none
    | some offset =>
      match walkUpUntilNativeKindIsParent shadow shadow.depth parent offset with
      | none => none
      | some none => some native
      | some (some (nativeParent, indexInNativeChildren)) =>
        if shadow.getNativeKind child = .none then
          addGrandchildren shadow shadow.depth nativeParent child indexInNativeChildren native
        else
          addNativeChild shadow (addGrandchildren shadow shadow.depth) nativeParent child
            indexInNativeChildren native

def handleManageChildren (nodeToManage : Tag) (tagsToRemove : List Tag)
    (viewsToAdd : List ViewAtIndex) (tagsToDelete : List Tag) (native : NativeTree) :
    Option NativeTree :=
  (tagsToRemove.foldlM (fun native tagToRemove =>
    removeNodeFromParent shadow (tagToRemove ∈ tagsToDelete) shadow.depth tagToRemove native)
    native).bind fun removed =>
  viewsToAdd.foldlM (fun native toAdd => addNodeToNode shadow nodeToManage toAdd.tag toAdd.index native)
    removed

def handleSetChildren (nodeToManage : Tag) (childrenTags : List Tag) (native : NativeTree) :
    Option NativeTree :=
  childrenTags.zipIdx.foldlM (fun native tagAndIndex =>
    addNodeToNode shadow nodeToManage tagAndIndex.1 tagAndIndex.2 native) native

/-- Layouts of views are sent once in a batch, and only for nodes that have a native parent. -/
def applyLayoutRecursive : ℕ → Tag → Finset Tag × NativeTree → Option (Finset Tag × NativeTree)
  | 0, _, _ => none
  | fuel + 1, toUpdate, (visited, native) =>
    match shadow.getNativeKind toUpdate, native.nativeParent toUpdate with
    | .leaf, some parent | .parent, some parent =>
      some (visited, native.enqueue (.updateLayout parent toUpdate))
    | _, _ =>
      (shadow.children toUpdate).foldlM (fun state child =>
        if child ∈ state.1 then some state
        else applyLayoutRecursive fuel child (insert child state.1, state.2)) (visited, native)

def applyLayoutBase (state : Finset Tag × NativeTree) (node : Tag) :
    Option (Finset Tag × NativeTree) :=
  if node ∈ state.1 then some state
  else applyLayoutRecursive shadow shadow.depth node (insert node state.1, state.2)

end Native

end Optimizer

/-- The shadow tree and the native side of its nodes. -/
structure UIImplementation where
  shadow : ShadowTree := {}
  native : NativeTree := {}

namespace UIImplementation

open Optimizer

variable (ui : UIImplementation)

/-- A node may change only while it is nowhere attached. -/
def setIsLayoutOnly (node : Tag) (isLayoutOnly : Bool) : Option UIImplementation :=
  if ui.shadow.parent node = none ∧ ui.native.nativeParent node = none ∧
      ui.native.nativeChildren node = [] then
    some { ui with
      shadow := { ui.shadow with
        isLayoutOnly := Function.update ui.shadow.isLayoutOnly node isLayoutOnly } }
  else none

def handleCreateView (node : Tag) (layoutOnlyAndCollapsable : Bool) : Option UIImplementation :=
  let isLayoutOnly := (ui.shadow.nodeClass node).isView && layoutOnlyAndCollapsable
  (ui.setIsLayoutOnly node isLayoutOnly).map fun created =>
    if created.shadow.getNativeKind node = .none then created
    else { created with native := created.native.enqueue (.createView node) }

/-- The node is taken out, gets a view and is put in again, with the nodes below it. -/
def transitionLayoutOnlyViewToNativeView (node : Tag) : Option UIImplementation :=
  match ui.shadow.parent node with
  | none => ui.setIsLayoutOnly node false
  | some parent => do
    let childIndex := (ui.shadow.children parent).idxOf node
    let taken ← ui.shadow.removeChildAt parent childIndex
    let detached ← removeNodeFromParent taken false taken.depth node ui.native
    let changed ← setIsLayoutOnly ⟨taken, detached⟩ node false
    let created := changed.native.enqueue (.createView node)
    let shadow ← changed.shadow.addChildAt parent node childIndex
    let added ← addNodeToNode shadow parent node childIndex created
    let filled ← handleSetChildren shadow node (shadow.children node) added
    let (visited, laidOut) ← applyLayoutBase shadow (∅, filled) node
    let (_, native) ← (shadow.children node).foldlM (applyLayoutBase shadow) (visited, laidOut)
    return ⟨shadow, native⟩

def handleUpdateView (node : Tag) (layoutOnlyAndCollapsable : Bool) : Option UIImplementation :=
  if ui.shadow.isLayoutOnly node && !layoutOnlyAndCollapsable then
    ui.transitionLayoutOnlyViewToNativeView node
  else if ui.shadow.isLayoutOnly node then some ui
  else some { ui with native := ui.native.enqueue (.updateProperties node) }

end UIImplementation

/-- The changes of the children of a node, as they are sent to the optimizer. -/
structure ManageShadowChildren where
  indicesToRemove : List ℕ := []
  tagsToRemove : List Tag := []
  viewsToAdd : List ViewAtIndex := []
  tagsToDelete : List Tag := []

inductive UIEvent where
  | createView (tag : Tag) (nodeClass : ShadowNodeClass) (layoutOnlyAndCollapsable : Bool)
  | updateView (tag : Tag) (layoutOnlyAndCollapsable : Bool)
  | setChildren (tag : Tag) (childrenTags : List Tag)
  | manageChildren (tag : Tag) (call : ManageShadowChildren)

namespace UIImplementation

open Optimizer

variable (ui : UIImplementation)

def createView (tag : Tag) (nodeClass : ShadowNodeClass)
    (layoutOnlyAndCollapsable : Bool) : Option UIImplementation :=
  let registered : UIImplementation := { ui with shadow := ui.shadow.addNode tag nodeClass }
  if nodeClass.isVirtual then some registered
  else registered.handleCreateView tag layoutOnlyAndCollapsable

def updateView (tag : Tag) (layoutOnlyAndCollapsable : Bool) : Option UIImplementation :=
  if tag ∉ ui.shadow.registry then none
  else if (ui.shadow.nodeClass tag).isVirtual then some ui
  else ui.handleUpdateView tag layoutOnlyAndCollapsable

/-- A node that is added to another one is looked up first. -/
def addRegisteredChild (node : Tag) (shadow : ShadowTree) (toAdd : ViewAtIndex) :
    Option ShadowTree :=
  if toAdd.tag ∉ shadow.registry then none else shadow.addChildAt node toAdd.tag toAdd.index

def setChildren (tag : Tag) (childrenTags : List Tag) : Option UIImplementation :=
  (childrenTags.zipIdx.foldlM (fun shadow tagAndIndex =>
    addRegisteredChild tag shadow ⟨tagAndIndex.1, tagAndIndex.2⟩) ui.shadow).bind fun shadow =>
  (handleSetChildren shadow tag childrenTags ui.native).map fun native => ⟨shadow, native⟩

/-- The shadow tree is changed first, and deleted nodes are removed last. -/
def manageChildren (tag : Tag) (call : ManageShadowChildren) : Option UIImplementation := do
  let removed ← call.indicesToRemove.reverse.foldlM (fun shadow index =>
    shadow.removeChildAt tag index) ui.shadow
  let added ← call.viewsToAdd.foldlM (addRegisteredChild tag) removed
  let native ← handleManageChildren added tag call.tagsToRemove call.viewsToAdd call.tagsToDelete
    ui.native
  return ⟨call.tagsToDelete.foldl ShadowTree.removeShadowNode added, native⟩

def step : UIEvent → Option UIImplementation
  | .createView tag nodeClass layoutOnlyAndCollapsable =>
    ui.createView tag nodeClass layoutOnlyAndCollapsable
  | .updateView tag layoutOnlyAndCollapsable => ui.updateView tag layoutOnlyAndCollapsable
  | .setChildren tag childrenTags => ui.setChildren tag childrenTags
  | .manageChildren tag call => ui.manageChildren tag call

def initial (roots : Finset Tag) : UIImplementation where
  shadow := { registry := roots, tags := roots }

end UIImplementation

end ReactNative

