import ReactNative.Core.ShadowNode
import ReactNative.Foundation.HiddenEntries
import ReactNative.Foundation.Runs
import Mathlib.Data.Finset.Card

/-! `manageChildren` removes, deletes and adds children of one view. A deleted child that is
animated stays in the list of children until the animation ends, and until then its tag is in the
set of pending deletions of the parent. With `removeClippedSubviews` children that are out of sight
are not attached. -/
namespace ReactNative

/-- What the layout animator knows when `manageChildren` is called. -/
structure LayoutAnimator where
  layoutAnimationEnabled : Bool := false
  shouldAnimateLayout : Bool := false
  /-- Whether a delete animation is configured; if not, one ends when it starts. -/
  hasDeleteAnimation : Bool := false
  /-- The tags of views with an animation of their layout. -/
  layoutHandlers : List Tag := []

structure NativeParent where
  isRoot : Bool := false
  removeClippedSubviews : Bool := false
  /-- All children, those included that are clipped. -/
  children : List Tag := []
  clipped : Finset Tag := ∅
  pendingDeletionTags : Finset Tag := ∅
  tagsToViews : Finset Tag := ∅

structure ViewAtIndex where
  tag : Tag
  index : ℕ

structure ManageChildren where
  indicesToRemove : List ℕ := []
  viewsToAdd : List ViewAtIndex := []
  tagsToDelete : List Tag := []

inductive ViewOperationException where
  | removeAboveChildCount (indexToRemove : ℕ)
  | removeOutOfOrder (indexToRemove : ℕ)
  | destroyUnknownView (tag : Tag)
  | addUnknownView (tag : Tag)
  /-- `ViewGroup.addView` refuses a child that has a parent, and every list an index above the
  count. -/
  | childHasParent (tag : Tag)
  | addAboveChildCount (index : ℕ)

namespace NativeParent

/-- A clipped view has no parent. -/
def shouldAnimateLayout (animator : LayoutAnimator) (clipped : Finset Tag) (children : List Tag)
    (view : Tag) : Bool :=
  animator.layoutAnimationEnabled &&
    ((animator.shouldAnimateLayout && children.contains view && view ∉ clipped) ||
      animator.layoutHandlers.contains view)

def removeViews (animator : LayoutAnimator) (clipped : Finset Tag) (isRoot : Bool)
    (tagsToDelete : List Tag) :
    List ℕ → ℕ → List Tag → Except ViewOperationException (Option (List Tag))
  | [], _, children => .ok (some children)
  | indexToRemove :: rest, lastIndexToRemove, children =>
    match children[indexToRemove]? with
    | none =>
      if isRoot ∧ children = [] then .ok none
      else .error (.removeAboveChildCount indexToRemove)
    | some viewToRemove =>
      if lastIndexToRemove ≤ indexToRemove then .error (.removeOutOfOrder indexToRemove)
      else
        removeViews animator clipped isRoot tagsToDelete rest indexToRemove
          (if shouldAnimateLayout animator clipped children viewToRemove ∧
            viewToRemove ∈ tagsToDelete
          then children else children.eraseIdx indexToRemove)

variable (parent : NativeParent) (view : Tag)

def dropView : NativeParent :=
  { parent with tagsToViews := parent.tagsToViews.erase view }

def onAnimationEnd : NativeParent :=
  { parent with
    children := parent.children.erase view
    tagsToViews := parent.tagsToViews.erase view
    pendingDeletionTags := parent.pendingDeletionTags.erase view }

def deleteViews (animator : LayoutAnimator) :
    List Tag → NativeParent → Except ViewOperationException NativeParent
  | [], parent => .ok parent
  | tagToDelete :: rest, parent =>
    if tagToDelete ∉ parent.tagsToViews then .error (.destroyUnknownView tagToDelete)
    else if shouldAnimateLayout animator parent.clipped parent.children tagToDelete then
      let pending :=
        { parent with pendingDeletionTags := insert tagToDelete parent.pendingDeletionTags }
      deleteViews animator rest
        (if animator.hasDeleteAnimation then pending else pending.onAnimationEnd tagToDelete)
    else
      deleteViews animator rest (parent.dropView tagToDelete)

def normalizedIndex (pendingDeletionTags : Finset Tag) (index : ℕ) : ℕ → List Tag → ℕ
  | _, [] => 0
  | counter, view :: rest =>
    if counter = index then 0
    else
      normalizedIndex pendingDeletionTags index
        (if view ∉ pendingDeletionTags then counter + 1 else counter) rest + 1

/-- `getChildAt` and `getChildCount` of a view know the attached children only. -/
def attachedChildren : List Tag :=
  parent.children.filter fun view => view ∉ parent.clipped

def indexToAdd (index : ℕ) : ℕ :=
  if parent.pendingDeletionTags = ∅ then index
  else normalizedIndex parent.pendingDeletionTags index 0 parent.attachedChildren

/-- What is clipped of the views that are out of sight. -/
def toClip (outOfSight : Finset Tag) : Finset Tag :=
  if parent.removeClippedSubviews then outOfSight else ∅

/-- The index is one into all children. A view that is out of sight is clipped at once. -/
def addView (outOfSight : Finset Tag) (index : ℕ) : Except ViewOperationException NativeParent :=
  if view ∈ parent.children ∧ ¬ parent.removeClippedSubviews then .error (.childHasParent view)
  else if parent.children.length < index then .error (.addAboveChildCount index)
  else .ok { parent with
    children := parent.children.insertIdx index view
    clipped :=
      if view ∈ parent.toClip outOfSight then insert view parent.clipped
      else parent.clipped.erase view }

def addViews (outOfSight : Finset Tag) :
    List ViewAtIndex → NativeParent → Except ViewOperationException NativeParent
  | [], parent => .ok parent
  | viewAtIndex :: rest, parent =>
    if viewAtIndex.tag ∉ parent.tagsToViews then .error (.addUnknownView viewAtIndex.tag)
    else
      match parent.addView viewAtIndex.tag outOfSight (parent.indexToAdd viewAtIndex.index) with
      | .error exception => .error exception
      | .ok added => addViews outOfSight rest added

def manageChildren (animator : LayoutAnimator) (outOfSight : Finset Tag) (call : ManageChildren)
    (parent : NativeParent) : Except ViewOperationException NativeParent :=
  match removeViews animator parent.clipped parent.isRoot call.tagsToDelete
      call.indicesToRemove.reverse parent.children.length parent.children with
  | .error exception => .error exception
  | .ok none => .ok parent
  | .ok (some children) =>
    match deleteViews animator call.tagsToDelete { parent with children := children } with
    | .error exception => .error exception
    | .ok deleted => addViews outOfSight call.viewsToAdd deleted

/-- A child that comes in sight is attached, and one that goes out of sight is clipped; children
that are animated do not go out of sight. -/
def updateClippingRect (outOfSight : Finset Tag) : NativeParent :=
  { parent with clipped := parent.toClip outOfSight }

/-- The children that are not about to be deleted. -/
def liveChildren : List Tag :=
  HiddenEntries.visible (fun view => decide (view ∈ parent.pendingDeletionTags)) parent.children

end NativeParent

end ReactNative

