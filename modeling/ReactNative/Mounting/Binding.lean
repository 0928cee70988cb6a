import ReactNative.Mounting.ShadowView
import Mathlib.Data.Finset.Card
import Mathlib.Data.Rat.Floor

/-! What Android's `Binding` makes of the mutations of a transaction. -/
namespace ReactNative

structure Binding where
  collapseDeleteCreateMountingInstructions : Bool := false
  shouldCollateRemovesAndDeletes : Bool := false
  disablePreallocateViews : Bool := false
  revision : Pointer → ℕ := fun _ => 1
  probablyMoreHorizontalThanVertical : Pointer → Bool := fun _ => false

structure RemoveDeleteMetadata where
  tag : Tag
  parentTag : Tag
  index : ℤ
  shouldRemove : Bool
  shouldDelete : Bool
  deriving DecidableEq

inductive MountItem (D : Type) where
  | create (tag : Tag) (componentName : String) (props : Option Pointer) (state : Option (State D))
      (isLayoutable : Bool)
  | insert (tag parentTag : Tag) (index : ℤ)
  | remove (tag parentTag : Tag) (index : ℤ)
  | delete (tag : Tag)
  | removeDeleteMulti (metadata : List RemoveDeleteMetadata)
  | updateProps (tag : Tag) (props : Option Pointer)
  | updateState (tag : Tag) (state : Option (State D))
  | updateLayout (tag : Tag) (x y width height : ℤ) (layoutDirection : LayoutDirection)
  | updatePadding (tag : Tag) (left top right bottom : ℤ)
  | updateEventEmitter (tag : Tag) (eventEmitter : Pointer)

namespace Binding

variable {D : Type}

/-- Halves are rounded away from zero. -/
def round (value : ℚ) : ℤ := if value < 0 then -⌊-value + 1 / 2⌋ else ⌊value + 1 / 2⌋

variable (binding : Binding)

def getPlatformComponentName (shadowView : ShadowView D) : String :=
  if shadowView.props.any binding.probablyMoreHorizontalThanVertical then
    "AndroidHorizontalScrollView"
  else shadowView.componentName

variable (mutation : ShadowViewMutation D)

def createUpdateEventEmitterMountItem : Option (MountItem D) :=
  mutation.newChildShadowView.eventEmitter.map
    (.updateEventEmitter mutation.newChildShadowView.tag)

def createUpdatePropsMountItem : MountItem D :=
  .updateProps mutation.newChildShadowView.tag mutation.newChildShadowView.props

def createUpdateStateMountItem : MountItem D :=
  .updateState mutation.newChildShadowView.tag mutation.newChildShadowView.state

def createUpdateLayoutMountItem : Option (MountItem D) :=
  let oldChildShadowView := mutation.oldChildShadowView
  let newChildShadowView := mutation.newChildShadowView
  if newChildShadowView.layoutMetrics ≠ EmptyLayoutMetrics ∧
      oldChildShadowView.layoutMetrics ≠ newChildShadowView.layoutMetrics then
    let layoutMetrics := newChildShadowView.layoutMetrics
    let pointScaleFactor := layoutMetrics.pointScaleFactor
    let frame := layoutMetrics.frame
    some (.updateLayout newChildShadowView.tag (round (frame.origin.x * pointScaleFactor))
      (round (frame.origin.y * pointScaleFactor)) (round (frame.size.width * pointScaleFactor))
      (round (frame.size.height * pointScaleFactor)) layoutMetrics.layoutDirection)
  else none

def createUpdatePaddingMountItem : Option (MountItem D) :=
  let layoutMetrics := mutation.newChildShadowView.layoutMetrics
  let contentInsets := layoutMetrics.contentInsets
  if mutation.oldChildShadowView.layoutMetrics.contentInsets = contentInsets then none
  else
    let pointScaleFactor := layoutMetrics.pointScaleFactor
    some (.updatePadding mutation.newChildShadowView.tag
      (round (contentInsets.left * pointScaleFactor)) (round (contentInsets.top * pointScaleFactor))
      (round (contentInsets.right * pointScaleFactor))
      (round (contentInsets.bottom * pointScaleFactor)))

def createInsertMountItem : MountItem D :=
  .insert mutation.newChildShadowView.tag mutation.parentShadowView.tag mutation.index

def createRemoveMountItem : MountItem D :=
  .remove mutation.oldChildShadowView.tag mutation.parentShadowView.tag mutation.index

def createDeleteMountItem : MountItem D := .delete mutation.oldChildShadowView.tag

def createCreateMountItem (mutation : ShadowViewMutation D) : MountItem D :=
  let newChildShadowView := mutation.newChildShadowView
  .create newChildShadowView.tag (binding.getPlatformComponentName newChildShadowView)
    newChildShadowView.props newChildShadowView.state
    (newChildShadowView.layoutMetrics ≠ EmptyLayoutMetrics)

/-- The first loop. A tag that was deleted and is created leaves the set. -/
def createAndDeleteTagsToProcess (mutations : List (ShadowViewMutation D)) : Finset Tag :=
  mutations.foldl (fun tags mutation =>
    match mutation.type with
    | .delete => insert mutation.oldChildShadowView.tag tags
    | .create =>
      let tag := mutation.newChildShadowView.tag
      if tag ∉ tags then insert tag tags else tags.erase tag
    | .insert | .remove | .update => tags) ∅

/-- Whether a mutation is passed over. -/
def isCollapsed (tagsToProcess : Finset Tag) (mutation : ShadowViewMutation D) : Bool :=
  binding.collapseDeleteCreateMountingInstructions && tagsToProcess.card > 0 &&
    match mutation.type with
    | .create => mutation.newChildShadowView.tag ∉ tagsToProcess
    | .delete => mutation.oldChildShadowView.tag ∉ tagsToProcess
    | .insert | .remove | .update => false

def isVirtual : Bool :=
  mutation.newChildShadowView.layoutMetrics = EmptyLayoutMetrics &&
    mutation.oldChildShadowView.layoutMetrics = EmptyLayoutMetrics

end Binding

structure MountItems (D : Type) where
  mountItems : List (MountItem D) := []
  toRemove : List RemoveDeleteMetadata := []
  deletedViewTags : Finset Tag := ∅

namespace Binding

variable {D : Type}

def push (items : MountItems D) (more : List (MountItem D)) : MountItems D :=
  { items with mountItems := items.mountItems ++ more }

variable (binding : Binding) (items : MountItems D)

/-- Handles accumulated removals and deletions. -/
def handleAccumulated : MountItems D :=
  if binding.shouldCollateRemovesAndDeletes ∧ items.toRemove ≠ [] then
    { push items [.removeDeleteMulti items.toRemove] with toRemove := [] }
  else items

variable (deletedViewTags : Finset Tag)

def needsProps (mutation : ShadowViewMutation D) : Bool :=
  binding.disablePreallocateViews || mutation.newChildShadowView.props.any (binding.revision · > 1) ||
    mutation.newChildShadowView.tag ∈ deletedViewTags

/-- The entry of a view that is to be removed is found by its tag. -/
def markDeleted (tag : Tag) : List RemoveDeleteMetadata → List RemoveDeleteMetadata
  | [] => [⟨tag, -1, -1, false, true⟩]
  | metadata :: rest =>
    if metadata.tag = tag then { metadata with shouldDelete := true } :: rest
    else metadata :: markDeleted tag rest

def updateMountItems (mutation : ShadowViewMutation D) : List (MountItem D) :=
  let oldChildShadowView := mutation.oldChildShadowView
  let newChildShadowView := mutation.newChildShadowView
  (if isVirtual mutation then []
    else
      (if oldChildShadowView.props ≠ newChildShadowView.props then
        [createUpdatePropsMountItem mutation] else []) ++
      (if oldChildShadowView.state.map State.address ≠ newChildShadowView.state.map State.address then
        [createUpdateStateMountItem mutation] else []) ++
      (createUpdateLayoutMountItem mutation).toList ++
      (createUpdatePaddingMountItem mutation).toList) ++
    if oldChildShadowView.eventEmitter ≠ newChildShadowView.eventEmitter then
      (createUpdateEventEmitterMountItem mutation).toList else []

def insertMountItems (mutation : ShadowViewMutation D) : List (MountItem D) :=
  (if isVirtual mutation then []
    else
      [createInsertMountItem mutation] ++
      (if binding.needsProps deletedViewTags mutation then [createUpdatePropsMountItem mutation]
        else []) ++
      (if mutation.newChildShadowView.state.isSome then [createUpdateStateMountItem mutation]
        else []) ++
      (createUpdateLayoutMountItem mutation).toList ++
      (createUpdatePaddingMountItem mutation).toList) ++
    (createUpdateEventEmitterMountItem mutation).toList

def removeMountItems (mutation : ShadowViewMutation D) : MountItems D :=
  if isVirtual mutation then items
  else if binding.shouldCollateRemovesAndDeletes then
    { items with toRemove := items.toRemove ++ [⟨mutation.oldChildShadowView.tag,
      mutation.parentShadowView.tag, mutation.index, true, false⟩] }
  else push items [createRemoveMountItem mutation]

def deleteMountItems (mutation : ShadowViewMutation D) : MountItems D :=
  let tag := mutation.oldChildShadowView.tag
  let items :=
    if binding.shouldCollateRemovesAndDeletes then
      { items with toRemove := markDeleted tag items.toRemove }
    else push items [createDeleteMountItem mutation]
  { items with deletedViewTags := insert tag items.deletedViewTags }

def addMutation (tagsToProcess : Finset Tag) (items : MountItems D)
    (mutation : ShadowViewMutation D) : MountItems D :=
  if binding.isCollapsed tagsToProcess mutation then items
  else
    match mutation.type with
    | .remove => binding.removeMountItems items mutation
    | .delete => binding.deleteMountItems items mutation
    | .create =>
      let items := binding.handleAccumulated items
      if binding.needsProps items.deletedViewTags mutation then
        push items [binding.createCreateMountItem mutation]
      else items
    | .update =>
      push (binding.handleAccumulated items) (updateMountItems mutation)
    | .insert =>
      let items := binding.handleAccumulated items
      push items (binding.insertMountItems items.deletedViewTags mutation)

variable (mutations : List (ShadowViewMutation D))

/-- The mount items that are handed over, in the order of their positions. -/
def schedulerDidFinishTransaction : List (MountItem D) :=
  let tagsToProcess := createAndDeleteTagsToProcess mutations
  let items := mutations.foldl (binding.addMutation tagsToProcess) {}
  (binding.handleAccumulated items).mountItems

def size : ℕ := mutations.length * 3 + 42

end Binding

end ReactNative

