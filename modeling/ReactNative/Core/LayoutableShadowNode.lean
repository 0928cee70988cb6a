import ReactNative.Core.CloneTree
import ReactNative.Core.Transform

/-! The metrics of a node are told relative to one of its ancestors by adding up the frames on the
way to it. A node is found at a point by going down from a node into the first child that has the
point. -/
namespace ReactNative

variable {D : Type}

structure LayoutInspectingPolicy where
  includeTransform : Bool := true

namespace LayoutableShadowNode

def getLayoutMetrics (node : ShadowNode D) : LayoutMetrics := node.label.layoutMetrics

def isLayoutable (node : ShadowNode D) : Bool := node.getTraits.layoutableKind

section Measuring

variable (parents : FamilyParents) (getTransform : ShadowNode D → Transform)

def findNewestChildInParent (parentNode shadowNode : ShadowNode D) : Option (ShadowNode D) :=
  parentNode.getChildren.find? fun child => ShadowNode.sameFamily child shadowNode

/-- The ancestors from the parent on. -/
def calculateOffset (policy : LayoutInspectingPolicy) (layoutMetrics : LayoutMetrics) :
    List (ShadowNode D) → LayoutMetrics
  | [] => layoutMetrics
  | currentShadowNode :: rest =>
    if currentShadowNode.getTraits.rootNodeKind then layoutMetrics
    else if !isLayoutable currentShadowNode then EmptyLayoutMetrics
    else
      let frame := (getLayoutMetrics currentShadowNode).frame
      let transform := getTransform currentShadowNode
      let size := if policy.includeTransform then layoutMetrics.frame.size * transform
        else layoutMetrics.frame.size
      let origin := layoutMetrics.frame.origin +
        (if policy.includeTransform then frame * transform else frame).origin
      calculateOffset policy { layoutMetrics with frame := ⟨origin, size⟩ } rest

def calculateOffsetForLayoutMetrics (layoutMetrics : LayoutMetrics) (ancestors : AncestorList D)
    (policy : LayoutInspectingPolicy) : LayoutMetrics :=
  calculateOffset getTransform policy layoutMetrics (ancestors.reverse.dropLast.map Prod.fst)

/-- Fails if the newest child is not layoutable, which is not checked. -/
def getRelativeLayoutMetrics (shadowNode ancestorShadowNode : ShadowNode D)
    (policy : LayoutInspectingPolicy) : Option LayoutMetrics :=
  if shadowNode.sameFamily ancestorShadowNode then
    some { getLayoutMetrics shadowNode with
      frame := { (getLayoutMetrics shadowNode).frame with origin := ⟨0, 0⟩ } }
  else
    let ancestors := shadowNode.getFamily.getAncestors parents ancestorShadowNode
    match ancestors.getLast? with
    | none => some EmptyLayoutMetrics
    | some parent =>
      match findNewestChildInParent parent.1 shadowNode with
      | none => some EmptyLayoutMetrics
      | some newestChild =>
        if !isLayoutable newestChild then none
        else
          let layoutMetrics := getLayoutMetrics newestChild
          let frame := if policy.includeTransform then layoutMetrics.frame * getTransform newestChild
            else layoutMetrics.frame
          some (calculateOffsetForLayoutMetrics getTransform { layoutMetrics with frame } ancestors
            policy)

end Measuring

section HitTesting

variable (getTransform : ShadowNode D → Transform)

mutual
def findNodeAtPoint : ShadowNode D → Point → Option (ShadowNode D)
  | ⟨fields, children⟩, point =>
    let node : ShadowNode D := ⟨fields, children⟩
    if !isLayoutable node then none
    else
      let frame := (getLayoutMetrics node).frame
      let transformedFrame := frame * getTransform node
      if !transformedFrame.containsPoint point then none
      else
        let newPoint := point - frame.origin * getTransform node
        (findInChildren children newPoint).or (some node)

def findInChildren : List (ShadowNode D) → Point → Option (ShadowNode D)
  | [], _ => none
  | childShadowNode :: rest, point =>
    (findNodeAtPoint childShadowNode point).or (findInChildren rest point)
end

end HitTesting

end LayoutableShadowNode

end ReactNative

