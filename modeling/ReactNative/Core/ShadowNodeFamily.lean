import ReactNative.Core.ShadowNode

/-! A family records its parent with the first node that has one of its nodes as a child. -/
namespace ReactNative

structure FamilyParents where
  parent : ShadowNodeFamily → Option ShadowNodeFamily
  acyclic : WellFounded fun above family => parent family = some above

/-- Ancestor nodes, with the index of the next child. -/
abbrev AncestorList (D : Type) := List (ShadowNode D × ℕ)

namespace ShadowNodeFamily

variable {D : Type} (parents : FamilyParents)

/-- The families up to the one of the ancestor, and where the climb ends. -/
def climb (ancestorFamily family : ShadowNodeFamily) :
    List ShadowNodeFamily × Option ShadowNodeFamily :=
  if family = ancestorFamily then ([], some family)
  else
    match _recorded : parents.parent family with
    | none => ([family], none)
    | some above => (family :: (climb ancestorFamily above).1, (climb ancestorFamily above).2)
termination_by parents.acyclic.wrap family

/-- Goes down by the families, or nowhere if one is not found. -/
def descend (parentNode : ShadowNode D) : List ShadowNodeFamily → Option (AncestorList D)
  | [] => some []
  | childFamily :: rest =>
    match parentNode.getChildren.findIdx? fun childNode =>
        ShadowNode.getFamily childNode = childFamily with
    | none => none
    | some childIndex =>
      (parentNode.getChildren[childIndex]?).bind fun childNode =>
        (descend childNode rest).map fun ancestors => (parentNode, childIndex) :: ancestors

def getAncestors (family : ShadowNodeFamily) (ancestorShadowNode : ShadowNode D) : AncestorList D :=
  let families := climb parents ancestorShadowNode.getFamily family
  if families.2 ≠ some ancestorShadowNode.getFamily then []
  else (descend ancestorShadowNode families.1.reverse).getD []

end ShadowNodeFamily

namespace ShadowNode

variable {D : Type} (parents : FamilyParents) (owners : YogaOwners D)
  (mostRecentState : ShadowNodeFamily → Option (State D))

/-- The clones of the ancestors, innermost first. Asserts that the child is replaced by one of its
family. -/
def cloneAncestors : AncestorList D → ShadowNode D → Option (ShadowNode D)
  | [], newShadowNode => some newShadowNode
  | (parentNode, childIndex) :: rest, newShadowNode =>
    (cloneAncestors rest newShadowNode).bind fun childNode =>
      (parentNode.getChildren[childIndex]?).bind fun oldChildNode =>
        if oldChildNode.sameFamily childNode then
          some (parentNode.cloneShadowNode owners mostRecentState
            { children := some (parentNode.getChildren.set childIndex childNode) })
        else none

/-- The inner `none` is the null pointer, and the outer one a failed assertion. -/
def cloneTree (root : ShadowNode D) (shadowNodeFamily : ShadowNodeFamily)
    (callback : ShadowNode D → ShadowNode D) : Option (Option (ShadowNode D)) :=
  let ancestors := shadowNodeFamily.getAncestors parents root
  match ancestors.getLast? with
  | none => some none
  | some parent =>
    (parent.1.getChildren[parent.2]?).bind fun oldShadowNode =>
      (cloneAncestors owners mostRecentState ancestors (callback oldShadowNode)).map some

end ShadowNode

end ReactNative

