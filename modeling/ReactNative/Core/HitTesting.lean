import ReactNative.Core.LayoutableShadowNode
import ReactNative.Foundation.Lines

/-! Hit testing goes into the first child that has the point, and takes off it the origin of each
frame on the way. -/
namespace ReactNative

variable {D : Type}

namespace LayoutableShadowNode

def frameContains (node : ShadowNode D) (point : Point) : Bool :=
  (getLayoutMetrics node).frame.containsPoint point

/-- What the search takes for the frame, in which a negative size counts as none. -/
def searchContains (node : ShadowNode D) (point : Point) : Bool :=
  ((getLayoutMetrics node).frame * Transform.Identity).containsPoint point

section Search

variable {getTransform : ShadowNode D → Transform} {node : ShadowNode D}
  {children : List (ShadowNode D)} {point : Point}

theorem searchContains_of_frame (inside : frameContains node point = true) :
    searchContains node point = true := containsPoint_mul_identity inside

def Untransformed (getTransform : ShadowNode D → Transform) (node : ShadowNode D) : Prop :=
  isLayoutable node = true ∧ getTransform node = Transform.Identity

theorem findNodeAtPoint_eq {fields : ShadowNodeFields D}
    (plain : Untransformed getTransform ⟨fields, children⟩) :
    findNodeAtPoint getTransform ⟨fields, children⟩ point =
      if searchContains ⟨fields, children⟩ point then
        (findInChildren getTransform children
          (point - (getLayoutMetrics (⟨fields, children⟩ : ShadowNode D)).frame.origin)).or
            (some ⟨fields, children⟩)
      else none := by
  rw [findNodeAtPoint]
  simp only [plain.1, plain.2, Bool.not_true, Bool.false_eq_true, if_false, point_mul_identity,
    searchContains]
  split <;> simp_all

end Search

def squareNode (tag : Tag) (left side : ℚ) (children : List (ShadowNode Unit)) : ShadowNode Unit :=
  ⟨{ address := tag.toNat, family := ⟨tag.toNat, tag, "View", 0⟩, props := 0, state := none,
     orderIndex := 0, stateRevision := 0, traits := {},
     layoutMetrics := { frame := ⟨⟨left, 0⟩, ⟨side, side⟩⟩ } }, children⟩

end LayoutableShadowNode

end ReactNative

