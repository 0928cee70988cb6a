import ReactNative.Core.ShadowNode
import Mathlib.Data.Fin.VecNotation
import Mathlib.Data.Fintype.Basic
import Mathlib.Tactic.Linarith

/-! A transform is a matrix of four rows and columns. A rectangle is transformed around its center,
a point around the origin, and a size by the scale alone. -/
namespace ReactNative

instance : Zero Point := ⟨{}⟩

instance : AddCommMonoid Point where
  add_assoc first second third := by
    cases first; cases second; cases third
    exact congrArg₂ Point.mk (add_assoc _ _ _) (add_assoc _ _ _)
  zero_add point := by
    cases point
    exact congrArg₂ Point.mk (zero_add _) (zero_add _)
  add_zero point := by
    cases point
    exact congrArg₂ Point.mk (add_zero _) (add_zero _)
  add_comm first second := by
    cases first; cases second
    exact congrArg₂ Point.mk (add_comm _ _) (add_comm _ _)
  nsmul := nsmulRec

instance : Sub Point := ⟨fun lhs rhs => ⟨lhs.x - rhs.x, lhs.y - rhs.y⟩⟩

instance : Neg Point := ⟨fun point => ⟨-point.x, -point.y⟩⟩

instance : AddCommGroup Point where
  neg_add_cancel point := congrArg₂ Point.mk (neg_add_cancel _) (neg_add_cancel _)
  sub_eq_add_neg _ _ := congrArg₂ Point.mk (sub_eq_add_neg _ _) (sub_eq_add_neg _ _)
  zsmul := zsmulRec
  add_comm := add_comm

@[simp] theorem Point.sub_x (lhs rhs : Point) : (lhs - rhs).x = lhs.x - rhs.x := rfl

@[simp] theorem Point.sub_y (lhs rhs : Point) : (lhs - rhs).y = lhs.y - rhs.y := rfl

@[simp] theorem Point.add_x (lhs rhs : Point) : (lhs + rhs).x = lhs.x + rhs.x := rfl

@[simp] theorem Point.add_y (lhs rhs : Point) : (lhs + rhs).y = lhs.y + rhs.y := rfl

namespace Rect

variable (rect : Rect)

def getMaxX : ℚ :=
  if rect.size.width > 0 then rect.origin.x + rect.size.width else rect.origin.x

def getMaxY : ℚ :=
  if rect.size.height > 0 then rect.origin.y + rect.size.height else rect.origin.y

def getMidX : ℚ := rect.origin.x + rect.size.width / 2

def getMidY : ℚ := rect.origin.y + rect.size.height / 2

def getCenter : Point := ⟨rect.getMidX, rect.getMidY⟩

def containsPoint (point : Point) : Bool :=
  point.x ≥ rect.origin.x ∧ point.y ≥ rect.origin.y ∧
    point.x ≤ rect.origin.x + rect.size.width ∧ point.y ≤ rect.origin.y + rect.size.height

def boundingRect (a b c d : Point) : Rect :=
  let leftTopPoint : Point := ⟨min (min (min a.x b.x) c.x) d.x, min (min (min a.y b.y) c.y) d.y⟩
  let rightBottomPoint : Point := ⟨max (max (max a.x b.x) c.x) d.x, max (max (max a.y b.y) c.y) d.y⟩
  ⟨leftTopPoint, ⟨rightBottomPoint.x - leftTopPoint.x, rightBottomPoint.y - leftTopPoint.y⟩⟩

end Rect

structure Vector4 where
  x : ℚ := 0
  y : ℚ := 0
  z : ℚ := 0
  w : ℚ := 0

structure Transform where
  entry : Fin 4 → Fin 4 → ℚ
  deriving DecidableEq

namespace Transform

def Identity : Transform := ⟨fun i j => if i = j then 1 else 0⟩

def Scale (factorX factorY factorZ : ℚ) : Transform :=
  ⟨fun i j => if i = j then ![factorX, factorY, factorZ, 1] i else 0⟩

def multiplyVector (transform : Transform) (vector : Vector4) : Vector4 :=
  let column (j : Fin 4) : ℚ := vector.x * transform.entry 0 j + vector.y * transform.entry 1 j +
    vector.z * transform.entry 2 j + vector.w * transform.entry 3 j
  ⟨column 0, column 1, column 2, column 3⟩

end Transform

instance : HMul Transform Vector4 Vector4 := ⟨Transform.multiplyVector⟩

def Point.transformed (point : Point) (transform : Transform) : Point :=
  if transform = Transform.Identity then point
  else
    let result := transform * (⟨point.x, point.y, 0, 1⟩ : Vector4)
    ⟨result.x, result.y⟩

namespace Rect

def transformedCorner (rect : Rect) (transform : Transform) (corner : Point) : Point :=
  let fromCentre := corner - rect.getCenter
  let vector := transform * (⟨fromCentre.x, fromCentre.y, 0, 1⟩ : Vector4)
  ⟨vector.x + rect.getCenter.x, vector.y + rect.getCenter.y⟩

def transformed (rect : Rect) (transform : Transform) : Rect :=
  boundingRect (rect.transformedCorner transform ⟨rect.origin.x, rect.origin.y⟩)
    (rect.transformedCorner transform ⟨rect.getMaxX, rect.origin.y⟩)
    (rect.transformedCorner transform ⟨rect.getMaxX, rect.getMaxY⟩)
    (rect.transformedCorner transform ⟨rect.origin.x, rect.getMaxY⟩)

end Rect

def Size.transformed (size : Size) (transform : Transform) : Size :=
  if transform = Transform.Identity then size
  else ⟨transform.entry 0 0 * size.width, transform.entry 1 1 * size.height⟩

instance : HMul Point Transform Point := ⟨Point.transformed⟩

instance : HMul Rect Transform Rect := ⟨Rect.transformed⟩

instance : HMul Size Transform Size := ⟨Size.transformed⟩

section Identity

variable {rect : Rect}

@[simp] theorem point_mul_identity (point : Point) : point * Transform.Identity = point := by
  have transformed : point * Transform.Identity = point.transformed Transform.Identity := rfl
  rw [transformed, Point.transformed, if_pos rfl]

theorem identity_mul_vector (vector : Vector4) : Transform.Identity * vector = vector := by
  obtain ⟨x, y, z, w⟩ := vector
  have multiplied : Transform.Identity * (⟨x, y, z, w⟩ : Vector4) =
    Transform.Identity.multiplyVector ⟨x, y, z, w⟩ := rfl
  rw [multiplied, Transform.multiplyVector]
  simp [Transform.Identity]

theorem transformedCorner_identity (corner : Point) :
    rect.transformedCorner Transform.Identity corner = corner := by
  obtain ⟨x, y⟩ := corner
  have difference : (⟨x, y⟩ : Point) - rect.getCenter =
    ⟨x - rect.getCenter.x, y - rect.getCenter.y⟩ := rfl
  simp only [Rect.transformedCorner, identity_mul_vector, difference, sub_add_cancel]

theorem origin_le_getMaxX : rect.origin.x ≤ rect.getMaxX := by
  rw [Rect.getMaxX]
  split <;> linarith

theorem origin_le_getMaxY : rect.origin.y ≤ rect.getMaxY := by
  rw [Rect.getMaxY]
  split <;> linarith

theorem rect_mul_identity : rect * Transform.Identity =
    ⟨rect.origin, ⟨max 0 rect.size.width, max 0 rect.size.height⟩⟩ := by
  have transformed : rect * Transform.Identity = rect.transformed Transform.Identity := rfl
  have horizontal := @origin_le_getMaxX rect
  have vertical := @origin_le_getMaxY rect
  have width : rect.getMaxX - rect.origin.x = max 0 rect.size.width := by
    rw [Rect.getMaxX]
    split
    next positive => rw [max_eq_right positive.le, add_sub_cancel_left]
    next negative => rw [max_eq_left (not_lt.mp negative), sub_self]
  have height : rect.getMaxY - rect.origin.y = max 0 rect.size.height := by
    rw [Rect.getMaxY]
    split
    next positive => rw [max_eq_right positive.le, add_sub_cancel_left]
    next negative => rw [max_eq_left (not_lt.mp negative), sub_self]
  rw [transformed, Rect.transformed]
  simp only [transformedCorner_identity, Rect.boundingRect, min_eq_left, max_eq_right,
    max_eq_left, min_self, max_self, horizontal, vertical, width, height]

theorem containsPoint_iff {point : Point} : rect.containsPoint point = true ↔
    rect.origin.x ≤ point.x ∧ rect.origin.y ≤ point.y ∧
      point.x ≤ rect.origin.x + rect.size.width ∧ point.y ≤ rect.origin.y + rect.size.height := by
  rw [Rect.containsPoint, decide_eq_true_eq]

theorem containsPoint_add {origin offset point : Point} {size : Size} :
    (⟨origin + offset, size⟩ : Rect).containsPoint point =
      (⟨origin, size⟩ : Rect).containsPoint (point - offset) := by
  rw [Bool.eq_iff_iff, containsPoint_iff, containsPoint_iff]
  simp only [Point.add_x, Point.add_y, Point.sub_x, Point.sub_y]
  rw [le_sub_iff_add_le, le_sub_iff_add_le, sub_le_iff_le_add, sub_le_iff_le_add,
    add_right_comm origin.x, add_right_comm origin.y]

theorem containsPoint_mul_identity {point : Point} (inside : rect.containsPoint point = true) :
    (rect * Transform.Identity).containsPoint point = true := by
  rw [containsPoint_iff] at inside
  obtain ⟨left, top, right, bottom⟩ := inside
  rw [rect_mul_identity, containsPoint_iff]
  exact ⟨left, top, right.trans (add_le_add_right (le_max_right _ _) _),
    bottom.trans (add_le_add_right (le_max_right _ _) _)⟩

end Identity

end ReactNative
