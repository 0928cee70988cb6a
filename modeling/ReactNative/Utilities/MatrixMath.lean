import Mathlib.LinearAlgebra.Matrix.NonsingularInverse

/-! `MatrixMath` of JavaScript and `MatrixMathHelper` of Android, over an ordered field in the place
of the floating-point numbers. The sums that are spelled out are the same in both; they differ in
what they take for zero. -/
namespace ReactNative

/-- An array of sixteen numbers, with the names that the code destructures it to. -/
@[ext]
structure MatrixArray (K : Type*) where
  (m00 m01 m02 m03 : K)
  (m10 m11 m12 m13 : K)
  (m20 m21 m22 m23 : K)
  (m30 m31 m32 m33 : K)

namespace MatrixArray

variable {K : Type*}

def toMatrix (m : MatrixArray K) : Matrix (Fin 4) (Fin 4) K :=
  !![m.m00, m.m01, m.m02, m.m03; m.m10, m.m11, m.m12, m.m13; m.m20, m.m21, m.m22, m.m23;
    m.m30, m.m31, m.m32, m.m33]

theorem toMatrix_injective : Function.Injective (toMatrix (K := K)) := by
  intro a b same
  have entry (i j : Fin 4) := congrFun (congrFun same i) j
  exact MatrixArray.ext (entry 0 0) (entry 0 1) (entry 0 2) (entry 0 3) (entry 1 0) (entry 1 1)
    (entry 1 2) (entry 1 3) (entry 2 0) (entry 2 1) (entry 2 2) (entry 2 3) (entry 3 0) (entry 3 1)
    (entry 3 2) (entry 3 3)

def map (f : K → K) : MatrixArray K → MatrixArray K
  | ⟨m00, m01, m02, m03, m10, m11, m12, m13, m20, m21, m22, m23, m30, m31, m32, m33⟩ =>
    ⟨f m00, f m01, f m02, f m03, f m10, f m11, f m12, f m13, f m20, f m21, f m22, f m23, f m30, f m31,
      f m32, f m33⟩

def transpose : MatrixArray K → MatrixArray K
  | ⟨m00, m01, m02, m03, m10, m11, m12, m13, m20, m21, m22, m23, m30, m31, m32, m33⟩ =>
    ⟨m00, m10, m20, m30, m01, m11, m21, m31, m02, m12, m22, m32, m03, m13, m23, m33⟩

variable [Field K]

def createIdentityMatrix : MatrixArray K :=
  ⟨1, 0, 0, 0, 0, 1, 0, 0, 0, 0, 1, 0, 0, 0, 0, 1⟩

def multiplyInto : MatrixArray K → MatrixArray K → MatrixArray K
  | ⟨a00, a01, a02, a03, a10, a11, a12, a13, a20, a21, a22, a23, a30, a31, a32, a33⟩,
    ⟨b00, b01, b02, b03, b10, b11, b12, b13, b20, b21, b22, b23, b30, b31, b32, b33⟩ =>
    ⟨b00 * a00 + b01 * a10 + b02 * a20 + b03 * a30,
      b00 * a01 + b01 * a11 + b02 * a21 + b03 * a31,
      b00 * a02 + b01 * a12 + b02 * a22 + b03 * a32,
      b00 * a03 + b01 * a13 + b02 * a23 + b03 * a33,
      b10 * a00 + b11 * a10 + b12 * a20 + b13 * a30,
      b10 * a01 + b11 * a11 + b12 * a21 + b13 * a31,
      b10 * a02 + b11 * a12 + b12 * a22 + b13 * a32,
      b10 * a03 + b11 * a13 + b12 * a23 + b13 * a33,
      b20 * a00 + b21 * a10 + b22 * a20 + b23 * a30,
      b20 * a01 + b21 * a11 + b22 * a21 + b23 * a31,
      b20 * a02 + b21 * a12 + b22 * a22 + b23 * a32,
      b20 * a03 + b21 * a13 + b22 * a23 + b23 * a33,
      b30 * a00 + b31 * a10 + b32 * a20 + b33 * a30,
      b30 * a01 + b31 * a11 + b32 * a21 + b33 * a31,
      b30 * a02 + b31 * a12 + b32 * a22 + b33 * a32,
      b30 * a03 + b31 * a13 + b32 * a23 + b33 * a33⟩

def determinant : MatrixArray K → K
  | ⟨m00, m01, m02, m03, m10, m11, m12, m13, m20, m21, m22, m23, m30, m31, m32, m33⟩ =>
    m03 * m12 * m21 * m30 - m02 * m13 * m21 * m30 - m03 * m11 * m22 * m30 + m01 * m13 * m22 * m30
    + m02 * m11 * m23 * m30 - m01 * m12 * m23 * m30 - m03 * m12 * m20 * m31 + m02 * m13 * m20 * m31
    + m03 * m10 * m22 * m31 - m00 * m13 * m22 * m31 - m02 * m10 * m23 * m31 + m00 * m12 * m23 * m31
    + m03 * m11 * m20 * m32 - m01 * m13 * m20 * m32 - m03 * m10 * m21 * m32 + m00 * m13 * m21 * m32
    + m01 * m10 * m23 * m32 - m00 * m11 * m23 * m32 - m02 * m11 * m20 * m33 + m01 * m12 * m20 * m33
    + m02 * m10 * m21 * m33 - m00 * m12 * m21 * m33 - m01 * m10 * m22 * m33 + m00 * m11 * m22 * m33

def multiplyVectorByMatrix (m : MatrixArray K) : K × K × K × K → K × K × K × K
  | (vx, vy, vz, vw) =>
    (vx * m.m00 + vy * m.m10 + vz * m.m20 + vw * m.m30,
      vx * m.m01 + vy * m.m11 + vz * m.m21 + vw * m.m31,
      vx * m.m02 + vy * m.m12 + vz * m.m22 + vw * m.m32,
      vx * m.m03 + vy * m.m13 + vz * m.m23 + vw * m.m33)

/-- `inverse` past the test of the determinant. -/
def scaledAdjugate : K → MatrixArray K → MatrixArray K
  | det, ⟨m00, m01, m02, m03, m10, m11, m12, m13, m20, m21, m22, m23, m30, m31, m32, m33⟩ =>
    ⟨(m12 * m23 * m31 - m13 * m22 * m31 + m13 * m21 * m32 - m11 * m23 * m32 - m12 * m21 * m33
      + m11 * m22 * m33) / det,
      (m03 * m22 * m31 - m02 * m23 * m31 - m03 * m21 * m32 + m01 * m23 * m32 + m02 * m21 * m33
      - m01 * m22 * m33) / det,
      (m02 * m13 * m31 - m03 * m12 * m31 + m03 * m11 * m32 - m01 * m13 * m32 - m02 * m11 * m33
      + m01 * m12 * m33) / det,
      (m03 * m12 * m21 - m02 * m13 * m21 - m03 * m11 * m22 + m01 * m13 * m22 + m02 * m11 * m23
      - m01 * m12 * m23) / det,
      (m13 * m22 * m30 - m12 * m23 * m30 - m13 * m20 * m32 + m10 * m23 * m32 + m12 * m20 * m33
      - m10 * m22 * m33) / det,
      (m02 * m23 * m30 - m03 * m22 * m30 + m03 * m20 * m32 - m00 * m23 * m32 - m02 * m20 * m33
      + m00 * m22 * m33) / det,
      (m03 * m12 * m30 - m02 * m13 * m30 - m03 * m10 * m32 + m00 * m13 * m32 + m02 * m10 * m33
      - m00 * m12 * m33) / det,
      (m02 * m13 * m20 - m03 * m12 * m20 + m03 * m10 * m22 - m00 * m13 * m22 - m02 * m10 * m23
      + m00 * m12 * m23) / det,
      (m11 * m23 * m30 - m13 * m21 * m30 + m13 * m20 * m31 - m10 * m23 * m31 - m11 * m20 * m33
      + m10 * m21 * m33) / det,
      (m03 * m21 * m30 - m01 * m23 * m30 - m03 * m20 * m31 + m00 * m23 * m31 + m01 * m20 * m33
      - m00 * m21 * m33) / det,
      (m01 * m13 * m30 - m03 * m11 * m30 + m03 * m10 * m31 - m00 * m13 * m31 - m01 * m10 * m33
      + m00 * m11 * m33) / det,
      (m03 * m11 * m20 - m01 * m13 * m20 - m03 * m10 * m21 + m00 * m13 * m21 + m01 * m10 * m23
      - m00 * m11 * m23) / det,
      (m12 * m21 * m30 - m11 * m22 * m30 - m12 * m20 * m31 + m10 * m22 * m31 + m11 * m20 * m32
      - m10 * m21 * m32) / det,
      (m01 * m22 * m30 - m02 * m21 * m30 + m02 * m20 * m31 - m00 * m22 * m31 - m01 * m20 * m32
      + m00 * m21 * m32) / det,
      (m02 * m11 * m30 - m01 * m12 * m30 - m02 * m10 * m31 + m00 * m12 * m31 + m01 * m10 * m32
      - m00 * m11 * m32) / det,
      (m01 * m12 * m20 - m02 * m11 * m20 + m02 * m10 * m21 - m00 * m12 * m21 - m01 * m10 * m22
      + m00 * m11 * m22) / det⟩

/-- `inverse`, with what is taken for zero. -/
def inverse (isZero : K → Bool) (matrix : MatrixArray K) : MatrixArray K :=
  if isZero matrix.determinant then matrix else scaledAdjugate matrix.determinant matrix

theorem toMatrix_multiplyInto (a b : MatrixArray K) :
    (multiplyInto a b).toMatrix = b.toMatrix * a.toMatrix := by
  ext i j
  rw [Matrix.mul_apply, Fin.sum_univ_four]
  fin_cases i <;> fin_cases j <;> rfl

theorem toMatrix_createIdentityMatrix : (createIdentityMatrix : MatrixArray K).toMatrix = 1 := by
  ext i j
  fin_cases i <;> fin_cases j <;> rfl

theorem determinant_eq_det (m : MatrixArray K) : m.determinant = m.toMatrix.det := by
  simp [toMatrix, Matrix.det_succ_row_zero, Fin.sum_univ_succ, Fin.succAbove, determinant]
  ring

theorem multiplyInto_scaledAdjugate {m : MatrixArray K} (regular : m.determinant ≠ 0) :
    multiplyInto (scaledAdjugate m.determinant m) m = createIdentityMatrix := by
  simp only [multiplyInto, scaledAdjugate, createIdentityMatrix, mul_div_assoc', ← add_div,
    mk.injEq, div_eq_iff regular, one_mul, zero_mul]
  simp only [determinant]
  refine ⟨?_, ?_, ?_, ?_, ?_, ?_, ?_, ?_, ?_, ?_, ?_, ?_, ?_, ?_, ?_, ?_⟩ <;> ring

/-- The product is the identity in either order. -/
def Inverts (m n : MatrixArray K) : Prop :=
  multiplyInto m n = createIdentityMatrix ∧ multiplyInto n m = createIdentityMatrix

theorem inverse_inverts {isZero : K → Bool} (zero : isZero 0 = true) {m : MatrixArray K}
    (regular : isZero m.determinant = false) : Inverts (inverse isZero m) m := by
  have nonzero : m.determinant ≠ 0 := fun none => by simp [none, zero] at regular
  have left : multiplyInto (inverse isZero m) m = createIdentityMatrix := by
    rw [inverse, regular, if_neg Bool.false_ne_true, multiplyInto_scaledAdjugate nonzero]
  refine ⟨left, toMatrix_injective ?_⟩
  rw [toMatrix_multiplyInto, toMatrix_createIdentityMatrix, mul_eq_one_comm,
    ← toMatrix_multiplyInto, left, toMatrix_createIdentityMatrix]

theorem determinant_multiplyInto (a b : MatrixArray K) :
    (multiplyInto a b).determinant = a.determinant * b.determinant := by
  rw [determinant_eq_det, toMatrix_multiplyInto, Matrix.det_mul, mul_comm, determinant_eq_det,
    determinant_eq_det]

end MatrixArray

variable {K : Type*} [Field K] [LinearOrder K]

namespace MatrixMath

/-- The test `!d`. -/
def isZero (d : K) : Bool := d = 0

def inverse : MatrixArray K → MatrixArray K :=
  MatrixArray.inverse isZero

end MatrixMath

namespace MatrixMathHelper

def epsilon : K := 1 / 100000

def isZero (d : K) : Bool := |d| < epsilon

def inverse : MatrixArray K → MatrixArray K :=
  MatrixArray.inverse isZero

theorem isZero_zero [IsStrictOrderedRing K] : isZero (0 : K) = true := by
  simp [isZero, epsilon]

end MatrixMathHelper

open MatrixArray

/-- **The inverses are inverses on both sides**, where the code does not take the determinant for
zero, and the determinant is multiplicative. -/
theorem matrix_inverses (m n : MatrixArray ℚ) :
    (MatrixMath.isZero m.determinant = false → Inverts (MatrixMath.inverse m) m) ∧
      (MatrixMathHelper.isZero m.determinant = false → Inverts (MatrixMathHelper.inverse m) m) ∧
      (multiplyInto m n).determinant = m.determinant * n.determinant :=
  ⟨inverse_inverts (by simp [MatrixMath.isZero]), inverse_inverts MatrixMathHelper.isZero_zero,
    determinant_multiplyInto m n⟩

def perspectiveExample : MatrixArray ℚ :=
  ⟨2, 0, 0, 0, 0, 1, 0, -1, 0, 0, 1, 0, 3, 0, 5, 1⟩

theorem matrix_inverses_perspective : Inverts (MatrixMath.inverse perspectiveExample)
    perspectiveExample :=
  (matrix_inverses perspectiveExample perspectiveExample).1 (by decide +kernel)

end ReactNative

