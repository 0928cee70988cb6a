import ReactNative.Utilities.MatrixMath
import Mathlib.Data.Real.Sqrt
import Mathlib.Tactic.LinearCombination

/-! `decomposeMatrix` of JavaScript and Android, up to the rows that it makes orthonormal, from
which the rotation is read. -/
namespace ReactNative

open MatrixMathHelper

@[ext]
structure Vector3 (K : Type*) where
  (x y z : K)

namespace Vector3

variable {K : Type*} [Field K]

instance : Add (Vector3 K) := ⟨fun a b => ⟨a.x + b.x, a.y + b.y, a.z + b.z⟩⟩

instance : SMul K (Vector3 K) := ⟨fun k a => ⟨k * a.x, k * a.y, k * a.z⟩⟩

@[simp] theorem add_eq (a b : Vector3 K) : a + b = ⟨a.x + b.x, a.y + b.y, a.z + b.z⟩ := rfl

@[simp] theorem smul_eq (k : K) (a : Vector3 K) : k • a = ⟨k * a.x, k * a.y, k * a.z⟩ := rfl

def v3Dot (a b : Vector3 K) : K := a.x * b.x + a.y * b.y + a.z * b.z

def v3Combine (a b : Vector3 K) (aScale bScale : K) : Vector3 K :=
  ⟨aScale * a.x + bScale * b.x, aScale * a.y + bScale * b.y, aScale * a.z + bScale * b.z⟩

def v3Cross (a b : Vector3 K) : Vector3 K :=
  ⟨a.y * b.z - a.z * b.y, a.z * b.x - a.x * b.z, a.x * b.y - a.y * b.x⟩

def triple (a b c : Vector3 K) : K := v3Dot a (v3Cross b c)

variable (isZero : K → Bool) (sqrt : K → K)

def v3Length (a : Vector3 K) : K := sqrt (a.x * a.x + a.y * a.y + a.z * a.z)

def v3Normalize (vector : Vector3 K) (norm : K) : Vector3 K :=
  let im := 1 / (if isZero norm then v3Length sqrt vector else norm)
  ⟨vector.x * im, vector.y * im, vector.z * im⟩

end Vector3

open ReactNative.Vector3

/-- What `decomposeMatrix` computes, with its local `row`. -/
structure MatrixDecomposition (K : Type*) where
  perspective : K × K × K × K
  (scale skew translation : Vector3 K)
  (row0 row1 row2 : Vector3 K)

section Code

variable {K : Type*} [Field K] [LinearOrder K] (isZero : K → Bool) (sqrt : K → K)

/-- From the scale of the first row to the check for a coordinate system flip. -/
def scaleAndShear (row0 row1 row2 : Vector3 K) :
    (perspective : K × K × K × K) → (translation : Vector3 K) → MatrixDecomposition K :=
  let scale0 := v3Length sqrt row0
  let row0 := v3Normalize isZero sqrt row0 scale0
  let skew0 := v3Dot row0 row1
  let row1 := v3Combine row1 row0 1 (-skew0)
  let skew0 := v3Dot row0 row1
  let row1 := v3Combine row1 row0 1 (-skew0)
  let scale1 := v3Length sqrt row1
  let row1 := v3Normalize isZero sqrt row1 scale1
  let skew0 := skew0 / scale1
  let skew1 := v3Dot row0 row2
  let row2 := v3Combine row2 row0 1 (-skew1)
  let skew2 := v3Dot row1 row2
  let row2 := v3Combine row2 row1 1 (-skew2)
  let scale2 := v3Length sqrt row2
  let row2 := v3Normalize isZero sqrt row2 scale2
  let skew1 := skew1 / scale2
  let skew2 := skew2 / scale2
  let pdum3 := v3Cross row1 row2
  let sign : K := if v3Dot row0 pdum3 < 0 then -1 else 1
  fun perspective translation =>
    { perspective, translation
      scale := sign • ⟨scale0, scale1, scale2⟩
      skew := ⟨skew0, skew1, skew2⟩
      row0 := sign • row0
      row1 := sign • row1
      row2 := sign • row2 }

/-- `decomposeMatrix`, with what is taken for zero. -/
def decomposeMatrix (transformMatrix : MatrixArray K) : Option (MatrixDecomposition K) :=
  if isZero transformMatrix.m33 then none
  else
    let matrix := transformMatrix.map (· / transformMatrix.m33)
    let perspectiveMatrix := { matrix with m03 := 0, m13 := 0, m23 := 0, m33 := 1 }
    if isZero perspectiveMatrix.determinant then none
    else
      let rightHandSide := (matrix.m03, matrix.m13, matrix.m23, matrix.m33)
      let perspective :=
        if isZero matrix.m03 && isZero matrix.m13 && isZero matrix.m23 then (0, 0, 0, 1)
        else (perspectiveMatrix.inverse isZero).transpose.multiplyVectorByMatrix rightHandSide
      some (scaleAndShear isZero sqrt ⟨matrix.m00, matrix.m01, matrix.m02⟩
        ⟨matrix.m10, matrix.m11, matrix.m12⟩ ⟨matrix.m20, matrix.m21, matrix.m22⟩ perspective
        ⟨matrix.m30, matrix.m31, matrix.m32⟩)

end Code

/-! ## The rows -/

/-- Orthonormal with positive orientation. -/
structure Oriented (a b c : Vector3 ℝ) : Prop where
  units : v3Dot a a = 1 ∧ v3Dot b b = 1 ∧ v3Dot c c = 1
  orthogonal : v3Dot a b = 0 ∧ v3Dot a c = 0 ∧ v3Dot b c = 0
  positive : 0 < triple a b c

section Rows

variable {a b c : Vector3 ℝ}

theorem v3Dot_self_nonneg (a : Vector3 ℝ) : 0 ≤ a.x * a.x + a.y * a.y + a.z * a.z := by
  nlinarith [sq_nonneg a.x, sq_nonneg a.y, sq_nonneg a.z]

theorem eq_zero_of_v3Length (none : v3Length Real.sqrt a = 0) : a = ⟨0, 0, 0⟩ := by
  have sum := (Real.sqrt_eq_zero (v3Dot_self_nonneg a)).1 none
  ext <;> nlinarith [sq_nonneg a.x, sq_nonneg a.y, sq_nonneg a.z]

theorem normalized (isZero : ℝ → Bool) (nonzero : a ≠ ⟨0, 0, 0⟩) :
    ∃ s e, v3Length Real.sqrt a = s ∧ v3Normalize isZero Real.sqrt a s = e ∧
      a = s • e ∧ v3Dot e e = 1 ∧ s ≠ 0 := by
  have length : v3Length Real.sqrt a ≠ 0 := fun none => nonzero (eq_zero_of_v3Length none)
  refine ⟨_, _, rfl, rfl, ?_, ?_, length⟩
  · ext <;> simp [v3Normalize] <;> field_simp
  · have square : v3Length Real.sqrt a * v3Length Real.sqrt a = _ :=
      Real.mul_self_sqrt (v3Dot_self_nonneg a)
    simp only [v3Normalize, v3Dot, ite_self]
    field_simp
    linarith

theorem sheared (unit : v3Dot a a = 1) : v3Dot a (v3Combine b a 1 (-v3Dot a b)) = 0 ∧
      b = v3Combine b a 1 (-v3Dot a b) + v3Dot a b • a := by
  constructor
  · simp only [v3Dot, v3Combine] at unit ⊢
    linear_combination -(a.x * b.x + a.y * b.y + a.z * b.z) * unit
  · ext <;> simp [v3Combine]

theorem v3Combine_zero (a b : Vector3 ℝ) : v3Combine a b 1 (-0) = a := by
  ext <;> simp [v3Combine]

variable {e₀ e₁ e₂ : Vector3 ℝ}

theorem flipped (units : v3Dot e₀ e₀ = 1 ∧ v3Dot e₁ e₁ = 1 ∧ v3Dot e₂ e₂ = 1)
    (orthogonal : v3Dot e₀ e₁ = 0 ∧ v3Dot e₀ e₂ = 0 ∧ v3Dot e₁ e₂ = 0)
    (regular : triple e₀ e₁ e₂ ≠ 0) :
    ∃ sign : ℝ, (if v3Dot e₀ (v3Cross e₁ e₂) < 0 then -1 else 1 : ℝ) = sign ∧ sign * sign = 1 ∧
      Oriented (sign • e₀) (sign • e₁) (sign • e₂) := by
  refine ⟨_, rfl, by split <;> norm_num, ?_⟩
  split
  next flip =>
    constructor
    · simpa [v3Dot] using units
    · simpa [v3Dot] using orthogonal
    · simp only [triple, v3Dot, v3Cross, smul_eq] at flip ⊢
      linarith
  next keep =>
    constructor
    · simpa [v3Dot] using units
    · simpa [v3Dot] using orthogonal
    · have positive := lt_of_le_of_ne (not_lt.1 keep) (Ne.symm regular)
      simpa [triple, v3Dot, v3Cross] using positive

theorem v3Dot_of_smul {k : ℝ} (nonzero : k ≠ 0) (scaled : v3Dot a (k • b) = 0) : v3Dot a b = 0 := by
  refine (mul_eq_zero.1 (?_ : k * v3Dot a b = 0)).resolve_left nonzero
  simp only [v3Dot, smul_eq] at scaled ⊢
  linarith

theorem v3Dot_add_smul (k : ℝ) : v3Dot a (b + k • c) = v3Dot a b + k * v3Dot a c := by
  simp only [v3Dot, add_eq, smul_eq]
  ring

theorem triple_sheared (s₀ s₁ s₂ k p q : ℝ) :
    triple (s₀ • e₀) (s₁ • e₁ + k • e₀) (s₂ • e₂ + q • e₁ + p • e₀) =
      s₀ * s₁ * s₂ * triple e₀ e₁ e₂ := by
  simp only [triple, v3Dot, v3Cross, add_eq, smul_eq]
  ring

/-- The parts that the rows are taken into; the shear of the second row is lost. -/
structure Orthogonalizes (d : MatrixDecomposition ℝ) (a b c : Vector3 ℝ) : Prop where
  oriented : Oriented d.row0 d.row1 d.row2
  scaled : d.scale.x ≠ 0
  unsheared : d.skew.x = 0
  first : a = d.scale.x • d.row0
  second : b = d.scale.y • d.row1 + v3Dot d.row0 b • d.row0
  third : c = d.scale.z • (d.row2 + d.skew.y • d.row0 + d.skew.z • d.row1)

theorem scaleAndShear_spec (isZero : ℝ → Bool) (regular : triple a b c ≠ 0) (perspective translation) :
    Orthogonalizes (scaleAndShear isZero Real.sqrt a b c perspective translation) a b c := by
  unfold scaleAndShear
  have first : a ≠ ⟨0, 0, 0⟩ := by
    rintro rfl
    simp [triple, v3Dot] at regular
  obtain ⟨s₀, e₀, isLength₀, isRow₀, ofFirst, unit₀, length₀⟩ := normalized isZero first
  rw [isLength₀, isRow₀]
  -- The second block finds nothing to take out of the row.
  obtain ⟨orthogonal₁, ofSecond⟩ := sheared (b := b) unit₀
  rw [orthogonal₁, v3Combine_zero]
  generalize v3Combine b e₀ 1 (-v3Dot e₀ b) = b' at *
  have second : b' ≠ ⟨0, 0, 0⟩ := by
    rintro rfl
    apply regular
    rw [ofFirst, ofSecond]
    simp [triple, v3Dot, v3Cross]
    ring
  obtain ⟨s₁, e₁, isLength₁, isRow₁, ofRow₁, unit₁, length₁⟩ := normalized isZero second
  rw [isLength₁, isRow₁]
  have between₁ : v3Dot e₀ e₁ = 0 := v3Dot_of_smul length₁ (ofRow₁ ▸ orthogonal₁)
  obtain ⟨orthogonal₂, ofThird⟩ := sheared (b := c) unit₀
  obtain ⟨orthogonal₃, ofThird'⟩ := sheared (b := v3Combine c e₀ 1 (-v3Dot e₀ c)) unit₁
  generalize v3Combine c e₀ 1 (-v3Dot e₀ c) = c₁ at *
  generalize v3Combine c₁ e₁ 1 (-v3Dot e₁ c₁) = c₂ at *
  rw [ofThird', v3Dot_add_smul, between₁, mul_zero, add_zero] at orthogonal₂
  rw [ofThird'] at ofThird
  have third : c₂ ≠ ⟨0, 0, 0⟩ := by
    rintro rfl
    apply regular
    rw [ofFirst, ofSecond, ofRow₁, ofThird]
    simp [triple, v3Dot, v3Cross]
    ring
  obtain ⟨s₂, e₂, isLength₂, isRow₂, ofRow₂, unit₂, length₂⟩ := normalized isZero third
  rw [isLength₂, isRow₂]
  rw [ofRow₂] at orthogonal₂ orthogonal₃ ofThird
  rw [ofRow₁] at ofSecond
  have orthogonal : triple e₀ e₁ e₂ ≠ 0 := by
    rintro flat
    rw [ofFirst, ofSecond, ofThird, triple_sheared, flat, mul_zero] at regular
    exact regular rfl
  obtain ⟨sign, isSign, square, oriented⟩ := flipped ⟨unit₀, unit₁, unit₂⟩
    ⟨between₁, v3Dot_of_smul length₂ orthogonal₂, v3Dot_of_smul length₂ orthogonal₃⟩ orthogonal
  rw [isSign]
  have cancel (x : ℝ) (v : Vector3 ℝ) : (sign * x) • sign • v = x • v := by
    ext <;> simp only [smul_eq]
    · linear_combination x * v.x * square
    · linear_combination x * v.y * square
    · linear_combination x * v.z * square
  constructor
  · exact oriented
  · exact mul_ne_zero (by rintro rfl; simp at square) length₀
  · exact zero_div s₁
  · exact ofFirst.trans (cancel s₀ e₀).symm
  · have along : v3Dot (sign • e₀) b = sign * v3Dot e₀ b := by
      simp only [v3Dot, smul_eq]
      ring
    rw [along, cancel]
    exact ofSecond.trans (by rw [← cancel s₁ e₁]; rfl)
  · have parts (x y z : ℝ) : sign * s₂ * (sign * x + v3Dot e₀ c / s₂ * (sign * y) +
        v3Dot e₁ c₁ / s₂ * (sign * z)) = s₂ * x + v3Dot e₁ c₁ * z + v3Dot e₀ c * y := by
      field_simp
      linear_combination (s₂ * x + v3Dot e₁ c₁ * z + v3Dot e₀ c * y) * square
    refine ofThird.trans ?_
    ext <;> simp only [add_eq, smul_eq, parts]

end Rows

/-! ## The matrix -/

/-- The parts give the matrix back. -/
def Recomposes (d : MatrixDecomposition ℝ) (m : MatrixArray ℝ) : Prop :=
  ⟨m.m00, m.m01, m.m02⟩ = d.scale.x • d.row0 ∧
    ⟨m.m10, m.m11, m.m12⟩ = d.scale.y • (d.row1 + d.skew.x • d.row0) ∧
    ⟨m.m20, m.m21, m.m22⟩ = d.scale.z • (d.row2 + d.skew.y • d.row0 + d.skew.z • d.row1) ∧
    ⟨m.m30, m.m31, m.m32⟩ = d.translation

/-- The last column is `(0, 0, 0, 1)`. -/
def IsAffine (m : MatrixArray ℝ) : Prop := m.m03 = 0 ∧ m.m13 = 0 ∧ m.m23 = 0 ∧ m.m33 = 1

/-- The first two rows of the upper left part are orthogonal. -/
def Unsheared (m : MatrixArray ℝ) : Prop := m.m00 * m.m10 + m.m01 * m.m11 + m.m02 * m.m12 = 0

theorem decomposeMatrix_spec {isZero : ℝ → Bool} (zero : isZero 0 = true) (one : isZero 1 = false)
    {m : MatrixArray ℝ} (affine : IsAffine m) (regular : isZero m.determinant = false) :
    ∃ d, decomposeMatrix isZero Real.sqrt m = some d ∧ Oriented d.row0 d.row1 d.row2 ∧
      (Recomposes d m ↔ Unsheared m) := by
  obtain ⟨m00, m01, m02, m03, m10, m11, m12, m13, m20, m21, m22, m23, m30, m31, m32, m33⟩ := m
  obtain ⟨rfl, rfl, rfl, rfl⟩ : m03 = 0 ∧ m13 = 0 ∧ m23 = 0 ∧ m33 = 1 := affine
  have nonzero : triple (⟨m00, m01, m02⟩ : Vector3 ℝ) ⟨m10, m11, m12⟩ ⟨m20, m21, m22⟩ ≠ 0 := by
    intro flat
    refine Bool.false_ne_true (regular.symm.trans (zero ▸ congrArg isZero (Eq.trans ?_ flat)))
    simp only [MatrixArray.determinant, triple, v3Dot, v3Cross]
    ring
  have parts := scaleAndShear_spec isZero nonzero (0, 0, 0, 1) ⟨m30, m31, m32⟩
  have computed : decomposeMatrix isZero Real.sqrt
      ⟨m00, m01, m02, 0, m10, m11, m12, 0, m20, m21, m22, 0, m30, m31, m32, 1⟩ =
        some (scaleAndShear isZero Real.sqrt ⟨m00, m01, m02⟩ ⟨m10, m11, m12⟩ ⟨m20, m21, m22⟩
          (0, 0, 0, 1) ⟨m30, m31, m32⟩) := by
    simp [decomposeMatrix, MatrixArray.map, zero, one, regular]
  have translation : (scaleAndShear isZero Real.sqrt ⟨m00, m01, m02⟩ ⟨m10, m11, m12⟩
    ⟨m20, m21, m22⟩ (0, 0, 0, 1) ⟨m30, m31, m32⟩).translation = ⟨m30, m31, m32⟩ := rfl
  generalize scaleAndShear isZero Real.sqrt ⟨m00, m01, m02⟩ ⟨m10, m11, m12⟩ ⟨m20, m21, m22⟩
    (0, 0, 0, 1) ⟨m30, m31, m32⟩ = d at *
  refine ⟨d, computed, parts.oriented, ?_⟩
  have along : v3Dot d.row0 ⟨m10, m11, m12⟩ = 0 ↔ m00 * m10 + m01 * m11 + m02 * m12 = 0 := by
    obtain ⟨rfl, rfl, rfl⟩ := Vector3.mk.inj parts.first
    simp only [v3Dot, mul_assoc, ← mul_add, mul_eq_zero, parts.scaled, false_or]
  rw [Unsheared, ← along, Recomposes, parts.unsheared]
  constructor
  · rintro ⟨-, second, -⟩
    rw [second]
    have orthogonal := parts.oriented.orthogonal.1
    simp only [v3Dot, add_eq, smul_eq] at orthogonal ⊢
    linear_combination d.scale.y * orthogonal
  · intro none
    refine ⟨parts.first, parts.second.trans ?_, parts.third, translation.symm⟩
    ext <;> simp [none]

namespace MatrixMath

noncomputable def decomposeMatrix : MatrixArray ℝ → Option (MatrixDecomposition ℝ) :=
  ReactNative.decomposeMatrix isZero Real.sqrt

end MatrixMath

namespace MatrixMathHelper

noncomputable def decomposeMatrix : MatrixArray ℝ → Option (MatrixDecomposition ℝ) :=
  ReactNative.decomposeMatrix isZero Real.sqrt

end MatrixMathHelper

/-- **The parts give the matrix back exactly if its first two rows are orthogonal**, on both
platforms; the rows are orthonormal in any case. -/
theorem decomposeMatrix_recomposes_iff {m : MatrixArray ℝ} (affine : IsAffine m) :
    (MatrixMath.isZero m.determinant = false →
      ∃ d, MatrixMath.decomposeMatrix m = some d ∧ Oriented d.row0 d.row1 d.row2 ∧
        (Recomposes d m ↔ Unsheared m)) ∧
    (isZero m.determinant = false →
      ∃ d, MatrixMathHelper.decomposeMatrix m = some d ∧ Oriented d.row0 d.row1 d.row2 ∧
        (Recomposes d m ↔ Unsheared m)) := by
  constructor
  · exact decomposeMatrix_spec (by simp [MatrixMath.isZero]) (by simp [MatrixMath.isZero]) affine
  · refine decomposeMatrix_spec isZero_zero ?_ affine
    norm_num [isZero, epsilon]

def stretch : MatrixArray ℝ := ⟨2, 0, 0, 0, 0, 3, 0, 0, 0, 0, 1, 0, 5, 0, 0, 1⟩

theorem decomposeMatrix_recomposes_iff_stretch : ∃ d, MatrixMath.decomposeMatrix stretch = some d ∧
    Oriented d.row0 d.row1 d.row2 ∧ (Recomposes d stretch ↔ Unsheared stretch) :=
  (decomposeMatrix_recomposes_iff (m := stretch) (by simp [IsAffine, stretch])).1
    (by norm_num [MatrixMath.isZero, MatrixArray.determinant, stretch])

def skewed : MatrixArray ℝ := ⟨1, 0, 0, 0, 1, 1, 0, 0, 0, 0, 1, 0, 0, 0, 0, 1⟩

theorem skewed_not_recomposed : IsAffine skewed ∧ skewed.determinant = 1 ∧
    (∃ d, MatrixMath.decomposeMatrix skewed = some d ∧ ¬Recomposes d skewed) ∧
    ∃ d, MatrixMathHelper.decomposeMatrix skewed = some d ∧ ¬Recomposes d skewed := by
  have affine : IsAffine skewed := by simp [IsAffine, skewed]
  have determinant : skewed.determinant = 1 := by simp [MatrixArray.determinant, skewed]
  have sheared : ¬Unsheared skewed := by simp [Unsheared, skewed]
  have lost {isZero : ℝ → Bool} (zero : isZero 0 = true) (one : isZero 1 = false) :
      ∃ d, decomposeMatrix isZero Real.sqrt skewed = some d ∧ ¬Recomposes d skewed := by
    obtain ⟨d, decomposed, -, recomposes⟩ :=
      decomposeMatrix_spec zero one affine (determinant ▸ one)
    exact ⟨d, decomposed, fun back => sheared (recomposes.1 back)⟩
  refine ⟨affine, determinant, lost (by simp [MatrixMath.isZero]) (by simp [MatrixMath.isZero]),
    lost isZero_zero ?_⟩
  norm_num [isZero, epsilon]

end ReactNative

