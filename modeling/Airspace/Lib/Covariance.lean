import Mathlib.LinearAlgebra.Matrix.PosDef
import Mathlib.LinearAlgebra.Matrix.NonsingularInverse

/-! Covariances of a linear filter.

    A prediction carries a covariance through an invertible transition and adds noise that need not have
    full rank; a correction weighs the prediction against a measurement whose noise has. Both keep a
    positive definite covariance positive definite, and the covariance of the innovation is invertible.

        predict:  P ↦ F P Fᵀ + Q        innovate:  P ↦ H P Hᵀ + R
        correct:  P ↦ (1 - K H) P (1 - K H)ᵀ + K R Kᵀ       for every gain K

    With the gain `P Hᵀ (H P Hᵀ + R)⁻¹` a correction takes a positive semidefinite part off the covariance,
    and leaves `P'` with `P' (1 + Hᵀ R⁻¹ H P) = P`: the information of the measurement is added to that of
    the prediction. A relabelling of the state that the measurement allows goes through both. -/

namespace Airspace

namespace Covariance

open Matrix

variable {n m : Type*} [Fintype n] [Fintype m] {P F Q : Matrix n n ℝ} {H : Matrix m n ℝ} {R : Matrix m m ℝ}

/-- The quadratic form of a conjugated matrix. -/
theorem dotProduct_conj (A : Matrix n m ℝ) (M : Matrix m m ℝ) (x : n → ℝ) :
    x ⬝ᵥ ((A * M * Aᵀ) *ᵥ x) = (Aᵀ *ᵥ x) ⬝ᵥ (M *ᵥ (Aᵀ *ᵥ x)) := by
  rw [Matrix.mul_assoc, ← mulVec_mulVec, ← mulVec_mulVec, dotProduct_mulVec, ← mulVec_transpose]

theorem posSemidef_conj {M : Matrix m m ℝ} (hM : M.PosSemidef) (A : Matrix n m ℝ) :
    (A * M * Aᵀ).PosSemidef := by
  simpa using hM.mul_mul_conjTranspose_same A

/-- A prediction keeps a covariance positive definite. -/
theorem posDef_predict [DecidableEq n] (hP : P.PosDef) (hF : IsUnit F) (hQ : Q.PosSemidef) :
    (F * P * Fᵀ + Q).PosDef := by
  have hconj : (F * P * Fᵀ).PosDef := by
    simpa using hP.mul_mul_conjTranspose_same (vecMul_injective_of_isUnit hF)
  exact hconj.add_posSemidef hQ

/-- The covariance of the innovation is positive definite. -/
theorem posDef_innovation (hP : P.PosSemidef) (hR : R.PosDef) : (H * P * Hᵀ + R).PosDef :=
  hR.posSemidef_add (posSemidef_conj hP H)

/-- A correction in Joseph form keeps a covariance positive definite, whatever the gain. -/
theorem posDef_joseph [DecidableEq n] (hP : P.PosDef) (hR : R.PosDef) (K : Matrix n m ℝ) :
    ((1 - K * H) * P * (1 - K * H)ᵀ + K * R * Kᵀ).PosDef := by
  have hfirst := posSemidef_conj hP.posSemidef (1 - K * H)
  have hsecond := posSemidef_conj hR.posSemidef K
  refine PosDef.of_dotProduct_mulVec_pos (hfirst.add hsecond).isHermitian fun x hx => ?_
  rw [star_trivial, add_mulVec, dotProduct_add, dotProduct_conj, dotProduct_conj]
  by_cases hgain : Kᵀ *ᵥ x = 0
  · -- a direction the gain does not see is left as the prediction has it
    have hkept : (1 - K * H)ᵀ *ᵥ x = x := by
      rw [transpose_sub, transpose_one, transpose_mul, sub_mulVec, one_mulVec, ← mulVec_mulVec, hgain,
        mulVec_zero, sub_zero]
    rw [hkept, hgain, zero_dotProduct, add_zero]
    exact hP.dotProduct_mulVec_pos hx
  · have hnonneg := hP.posSemidef.dotProduct_mulVec_nonneg ((1 - K * H)ᵀ *ᵥ x)
    have hpos := hR.dotProduct_mulVec_pos hgain
    rw [star_trivial] at hnonneg hpos
    exact add_pos_of_nonneg_of_pos hnonneg hpos

theorem isSymm_of_posSemidef {k : Type*} {M : Matrix k k ℝ} (hM : M.PosSemidef) : M.IsSymm := by
  rw [IsSymm, ← conjTranspose_eq_transpose_of_trivial]
  exact hM.isHermitian

/-! ### The Joseph form -/

section Joseph

variable [DecidableEq n] {K : Matrix n m ℝ}

/-- Correction in Joseph form. -/
def joseph (P : Matrix n n ℝ) (H : Matrix m n ℝ) (R : Matrix m m ℝ) (K : Matrix n m ℝ) : Matrix n n ℝ :=
  (1 - K * H) * P * (1 - K * H)ᵀ + K * R * Kᵀ

theorem joseph_zero (P : Matrix n n ℝ) (H : Matrix m n ℝ) (R : Matrix m m ℝ) : joseph P H R 0 = P := by
  simp [joseph]

theorem posSemidef_joseph (hP : P.PosSemidef) (hR : R.PosSemidef) (K : Matrix n m ℝ) :
    (joseph P H R K).PosSemidef := (posSemidef_conj hP _).add (posSemidef_conj hR _)

/-- What the optimal gain leaves of the prediction, as the measurement sees it. -/
theorem sub_mul_transpose (hK : K * (H * P * Hᵀ + R) = P * Hᵀ) : (1 - K * H) * P * Hᵀ = K * R := by
  rw [Matrix.sub_mul, Matrix.one_mul, Matrix.sub_mul, ← hK, Matrix.mul_add, ← Matrix.mul_assoc,
    ← Matrix.mul_assoc, add_sub_cancel_left]

/-- The optimal gain makes the Joseph form the short one. -/
theorem joseph_eq (hK : K * (H * P * Hᵀ + R) = P * Hᵀ) : joseph P H R K = (1 - K * H) * P := by
  rw [joseph, transpose_sub, transpose_one, transpose_mul, Matrix.mul_sub, Matrix.mul_one,
    ← Matrix.mul_assoc, sub_mul_transpose hK, sub_add_cancel]

/-- What a correction takes off the covariance. -/
theorem sub_joseph (hP : P.IsSymm) (hR : R.IsSymm) (hK : K * (H * P * Hᵀ + R) = P * Hᵀ) :
    P - joseph P H R K = K * (H * P * Hᵀ + R) * Kᵀ := by
  have hS : (H * P * Hᵀ + R)ᵀ = H * P * Hᵀ + R := by
    rw [transpose_add, hR.eq, transpose_mul, transpose_mul, transpose_transpose, hP.eq, Matrix.mul_assoc]
  calc P - joseph P H R K = K * (H * P) := by
        rw [joseph_eq hK, Matrix.sub_mul, Matrix.one_mul, sub_sub_cancel, Matrix.mul_assoc]
    _ = K * (P * Hᵀ)ᵀ := by rw [transpose_mul, transpose_transpose, hP.eq]
    _ = K * (H * P * Hᵀ + R) * Kᵀ := by rw [← hK, transpose_mul, hS, ← Matrix.mul_assoc K]

/-- A correction with the optimal gain raises no variance. -/
theorem joseph_diag_le (hP : P.PosSemidef) (hR : R.PosSemidef) (hK : K * (H * P * Hᵀ + R) = P * Hᵀ)
    (i : n) : joseph P H R K i i ≤ P i i := by
  have hoff : (P - joseph P H R K).PosSemidef := by
    rw [sub_joseph (isSymm_of_posSemidef hP) (isSymm_of_posSemidef hR) hK]
    exact posSemidef_conj ((posSemidef_conj hP H).add hR) K
  exact sub_nonneg.mp (hoff.diag_nonneg (i := i))

/-- Relabelling state and measurement relabels the correction. -/
theorem joseph_submatrix (σ : Equiv.Perm n) (τ : Equiv.Perm m) (P : Matrix n n ℝ) (H : Matrix m n ℝ)
    (R : Matrix m m ℝ) (K : Matrix n m ℝ) :
    joseph (P.submatrix σ σ) (H.submatrix τ σ) (R.submatrix τ τ) (K.submatrix σ τ) =
      (joseph P H R K).submatrix σ σ := by
  have hrest : 1 - K.submatrix σ τ * H.submatrix τ σ = (1 - K * H).submatrix σ σ := by
    rw [submatrix_mul_equiv]
    exact congrArg (· - (K * H).submatrix σ σ) (submatrix_one_equiv σ).symm
  unfold joseph
  rw [hrest, transpose_submatrix, transpose_submatrix, submatrix_mul_equiv, submatrix_mul_equiv,
    submatrix_mul_equiv, submatrix_mul_equiv]
  rfl

end Joseph

/-! ### The optimal gain -/

section Gain

variable [DecidableEq m]

/-- `P Hᵀ (H P Hᵀ + R)⁻¹`. -/
noncomputable def gain (P : Matrix n n ℝ) (H : Matrix m n ℝ) (R : Matrix m m ℝ) : Matrix n m ℝ :=
  P * Hᵀ * (H * P * Hᵀ + R)⁻¹

theorem gain_mul_innovation (hS : IsUnit (H * P * Hᵀ + R)) : gain P H R * (H * P * Hᵀ + R) = P * Hᵀ := by
  rw [gain, Matrix.mul_assoc, nonsing_inv_mul _ ((isUnit_iff_isUnit_det _).mp hS), Matrix.mul_one]

/-- An innovation covariance that has no inverse leaves no gain. -/
theorem gain_eq_zero (hS : ¬ IsUnit (H * P * Hᵀ + R)) : gain P H R = 0 := by
  rw [gain, nonsing_inv_apply_not_isUnit _ fun h => hS ((isUnit_iff_isUnit_det _).mpr h), Matrix.mul_zero]

/-- Relabelling state and measurement relabels the gain. -/
theorem gain_submatrix (σ : Equiv.Perm n) (τ : Equiv.Perm m) (P : Matrix n n ℝ) (H : Matrix m n ℝ)
    (R : Matrix m m ℝ) :
    gain (P.submatrix σ σ) (H.submatrix τ σ) (R.submatrix τ τ) = (gain P H R).submatrix σ τ := by
  have hS : (H * P * Hᵀ).submatrix τ τ + R.submatrix τ τ = (H * P * Hᵀ + R).submatrix τ τ := rfl
  unfold gain
  rw [transpose_submatrix, submatrix_mul_equiv, submatrix_mul_equiv, submatrix_mul_equiv, hS,
    inv_submatrix_equiv, submatrix_mul_equiv]

/-- A correction adds the information of the measurement. -/
theorem joseph_mul_information [DecidableEq n] {K : Matrix n m ℝ} (hR : IsUnit R)
    (hK : K * (H * P * Hᵀ + R) = P * Hᵀ) :
    joseph P H R K * (1 + Hᵀ * R⁻¹ * H * P) = P := by
  have hgain : joseph P H R K * Hᵀ * R⁻¹ = K := by
    rw [joseph_eq hK, sub_mul_transpose hK, Matrix.mul_assoc,
      mul_nonsing_inv _ ((isUnit_iff_isUnit_det _).mp hR), Matrix.mul_one]
  rw [Matrix.mul_add, Matrix.mul_one, ← Matrix.mul_assoc, ← Matrix.mul_assoc, ← Matrix.mul_assoc, hgain,
    joseph_eq hK, Matrix.sub_mul, Matrix.one_mul, sub_add_cancel]

end Gain

end Covariance

end Airspace
