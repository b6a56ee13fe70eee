import Airspace.Conformance.Probability
import Mathlib.Analysis.SpecialFunctions.Gaussian.GaussianIntegral

/-! What lies beyond nine sigmas.

    The disc is cut off nine sigmas from its edge, so a miss beyond that has probability zero. The band is not:
    beyond nine sigmas it has what the normal law leaves in its tail. -/

namespace Airspace

noncomputable section

open MeasureTheory

variable {x y : ℝ}

/-! ### The normal law -/

theorem intervalIntegrable_gaussian (a b : ℝ) : IntervalIntegrable (fun t : ℝ => Real.exp (-t ^ 2)) volume a b :=
  (by fun_prop : Continuous fun t : ℝ => Real.exp (-t ^ 2)).intervalIntegrable a b

theorem erf_mono : Monotone erf := by
  intro x y hxy
  refine mul_le_mul_of_nonneg_left ?_ (by positivity)
  have hsplit := intervalIntegral.integral_add_adjacent_intervals (intervalIntegrable_gaussian 0 x)
    (intervalIntegrable_gaussian x y)
  have hrest : 0 ≤ ∫ t in x..y, Real.exp (-t ^ 2) :=
    intervalIntegral.integral_nonneg hxy fun t _ => (Real.exp_pos _).le
  linarith

theorem erf_neg (x : ℝ) : erf (-x) = -erf x := by
  have hreflect : ∫ t in (0 : ℝ)..-x, Real.exp (-t ^ 2) = -∫ t in (0 : ℝ)..x, Real.exp (-t ^ 2) := by
    have h := intervalIntegral.integral_comp_neg (a := 0) (b := x) fun t : ℝ => Real.exp (-t ^ 2)
    simp only [neg_sq, neg_zero] at h
    rw [h, intervalIntegral.integral_symm]
  rw [erf, erf, hreflect, mul_neg]

/-- Half of the Gaussian integral bounds what lies between zero and any point. -/
theorem erf_le_one (x : ℝ) : erf x ≤ 1 := by
  rcases le_or_gt x 0 with hx | hx
  · have hzero : erf 0 = 0 := by rw [erf, intervalIntegral.integral_same, mul_zero]
    exact ((erf_mono hx).trans_eq hzero).trans zero_le_one
  · have hall : ∫ t in Set.Ioi (0 : ℝ), Real.exp (-t ^ 2) = √Real.pi / 2 := by
      simpa using integral_gaussian_Ioi 1
    have hint : IntegrableOn (fun t : ℝ => Real.exp (-t ^ 2)) (Set.Ioi 0) := by
      simpa using (integrable_exp_neg_mul_sq (zero_lt_one' ℝ)).integrableOn
    have hpart : ∫ t in (0 : ℝ)..x, Real.exp (-t ^ 2) ≤ √Real.pi / 2 := by
      rw [intervalIntegral.integral_of_le hx.le, ← hall]
      exact setIntegral_mono_set hint (ae_of_all _ fun t => (Real.exp_pos _).le)
        Set.Ioc_subset_Ioi_self.eventuallyLE
    have hpi : 0 < √Real.pi := Real.sqrt_pos.mpr Real.pi_pos
    calc erf x ≤ 2 / √Real.pi * (√Real.pi / 2) := mul_le_mul_of_nonneg_left hpart (by positivity)
      _ = 1 := by field_simp

theorem normalCdf_nonneg (x : ℝ) : 0 ≤ normalCdf x := by
  have h := erf_le_one (-(x / √2))
  rw [erf_neg] at h
  unfold normalCdf
  linarith

theorem normalCdf_mono : Monotone normalCdf := by
  intro x y hxy
  have h := erf_mono (div_le_div_of_nonneg_right hxy (Real.sqrt_nonneg 2))
  unfold normalCdf
  linarith

/-! ### The disc and the band -/

/-- Beyond nine sigmas from its edge the disc has no mass. -/
theorem discProbability_of_beyond {missNm radiusNm sigmaNm : ℝ} (h0 : 0 ≤ sigmaNm)
    (h : sigmaCutoff * sigmaNm < missNm - radiusNm) : discProbability missNm radiusNm sigmaNm = 0 := by
  have hspan : 0 ≤ sigmaCutoff * sigmaNm := mul_nonneg (by norm_num [sigmaCutoff]) h0
  unfold discProbability
  split_ifs with hradius hsigma hmiss
  · rfl
  · exact absurd hmiss (by linarith)
  · rfl
  · simp only
    rw [if_pos]
    rw [← sub_div, gt_iff_lt, lt_div_iff₀ (not_le.mp hsigma)]
    exact h

theorem discProbability_le_one (missNm radiusNm sigmaNm : ℝ) : discProbability missNm radiusNm sigmaNm ≤ 1 := by
  unfold discProbability
  split_ifs
  · exact zero_le_one
  · exact le_rfl
  · exact zero_le_one
  · simp only
    split_ifs
    · exact zero_le_one
    · exact le_rfl
    · exact min_le_right _ _

/-- Beyond nine sigmas from its edge the band has at most the tail. -/
theorem bandProbability_le_tail {offsetFt halfWidthFt sigmaFt : ℝ} (hoffset : 0 ≤ offsetFt) (h0 : 0 ≤ sigmaFt)
    (h : sigmaCutoff * sigmaFt ≤ offsetFt - halfWidthFt) :
    bandProbability offsetFt halfWidthFt sigmaFt ≤ normalCdf (-sigmaCutoff) := by
  have htail := normalCdf_nonneg (-sigmaCutoff)
  have hspan : 0 ≤ sigmaCutoff * sigmaFt := mul_nonneg (by norm_num [sigmaCutoff]) h0
  unfold bandProbability
  split_ifs with hwidth hsigma hinside
  · exact htail
  · rw [abs_of_nonneg hoffset] at hinside
    exact absurd hinside (by linarith)
  · exact htail
  · refine max_le htail ?_
    have hupper : (halfWidthFt - offsetFt) / sigmaFt ≤ -sigmaCutoff := by
      rw [div_le_iff₀ (not_le.mp hsigma)]
      linarith
    exact (sub_le_self _ (normalCdf_nonneg _)).trans (normalCdf_mono hupper)

/-! ### Both -/

/-- Uncertainty grows with time. -/
theorem projectedSigma_mono (a b c d : ℝ) {t u : ℝ} (h0 : 0 ≤ t) (htu : t ≤ u) :
    projectedSigma a b c d t ≤ projectedSigma a b c d u := by
  refine Real.sqrt_le_sqrt (max_le_max le_rfl (add_le_add_right ?_ _))
  have hrate : 0 ≤ c ^ 2 + d ^ 2 := add_nonneg (sq_nonneg c) (sq_nonneg d)
  rw [mul_assoc, mul_assoc]
  exact mul_le_mul_of_nonneg_left (mul_self_le_mul_self h0 htu) hrate

theorem conflictProbability_of_beyond {h v σ τ s w : ℝ} (h0 : 0 ≤ σ) (hfar : sigmaCutoff * σ < h - s) :
    conflictProbability h v σ τ s w = 0 := by
  unfold conflictProbability
  rw [discProbability_of_beyond h0 hfar]
  exact if_pos le_rfl

theorem conflictProbability_le_tail {h v σ τ s w : ℝ} (hv : 0 ≤ v) (h0 : 0 ≤ τ)
    (hfar : sigmaCutoff * τ ≤ v - w) : conflictProbability h v σ τ s w ≤ normalCdf (-sigmaCutoff) := by
  simp only [conflictProbability]
  split_ifs with hzero
  · exact normalCdf_nonneg _
  · calc discProbability h s σ * bandProbability v w τ
        ≤ discProbability h s σ * normalCdf (-sigmaCutoff) :=
          mul_le_mul_of_nonneg_left (bandProbability_le_tail hv h0 hfar) (not_le.mp hzero).le
      _ ≤ 1 * normalCdf (-sigmaCutoff) :=
          mul_le_mul_of_nonneg_right (discProbability_le_one h s σ) (normalCdf_nonneg _)
      _ = normalCdf (-sigmaCutoff) := one_mul _

end

end Airspace
