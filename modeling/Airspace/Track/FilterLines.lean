import Airspace.Lib.LineFilter
import Airspace.Track.FilterAxes
import Airspace.Track.FilterCovariance
import Mathlib.Analysis.Matrix.PosDef

/-! The axes of the filter as filters on a line.

    Prediction mixes the position of an axis with the rate of the axis and with nothing else, so each axis
    moves as a filter on a line of its own, with the rate and the noise of the axis. -/

namespace Airspace

noncomputable section

open Matrix

/-- The position and the rate of an axis. -/
def axisRows : Fin 3 → StateRow × StateRow := ![(rowEast, rowVEast), (rowNorth, rowVNorth), (rowAlt, rowVRate)]

/-- How far a unit of the rate of an axis moves its position in `dtS` seconds. -/
def axisRate (dtS : ℝ) : Fin 3 → ℝ := ![knotsToNmPerSecond 1 * dtS, knotsToNmPerSecond 1 * dtS, dtS / 60]

/-- How far a unit of acceleration on an axis moves its position in `dtS` seconds. -/
def axisGain (dtS : ℝ) : Fin 3 → ℝ :=
  ![0.5 * dtS ^ 2 * knotsToNmPerSecond 1, 0.5 * dtS ^ 2 * knotsToNmPerSecond 1, 0.5 * dtS ^ 2 / 60]

/-- The variance of the acceleration on an axis. -/
def axisNoise (t : FilterTuning) : Fin 3 → ℝ :=
  ![t.processNoiseAccelKtS ^ 2, t.processNoiseAccelKtS ^ 2, t.processNoiseVerticalFpmS ^ 2]

theorem axisOf_axisRows (a : Fin 3) : axisOf (axisRows a).1 = a ∧ axisOf (axisRows a).2 = a := by
  revert a
  decide

theorem axisRows_ne (a : Fin 3) : (axisRows a).1 ≠ (axisRows a).2 := by
  revert a
  decide

/-- The rows of an axis are its position and its rate. -/
theorem eq_of_axisOf {a : Fin 3} {i : StateRow} (h : axisOf i = a) :
    i = (axisRows a).1 ∨ i = (axisRows a).2 := by
  revert a i
  decide

/-- Of a product with a matrix without entries between two axes, a row of an axis sees the two rows of that
    axis. -/
theorem AxisBlock.mul_apply {m : StateMatrix} (hm : AxisBlock m) (b : StateMatrix) {a : Fin 3} {i : StateRow}
    (hi : axisOf i = a) (j : StateRow) :
    (m * b) i j = m i (axisRows a).1 * b (axisRows a).1 j + m i (axisRows a).2 * b (axisRows a).2 j := by
  rw [Matrix.mul_apply, ← Finset.sum_pair (axisRows_ne a) (f := fun k => m i k * b k j)]
  refine (Finset.sum_subset (Finset.subset_univ _) fun k _ hk => ?_).symm
  have hoff : axisOf i ≠ axisOf k := by
    intro hik
    have := eq_of_axisOf (hik.symm.trans hi)
    simp [this] at hk
  rw [hm i k hoff, zero_mul]

theorem transition_axis (dtS : ℝ) (a : Fin 3) :
    transition dtS (axisRows a).1 = Pi.single (axisRows a).1 1 + Pi.single (axisRows a).2 (axisRate dtS a) ∧
      transition dtS (axisRows a).2 = Pi.single (axisRows a).2 1 := by
  fin_cases a <;> constructor <;> ext j <;> fin_cases j <;>
    simp [axisRows, axisRate, transition, setEntry, rowAlt, rowVRate, rowEast, rowVEast, rowNorth, rowVNorth]

theorem processNoise_axis (t : FilterTuning) (dtS : ℝ) (a : Fin 3) :
    processNoise t dtS (axisRows a).1 (axisRows a).1 = axisGain dtS a * axisGain dtS a * axisNoise t a ∧
      processNoise t dtS (axisRows a).1 (axisRows a).2 = axisGain dtS a * dtS * axisNoise t a ∧
      processNoise t dtS (axisRows a).2 (axisRows a).2 = dtS * dtS * axisNoise t a := by
  fin_cases a <;>
    simp [axisRows, axisGain, axisNoise, processNoise, setEntry, rowAlt, rowVRate, rowEast, rowVEast, rowNorth,
      rowVNorth]

theorem axisRate_pos {dtS : ℝ} (hdt : 0 < dtS) (a : Fin 3) : 0 < axisRate dtS a := by
  have hknots : 0 < knotsToNmPerSecond 1 := by norm_num [knotsToNmPerSecond]
  fin_cases a <;> simp only [axisRate] <;> simp <;> positivity

theorem axisGain_nonneg (dtS : ℝ) (a : Fin 3) : 0 ≤ axisGain dtS a := by
  have hknots : 0 ≤ knotsToNmPerSecond 1 := by norm_num [knotsToNmPerSecond]
  fin_cases a <;> simp only [axisGain] <;> simp <;> positivity

theorem axisNoise_nonneg (t : FilterTuning) (a : Fin 3) : 0 ≤ axisNoise t a := by
  fin_cases a <;> exact sq_nonneg _

namespace TrackFilter

variable {f : TrackFilter}

/-- An entry carried through the transition on both sides. -/
theorem conj_apply (a m : StateMatrix) (i j : StateRow) : (a * m * aᵀ) i j = a i ⬝ᵥ (m *ᵥ a j) := by
  rw [Matrix.mul_assoc, Matrix.mul_apply']
  rfl

/-- An axis of the filter, as a filter on a line. -/
def axisLine (f : TrackFilter) (a : Fin 3) : LineFilter where
  position := f.x (axisRows a).1
  velocity := f.x (axisRows a).2
  pp := f.p (axisRows a).1 (axisRows a).1
  pv := f.p (axisRows a).1 (axisRows a).2
  vv := f.p (axisRows a).2 (axisRows a).2

/-- Prediction moves each axis along its own rate. -/
theorem axisLine_predict {dtS : ℝ} (hsymm : f.p.IsSymm) (hdt : 0 < dtS) (a : Fin 3) :
    (f.predict dtS).axisLine a =
      (f.axisLine a).predict (axisRate dtS a) (axisGain dtS a) dtS (axisNoise f.tuning a) := by
  have hvp : f.p (axisRows a).2 (axisRows a).1 = f.p (axisRows a).1 (axisRows a).2 := hsymm.apply _ _
  obtain ⟨hposition, hrate⟩ := transition_axis dtS a
  obtain ⟨hpp, hpv, hvv⟩ := processNoise_axis f.tuning dtS a
  rw [predict, if_neg (not_le.mpr hdt)]
  unfold axisLine LineFilter.predict
  simp only [LineFilter.mk.injEq, Matrix.add_apply, conj_apply, hposition, hrate, hpp, hpv, hvv,
    Matrix.mulVec, add_dotProduct, dotProduct_add, single_dotProduct, dotProduct_single, hvp]
  refine ⟨?_, ?_, ?_, ?_, ?_⟩ <;> ring

/-- The line of an axis of a positive definite covariance. -/
theorem axisLine_pos (h : f.p.PosDef) (a : Fin 3) : 0 < (f.axisLine a).pp ∧ 0 < (f.axisLine a).vv ∧
    (f.axisLine a).pv ^ 2 < (f.axisLine a).pp * (f.axisLine a).vv := by
  have hinj : Function.Injective ![(axisRows a).1, (axisRows a).2] := by
    revert a
    decide
  have hdet := (h.submatrix hinj).det_pos
  have hvp : f.p (axisRows a).2 (axisRows a).1 = f.p (axisRows a).1 (axisRows a).2 :=
    (isSymm_of_posDef h).apply _ _
  rw [det_fin_two] at hdet
  simp [hvp] at hdet
  refine ⟨h.diag_pos, h.diag_pos, ?_⟩
  simp only [axisLine]
  linarith [sq (f.p (axisRows a).1 (axisRows a).2)]

end TrackFilter

end

end Airspace
