import Airspace.Track.Kalman
import Mathlib.Data.Matrix.Mul
import Mathlib.Algebra.BigOperators.Fin

/-! The three axes of the filter.

    East, north and altitude, each with its rate, evolve apart: the transition and the process noise
    have no entry between two axes, so prediction never correlates them, and a measurement of one axis
    does not move another. -/

namespace Airspace

noncomputable section

open Matrix

/-- The axis a row of the state belongs to. -/
def axisOf : StateRow → Fin 3 := ![0, 1, 0, 1, 2, 2]

/-- No entry between two axes. -/
def AxisBlock (m : StateMatrix) : Prop := ∀ i j, axisOf i ≠ axisOf j → m i j = 0

theorem AxisBlock.add {a b : StateMatrix} (ha : AxisBlock a) (hb : AxisBlock b) : AxisBlock (a + b) := by
  intro i j h
  rw [Matrix.add_apply, ha i j h, hb i j h, add_zero]

theorem AxisBlock.transpose {a : StateMatrix} (ha : AxisBlock a) : AxisBlock aᵀ :=
  fun i j h => ha j i h.symm

theorem AxisBlock.mul {a b : StateMatrix} (ha : AxisBlock a) (hb : AxisBlock b) : AxisBlock (a * b) := by
  intro i j h
  rw [Matrix.mul_apply]
  refine Finset.sum_eq_zero fun k _ => ?_
  by_cases hk : axisOf i = axisOf k
  · rw [hb k j (hk ▸ h), mul_zero]
  · rw [ha i k hk, zero_mul]

theorem AxisBlock.setEntry {m : StateMatrix} (hm : AxisBlock m) {i j : StateRow} {v : ℝ}
    (h : axisOf i = axisOf j) : AxisBlock (setEntry m i j v) := by
  intro a b hab
  unfold Airspace.setEntry
  rw [if_neg, hm a b hab]
  rintro ⟨rfl, rfl⟩
  exact hab h

theorem axisBlock_zero : AxisBlock 0 := fun _ _ _ => rfl

theorem axisBlock_diagonal (d : StateVector) : AxisBlock (diagonal d) := by
  intro i j h
  exact diagonal_apply_ne d fun hij => h (congrArg axisOf hij)

theorem axisBlock_transition (dtS : ℝ) : AxisBlock (transition dtS) := by
  have h1 : AxisBlock (1 : StateMatrix) := by rw [← diagonal_one]; exact axisBlock_diagonal _
  unfold transition
  refine AxisBlock.setEntry (AxisBlock.setEntry (AxisBlock.setEntry h1 ?_) ?_) ?_ <;> decide

theorem axisBlock_processNoise (t : FilterTuning) (dtS : ℝ) : AxisBlock (processNoise t dtS) := by
  have hblock : ∀ {q : StateMatrix} {i j : StateRow} {a b c d : ℝ}, AxisBlock q → axisOf i = axisOf j →
      AxisBlock (setEntry (setEntry (setEntry (setEntry q i i a) i j b) j i c) j j d) :=
    fun hq h => (((hq.setEntry rfl).setEntry h).setEntry h.symm).setEntry rfl
  unfold processNoise
  simp only [List.foldl_cons, List.foldl_nil]
  exact hblock (hblock (hblock axisBlock_zero (by decide)) (by decide)) (by decide)

namespace TrackFilter

variable {f : TrackFilter}

/-- Prediction keeps the axes apart. -/
theorem axisBlock_predict (h : AxisBlock f.p) (dtS : ℝ) : AxisBlock (f.predict dtS).p := by
  unfold predict
  split_ifs
  · exact h
  · exact (((axisBlock_transition dtS).mul h).mul (axisBlock_transition dtS).transpose).add
      (axisBlock_processNoise _ _)

theorem axisBlock_init (refLat refLon lat lon alt speed track rate : ℝ) (tuning : FilterTuning) :
    AxisBlock (init refLat refLon lat lon alt speed track rate tuning).p := axisBlock_diagonal _

/-- Over `dtS` seconds the vertical rate moves the altitude and stays what it is. -/
theorem transition_mulVec_vertical (x : StateVector) (dtS : ℝ) :
    (transition dtS *ᵥ x) rowAlt = x rowAlt + dtS / 60 * x rowVRate ∧
      (transition dtS *ᵥ x) rowVRate = x rowVRate := by
  simp [Matrix.mulVec, dotProduct, Fin.sum_univ_six, transition, setEntry, rowAlt, rowVRate, rowEast,
    rowVEast, rowNorth, rowVNorth, Matrix.one_apply]

/-- Prediction flies the vertical rate. -/
theorem predict_vertical {dtS : ℝ} (h : 0 < dtS) :
    (f.predict dtS).x rowAlt = f.x rowAlt + dtS / 60 * f.x rowVRate ∧
      (f.predict dtS).x rowVRate = f.x rowVRate := by
  rw [predict, if_neg (not_le.mpr h)]
  exact transition_mulVec_vertical f.x dtS

/-- A row of the state whose axis is not measured is not corrected. -/
theorem gain_eq_zero (h : AxisBlock f.p) {rows : List MeasuredRow} {i : StateRow}
    (hi : ∀ m ∈ rows, axisOf i ≠ axisOf m.row) (j : Fin rows.length) : f.gain rows i j = 0 := by
  have hrow : ∀ k, (f.p * (measurementMatrix rows)ᵀ) i k = 0 := by
    intro k
    rw [Matrix.mul_apply]
    refine Finset.sum_eq_zero fun l _ => ?_
    rw [Matrix.transpose_apply, measurementMatrix]
    split_ifs with hl
    · rw [hl, h i _ (hi _ (List.get_mem rows k)), zero_mul]
    · rw [mul_zero]
  rw [gain, Matrix.mul_apply]
  exact Finset.sum_eq_zero fun k _ => by rw [hrow k, zero_mul]

/-- Without a vertical field in the report the altitude is the predicted one. -/
theorem update_altitude (h : AxisBlock f.p) {dtS : ℝ} (hdt : 0 < dtS) (lat lon : ℝ)
    (speed track : Option ℝ) : (f.update dtS lat lon none speed track none).x rowAlt =
      f.x rowAlt + dtS / 60 * f.x rowVRate := by
  have hrows : ∀ m ∈ (f.predict dtS).measuredRows lat lon none speed track none,
      axisOf rowAlt ≠ axisOf m.row := by
    cases speed <;> cases track <;>
      simp [measuredRows, axisOf, rowAlt, rowEast, rowNorth, rowVEast, rowVNorth]
  have hgain := gain_eq_zero (axisBlock_predict h dtS) hrows
  rw [← (predict_vertical (f := f) hdt).1]
  simp only [update, correct, Pi.add_apply, Matrix.mulVec, dotProduct]
  rw [add_eq_left]
  exact Finset.sum_eq_zero fun k _ => by rw [hgain k, zero_mul]

end TrackFilter

end

end Airspace
