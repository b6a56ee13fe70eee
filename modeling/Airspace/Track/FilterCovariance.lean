import Airspace.Lib.Covariance
import Airspace.Track.Kalman
import Mathlib.Algebra.BigOperators.Fin
import Mathlib.Algebra.Order.Star.Real

/-! The covariance of the filter.

    The process noise is an unknown acceleration on each axis, so it has rank three of six; the transition
    can be undone by running time back. Prediction and correction in any order keep the covariance positive
    definite, and the innovation covariance a correction inverts is invertible. -/

namespace Airspace

noncomputable section

open Matrix

/-- Every noise assumption is positive. -/
structure FilterTuning.Positive (t : FilterTuning) : Prop where
  processNoiseAccelKtS : 0 < t.processNoiseAccelKtS
  processNoiseVerticalFpmS : 0 < t.processNoiseVerticalFpmS
  measurementPositionNm : 0 < t.measurementPositionNm
  measurementAltitudeFt : 0 < t.measurementAltitudeFt
  measurementSpeedKt : 0 < t.measurementSpeedKt
  initialPositionNm : 0 < t.initialPositionNm
  initialVelocityKt : 0 < t.initialVelocityKt
  initialAltitudeFt : 0 < t.initialAltitudeFt
  initialVerticalRateFpm : 0 < t.initialVerticalRateFpm

/-- A call on a filter. -/
inductive FilterCall where
  | predict (dtS : ℝ)
  | update (dtS lat lon : ℝ) (altitudeFt groundSpeedKt trackDeg verticalRateFpm : Option ℝ)

namespace TrackFilter

/-- The filter after a call. -/
def call (f : TrackFilter) : FilterCall → TrackFilter
  | .predict dtS => f.predict dtS
  | .update dtS lat lon altitudeFt groundSpeedKt trackDeg verticalRateFpm =>
    f.update dtS lat lon altitudeFt groundSpeedKt trackDeg verticalRateFpm

/-! ### Prediction -/

/-- Running time back undoes the transition. -/
theorem transition_mul_neg (dtS : ℝ) : transition dtS * transition (-dtS) = 1 := by
  ext i j
  fin_cases i <;> fin_cases j <;>
    simp [Matrix.mul_apply, Fin.sum_univ_six, transition, setEntry, rowAlt, rowVRate, rowEast, rowVEast,
      rowNorth, rowVNorth, Matrix.one_apply, neg_div]

theorem isUnit_transition (dtS : ℝ) : IsUnit (transition dtS) :=
  (isUnit_iff_isUnit_det _).mpr (isUnit_det_of_right_inverse (transition_mul_neg dtS))

/-- How an acceleration of a position and its rate moves the state. -/
def accelerates (pos vel : StateRow) (gain dtS : ℝ) : StateVector :=
  fun i => if i = pos then gain else if i = vel then dtS else 0

/-- The noise an unknown acceleration of an axis puts into its rows. -/
theorem noise_apply (pos vel : StateRow) (gain dtS variance : ℝ) (i j : StateRow) :
    (variance • vecMulVec (accelerates pos vel gain dtS) (star (accelerates pos vel gain dtS))) i j =
      variance * (accelerates pos vel gain dtS i * accelerates pos vel gain dtS j) := rfl

/-- It puts nothing into the other rows. -/
theorem noise_of_ne {pos vel i : StateRow} (gain dtS variance : ℝ) (j : StateRow) (hpos : i ≠ pos)
    (hvel : i ≠ vel) :
    (variance • vecMulVec (accelerates pos vel gain dtS) (star (accelerates pos vel gain dtS))) i j = 0 := by
  rw [noise_apply, accelerates, if_neg hpos, if_neg hvel, zero_mul, mul_zero]

/-- The four entries of an axis, written into rows of zeros, add its noise. -/
theorem setEntry_axis {q : StateMatrix} {pos vel : StateRow} (hne : vel ≠ pos)
    (hpos : ∀ j, q pos j = 0) (hvel : ∀ j, q vel j = 0) (gain dtS variance : ℝ) :
    setEntry (setEntry (setEntry (setEntry q pos pos (gain * gain * variance))
      pos vel (gain * dtS * variance)) vel pos (gain * dtS * variance)) vel vel (dtS * dtS * variance) =
    q + variance • vecMulVec (accelerates pos vel gain dtS) (star (accelerates pos vel gain dtS)) := by
  ext i j
  rw [Matrix.add_apply, noise_apply]
  simp only [setEntry, accelerates]
  rcases eq_or_ne i vel with rfl | hi
  · rcases eq_or_ne j i with rfl | hj
    · simp [hvel, hne]
      ring
    · rcases eq_or_ne j pos with rfl | hj'
      · simp [hvel, hne, hj]
        ring
      · simp [hvel, hj, hj']
  · rcases eq_or_ne i pos with rfl | hi'
    · rcases eq_or_ne j vel with rfl | hj
      · simp [hpos, hi, hne]
        ring
      · rcases eq_or_ne j i with rfl | hj'
        · simp [hpos, hi]
          ring
        · simp [hpos, hj, hj']
    · simp [hi, hi']

theorem processNoise_eq (t : FilterTuning) (dtS : ℝ) :
    let gpp := (0.5 * dtS ^ 2) * knotsToNmPerSecond 1
    let east := accelerates rowEast rowVEast gpp dtS
    let north := accelerates rowNorth rowVNorth gpp dtS
    let up := accelerates rowAlt rowVRate (0.5 * dtS ^ 2 / 60) dtS
    processNoise t dtS = t.processNoiseAccelKtS ^ 2 • vecMulVec east (star east) +
      t.processNoiseAccelKtS ^ 2 • vecMulVec north (star north) +
      t.processNoiseVerticalFpmS ^ 2 • vecMulVec up (star up) := by
  intro gpp east north up
  have heast : ∀ i j, i ≠ rowEast → i ≠ rowVEast →
      (t.processNoiseAccelKtS ^ 2 • vecMulVec east (star east)) i j = 0 := fun i j => noise_of_ne _ _ _ j
  have hnorth : ∀ i j, i ≠ rowNorth → i ≠ rowVNorth →
      (t.processNoiseAccelKtS ^ 2 • vecMulVec north (star north)) i j = 0 := fun i j => noise_of_ne _ _ _ j
  unfold processNoise
  simp only [List.foldl]
  rw [setEntry_axis (show rowVEast ≠ rowEast by decide) (fun _ => rfl) (fun _ => rfl), zero_add,
    setEntry_axis (show rowVNorth ≠ rowNorth by decide), setEntry_axis (show rowVRate ≠ rowAlt by decide)]
  · intro j
    rw [Matrix.add_apply, heast _ j (by decide) (by decide), hnorth _ j (by decide) (by decide), add_zero]
  · intro j
    rw [Matrix.add_apply, heast _ j (by decide) (by decide), hnorth _ j (by decide) (by decide), add_zero]
  · exact fun j => heast _ j (by decide) (by decide)
  · exact fun j => heast _ j (by decide) (by decide)

theorem posSemidef_processNoise (t : FilterTuning) (dtS : ℝ) : (processNoise t dtS).PosSemidef := by
  rw [processNoise_eq]
  exact (((posSemidef_vecMulVec_self_star _).smul (sq_nonneg _)).add
    ((posSemidef_vecMulVec_self_star _).smul (sq_nonneg _))).add
    ((posSemidef_vecMulVec_self_star _).smul (sq_nonneg _))

theorem isSymm_of_posDef {f : TrackFilter} (h : f.p.PosDef) : f.p.IsSymm := by
  rw [IsSymm, ← conjTranspose_eq_transpose_of_trivial]
  exact h.isHermitian

theorem posDef_predict {f : TrackFilter} (h : f.p.PosDef) (dtS : ℝ) : (f.predict dtS).p.PosDef := by
  unfold predict
  split_ifs
  · exact h
  · exact Covariance.posDef_predict h (isUnit_transition dtS) (posSemidef_processNoise f.tuning dtS)

/-! ### Correction -/

/-- Every row of a measurement has noise. -/
theorem variance_pos {f : TrackFilter} (ht : f.tuning.Positive) (lat lon : ℝ)
    (altitudeFt groundSpeedKt trackDeg verticalRateFpm : Option ℝ) :
    ∀ row ∈ f.measuredRows lat lon altitudeFt groundSpeedKt trackDeg verticalRateFpm,
      0 < row.variance := by
  have hposition := pow_pos ht.measurementPositionNm 2
  have haltitude := pow_pos ht.measurementAltitudeFt 2
  have hspeed := pow_pos ht.measurementSpeedKt 2
  have hrate : 0 < (f.tuning.measurementAltitudeFt * 4) ^ 2 := by
    have := ht.measurementAltitudeFt
    positivity
  cases altitudeFt <;> cases groundSpeedKt <;> cases trackDeg <;> cases verticalRateFpm <;>
    simp [measuredRows, hposition, haltitude, hspeed, hrate]

theorem posDef_measurementNoise {rows : List MeasuredRow} (h : ∀ row ∈ rows, 0 < row.variance) :
    (measurementNoise rows).PosDef := PosDef.diagonal fun i => h _ (List.get_mem rows i)

theorem posDef_innovationCovariance {f : TrackFilter} (h : f.p.PosDef) {rows : List MeasuredRow}
    (hrows : ∀ row ∈ rows, 0 < row.variance) : (f.innovationCovariance rows).PosDef :=
  Covariance.posDef_innovation h.posSemidef (posDef_measurementNoise hrows)

theorem posDef_correct {f : TrackFilter} (h : f.p.PosDef) {rows : List MeasuredRow}
    (hrows : ∀ row ∈ rows, 0 < row.variance) : (f.correct rows).p.PosDef :=
  Covariance.posDef_joseph h (posDef_measurementNoise hrows) (f.gain rows)

/-! ### Runs -/

@[simp] theorem tuning_predict (f : TrackFilter) (dtS : ℝ) : (f.predict dtS).tuning = f.tuning := by
  unfold predict
  split_ifs <;> rfl

theorem tuning_call (f : TrackFilter) (c : FilterCall) : (f.call c).tuning = f.tuning := by
  cases c with
  | predict dtS => exact tuning_predict f dtS
  | update dtS => exact tuning_predict f dtS

/-- A call keeps the covariance positive definite. -/
theorem posDef_call {f : TrackFilter} (ht : f.tuning.Positive) (h : f.p.PosDef) (c : FilterCall) :
    (f.call c).p.PosDef := by
  cases c with
  | predict dtS => exact posDef_predict h dtS
  | update dtS lat lon altitudeFt groundSpeedKt trackDeg verticalRateFpm =>
    exact posDef_correct (posDef_predict h dtS)
      (variance_pos (by rwa [tuning_predict]) lat lon altitudeFt groundSpeedKt trackDeg verticalRateFpm)

theorem posDef_calls {f : TrackFilter} (ht : f.tuning.Positive) (h : f.p.PosDef) (calls : List FilterCall) :
    (calls.foldl call f).tuning.Positive ∧ (calls.foldl call f).p.PosDef := by
  induction calls generalizing f with
  | nil => exact ⟨ht, h⟩
  | cons c calls ih => exact ih (by rwa [tuning_call]) (posDef_call ht h c)

theorem posDef_init {tuning : FilterTuning} (ht : tuning.Positive)
    (refLat refLon lat lon altitudeFt groundSpeedKt trackDeg verticalRateFpm : ℝ) :
    (init refLat refLon lat lon altitudeFt groundSpeedKt trackDeg verticalRateFpm tuning).p.PosDef := by
  refine PosDef.diagonal fun i => ?_
  have hposition := pow_pos ht.initialPositionNm 2
  have hvelocity := pow_pos ht.initialVelocityKt 2
  have haltitude := pow_pos ht.initialAltitudeFt 2
  have hrate := pow_pos ht.initialVerticalRateFpm 2
  fin_cases i <;> assumption

/-- After any calls on a filter with positive noise assumptions its covariance is symmetric and positive
    definite, and the innovation covariance of any further update is invertible. -/
theorem filter_stays_positive_definite {tuning : FilterTuning} (ht : tuning.Positive)
    (refLat refLon lat lon altitudeFt groundSpeedKt trackDeg verticalRateFpm : ℝ) (calls : List FilterCall) :
    let f := calls.foldl call
      (init refLat refLon lat lon altitudeFt groundSpeedKt trackDeg verticalRateFpm tuning)
    f.p.IsSymm ∧ f.p.PosDef ∧ ∀ dtS lat lon altitudeFt groundSpeedKt trackDeg verticalRateFpm,
      IsUnit ((f.predict dtS).innovationCovariance
        ((f.predict dtS).measuredRows lat lon altitudeFt groundSpeedKt trackDeg verticalRateFpm)) := by
  intro f
  obtain ⟨htuning, hp⟩ := posDef_calls (f := init refLat refLon lat lon altitudeFt groundSpeedKt trackDeg
    verticalRateFpm tuning) ht (posDef_init ht ..) calls
  refine ⟨isSymm_of_posDef hp, hp, ?_⟩
  intro dtS lat lon altitudeFt groundSpeedKt trackDeg verticalRateFpm
  have hrows := variance_pos (f := f.predict dtS) (by rwa [tuning_predict]) lat lon altitudeFt
    groundSpeedKt trackDeg verticalRateFpm
  exact (posDef_innovationCovariance (posDef_predict hp dtS) hrows).isUnit

theorem positive_default : ({} : FilterTuning).Positive := by
  constructor <;> norm_num

/-- The default tuning, a dropout of a minute and a report of a position alone. -/
theorem filter_stays_positive_definite_default :
    ([FilterCall.predict 60, .update 1 40 (-75) none none none none].foldl call
      (init 40 (-75) 40 (-75) 35000 450 90 0 {})).p.PosDef :=
  (filter_stays_positive_definite positive_default ..).2.1

end TrackFilter

end

end Airspace
