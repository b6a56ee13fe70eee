import Airspace.Track.FilterNorth

/-! How the uncertainty of the filter changes.

    On each axis the covariance starts without correlation of position and rate, and no call ever makes it
    negative: time adds the variance of the rate to it, and a correction adds information on each row by
    itself. So prediction only loses certainty, and a correction only gains it.

        P' (1 + D P) = P        D the information of the measured rows, a diagonal -/

namespace Airspace

noncomputable section

open Matrix

/-- No uncertainty an estimate reports is above that of another. -/
structure FilterEstimate.AsCertain (a b : FilterEstimate) : Prop where
  positionUncertaintyM : a.positionUncertaintyM ≤ b.positionUncertaintyM
  velocityUncertaintyKt : a.velocityUncertaintyKt ≤ b.velocityUncertaintyKt
  altitudeUncertaintyFt : a.altitudeUncertaintyFt ≤ b.altitudeUncertaintyFt
  verticalRateUncertaintyFpm : a.verticalRateUncertaintyFpm ≤ b.verticalRateUncertaintyFpm

namespace TrackFilter

variable {f : TrackFilter} {rows : List MeasuredRow}

/-! ### Correction -/

/-- What a measurement tells of each row of the state. -/
def information (rows : List MeasuredRow) (i : StateRow) : ℝ :=
  ∑ k : Fin rows.length, if i = (rows.get k).row then (rows.get k).variance⁻¹ else 0

theorem information_nonneg (hrows : ∀ row ∈ rows, 0 < row.variance) (i : StateRow) :
    0 ≤ information rows i := by
  refine Finset.sum_nonneg fun k _ => ?_
  split_ifs
  · exact inv_nonneg.mpr (hrows _ (List.get_mem rows k)).le
  · exact le_rfl

theorem inv_measurementNoise (hrows : ∀ row ∈ rows, 0 < row.variance) :
    (measurementNoise rows)⁻¹ = diagonal fun k => (rows.get k).variance⁻¹ := by
  refine inv_eq_right_inv ?_
  rw [measurementNoise, diagonal_mul_diagonal, ← diagonal_one]
  exact congrArg diagonal (funext fun k => mul_inv_cancel₀ (hrows _ (List.get_mem rows k)).ne')

/-- The information of a measurement has no entry between two rows. -/
theorem information_eq (hrows : ∀ row ∈ rows, 0 < row.variance) :
    (measurementMatrix rows)ᵀ * (measurementNoise rows)⁻¹ * measurementMatrix rows =
      diagonal (information rows) := by
  ext i j
  rw [inv_measurementNoise hrows, Matrix.mul_apply, diagonal_apply]
  simp only [Matrix.mul_diagonal, Matrix.transpose_apply, measurementMatrix, information]
  split_ifs with hij
  · subst hij
    exact Finset.sum_congr rfl fun k _ => by split_ifs <;> simp
  · refine Finset.sum_eq_zero fun k _ => ?_
    split_ifs with hi hj
    · exact absurd (hi.trans hj.symm) hij
    · exact mul_zero _
    · simp
    · simp

theorem gain_mul (hs : IsUnit (f.innovationCovariance rows)) :
    f.gain rows * f.innovationCovariance rows = f.p * (measurementMatrix rows)ᵀ :=
  Covariance.gain_mul_innovation hs

/-- A correction adds the information of the measured rows. -/
theorem correct_mul_information (h : f.p.PosDef) (hrows : ∀ row ∈ rows, 0 < row.variance) :
    (f.correct rows).p * (1 + diagonal (information rows) * f.p) = f.p := by
  have hs := (posDef_innovationCovariance h hrows).isUnit
  rw [← information_eq hrows]
  exact Covariance.joseph_mul_information (posDef_measurementNoise hrows).isUnit (gain_mul hs)

/-- A correction raises no variance. -/
theorem correct_diag_le (h : f.p.PosDef) (hrows : ∀ row ∈ rows, 0 < row.variance) (i : StateRow) :
    (f.correct rows).p i i ≤ f.p i i :=
  Covariance.joseph_diag_le h.posSemidef (posDef_measurementNoise hrows).posSemidef
    (gain_mul (posDef_innovationCovariance h hrows).isUnit) i

/-- A correction leaves no axis anticorrelated with its rate. -/
theorem correct_pv_nonneg (h : f.p.PosDef) (hblock : AxisBlock f.p)
    (hrows : ∀ row ∈ rows, 0 < row.variance) {a : Fin 3} (hpv : 0 ≤ (f.axisLine a).pv) :
    0 ≤ ((f.correct rows).axisLine a).pv := by
  have hs := (posDef_innovationCovariance h hrows).isUnit
  obtain ⟨hpp, hvv, hdet⟩ := axisLine_pos h a
  have hvp : f.p (axisRows a).2 (axisRows a).1 = f.p (axisRows a).1 (axisRows a).2 :=
    (isSymm_of_posDef h).apply _ _
  have hentry : ∀ j, f.p (axisRows a).1 j =
      (f.correct rows).p (axisRows a).1 (axisRows a).1 *
        (1 + diagonal (information rows) * f.p : StateMatrix) (axisRows a).1 j +
      (f.correct rows).p (axisRows a).1 (axisRows a).2 *
        (1 + diagonal (information rows) * f.p : StateMatrix) (axisRows a).2 j := by
    intro j
    rw [← (axisBlock_correct hblock hs).mul_apply _ (axisOf_axisRows a).1, correct_mul_information h hrows]
  have hposition := hentry (axisRows a).1
  have hrate := hentry (axisRows a).2
  simp only [Matrix.add_apply, diagonal_mul, Matrix.one_apply, axisRows_ne a, (axisRows_ne a).symm, if_true,
    if_false, zero_add, hvp] at hposition hrate
  exact LineFilter.pv_nonneg_of_information hpp.le hvv.le hdet.le hpv (information_nonneg hrows (axisRows a).1)
    (information_nonneg hrows (axisRows a).2) hposition.symm hrate.symm

/-! ### What the estimate reports -/

/-- The reported uncertainties grow with the variances. -/
theorem asCertain_of_diag_le {f g : TrackFilter} (h : ∀ i, f.p i i ≤ g.p i i) :
    f.estimate.AsCertain g.estimate where
  positionUncertaintyM := by
    have hsum := add_le_add (h rowEast) (h rowNorth)
    exact mul_le_mul_of_nonneg_right (Real.sqrt_le_sqrt (max_le_max_left 0 hsum)) (by norm_num)
  velocityUncertaintyKt := by
    have hsum := add_le_add (h rowVEast) (h rowVNorth)
    exact Real.sqrt_le_sqrt (max_le_max_left 0 (mul_le_mul_of_nonneg_left hsum (by norm_num)))
  altitudeUncertaintyFt := Real.sqrt_le_sqrt (max_le_max_left 0 (h rowAlt))
  verticalRateUncertaintyFpm := Real.sqrt_le_sqrt (max_le_max_left 0 (h rowVRate))

/-- What every call keeps of a filter whose noise assumptions are positive. -/
structure Sound (f : TrackFilter) : Prop where
  tuning : f.tuning.Positive
  posDef : f.p.PosDef
  axes : AxisBlock f.p
  /-- no axis is anticorrelated with its rate -/
  pv : ∀ a, 0 ≤ (f.axisLine a).pv

theorem sound_init {tuning : FilterTuning} (ht : tuning.Positive)
    (refLat refLon lat lon alt speed track rate : ℝ) :
    (init refLat refLon lat lon alt speed track rate tuning).Sound where
  tuning := ht
  posDef := posDef_init ht ..
  axes := axisBlock_diagonal _
  pv a := (diagonal_apply_ne _ (axisRows_ne a)).ge

theorem Sound.predict (h : f.Sound) (dtS : ℝ) : (f.predict dtS).Sound := by
  refine ⟨by rw [tuning_predict]; exact h.tuning, posDef_predict h.posDef dtS,
    axisBlock_predict h.axes dtS, fun a => ?_⟩
  rcases le_or_gt dtS 0 with hdt | hdt
  · rw [TrackFilter.predict, if_pos hdt]
    exact h.pv a
  · rw [axisLine_predict (isSymm_of_posDef h.posDef) hdt]
    exact LineFilter.predict_pv_nonneg (h.pv a) (axisLine_pos h.posDef a).2.1.le (axisRate_pos hdt a).le
      (axisGain_nonneg dtS a) hdt.le (axisNoise_nonneg f.tuning a)

theorem Sound.correct (h : f.Sound) (hrows : ∀ row ∈ rows, 0 < row.variance) : (f.correct rows).Sound :=
  ⟨h.tuning, posDef_correct h.posDef hrows,
    axisBlock_correct h.axes (posDef_innovationCovariance h.posDef hrows).isUnit,
    fun a => correct_pv_nonneg h.posDef h.axes hrows (h.pv a)⟩

theorem Sound.call (h : f.Sound) (c : FilterCall) : (f.call c).Sound := by
  cases c with
  | predict dtS => exact h.predict dtS
  | update dtS lat lon altitudeFt groundSpeedKt trackDeg verticalRateFpm =>
    exact (h.predict dtS).correct (variance_pos (h.predict dtS).tuning lat lon altitudeFt groundSpeedKt trackDeg
      verticalRateFpm)

theorem Sound.calls (h : f.Sound) (calls : List FilterCall) : (calls.foldl TrackFilter.call f).Sound := by
  induction calls generalizing f with
  | nil => exact h
  | cons c calls ih => exact ih (h.call c)

/-- Time takes no variance off. -/
theorem Sound.diag_le_predict (h : f.Sound) {dtS : ℝ} (hdt : 0 < dtS) (i : StateRow) :
    f.p i i ≤ (f.predict dtS).p i i := by
  have hline := axisLine_predict (isSymm_of_posDef h.posDef) hdt (axisOf i)
  have hnoise := axisNoise_nonneg f.tuning (axisOf i)
  rcases eq_of_axisOf (rfl : axisOf i = axisOf i) with hi | hi
  · have hpp := LineFilter.pp_le_predict (g := axisGain dtS (axisOf i)) (d := dtS) (h.pv (axisOf i))
      (axisLine_pos h.posDef (axisOf i)).2.1.le (axisRate_pos hdt (axisOf i)).le hnoise
    rw [← hline] at hpp
    simpa only [axisLine, ← hi] using hpp
  · have hvv := LineFilter.vv_le_predict (f := f.axisLine (axisOf i)) (t := axisRate dtS (axisOf i))
      (g := axisGain dtS (axisOf i)) (d := dtS) hnoise
    rw [← hline] at hvv
    simpa only [axisLine, ← hi] using hvv

/-- Of a filter with positive noise assumptions, after any calls, a prediction lowers no reported uncertainty
    and the correction of an update raises none above its own prediction. -/
theorem predict_loses_and_correct_gains_certainty {tuning : FilterTuning} (ht : tuning.Positive)
    (refLat refLon lat lon altitudeFt groundSpeedKt trackDeg verticalRateFpm : ℝ) (calls : List FilterCall) :
    let f := calls.foldl call
      (init refLat refLon lat lon altitudeFt groundSpeedKt trackDeg verticalRateFpm tuning)
    (∀ dtS, 0 < dtS → f.estimate.AsCertain (f.predict dtS).estimate) ∧
    ∀ dtS lat lon altitudeFt groundSpeedKt trackDeg verticalRateFpm,
      (f.update dtS lat lon altitudeFt groundSpeedKt trackDeg verticalRateFpm).estimate.AsCertain
        (f.predict dtS).estimate := by
  intro f
  have h : f.Sound := (sound_init ht ..).calls calls
  refine ⟨fun dtS hdt => asCertain_of_diag_le (h.diag_le_predict hdt), ?_⟩
  intro dtS lat lon altitudeFt groundSpeedKt trackDeg verticalRateFpm
  have hp := h.predict dtS
  exact asCertain_of_diag_le (correct_diag_le hp.posDef
    (variance_pos hp.tuning lat lon altitudeFt groundSpeedKt trackDeg verticalRateFpm))

/-- The default tuning: a report of a position alone, then half a minute without one. -/
theorem predict_loses_and_correct_gains_certainty_default :
    let f := (init 40 (-75) 40 (-75) 35000 450 90 0 {}).call (.update 1 40 (-75) none none none none)
    f.estimate.AsCertain (f.predict 30).estimate ∧
      (f.update 30 40 (-74) none none none none).estimate.AsCertain (f.predict 30).estimate := by
  intro f
  have h := predict_loses_and_correct_gains_certainty positive_default 40 (-75) 40 (-75) 35000 450 90 0
    [.update 1 40 (-75) none none none none]
  exact ⟨h.1 30 (by norm_num), h.2 30 40 (-74) none none none none⟩

end TrackFilter

end

end Airspace
