import Airspace.Track.FilterLines
import Mathlib.Analysis.Matrix.PosDef
import Mathlib.LinearAlgebra.Matrix.Block

/-! The north axis of the filter.

    Correction keeps the axes apart as prediction does, so the north position and speed are a filter on a
    line of their own: what a report makes of the north position follows from the two, their covariance and
    the report's own position and velocity. -/

namespace Airspace

noncomputable section

open Matrix

namespace TrackFilter

variable {f : TrackFilter} {rows : List MeasuredRow}

/-! ### Correction keeps the axes apart -/

theorem innovation_apply (f : TrackFilter) (rows : List MeasuredRow) (i : Fin rows.length) :
    f.innovation rows i = (rows.get i).value - f.x (rows.get i).row := by
  simp [innovation, Matrix.mulVec, dotProduct, measurementMatrix]

theorem mul_measurementMatrix_transpose (m : StateMatrix) (rows : List MeasuredRow) (i : StateRow)
    (j : Fin rows.length) : (m * (measurementMatrix rows)ᵀ) i j = m i (rows.get j).row := by
  simp [Matrix.mul_apply, measurementMatrix]

theorem innovationCovariance_apply (f : TrackFilter) (rows : List MeasuredRow) (i j : Fin rows.length) :
    f.innovationCovariance rows i j = f.p (rows.get i).row (rows.get j).row +
      if i = j then (rows.get i).variance else 0 := by
  have hread : (measurementMatrix rows * f.p * (measurementMatrix rows)ᵀ) i j =
      f.p (rows.get i).row (rows.get j).row := by
    rw [Matrix.mul_assoc, Matrix.mul_apply]
    simp only [mul_measurementMatrix_transpose]
    simp [measurementMatrix]
  rw [innovationCovariance, Matrix.add_apply, hread, measurementNoise, diagonal_apply]

/-- The inverse of the innovation covariance has no entry between two axes. -/
theorem inv_innovationCovariance_eq_zero (h : AxisBlock f.p) (hs : IsUnit (f.innovationCovariance rows))
    {i j : Fin rows.length} (hij : axisOf (rows.get i).row ≠ axisOf (rows.get j).row) :
    (f.innovationCovariance rows)⁻¹ i j = 0 := by
  have hblock : ∀ i j, axisOf (rows.get i).row ≠ axisOf (rows.get j).row →
      f.innovationCovariance rows i j = 0 := by
    intro i j hij
    have hne : i ≠ j := by
      rintro rfl
      exact hij rfl
    rw [innovationCovariance_apply, h _ _ hij, if_neg hne, add_zero]
  have := hs.invertible
  rcases lt_or_gt_of_ne hij with hlt | hgt
  · exact blockTriangular_inv_of_blockTriangular (b := fun i => OrderDual.toDual (axisOf (rows.get i).row))
      (fun i j hij => hblock i j (ne_of_lt hij)) hlt
  · exact blockTriangular_inv_of_blockTriangular (b := fun i => axisOf (rows.get i).row)
      (fun i j hij => hblock i j (ne_of_gt hij)) hgt

/-- A measurement of one axis does not move another. -/
theorem gain_eq_zero_of_axis (h : AxisBlock f.p) (hs : IsUnit (f.innovationCovariance rows)) {i : StateRow}
    {j : Fin rows.length} (hij : axisOf i ≠ axisOf (rows.get j).row) : f.gain rows i j = 0 := by
  rw [gain, Matrix.mul_apply]
  refine Finset.sum_eq_zero fun k _ => ?_
  rw [mul_measurementMatrix_transpose]
  by_cases hk : axisOf i = axisOf (rows.get k).row
  · rw [inv_innovationCovariance_eq_zero h hs (hk ▸ hij), mul_zero]
  · rw [h _ _ hk, zero_mul]

theorem axisBlock_correct (h : AxisBlock f.p) (hs : IsUnit (f.innovationCovariance rows)) :
    AxisBlock (f.correct rows).p := by
  have hgain : AxisBlock (f.gain rows * measurementMatrix rows) := by
    intro i j hij
    rw [Matrix.mul_apply]
    refine Finset.sum_eq_zero fun k _ => ?_
    rw [measurementMatrix]
    split_ifs with hk
    · rw [gain_eq_zero_of_axis h hs (hk ▸ hij), zero_mul]
    · rw [mul_zero]
  have hone : AxisBlock (1 : StateMatrix) := by
    rw [← diagonal_one]
    exact axisBlock_diagonal _
  have hrest : AxisBlock (1 - f.gain rows * measurementMatrix rows) := by
    intro i j hij
    rw [Matrix.sub_apply, hone i j hij, hgain i j hij, sub_zero]
  have hnoise : AxisBlock (f.gain rows * measurementNoise rows * (f.gain rows)ᵀ) := by
    intro i j hij
    rw [Matrix.mul_apply]
    refine Finset.sum_eq_zero fun k _ => ?_
    rw [measurementNoise, Matrix.mul_diagonal, Matrix.transpose_apply]
    by_cases hk : axisOf i = axisOf (rows.get k).row
    · rw [gain_eq_zero_of_axis h hs (fun hj => hij (hk.trans hj.symm)), mul_zero]
    · rw [gain_eq_zero_of_axis h hs hk, zero_mul, zero_mul]
  exact ((hrest.mul h).mul hrest.transpose).add hnoise

/-! ### The line -/

/-- North position and speed with their covariance. -/
def northLine (f : TrackFilter) : LineFilter where
  position := f.x rowNorth
  velocity := f.x rowVNorth
  pp := f.p rowNorth rowNorth
  pv := f.p rowNorth rowVNorth
  vv := f.p rowVNorth rowVNorth

/-- `dtS` seconds on the line: position in nautical miles, velocity in knots. -/
def predictNorth (f : TrackFilter) (dtS : ℝ) : LineFilter :=
  f.northLine.predict (knotsToNmPerSecond 1 * dtS) (0.5 * dtS ^ 2 * knotsToNmPerSecond 1) dtS
    (f.tuning.processNoiseAccelKtS ^ 2)

/-- The north speed of a report that has a speed and a heading. -/
def northSpeed (groundSpeedKt trackDeg : Option ℝ) : Option ℝ :=
  match groundSpeedKt, trackDeg with
  | some speed, some track => some (velocityOf speed track).2
  | _, _ => none

/-- The north position a report corrects to after `dtS` seconds, from the line and the report's own position
    and velocity. -/
def correctNorth (f : TrackFilter) (dtS lat lon : ℝ) (groundSpeedKt trackDeg : Option ℝ) : ℝ :=
  let line := f.predictNorth dtS
  let north := (toLocalEnu f.refLat f.refLon lat lon).2
  match northSpeed groundSpeedKt trackDeg with
  | some speed => line.correctedBoth (f.tuning.measurementPositionNm ^ 2)
      (f.tuning.measurementSpeedKt ^ 2) north speed
  | none => line.corrected (f.tuning.measurementPositionNm ^ 2) north

/-- Prediction moves the line along its own velocity, whatever the other axes do. -/
theorem northLine_predict {dtS : ℝ} (hsymm : f.p.IsSymm) (hdt : 0 < dtS) :
    (f.predict dtS).northLine = f.predictNorth dtS := axisLine_predict hsymm hdt 1

/-- Prediction flies the north speed. -/
theorem predict_north (h : f.p.PosDef) {dtS : ℝ} (hdt : 0 < dtS) :
    (f.predict dtS).x rowNorth = f.x rowNorth + knotsToNmPerSecond 1 * dtS * f.x rowVNorth :=
  congrArg LineFilter.position (northLine_predict (isSymm_of_posDef h) hdt)

/-! ### The correction of the line -/

/-- A gain that solves the normal equations of a row is the gain of that row. -/
theorem gain_eq_of_solves (hs : IsUnit (f.innovationCovariance rows)) {i : StateRow}
    {k : Fin rows.length → ℝ}
    (hk : k ᵥ* f.innovationCovariance rows = (f.p * (measurementMatrix rows)ᵀ) i) : f.gain rows i = k := by
  have hinv : f.innovationCovariance rows * (f.innovationCovariance rows)⁻¹ = 1 :=
    mul_nonsing_inv _ ((isUnit_iff_isUnit_det _).mp hs)
  change (f.p * (measurementMatrix rows)ᵀ) i ᵥ* (f.innovationCovariance rows)⁻¹ = k
  rw [← hk, vecMul_vecMul, hinv, vecMul_one]

/-- A gain on the two rows of the north axis, nothing on the others. -/
def northGain (a b : ℝ) (row : StateRow) : ℝ := if row = rowNorth then a else if row = rowVNorth then b else 0

theorem sum_rows (rows : List MeasuredRow) (g : MeasuredRow → ℝ) :
    ∑ i : Fin rows.length, g (rows.get i) = (rows.map g).sum := Fin.sum_univ_fun_getElem rows g

/-- The measured rows solve the normal equations with gains on the north axis, if each one does. -/
theorem gain_north_of_solves (hs : IsUnit (f.innovationCovariance rows)) {a b : ℝ}
    (h : ∀ m ∈ rows, (rows.map fun m' => northGain a b m'.row * f.p m'.row m.row).sum +
      northGain a b m.row * m.variance = f.p rowNorth m.row) :
    f.gain rows rowNorth = fun i => northGain a b (rows.get i).row := by
  refine gain_eq_of_solves hs (funext fun j => ?_)
  rw [mul_measurementMatrix_transpose, ← h _ (List.get_mem rows j), ← sum_rows]
  simp only [vecMul, dotProduct, innovationCovariance_apply, mul_add, Finset.sum_add_distrib]
  simp

theorem correct_north_of_solves (hs : IsUnit (f.innovationCovariance rows)) {a b : ℝ}
    (h : ∀ m ∈ rows, (rows.map fun m' => northGain a b m'.row * f.p m'.row m.row).sum +
      northGain a b m.row * m.variance = f.p rowNorth m.row) :
    (f.correct rows).x rowNorth =
      f.x rowNorth + (rows.map fun m => northGain a b m.row * (m.value - f.x m.row)).sum := by
  rw [← sum_rows]
  simp only [correct, Pi.add_apply, Matrix.mulVec, gain_north_of_solves hs h, dotProduct, innovation_apply]

/-- The line of a positive definite covariance. -/
theorem northLine_pos (h : f.p.PosDef) : 0 < f.northLine.pp ∧ 0 < f.northLine.vv ∧
    f.northLine.pv ^ 2 < f.northLine.pp * f.northLine.vv := axisLine_pos h 1

theorem isUnit_innovationCovariance (ht : f.tuning.Positive) (h : f.p.PosDef) (lat lon : ℝ)
    (altitudeFt groundSpeedKt trackDeg verticalRateFpm : Option ℝ) : IsUnit (f.innovationCovariance
      (f.measuredRows lat lon altitudeFt groundSpeedKt trackDeg verticalRateFpm)) :=
  (posDef_innovationCovariance h (variance_pos ht lat lon altitudeFt groundSpeedKt trackDeg
    verticalRateFpm)).isUnit

/-- Of the measured rows the north axis sees its own position and, if the report has a velocity, its own
    speed. -/
theorem sum_measuredRows (f : TrackFilter) (lat lon : ℝ)
    (altitudeFt groundSpeedKt trackDeg verticalRateFpm : Option ℝ) {g : MeasuredRow → ℝ}
    (hg : ∀ m, m.row ≠ rowNorth → m.row ≠ rowVNorth → g m = 0) :
    ((f.measuredRows lat lon altitudeFt groundSpeedKt trackDeg verticalRateFpm).map g).sum =
      g ⟨rowNorth, (toLocalEnu f.refLat f.refLon lat lon).2, f.tuning.measurementPositionNm ^ 2⟩ +
      (northSpeed groundSpeedKt trackDeg).elim 0
        fun speed => g ⟨rowVNorth, speed, f.tuning.measurementSpeedKt ^ 2⟩ := by
  have hoff : ∀ row, row ≠ rowNorth → row ≠ rowVNorth → ∀ z s, g ⟨row, z, s⟩ = 0 :=
    fun row hn hv z s => hg ⟨row, z, s⟩ hn hv
  have heast := hoff rowEast (by decide) (by decide)
  have hveast := hoff rowVEast (by decide) (by decide)
  have halt := hoff rowAlt (by decide) (by decide)
  have hrate := hoff rowVRate (by decide) (by decide)
  cases altitudeFt <;> cases groundSpeedKt <;> cases trackDeg <;> cases verticalRateFpm <;>
    simp [measuredRows, northSpeed, heast, hveast, halt, hrate]

/-- A measured row is on another axis, or one of the two of the north axis. -/
theorem mem_measuredRows (f : TrackFilter) (lat lon : ℝ)
    (altitudeFt groundSpeedKt trackDeg verticalRateFpm : Option ℝ) :
    ∀ m ∈ f.measuredRows lat lon altitudeFt groundSpeedKt trackDeg verticalRateFpm,
      axisOf rowNorth ≠ axisOf m.row ∨
        m = ⟨rowNorth, (toLocalEnu f.refLat f.refLon lat lon).2, f.tuning.measurementPositionNm ^ 2⟩ ∨
        ∃ speed ∈ northSpeed groundSpeedKt trackDeg, m = ⟨rowVNorth, speed, f.tuning.measurementSpeedKt ^ 2⟩ := by
  have heast : axisOf rowNorth ≠ axisOf rowEast := by decide
  have hveast : axisOf rowNorth ≠ axisOf rowVEast := by decide
  have halt : axisOf rowNorth ≠ axisOf rowAlt := by decide
  have hrate : axisOf rowNorth ≠ axisOf rowVRate := by decide
  cases altitudeFt <;> cases groundSpeedKt <;> cases trackDeg <;> cases verticalRateFpm <;>
    simp [measuredRows, northSpeed, heast, hveast, halt, hrate]

theorem northGain_off {a b : ℝ} {row : StateRow} (hn : row ≠ rowNorth) (hv : row ≠ rowVNorth) :
    northGain a b row = 0 := by
  rw [northGain, if_neg hn, if_neg hv]

/-- The correction of the north position, once two gains solve its normal equations. -/
theorem correct_north (ht : f.tuning.Positive) (hblock : AxisBlock f.p) (h : f.p.PosDef) (lat lon : ℝ)
    (altitudeFt groundSpeedKt trackDeg verticalRateFpm : Option ℝ) {a b : ℝ}
    (hnorth : a * (f.northLine.pp + f.tuning.measurementPositionNm ^ 2) + b * f.northLine.pv = f.northLine.pp)
    (hspeed : northSpeed groundSpeedKt trackDeg ≠ none → a * f.northLine.pv +
      b * (f.northLine.vv + f.tuning.measurementSpeedKt ^ 2) = f.northLine.pv)
    (hnone : northSpeed groundSpeedKt trackDeg = none → b = 0) :
    (f.correct (f.measuredRows lat lon altitudeFt groundSpeedKt trackDeg verticalRateFpm)).x rowNorth =
      f.northLine.position + (a * ((toLocalEnu f.refLat f.refLon lat lon).2 - f.northLine.position) +
        (northSpeed groundSpeedKt trackDeg).elim 0 fun speed => b * (speed - f.northLine.velocity)) := by
  have hvn : f.p rowVNorth rowNorth = f.p rowNorth rowVNorth := (isSymm_of_posDef h).apply _ _
  have hoffN : ∀ row, axisOf rowNorth ≠ axisOf row → row ≠ rowNorth ∧ row ≠ rowVNorth := by decide
  have hoff : ∀ m : MeasuredRow, m.row ≠ rowNorth → m.row ≠ rowVNorth → northGain a b m.row = 0 :=
    fun m => northGain_off
  rw [correct_north_of_solves (a := a) (b := b) (isUnit_innovationCovariance ht h ..),
    sum_measuredRows _ _ _ _ _ _ _ fun m hn hv => by rw [hoff m hn hv, zero_mul]]
  · rfl
  intro m hm
  rw [sum_measuredRows _ _ _ _ _ _ _ fun m hn hv => by rw [hoff m hn hv, zero_mul]]
  -- without a measured velocity the second gain is zero
  have hsum : ((northSpeed groundSpeedKt trackDeg).elim 0 fun _ => b * f.p rowVNorth m.row) =
      b * f.p rowVNorth m.row := by
    cases hsp : northSpeed groundSpeedKt trackDeg with
    | none => rw [hnone hsp, zero_mul]; rfl
    | some speed => rfl
  change a * f.p rowNorth m.row + ((northSpeed groundSpeedKt trackDeg).elim 0 fun _ =>
    b * f.p rowVNorth m.row) + northGain a b m.row * m.variance = f.p rowNorth m.row
  rw [hsum]
  rcases mem_measuredRows f lat lon _ _ _ _ m hm with haxis | rfl | ⟨speed, hsome, rfl⟩
  · have hn : f.p rowNorth m.row = 0 := hblock _ _ haxis
    have hv : f.p rowVNorth m.row = 0 := hblock _ _ haxis
    rw [hoff m (hoffN _ haxis).1 (hoffN _ haxis).2, hn, hv]
    ring
  · change a * f.northLine.pp + b * f.p rowVNorth rowNorth + a * f.tuning.measurementPositionNm ^ 2 =
      f.northLine.pp
    rw [hvn]
    change a * f.northLine.pp + b * f.northLine.pv + a * f.tuning.measurementPositionNm ^ 2 = f.northLine.pp
    linarith
  · change a * f.northLine.pv + b * f.northLine.vv + b * f.tuning.measurementSpeedKt ^ 2 = f.northLine.pv
    linarith [hspeed (Option.ne_none_iff_exists'.mpr ⟨speed, hsome⟩)]

/-- The north position a report corrects to is the one the line has. -/
theorem update_north (ht : f.tuning.Positive) (hblock : AxisBlock f.p) (h : f.p.PosDef) {dtS : ℝ}
    (hdt : 0 < dtS) (lat lon : ℝ) (altitudeFt groundSpeedKt trackDeg verticalRateFpm : Option ℝ) :
    (f.update dtS lat lon altitudeFt groundSpeedKt trackDeg verticalRateFpm).x rowNorth =
      f.correctNorth dtS lat lon groundSpeedKt trackDeg := by
  have hline := northLine_predict (isSymm_of_posDef h) hdt
  have hp := posDef_predict h dtS
  have htuning : (f.predict dtS).tuning = f.tuning := tuning_predict f dtS
  have href : (f.predict dtS).refLat = f.refLat ∧ (f.predict dtS).refLon = f.refLon := by
    rw [predict, if_neg (not_le.mpr hdt)]
    exact ⟨rfl, rfl⟩
  have hr := pow_pos ht.measurementPositionNm 2
  have hs := pow_pos ht.measurementSpeedKt 2
  obtain ⟨hpp, hvv, hdet⟩ := northLine_pos hp
  have hcorrect := fun a b => correct_north (f := f.predict dtS) (a := a) (b := b) (by rwa [htuning])
    (axisBlock_predict hblock dtS) hp lat lon altitudeFt groundSpeedKt trackDeg verticalRateFpm
  rw [hline] at hpp hvv hdet
  rw [hline, htuning, href.1, href.2] at hcorrect
  cases hsp : northSpeed groundSpeedKt trackDeg with
  | some speed =>
    obtain ⟨hfirst, hsecond⟩ := LineFilter.gains_solve (LineFilter.innovationDet_pos hpp hvv hdet hr hs)
    refine (hcorrect _ _ hfirst (fun _ => hsecond) (by simp [hsp])).trans ?_
    simp [correctNorth, hsp, LineFilter.correctedBoth]
  | none =>
    have hgain := LineFilter.gain_solves hpp hr
    refine (hcorrect ((f.predictNorth dtS).gain (f.tuning.measurementPositionNm ^ 2)) 0 (by linarith)
      (by simp [hsp]) fun _ => rfl).trans ?_
    simp [correctNorth, hsp, LineFilter.corrected]

end TrackFilter

end

end Airspace
