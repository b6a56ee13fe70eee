import Airspace.Track.FilterNorth

/-! The horizontal error of the filter.

    East and north are the same filter on two rows of the state: exchanging them leaves the transition, the
    process noise and the initial covariance as they are, and permutes the rows of every measurement. So the
    two blocks of the covariance stay equal, whatever is measured, and the position and velocity
    uncertainties the estimate reports are the sigmas of either axis. -/

namespace Airspace

noncomputable section

open Matrix

/-- The state with east and north exchanged. -/
def mirrorRow : StateRow → StateRow := ![rowNorth, rowEast, rowVNorth, rowVEast, rowAlt, rowVRate]

def mirror : Equiv.Perm StateRow := Function.Involutive.toPerm mirrorRow (by unfold Function.Involutive; decide)

/-- East and north have the same entries. -/
def Mirrored (m : StateMatrix) : Prop := m.submatrix mirror mirror = m

theorem Mirrored.apply {m : StateMatrix} (h : Mirrored m) (i j : StateRow) :
    m (mirrorRow i) (mirrorRow j) = m i j := congrFun (congrFun h i) j

theorem Mirrored.add {a b : StateMatrix} (ha : Mirrored a) (hb : Mirrored b) : Mirrored (a + b) := by
  unfold Mirrored at *
  rw [submatrix_add, Pi.add_apply, Pi.add_apply, ha, hb]

theorem Mirrored.transpose {a : StateMatrix} (ha : Mirrored a) : Mirrored aᵀ := by
  unfold Mirrored at *
  rw [← transpose_submatrix, ha]

theorem Mirrored.mul {a b : StateMatrix} (ha : Mirrored a) (hb : Mirrored b) : Mirrored (a * b) := by
  unfold Mirrored at *
  rw [← submatrix_mul_equiv a b mirror mirror mirror, ha, hb]

theorem mirrorRow_mirrorRow (i : StateRow) : mirrorRow (mirrorRow i) = i := by
  revert i
  decide

theorem mirrorRow_eq_iff (i j : StateRow) : mirrorRow i = j ↔ i = mirrorRow j := by
  constructor
  · rintro rfl
    exact (mirrorRow_mirrorRow i).symm
  · rintro rfl
    exact mirrorRow_mirrorRow j

/-- An entry and its mirror image, written with one value. -/
theorem Mirrored.setEntry {m : StateMatrix} (hm : Mirrored m) (i j : StateRow) (v : ℝ) :
    Mirrored (setEntry (setEntry m i j v) (mirrorRow i) (mirrorRow j) v) := by
  ext a b
  change Airspace.setEntry _ _ _ _ (mirrorRow a) (mirrorRow b) = _
  simp only [Airspace.setEntry, mirrorRow_eq_iff, mirrorRow_mirrorRow, hm.apply]
  split_ifs <;> rfl

/-- An entry that is its own mirror image. -/
theorem Mirrored.setEntry_self {m : StateMatrix} (hm : Mirrored m) {i j : StateRow} (hi : mirrorRow i = i)
    (hj : mirrorRow j = j) (v : ℝ) : Mirrored (Airspace.setEntry m i j v) := by
  ext a b
  change Airspace.setEntry _ _ _ _ (mirrorRow a) (mirrorRow b) = _
  simp only [Airspace.setEntry, mirrorRow_eq_iff, hi, hj, hm.apply]

theorem mirrored_one : Mirrored 1 := submatrix_one_equiv mirror

theorem mirrored_transition (dtS : ℝ) : Mirrored (transition dtS) :=
  (mirrored_one.setEntry rowEast rowVEast (knotsToNmPerSecond 1 * dtS)).setEntry_self rfl rfl (dtS / 60)

/-! ### Measurements -/

/-- An exchange of the rows of a measurement that exchanges east and north in what they observe. -/
def Exchanges (rows : List MeasuredRow) (τ : Fin rows.length → Fin rows.length) : Prop :=
  Function.Involutive τ ∧ ∀ i, (rows.get (τ i)).row = mirrorRow (rows.get i).row ∧
    (rows.get (τ i)).variance = (rows.get i).variance

theorem exchanges_nil : Exchanges [] id := ⟨fun _ => rfl, fun i => i.elim0⟩

/-- A row of neither axis stays. -/
theorem Exchanges.cons {rows : List MeasuredRow} {τ : Fin rows.length → Fin rows.length}
    (h : Exchanges rows τ) {m : MeasuredRow} (hm : mirrorRow m.row = m.row) :
    Exchanges (m :: rows) (Fin.cases 0 fun i => (τ i).succ) := by
  refine ⟨fun i => ?_, fun i => ?_⟩
  · cases i using Fin.cases with
    | zero => rfl
    | succ i => exact congrArg Fin.succ (h.1 i)
  · cases i using Fin.cases with
    | zero => exact ⟨hm.symm, rfl⟩
    | succ i => exact h.2 i

/-- An east row and a north row of the same variance change places. -/
theorem Exchanges.pair {rows : List MeasuredRow} {τ : Fin rows.length → Fin rows.length}
    (h : Exchanges rows τ) {a b : MeasuredRow} (hab : b.row = mirrorRow a.row) (hba : a.row = mirrorRow b.row)
    (hv : a.variance = b.variance) :
    Exchanges (a :: b :: rows) (Fin.cases 1 (Fin.cases 0 fun i => (τ i).succ.succ)) := by
  refine ⟨fun i => ?_, fun i => ?_⟩
  · cases i using Fin.cases with
    | zero => rfl
    | succ i => cases i using Fin.cases with
      | zero => rfl
      | succ i => exact congrArg (fun i => i.succ.succ) (h.1 i)
  · cases i using Fin.cases with
    | zero => exact ⟨hab, hv.symm⟩
    | succ i => cases i using Fin.cases with
      | zero => exact ⟨hba, hv⟩
      | succ i => exact h.2 i

namespace TrackFilter

variable {f : TrackFilter} {rows : List MeasuredRow}

/-- The noise of an axis, mirrored, is that of its mirror image. -/
theorem submatrix_noise (pos vel : StateRow) (gain dtS variance : ℝ) :
    (variance • vecMulVec (accelerates pos vel gain dtS) (star (accelerates pos vel gain dtS))).submatrix
      mirror mirror = variance • vecMulVec (accelerates (mirrorRow pos) (mirrorRow vel) gain dtS)
        (star (accelerates (mirrorRow pos) (mirrorRow vel) gain dtS)) := by
  have hrow : ∀ i, accelerates pos vel gain dtS (mirrorRow i) =
      accelerates (mirrorRow pos) (mirrorRow vel) gain dtS i := by
    intro i
    simp only [accelerates, mirrorRow_eq_iff]
  ext i j
  rw [submatrix_apply, noise_apply, noise_apply]
  exact congrArg₂ (fun a b => variance * (a * b)) (hrow i) (hrow j)

theorem mirrored_processNoise (t : FilterTuning) (dtS : ℝ) : Mirrored (processNoise t dtS) := by
  unfold Mirrored
  rw [processNoise_eq]
  refine (congrArg₂ (· + ·) (congrArg₂ (· + ·) (submatrix_noise rowEast rowVEast _ _ _)
    (submatrix_noise rowNorth rowVNorth _ _ _)) (submatrix_noise rowAlt rowVRate _ _ _)).trans ?_
  exact congrArg (· + _) (add_comm _ _)

/-- The rows of every report can be so exchanged. -/
theorem exists_exchanges (f : TrackFilter) (lat lon : ℝ)
    (altitudeFt groundSpeedKt trackDeg verticalRateFpm : Option ℝ) :
    ∃ τ, Exchanges (f.measuredRows lat lon altitudeFt groundSpeedKt trackDeg verticalRateFpm) τ := by
  have halt : ∀ {rows : List MeasuredRow} {v s : ℝ}, (∃ τ, Exchanges rows τ) →
      ∃ τ, Exchanges (⟨rowAlt, v, s⟩ :: rows) τ := fun h => ⟨_, h.choose_spec.cons rfl⟩
  have hrate : ∀ {rows : List MeasuredRow} {v s : ℝ}, (∃ τ, Exchanges rows τ) →
      ∃ τ, Exchanges (⟨rowVRate, v, s⟩ :: rows) τ := fun h => ⟨_, h.choose_spec.cons rfl⟩
  have hspeed : ∀ {rows : List MeasuredRow} {v w s : ℝ}, (∃ τ, Exchanges rows τ) →
      ∃ τ, Exchanges (⟨rowVEast, v, s⟩ :: ⟨rowVNorth, w, s⟩ :: rows) τ :=
    fun h => ⟨_, h.choose_spec.pair rfl rfl rfl⟩
  have hposition : ∀ {rows : List MeasuredRow} {v w s : ℝ}, (∃ τ, Exchanges rows τ) →
      ∃ τ, Exchanges (⟨rowEast, v, s⟩ :: ⟨rowNorth, w, s⟩ :: rows) τ :=
    fun h => ⟨_, h.choose_spec.pair rfl rfl rfl⟩
  have hnil : ∃ τ, Exchanges [] τ := ⟨_, exchanges_nil⟩
  unfold measuredRows
  refine hposition ?_
  cases altitudeFt <;> cases groundSpeedKt <;> cases trackDeg <;> cases verticalRateFpm <;>
    first
    | exact hnil
    | exact halt hnil
    | exact hrate hnil
    | exact halt (hrate hnil)
    | exact hspeed hnil
    | exact hspeed (hrate hnil)
    | exact halt (hspeed hnil)
    | exact halt (hspeed (hrate hnil))

/-- Exchanging the rows of a measurement exchanges east and north in the correction. -/
theorem mirrored_correct (h : Mirrored f.p) {τ : Fin rows.length → Fin rows.length} (hτ : Exchanges rows τ) :
    Mirrored (f.correct rows).p := by
  let perm : Equiv.Perm (Fin rows.length) := Function.Involutive.toPerm τ hτ.1
  have hmatrix : (measurementMatrix rows).submatrix perm mirror = measurementMatrix rows := by
    ext i j
    change (if mirrorRow j = (rows.get (τ i)).row then (1 : ℝ) else 0) =
      if j = (rows.get i).row then 1 else 0
    simp only [(hτ.2 i).1, mirrorRow_eq_iff, mirrorRow_mirrorRow]
  have hnoise : (measurementNoise rows).submatrix perm perm = measurementNoise rows := by
    rw [measurementNoise, submatrix_diagonal_equiv]
    exact congrArg diagonal (funext fun i => (hτ.2 i).2)
  have hgain : (f.gain rows).submatrix mirror perm = f.gain rows := by
    have hrelabel := Covariance.gain_submatrix mirror perm f.p (measurementMatrix rows) (measurementNoise rows)
    rw [hmatrix, hnoise, h] at hrelabel
    exact hrelabel.symm
  have hrelabel := Covariance.joseph_submatrix mirror perm f.p (measurementMatrix rows)
    (measurementNoise rows) (f.gain rows)
  rw [hmatrix, hnoise, h, hgain] at hrelabel
  exact hrelabel.symm

theorem mirrored_predict (h : Mirrored f.p) (dtS : ℝ) : Mirrored (f.predict dtS).p := by
  unfold predict
  split_ifs
  · exact h
  · exact (((mirrored_transition dtS).mul h).mul (mirrored_transition dtS).transpose).add
      (mirrored_processNoise _ _)

theorem mirrored_init (refLat refLon lat lon alt speed track rate : ℝ) (tuning : FilterTuning) :
    Mirrored (init refLat refLon lat lon alt speed track rate tuning).p := by
  unfold Mirrored init
  rw [submatrix_diagonal_equiv]
  refine congrArg diagonal (funext fun i => ?_)
  fin_cases i <;> rfl

/-- An innovation covariance without an inverse leaves the covariance as predicted. -/
theorem axisBlock_correct_of_any (h : AxisBlock f.p) (rows : List MeasuredRow) :
    AxisBlock (f.correct rows).p := by
  by_cases hs : IsUnit (f.innovationCovariance rows)
  · exact axisBlock_correct h hs
  · have hgain : f.gain rows = 0 := Covariance.gain_eq_zero hs
    have hkeep : (f.correct rows).p = f.p := by
      change Covariance.joseph f.p (measurementMatrix rows) (measurementNoise rows) (f.gain rows) = f.p
      rw [hgain, Covariance.joseph_zero]
    rwa [hkeep]

/-! ### Runs -/

/-- What every call keeps of the covariance, whatever the tuning. -/
structure Isotropic (p : StateMatrix) : Prop where
  posSemidef : p.PosSemidef
  axes : AxisBlock p
  mirrored : Mirrored p

theorem Isotropic.predict (h : Isotropic f.p) (dtS : ℝ) : Isotropic (f.predict dtS).p := by
  refine ⟨?_, axisBlock_predict h.axes dtS, mirrored_predict h.mirrored dtS⟩
  unfold TrackFilter.predict
  split_ifs
  · exact h.posSemidef
  · exact (Covariance.posSemidef_conj h.posSemidef _).add (posSemidef_processNoise _ _)

theorem posSemidef_measurementNoise (f : TrackFilter) (lat lon : ℝ)
    (altitudeFt groundSpeedKt trackDeg verticalRateFpm : Option ℝ) : (measurementNoise
      (f.measuredRows lat lon altitudeFt groundSpeedKt trackDeg verticalRateFpm)).PosSemidef := by
  have hvariance : ∀ row ∈ f.measuredRows lat lon altitudeFt groundSpeedKt trackDeg verticalRateFpm,
      0 ≤ row.variance := by
    cases altitudeFt <;> cases groundSpeedKt <;> cases trackDeg <;> cases verticalRateFpm <;>
      simp [measuredRows, sq_nonneg]
  exact PosSemidef.diagonal fun i => hvariance _ (List.get_mem _ i)

theorem Isotropic.call (h : Isotropic f.p) (c : FilterCall) : Isotropic (f.call c).p := by
  cases c with
  | predict dtS => exact h.predict dtS
  | update dtS lat lon altitudeFt groundSpeedKt trackDeg verticalRateFpm =>
    have hp := h.predict dtS
    have hnoise := posSemidef_measurementNoise (f.predict dtS) lat lon altitudeFt groundSpeedKt trackDeg
      verticalRateFpm
    obtain ⟨τ, hτ⟩ := exists_exchanges (f.predict dtS) lat lon altitudeFt groundSpeedKt trackDeg
      verticalRateFpm
    exact ⟨Covariance.posSemidef_joseph hp.posSemidef hnoise _, axisBlock_correct_of_any hp.axes _,
      mirrored_correct hp.mirrored hτ⟩

theorem Isotropic.calls (h : Isotropic f.p) (calls : List FilterCall) :
    Isotropic (calls.foldl TrackFilter.call f).p := by
  induction calls generalizing f with
  | nil => exact h
  | cons c calls ih => exact ih (h.call c)

theorem isotropic_init (refLat refLon lat lon alt speed track rate : ℝ) (tuning : FilterTuning) :
    Isotropic (init refLat refLon lat lon alt speed track rate tuning).p := by
  refine ⟨PosSemidef.diagonal fun i => ?_, axisBlock_diagonal _, mirrored_init ..⟩
  fin_cases i <;> exact sq_nonneg _

/-- The root sum square over two equal axes is `√2` times the sigma of one. -/
theorem sqrt_double {v : ℝ} (hv : 0 ≤ v) : √(max 0 (v + v)) * 1852 / √2 = √v * 1852 := by
  have htwo : √(v + v) = √2 * √v := by rw [← two_mul, Real.sqrt_mul zero_le_two]
  have hne : √(2 : ℝ) ≠ 0 := Real.sqrt_ne_zero'.mpr zero_lt_two
  rw [max_eq_right (add_nonneg hv hv), htwo]
  field_simp

/-- After any calls on any filter no two axes are correlated, the east and north blocks are equal, and the
    reported uncertainties are the sigmas of both horizontal axes. -/
theorem horizontal_error_is_isotropic (refLat refLon lat lon altitudeFt groundSpeedKt trackDeg
    verticalRateFpm : ℝ) (tuning : FilterTuning) (calls : List FilterCall) :
    let f := calls.foldl call
      (init refLat refLon lat lon altitudeFt groundSpeedKt trackDeg verticalRateFpm tuning)
    (∀ i j, axisOf i ≠ axisOf j → f.p i j = 0) ∧
    f.p.submatrix ![rowEast, rowVEast] ![rowEast, rowVEast] =
      f.p.submatrix ![rowNorth, rowVNorth] ![rowNorth, rowVNorth] ∧
    (∀ row ∈ [rowEast, rowNorth], 0 ≤ f.p row row ∧
      f.estimate.positionUncertaintyM / √2 = √(f.p row row) * 1852) ∧
    (∀ row ∈ [rowVEast, rowVNorth], 0 ≤ f.p row row ∧
      f.estimate.velocityUncertaintyKt = √(f.p row row)) := by
  intro f
  have h : Isotropic f.p := (isotropic_init ..).calls calls
  have hposition : f.p rowNorth rowNorth = f.p rowEast rowEast := h.mirrored.apply rowEast rowEast
  have hvelocity : f.p rowVNorth rowVNorth = f.p rowVEast rowVEast := h.mirrored.apply rowVEast rowVEast
  have heast : 0 ≤ f.p rowEast rowEast := h.posSemidef.diag_nonneg
  have hveast : 0 ≤ f.p rowVEast rowVEast := h.posSemidef.diag_nonneg
  refine ⟨h.axes, ?_, ?_, ?_⟩
  · ext i j
    have := h.mirrored.apply (![rowEast, rowVEast] i) (![rowEast, rowVEast] j)
    fin_cases i <;> fin_cases j <;> exact this.symm
  · have hsigma : f.estimate.positionUncertaintyM / √2 = √(f.p rowEast rowEast) * 1852 := by
      simp only [estimate, hposition]
      exact sqrt_double heast
    simp [hsigma, hposition, heast]
  · have hsigma : f.estimate.velocityUncertaintyKt = √(f.p rowVEast rowVEast) := by
      simp only [estimate, hvelocity]
      rw [max_eq_right (by linarith)]
      congr 1
      ring
    simp [hsigma, hvelocity, hveast]

end TrackFilter

end

end Airspace
