import Airspace.Track.Checked

/-! Tracks along the equator.

    Of an aircraft that flies along the equator the filter learns no north position and no north speed: a
    prediction gives it none, and a report that measures none of it corrects nothing. So no update of it comes
    near a pole, and none of them is refused. -/

namespace Airspace

noncomputable section

namespace TrackEstimator

/-- The report puts the aircraft on the equator, heading east. -/
structure OfEquator (r : SurveillanceReport) : Prop where
  admitted : r.Admitted
  lat : r.lat = 0
  trackDeg : r.trackDeg = some 90

variable {e : TrackEstimator} {f : TrackFilter} {record : TrackRecord} {r : SurveillanceReport}

theorem velocityOf_east (speed : ℝ) : (velocityOf speed 90).2 = 0 := by
  rw [velocityOf, radians_ninety, Real.cos_pi_div_two, mul_zero]

/-- Rows that measure nothing of the north axis leave it as it is. -/
theorem OnEquator.correct (h : OnEquator f) {rows : List MeasuredRow} (hblock : AxisBlock f.p)
    (hs : IsUnit (f.innovationCovariance rows))
    (hrows : ∀ m ∈ rows, axisOf m.row = axisOf rowNorth → m.value = 0) : OnEquator (f.correct rows) := by
  have hzero : ∀ row, axisOf row = axisOf rowNorth → f.x row = 0 := by
    intro row hrow
    rcases eq_of_axisOf (a := 1) hrow with rfl | rfl
    · exact h.north
    · exact h.vNorth
  have hkeep : ∀ row, axisOf row = axisOf rowNorth → (f.correct rows).x row = 0 := by
    intro row hrow
    have hgain : ∀ j, f.gain rows row j * f.innovation rows j = 0 := by
      intro j
      by_cases haxis : axisOf row = axisOf (rows.get j).row
      · have hmeasured := haxis.symm.trans hrow
        rw [TrackFilter.innovation_apply, hrows _ (List.get_mem rows j) hmeasured, hzero _ hmeasured, sub_zero,
          mul_zero]
      · rw [TrackFilter.gain_eq_zero_of_axis hblock hs haxis, zero_mul]
    simp only [TrackFilter.correct, Pi.add_apply, Matrix.mulVec, dotProduct, hzero row hrow, hgain,
      Finset.sum_const_zero, add_zero]
  exact ⟨h.refLat, hkeep rowNorth rfl, hkeep rowVNorth rfl⟩

/-- A report on the equator measures nothing of the north axis. -/
theorem value_measuredRows (h : f.refLat = 0) (hr : OfEquator r) :
    ∀ m ∈ f.measuredRows r.lat r.lon r.altitudeBaroFt r.groundSpeedKt r.trackDeg r.verticalRateFpm,
      axisOf m.row = axisOf rowNorth → m.value = 0 := by
  intro m hm hrow
  rcases TrackFilter.mem_measuredRows f r.lat r.lon _ _ _ _ m hm with haxis | rfl | ⟨speed, hspeed, rfl⟩
  · exact absurd hrow.symm haxis
  · simp [toLocalEnu, h, hr.lat, radians]
  · rw [hr.trackDeg] at hspeed
    cases hknots : r.groundSpeedKt with
    | none =>
      rw [hknots] at hspeed
      cases hspeed
    | some knots =>
      rw [hknots] at hspeed
      exact (Option.some.inj hspeed).symm.trans (velocityOf_east knots)

/-- Folding such a report in keeps the filter on the equator. -/
theorem onEquator_corrected {icao24 : String} (h : OnEquator record.filter) (hframed : Framed icao24 record)
    (hr : OfEquator r) (hlt : record.lastReportAt < r.observedAt) : OnEquator (corrected record r) := by
  have hpos : (0 : ℝ) < (totalSeconds (r.observedAt - record.lastReportAt) : ℚ) := by
    exact_mod_cast totalSeconds_pos.mpr (sub_pos.mpr hlt)
  have hpredicted := h.predict hframed.posDef hpos
  have htuning : (record.filter.predict (totalSeconds (r.observedAt - record.lastReportAt) : ℚ)).tuning.Positive :=
    (TrackFilter.tuning_predict record.filter _).symm ▸ hframed.tuning
  have hposDef := TrackFilter.posDef_predict hframed.posDef
    (totalSeconds (r.observedAt - record.lastReportAt) : ℚ)
  exact hpredicted.correct (TrackFilter.axisBlock_predict hframed.block _)
    (TrackFilter.isUnit_innovationCovariance htuning hposDef ..) (value_measuredRows hpredicted.refLat hr)

theorem onEquator_initiate (hr : OfEquator r) : OnEquator (e.initiate r).filter := by
  have href : pyRound 0 = 0 := by
    obtain ⟨h0, h1⟩ := pyRound_mem (x := 0) (a := 0) (b := 0) (by norm_num) (by norm_num)
    exact le_antisymm h1 h0
  have hlat : (e.initiate r).filter.refLat = 0 := by
    change ((pyRound r.lat : ℤ) : ℝ) = 0
    rw [hr.lat, href, Int.cast_zero]
  refine ⟨hlat, ?_, ?_⟩
  · change radians (r.lat - (e.initiate r).filter.refLat) * earthRadiusNm = 0
    simp [hlat, hr.lat, radians]
  · change (velocityOf (r.groundSpeedKt.getD 0) (r.trackDeg.getD 0)).2 = 0
    rw [hr.trackDeg, Option.getD_some, velocityOf_east]

/-! ### The estimator -/

/-- An estimator all of whose tracks are on the equator. -/
structure AlongEquator (e : TrackEstimator) : Prop extends Steady e where
  level : ∀ record ∈ e.tracks.values, OnEquator record.filter

theorem alongEquator_empty (he : e.tracks = Dict.empty) (ht : e.tuning.Positive) : AlongEquator e := by
  refine ⟨steady_empty he ht, fun record hmem => ?_⟩
  rw [he] at hmem
  cases hmem

/-- Such a report is answered, and keeps the tracks there. -/
theorem answered_alongEquator (h : AlongEquator e) (hr : OfEquator r) :
    (e.onReport r).2.Admitted ∧ AlongEquator (e.onReport r).1 := by
  obtain ⟨hanswered, hsteady⟩ := report_checked h.toSteady hr.admitted
  have hlevel : ∀ record, OnEquator record.filter → r.observedAt ≤ record.lastReportAt →
      e.onReport r = e.answer r record → ∀ other ∈ (e.onReport r).1.tracks.values, OnEquator other.filter := by
    intro record hrecord hnew hanswer other hmem
    obtain ⟨key, hget⟩ := Dict.mem_values_iff.mp hmem
    rw [hanswer, tracks_answer hnew, Dict.get?_set] at hget
    split_ifs at hget with hkey
    · exact Option.some.inj hget ▸ hrecord
    · exact h.level other (Dict.mem_values_iff.mpr ⟨key, hget⟩)
  cases hget : e.tracks.get? r.icao24 with
  | none =>
    have hkeeps : KeepsOffPoles e (.report r) := by
      intro record hother
      rw [hget] at hother
      cases hother
    exact ⟨hanswered.mpr hkeeps, hsteady, hlevel _ (onEquator_initiate hr) le_rfl (onReport_of_none hget)⟩
  | some record =>
    have hrecord := h.level record (Dict.mem_values_iff.mpr ⟨_, hget⟩)
    have hplaced := h.placed _ _ hget
    have hupdate : OnEquator (e.update record r).filter := by
      rcases le_or_gt r.observedAt record.lastReportAt with hle | hlt
      · rwa [update_of_le hle]
      · rw [update, if_neg (not_le.mpr (totalSeconds_pos.mpr (sub_pos.mpr hlt)))]
        exact onEquator_corrected hrecord hplaced.framed hr hlt
    have hkeeps : KeepsOffPoles e (.report r) := by
      intro other hother _
      obtain rfl := Option.some.inj (hget.symm.trans hother)
      have hlat := (lat_update (e := e) (r := r) hplaced).symm.trans (placed_update hplaced hr.admitted).lat
      unfold TrackFilter.BetweenPoles
      rw [hlat, TrackFilter.latitudeAt, hupdate.refLat, hupdate.north]
      simp [degrees]
    refine ⟨hanswered.mpr hkeeps, hsteady, ?_⟩
    cases hterminated : record.terminated with
    | true => exact hlevel _ (onEquator_initiate hr) le_rfl (onReport_of_terminated hget hterminated)
    | false => exact hlevel _ hupdate (le_lastReportAt_update record r) (onReport_of_live hget hterminated)

end TrackEstimator

end

end Airspace
