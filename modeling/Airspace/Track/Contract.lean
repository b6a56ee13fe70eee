import Airspace.Storage.TrackHistory
import Airspace.Track.FilterNorth
import Airspace.Track.Sweeps

/-! The estimator and the contract of its updates.

    What a track update must satisfy is checked when it is built, and the history stores it in columns of
    bounded width. Longitude, heading, altitude and speed are brought into range on the way out of the
    filter; the latitude is what the local plane gives, which runs on past a pole, and the texts of a report
    are carried through as they are. -/

namespace Airspace

noncomputable section

/-- What the columns of the history take. -/
structure TrackUpdate.FitsColumns (u : TrackUpdate) : Prop where
  trackId : u.trackId.length ≤ 64
  icao24 : u.icao24.length ≤ 6
  callsign : ∀ s ∈ u.callsign, s.length ≤ 16
  scenarioId : ∀ s ∈ u.scenarioId, s.length ≤ 64
  state : u.state.value.length ≤ 16
  updateCount : u.updateCount ≤ 2147483647

namespace TrackFilter

/-- The latitude of a north position. -/
def latitudeAt (f : TrackFilter) (north : ℝ) : ℝ := f.refLat + degrees (north / earthRadiusNm)

/-- The north position lies between the poles. -/
def BetweenPoles (f : TrackFilter) (north : ℝ) : Prop := -90 ≤ f.latitudeAt north ∧ f.latitudeAt north ≤ 90

end TrackFilter

namespace TrackEstimator

/-- The updates a call builds. -/
def updatesOf (e : TrackEstimator) : Call → List TrackUpdate
  | .report r => [(e.onReport r).2]
  | .sweep now => (e.sweep now).2

/-- The report is newer than the last one of a live track, so it is folded in. -/
structure Folds (e : TrackEstimator) (r : SurveillanceReport) (record : TrackRecord) : Prop where
  held : e.tracks.get? r.icao24 = some record
  live : record.terminated = false
  newer : record.lastReportAt < r.observedAt

/-- Nothing a call builds is refused: its updates meet the contract and fit the columns, and the matrix a
    correction inverts has an inverse. -/
structure Answered (e : TrackEstimator) (call : Call) : Prop where
  admitted : ∀ u ∈ e.updatesOf call, u.Admitted
  fits : ∀ u ∈ e.updatesOf call, u.FitsColumns
  invertible : ∀ r record, call = .report r → Folds e r record →
    let f := record.filter.predict (totalSeconds (r.observedAt - record.lastReportAt))
    IsUnit (f.innovationCovariance
      (f.measuredRows r.lat r.lon r.altitudeBaroFt r.groundSpeedKt r.trackDeg r.verticalRateFpm))

/-- A condition on each call of a run and the estimator it meets. -/
def AtEveryCall (P : TrackEstimator → Call → Prop) (e : TrackEstimator) (calls : List Call) : Prop :=
  ∀ before call later, calls = before ++ call :: later → P (e.after before) call

/-- What keeps the updates of a report in bounds. A report that starts a track brings texts that fit; one
    that is folded in brings a callsign that fits, the count of the track has room, and the north position
    that the track's and the report's own positions and speeds make is between the poles. -/
structure ReportFits (e : TrackEstimator) (r : SurveillanceReport) : Prop where
  starts : (∀ record, e.tracks.get? r.icao24 = some record → record.terminated = true) →
    (∀ s ∈ r.callsign, s.length ≤ 16) ∧ ∀ s ∈ r.scenarioId, s.length ≤ 64
  folded : ∀ record, Folds e r record → (∀ s ∈ r.callsign, s.length ≤ 16) ∧
    record.updateCount < 2147483647 ∧
    record.filter.BetweenPoles (record.filter.correctNorth
      (totalSeconds (r.observedAt - record.lastReportAt)) r.lat r.lon r.groundSpeedKt r.trackDeg)

/-- A sweep finds the track silent for so long that its state changes. -/
def FallsSilent (e : TrackEstimator) (now : Instant) (record : TrackRecord) : Prop :=
  record.terminated = false ∧
    let silenceS := totalSeconds (now - record.lastReportAt)
    (silenceS ≥ e.terminateAfterS ∧ record.state ≠ .terminated ∨
      silenceS < e.terminateAfterS ∧ silenceS ≥ e.coastAfterS ∧ record.state ≠ .coasting)

/-- A track that falls silent stays between the poles when its north position is run forward at its north
    speed. -/
def SilentFits (e : TrackEstimator) (now : Instant) (record : TrackRecord) : Prop :=
  FallsSilent e now record → record.lastReportAt < now →
    record.filter.BetweenPoles (record.filter.x rowNorth +
      knotsToNmPerSecond 1 * totalSeconds (now - record.lastReportAt) * record.filter.x rowVNorth)

/-- What keeps the updates of a sweep in bounds. -/
def SweepFits (e : TrackEstimator) (now : Instant) : Prop := ∀ record ∈ e.tracks.values, SilentFits e now record

def CallFits (e : TrackEstimator) : Call → Prop
  | .report r => ReportFits e r
  | .sweep now => SweepFits e now

variable {e : TrackEstimator} {record : TrackRecord} {icao24 : String} {r : SurveillanceReport}
  {calls : List Call}

theorem atEveryCall_nil {P : TrackEstimator → Call → Prop} : AtEveryCall P e [] := by
  intro before call later h
  simp at h

theorem atEveryCall_cons {P : TrackEstimator → Call → Prop} {call : Call} :
    AtEveryCall P e (call :: calls) ↔ P e call ∧ AtEveryCall P (e.after [call]) calls := by
  have hafter : ∀ before, e.after (call :: before) = (e.after [call]).after before := by
    cases call <;> exact fun _ => rfl
  constructor
  · intro h
    refine ⟨h [] call calls rfl, fun before c later hcalls => ?_⟩
    rw [← hafter]
    exact h (call :: before) c later (by rw [hcalls]; rfl)
  · rintro ⟨hhead, htail⟩ before c later hcalls
    cases before with
    | nil =>
      obtain ⟨rfl, rfl⟩ := List.cons.inj hcalls
      exact hhead
    | cons first before =>
      obtain ⟨rfl, rfl⟩ := List.cons.inj hcalls
      rw [hafter]
      exact htail before c later rfl

/-! ### Records -/

/-- What holds of a record whatever the reports say of latitude and texts. -/
structure Framed (icao24 : String) (record : TrackRecord) : Prop where
  isOf : IsOf record icao24
  address : isIcao24 icao24
  lon : -180 ≤ record.lon ∧ record.lon ≤ 180
  positionUncertaintyM : 0 ≤ record.positionUncertaintyM
  velocityUncertaintyKt : 0 ≤ record.velocityUncertaintyKt
  altitudeUncertaintyFt : 0 ≤ record.altitudeUncertaintyFt
  verticalRateUncertaintyFpm : 0 ≤ record.verticalRateUncertaintyFpm
  innovationNm : 0 ≤ record.innovationNm
  squawk : ∀ s ∈ record.squawk, isSquawk s
  refLon : -180 ≤ record.filter.refLon ∧ record.filter.refLon ≤ 180
  tuning : record.filter.tuning.Positive
  block : AxisBlock record.filter.p
  posDef : record.filter.p.PosDef

/-- What does not: the latitude, the texts and the count of a record are in bounds. -/
structure Within (record : TrackRecord) : Prop where
  lat : -90 ≤ record.lat ∧ record.lat ≤ 90
  callsign : ∀ s ∈ record.callsign, s.length ≤ 16
  scenarioId : ∀ s ∈ record.scenarioId, s.length ≤ 64
  updateCount : record.updateCount ≤ 2147483647

theorem length_of_isIcao24 {s : String} (h : isIcao24 s) : s.length = 6 := by
  have := (Bool.and_eq_true _ _).mp h
  exact beq_iff_eq.mp this.1

/-- The update built from a record in frame is admitted exactly when its latitude is. -/
theorem admitted_iff {t : Instant} (h : Framed icao24 (coast record t)) :
    (toUpdate record t).2.Admitted ↔ -90 ≤ (coast record t).lat ∧ (coast record t).lat ≤ 90 := by
  constructor
  · exact fun hadmitted => hadmitted.lat
  · intro hlat
    refine ⟨?_, hlat, h.lon, le_max_left .., pyMod_mem _ (by norm_num), h.positionUncertaintyM, ?_, ?_, ?_, ?_,
      h.squawk⟩
    · change isIcao24 (coast record t).icao24
      rw [h.isOf.1]
      exact h.address
    · rintro x ⟨⟩
      exact h.innovationNm
    · rintro x ⟨⟩
      exact h.velocityUncertaintyKt
    · rintro x ⟨⟩
      exact h.altitudeUncertaintyFt
    · rintro x ⟨⟩
      exact h.verticalRateUncertaintyFpm

/-- The update built from a record in frame is accepted exactly when the record is within bounds. -/
theorem accepted_iff {t : Instant} (h : Framed icao24 (coast record t)) :
    (toUpdate record t).2.Admitted ∧ (toUpdate record t).2.FitsColumns ↔ Within (coast record t) := by
  obtain ⟨hicao, hid⟩ := h.isOf
  constructor
  · rintro ⟨hadmitted, hfits⟩
    exact ⟨hadmitted.lat, hfits.callsign, hfits.scenarioId, hfits.updateCount⟩
  · intro hw
    have hlength := length_of_isIcao24 h.address
    refine ⟨(admitted_iff h).mpr hw.lat, ?_, ?_, hw.callsign, hw.scenarioId, ?_, hw.updateCount⟩
    · change (coast record t).trackId.length ≤ 64
      rw [hid, trackIdFor, String.length_append, hlength]
      decide
    · change (coast record t).icao24.length ≤ 6
      rw [hicao, hlength]
    · change ((coast record t).state).value.length ≤ 16
      cases (coast record t).state <;> decide

/-- What an estimate has in range whatever the state and the covariance are. -/
theorem estimate_mem {f : TrackFilter} (h : -180 ≤ f.refLon ∧ f.refLon ≤ 180) :
    (-180 ≤ f.estimate.lon ∧ f.estimate.lon ≤ 180) ∧ 0 ≤ f.estimate.positionUncertaintyM ∧
      0 ≤ f.estimate.velocityUncertaintyKt ∧ 0 ≤ f.estimate.altitudeUncertaintyFt ∧
      0 ≤ f.estimate.verticalRateUncertaintyFpm :=
  ⟨fromLocalEnu_lon_mem h _ _ _, mul_nonneg (Real.sqrt_nonneg _) (by norm_num), Real.sqrt_nonneg _,
    Real.sqrt_nonneg _, Real.sqrt_nonneg _⟩

theorem estimate_lat (f : TrackFilter) : f.estimate.lat = f.latitudeAt (f.x rowNorth) :=
  fromLocalEnu_lat _ _ _ _

theorem framed_initiate (hr : r.Admitted) (ht : e.tuning.Positive) : Framed r.icao24 (e.initiate r) := by
  obtain ⟨hlow, hhigh⟩ := hr.lon
  have href : -180 ≤ (referenceFor r.lat r.lon).2 ∧ (referenceFor r.lat r.lon).2 ≤ 180 := by
    obtain ⟨h0, h1⟩ := pyRound_mem (x := r.lon) (a := -180) (b := 180) (by push_cast; exact hlow)
      (by push_cast; exact hhigh)
    have h0' : ((-180 : ℤ) : ℝ) ≤ pyRound r.lon := Int.cast_le.mpr h0
    have h1' : (pyRound r.lon : ℝ) ≤ (180 : ℤ) := Int.cast_le.mpr h1
    push_cast at h0' h1'
    exact ⟨h0', h1'⟩
  obtain ⟨hlon, hposition, hvelocity, haltitude, hrate⟩ := estimate_mem (f := (e.initiate r).filter) href
  exact ⟨isOf_initiate r, hr.icao24, hlon, hposition, hvelocity, haltitude, hrate, le_refl 0, hr.squawk, href,
    ht, TrackFilter.axisBlock_init _ _ _ _ _ _ _ _ _, TrackFilter.posDef_init ht ..⟩

theorem framed_coast (h : Framed icao24 record) (t : Instant) : Framed icao24 (coast record t) := by
  have href : ∀ dtS, (record.filter.predict dtS).refLon = record.filter.refLon := by
    intro dtS
    unfold TrackFilter.predict
    split_ifs <;> rfl
  simp only [coast]
  split_ifs
  · obtain ⟨hlon, hposition, hvelocity, haltitude, hrate⟩ := estimate_mem (f := record.filter.predict
      (max 0 (totalSeconds (t - record.lastReportAt)) : ℚ)) (by rw [href]; exact h.refLon)
    exact ⟨h.isOf, h.address, hlon, hposition, hvelocity, haltitude, hrate, h.innovationNm, h.squawk,
      by rw [href]; exact h.refLon, by rw [TrackFilter.tuning_predict]; exact h.tuning,
      TrackFilter.axisBlock_predict h.block _, TrackFilter.posDef_predict h.posDef _⟩
  · exact h

theorem stringOr_mem {p : String → Prop} {a b : Option String} (ha : ∀ s ∈ a, p s) (hb : ∀ s ∈ b, p s) :
    ∀ s ∈ stringOr a b, p s := by
  intro s hs
  unfold stringOr at hs
  split at hs
  · split_ifs at hs
    · exact hb s hs
    · exact ha s hs
  · exact hb s hs

/-- The filter a report is folded into. -/
def corrected (record : TrackRecord) (r : SurveillanceReport) : TrackFilter :=
  record.filter.update (totalSeconds (r.observedAt - record.lastReportAt)) r.lat r.lon r.altitudeBaroFt
    r.groundSpeedKt r.trackDeg r.verticalRateFpm

theorem framed_corrected (h : Framed icao24 record) (r : SurveillanceReport) :
    (corrected record r).refLat = record.filter.refLat ∧ (corrected record r).refLon = record.filter.refLon ∧
      (corrected record r).tuning.Positive ∧ AxisBlock (corrected record r).p ∧
        (corrected record r).p.PosDef := by
  have hpredict : ∀ dtS, (record.filter.predict dtS).refLat = record.filter.refLat ∧
      (record.filter.predict dtS).refLon = record.filter.refLon := by
    intro dtS
    unfold TrackFilter.predict
    split_ifs <;> exact ⟨rfl, rfl⟩
  have ht : ∀ dtS, (record.filter.predict dtS).tuning.Positive := by
    intro dtS
    rw [TrackFilter.tuning_predict]
    exact h.tuning
  have hp := TrackFilter.posDef_predict h.posDef (totalSeconds (r.observedAt - record.lastReportAt))
  refine ⟨(hpredict _).1, (hpredict _).2, ht _, ?_, ?_⟩
  · exact TrackFilter.axisBlock_correct (TrackFilter.axisBlock_predict h.block _)
      (TrackFilter.isUnit_innovationCovariance (ht _) hp ..)
  · exact TrackFilter.posDef_correct hp (TrackFilter.variance_pos (ht _) _ _ _ _ _ _)

theorem framed_update (h : Framed icao24 record) (hr : r.Admitted) : Framed icao24 (e.update record r) := by
  rcases le_or_gt r.observedAt record.lastReportAt with hle | hlt
  · rwa [update_of_le hle]
  have hspan : ¬ totalSeconds (r.observedAt - record.lastReportAt) ≤ 0 :=
    not_le.mpr (totalSeconds_pos.mpr (sub_pos.mpr hlt))
  obtain ⟨-, href, ht, hblock, hp⟩ := framed_corrected h r
  have hrange : -180 ≤ (corrected record r).refLon ∧ (corrected record r).refLon ≤ 180 := by
    rw [href]
    exact h.refLon
  obtain ⟨hlon, hposition, hvelocity, haltitude, hrate⟩ := estimate_mem hrange
  rw [update, if_neg hspan]
  exact ⟨h.isOf, h.address, hlon, hposition, hvelocity, haltitude, hrate, Real.sqrt_nonneg _,
    stringOr_mem hr.squawk h.squawk, hrange, ht, hblock, hp⟩

/-! ### Within bounds -/

/-- The first update of a track is where the report is. -/
theorem within_initiate_iff (hr : r.Admitted) : Within (e.initiate r) ↔
    (∀ s ∈ r.callsign, s.length ≤ 16) ∧ ∀ s ∈ r.scenarioId, s.length ≤ 64 := by
  have hlat : (e.initiate r).lat = r.lat := by
    refine (estimate_lat (e.initiate r).filter).trans ?_
    exact lat_toLocalEnu (referenceFor r.lat r.lon).1 (referenceFor r.lat r.lon).2 r.lat r.lon
  constructor
  · intro h
    exact ⟨h.callsign, h.scenarioId⟩
  · rintro ⟨hcallsign, hscenario⟩
    refine ⟨?_, hcallsign, hscenario, by simp [initiate]⟩
    rw [hlat]
    exact hr.lat

theorem callsign_iff {a b : Option String} (hb : ∀ s ∈ b, s.length ≤ 16) :
    (∀ s ∈ stringOr a b, s.length ≤ 16) ↔ ∀ s ∈ a, s.length ≤ 16 := by
  constructor
  · rintro h s ⟨⟩
    by_cases hs : s = ""
    · rw [hs]
      decide
    · exact h s (by rw [stringOr]; exact if_neg hs)
  · intro ha
    exact stringOr_mem ha hb

/-- Where a newer report puts the record. -/
theorem lat_corrected (h : Framed icao24 record) (hlt : record.lastReportAt < r.observedAt) :
    (corrected record r).estimate.lat = record.filter.latitudeAt (record.filter.correctNorth
      (totalSeconds (r.observedAt - record.lastReportAt)) r.lat r.lon r.groundSpeedKt r.trackDeg) := by
  have hpos := totalSeconds_pos.mpr (sub_pos.mpr hlt)
  rw [estimate_lat, TrackFilter.latitudeAt, (framed_corrected h r).1, corrected,
    TrackFilter.update_north h.tuning h.block h.posDef (by exact_mod_cast hpos)]
  rfl

/-- Where running forward puts it. -/
theorem lat_coast_of_lt (h : Framed icao24 record) {t : Instant} (hlt : record.lastReportAt < t) :
    (coast record t).lat = record.filter.latitudeAt (record.filter.x rowNorth +
      knotsToNmPerSecond 1 * totalSeconds (t - record.lastReportAt) * record.filter.x rowVNorth) := by
  have hpos := totalSeconds_pos.mpr (sub_pos.mpr hlt)
  have hdt : (0 : ℝ) < (totalSeconds (t - record.lastReportAt) : ℝ) := by exact_mod_cast hpos
  have hcoast : (coast record t).lat =
      (record.filter.predict (totalSeconds (t - record.lastReportAt) : ℝ)).estimate.lat := by
    simp only [coast]
    rw [if_pos (lt_max_of_lt_right hpos), max_eq_right hpos.le]
  rw [hcoast, estimate_lat, TrackFilter.latitudeAt, TrackFilter.predict_north h.posDef hdt,
    TrackFilter.predict, if_neg (not_le.mpr hdt)]
  rfl

theorem within_update_iff (hw : Within record) (h : Framed icao24 record)
    (hlt : record.lastReportAt < r.observedAt) : Within (e.update record r) ↔
      (∀ s ∈ r.callsign, s.length ≤ 16) ∧ record.updateCount < 2147483647 ∧
      record.filter.BetweenPoles (record.filter.correctNorth
        (totalSeconds (r.observedAt - record.lastReportAt)) r.lat r.lon r.groundSpeedKt r.trackDeg) := by
  have hspan : ¬ totalSeconds (r.observedAt - record.lastReportAt) ≤ 0 :=
    not_le.mpr (totalSeconds_pos.mpr (sub_pos.mpr hlt))
  have hbounds : Within (e.update record r) ↔
      (-90 ≤ (corrected record r).estimate.lat ∧ (corrected record r).estimate.lat ≤ 90) ∧
      (∀ s ∈ stringOr r.callsign record.callsign, s.length ≤ 16) ∧ record.updateCount + 1 ≤ 2147483647 := by
    rw [update, if_neg hspan]
    constructor
    · intro h'
      exact ⟨h'.lat, h'.callsign, h'.updateCount⟩
    · rintro ⟨hlat', hcallsign, hcount⟩
      exact ⟨hlat', hcallsign, hw.scenarioId, hcount⟩
  rw [hbounds, lat_corrected h hlt, callsign_iff hw.callsign]
  unfold TrackFilter.BetweenPoles
  constructor
  · rintro ⟨hpoles, hcallsign, hcount⟩
    exact ⟨hcallsign, hcount, hpoles⟩
  · rintro ⟨hcallsign, hcount, hpoles⟩
    exact ⟨hpoles, hcallsign, hcount⟩

theorem within_coast_iff (hw : Within record) (h : Framed icao24 record) {t : Instant} :
    Within (coast record t) ↔ (record.lastReportAt < t → record.filter.BetweenPoles (record.filter.x rowNorth +
      knotsToNmPerSecond 1 * totalSeconds (t - record.lastReportAt) * record.filter.x rowVNorth)) := by
  rcases le_or_gt t record.lastReportAt with hle | hlt
  · rw [coast_at_report hle]
    exact ⟨fun _ hlt => absurd hlt (not_lt.mpr hle), fun _ => hw⟩
  have hbounds : Within (coast record t) ↔ -90 ≤ (coast record t).lat ∧ (coast record t).lat ≤ 90 := by
    constructor
    · exact fun h' => h'.lat
    · intro hlat'
      refine ⟨hlat', ?_, ?_, ?_⟩
      all_goals simp only [coast]; split_ifs
      all_goals first
        | exact hw.callsign
        | exact hw.scenarioId
        | exact hw.updateCount
  rw [hbounds, lat_coast_of_lt h hlt]
  exact ⟨fun hpoles _ => hpoles, fun hpoles => hpoles hlt⟩

/-! ### One call -/

/-- Every record held is in frame and within bounds. -/
structure Sound (e : TrackEstimator) : Prop where
  tuning : e.tuning.Positive
  framed : ∀ icao24 record, e.tracks.get? icao24 = some record → Framed icao24 record
  within : ∀ icao24 record, e.tracks.get? icao24 = some record → Within record

theorem invertible_of_sound (h : Sound e) (call : Call) : ∀ r record, call = .report r → Folds e r record →
    let f := record.filter.predict (totalSeconds (r.observedAt - record.lastReportAt))
    IsUnit (f.innovationCovariance
      (f.measuredRows r.lat r.lon r.altitudeBaroFt r.groundSpeedKt r.trackDeg r.verticalRateFpm)) := by
  intro r record _ hfolds
  have hframed := h.framed _ _ hfolds.held
  exact TrackFilter.isUnit_innovationCovariance (by rw [TrackFilter.tuning_predict]; exact hframed.tuning)
    (TrackFilter.posDef_predict hframed.posDef _) ..

/-- A report answered from a record in frame is accepted exactly when the record is within bounds. -/
theorem answered_of_answer (h : Sound e) (hanswer : e.onReport r = e.answer r record)
    (hframed : Framed r.icao24 record) (hnew : r.observedAt ≤ record.lastReportAt) :
    (Answered e (.report r) ↔ Within record) ∧ (Within record → Sound (e.onReport r).1) := by
  have hcoast := coast_at_report hnew
  have hupdates : e.updatesOf (.report r) = [(toUpdate record r.observedAt).2] := by
    rw [updatesOf, hanswer]
    rfl
  have haccepted := accepted_iff (t := r.observedAt) (by rw [hcoast]; exact hframed)
  rw [hcoast] at haccepted
  refine ⟨?_, ?_⟩
  · rw [← haccepted]
    constructor
    · intro ha
      exact ⟨ha.admitted _ (by simp [hupdates]), ha.fits _ (by simp [hupdates])⟩
    · rintro ⟨hadmitted, hfits⟩
      refine ⟨?_, ?_, invertible_of_sound h _⟩
      · simpa [hupdates] using hadmitted
      · simpa [hupdates] using hfits
  · intro hw
    have htracks := tracks_answer (e := e) hnew
    rw [hanswer]
    refine ⟨h.tuning, ?_, ?_⟩
    all_goals
      intro key v hget
      rw [htracks, Dict.get?_set] at hget
      split_ifs at hget with hkey
    · obtain rfl := Option.some.inj hget
      exact hkey ▸ hframed
    · exact h.framed key v hget
    · obtain rfl := Option.some.inj hget
      exact hw
    · exact h.within key v hget

theorem report_iff (h : Sound e) (hr : r.Admitted) :
    (Answered e (.report r) ↔ ReportFits e r) ∧ (ReportFits e r → Sound (e.onReport r).1) := by
  by_cases hstart : ∀ record, e.tracks.get? r.icao24 = some record → record.terminated = true
  · have hanswer : e.onReport r = e.answer r (e.initiate r) := by
      cases hget : e.tracks.get? r.icao24 with
      | none => exact onReport_of_none hget
      | some record => exact onReport_of_terminated hget (hstart record hget)
    have hfits : ReportFits e r ↔ Within (e.initiate r) := by
      rw [within_initiate_iff hr]
      constructor
      · exact fun hf => hf.starts hstart
      · refine fun hw => ⟨fun _ => hw, fun record hfolds => ?_⟩
        have hterm := hstart record hfolds.held
        rw [hfolds.live] at hterm
        cases hterm
    rw [hfits]
    exact answered_of_answer h hanswer (framed_initiate hr h.tuning) (le_refl _)
  · push Not at hstart
    obtain ⟨record, hget, hlive⟩ := hstart
    have hlive := Bool.eq_false_iff.mpr hlive
    have hunique : ∀ record', Folds e r record' → record' = record := fun record' hfolds =>
      Option.some.inj (hfolds.held.symm.trans hget)
    have hstarts : (∀ record, e.tracks.get? r.icao24 = some record → record.terminated = true) → False := by
      intro hall
      have hterm := hall record hget
      rw [hlive] at hterm
      cases hterm
    have hframed := h.framed _ _ hget
    have hw := h.within _ _ hget
    have hanswer := onReport_of_live hget hlive
    rcases le_or_gt r.observedAt record.lastReportAt with hle | hlt
    · rw [update_of_le hle] at hanswer
      have hfits : ReportFits e r ↔ Within record := by
        refine iff_of_true ⟨fun hall => (hstarts hall).elim, fun record' hfolds => ?_⟩ hw
        obtain rfl := hunique record' hfolds
        exact absurd hfolds.newer (not_lt.mpr hle)
      rw [hfits]
      exact answered_of_answer h hanswer hframed hle
    · have hfits : ReportFits e r ↔ Within (e.update record r) := by
        rw [within_update_iff hw hframed hlt]
        constructor
        · exact fun hf => hf.folded record ⟨hget, hlive, hlt⟩
        · refine fun hbounds => ⟨fun hall => (hstarts hall).elim, fun record' hfolds => ?_⟩
          obtain rfl := hunique record' hfolds
          exact hbounds
      rw [hfits]
      exact answered_of_answer h hanswer (framed_update hframed hr) (update_of_lt hlt).1.ge

/-- A sweep announces the records that fall silent, and leaves the others in place. -/
theorem sweepRecord_cases (e : TrackEstimator) (now : Instant) (record : TrackRecord) :
    ∃ state terminated, let aged := { record with state := state, terminated := terminated }
      FallsSilent e now record ∧
        e.sweepRecord now record = ((toUpdate aged now).1, some (toUpdate aged now).2) ∨
      ¬ FallsSilent e now record ∧ e.sweepRecord now record = (aged, none) := by
  by_cases hterm : record.terminated = true
  · refine ⟨record.state, record.terminated, .inr ⟨?_, sweepRecord_of_terminated hterm⟩⟩
    rintro ⟨hlive, -⟩
    rw [hterm] at hlive
    cases hlive
  have hlive := Bool.eq_false_iff.mpr hterm
  by_cases hend : totalSeconds (now - record.lastReportAt) ≥ e.terminateAfterS
  · refine ⟨.terminated, true, ?_⟩
    by_cases hstate : record.state = .terminated
    · right
      simp [FallsSilent, sweepRecord, hlive, hend, hstate, not_lt.mpr hend]
    · left
      simp [FallsSilent, sweepRecord, hlive, hend, hstate, Ne.symm hstate]
  · by_cases hcoast : totalSeconds (now - record.lastReportAt) ≥ e.coastAfterS
    · refine ⟨.coasting, record.terminated, ?_⟩
      by_cases hstate : record.state = .coasting
      · right
        simp [FallsSilent, sweepRecord, hlive, hend, hcoast, hstate]
      · left
        simp [FallsSilent, sweepRecord, hlive, hend, hcoast, hstate, Ne.symm hstate, not_le.mp hend]
    · refine ⟨record.state, record.terminated, .inr ⟨?_, ?_⟩⟩
      · simp [FallsSilent, hend, hcoast]
      · exact sweepRecord_fresh hlive (not_le.mp hcoast) (not_le.mp hend)

theorem framed_aged (h : Framed icao24 record) (state : TrackState) (terminated : Bool) :
    Framed icao24 { record with state := state, terminated := terminated } :=
  ⟨h.isOf, h.address, h.lon, h.positionUncertaintyM, h.velocityUncertaintyKt, h.altitudeUncertaintyFt,
    h.verticalRateUncertaintyFpm, h.innovationNm, h.squawk, h.refLon, h.tuning, h.block, h.posDef⟩

theorem within_aged (h : Within record) (state : TrackState) (terminated : Bool) :
    Within { record with state := state, terminated := terminated } :=
  ⟨h.lat, h.callsign, h.scenarioId, h.updateCount⟩

theorem sweepRecord_iff (hframed : Framed icao24 record) (hw : Within record) (now : Instant) :
    ((∀ u ∈ (e.sweepRecord now record).2, u.Admitted ∧ u.FitsColumns) ↔ SilentFits e now record) ∧
      Framed icao24 (e.sweepRecord now record).1 ∧
      (SilentFits e now record → Within (e.sweepRecord now record).1) := by
  obtain ⟨state, terminated, ⟨hsilent, hsweep⟩ | ⟨hnot, hsweep⟩⟩ := sweepRecord_cases e now record
  · have hframed' := framed_aged hframed state terminated
    have hw' := within_aged hw state terminated
    have hfits : Within (coast { record with state := state, terminated := terminated } now) ↔
        SilentFits e now record := by
      rw [within_coast_iff hw' hframed']
      exact ⟨fun h _ => h, fun h => h hsilent⟩
    rw [hsweep]
    refine ⟨?_, framed_coast hframed' now, hfits.mpr⟩
    rw [← hfits, ← accepted_iff (framed_coast hframed' now)]
    simp
  · rw [hsweep]
    exact ⟨⟨fun _ hsilent => absurd hsilent hnot, fun _ u hu => by cases hu⟩,
      framed_aged hframed state terminated, fun _ => within_aged hw state terminated⟩

theorem sweep_iff (h : Sound e) (now : Instant) :
    (Answered e (.sweep now) ↔ SweepFits e now) ∧ (SweepFits e now → Sound (e.sweep now).1) := by
  have hrecord : ∀ record ∈ e.tracks.values, ∃ icao24, Framed icao24 record ∧ Within record := by
    intro record hmem
    obtain ⟨key, hget⟩ := Dict.mem_values_iff.mp hmem
    exact ⟨key, h.framed key record hget, h.within key record hget⟩
  refine ⟨⟨?_, ?_⟩, ?_⟩
  · intro ha record hmem
    obtain ⟨key, hframed, hw⟩ := hrecord record hmem
    refine (sweepRecord_iff hframed hw now).1.mp fun u hu => ?_
    have hout : u ∈ e.updatesOf (.sweep now) := List.mem_filterMap.mpr ⟨record, hmem, hu⟩
    exact ⟨ha.admitted u hout, ha.fits u hout⟩
  · intro hf
    have hout : ∀ u ∈ e.updatesOf (.sweep now), u.Admitted ∧ u.FitsColumns := by
      intro u hu
      obtain ⟨record, hmem, hu⟩ := List.mem_filterMap.mp hu
      obtain ⟨key, hframed, hw⟩ := hrecord record hmem
      exact (sweepRecord_iff hframed hw now).1.mpr (hf record hmem) u hu
    exact ⟨fun u hu => (hout u hu).1, fun u hu => (hout u hu).2, invertible_of_sound h _⟩
  · intro hf
    have hswept : ∀ key v, (e.sweep now).1.tracks.get? key = some v → Framed key v ∧ Within v := by
      intro key v hget
      rw [sweep, Dict.get?_mapValues, Option.map_eq_some_iff] at hget
      obtain ⟨record, hrecord, rfl⟩ := hget
      obtain ⟨-, hframed, hw⟩ := sweepRecord_iff (e := e) (h.framed key record hrecord)
        (h.within key record hrecord) now
      exact ⟨hframed, hw (hf record (Dict.mem_values_iff.mpr ⟨key, hrecord⟩))⟩
    exact ⟨h.tuning, fun key v hget => (hswept key v hget).1, fun key v hget => (hswept key v hget).2⟩

/-! ### Runs -/

theorem sound_empty (he : e.tracks = Dict.empty) (ht : e.tuning.Positive) : Sound e := by
  refine ⟨ht, ?_, ?_⟩
  all_goals
    intro key record hget
    rw [he] at hget
    cases hget

theorem call_iff (h : Sound e) {call : Call} (hcall : ∀ r, call = .report r → r.Admitted) :
    (Answered e call ↔ CallFits e call) ∧ (CallFits e call → Sound (e.after [call])) := by
  cases call with
  | report r => exact report_iff h (hcall r rfl)
  | sweep now => exact sweep_iff h now

theorem atEveryCall_iff (h : Sound e) (hreports : ∀ r, .report r ∈ calls → r.Admitted) :
    AtEveryCall Answered e calls ↔ AtEveryCall CallFits e calls := by
  induction calls generalizing e with
  | nil => exact iff_of_true atEveryCall_nil atEveryCall_nil
  | cons call calls ih =>
    have hone := @call_iff e h call fun r hr => hreports r (hr ▸ List.mem_cons_self ..)
    have hrest := fun r hr => hreports r (List.mem_cons_of_mem _ hr)
    rw [atEveryCall_cons, atEveryCall_cons, hone.1]
    exact and_congr_right fun hfits => ih (hone.2 hfits) hrest

/-- From no tracks and positive noise assumptions, admitted reports and sweeps are all answered within the
    contract and the columns exactly when every call keeps its updates in bounds. -/
theorem updates_meet_contract_iff (he : e.tracks = Dict.empty) (ht : e.tuning.Positive)
    (hreports : ∀ r, .report r ∈ calls → r.Admitted) :
    AtEveryCall Answered e calls ↔ AtEveryCall CallFits e calls := atEveryCall_iff (sound_empty he ht) hreports

theorem admitted_climbStart : climbStart.Admitted := by
  refine ⟨by decide, ?_, ?_, ?_, ?_, ?_⟩ <;> simp [climbStart]

theorem admitted_climbLater (instant : Instant) : (climbLater instant).Admitted := by
  refine ⟨admitted_climbStart.icao24, ?_, ?_, ?_, ?_, ?_⟩ <;> simp [climbLater]

/-- A filter that stands still on the equator. -/
structure OnEquator (f : TrackFilter) : Prop where
  refLat : f.refLat = 0
  north : f.x rowNorth = 0
  vNorth : f.x rowVNorth = 0

theorem onEquator_climb : OnEquator climbRecord.filter := by
  have href : pyRound 0 = 0 := by
    obtain ⟨h0, h1⟩ := pyRound_mem (x := 0) (a := 0) (b := 0) (by norm_num) (by norm_num)
    exact le_antisymm h1 h0
  have hlat : climbRecord.filter.refLat = 0 := by
    change ((pyRound 0 : ℤ) : ℝ) = 0
    rw [href]
    norm_num
  refine ⟨hlat, ?_, ?_⟩
  · change radians (0 - climbRecord.filter.refLat) * earthRadiusNm = 0
    rw [hlat]
    simp [radians]
  · change 0 * Real.cos (radians 0) = 0
    rw [zero_mul]

theorem OnEquator.predict {f : TrackFilter} (h : OnEquator f) (hp : f.p.PosDef) {dtS : ℝ} (hdt : 0 < dtS) :
    OnEquator (f.predict dtS) := by
  have hline := TrackFilter.northLine_predict (TrackFilter.isSymm_of_posDef hp) hdt
  refine ⟨?_, ?_, ?_⟩
  · rw [TrackFilter.predict, if_neg (not_le.mpr hdt)]
    exact h.refLat
  · rw [TrackFilter.predict_north hp hdt, h.north, h.vNorth, mul_zero, add_zero]
  · exact (congrArg LineFilter.velocity hline).trans h.vNorth

/-- Run forward it is still there. -/
theorem OnEquator.coasts {f : TrackFilter} (h : OnEquator f) (t : ℝ) :
    f.BetweenPoles (f.x rowNorth + t * f.x rowVNorth) := by
  simp [TrackFilter.BetweenPoles, TrackFilter.latitudeAt, h.refLat, h.north, h.vNorth, degrees]

/-- A report on the equator, positions only, leaves it there. -/
theorem OnEquator.folds {f : TrackFilter} (h : OnEquator f) (dtS lon : ℝ) :
    f.BetweenPoles (f.correctNorth dtS 0 lon none none) := by
  have hline : (f.predictNorth dtS).position = 0 := by
    change f.x rowNorth + _ * f.x rowVNorth = 0
    rw [h.north, h.vNorth, mul_zero, add_zero]
  have hnorth : f.correctNorth dtS 0 lon none none = 0 := by
    change (f.predictNorth dtS).position + _ * (radians (0 - f.refLat) * earthRadiusNm -
      (f.predictNorth dtS).position) = 0
    rw [hline, h.refLat]
    simp [radians]
  rw [hnorth]
  simp [TrackFilter.BetweenPoles, TrackFilter.latitudeAt, h.refLat, degrees]

/-- A report, a sweep that makes the track coast, and a report folded in after it. -/
theorem updates_meet_contract_iff_climb : AtEveryCall Answered {} (climbSwept 10) := by
  have hadmitted : ∀ r, .report r ∈ climbSwept 10 → r.Admitted := by
    intro r hr
    rcases (by simpa [climbSwept] using hr : r = climbStart ∨ r = climbLater (seconds 12)) with rfl | rfl
    · exact admitted_climbStart
    · exact admitted_climbLater (seconds 12)
  obtain ⟨u, hsweep, -⟩ := sweepRecord_climb (s := 10) (by omega) (by omega)
  have hcoast : (coast { climbRecord with state := .coasting } (seconds 10)).filter =
      climbRecord.filter.predict (totalSeconds (seconds 10 - climbRecord.lastReportAt) : ℝ) :=
    coast_filter (by decide)
  have hposDef : climbRecord.filter.p.PosDef := TrackFilter.posDef_init TrackFilter.positive_default ..
  refine (updates_meet_contract_iff rfl TrackFilter.positive_default hadmitted).mpr ?_
  refine atEveryCall_cons.mpr ⟨⟨fun _ => ?_, fun record hfolds => ?_⟩, atEveryCall_cons.mpr ⟨?_,
    atEveryCall_cons.mpr ⟨⟨fun hstarts => ?_, fun record hfolds => ?_⟩, atEveryCall_nil⟩⟩⟩
  · simp [climbStart]
  · cases hfolds.held
  · intro record hmem _ _
    obtain ⟨key, hget⟩ := Dict.mem_values_iff.mp hmem
    rw [after, after, tracks_climbStart, Dict.get?_set] at hget
    split_ifs at hget
    · obtain rfl := Option.some.inj hget
      exact onEquator_climb.coasts _
    · cases hget
  all_goals
    have htracks : (((({} : TrackEstimator).after [.report climbStart]).after
        [.sweep (seconds 10)]).tracks.get? (climbLater (seconds 12)).icao24) =
          some (coast { climbRecord with state := .coasting } (seconds 10)) := by
      simp only [after, sweep_climbStart, hsweep]
      exact (Dict.get?_set ..).trans (if_pos rfl)
  · have hterm := hstarts _ htracks
    rw [(coast_frame _ _).2.1] at hterm
    cases hterm
  · obtain rfl := Option.some.inj (hfolds.held.symm.trans htracks)
    refine ⟨by simp [climbLater], ?_, ?_⟩
    · rw [updateCount_coast]
      decide
    · rw [hcoast]
      exact (onEquator_climb.predict hposDef (by rw [silence_climb]; norm_num)).folds _ _

/-! ### Past the pole -/

/-- The times of the sweeps of a run. -/
def sweepTimes (calls : List Call) : List Instant :=
  calls.filterMap fun call => match call with
    | .report _ => none
    | .sweep now => some now

/-- A report at the north pole, heading north. -/
def polarStart : SurveillanceReport where
  reportId := "r1"
  icao24 := "abc123"
  observedAt := 0
  lat := 90
  lon := 0
  groundSpeedKt := some 600
  trackDeg := some 0

def polarRecord : TrackRecord := ({} : TrackEstimator).initiate polarStart

theorem polarRecord_filter : polarRecord.filter.refLat = 90 ∧ polarRecord.filter.x rowNorth = 0 ∧
    polarRecord.filter.x rowVNorth = 600 := by
  have href : pyRound 90 = 90 := by
    obtain ⟨h0, h1⟩ := pyRound_mem (x := 90) (a := 90) (b := 90) (by norm_num) (by norm_num)
    exact le_antisymm h1 h0
  have hlat : polarRecord.filter.refLat = 90 := by
    change ((pyRound 90 : ℤ) : ℝ) = 90
    rw [href]
    norm_num
  refine ⟨hlat, ?_, ?_⟩
  · change radians (90 - polarRecord.filter.refLat) * earthRadiusNm = 0
    rw [hlat]
    simp [radians]
  · change 600 * Real.cos (radians 0) = 600
    simp [radians]

/-- Five silent seconds after a report at the pole the estimate has run on past it. -/
theorem coasting_runs_past_the_pole : ¬ ∀ calls : List Call, (∀ r, .report r ∈ calls → r.Admitted) →
    (sweepTimes calls).Pairwise (· ≤ ·) → AtEveryCall Answered {} calls := by
  intro h
  have hadmitted : ∀ r, .report r ∈ [Call.report polarStart, .sweep (seconds 5)] → r.Admitted := by
    intro r hr
    obtain rfl : r = polarStart := by simpa using hr
    refine ⟨by decide, ?_, ?_, ?_, ?_, ?_⟩ <;> simp [polarStart]
  have hfits := (atEveryCall_iff (sound_empty rfl TrackFilter.positive_default) hadmitted).mp
    (h _ hadmitted (by simp [sweepTimes]))
  have hsweep := (atEveryCall_cons.mp (atEveryCall_cons.mp hfits).2).1
  have hmem : polarRecord ∈ (({} : TrackEstimator).after [.report polarStart]).tracks.values := by
    refine Dict.mem_values_iff.mpr ⟨"abc123", ?_⟩
    change (({} : TrackEstimator).onReport polarStart).1.tracks.get? "abc123" = some polarRecord
    rw [onReport_of_none rfl, tracks_answer (le_refl _)]
    simp [polarStart, polarRecord]
  have hspan : totalSeconds (seconds 5 - polarRecord.lastReportAt) = 5 := by
    norm_num [totalSeconds, seconds, polarRecord, initiate, polarStart]
  have hsilent : FallsSilent (({} : TrackEstimator).after [.report polarStart]) (seconds 5) polarRecord := by
    refine ⟨rfl, .inr ⟨?_, ?_, by simp [polarRecord, initiate]⟩⟩
    · change totalSeconds (seconds 5 - polarRecord.lastReportAt) < 30
      rw [hspan]
      norm_num
    · change totalSeconds (seconds 5 - polarRecord.lastReportAt) ≥ 5
      rw [hspan]
  obtain ⟨-, hpole⟩ := hsweep polarRecord hmem hsilent (by decide)
  obtain ⟨href, hnorth, hspeed⟩ := polarRecord_filter
  rw [TrackFilter.latitudeAt, href, hnorth, hspeed, hspan] at hpole
  have hpast : 0 < degrees ((0 + knotsToNmPerSecond 1 * ((5 : ℚ) : ℝ) * 600) / earthRadiusNm) := by
    unfold degrees knotsToNmPerSecond earthRadiusNm
    positivity
  linarith

end TrackEstimator

end

end Airspace
