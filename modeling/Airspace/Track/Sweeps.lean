import Airspace.Track.Records
import Airspace.Track.FilterAxes

/-! Sweeping beside reporting.

    A sweep that finds a track fresh leaves its record alone. One that finds it silent for long enough
    builds a coasted update by running the track's own filter forward, and the next report predicts over
    the whole silence again: the filter has then been advanced twice. So the reports of an aircraft are
    answered as without sweeps as long as every sweep before a further report finds the track fresh. -/

namespace Airspace

noncomputable section

/-- The state estimate an update carries. -/
structure StateEstimate where
  lat : ℝ
  lon : ℝ
  altitudeFt : ℝ
  groundSpeedKt : ℝ
  trackDeg : ℝ
  verticalRateFpm : ℝ
  positionUncertaintyM : ℝ
  velocityUncertaintyKt : Option ℝ
  altitudeUncertaintyFt : Option ℝ
  verticalRateUncertaintyFpm : Option ℝ

def TrackUpdate.estimate (u : TrackUpdate) : StateEstimate where
  lat := u.lat
  lon := u.lon
  altitudeFt := u.altitudeFt
  groundSpeedKt := u.groundSpeedKt
  trackDeg := u.trackDeg
  verticalRateFpm := u.verticalRateFpm
  positionUncertaintyM := u.positionUncertaintyM
  velocityUncertaintyKt := u.velocityUncertaintyKt
  altitudeUncertaintyFt := u.altitudeUncertaintyFt
  verticalRateUncertaintyFpm := u.verticalRateUncertaintyFpm

namespace TrackEstimator

/-- The calls on an estimator. -/
inductive Call where
  | report (r : SurveillanceReport)
  | sweep (now : Instant)

def Call.isReport : Call → Bool
  | .report _ => true
  | .sweep _ => false

/-- The updates the `on_report` calls of a run return, in order. -/
def reportUpdates (e : TrackEstimator) : List Call → List TrackUpdate
  | [] => []
  | .report r :: calls => (e.onReport r).2 :: reportUpdates (e.onReport r).1 calls
  | .sweep now :: calls => reportUpdates (e.sweep now).1 calls

/-- The estimator after a run. -/
def after (e : TrackEstimator) : List Call → TrackEstimator
  | [] => e
  | .report r :: calls => (e.onReport r).1.after calls
  | .sweep now :: calls => (e.sweep now).1.after calls

/-- When the last report among some calls was observed. -/
def lastReportAt : List Call → Option Instant
  | [] => none
  | .report r :: calls => (lastReportAt calls).or (some r.observedAt)
  | .sweep _ :: calls => lastReportAt calls

/-- No sweep of the run announces a termination. -/
def NoSweepTerminates (e : TrackEstimator) (calls : List Call) : Prop :=
  ∀ before now later, calls = before ++ .sweep now :: later →
    ∀ u ∈ ((e.after before).sweep now).2, u.state ≠ .terminated

/-- Every sweep before a further report comes less than `coast_after_s` after the last report. -/
def SweptFresh (e : TrackEstimator) (last : Option Instant) (calls : List Call) : Prop :=
  ∀ before now later, calls = before ++ .sweep now :: later → (∃ r, .report r ∈ later) →
    ∀ t ∈ (lastReportAt before).or last, totalSeconds (now - t) < e.coastAfterS

variable {e : TrackEstimator} {calls : List Call} {icao24 : String} {last : Option Instant}

/-! ### A sweep of fresh tracks -/

/-- Silence below both limits changes nothing. -/
theorem sweepRecord_fresh {record : TrackRecord} {now : Instant} (hlive : record.terminated = false)
    (hcoast : totalSeconds (now - record.lastReportAt) < e.coastAfterS)
    (hterm : totalSeconds (now - record.lastReportAt) < e.terminateAfterS) :
    e.sweepRecord now record = (record, none) := by
  simp [sweepRecord, hlive, not_le.mpr hcoast, not_le.mpr hterm]

/-- A sweep that neither moves nor announces any record. -/
theorem sweep_eq_self {now : Instant}
    (h : ∀ record ∈ e.tracks.values, e.sweepRecord now record = (record, none)) : e.sweep now = (e, []) := by
  have hout : e.tracks.values.filterMap (fun record => (e.sweepRecord now record).2) = [] := by
    rw [List.filterMap_eq_nil_iff]
    intro record hr
    rw [h record hr]
  rw [sweep, hout, Dict.mapValues_eq_self fun record hr => by rw [h record hr]]

theorem sweep_fresh {now : Instant} (h : ∀ record ∈ e.tracks.values, record.terminated = false ∧
    totalSeconds (now - record.lastReportAt) < e.coastAfterS ∧
    totalSeconds (now - record.lastReportAt) < e.terminateAfterS) : e.sweep now = (e, []) := by
  refine sweep_eq_self fun record hr => ?_
  obtain ⟨hlive, hcoast, hterm⟩ := h record hr
  exact sweepRecord_fresh hlive hcoast hterm

/-! ### Runs over one aircraft -/

/-- The estimator holds at most the one aircraft, alive, its record as new as the last report. -/
structure Holds (e : TrackEstimator) (icao24 : String) (last : Option Instant) : Prop where
  one : ∀ key ∈ e.tracks.keys, key = icao24
  live : ∀ record ∈ e.tracks.values, record.terminated = false ∧ record.state ≠ .terminated
  fresh : ∀ record ∈ e.tracks.values, ∃ t ∈ last, t ≤ record.lastReportAt

theorem holds_empty (h : e.tracks = Dict.empty) : Holds e icao24 none := by
  refine ⟨?_, ?_, ?_⟩ <;> simp [h, Dict.keys, Dict.values, Dict.empty]

/-- The record a report leaves is alive and at least as new as the report. -/
theorem record_onReport (h : Holds e icao24 last) (r : SurveillanceReport) :
    ∃ record : TrackRecord, (e.onReport r).1.tracks = e.tracks.set r.icao24 record ∧
      record.terminated = false ∧ record.state ≠ .terminated ∧ r.observedAt ≤ record.lastReportAt := by
  cases hget : e.tracks.get? r.icao24 with
  | none =>
    refine ⟨e.initiate r, ?_, rfl, by simp [initiate], le_refl _⟩
    rw [onReport_of_none hget, tracks_answer (le_refl _)]
  | some existing =>
    obtain ⟨hterm, hstate⟩ := h.live existing (Dict.mem_values_iff.mpr ⟨_, hget⟩)
    have hnew := le_lastReportAt_update (e := e) existing r
    have hlive : (e.update existing r).terminated = false ∧ (e.update existing r).state ≠ .terminated := by
      rcases le_or_gt r.observedAt existing.lastReportAt with hle | hlt
      · rw [update_of_le hle]
        exact ⟨hterm, hstate⟩
      · obtain ⟨-, hterm', hstate'⟩ := update_of_lt (e := e) hlt
        exact ⟨hterm'.trans hterm, hstate'⟩
    refine ⟨e.update existing r, ?_, hlive.1, hlive.2, hnew⟩
    rw [onReport_of_live hget hterm, tracks_answer hnew]

/-- A report leaves one live record, at least as new as itself. -/
theorem holds_onReport (h : Holds e icao24 last) {r : SurveillanceReport} (hr : r.icao24 = icao24) :
    Holds (e.onReport r).1 icao24 (some r.observedAt) := by
  obtain ⟨record, htracks, hterm, hstate, hnew⟩ := record_onReport h r
  have hvalue : ∀ v ∈ (e.onReport r).1.tracks.values, v = record := by
    intro v hv
    obtain ⟨key, hkey⟩ := Dict.mem_values_iff.mp hv
    rw [htracks, Dict.get?_set] at hkey
    split_ifs at hkey with hk
    · exact (Option.some.inj hkey).symm
    · exact absurd ((h.one key (Dict.mem_keys_iff.mpr ⟨v, hkey⟩)).trans hr.symm) hk
  refine ⟨?_, ?_, ?_⟩
  · intro key hkey
    rw [htracks, Dict.mem_keys_set] at hkey
    rcases hkey with rfl | hkey
    · exact hr
    · exact h.one key hkey
  · intro v hv
    rw [hvalue v hv]
    exact ⟨hterm, hstate⟩
  · intro v hv
    rw [hvalue v hv]
    exact ⟨_, rfl, hnew⟩

/-- A sweep that does not terminate and finds the aircraft fresh changes nothing. -/
theorem sweep_of_holds (h : Holds e icao24 last) {now : Instant}
    (hlive : ∀ u ∈ (e.sweep now).2, u.state ≠ .terminated)
    (hfresh : ∀ t ∈ last, totalSeconds (now - t) < e.coastAfterS) : e.sweep now = (e, []) := by
  refine sweep_fresh fun record hrecord => ?_
  obtain ⟨hterm, hstate⟩ := h.live record hrecord
  obtain ⟨t, ht, hle⟩ := h.fresh record hrecord
  refine ⟨hterm, (totalSeconds_le_totalSeconds (sub_le_sub_left hle now)).trans_lt (hfresh t ht), ?_⟩
  -- otherwise the sweep would announce the termination
  by_contra hge
  have hout : ∃ u, (e.sweepRecord now record).2 = some u ∧ u.state = .terminated := by
    simp [sweepRecord, hterm, not_lt.mp hge, Ne.symm hstate, toUpdate, coast]
    split_ifs <;> rfl
  obtain ⟨u, hu, hut⟩ := hout
  exact hlive u (List.mem_filterMap.mpr ⟨record, hrecord, hu⟩) hut

theorem reportUpdates_of_no_report (h : ∀ r, .report r ∉ calls) :
    reportUpdates e calls = [] ∧ calls.filter Call.isReport = [] := by
  induction calls generalizing e with
  | nil => exact ⟨rfl, rfl⟩
  | cons call calls ih =>
    cases call with
    | report r => exact absurd (List.mem_cons_self ..) (h r)
    | sweep now => exact ih fun r hr => h r (List.mem_cons_of_mem _ hr)

theorem reportUpdates_filter (calls : List Call) : ∀ (e : TrackEstimator) (last : Option Instant),
    Holds e icao24 last → (∀ r, .report r ∈ calls → r.icao24 = icao24) → NoSweepTerminates e calls →
    SweptFresh e last calls →
    reportUpdates e calls = reportUpdates e (calls.filter Call.isReport) := by
  induction calls with
  | nil => exact fun _ _ _ _ _ _ => rfl
  | cons call calls ih =>
    intro e last h hone hlive hfresh
    have hone' : ∀ r, .report r ∈ calls → r.icao24 = icao24 :=
      fun r hr => hone r (List.mem_cons_of_mem _ hr)
    cases call with
    | report r =>
      refine congrArg (List.cons _) (ih _ (some r.observedAt) (holds_onReport h
        (hone r (List.mem_cons_self ..))) hone' ?_ ?_)
      · intro before now later hcalls
        exact hlive (.report r :: before) now later (by rw [hcalls]; rfl)
      · intro before now later hcalls hlater t ht
        refine hfresh (.report r :: before) now later (by rw [hcalls]; rfl) hlater t ?_
        rwa [lastReportAt, Option.or_assoc, Option.some_or]
    | sweep now =>
      by_cases hlater : ∃ r, .report r ∈ calls
      · have hsame : e.sweep now = (e, []) :=
          sweep_of_holds h (hlive [] now calls rfl) (hfresh [] now calls rfl hlater)
        simp only [reportUpdates, hsame]
        refine ih e last h hone' ?_ ?_
        · intro before now' later hcalls
          have := hlive (.sweep now :: before) now' later (by rw [hcalls]; rfl)
          rwa [TrackEstimator.after, hsame] at this
        · intro before now' later hcalls
          exact hfresh (.sweep now :: before) now' later (by rw [hcalls]; rfl)
      · obtain ⟨hnone, hfilter⟩ := reportUpdates_of_no_report (e := (e.sweep now).1) (not_exists.mp hlater)
        rw [reportUpdates, hnone, List.filter_cons_of_neg (by simp [Call.isReport]), hfilter]
        rfl

/-! ### One climbing aircraft -/

/-- First report of a climb. -/
def climbStart : SurveillanceReport where
  reportId := "r1"
  icao24 := "abc123"
  observedAt := 0
  lat := 0
  lon := 0
  altitudeBaroFt := some 1000
  verticalRateFpm := some 600

/-- A later report of it, positions only. -/
def climbLater (instant : Instant) : SurveillanceReport where
  reportId := "r2"
  icao24 := "abc123"
  observedAt := instant
  lat := 0
  lon := 0

/-- The two reports with a sweep two seconds before the second. -/
def climbSwept (s : ℤ) : List Call :=
  [.report climbStart, .sweep (seconds s), .report (climbLater (seconds (s + 2)))]

theorem climbSwept_split {s : ℤ} {before later : List Call} {now : Instant}
    (h : climbSwept s = before ++ .sweep now :: later) :
    before = [.report climbStart] ∧ now = seconds s := by
  unfold climbSwept at h
  rcases before with _ | ⟨a, _ | ⟨b, _ | ⟨c, before⟩⟩⟩ <;> simp at h
  exact ⟨by rw [h.1], h.2.1.symm⟩

/-- The record the first report leaves. -/
def climbRecord : TrackRecord := ({} : TrackEstimator).initiate climbStart

theorem tracks_climbStart : (({} : TrackEstimator).onReport climbStart).1 =
    { tracks := Dict.empty.set "abc123" climbRecord } := by
  rw [onReport_of_none rfl]
  refine congrArg (fun d => ({ tracks := d } : TrackEstimator)) ?_
  exact tracks_answer (le_refl _)

theorem sweep_climbStart (now : Instant) : (({} : TrackEstimator).onReport climbStart).1.sweep now =
    ({ tracks := Dict.empty.set "abc123" (({} : TrackEstimator).sweepRecord now climbRecord).1 },
      (({} : TrackEstimator).sweepRecord now climbRecord).2.toList) := by
  have hvalues : (Dict.empty.set "abc123" climbRecord).values = [climbRecord] := by
    simp [Dict.set, Dict.setItems, Dict.values, Dict.empty]
  have hrecord : ∀ record, ({ tracks := Dict.empty.set "abc123" climbRecord } :
      TrackEstimator).sweepRecord now record = ({} : TrackEstimator).sweepRecord now record :=
    fun _ => rfl
  simp only [tracks_climbStart, sweep, hvalues, hrecord, ← Dict.set_mapValues Dict.empty]
  rw [List.filterMap_cons, List.filterMap_nil]
  cases (({} : TrackEstimator).sweepRecord now climbRecord).2 <;> rfl

/-- An update answers a report without vertical fields with the altitude predicted from the record. -/
theorem altitude_answer_update {record : TrackRecord} {r : SurveillanceReport}
    (hnew : record.lastReportAt < r.observedAt) (hblock : AxisBlock record.filter.p)
    (halt : r.altitudeBaroFt = none) (hrate : r.verticalRateFpm = none) :
    (e.answer r (e.update record r)).2.altitudeFt = max 0 (record.filter.x rowAlt +
      (totalSeconds (r.observedAt - record.lastReportAt) : ℝ) / 60 * record.filter.x rowVRate) := by
  have hspan : 0 < totalSeconds (r.observedAt - record.lastReportAt) :=
    totalSeconds_pos.mpr (sub_pos.mpr hnew)
  have hdt : (0 : ℝ) < (totalSeconds (r.observedAt - record.lastReportAt) : ℝ) := by
    exact_mod_cast hspan
  rw [← TrackFilter.update_altitude hblock hdt r.lat r.lon r.groundSpeedKt r.trackDeg]
  change (coast (e.update record r) r.observedAt).altitudeFt = _
  rw [coast_at_report (update_of_lt hnew).1.ge, update, if_neg (not_le.mpr hspan), halt, hrate]
  rfl

theorem silence_climb (s : ℤ) : totalSeconds (seconds s - climbRecord.lastReportAt) = s := by
  change ((s * 1000000 - 0 : ℤ) : ℚ) / 1000000 = s
  push_cast
  ring

/-- A sweep between five and thirty seconds makes the climbing record coast. -/
theorem sweepRecord_climb {s : ℤ} (hcoast : 5 ≤ s) (hterm : s < 30) :
    ∃ u, ({} : TrackEstimator).sweepRecord (seconds s) climbRecord =
      (coast { climbRecord with state := .coasting } (seconds s), some u) ∧ u.state = .coasting := by
  have h5 : (5 : ℚ) ≤ s := by exact_mod_cast hcoast
  have h30 : ¬ (30 : ℚ) ≤ s := not_le.mpr (by exact_mod_cast hterm)
  refine ⟨(toUpdate { climbRecord with state := .coasting } (seconds s)).2, ?_, ?_⟩
  · have hlive : climbRecord.terminated = false := rfl
    have hstate : climbRecord.state = .initiating := rfl
    simp only [sweepRecord, hlive, silence_climb, ge_iff_le, h30, h5, if_true, if_false, Bool.false_eq_true]
    rw [if_pos (by simp [hstate])]
    rfl
  · exact (coast_frame { climbRecord with state := .coasting } (seconds s)).1

/-- After thirty silent seconds a sweep terminates it. -/
theorem sweepRecord_climb_silent {s : ℤ} (hterm : 30 ≤ s) :
    ∃ u, ({} : TrackEstimator).sweepRecord (seconds s) climbRecord =
      (coast { climbRecord with state := .terminated, terminated := true } (seconds s), some u) ∧
        u.state = .terminated ∧ u.icao24 = "abc123" := by
  have h30 : (30 : ℚ) ≤ s := by exact_mod_cast hterm
  refine ⟨(toUpdate { climbRecord with state := .terminated, terminated := true } (seconds s)).2, ?_, ?_, ?_⟩
  · have hlive : climbRecord.terminated = false := rfl
    have hstate : climbRecord.state = .initiating := rfl
    simp only [sweepRecord, hlive, silence_climb, ge_iff_le, h30, if_true, if_false, Bool.false_eq_true]
    rw [if_pos (by simp [hstate])]
    rfl
  · exact (coast_frame { climbRecord with state := .terminated, terminated := true } (seconds s)).1
  · have hof : IsOf { climbRecord with state := .terminated, terminated := true } "abc123" := ⟨rfl, rfl⟩
    exact (isOf_toUpdate hof _).2.1

/-- Of the one aircraft the sweep announces the end, and leaves a terminated record. -/
theorem sweep_climb_silent : ∃ (swept : TrackEstimator) (v : TrackUpdate) (record : TrackRecord),
    (({} : TrackEstimator).onReport climbStart).1.sweep (seconds 31) = (swept, [v]) ∧
    v.icao24 = "abc123" ∧ v.state = .terminated ∧ swept.tracks = Dict.empty.set "abc123" record ∧
    record.terminated = true ∧ record.lastReportAt = 0 := by
  obtain ⟨v, hrecord, hstate, hicao⟩ := sweepRecord_climb_silent (s := 31) (by omega)
  rw [sweep_climbStart, hrecord]
  obtain ⟨-, hterminated, hlast⟩ :=
    coast_frame { climbRecord with state := .terminated, terminated := true } (seconds 31)
  exact ⟨_, v, _, rfl, hicao, hstate, rfl, hterminated, hlast⟩

theorem climbRecord_block : AxisBlock climbRecord.filter.p :=
  TrackFilter.axisBlock_init _ _ _ _ _ _ _ _ _

theorem climbRecord_vertical : climbRecord.filter.x rowAlt = 1000 ∧
    climbRecord.filter.x rowVRate = 600 := ⟨rfl, rfl⟩

theorem altitude_climbStart : (({} : TrackEstimator).onReport climbStart).2.altitudeFt = 1000 := by
  rw [onReport_of_none rfl]
  change (coast climbRecord climbRecord.lastReportAt).altitudeFt = 1000
  rw [coast_at_report (le_refl _)]
  change max 0 (climbRecord.filter.x rowAlt) = 1000
  rw [climbRecord_vertical.1]
  norm_num

/-- A later report of the one aircraft is answered from its record. -/
theorem altitude_climbLater {record : TrackRecord} (s : ℤ) (hlive : record.terminated = false)
    (hlast : record.lastReportAt = 0) (hs : 0 < s) (hblock : AxisBlock record.filter.p) :
    (({ tracks := Dict.empty.set "abc123" record } : TrackEstimator).onReport
      (climbLater (seconds s))).2.altitudeFt =
        max 0 (record.filter.x rowAlt + s / 60 * record.filter.x rowVRate) := by
  have hnew : record.lastReportAt < (climbLater (seconds s)).observedAt := by
    rw [hlast]
    change (0 : ℤ) < s * 1000000
    omega
  rw [onReport_of_live (by simp [climbLater]) hlive, altitude_answer_update hnew hblock rfl rfl, hlast]
  have hspan : (totalSeconds ((climbLater (seconds s)).observedAt - 0) : ℝ) = s := by
    change (((s * 1000000 - 0 : ℤ) : ℚ) / 1000000 : ℚ) = (s : ℝ)
    push_cast
    ring
  rw [hspan]

/-- The ten seconds the sweep ran ahead are flown a second time. -/
theorem altitude_climbSwept : (reportUpdates {} (climbSwept 10)).map (·.altitudeFt) = [1000, 1220] := by
  obtain ⟨u, hsweep, -⟩ := sweepRecord_climb (s := 10) (by omega) (by omega)
  have hnew : climbRecord.lastReportAt < seconds 10 := by decide
  have hspan : (totalSeconds (seconds 10 - climbRecord.lastReportAt) : ℝ) = 10 := by
    rw [silence_climb]
    norm_num
  obtain ⟨-, hterm, hlast⟩ := coast_frame { climbRecord with state := .coasting } (seconds 10)
  have hfilter : (coast { climbRecord with state := .coasting } (seconds 10)).filter = _ :=
    coast_filter hnew
  change [TrackUpdate.altitudeFt _, TrackUpdate.altitudeFt _] = _
  rw [altitude_climbStart, sweep_climbStart, hsweep, altitude_climbLater (10 + 2) hterm hlast (by omega)
    (by rw [hfilter]; exact TrackFilter.axisBlock_predict climbRecord_block _), hfilter, hspan,
    (TrackFilter.predict_vertical (by norm_num)).1, (TrackFilter.predict_vertical (by norm_num)).2,
    climbRecord_vertical.1, climbRecord_vertical.2]
  norm_num

theorem altitude_climbUnswept :
    (reportUpdates {} ((climbSwept 10).filter Call.isReport)).map (·.altitudeFt) = [1000, 1120] := by
  change [TrackUpdate.altitudeFt _, TrackUpdate.altitudeFt _] = _
  rw [altitude_climbStart, tracks_climbStart, altitude_climbLater (10 + 2) rfl rfl (by omega)
    climbRecord_block, climbRecord_vertical.1, climbRecord_vertical.2]
  norm_num

theorem noSweepTerminates_climbSwept {s : ℤ} (hterm : s < 30) :
    NoSweepTerminates {} (climbSwept s) := by
  intro before now later h u hu
  obtain ⟨rfl, rfl⟩ := climbSwept_split h
  rw [after, after, sweep_climbStart] at hu
  rcases le_or_gt 5 s with hcoast | hfresh
  · obtain ⟨u', hsweep, hstate⟩ := sweepRecord_climb hcoast hterm
    rw [hsweep] at hu
    obtain rfl : u = u' := by simpa using hu
    rw [hstate]
    decide
  · have h5 : (s : ℚ) < 5 := by exact_mod_cast hfresh
    rw [sweepRecord_fresh rfl (by rwa [silence_climb]) (by rw [silence_climb]; linarith)] at hu
    exact absurd hu List.not_mem_nil

/-! ### Sweeping and steering -/

/-- The reports are answered as without sweeps, if every sweep before a further report finds the
    aircraft fresh. -/
theorem report_estimates_unswept (he : e.tracks = Dict.empty)
    (hone : ∀ r, .report r ∈ calls → r.icao24 = icao24) (hlive : NoSweepTerminates e calls)
    (hfresh : SweptFresh e none calls) :
    (reportUpdates e calls).map TrackUpdate.estimate =
      (reportUpdates e (calls.filter Call.isReport)).map TrackUpdate.estimate := by
  rw [reportUpdates_filter calls e none (holds_empty he) hone hlive hfresh]

theorem report_estimates_unswept_climb :
    (reportUpdates {} (climbSwept 2)).map TrackUpdate.estimate =
      (reportUpdates {} ((climbSwept 2).filter Call.isReport)).map TrackUpdate.estimate := by
  have hone : ∀ r, .report r ∈ climbSwept 2 → r.icao24 = "abc123" := by
    simp [climbSwept, climbStart, climbLater]
  refine report_estimates_unswept rfl hone (noSweepTerminates_climbSwept (by omega)) ?_
  intro before now later h _ t ht
  obtain ⟨rfl, rfl⟩ := climbSwept_split h
  obtain rfl : 0 = t := by simpa [lastReportAt, climbStart] using ht
  norm_num [totalSeconds, seconds]

/-- A sweep after ten silent seconds terminates nothing and moves the answer to the next report. -/
theorem sweep_steers_climb : (∀ r, .report r ∈ climbSwept 10 → r.Admitted ∧ r.icao24 = "abc123") ∧
    NoSweepTerminates {} (climbSwept 10) ∧
    (reportUpdates {} (climbSwept 10)).map TrackUpdate.estimate ≠
      (reportUpdates {} ((climbSwept 10).filter Call.isReport)).map TrackUpdate.estimate := by
  refine ⟨?_, noSweepTerminates_climbSwept (by omega), ?_⟩
  · intro r hr
    have hr' : r = climbStart ∨ r = climbLater (seconds (10 + 2)) := by simpa [climbSwept] using hr
    rcases hr' with rfl | rfl
    all_goals
      refine ⟨⟨by decide, ?_, ?_, ?_, ?_, ?_⟩, rfl⟩ <;> simp [climbStart, climbLater]
  · intro h
    have haltitude := congrArg (List.map StateEstimate.altitudeFt) h
    rw [List.map_map, List.map_map] at haltitude
    have hswept := altitude_climbSwept.symm.trans (haltitude.trans altitude_climbUnswept)
    norm_num at hswept

end TrackEstimator

end

end Airspace
