import Airspace.Track.Estimator

/-! What the estimator's operations do to its records.

    A record is filed under its aircraft's address, carries the id derived from it, and keeps both
    through every update, coast and sweep. Only a report adds an aircraft; only pruning and release
    take one away. -/

namespace Airspace

noncomputable section

theorem trackIdFor_inj {a b : String} (h : trackIdFor a = trackIdFor b) : a = b :=
  (String.append_right_inj "trk-").mp h

namespace TrackEstimator

variable {e : TrackEstimator}

/-! ### Single records -/

theorem coast_at_report {record : TrackRecord} {t : Instant} (h : t ≤ record.lastReportAt) :
    coast record t = record := by
  have hspan : ¬ 0 < totalSeconds (t - record.lastReportAt) := by
    rw [totalSeconds_pos]
    exact not_lt.mpr (sub_nonpos.mpr h)
  unfold coast
  rw [if_neg]
  rwa [gt_iff_lt, lt_max_iff, not_or, and_iff_right (lt_irrefl _)]

/-- Coasting moves the filter and the estimate, nothing of the lifecycle. -/
theorem coast_frame (record : TrackRecord) (t : Instant) : (coast record t).state = record.state ∧
    (coast record t).terminated = record.terminated ∧
    (coast record t).lastReportAt = record.lastReportAt := by
  simp only [coast]
  split_ifs <;> exact ⟨rfl, rfl, rfl⟩

theorem updateCount_coast (record : TrackRecord) (t : Instant) :
    (coast record t).updateCount = record.updateCount := by
  simp only [coast]
  split_ifs <;> rfl

/-- Past the last report the filter is run forward to the instant. -/
theorem coast_filter {record : TrackRecord} {t : Instant} (h : record.lastReportAt < t) :
    (coast record t).filter =
      record.filter.predict (totalSeconds (t - record.lastReportAt) : ℝ) := by
  have hspan : 0 < totalSeconds (t - record.lastReportAt) := totalSeconds_pos.mpr (sub_pos.mpr h)
  simp only [coast]
  rw [if_pos (lt_max_of_lt_right hspan), max_eq_right hspan.le]

/-- A report that is not newer than the last one is dropped. -/
theorem update_of_le {record : TrackRecord} {r : SurveillanceReport}
    (h : r.observedAt ≤ record.lastReportAt) : e.update record r = record := by
  have hspan : ¬ 0 < totalSeconds (r.observedAt - record.lastReportAt) := by
    rw [totalSeconds_pos]
    exact not_lt.mpr (sub_nonpos.mpr h)
  exact if_pos (not_lt.mp hspan)

/-- A newer report is folded in: the record is as new as the report and back in service. -/
theorem update_of_lt {record : TrackRecord} {r : SurveillanceReport}
    (h : record.lastReportAt < r.observedAt) : (e.update record r).lastReportAt = r.observedAt ∧
      (e.update record r).terminated = record.terminated ∧
      (e.update record r).state ≠ .terminated := by
  have hspan : ¬ totalSeconds (r.observedAt - record.lastReportAt) ≤ 0 :=
    not_le.mpr (totalSeconds_pos.mpr (sub_pos.mpr h))
  simp only [update, hspan, if_false, true_and]
  split_ifs <;> simp

/-- Folded in or not, a report leaves the record at least as new as itself. -/
theorem le_lastReportAt_update (record : TrackRecord) (r : SurveillanceReport) :
    r.observedAt ≤ (e.update record r).lastReportAt := by
  rcases le_or_gt r.observedAt record.lastReportAt with hle | hlt
  · rwa [update_of_le hle]
  · exact (update_of_lt hlt).1.ge

/-- The new count of a report that is folded in decides whether the track is confirmed. -/
theorem update_count {record : TrackRecord} {r : SurveillanceReport}
    (h : record.lastReportAt < r.observedAt) : (e.update record r).updateCount = record.updateCount + 1 ∧
      (e.update record r).state =
        if record.updateCount + 1 ≥ e.confirmationUpdates then .confirmed else .initiating := by
  have hspan : ¬ totalSeconds (r.observedAt - record.lastReportAt) ≤ 0 :=
    not_le.mpr (totalSeconds_pos.mpr (sub_pos.mpr h))
  simp only [update, hspan, if_false, true_and]

/-- The estimator with the record of a report in place, and the update built from it. -/
def answer (e : TrackEstimator) (r : SurveillanceReport) (record : TrackRecord) :
    TrackEstimator × TrackUpdate :=
  ({ e with tracks := e.tracks.set r.icao24 (toUpdate record r.observedAt).1 },
    (toUpdate record r.observedAt).2)

theorem onReport_of_none {r : SurveillanceReport} (h : e.tracks.get? r.icao24 = none) :
    e.onReport r = e.answer r (e.initiate r) := by
  simp only [onReport, h, answer]

theorem onReport_of_terminated {r : SurveillanceReport} {record : TrackRecord}
    (h : e.tracks.get? r.icao24 = some record) (hterm : record.terminated = true) :
    e.onReport r = e.answer r (e.initiate r) := by
  simp only [onReport, h, hterm, answer, if_true]

theorem onReport_of_live {r : SurveillanceReport} {record : TrackRecord}
    (h : e.tracks.get? r.icao24 = some record) (hlive : record.terminated = false) :
    e.onReport r = e.answer r (e.update record r) := by
  simp only [onReport, h, hlive, answer, Bool.false_eq_true, if_false]

theorem tracks_answer {r : SurveillanceReport} {record : TrackRecord}
    (h : r.observedAt ≤ record.lastReportAt) :
    (e.answer r record).1.tracks = e.tracks.set r.icao24 record :=
  congrArg (e.tracks.set r.icao24) (coast_at_report h)

theorem get?_answer {r : SurveillanceReport} {record : TrackRecord}
    (h : r.observedAt ≤ record.lastReportAt) :
    (e.answer r record).1.tracks.get? r.icao24 = some record := by
  rw [tracks_answer h, Dict.get?_set, if_pos rfl]

/-- The record is of this aircraft and carries its derived id. -/
def IsOf (record : TrackRecord) (icao24 : String) : Prop :=
  record.icao24 = icao24 ∧ record.trackId = trackIdFor icao24

variable {record : TrackRecord} {icao24 : String}

theorem isOf_initiate (r : SurveillanceReport) : IsOf (e.initiate r) r.icao24 := ⟨rfl, rfl⟩

theorem isOf_update (h : IsOf record icao24) (r : SurveillanceReport) :
    IsOf (e.update record r) icao24 := by
  simp only [update]
  split_ifs <;> exact h

theorem isOf_coast (h : IsOf record icao24) (t : Instant) : IsOf (coast record t) icao24 := by
  simp only [coast]
  split_ifs <;> exact h

/-- An update names the aircraft of its record. -/
theorem isOf_toUpdate (h : IsOf record icao24) (t : Instant) : IsOf (toUpdate record t).1 icao24 ∧
    (toUpdate record t).2.icao24 = icao24 ∧ (toUpdate record t).2.trackId = trackIdFor icao24 :=
  ⟨isOf_coast h t, isOf_coast h t⟩

theorem isOf_sweepRecord (h : IsOf record icao24) (now : Instant) :
    IsOf (e.sweepRecord now record).1 icao24 ∧ ∀ u ∈ (e.sweepRecord now record).2,
      u.icao24 = icao24 ∧ u.trackId = trackIdFor icao24 := by
  have haged : ∀ aged : TrackRecord, IsOf aged icao24 → IsOf (toUpdate aged now).1 icao24 ∧
      ∀ u ∈ some (toUpdate aged now).2, u.icao24 = icao24 ∧ u.trackId = trackIdFor icao24 := by
    rintro aged ha
    refine ⟨(isOf_toUpdate ha now).1, ?_⟩
    rintro u ⟨⟩
    exact (isOf_toUpdate ha now).2
  simp only [sweepRecord]
  split_ifs
  all_goals first
    | exact ⟨h, by simp⟩
    | exact haged _ h

/-- A sweep passes over a terminated record. -/
theorem sweepRecord_of_terminated {now : Instant} (h : record.terminated = true) :
    e.sweepRecord now record = (record, none) := if_pos h

/-- What a sweep announces: a live record has moved to COASTING, or to TERMINATED for good. -/
structure Announced (record aged : TrackRecord) (u : TrackUpdate) : Prop where
  live : record.terminated = false
  moved : u.state ≠ record.state
  state : aged.state = u.state
  coasting_or : u.state = .coasting ∧ aged.terminated = false ∨ u.state = .terminated ∧ aged.terminated = true
  lastReportAt : aged.lastReportAt = record.lastReportAt
  updateCount : aged.updateCount = record.updateCount

theorem announced_sweepRecord {now : Instant} {u : TrackUpdate} (h : (e.sweepRecord now record).2 = some u) :
    Announced record (e.sweepRecord now record).1 u := by
  have haged : ∀ aged : TrackRecord, aged.state ≠ record.state →
      (aged.state = .coasting ∧ aged.terminated = false ∨ aged.state = .terminated ∧ aged.terminated = true) →
      record.terminated = false → aged.lastReportAt = record.lastReportAt →
      aged.updateCount = record.updateCount →
      Announced record (toUpdate aged now).1 (toUpdate aged now).2 := by
    intro aged hmoved hstate hlive hlast hcount
    obtain ⟨hs, ht, hl⟩ := coast_frame aged now
    refine ⟨hlive, ?_, rfl, ?_, hl.trans hlast, (updateCount_coast aged now).trans hcount⟩
    · change (coast aged now).state ≠ _
      rwa [hs]
    · change (coast aged now).state = _ ∧ (coast aged now).terminated = _ ∨
        (coast aged now).state = _ ∧ (coast aged now).terminated = _
      rwa [hs, ht]
  by_cases hlive : record.terminated = true
  · rw [sweepRecord_of_terminated hlive] at h
    cases h
  replace hlive := Bool.eq_false_iff.mpr hlive
  simp only [sweepRecord, hlive, Bool.false_eq_true, if_false] at h ⊢
  split_ifs at h ⊢ with hterm hmoved hcoast hmoved
  · cases h
    exact haged _ hmoved (.inr ⟨rfl, rfl⟩) hlive rfl rfl
  · cases h
    exact haged _ hmoved (.inl ⟨rfl, rfl⟩) hlive rfl rfl
  · exact absurd rfl ‹record.state ≠ record.state›

/-- A sweep leaves what was reported. -/
theorem sweepRecord_frame (now : Instant) (record : TrackRecord) :
    (e.sweepRecord now record).1.lastReportAt = record.lastReportAt ∧
      (e.sweepRecord now record).1.updateCount = record.updateCount := by
  have haged : ∀ aged : TrackRecord, aged.lastReportAt = record.lastReportAt →
      aged.updateCount = record.updateCount → (toUpdate aged now).1.lastReportAt = record.lastReportAt ∧
        (toUpdate aged now).1.updateCount = record.updateCount := fun aged hlast hcount =>
    ⟨(coast_frame aged now).2.2.trans hlast, (updateCount_coast aged now).trans hcount⟩
  simp only [sweepRecord]
  split_ifs
  all_goals first
    | exact ⟨rfl, rfl⟩
    | exact haged _ rfl rfl

/-- A sweep that announces nothing of a record leaves it as it is, unless it is terminated but does not say
    so. -/
theorem sweepRecord_of_none {now : Instant} (h : (e.sweepRecord now record).2 = none)
    (hstate : record.state = .terminated → record.terminated = true) :
    e.sweepRecord now record = (record, none) := by
  by_cases hlive : record.terminated = true
  · exact sweepRecord_of_terminated hlive
  have hsame : ∀ state : TrackState, state = record.state → { record with state := state } = record := by
    rintro _ rfl
    rfl
  simp only [sweepRecord, if_neg hlive] at h ⊢
  by_cases hterm : totalSeconds (now - record.lastReportAt) ≥ e.terminateAfterS
  · simp only [if_pos hterm] at h ⊢
    split_ifs at h with hmoved
    exact absurd (hstate (not_not.mp hmoved).symm) hlive
  · simp only [if_neg hterm] at h ⊢
    by_cases hcoast : totalSeconds (now - record.lastReportAt) ≥ e.coastAfterS
    · simp only [if_pos hcoast] at h ⊢
      split_ifs at h with hmoved
      rw [if_neg hmoved, hsame .coasting (not_not.mp hmoved)]
    · simp only [if_neg hcoast, ne_eq, not_true_eq_false, if_false]

/-! ### The aircraft held -/

/-- Every record is filed under the aircraft it is of. -/
def Filed (e : TrackEstimator) : Prop :=
  ∀ icao24 record, e.tracks.get? icao24 = some record → IsOf record icao24

theorem mem_knownAddresses : icao24 ∈ e.knownAddresses ↔ ∃ record, e.tracks.get? icao24 = some record :=
  Dict.mem_keys_iff

/-- A report adds its aircraft. -/
theorem mem_knownAddresses_onReport {r : SurveillanceReport} :
    icao24 ∈ (e.onReport r).1.knownAddresses ↔ icao24 = r.icao24 ∨ icao24 ∈ e.knownAddresses :=
  Dict.mem_keys_set

theorem filed_onReport (h : Filed e) (r : SurveillanceReport) : Filed (e.onReport r).1 ∧
    (e.onReport r).2.icao24 = r.icao24 ∧ (e.onReport r).2.trackId = trackIdFor r.icao24 := by
  have hrecord : ∃ record, e.onReport r = e.answer r record ∧ IsOf record r.icao24 := by
    refine ⟨_, rfl, ?_⟩
    cases hget : e.tracks.get? r.icao24 with
    | none => exact isOf_initiate r
    | some existing =>
      change IsOf (if existing.terminated then e.initiate r else e.update existing r) r.icao24
      split_ifs
      · exact isOf_initiate r
      · exact isOf_update (h _ _ hget) r
  obtain ⟨record, heq, hof⟩ := hrecord
  rw [heq]
  refine ⟨?_, (isOf_toUpdate hof _).2⟩
  intro key v hget
  rw [answer, Dict.get?_set] at hget
  split_ifs at hget with hkey
  · obtain rfl := Option.some.inj hget
    exact hkey ▸ (isOf_toUpdate hof _).1
  · exact h key v hget

@[simp] theorem knownAddresses_sweep (now : Instant) :
    (e.sweep now).1.knownAddresses = e.knownAddresses := Dict.keys_mapValues _ _

theorem filed_sweep (h : Filed e) (now : Instant) : Filed (e.sweep now).1 ∧
    ∀ u ∈ (e.sweep now).2, u.icao24 ∈ e.knownAddresses ∧ u.trackId = trackIdFor u.icao24 := by
  refine ⟨?_, ?_⟩
  · intro key v hget
    rw [sweep, Dict.get?_mapValues, Option.map_eq_some_iff] at hget
    obtain ⟨record, hrecord, rfl⟩ := hget
    exact (isOf_sweepRecord (h key record hrecord) now).1
  · intro u hu
    obtain ⟨record, hmem, hout⟩ := List.mem_filterMap.mp hu
    obtain ⟨key, hkey⟩ := Dict.mem_values_iff.mp hmem
    obtain ⟨hicao, htrack⟩ := (isOf_sweepRecord (h key record hkey) now).2 u hout
    rw [hicao, htrack]
    exact ⟨mem_knownAddresses.mpr ⟨record, hkey⟩, rfl⟩

/-- Pruning adds nothing and changes nothing. -/
theorem get?_pruneTerminated {now : Instant} {olderThan : Span}
    (h : (e.pruneTerminated now olderThan).1.tracks.get? icao24 = some record) :
    e.tracks.get? icao24 = some record := by
  rw [pruneTerminated, Dict.get?_filterValues, Option.filter_eq_some_iff] at h
  exact h.1

/-- Pruning drops a terminated record that is old enough. -/
theorem not_mem_pruneTerminated {now : Instant} {olderThan : Span} (h : ∀ record,
    e.tracks.get? icao24 = some record → record.terminated = true ∧ record.lastReportAt < now - olderThan) :
    icao24 ∉ (e.pruneTerminated now olderThan).1.knownAddresses := by
  intro hmem
  obtain ⟨record, hkept⟩ := mem_knownAddresses.mp hmem
  obtain ⟨hterm, hold⟩ := h record (get?_pruneTerminated hkept)
  rw [pruneTerminated, Dict.get?_filterValues, Option.filter_eq_some_iff] at hkept
  simp [hterm, hold] at hkept

theorem get?_pop (acc : TrackEstimator × ℕ) (a : String) : (pop acc a).1.tracks.get? icao24 =
    if icao24 = a then none else acc.1.tracks.get? icao24 := by
  cases hget : acc.1.tracks.get? a with
  | none => by_cases ha : icao24 = a <;> simp [pop, ha, hget]
  | some _ => simp [pop, hget]

/-- Releasing aircraft takes exactly them away. -/
theorem get?_release (addresses : List String) : (e.release addresses).1.tracks.get? icao24 =
    if icao24 ∈ addresses then none else e.tracks.get? icao24 := by
  suffices h : ∀ (l : List String) (acc : TrackEstimator × ℕ), (l.foldl pop acc).1.tracks.get? icao24 =
      if icao24 ∈ l then none else acc.1.tracks.get? icao24 from h addresses (e, 0)
  intro l
  induction l with
  | nil => intro acc; simp
  | cons a l ih =>
    intro acc
    rw [List.foldl_cons, ih, get?_pop]
    by_cases ha : icao24 = a <;> simp [ha]

/-- A record that is left after a release was there before, of an aircraft not released. -/
theorem get?_release_eq_some {addresses : List String}
    (h : (e.release addresses).1.tracks.get? icao24 = some record) :
    icao24 ∉ addresses ∧ e.tracks.get? icao24 = some record := by
  rw [get?_release] at h
  split_ifs at h with hmem
  exact ⟨hmem, h⟩

end TrackEstimator

end

end Airspace
