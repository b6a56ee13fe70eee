import Airspace.Track.ReportRuns

/-! Late and duplicate reports.

    The estimator drops a report that is not newer than its aircraft's last one, and still answers it: with
    the record as it is, at the time of the report. What that answer leaves in the stores depends on the
    order in which the aircraft's reports came. -/

namespace Airspace

noncomputable section

open TrackEstimator TrackHistoryStore LiveTrackStore

/-! ### Answers and the records behind them -/

namespace TrackEstimator

variable {e : TrackEstimator} {reports : List SurveillanceReport} {r : SurveillanceReport} {icao24 : String}
  {record : TrackRecord}

/-- The record held for an aircraft after some reports. -/
def held (e : TrackEstimator) (reports : List SurveillanceReport) (icao24 : String) : Option TrackRecord :=
  (e.feed reports).tracks.get? icao24

/-- Records are of the aircraft they are filed under, and none is terminated. -/
def InService (e : TrackEstimator) : Prop :=
  ∀ icao24 record, e.tracks.get? icao24 = some record → IsOf record icao24 ∧ record.terminated = false

/-- What a report comes to: the record left for its aircraft, from which it is answered. -/
structure Reported (e : TrackEstimator) (r : SurveillanceReport) (record : TrackRecord) : Prop where
  tracks : (e.onReport r).1 = { e with tracks := e.tracks.set r.icao24 record }
  answered : (e.onReport r).2 = (toUpdate record r.observedAt).2
  isOf : IsOf record r.icao24
  terminated : record.terminated = false
  le : r.observedAt ≤ record.lastReportAt
  newest : record.lastReportAt = r.observedAt ∨ e.tracks.get? r.icao24 = some record
  grown : ∀ old, e.tracks.get? r.icao24 = some old →
    old.lastReportAt ≤ record.lastReportAt ∧ record.scenarioId = old.scenarioId

theorem scenarioId_update (r : SurveillanceReport) :
    (e.update record r).scenarioId = record.scenarioId := by
  simp only [update]
  split_ifs <;> rfl

theorem reported_answer (hanswer : e.onReport r = e.answer r record) (hof : IsOf record r.icao24)
    (hlive : record.terminated = false) (hle : r.observedAt ≤ record.lastReportAt)
    (hnewest : record.lastReportAt = r.observedAt ∨ e.tracks.get? r.icao24 = some record)
    (hgrown : ∀ old, e.tracks.get? r.icao24 = some old →
      old.lastReportAt ≤ record.lastReportAt ∧ record.scenarioId = old.scenarioId) :
    Reported e r record := by
  refine ⟨?_, by rw [hanswer, answer], hof, hlive, hle, hnewest, hgrown⟩
  rw [hanswer]
  exact congrArg (fun kept => { e with tracks := e.tracks.set r.icao24 kept }) (coast_at_report hle)

theorem exists_reported (h : InService e) (r : SurveillanceReport) : ∃ record, Reported e r record := by
  cases hget : e.tracks.get? r.icao24 with
  | none =>
    refine ⟨e.initiate r, reported_answer (onReport_of_none hget) (isOf_initiate r) rfl (le_refl _)
      (.inl rfl) ?_⟩
    intro old hold
    rw [hget] at hold
    exact nomatch hold
  | some old =>
    obtain ⟨hof, hlive⟩ := h _ _ hget
    rcases le_or_gt r.observedAt old.lastReportAt with hle | hlt
    · have hsame := update_of_le (e := e) hle
      refine ⟨old, reported_answer (hsame ▸ onReport_of_live hget hlive) hof hlive hle (.inr hget) ?_⟩
      intro old' hold'
      obtain rfl : old = old' := Option.some_inj.mp (hget.symm.trans hold')
      exact ⟨le_rfl, rfl⟩
    · obtain ⟨hlast, hlive', -⟩ := update_of_lt (e := e) hlt
      refine ⟨e.update old r, reported_answer (onReport_of_live hget hlive) (isOf_update hof r)
        (hlive'.trans hlive) hlast.ge (.inl hlast) ?_⟩
      intro old' hold'
      obtain rfl : old = old' := Option.some_inj.mp (hget.symm.trans hold')
      exact ⟨hlast ▸ hlt.le, scenarioId_update r⟩

theorem inService_of_empty (h : e.tracks = Dict.empty) : InService e := by
  intro icao24 record hget
  rw [h, Dict.get?_empty] at hget
  exact nomatch hget

theorem Reported.get? (h : Reported e r record) (icao24 : String) :
    (e.onReport r).1.tracks.get? icao24 = if icao24 = r.icao24 then some record else e.tracks.get? icao24 := by
  rw [h.tracks, Dict.get?_set]

theorem inService_onReport (h : InService e) (r : SurveillanceReport) : InService (e.onReport r).1 := by
  obtain ⟨record, hrecord⟩ := exists_reported h r
  intro icao24 record' hget
  rw [hrecord.get?] at hget
  split_ifs at hget with hid
  · obtain rfl := Option.some_inj.mp hget
    exact ⟨hid ▸ hrecord.isOf, hrecord.terminated⟩
  · exact h icao24 record' hget

theorem inService_feed (h : InService e) (reports : List SurveillanceReport) : InService (e.feed reports) := by
  induction reports generalizing e with
  | nil => exact h
  | cons r reports ih => exact ih (inService_onReport h r)

/-- The answer names the report's aircraft and time, and shows the record it is built from. -/
theorem Reported.answer_spec (h : Reported e r record) :
    (e.onReport r).2.trackId = trackIdFor r.icao24 ∧ (e.onReport r).2.updatedAt = r.observedAt ∧
      (e.onReport r).2.icao24 = r.icao24 ∧ (e.onReport r).2.lastReportAt = record.lastReportAt ∧
      (e.onReport r).2.scenarioId = record.scenarioId := by
  have hupdate : (e.onReport r).2 = (toUpdate record r.observedAt).2 := h.answered
  rw [hupdate, toUpdate, coast_at_report h.le]
  exact ⟨h.isOf.2, rfl, h.isOf.1, rfl, rfl⟩

end TrackEstimator

/-- The reports of one aircraft. -/
def ofAircraft (icao24 : String) (reports : List SurveillanceReport) : List SurveillanceReport :=
  reports.filter fun r => r.icao24 = icao24

variable {e : TrackEstimator} {reports : List SurveillanceReport} {r : SurveillanceReport} {icao24 : String}
  {record : TrackRecord}

theorem ofTrack_answers_cons (h : InService e) : ofTrack (trackIdFor icao24) (e.answers (r :: reports)) =
    if r.icao24 = icao24 then (e.onReport r).2 :: ofTrack (trackIdFor icao24) ((e.onReport r).1.answers reports)
    else ofTrack (trackIdFor icao24) ((e.onReport r).1.answers reports) := by
  obtain ⟨record, hrecord⟩ := exists_reported h r
  have hid := hrecord.answer_spec.1
  rw [answers_cons, ofTrack, List.filter_cons]
  by_cases hr : r.icao24 = icao24
  · rw [if_pos (by rw [hid, hr]; exact decide_eq_true rfl), if_pos hr]
    rfl
  · have hne : (e.onReport r).2.trackId ≠ trackIdFor icao24 := fun heq => hr (trackIdFor_inj (hid ▸ heq))
    rw [if_neg (by simpa using hne), if_neg hr]
    rfl

/-- The answers for an aircraft are as many as its reports, at their times. -/
theorem updatedAt_ofTrack_answers (h : InService e) (reports : List SurveillanceReport) (icao24 : String) :
    (ofTrack (trackIdFor icao24) (e.answers reports)).map TrackUpdate.updatedAt =
      (ofAircraft icao24 reports).map SurveillanceReport.observedAt := by
  induction reports generalizing e with
  | nil => rfl
  | cons r reports ih =>
    obtain ⟨record, hrecord⟩ := exists_reported h r
    rw [ofTrack_answers_cons h, ofAircraft, List.filter_cons]
    by_cases hr : r.icao24 = icao24
    · rw [if_pos hr, if_pos (decide_eq_true hr), List.map_cons, List.map_cons, ih (inService_onReport h r),
        hrecord.answer_spec.2.1]
      rfl
    · rw [if_neg hr, if_neg (by simpa using hr), ih (inService_onReport h r)]
      rfl

/-- Where an answer comes from. -/
theorem mem_answers_iff {u : TrackUpdate} : u ∈ e.answers reports ↔
    ∃ before r after, reports = before ++ r :: after ∧ u = ((e.feed before).onReport r).2 := by
  constructor
  · intro h
    obtain ⟨us, vs, heq⟩ := List.append_of_mem h
    obtain ⟨before, later, rfl, -, hlater⟩ := answers_eq_append heq
    cases later with
    | nil => exact nomatch hlater
    | cons r after =>
      rw [answers_cons, List.cons.injEq] at hlater
      exact ⟨before, r, after, rfl, hlater.1.symm⟩
  · rintro ⟨before, r, after, rfl, rfl⟩
    rw [answers_append, answers_cons]
    exact List.mem_append_right _ List.mem_cons_self

/-- While a record is held its aircraft keeps the scenario, and the time of the last report only grows. -/
theorem answers_of_held (h : InService e) (hheld : e.tracks.get? icao24 = some record) :
    ∀ u ∈ ofTrack (trackIdFor icao24) (e.answers reports),
      record.lastReportAt ≤ u.lastReportAt ∧ u.icao24 = icao24 ∧ u.scenarioId = record.scenarioId := by
  induction reports generalizing e record with
  | nil => exact fun u hu => absurd hu List.not_mem_nil
  | cons r reports ih =>
    obtain ⟨record', hrecord⟩ := exists_reported h r
    have hget := hrecord.get? icao24
    intro u hu
    rw [ofTrack_answers_cons h] at hu
    by_cases hr : r.icao24 = icao24
    · subst hr
      rw [if_pos rfl] at hu hget
      obtain ⟨hgrown, hscenario⟩ := hrecord.grown record hheld
      rcases List.mem_cons.mp hu with rfl | hu
      · obtain ⟨-, -, hicao, hlast, hsame⟩ := hrecord.answer_spec
        exact ⟨hlast ▸ hgrown, hicao, hsame.trans hscenario⟩
      · obtain ⟨hle, hicao, hsame⟩ := ih (inService_onReport h r) hget u hu
        exact ⟨hgrown.trans hle, hicao, hsame.trans hscenario⟩
    · rw [if_neg hr] at hu
      rw [if_neg (Ne.symm hr)] at hget
      exact ih (inService_onReport h r) (hget.trans hheld) u hu

/-- The first answer for an aircraft has the earliest last report, and the identity of all. -/
theorem answers_of_first (h : InService e) : ∀ first ∈ (ofTrack (trackIdFor icao24) (e.answers reports)).head?,
    ∀ u ∈ ofTrack (trackIdFor icao24) (e.answers reports),
      first.lastReportAt ≤ u.lastReportAt ∧ u.icao24 = first.icao24 ∧ u.scenarioId = first.scenarioId := by
  induction reports generalizing e with
  | nil => exact fun first hfirst => nomatch hfirst
  | cons r reports ih =>
    obtain ⟨record, hrecord⟩ := exists_reported h r
    intro first hfirst u hu
    rw [ofTrack_answers_cons h] at hfirst hu
    by_cases hr : r.icao24 = icao24
    · subst hr
      rw [if_pos rfl] at hfirst hu
      obtain rfl : (e.onReport r).2 = first := Option.some_inj.mp hfirst
      obtain ⟨-, -, hicao, hlast, hsame⟩ := hrecord.answer_spec
      rcases List.mem_cons.mp hu with rfl | hu
      · exact ⟨le_rfl, rfl, rfl⟩
      · have hget := hrecord.get? r.icao24
        rw [if_pos rfl] at hget
        obtain ⟨hle, hicao', hsame'⟩ := answers_of_held (inService_onReport h r) hget u hu
        exact ⟨hlast ▸ hle, hicao'.trans hicao.symm, hsame'.trans hsame.symm⟩
    · rw [if_neg hr] at hfirst hu
      exact ih (inService_onReport h r) first hfirst u hu

/-- The record still held answered the aircraft's last report, and an answer has the time of its last
    report. -/
theorem answers_of_held_last (he : e.tracks = Dict.empty) (hheld : record ∈ held e reports icao24) :
    (∃ last, (ofTrack (trackIdFor icao24) (e.answers reports)).getLast? = some last ∧
      last = (toUpdate record last.updatedAt).2) ∧
    ∃ u ∈ ofTrack (trackIdFor icao24) (e.answers reports), u.updatedAt = record.lastReportAt := by
  induction reports using List.reverseRecOn generalizing record with
  | nil =>
    have hnone : held e [] icao24 = none := by
      change e.tracks.get? icao24 = none
      rw [he, Dict.get?_empty]
    rw [hnone] at hheld
    exact nomatch hheld
  | append_singleton reports r ih =>
    have hserved := inService_feed (inService_of_empty he) reports
    obtain ⟨record', hrecord⟩ := exists_reported hserved r
    have hget : held e (reports ++ [r]) icao24 =
        if icao24 = r.icao24 then some record' else held e reports icao24 := by
      rw [held, feed_append]
      exact hrecord.get? icao24
    rw [hget] at hheld
    obtain ⟨hid, hat, -⟩ := hrecord.answer_spec
    rw [answers_append, ofTrack_append, ofTrack_answers_cons hserved]
    by_cases hr : icao24 = r.icao24
    · rw [if_pos hr] at hheld
      obtain rfl : record' = record := Option.some_inj.mp hheld
      rw [if_pos hr.symm]
      refine ⟨⟨_, List.getLast?_concat, by rw [hat]; exact hrecord.answered⟩, ?_⟩
      rcases hrecord.newest with hnew | hold
      · exact ⟨_, List.mem_append_right _ List.mem_cons_self, hat.trans hnew.symm⟩
      · have hbefore : held e reports icao24 = some record' := hr ▸ hold
        obtain ⟨-, u, hu, hlast⟩ := ih hbefore
        exact ⟨u, List.mem_append_left _ hu, hlast⟩
    · rw [if_neg hr] at hheld
      rw [if_neg (Ne.symm hr), show ofTrack (trackIdFor icao24) (TrackEstimator.answers _ []) = [] from rfl,
        List.append_nil]
      exact ih hheld

/-! ### Reports in order -/

/-- The estimates two records are stored with. -/
structure SameEstimate (a b : TrackRecord) : Prop where
  lat : a.lat = b.lat
  lon : a.lon = b.lon
  altitudeFt : a.altitudeFt = b.altitudeFt
  groundSpeedKt : max 0 a.groundSpeedKt = max 0 b.groundSpeedKt
  trackDeg : pyMod a.trackDeg 360 = pyMod b.trackDeg 360
  verticalRateFpm : a.verticalRateFpm = b.verticalRateFpm
  turnRateDegS : a.turnRateDegS = b.turnRateDegS
  positionUncertaintyM : a.positionUncertaintyM = b.positionUncertaintyM

/-- The last report of every aircraft is its newest, and two reports of an aircraft at one time leave the
    same estimate held. -/
structure ReportedInOrder (e : TrackEstimator) (reports : List SurveillanceReport) : Prop where
  newest : ∀ icao24, ∀ last ∈ (ofAircraft icao24 reports).getLast?, ∀ r ∈ ofAircraft icao24 reports,
    r.observedAt ≤ last.observedAt
  instants : ∀ before r after before' r' after', reports = before ++ r :: after →
    reports = before' ++ r' :: after' → r.icao24 = r'.icao24 → r.observedAt = r'.observedAt →
      ∀ record ∈ held e (before ++ [r]) r.icao24, ∀ record' ∈ held e (before' ++ [r']) r.icao24,
        SameEstimate record record'

/-- Two answers of one aircraft at one time give one point exactly when the records behind them give the
    same estimate. -/
theorem pointRow_answers_iff {e' : TrackEstimator} {r' : SurveillanceReport} {record' : TrackRecord}
    (h : Reported e r record) (h' : Reported e' r' record') (hid : r.icao24 = r'.icao24)
    (hat : r.observedAt = r'.observedAt) :
    pointRow (e.onReport r).2 = pointRow (e'.onReport r').2 ↔ SameEstimate record record' := by
  have htrack : record.trackId = record'.trackId := h.isOf.2.trans (hid ▸ h'.isOf.2.symm)
  rw [h.answered, h'.answered, toUpdate, toUpdate, coast_at_report h.le, coast_at_report h'.le]
  simp only [pointRow, TrackPoint.mk.injEq]
  constructor
  · rintro ⟨-, -, h₁, h₂, h₃, h₄, h₅, h₆, h₇, h₈⟩
    exact ⟨h₁, h₂, h₃, h₄, h₅, h₆, h₇, h₈⟩
  · rintro ⟨h₁, h₂, h₃, h₄, h₅, h₆, h₇, h₈⟩
    exact ⟨htrack, hat, h₁, h₂, h₃, h₄, h₅, h₆, h₇, h₈⟩

/-- The answer at a place among the reports, and the record held after it. -/
theorem exists_answer_at (h : InService e) (before : List SurveillanceReport) (r : SurveillanceReport) :
    ∃ record, Reported (e.feed before) r record ∧ held e (before ++ [r]) r.icao24 = some record := by
  obtain ⟨record, hrecord⟩ := exists_reported (inService_feed h before) r
  refine ⟨record, hrecord, ?_⟩
  have hget := hrecord.get? r.icao24
  rw [if_pos rfl] at hget
  rw [held, feed_append]
  exact hget

/-- The updates of a track are the answers at the places of its aircraft's reports. -/
theorem mem_ofTrack_iff (h : InService e) {trackId : String} {u : TrackUpdate} :
    u ∈ ofTrack trackId (e.answers reports) ↔ ∃ before r after, reports = before ++ r :: after ∧
      trackIdFor r.icao24 = trackId ∧ u = ((e.feed before).onReport r).2 := by
  have hid : ∀ before r, ((e.feed before).onReport r).2.trackId = trackIdFor r.icao24 := by
    intro before r
    obtain ⟨record, hrecord, -⟩ := exists_answer_at h before r
    exact hrecord.answer_spec.1
  constructor
  · intro hu
    obtain ⟨hmem, htrack⟩ := List.mem_filter.mp hu
    obtain ⟨before, r, after, hsplit, rfl⟩ := mem_answers_iff.mp hmem
    exact ⟨before, r, after, hsplit, (hid before r).symm.trans (of_decide_eq_true htrack), rfl⟩
  · rintro ⟨before, r, after, hsplit, htrack, rfl⟩
    exact List.mem_filter.mpr
      ⟨mem_answers_iff.mpr ⟨_, _, _, hsplit, rfl⟩, decide_eq_true ((hid before r).trans htrack)⟩

/-- Whether the last is the newest is seen from the times. -/
theorem last_newest_iff {α : Type} (time : α → Instant) (l : List α) :
    (∀ last ∈ l.getLast?, ∀ a ∈ l, time a ≤ time last) ↔
      ∀ latest ∈ (l.map time).getLast?, ∀ t ∈ l.map time, t ≤ latest := by
  simp [List.getLast?_map]

/-- The last update of an aircraft's track is its newest exactly when its last report is. -/
theorem newest_answers_iff (h : InService e) (reports : List SurveillanceReport) (icao24 : String) :
    (∀ last ∈ (ofTrack (trackIdFor icao24) (e.answers reports)).getLast?,
      ∀ u ∈ ofTrack (trackIdFor icao24) (e.answers reports), u.updatedAt ≤ last.updatedAt) ↔
    ∀ last ∈ (ofAircraft icao24 reports).getLast?, ∀ r ∈ ofAircraft icao24 reports,
      r.observedAt ≤ last.observedAt := by
  rw [last_newest_iff, updatedAt_ofTrack_answers h, ← last_newest_iff]

/-- The updates of every track come in order exactly when the reports do. -/
theorem inOrder_answers_iff (h : InService e) (reports : List SurveillanceReport) :
    (∀ trackId, TrackHistoryStore.InOrder (ofTrack trackId (e.answers reports))) ↔
      ReportedInOrder e reports := by
  constructor
  · intro horder
    constructor
    case newest => exact fun icao24 => (newest_answers_iff h reports icao24).mp (horder _).newest
    case instants =>
      intro before r after before' r' after' hsplit hsplit' hid hat record hheld record' hheld'
      obtain ⟨_, hrecord, hheld₁⟩ := exists_answer_at h before r
      obtain ⟨_, hrecord', hheld₁'⟩ := exists_answer_at h before' r'
      obtain rfl := Option.some_inj.mp (hheld₁.symm.trans hheld)
      obtain rfl := Option.some_inj.mp (hheld₁'.symm.trans (hid ▸ hheld'))
      have hmem := (mem_ofTrack_iff h).mpr ⟨before, r, after, hsplit, rfl, rfl⟩
      have hmem' := (mem_ofTrack_iff h).mpr ⟨before', r', after', hsplit', congrArg trackIdFor hid.symm, rfl⟩
      refine (pointRow_answers_iff hrecord hrecord' hid hat).mp ((horder _).instants _ hmem _ hmem' ?_)
      exact hrecord.answer_spec.2.1.trans (hat.trans hrecord'.answer_spec.2.1.symm)
  · intro horder trackId
    have hof : ∀ u ∈ ofTrack trackId (e.answers reports), ∃ icao24, trackId = trackIdFor icao24 := by
      intro u hu
      obtain ⟨-, r, -, -, htrack, -⟩ := (mem_ofTrack_iff h).mp hu
      exact ⟨r.icao24, htrack.symm⟩
    constructor
    case newest =>
      intro last hlast u hu
      obtain ⟨icao24, rfl⟩ := hof u hu
      exact (newest_answers_iff h reports icao24).mpr (horder.newest icao24) last hlast u hu
    case earliest =>
      intro first hfirst u hu
      obtain ⟨icao24, rfl⟩ := hof u hu
      exact (answers_of_first h first hfirst u hu).1
    case identity =>
      intro first hfirst before u after heq _
      have hu : u ∈ ofTrack trackId (e.answers reports) := by
        rw [heq]
        exact List.mem_append_right _ List.mem_cons_self
      obtain ⟨icao24, rfl⟩ := hof u hu
      exact (answers_of_first h first hfirst u hu).2
    case instants =>
      intro u hu v hv hat
      obtain ⟨before, r, after, hsplit, htrack, rfl⟩ := (mem_ofTrack_iff h).mp hu
      obtain ⟨before', r', after', hsplit', htrack', rfl⟩ := (mem_ofTrack_iff h).mp hv
      obtain ⟨record, hrecord, hheld⟩ := exists_answer_at h before r
      obtain ⟨record', hrecord', hheld'⟩ := exists_answer_at h before' r'
      have hid : r.icao24 = r'.icao24 := trackIdFor_inj (htrack.trans htrack'.symm)
      rw [hrecord.answer_spec.2.1, hrecord'.answer_spec.2.1] at hat
      exact (pointRow_answers_iff hrecord hrecord' hid hat).mpr
        (horder.instants _ _ _ _ _ _ hsplit hsplit' hid hat _ hheld _ (hid ▸ hheld'))

/-! ### A report that is not newer -/

/-- The aircraft is tracked, and its last report is at least as new as this one. -/
def Late (e : TrackEstimator) (before : List SurveillanceReport) (late : SurveillanceReport) : Prop :=
  ∃ record ∈ held e before late.icao24, record.terminated = false ∧ late.observedAt ≤ record.lastReportAt

variable {before after : List SurveillanceReport} {late : SurveillanceReport}

/-- The estimator stays as it is, and answers from the record as it is. -/
theorem onReport_late {e : TrackEstimator} {r : SurveillanceReport}
    (hget : e.tracks.get? r.icao24 = some record) (hlive : record.terminated = false)
    (hle : r.observedAt ≤ record.lastReportAt) :
    (e.onReport r).1 = e ∧ (e.onReport r).2 = (toUpdate record r.observedAt).2 := by
  have hanswer := onReport_of_live hget hlive
  rw [update_of_le hle] at hanswer
  rw [hanswer]
  refine ⟨?_, rfl⟩
  change { e with tracks := e.tracks.set r.icao24 (coast record r.observedAt) } = e
  rw [coast_at_report hle, Dict.set_eq_self_iff.mpr hget]

theorem answers_insert (hheld : held e before late.icao24 = some record) (hlive : record.terminated = false)
    (hle : late.observedAt ≤ record.lastReportAt) : e.answers (before ++ late :: after) =
      e.answers before ++ (toUpdate record late.observedAt).2 :: (e.feed before).answers after := by
  obtain ⟨hsame, hanswer⟩ := onReport_late hheld hlive hle
  rw [answers_append, answers_cons, hsame, hanswer]

theorem mem_ofTrack_answers_iff (h : InService e) {instant : Instant} :
    (∃ u ∈ ofTrack (trackIdFor icao24) (e.answers reports), u.updatedAt = instant) ↔
      ∃ r ∈ reports, r.icao24 = icao24 ∧ r.observedAt = instant := by
  have hmap := updatedAt_ofTrack_answers h reports icao24
  rw [← List.mem_map, hmap, List.mem_map]
  simp [ofAircraft, and_assoc]

/-- When the reports come in order with and without the late one, its answer is the one given last if no
    other follows. -/
theorem getLast?_insert (he : e.tracks = Dict.empty) (hheld : held e before late.icao24 = some record)
    (hlive : record.terminated = false) (hle : late.observedAt ≤ record.lastReportAt)
    (horder : ReportedInOrder e (before ++ after)) (horder' : ReportedInOrder e (before ++ late :: after))
    (trackId : String) : (ofTrack trackId (e.answers (before ++ late :: after))).getLast? =
      (ofTrack trackId (e.answers (before ++ after))).getLast? ∧
    (ofTrack trackId (e.answers (before ++ late :: after))).head? =
      (ofTrack trackId (e.answers (before ++ after))).head? := by
  have hserved := inService_of_empty he
  have hwith := (inOrder_answers_iff hserved _).mpr horder' trackId
  have hwithout := (inOrder_answers_iff hserved _).mpr horder trackId
  rw [answers_insert hheld hlive hle] at hwith ⊢
  rw [answers_append] at hwithout ⊢
  set answer := (toUpdate record late.observedAt).2 with hanswer
  have hid : answer.trackId = trackIdFor late.icao24 := by
    have hof := (inService_feed hserved before _ _ hheld).1
    rw [hanswer, toUpdate, coast_at_report hle]
    exact hof.2
  rw [ofTrack_append] at hwith hwithout ⊢
  rw [ofTrack_append]
  by_cases htrack : answer.trackId = trackId
  · have hcons : ofTrack trackId (answer :: (e.feed before).answers after) =
        answer :: ofTrack trackId ((e.feed before).answers after) :=
      List.filter_cons_of_pos (decide_eq_true htrack)
    rw [hcons] at hwith ⊢
    obtain ⟨⟨last, hlast, hbuilt⟩, u, hu, hnew⟩ := answers_of_held_last he hheld
    rw [← hid, htrack] at hlast hu
    have hne : ofTrack trackId (e.answers before) ≠ [] := List.ne_nil_of_mem hu
    refine ⟨?_, by rw [List.head?_append_of_ne_nil _ hne, List.head?_append_of_ne_nil _ hne]⟩
    rcases eq_or_ne (ofTrack trackId ((e.feed before).answers after)) [] with hnil | hrest
    · rw [hnil, List.append_nil] at hwithout ⊢
      rw [hnil] at hwith
      -- the time of the late report is that of the last answer, and both are built from one record
      have hge : last.updatedAt ≤ answer.updatedAt :=
        hwith.newest answer List.getLast?_concat last
          (List.mem_append_left _ (List.mem_of_getLast? hlast))
      have hat : last.updatedAt = late.observedAt := by
        refine le_antisymm hge (hle.trans ?_)
        rw [← hnew]
        exact hwithout.newest last hlast u hu
      rw [List.getLast?_concat, hlast, hbuilt, hat]
    · rw [List.getLast?_append_of_ne_nil _ hrest, List.getLast?_append_of_ne_nil _ (List.cons_ne_nil _ _)]
      obtain ⟨v, vs, hvs⟩ := List.exists_cons_of_ne_nil hrest
      rw [hvs, List.getLast?_cons_cons]
  · have hskip : ofTrack trackId (answer :: (e.feed before).answers after) =
        ofTrack trackId ((e.feed before).answers after) :=
      List.filter_cons_of_neg (by simpa using htrack)
    rw [hskip]
    exact ⟨rfl, rfl⟩

/-- What the stores hold after runs with and without the late report, whatever the settings and times. -/
def LeavesNoMark (e : TrackEstimator) (before : List SurveillanceReport) (late : SurveillanceReport)
    (after : List SurveillanceReport) : Prop :=
  ∀ batchSize flushIntervalS tables live tables' live',
    HandledReports (newRunner e batchSize flushIntervalS) (before ++ late :: after) tables live →
    HandledReports (newRunner e batchSize flushIntervalS) (before ++ after) tables' live' →
      SameTables tables tables' ∧ SamePicture live live'

/-- With another report of its time, the late report's answer has no time of its own. -/
theorem exists_atInstant_of_twin (h : InService e)
    (htwin : ∃ r ∈ before ++ after, r.icao24 = late.icao24 ∧ r.observedAt = late.observedAt) {trackId : String}
    {observedAt : Instant} {u : TrackUpdate}
    (hu : u ∈ atInstant trackId observedAt (e.answers (before ++ late :: after))) :
    ∃ v, v ∈ atInstant trackId observedAt (e.answers (before ++ after)) := by
  obtain ⟨htrack, hat⟩ := mem_atInstant.mp hu
  obtain ⟨-, r₀, -, -, rfl, -⟩ := (mem_ofTrack_iff h).mp htrack
  obtain ⟨r, hr, hid, hrat⟩ := (mem_ofTrack_answers_iff h).mp ⟨u, htrack, hat⟩
  have hother : ∃ r' ∈ before ++ after, r'.icao24 = r₀.icao24 ∧ r'.observedAt = observedAt := by
    rcases List.mem_append.mp hr with hr | hr
    · exact ⟨r, List.mem_append_left _ hr, hid, hrat⟩
    rcases List.mem_cons.mp hr with rfl | hr
    · obtain ⟨r', hr', hid', hat'⟩ := htwin
      exact ⟨r', hr', hid'.trans hid, hat'.trans hrat⟩
    · exact ⟨r, List.mem_append_right _ hr, hid, hrat⟩
  obtain ⟨v, hv, hvat⟩ := (mem_ofTrack_answers_iff h).mpr hother
  exact ⟨v, mem_atInstant.mpr ⟨hv, hvat⟩⟩

/-- In order, with another report of its time, the late report leaves the points as they are. -/
theorem points_of_order (h : InService e) (hheld : held e before late.icao24 = some record)
    (hlive : record.terminated = false) (hle : late.observedAt ≤ record.lastReportAt)
    (horder : ReportedInOrder e (before ++ late :: after))
    (htwin : ∃ r ∈ before ++ after, r.icao24 = late.icao24 ∧ r.observedAt = late.observedAt)
    {cut cut' : List (List TrackUpdate)} (hcut : cut.flatten = e.answers (before ++ late :: after))
    (hcut' : cut'.flatten = e.answers (before ++ after)) (trackId : String) (observedAt : Instant) :
    (cut.foldl TrackHistoryStore.record {}).points.get? (trackId, observedAt) =
      (cut'.foldl TrackHistoryStore.record {}).points.get? (trackId, observedAt) := by
  have hsub : ∀ u ∈ atInstant trackId observedAt (e.answers (before ++ after)),
      u ∈ atInstant trackId observedAt (e.answers (before ++ late :: after)) := by
    rw [answers_insert hheld hlive hle, answers_append]
    refine (List.Sublist.filter _ (List.Sublist.append_left ?_ _)).subset
    exact List.sublist_cons_self _ _
  rcases points_of_cut hcut trackId observedAt with ⟨hnil, hnone⟩ | ⟨u, hu, hsome⟩
  · rcases points_of_cut hcut' trackId observedAt with ⟨-, hnone'⟩ | ⟨v, hv, -⟩
    · rw [hnone, hnone']
    · exact absurd (hnil ▸ hsub v hv) List.not_mem_nil
  · rcases points_of_cut hcut' trackId observedAt with ⟨hnil', -⟩ | ⟨v, hv, hsome'⟩
    · obtain ⟨v, hv⟩ := exists_atInstant_of_twin h htwin hu
      rw [hnil'] at hv
      exact absurd hv List.not_mem_nil
    · obtain ⟨hutrack, huat⟩ := mem_atInstant.mp hu
      obtain ⟨hvtrack, hvat⟩ := mem_atInstant.mp (hsub v hv)
      have hinOrder := (inOrder_answers_iff h _).mpr horder trackId
      rw [hsome, hsome', hinOrder.instants u hutrack v hvtrack (huat.trans hvat.symm)]

/-- In order, with another report of its time, the late report leaves no mark. -/
theorem leavesNoMark_of_order (he : e.tracks = Dict.empty) (hlate : Late e before late)
    (horder : ReportedInOrder e (before ++ after)) (horder' : ReportedInOrder e (before ++ late :: after))
    (htwin : ∃ r ∈ before ++ after, r.icao24 = late.icao24 ∧ r.observedAt = late.observedAt) :
    LeavesNoMark e before late after := by
  intro batchSize flushIntervalS tables live tables' live' hwith hwithout
  obtain ⟨record, hheld, hlive, hle⟩ := hlate
  have hserved := inService_of_empty he
  have hnew := newRunner_isNew he batchSize flushIntervalS
  obtain ⟨cut, hcut, rfl, rfl⟩ := hwith.exists_cut hnew
  obtain ⟨cut', hcut', rfl, rfl⟩ := hwithout.exists_cut hnew
  change cut.flatten = e.answers (before ++ late :: after) at hcut
  change cut'.flatten = e.answers (before ++ after) at hcut'
  have hinOrder := (inOrder_answers_iff hserved _).mpr horder'
  have hinOrder' := (inOrder_answers_iff hserved _).mpr horder
  have hends := getLast?_insert he hheld hlive hle horder horder'
  refine ⟨⟨fun trackId => ?_, points_of_order hserved hheld hlive hle horder' htwin hcut hcut'⟩,
    ⟨fun trackId => ?_, fun trackId => ?_⟩⟩
  · rw [tracks_of_inOrder hcut (hinOrder trackId), tracks_of_inOrder hcut' (hinOrder' trackId), orderedRow,
      orderedRow, (hends trackId).1, (hends trackId).2]
  · rw [get?_entries_publish, get?_entries_publish]
    change (ofTrack trackId (e.answers _)).getLast?.or _ = (ofTrack trackId (e.answers _)).getLast?.or _
    rw [(hends trackId).1]
  · rw [get?_index_publish, get?_index_publish, List.getLast?_map, List.getLast?_map]
    change (Option.map _ (ofTrack trackId (e.answers _)).getLast?).or _ =
      (Option.map _ (ofTrack trackId (e.answers _)).getLast?).or _
    rw [(hends trackId).1]

/-- Without a mark, all cuts of the answers with and without the late report make the same tables. -/
theorem sameTables_of_leavesNoMark (h : LeavesNoMark e before late after) {cut cut' : List (List TrackUpdate)}
    (hcut : cut.flatten = e.answers (before ++ late :: after))
    (hcut' : cut'.flatten = e.answers (before ++ after)) :
    SameTables (cut.foldl TrackHistoryStore.record {}) (cut'.foldl TrackHistoryStore.record {}) :=
  (h ((before ++ late :: after).length + 1) 1 _ _ _ _
    (handledReports_of_cut hcut (Nat.lt_succ_self _))
    (handledReports_of_cut hcut' (by simp))).1

/-- The point of a late report whose time no other report has is a mark. -/
theorem twin_of_leavesNoMark (he : e.tracks = Dict.empty) (h : LeavesNoMark e before late after) :
    ∃ r ∈ before ++ after, r.icao24 = late.icao24 ∧ r.observedAt = late.observedAt := by
  have hserved := inService_of_empty he
  obtain ⟨u, hu, hat⟩ := (mem_ofTrack_answers_iff hserved).mpr
    ⟨late, List.mem_append_right before (List.mem_cons_self (l := after)), rfl, rfl⟩
  have hsame := (sameTables_of_leavesNoMark h (flatten_singletons _) (flatten_singletons _)).points
    (trackIdFor late.icao24) late.observedAt
  rcases points_of_cut (flatten_singletons (e.answers (before ++ late :: after)))
    (trackIdFor late.icao24) late.observedAt with ⟨hnil, -⟩ | ⟨v, -, hsome⟩
  · exact absurd (hnil ▸ mem_atInstant.mpr ⟨hu, hat⟩) List.not_mem_nil
  rcases points_of_cut (flatten_singletons (e.answers (before ++ after)))
    (trackIdFor late.icao24) late.observedAt with ⟨-, hnone⟩ | ⟨w, hw, -⟩
  · rw [hsome, hnone] at hsame
    exact nomatch hsame
  · exact (mem_ofTrack_answers_iff hserved).mp ⟨w, mem_atInstant.mp hw⟩

/-- Copies of one report leave the estimator as the first of them does. -/
theorem feed_copies (h : InService e) (hsame : ∀ r' ∈ reports, r' = r) (hne : reports ≠ []) :
    e.feed reports = (e.onReport r).1 := by
  induction reports using List.reverseRecOn with
  | nil => exact absurd rfl hne
  | append_singleton reports r' ih =>
    obtain rfl : r' = r := hsame r' (by simp)
    rcases eq_or_ne reports [] with rfl | hrest
    · rfl
    obtain ⟨record, hrecord⟩ := exists_reported h r'
    have hget : (e.onReport r').1.tracks.get? r'.icao24 = some record := by
      rw [hrecord.get?, if_pos rfl]
    rw [feed_append, ih (fun r hr => hsame r (by simp [hr])) hrest]
    exact (onReport_late hget hrecord.terminated hrecord.le).1

theorem reportedInOrder_copies (h : InService e) (hsame : ∀ r' ∈ reports, r' = r) :
    ReportedInOrder e reports := by
  have hmem : ∀ icao24, ∀ r' ∈ ofAircraft icao24 reports, r' = r :=
    fun icao24 r' hr' => hsame r' (List.mem_filter.mp hr').1
  refine ⟨fun icao24 last hlast r' hr' => ?_, ?_⟩
  · rw [hmem icao24 last (List.mem_of_getLast? hlast), hmem icao24 r' hr']
  · rintro before r₁ after before' r₂ after' hsplit hsplit' - - record hrecord record' hrecord'
    have hfeed : ∀ before r' after, reports = before ++ r' :: after →
        e.feed (before ++ [r']) = (e.onReport r).1 := by
      rintro before r' after rfl
      refine feed_copies h (fun r'' hr'' => hsame r'' ?_) (by simp)
      rw [← List.singleton_append, ← List.append_assoc]
      exact List.mem_append_left _ hr''
    rw [held, hfeed before r₁ after hsplit] at hrecord
    rw [held, hfeed before' r₂ after' hsplit'] at hrecord'
    obtain rfl := Option.some_inj.mp (hrecord.symm.trans hrecord')
    exact ⟨rfl, rfl, rfl, rfl, rfl, rfl, rfl, rfl⟩

/-- A report that is not newer than its aircraft's last one leaves no mark exactly when all reports come in
    order, with it and without it, and another report has its time. -/
theorem late_report_leaves_no_mark_iff (he : e.tracks = Dict.empty) (hlate : Late e before late) :
    LeavesNoMark e before late after ↔
      ReportedInOrder e (before ++ after) ∧ ReportedInOrder e (before ++ late :: after) ∧
        ∃ r ∈ before ++ after, r.icao24 = late.icao24 ∧ r.observedAt = late.observedAt := by
  have hserved := inService_of_empty he
  constructor
  · intro h
    refine ⟨(inOrder_answers_iff hserved _).mp fun trackId => inOrder_of_sameTables ?_,
      (inOrder_answers_iff hserved _).mp fun trackId => inOrder_of_sameTables ?_, twin_of_leavesNoMark he h⟩
    · intro cut₁ cut₂ hcut₁ hcut₂
      exact (sameTables_of_leavesNoMark h (flatten_singletons _) hcut₁).symm.trans
        (sameTables_of_leavesNoMark h (flatten_singletons _) hcut₂)
    · intro cut₁ cut₂ hcut₁ hcut₂
      exact (sameTables_of_leavesNoMark h hcut₁ (flatten_singletons _)).trans
        (sameTables_of_leavesNoMark h hcut₂ (flatten_singletons _)).symm
  · rintro ⟨horder, horder', htwin⟩
    exact leavesNoMark_of_order he hlate horder horder' htwin

/-- The first report of an aircraft, delivered twice. -/
theorem late_report_leaves_no_mark_twice : LeavesNoMark {} [climbStart] climbStart [] := by
  have hserved : InService {} := inService_of_empty rfl
  obtain ⟨record, hrecord, hheld⟩ := exists_answer_at hserved [] climbStart
  refine (late_report_leaves_no_mark_iff rfl ⟨record, hheld, hrecord.terminated, hrecord.le⟩).mpr ⟨?_, ?_, ?_⟩
  · exact reportedInOrder_copies hserved (r := climbStart) (by simp)
  · exact reportedInOrder_copies hserved (r := climbStart) (by simp)
  · exact ⟨climbStart, by simp, rfl, rfl⟩

/-- A report between two others, delivered after both: its point was never there without it. -/
theorem late_report_leaves_point : ¬ ∀ (e : TrackEstimator) (before after : List SurveillanceReport)
    (late : SurveillanceReport), e.tracks = Dict.empty → (∀ r ∈ before ++ late :: after, r.Admitted) →
      Late e before late → LeavesNoMark e before late after := by
  intro h
  have hserved : InService {} := inService_of_empty rfl
  obtain ⟨record, hrecord, hheld⟩ := exists_answer_at hserved [climbStart] (climbLater (seconds 10))
  have hmark := h {} [climbStart, climbLater (seconds 10)] [] (climbLater (seconds 5)) rfl ?_
    ⟨record, hheld, hrecord.terminated, (show seconds 5 ≤ seconds 10 by norm_num [seconds]).trans hrecord.le⟩
  · obtain ⟨r, hr, -, hat⟩ := twin_of_leavesNoMark rfl hmark
    simp only [List.append_nil, List.mem_cons, List.not_mem_nil, or_false] at hr
    rcases hr with rfl | rfl
    · exact absurd hat (by norm_num [climbStart, climbLater, seconds])
    · exact absurd hat (by norm_num [climbLater, seconds])
  · intro r hr
    simp only [List.cons_append, List.nil_append, List.mem_cons, List.not_mem_nil, or_false] at hr
    rcases hr with rfl | rfl | rfl
    all_goals
      refine ⟨by decide, ?_, ?_, ?_, ?_, ?_⟩ <;> simp [climbStart, climbLater]

end

end Airspace
