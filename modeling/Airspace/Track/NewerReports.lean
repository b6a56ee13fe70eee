import Airspace.Lib.Prefixes
import Airspace.Track.LateReports

/-! Reports that are not newer.

    A report folds in only if it is strictly newer than every one before it. Any other leaves the estimator
    as it is: the update built from the record does not run the filter, since the report lies at or before
    the last one folded in, also after a sweep has run it forward. So the reports that count are the strict
    running maxima of the observed times, with the sweeps between them. -/

namespace Airspace

noncomputable section

namespace TrackEstimator

variable {e : TrackEstimator} {calls : List Call} {icao24 : String} {last : Option Instant} {n : ℕ}

/-- The calls without the reports of an aircraft that are not strictly newer than all its reports before
    them, `last` being the newest so far. -/
def strictMaxima (icao24 : String) : Option Instant → List Call → List Call
  | _, [] => []
  | last, .sweep now :: calls => .sweep now :: strictMaxima icao24 last calls
  | last, .report r :: calls =>
    if r.icao24 ≠ icao24 then .report r :: strictMaxima icao24 last calls
    else if ∀ t ∈ last, t < r.observedAt then .report r :: strictMaxima icao24 (some r.observedAt) calls
    else strictMaxima icao24 last calls

def Call.reportOf (icao24 : String) : Call → Option SurveillanceReport
  | .report r => if r.icao24 = icao24 then some r else none
  | .sweep _ => none

/-- The reports of an aircraft among some calls. -/
def aircraftReports (icao24 : String) (calls : List Call) : List SurveillanceReport :=
  calls.filterMap (Call.reportOf icao24)

/-- No sweep leaves the track of an aircraft terminated. -/
def KeepsAlive (e : TrackEstimator) (icao24 : String) (calls : List Call) : Prop :=
  ∀ before now later, calls = before ++ .sweep now :: later →
    ∀ record ∈ ((e.after before).sweep now).1.tracks.get? icao24, record.terminated = false

/-- What is held of an aircraft after `n` reports were folded in, the newest of them observed at `last`. -/
def HeldAfter (e : TrackEstimator) (icao24 : String) (last : Option Instant) (n : ℕ) : Prop :=
  match e.tracks.get? icao24 with
  | none => last = none ∧ n = 0
  | some record => last = some record.lastReportAt ∧ record.updateCount = n ∧ record.terminated = false

/-! ### Calls -/

theorem heldAfter_none (h : e.tracks.get? icao24 = none) : HeldAfter e icao24 none 0 := by
  simp [HeldAfter, h]

theorem heldAfter_some {record : TrackRecord} (h : e.tracks.get? icao24 = some record)
    (hlive : record.terminated = false) :
    HeldAfter e icao24 (some record.lastReportAt) record.updateCount := by
  simp [HeldAfter, h, hlive]

/-- A strictly newer report is folded in. -/
theorem HeldAfter.newer (h : HeldAfter e icao24 last n) {r : SurveillanceReport} (hr : r.icao24 = icao24)
    (hnew : ∀ t ∈ last, t < r.observedAt) : HeldAfter (e.onReport r).1 icao24 (some r.observedAt) (n + 1) := by
  subst hr
  cases hget : e.tracks.get? r.icao24 with
  | none =>
    simp only [HeldAfter, hget] at h
    have hheld : (e.onReport r).1.tracks.get? r.icao24 = some (e.initiate r) := by
      rw [onReport_of_none hget, get?_answer (le_refl r.observedAt)]
    have hcount := heldAfter_some hheld rfl
    rwa [h.2]
  | some record =>
    simp only [HeldAfter, hget] at h
    obtain ⟨rfl, rfl, hlive⟩ := h
    obtain ⟨hlast, hterm, -⟩ := update_of_lt (e := e) (hnew _ rfl)
    have hheld : (e.onReport r).1.tracks.get? r.icao24 = some (e.update record r) := by
      rw [onReport_of_live hget hlive, get?_answer (le_lastReportAt_update record r)]
    have hcount := heldAfter_some hheld (hterm.trans hlive)
    rwa [hlast, (update_count (hnew _ rfl)).1] at hcount

/-- Any other report of the aircraft changes nothing. -/
theorem HeldAfter.late (h : HeldAfter e icao24 last n) {r : SurveillanceReport} (hr : r.icao24 = icao24)
    (hlate : ∃ t ∈ last, r.observedAt ≤ t) : (e.onReport r).1 = e := by
  subst hr
  obtain ⟨t, ht, hle⟩ := hlate
  cases hget : e.tracks.get? r.icao24 with
  | none =>
    simp only [HeldAfter, hget] at h
    rw [h.1] at ht
    cases ht
  | some record =>
    simp only [HeldAfter, hget] at h
    obtain ⟨rfl, -, hlive⟩ := h
    obtain rfl : record.lastReportAt = t := Option.some.inj ht
    exact (onReport_late hget hlive hle).1

/-- A report of another aircraft leaves the record. -/
theorem HeldAfter.other (h : HeldAfter e icao24 last n) {r : SurveillanceReport} (hr : r.icao24 ≠ icao24) :
    HeldAfter (e.onReport r).1 icao24 last n := by
  have hget : (e.onReport r).1.tracks.get? icao24 = e.tracks.get? icao24 := by
    rw [onReport, Dict.get?_set, if_neg hr.symm]
  rwa [HeldAfter, hget]

/-- A sweep that leaves the track alive changes nothing that is counted. -/
theorem HeldAfter.sweep (h : HeldAfter e icao24 last n) {now : Instant}
    (hlive : ∀ record ∈ (e.sweep now).1.tracks.get? icao24, record.terminated = false) :
    HeldAfter (e.sweep now).1 icao24 last n := by
  have hget : (e.sweep now).1.tracks.get? icao24 =
      (e.tracks.get? icao24).map fun record => (e.sweepRecord now record).1 := Dict.get?_mapValues _ _ _
  cases hrecord : e.tracks.get? icao24 with
  | none =>
    rw [HeldAfter, hrecord] at h
    rw [HeldAfter, hget, hrecord]
    exact h
  | some record =>
    rw [hrecord] at hget
    rw [HeldAfter, hrecord] at h
    obtain ⟨hlast, hcount⟩ := sweepRecord_frame (e := e) now record
    rw [HeldAfter, hget]
    exact ⟨h.1.trans (congrArg some hlast.symm), hcount.trans h.2.1, hlive _ hget⟩

/-! ### Runs -/

theorem KeepsAlive.tail {c : Call} (h : KeepsAlive e icao24 (c :: calls)) :
    KeepsAlive (e.after [c]) icao24 calls := by
  intro before now later hcalls
  have := h (c :: before) now later (by rw [hcalls]; rfl)
  cases c <;> exact this

/-- The newest of `last` and the reports of an aircraft. -/
def newestAt (icao24 : String) (last : Option Instant) (calls : List Call) : Option Instant :=
  (aircraftReports icao24 calls).foldl
    (fun last r => if ∀ t ∈ last, t < r.observedAt then some r.observedAt else last) last

section Report

variable {r : SurveillanceReport} (hr : r.icao24 = icao24)

include hr

theorem aircraftReports_report :
    aircraftReports icao24 (.report r :: calls) = r :: aircraftReports icao24 calls := by
  have hcall : Call.reportOf icao24 (.report r) = some r := if_pos hr
  rw [aircraftReports, List.filterMap_cons_some hcall, aircraftReports]

theorem strictMaxima_newer (hnew : ∀ t ∈ last, t < r.observedAt) :
    strictMaxima icao24 last (.report r :: calls) =
      .report r :: strictMaxima icao24 (some r.observedAt) calls := by
  rw [strictMaxima, if_neg (not_not.mpr hr), if_pos hnew]

theorem strictMaxima_late (hlate : ¬ ∀ t ∈ last, t < r.observedAt) :
    strictMaxima icao24 last (.report r :: calls) = strictMaxima icao24 last calls := by
  rw [strictMaxima, if_neg (not_not.mpr hr), if_neg hlate]

theorem newestAt_newer (hnew : ∀ t ∈ last, t < r.observedAt) :
    newestAt icao24 last (.report r :: calls) = newestAt icao24 (some r.observedAt) calls := by
  rw [newestAt, aircraftReports_report hr, List.foldl_cons, if_pos hnew, newestAt]

theorem newestAt_late (hlate : ¬ ∀ t ∈ last, t < r.observedAt) :
    newestAt icao24 last (.report r :: calls) = newestAt icao24 last calls := by
  rw [newestAt, aircraftReports_report hr, List.foldl_cons, if_neg hlate, newestAt]

end Report

theorem aircraftReports_other {r : SurveillanceReport} (hr : r.icao24 ≠ icao24) :
    aircraftReports icao24 (.report r :: calls) = aircraftReports icao24 calls := by
  have hcall : Call.reportOf icao24 (.report r) = none := if_neg hr
  rw [aircraftReports, List.filterMap_cons_none hcall, aircraftReports]

theorem strictMaxima_other {r : SurveillanceReport} (hr : r.icao24 ≠ icao24) :
    strictMaxima icao24 last (.report r :: calls) = .report r :: strictMaxima icao24 last calls := if_pos hr

/-- A run folds in the strict running maxima, and would have come to the same estimator from them alone. -/
theorem HeldAfter.run (h : HeldAfter e icao24 last n) (hlive : KeepsAlive e icao24 calls) :
    HeldAfter (e.after calls) icao24 (newestAt icao24 last calls)
      (n + (aircraftReports icao24 (strictMaxima icao24 last calls)).length) ∧
    e.after (strictMaxima icao24 last calls) = e.after calls := by
  induction calls generalizing e last n with
  | nil => exact ⟨h, rfl⟩
  | cons c calls ih =>
    cases c with
    | sweep now => exact ih (h.sweep (hlive [] now calls rfl)) hlive.tail
    | report r =>
      by_cases hr : r.icao24 = icao24
      · by_cases hnew : ∀ t ∈ last, t < r.observedAt
        · have hstep := ih (h.newer hr hnew) hlive.tail
          rw [newestAt_newer hr hnew, strictMaxima_newer hr hnew, aircraftReports_report hr, List.length_cons]
          rwa [Nat.add_right_comm] at hstep
        · have hsame : (e.onReport r).1 = e := h.late hr (by push Not at hnew; exact hnew)
          have hafter : e.after (.report r :: calls) = e.after calls := by rw [TrackEstimator.after, hsame]
          have hlive' := hlive.tail
          rw [TrackEstimator.after, hsame] at hlive'
          rw [newestAt_late hr hnew, strictMaxima_late hr hnew, hafter]
          exact ih h hlive'
      · have hstep := ih (h.other hr) hlive.tail
        rw [newestAt, strictMaxima_other hr, aircraftReports_other hr, aircraftReports_other hr]
        exact hstep

/-- No report of the aircraft is newer than the newest. -/
theorem le_newestAt (last : Option Instant) (calls : List Call) :
    (∀ t ∈ last, ∃ t' ∈ newestAt icao24 last calls, t ≤ t') ∧
      ∀ r ∈ aircraftReports icao24 calls, ∃ t' ∈ newestAt icao24 last calls, r.observedAt ≤ t' := by
  unfold newestAt
  induction aircraftReports icao24 calls generalizing last with
  | nil => exact ⟨fun t ht => ⟨t, ht, le_rfl⟩, by simp⟩
  | cons r reports ih =>
    simp only [List.foldl_cons, List.forall_mem_cons]
    split_ifs with hnew
    · obtain ⟨hlast, hreports⟩ := ih (some r.observedAt)
      refine ⟨fun t ht => ?_, hlast _ rfl, hreports⟩
      obtain ⟨t', ht', hle⟩ := hlast _ rfl
      exact ⟨t', ht', (hnew t ht).le.trans hle⟩
    · obtain ⟨hlast, hreports⟩ := ih last
      push Not at hnew
      obtain ⟨t, ht, hle⟩ := hnew
      obtain ⟨t', ht', hle'⟩ := hlast t ht
      exact ⟨hlast, ⟨t', ht', hle.trans hle'⟩, hreports⟩

theorem mem_aircraftReports {r : SurveillanceReport} :
    r ∈ aircraftReports icao24 calls ↔ .report r ∈ calls ∧ r.icao24 = icao24 := by
  simp only [aircraftReports, List.mem_filterMap]
  constructor
  · rintro ⟨c, hc, hr⟩
    cases c with
    | sweep now => cases hr
    | report r' =>
      simp only [Call.reportOf, Option.ite_none_right_eq_some, Option.some.injEq] at hr
      obtain ⟨hicao, rfl⟩ := hr
      exact ⟨hc, hicao⟩
  · rintro ⟨hc, hr⟩
    exact ⟨_, hc, if_pos hr⟩

theorem after_append (e : TrackEstimator) (before calls : List Call) :
    e.after (before ++ calls) = (e.after before).after calls := by
  induction before generalizing e with
  | nil => rfl
  | cons c before ih => cases c <;> exact ih _

/-- Of an aircraft that is not tracked yet and whose track no sweep terminates: a report that is not newer
    than all before it leaves the estimator as it is, the strict running maxima come to the same estimator,
    and the record counts them. -/
theorem only_newer_reports_count (hnone : e.tracks.get? icao24 = none) (hlive : KeepsAlive e icao24 calls) :
    (∀ before r later, calls = before ++ .report r :: later → r.icao24 = icao24 →
      (∃ r', .report r' ∈ before ∧ r'.icao24 = icao24 ∧ r.observedAt ≤ r'.observedAt) →
      e.after (before ++ [.report r]) = e.after before) ∧
    e.after (strictMaxima icao24 none calls) = e.after calls ∧
    ∀ r, .report r ∈ calls → r.icao24 = icao24 → ∃ record,
      (e.after calls).tracks.get? icao24 = some record ∧
        record.updateCount = (aircraftReports icao24 (strictMaxima icao24 none calls)).length := by
  have hheld := heldAfter_none hnone
  refine ⟨?_, (hheld.run hlive).2, ?_⟩
  · intro before r later hcalls hr ⟨r', hmem, hr', hle⟩
    have hbefore : KeepsAlive e icao24 before := fun before' now later' h =>
      hlive before' now (later' ++ .report r :: later) (by rw [hcalls, h]; simp)
    obtain ⟨t, ht, hle'⟩ := (le_newestAt none before).2 r' (mem_aircraftReports.mpr ⟨hmem, hr'⟩)
    rw [after_append]
    exact (hheld.run hbefore).1.late hr ⟨t, ht, hle.trans hle'⟩
  · intro r hmem hr
    obtain ⟨t, ht, -⟩ := (le_newestAt none calls).2 r (mem_aircraftReports.mpr ⟨hmem, hr⟩)
    have hrun := (hheld.run hlive).1
    rw [zero_add, HeldAfter] at hrun
    cases hget : (e.after calls).tracks.get? icao24 with
    | none =>
      rw [hget] at hrun
      rw [hrun.1] at ht
      cases ht
    | some record =>
      rw [hget] at hrun
      exact ⟨record, rfl, hrun.2.1⟩

/-- The first report of a climb, a sweep that makes the track coast, and the first report again. -/
def climbRepeated : List Call := [.report climbStart, .sweep (seconds 10), .report climbStart]

theorem keepsAlive_climb : KeepsAlive {} "abc123" climbRepeated := by
  intro before now later hcalls record hrecord
  have hsplit : before = [.report climbStart] ∧ now = seconds 10 := by
    unfold climbRepeated at hcalls
    rcases before with _ | ⟨a, _ | ⟨b, _ | ⟨c, before⟩⟩⟩ <;> simp at hcalls
    exact ⟨by rw [hcalls.1], hcalls.2.1.symm⟩
  obtain ⟨rfl, rfl⟩ := hsplit
  obtain ⟨u, hsweep, -⟩ := sweepRecord_climb (s := 10) (by norm_num) (by norm_num)
  have htracks : (({} : TrackEstimator).after [.report climbStart]).sweep (seconds 10) = _ :=
    sweep_climbStart (seconds 10)
  rw [htracks, hsweep] at hrecord
  change (Dict.empty.set "abc123" _).get? "abc123" = some record at hrecord
  rw [Dict.get?_set, if_pos rfl] at hrecord
  obtain rfl := Option.some.inj hrecord
  exact (coast_frame _ _).2.1

theorem only_newer_reports_count_repeated :
    ({} : TrackEstimator).after climbRepeated =
      ({} : TrackEstimator).after [.report climbStart, .sweep (seconds 10)] :=
  (only_newer_reports_count rfl keepsAlive_climb).1 [.report climbStart, .sweep (seconds 10)]
    climbStart [] rfl rfl ⟨climbStart, by simp, rfl, le_rfl⟩

end TrackEstimator

end

end Airspace
