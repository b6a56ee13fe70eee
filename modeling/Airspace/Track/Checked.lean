import Airspace.Lib.Prefixes
import Airspace.Track.Contract

/-! The estimator as it raises.

    An update is validated where it is built, and of a track in frame only its latitude can be refused. A
    report that is refused has been folded in, and is not answered. A sweep ends at the first record whose
    update is refused: the records up to it are aged and nothing is announced, those after it are as they
    were. Whether a call is answered can be told from the north positions of the tracks before it. -/

namespace Airspace

noncomputable section

namespace TrackEstimator

variable (e : TrackEstimator)

open Classical in
/-- `on_report`: no update if building it raises. -/
def onReportChecked (report : SurveillanceReport) : TrackEstimator × Option TrackUpdate :=
  let out := e.onReport report
  (out.1, if out.2.Admitted then some out.2 else none)

open Classical in
/-- The loop of `sweep`: the records after it, what there was to announce of those it reached, and whether it
    came to its end. Building an update that is refused raises, and the records after that are not reached. -/
def sweepItems (now : Instant) :
    List (String × TrackRecord) → List (String × TrackRecord) × List TrackUpdate × Bool
  | [] => ([], [], true)
  | (icao24, record) :: items =>
    let out := e.sweepRecord now record
    if ∀ u ∈ out.2, u.Admitted then
      let rest := sweepItems now items
      ((icao24, out.1) :: rest.1, out.2.toList ++ rest.2.1, rest.2.2)
    else ((icao24, out.1) :: items, out.2.toList, false)

theorem map_fst_sweepItems (now : Instant) (items : List (String × TrackRecord)) :
    (e.sweepItems now items).1.map Prod.fst = items.map Prod.fst := by
  induction items with
  | nil => rfl
  | cons entry items ih =>
    rw [sweepItems]
    split_ifs
    · rw [List.map_cons, List.map_cons, ih]
    · rfl

/-- `sweep`: no updates if building one raises. -/
def sweepChecked (now : Instant) : TrackEstimator × Option (List TrackUpdate) :=
  let out := e.sweepItems now e.tracks.items
  ({ e with tracks := ⟨out.1, (e.map_fst_sweepItems now e.tracks.items).symm ▸ e.tracks.nodup⟩ },
    if out.2.2 then some out.2.1 else none)

/-- What there was to announce of the records the sweep reached. -/
def sweepReached (now : Instant) : List TrackUpdate := (e.sweepItems now e.tracks.items).2.1

variable {e} {now : Instant} {r : SurveillanceReport} {record : TrackRecord} {icao24 : String}

theorem onReportChecked_of_admitted (h : (e.onReport r).2.Admitted) :
    e.onReportChecked r = ((e.onReport r).1, some (e.onReport r).2) := by
  rw [onReportChecked, if_pos h]

theorem onReportChecked_of_refused (h : ¬ (e.onReport r).2.Admitted) :
    e.onReportChecked r = ((e.onReport r).1, none) := by
  rw [onReportChecked, if_neg h]

/-- Sweeping this record builds no update that is refused. -/
def Answers (e : TrackEstimator) (now : Instant) (record : TrackRecord) : Prop :=
  ∀ u ∈ (e.sweepRecord now record).2, u.Admitted

/-- The loop over records that are all answered for. -/
theorem sweepItems_of_answers {items : List (String × TrackRecord)}
    (h : ∀ entry ∈ items, Answers e now entry.2) : e.sweepItems now items =
      (items.map fun entry => (entry.1, (e.sweepRecord now entry.2).1),
        items.filterMap fun entry => (e.sweepRecord now entry.2).2, true) := by
  induction items with
  | nil => rfl
  | cons entry items ih =>
    have hone : ∀ u ∈ (e.sweepRecord now entry.2).2, u.Admitted := h entry (List.mem_cons_self ..)
    rw [sweepItems, if_pos hone, ih fun other hother => h other (List.mem_cons_of_mem _ hother),
      List.filterMap_cons]
    cases (e.sweepRecord now entry.2).2 <;> rfl

/-- The loop up to the first record that is not. -/
theorem sweepItems_of_refused {before later : List (String × TrackRecord)} {entry : String × TrackRecord}
    (hbefore : ∀ entry ∈ before, Answers e now entry.2) (hrefused : ¬ Answers e now entry.2) :
    e.sweepItems now (before ++ entry :: later) =
      ((before ++ [entry]).map (fun entry => (entry.1, (e.sweepRecord now entry.2).1)) ++ later,
        (before ++ [entry]).filterMap fun entry => (e.sweepRecord now entry.2).2, false) := by
  induction before with
  | nil =>
    have hone : ¬ ∀ u ∈ (e.sweepRecord now entry.2).2, u.Admitted := hrefused
    rw [List.nil_append, sweepItems, if_neg hone, List.nil_append, List.filterMap_cons]
    cases (e.sweepRecord now entry.2).2 <;> rfl
  | cons first before ih =>
    have hone : ∀ u ∈ (e.sweepRecord now first.2).2, u.Admitted := hbefore first (List.mem_cons_self ..)
    rw [List.cons_append, sweepItems, if_pos hone,
      ih fun other hother => hbefore other (List.mem_cons_of_mem _ hother), List.cons_append,
      List.filterMap_cons]
    cases (e.sweepRecord now first.2).2 <;> rfl

/-- If no update is refused the sweep is answered. -/
theorem sweepChecked_of_answers (h : ∀ record ∈ e.tracks.values, Answers e now record) :
    e.sweepChecked now = ((e.sweep now).1, some (e.sweep now).2) := by
  have hitems : e.sweepItems now e.tracks.items = _ := sweepItems_of_answers fun entry hentry =>
    h entry.2 (List.mem_map_of_mem hentry)
  have hchanged : e.tracks.items.filterMap (fun entry => (e.sweepRecord now entry.2).2) = (e.sweep now).2 := by
    rw [sweep, Dict.values, List.filterMap_map]
    rfl
  rw [hchanged] at hitems
  simp only [sweepChecked, hitems]
  rfl

/-- Otherwise the sweep gets as far as the first record whose update is refused. -/
structure Stopped (e : TrackEstimator) (now : Instant) (before later : List (String × TrackRecord))
    (entry : String × TrackRecord) : Prop where
  items : e.tracks.items = before ++ entry :: later
  before : ∀ entry ∈ before, Answers e now entry.2
  refused : ¬ Answers e now entry.2

theorem sweepChecked_of_stopped {before later : List (String × TrackRecord)} {entry : String × TrackRecord}
    (h : Stopped e now before later entry) : (e.sweepChecked now).2 = none ∧
      (e.sweepChecked now).1.tracks.items =
        (before ++ [entry]).map (fun entry => (entry.1, (e.sweepRecord now entry.2).1)) ++ later ∧
      e.sweepReached now = (before ++ [entry]).filterMap fun entry => (e.sweepRecord now entry.2).2 := by
  have hitems : e.sweepItems now e.tracks.items = _ := h.items ▸ sweepItems_of_refused h.before h.refused
  refine ⟨?_, congrArg Prod.fst hitems, congrArg (fun out => out.2.1) hitems⟩
  simp only [sweepChecked, hitems]
  rfl

theorem sweepChecked_cases (e : TrackEstimator) (now : Instant) :
    (∀ record ∈ e.tracks.values, Answers e now record) ∨
      ∃ before later entry, Stopped e now before later entry := by
  by_cases h : ∀ record ∈ e.tracks.values, Answers e now record
  · exact .inl h
  · push Not at h
    obtain ⟨record, hmem, hrefused⟩ := h
    obtain ⟨entry, hentry, rfl⟩ := List.mem_map.mp hmem
    obtain ⟨before, entry, later, hitems, hbefore, hfirst⟩ :=
      exists_first (p := fun entry => ¬ Answers e now entry.2) ⟨entry, hentry, hrefused⟩
    exact .inr ⟨before, later, entry, hitems, fun other hother => not_not.mp (hbefore other hother), hfirst⟩

/-! ### Where a call puts a track -/

/-- The north position of the track run forward to an instant. -/
def northAt (record : TrackRecord) (t : Instant) : ℝ :=
  record.filter.x rowNorth + knotsToNmPerSecond 1 * (max 0 (totalSeconds (t - record.lastReportAt)) : ℚ) *
    record.filter.x rowVNorth

/-- The north position a report of a live track is answered with; one that is not newer is dropped. -/
def northWith (record : TrackRecord) (r : SurveillanceReport) : ℝ :=
  if record.lastReportAt < r.observedAt then
    record.filter.correctNorth (totalSeconds (r.observedAt - record.lastReportAt)) r.lat r.lon r.groundSpeedKt
      r.trackDeg
  else record.filter.x rowNorth

/-- A track that falls silent is still between the poles when it is run forward. -/
def RunsOn (e : TrackEstimator) (now : Instant) (record : TrackRecord) : Prop :=
  FallsSilent e now record → record.filter.BetweenPoles (northAt record now)

/-- The tracks a call builds updates of stay between the poles. -/
def KeepsOffPoles (e : TrackEstimator) : Call → Prop
  | .report r => ∀ record, e.tracks.get? r.icao24 = some record → record.terminated = false →
    record.filter.BetweenPoles (northWith record r)
  | .sweep now => ∀ record ∈ e.tracks.values, RunsOn e now record

/-- A record in frame, its latitude the one its filter has. -/
structure Placed (icao24 : String) (record : TrackRecord) : Prop where
  framed : Framed icao24 record
  lat : record.lat = record.filter.latitudeAt (record.filter.x rowNorth)

/-- What holds of every estimator that has been given admitted reports, whatever has been refused. -/
structure Steady (e : TrackEstimator) : Prop where
  tuning : e.tuning.Positive
  placed : ∀ icao24 record, e.tracks.get? icao24 = some record → Placed icao24 record

theorem placed_initiate (hr : r.Admitted) (ht : e.tuning.Positive) : Placed r.icao24 (e.initiate r) :=
  ⟨framed_initiate hr ht, estimate_lat _⟩

theorem placed_update (h : Placed icao24 record) (hr : r.Admitted) : Placed icao24 (e.update record r) := by
  rcases le_or_gt r.observedAt record.lastReportAt with hle | hlt
  · rwa [update_of_le hle]
  · have hspan : ¬ totalSeconds (r.observedAt - record.lastReportAt) ≤ 0 :=
      not_le.mpr (totalSeconds_pos.mpr (sub_pos.mpr hlt))
    refine ⟨framed_update h.framed hr, ?_⟩
    rw [update, if_neg hspan]
    exact estimate_lat _

theorem placed_coast (h : Placed icao24 record) (t : Instant) : Placed icao24 (coast record t) := by
  refine ⟨framed_coast h.framed t, ?_⟩
  simp only [coast]
  split_ifs
  · exact estimate_lat _
  · exact h.lat

theorem placed_aged (h : Placed icao24 record) (state : TrackState) (terminated : Bool) :
    Placed icao24 { record with state := state, terminated := terminated } :=
  ⟨framed_aged h.framed state terminated, h.lat⟩

theorem lat_update (h : Placed icao24 record) :
    (e.update record r).lat = record.filter.latitudeAt (northWith record r) := by
  unfold northWith
  split_ifs with hlt
  · rw [← lat_corrected h.framed hlt, update,
      if_neg (not_le.mpr (totalSeconds_pos.mpr (sub_pos.mpr hlt)))]
    rfl
  · rw [update_of_le (not_lt.mp hlt)]
    exact h.lat

theorem lat_coast (h : Placed icao24 record) (t : Instant) :
    (coast record t).lat = record.filter.latitudeAt (northAt record t) := by
  rcases le_or_gt t record.lastReportAt with hle | hlt
  · have hspan : totalSeconds (t - record.lastReportAt) ≤ 0 :=
      not_lt.mp (mt totalSeconds_pos.mp (not_lt.mpr (sub_nonpos.mpr hle)))
    rw [coast_at_report hle, northAt, max_eq_left hspan, Rat.cast_zero, mul_zero, zero_mul, add_zero]
    exact h.lat
  · rw [lat_coast_of_lt h.framed hlt, northAt, max_eq_right (totalSeconds_pos.mpr (sub_pos.mpr hlt)).le]

/-- An update of a placed record is admitted exactly when the record is run forward between the poles. -/
theorem admitted_toUpdate_iff (h : Placed icao24 record) (t : Instant) :
    (toUpdate record t).2.Admitted ↔ record.filter.BetweenPoles (northAt record t) := by
  rw [admitted_iff (framed_coast h.framed t), lat_coast h t]
  rfl

/-! ### A report -/

/-- A report is answered exactly when it keeps off the poles, and leaves the records placed all the same. -/
theorem report_checked (h : Steady e) (hr : r.Admitted) :
    ((e.onReport r).2.Admitted ↔ KeepsOffPoles e (.report r)) ∧ Steady (e.onReport r).1 := by
  have hsteady : ∀ record, Placed r.icao24 record → r.observedAt ≤ record.lastReportAt →
      e.onReport r = e.answer r record → Steady (e.onReport r).1 := by
    intro record hplaced hnew hanswer
    rw [hanswer]
    refine ⟨h.tuning, fun key v hget => ?_⟩
    rw [tracks_answer hnew, Dict.get?_set] at hget
    split_ifs at hget with hkey
    · obtain rfl := Option.some.inj hget
      exact hkey ▸ hplaced
    · exact h.placed key v hget
  by_cases hstart : ∀ record, e.tracks.get? r.icao24 = some record → record.terminated = true
  · have hanswer : e.onReport r = e.answer r (e.initiate r) := by
      cases hget : e.tracks.get? r.icao24 with
      | none => exact onReport_of_none hget
      | some record => exact onReport_of_terminated hget (hstart record hget)
    have hplaced := placed_initiate (e := e) hr h.tuning
    refine ⟨iff_of_true ?_ fun record hget hlive => ?_, hsteady _ hplaced (le_refl _) hanswer⟩
    · rw [hanswer]
      refine (admitted_iff (framed_coast hplaced.framed r.observedAt)).mpr ?_
      have hnew : r.observedAt ≤ (e.initiate r).lastReportAt := le_refl _
      have hlat : (e.initiate r).lat = r.lat := (estimate_lat (e.initiate r).filter).trans
        (lat_toLocalEnu (referenceFor r.lat r.lon).1 (referenceFor r.lat r.lon).2 r.lat r.lon)
      rw [coast_at_report hnew, hlat]
      exact hr.lat
    · rw [hstart record hget] at hlive
      cases hlive
  · push Not at hstart
    obtain ⟨record, hget, hlive⟩ := hstart
    have hlive := Bool.eq_false_iff.mpr hlive
    have hplaced := h.placed _ _ hget
    have hnew := le_lastReportAt_update (e := e) record r
    have hanswer := onReport_of_live hget hlive
    refine ⟨?_, hsteady _ (placed_update hplaced hr) hnew hanswer⟩
    have hkeeps : KeepsOffPoles e (.report r) ↔ record.filter.BetweenPoles (northWith record r) := by
      constructor
      · exact fun hall => hall record hget hlive
      · intro hpoles other hother _
        obtain rfl := Option.some.inj (hget.symm.trans hother)
        exact hpoles
    rw [hkeeps, hanswer]
    refine (admitted_iff (framed_coast (placed_update hplaced hr).framed r.observedAt)).trans ?_
    rw [coast_at_report hnew, lat_update hplaced]
    rfl

/-! ### A sweep -/

/-- A record is answered for exactly when it is run forward between the poles. -/
theorem answers_iff (h : Placed icao24 record) (now : Instant) :
    (Answers e now record ↔ RunsOn e now record) ∧ Placed icao24 (e.sweepRecord now record).1 := by
  obtain ⟨state, terminated, ⟨hsilent, hsweep⟩ | ⟨hnot, hsweep⟩⟩ := sweepRecord_cases e now record
  · have hplaced := placed_aged h state terminated
    refine ⟨?_, by rw [hsweep]; exact placed_coast hplaced now⟩
    have hruns : RunsOn e now record ↔ record.filter.BetweenPoles (northAt record now) :=
      ⟨fun hall => hall hsilent, fun hpoles _ => hpoles⟩
    rw [hruns, Answers, hsweep]
    refine Iff.trans ?_ (admitted_toUpdate_iff hplaced now)
    simp
  · rw [Answers, hsweep]
    exact ⟨iff_of_true (fun u hu => by cases hu) fun hsilent => absurd hsilent hnot,
      placed_aged h state terminated⟩

theorem placed_of_mem (h : Steady e) (hmem : record ∈ e.tracks.values) : ∃ icao24, Placed icao24 record := by
  obtain ⟨key, hget⟩ := Dict.mem_values_iff.mp hmem
  exact ⟨key, h.placed key record hget⟩

theorem answers_iff_of_mem (h : Steady e) (hmem : record ∈ e.tracks.values) :
    Answers e now record ↔ RunsOn e now record := by
  obtain ⟨key, hplaced⟩ := placed_of_mem h hmem
  exact (answers_iff hplaced now).1

/-- A sweep is answered exactly when it keeps off the poles. -/
theorem answers_all_iff (h : Steady e) :
    (∀ record ∈ e.tracks.values, Answers e now record) ↔ KeepsOffPoles e (.sweep now) :=
  forall₂_congr fun _ hmem => answers_iff_of_mem h hmem

/-- Of every aircraft a sweep, ended early or not, leaves the record or ages it. -/
theorem get?_sweepChecked {v : TrackRecord} (hget : (e.sweepChecked now).1.tracks.get? icao24 = some v) :
    ∃ record, e.tracks.get? icao24 = some record ∧ (v = record ∨ v = (e.sweepRecord now record).1) := by
  rcases sweepChecked_cases e now with hall | ⟨before, later, entry, hstopped⟩
  · rw [sweepChecked_of_answers hall, sweep, Dict.get?_mapValues, Option.map_eq_some_iff] at hget
    obtain ⟨record, hrecord, rfl⟩ := hget
    exact ⟨record, hrecord, .inr rfl⟩
  · rw [Dict.get?_eq_some_iff, (sweepChecked_of_stopped hstopped).2.1] at hget
    simp only [Dict.get?_eq_some_iff, hstopped.items]
    rcases List.mem_append.mp hget with hreached | hlater
    · obtain ⟨⟨key, record⟩, hmem, heq⟩ := List.mem_map.mp hreached
      cases heq
      refine ⟨record, ?_, .inr rfl⟩
      rcases List.mem_append.mp hmem with hmem | hmem
      · exact List.mem_append_left _ hmem
      · exact List.mem_append_right _ (List.mem_singleton.mp hmem ▸ List.mem_cons_self ..)
    · exact ⟨v, List.mem_append_right _ (List.mem_cons_of_mem _ hlater), .inl rfl⟩

theorem steady_sweepChecked (h : Steady e) (now : Instant) : Steady (e.sweepChecked now).1 := by
  refine ⟨h.tuning, fun key v hget => ?_⟩
  obtain ⟨record, hrecord, rfl | rfl⟩ := get?_sweepChecked hget
  · exact h.placed key v hrecord
  · exact (answers_iff (h.placed key record hrecord) now).2

theorem steady_sweep (h : Steady e) (now : Instant) : Steady (e.sweep now).1 := by
  refine ⟨h.tuning, fun key v hget => ?_⟩
  rw [sweep, Dict.get?_mapValues, Option.map_eq_some_iff] at hget
  obtain ⟨record, hrecord, rfl⟩ := hget
  exact (answers_iff (h.placed key record hrecord) now).2

theorem steady_empty (he : e.tracks = Dict.empty) (ht : e.tuning.Positive) : Steady e := by
  refine ⟨ht, fun key record hget => ?_⟩
  rw [he] at hget
  cases hget

/-! ### What a stopped sweep has ended -/

/-- A sweep ends the track. -/
def EndsNow (e : TrackEstimator) (now : Instant) (record : TrackRecord) : Prop :=
  record.terminated = false ∧ totalSeconds (now - record.lastReportAt) ≥ e.terminateAfterS

/-- No track ends up to the first one that is run forward past a pole, nor that one. -/
def LosesNoEnd (e : TrackEstimator) (now : Instant) : Prop :=
  ∀ before record later, e.tracks.values = before ++ record :: later → (∀ other ∈ before, RunsOn e now other) →
    ¬ RunsOn e now record → ∀ other ∈ before ++ [record], ¬ EndsNow e now other

theorem losesNoEnd_of_keepsOffPoles (h : KeepsOffPoles e (.sweep now)) : LosesNoEnd e now := by
  intro before record later hvalues _ hpast
  exact absurd (h record (hvalues ▸ List.mem_append_right _ (List.mem_cons_self ..))) hpast

theorem endsNow_of_announced {u : TrackUpdate} (hout : (e.sweepRecord now record).2 = some u)
    (hstate : u.state = .terminated) : EndsNow e now record := by
  have hlive := (announced_sweepRecord hout).live
  refine ⟨hlive, ?_⟩
  by_contra hsilence
  simp only [sweepRecord, hlive, hsilence, Bool.false_eq_true, if_false] at hout
  split_ifs at hout
  · cases hout
    replace hstate : (coast _ now).state = .terminated := hstate
    rw [(coast_frame _ now).1] at hstate
    cases hstate
  · exact absurd rfl ‹record.state ≠ record.state›

/-- A sweep that loses no end and is stopped has ended no track. -/
theorem reached_of_losesNoEnd (h : Steady e) (hkeeps : LosesNoEnd e now)
    {before later : List (String × TrackRecord)} {entry : String × TrackRecord}
    (hstopped : Stopped e now before later entry) : ∀ u ∈ e.sweepReached now, u.state ≠ .terminated := by
  intro u hu hstate
  rw [(sweepChecked_of_stopped hstopped).2.2] at hu
  obtain ⟨reached, hmem, hout⟩ := List.mem_filterMap.mp hu
  have hvalues : e.tracks.values = before.map Prod.snd ++ entry.2 :: later.map Prod.snd := by
    rw [Dict.values, hstopped.items, List.map_append, List.map_cons]
  have hruns : ∀ other ∈ e.tracks.values, Answers e now other ↔ RunsOn e now other :=
    fun _ hother => answers_iff_of_mem h hother
  refine hkeeps _ _ _ hvalues ?_ ?_ reached.2 ?_ (endsNow_of_announced hout hstate)
  · intro other hother
    obtain ⟨first, hfirst, rfl⟩ := List.mem_map.mp hother
    exact (hruns _ (hvalues ▸ List.mem_append_left _ hother)).mp (hstopped.before first hfirst)
  · refine mt (hruns _ ?_).mpr hstopped.refused
    rw [hvalues]
    exact List.mem_append_right _ (List.mem_cons_self ..)
  · rw [← List.map_singleton, ← List.map_append]
    exact List.mem_map_of_mem hmem

/-! ### The climbing aircraft -/

/-- It stands still on the equator, so every sweep keeps it off the poles. -/
theorem keepsOffPoles_climbStart (now : Instant) :
    KeepsOffPoles (({} : TrackEstimator).onReport climbStart).1 (.sweep now) := by
  intro record hmem _
  obtain ⟨key, hget⟩ := Dict.mem_values_iff.mp hmem
  rw [tracks_climbStart, Dict.get?_set] at hget
  split_ifs at hget
  · obtain rfl := Option.some.inj hget
    exact onEquator_climb.coasts _
  · cases hget

end TrackEstimator

end

end Airspace
