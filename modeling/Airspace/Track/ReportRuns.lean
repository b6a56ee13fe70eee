import Airspace.Storage.LiveTracks
import Airspace.Track.Faults
import Airspace.Track.Sweeps

/-! Runs that handle reports.

    No sink fails and nothing but reports comes in. What the service hands to the stores is then a cut of the
    estimator's answers into batches, each batch going to the history and to the live picture, and which cut
    it is depends on the settings and on the time between the reports: every cut comes about. -/

namespace Airspace

noncomputable section

namespace TrackEstimator

/-- The estimator after some reports. -/
def feed (e : TrackEstimator) (reports : List SurveillanceReport) : TrackEstimator :=
  e.after (reports.map .report)

/-- The updates the reports are answered with. -/
def answers (e : TrackEstimator) (reports : List SurveillanceReport) : List TrackUpdate :=
  e.reportUpdates (reports.map .report)

variable {e : TrackEstimator} {reports later : List SurveillanceReport} {report : SurveillanceReport}

theorem feed_cons : e.feed (report :: reports) = (e.onReport report).1.feed reports := rfl

theorem answers_cons : e.answers (report :: reports) =
    (e.onReport report).2 :: (e.onReport report).1.answers reports := rfl

theorem feed_append : e.feed (reports ++ later) = (e.feed reports).feed later := by
  induction reports generalizing e with
  | nil => rfl
  | cons report reports ih => exact ih

theorem answers_append :
    e.answers (reports ++ later) = e.answers reports ++ (e.feed reports).answers later := by
  induction reports generalizing e with
  | nil => rfl
  | cons report reports ih => rw [List.cons_append, answers_cons, ih, answers_cons, feed_cons]; rfl

/-- Where the answers are split, the reports are. -/
theorem answers_eq_append {us vs : List TrackUpdate} (h : e.answers reports = us ++ vs) :
    ∃ before later, reports = before ++ later ∧ e.answers before = us ∧ (e.feed before).answers later = vs := by
  induction us generalizing e reports with
  | nil => exact ⟨[], reports, rfl, rfl, h⟩
  | cons u us ih =>
    cases reports with
    | nil => exact nomatch h
    | cons report reports =>
      rw [answers_cons, List.cons_append, List.cons.injEq] at h
      obtain ⟨before, later, rfl, hus, hvs⟩ := ih h.2
      exact ⟨report :: before, later, rfl, by rw [answers_cons, h.1, hus], hvs⟩

end TrackEstimator

/-! ### What a log says -/

/-- The reports taken on. -/
def reportsOf (log : List RunnerEvent) : List SurveillanceReport :=
  log.filterMap fun
    | .accepted report _ _ => some report
    | _ => none

/-- The batches handed to the history. -/
def recordedOf (log : List RunnerEvent) : List (List TrackUpdate) :=
  log.filterMap fun
    | .recorded batch => some batch
    | _ => none

/-- The batches handed to the live picture. -/
def liveOf (log : List RunnerEvent) : List (List TrackUpdate) :=
  log.filterMap fun
    | .liveWritten batch => some batch
    | _ => none

theorem reportsOf_append (log later : List RunnerEvent) :
    reportsOf (log ++ later) = reportsOf log ++ reportsOf later := List.filterMap_append

theorem recordedOf_append (log later : List RunnerEvent) :
    recordedOf (log ++ later) = recordedOf log ++ recordedOf later := List.filterMap_append

theorem liveOf_append (log later : List RunnerEvent) :
    liveOf (log ++ later) = liveOf log ++ liveOf later := List.filterMap_append

/-- The turns of a service to which nothing but reports comes. -/
def Turn.OfReports : Turn → Prop
  | .envelope .. | .resume => True
  | _ => False

open TrackService TrackHistoryStore LiveTrackStore TrackEstimator

/-- What the stores hold after a run that handles some reports and flushes at its end. -/
structure HandledReports (start : TrackRunner) (reports : List SurveillanceReport)
    (tables : TrackHistoryStore) (live : LiveTrackStore) : Prop where
  run : ∃ s log, machine.Run (fun _ turn => turn.2.OfReports) { runner := start } s log ∧ s.holder = none ∧
    reportsOf log = reports ∧
    tables = (recordedOf log ++ [s.runner.pending]).foldl TrackHistoryStore.record {} ∧
    live = (liveOf log ++ [s.runner.pending]).foldl publish {}

/-! ### The batches are a cut of the answers -/

/-- A batch is on its way to the live picture only after the history. -/
def LiveBehind (log : List RunnerEvent) : Option Await → Prop
  | none | some (.handlePublish _) | some (.livePublish .handle) => liveOf log = recordedOf log
  | some (.record batch [] .handle) => batch ≠ [] ∧ liveOf log ++ [batch] = recordedOf log
  | _ => False

/-- Whoever holds the lock behind the live picture is handling a report. -/
theorem LiveBehind.isHandle {log : List RunnerEvent} {await : Await} (h : LiveBehind log (some await)) :
    await.isHandle = true := by
  unfold LiveBehind at h
  split at h
  · next heq => exact nomatch heq
  · next heq => exact Option.some.inj heq ▸ rfl
  · next heq => exact Option.some.inj heq ▸ rfl
  · next heq => exact Option.some.inj heq ▸ rfl
  · exact h.elim

structure Fed (e : TrackEstimator) (s : TrackService) (log : List RunnerEvent) : Prop where
  waiting : s.waiting = []
  revoked : s.runner.revoked = ∅
  estimator : s.runner.estimator = e.feed (reportsOf log)
  sent : (recordedOf log).flatten ++ s.runner.pending ++ s.holder.elim [] Await.enters =
    e.answers (reportsOf log)
  live : LiveBehind log s.holder

variable {e : TrackEstimator} {s s' : TrackService} {log shown : List RunnerEvent} {time : ℚ}

theorem fed_envelope {report : SurveillanceReport} {partition : ℕ} (h : Fed e s log)
    (hstep : s.step time (.envelope report partition) = some (s', shown)) : Fed e s' (log ++ shown) := by
  have hlive := h.live
  have hfree : s.holder = none := by
    cases hholder : s.holder with
    | none => rfl
    | some await =>
      -- the stream hands out no report while one is being handled
      have hhandling : s.handling = true := by
        rw [hholder] at hlive
        rw [handling, hholder, Option.any_some, hlive.isHandle, Bool.or_true]
      rw [TrackService.step, if_pos hhandling] at hstep
      exact absurd hstep.symm (Option.some_ne_none _)
  have hsent := h.sent
  rw [hfree] at hlive hsent
  simp only [TrackService.step, handling, hfree, h.waiting, List.any_nil, Option.any_none, Bool.or_self,
    Bool.false_eq_true, if_false, acquire, envelope, ran, TrackRunner.enter, TrackRunner.handle, h.revoked,
    Finset.notMem_empty, Option.some_inj, Prod.mk.injEq] at hstep
  obtain ⟨rfl, rfl⟩ := hstep
  have hreports : reportsOf [RunnerEvent.accepted report partition
      (s.runner.estimator.initiates report.icao24), .published (s.runner.estimator.onReport report).2] =
      [report] := rfl
  refine ⟨rfl, rfl, ?_, ?_, ?_⟩
  · rw [reportsOf_append, hreports, feed_append, ← h.estimator]
    rfl
  · rw [reportsOf_append, hreports, answers_append, ← hsent, ← h.estimator, recordedOf_append]
    simp [recordedOf, Await.enters, answers, reportUpdates]
  · change liveOf (log ++ _) = recordedOf (log ++ _)
    rw [liveOf_append, recordedOf_append, show liveOf log = recordedOf log from hlive]
    rfl

/-- What the publication of an answer is followed by. -/
theorem resume_handlePublish (runner : TrackRunner) (time : ℚ) (u : TrackUpdate) :
    runner.resume time (.handlePublish u) =
      if runner.batchSize ≤ (runner.pending ++ [u]).length ∨
          runner.flushIntervalS ≤ time - runner.lastFlush then
        { runner := { runner with published := runner.published + 1, pending := [] }
          await := some (.record (runner.pending ++ [u]) [] .handle)
          shown := [.recorded (runner.pending ++ [u])] }
      else { runner := { runner with
        published := runner.published + 1, pending := runner.pending ++ [u] } } := by
  have hflush : ∀ (runner : TrackRunner) (us : List TrackUpdate),
      { runner with pending := us ++ [u] }.flush time [] .handle =
        { runner := { runner with pending := [] }, await := some (.record (us ++ [u]) [] .handle)
          shown := [.recorded (us ++ [u])] } := by
    intro runner us
    cases us with
    | nil => rfl
    | cons v us => rfl
  simp only [TrackRunner.resume]
  rw [hflush { runner with published := runner.published + 1 } runner.pending]

theorem resume_record (runner : TrackRunner) (time : ℚ) {batch : List TrackUpdate} (h : batch ≠ []) :
    runner.resume time (.record batch [] .handle) =
      { runner := runner, await := some (.livePublish .handle), shown := [.liveWritten batch] } := by
  have hall : (batch.filter fun u => u.trackId ∉ ([] : List String)) = batch := by simp
  simp only [TrackRunner.resume, hall]

theorem resume_livePublish (runner : TrackRunner) (time : ℚ) :
    runner.resume time (.livePublish .handle) = { runner := { runner with lastFlush := time } } := rfl

theorem fed_resume (h : Fed e s log) (hstep : s.step time .resume = some (s', shown)) :
    Fed e s' (log ++ shown) := by
  obtain ⟨await, hholder, hran⟩ := Option.map_eq_some_iff.mp hstep
  have hlive := h.live
  have hsent := h.sent
  rw [hholder] at hlive hsent
  unfold LiveBehind at hlive
  split at hlive
  · next heq => exact nomatch heq
  · next u heq =>
    obtain rfl := Option.some_inj.mp heq
    rw [resume_handlePublish] at hran
    simp only [Option.elim_some, Await.enters] at hsent
    split_ifs at hran
    · obtain ⟨rfl, rfl⟩ := Prod.mk.inj hran
      refine ⟨h.waiting, h.revoked, ?_, ?_, ?_⟩
      · simpa [reportsOf_append, reportsOf] using h.estimator
      · simpa [ran, reportsOf_append, recordedOf_append, reportsOf, recordedOf, Await.enters] using hsent
      · simpa [ran, LiveBehind, liveOf_append, recordedOf_append, liveOf, recordedOf] using hlive
    · obtain ⟨rfl, rfl⟩ := Prod.mk.inj hran
      rw [List.append_nil]
      exact ⟨h.waiting, h.revoked, h.estimator, by simpa [ran] using hsent, hlive⟩
  · next heq =>
    obtain rfl := Option.some_inj.mp heq
    rw [resume_livePublish] at hran
    obtain ⟨rfl, rfl⟩ := Prod.mk.inj hran
    rw [List.append_nil]
    exact ⟨h.waiting, h.revoked, h.estimator, by simpa [ran, Await.enters] using hsent, hlive⟩
  · next batch heq =>
    obtain rfl := Option.some_inj.mp heq
    obtain ⟨hne, hlive⟩ := hlive
    rw [resume_record _ _ hne] at hran
    obtain ⟨rfl, rfl⟩ := Prod.mk.inj hran
    refine ⟨h.waiting, h.revoked, ?_, ?_, ?_⟩
    · simpa [reportsOf_append, reportsOf] using h.estimator
    · simpa [ran, reportsOf_append, recordedOf_append, reportsOf, recordedOf, Await.enters] using hsent
    · simpa [ran, LiveBehind, liveOf_append, recordedOf_append, liveOf, recordedOf] using hlive
  · exact absurd hlive id

/-- A runner that has seen nothing yet; its settings are free. -/
structure TrackRunner.IsNew (start : TrackRunner) : Prop where
  tracks : start.estimator.tracks = Dict.empty
  pending : start.pending = []
  revoked : start.revoked = ∅

variable {start : TrackRunner} {reports : List SurveillanceReport} {tables : TrackHistoryStore}
  {live : LiveTrackStore}

theorem run_fed (hnew : start.IsNew)
    (hrun : machine.Run (fun _ turn => turn.2.OfReports) { runner := start } s log) :
    Fed start.estimator s log := by
  refine hrun.invariant ?_ ?_
  · refine ⟨rfl, hnew.revoked, rfl, ?_, rfl⟩
    rw [hnew.pending]
    rfl
  · rintro s log ⟨time, turn⟩ s' shown hfed hturn hstep
    cases turn with
    | envelope report partition => exact fed_envelope hfed hstep
    | resume => exact fed_resume hfed hstep
    | sweep | revoke | assign | grant => exact absurd hturn id

/-- What the stores hold is the outcome of a cut of the answers. -/
theorem HandledReports.exists_cut (hnew : start.IsNew) (h : HandledReports start reports tables live) :
    ∃ cut : List (List TrackUpdate), cut.flatten = start.estimator.answers reports ∧
      tables = cut.foldl TrackHistoryStore.record {} ∧
      live = LiveTrackStore.publish {} (start.estimator.answers reports) := by
  obtain ⟨s, log, hrun, hfree, hreports, htables, hlive⟩ := h.run
  have hfed := run_fed hnew hrun
  have hsent := hfed.sent
  have hbehind := hfed.live
  rw [hfree] at hsent hbehind
  rw [hreports, Option.elim_none, List.append_nil] at hsent
  have hflatten : (recordedOf log ++ [s.runner.pending]).flatten = start.estimator.answers reports := by
    rw [List.flatten_concat, hsent]
  refine ⟨_, hflatten, htables, ?_⟩
  rw [hlive, show liveOf log = recordedOf log from hbehind, foldl_publish, hflatten]

/-! ### Every cut comes about -/

/-- A free service that flushes after a second, and not before for so many updates. -/
structure Ready (e : TrackEstimator) (us : List TrackUpdate) (room : ℕ) (t : ℚ) (s : TrackService) :
    Prop where
  holder : s.holder = none
  waiting : s.waiting = []
  revoked : s.runner.revoked = ∅
  estimator : s.runner.estimator = e
  pending : s.runner.pending = us
  batchSize : us.length + room < s.runner.batchSize
  flushIntervalS : s.runner.flushIntervalS = 1
  lastFlush : s.runner.lastFlush = t

/-- The service from one state to another, with what it takes on and hands out on the way. -/
def Hands (s s' : TrackService) (reports : List SurveillanceReport) (batches : List (List TrackUpdate)) :
    Prop :=
  ∃ log, machine.Run (fun _ turn => turn.2.OfReports) s s' log ∧ reportsOf log = reports ∧
    recordedOf log = batches ∧ liveOf log = batches

theorem Hands.refl (s : TrackService) : Hands s s [] [] := ⟨[], .start, rfl, rfl, rfl⟩

theorem Hands.trans {s'' : TrackService} {later : List SurveillanceReport}
    {batches batches' : List (List TrackUpdate)} (h : Hands s s' reports batches)
    (h' : Hands s' s'' later batches') : Hands s s'' (reports ++ later) (batches ++ batches') := by
  obtain ⟨log, hrun, rfl, rfl, hlive⟩ := h
  obtain ⟨log', hrun', rfl, rfl, hlive'⟩ := h'
  exact ⟨log ++ log', hrun.trans hrun', reportsOf_append .., recordedOf_append ..,
    by rw [liveOf_append, hlive, hlive']⟩

variable {us : List TrackUpdate} {room : ℕ} {t : ℚ} {report : SurveillanceReport}

/-- A report is taken on and published. -/
theorem ready_envelope (h : Ready e us (room + 1) t s) (report : SurveillanceReport) (time : ℚ) :
    ∃ mid shown, s.step time (.envelope report 0) = some (mid, shown) ∧
      reportsOf shown = [report] ∧ recordedOf shown = [] ∧ liveOf shown = [] ∧
      mid.holder = some (.handlePublish (e.onReport report).2) ∧
      Ready (e.onReport report).1 us (room + 1) t { mid with holder := none } := by
  have hentered : s.step time (.envelope report 0) =
      some ((s.envelope report 0).ran ((s.envelope report 0).runner.handle report 0)) := by
    simp only [TrackService.step, handling, h.holder, h.waiting, List.any_nil, Option.any_none, Bool.or_self,
      Bool.false_eq_true, if_false, acquire, envelope, TrackRunner.enter]
  have hnot : (0 : ℕ) ∉ (s.envelope report 0).runner.revoked := by
    rw [show (s.envelope report 0).runner.revoked = ∅ from h.revoked]
    exact Finset.notMem_empty 0
  rw [TrackRunner.handle, if_neg hnot] at hentered
  refine ⟨_, _, hentered, rfl, rfl, rfl, ?_, ?_⟩
  · rw [← h.estimator]
    rfl
  · exact ⟨rfl, h.waiting, h.revoked, by rw [← h.estimator]; rfl, h.pending, h.batchSize, h.flushIntervalS,
      h.lastFlush⟩

theorem run_turn {start : TrackService} {turn : Turn}
    (hrun : machine.Run (fun _ turn => turn.2.OfReports) start s log)
    (hstep : s.step time turn = some (s', shown)) (hturn : turn.OfReports) :
    machine.Run (fun _ turn => turn.2.OfReports) start s' (log ++ shown) :=
  hrun.step (a := (time, turn)) hturn hstep

/-- A report whose answer is kept for later. -/
theorem ready_keep (h : Ready e us (room + 1) t s) (report : SurveillanceReport) :
    ∃ s', Hands s s' [report] [] ∧
      Ready (e.onReport report).1 (us ++ [(e.onReport report).2]) room t s' := by
  obtain ⟨mid, shown, hstep, hreports, hrecorded, hlive, hholder, hready⟩ := ready_envelope h report t
  have hresume : mid.step t .resume = some ({ mid with
      runner := { mid.runner with
        published := mid.runner.published + 1, pending := mid.runner.pending ++ [(e.onReport report).2] }
      holder := none }, []) := by
    have hnot : ¬ (mid.runner.batchSize ≤ (mid.runner.pending ++ [(e.onReport report).2]).length ∨
        mid.runner.flushIntervalS ≤ t - mid.runner.lastFlush) := by
      have hroom : us.length + (room + 1) < mid.runner.batchSize := hready.batchSize
      have hlast : mid.runner.lastFlush = t := hready.lastFlush
      have hinterval : mid.runner.flushIntervalS = 1 := hready.flushIntervalS
      rw [show mid.runner.pending = us from hready.pending, hlast, hinterval, List.length_append,
        List.length_singleton, sub_self]
      rintro (hfull | hlate)
      · omega
      · exact absurd hlate (by norm_num)
    simp only [TrackService.step, hholder, Option.map_some]
    rw [resume_handlePublish, if_neg hnot]
    rfl
  have hrun := run_turn (run_turn .start hstep trivial) hresume trivial
  refine ⟨_, ⟨_, hrun, ?_, ?_, ?_⟩, ?_⟩
  · simpa using hreports
  · simpa using hrecorded
  · simpa using hlive
  · have hroom : us.length + (room + 1) < mid.runner.batchSize := hready.batchSize
    refine ⟨rfl, hready.waiting, hready.revoked, hready.estimator, ?_, ?_, hready.flushIntervalS,
      hready.lastFlush⟩
    · change mid.runner.pending ++ _ = us ++ _
      rw [show mid.runner.pending = us from hready.pending]
    · rw [List.length_append, List.length_singleton]
      exact lt_of_eq_of_lt (by omega) hroom

/-- A report a second later, whose answer is flushed with all that was kept. -/
theorem ready_flush (h : Ready e us (room + 1) t s) (report : SurveillanceReport) :
    ∃ s', Hands s s' [report] [us ++ [(e.onReport report).2]] ∧
      Ready (e.onReport report).1 [] room (t + 1) s' := by
  obtain ⟨mid, shown, hstep, hreports, hrecorded, hlive, hholder, hready⟩ := ready_envelope h report t
  have hpending : mid.runner.pending = us := hready.pending
  have hpublish : mid.step (t + 1) .resume = some ({ mid with
      runner := { mid.runner with published := mid.runner.published + 1, pending := [] }
      holder := some (.record (us ++ [(e.onReport report).2]) [] .handle) },
      [.recorded (us ++ [(e.onReport report).2])]) := by
    have hlate : mid.runner.flushIntervalS ≤ t + 1 - mid.runner.lastFlush := by
      rw [show mid.runner.flushIntervalS = 1 from hready.flushIntervalS,
        show mid.runner.lastFlush = t from hready.lastFlush, add_sub_cancel_left]
    simp only [TrackService.step, hholder, Option.map_some]
    rw [resume_handlePublish, if_pos (.inr hlate), hpending]
    rfl
  have hrecord : TrackService.step { mid with
      runner := { mid.runner with published := mid.runner.published + 1, pending := [] }
      holder := some (.record (us ++ [(e.onReport report).2]) [] .handle) } (t + 1) .resume =
      some ({ mid with
        runner := { mid.runner with published := mid.runner.published + 1, pending := [] }
        holder := some (.livePublish .handle) }, [.liveWritten (us ++ [(e.onReport report).2])]) := by
    simp only [TrackService.step, Option.map_some]
    rw [resume_record _ _ (by simp)]
    rfl
  have hlivePublish : TrackService.step { mid with
      runner := { mid.runner with published := mid.runner.published + 1, pending := [] }
      holder := some (.livePublish .handle) } (t + 1) .resume =
      some ({ mid with
        runner := { mid.runner with published := mid.runner.published + 1, pending := [], lastFlush := t + 1 }
        holder := none }, []) := rfl
  have hrun := run_turn (run_turn (run_turn (run_turn .start hstep trivial) hpublish trivial) hrecord trivial)
    hlivePublish trivial
  refine ⟨_, ⟨_, hrun, ?_, ?_, ?_⟩, ?_⟩
  · simpa [reportsOf_append, reportsOf] using hreports
  · simpa [recordedOf_append, recordedOf] using hrecorded
  · simpa [liveOf_append, liveOf] using hlive
  · have hroom : us.length + (room + 1) < mid.runner.batchSize := hready.batchSize
    refine ⟨rfl, hready.waiting, hready.revoked, hready.estimator, rfl, ?_, hready.flushIntervalS, rfl⟩
    rw [List.length_nil, Nat.zero_add]
    exact lt_of_le_of_lt (by omega) hroom

/-- Reports whose answers are flushed with the last of them. -/
theorem ready_batch (reports : List SurveillanceReport) (hne : reports ≠ [])
    (h : Ready e us (reports.length + room) t s) :
    ∃ s', Hands s s' reports [us ++ e.answers reports] ∧ Ready (e.feed reports) [] room (t + 1) s' := by
  induction reports generalizing e us s with
  | nil => exact absurd rfl hne
  | cons report reports ih =>
    rw [List.length_cons, Nat.add_right_comm] at h
    rcases eq_or_ne reports [] with rfl | hrest
    · rw [List.length_nil, Nat.zero_add] at h
      exact ready_flush h report
    · obtain ⟨mid, hkeep, hready⟩ := ready_keep h report
      obtain ⟨s', hhands, hready'⟩ := ih hrest hready
      refine ⟨s', ?_, hready'⟩
      have := hkeep.trans hhands
      rwa [List.append_assoc] at this

/-- Any cut of the answers into batches. -/
theorem ready_cut (cut : List (List TrackUpdate)) (reports : List SurveillanceReport)
    (hcut : cut.flatten = e.answers reports) (h : Ready e [] reports.length t s) :
    ∃ s' t', Hands s s' reports (cut.filter (· ≠ [])) ∧ Ready (e.feed reports) [] 0 t' s' := by
  induction cut generalizing e reports t s with
  | nil =>
    obtain rfl : reports = [] := by
      cases reports with
      | nil => rfl
      | cons report reports => exact nomatch hcut
    exact ⟨s, t, Hands.refl s, h⟩
  | cons batch cut ih =>
    obtain ⟨front, back, rfl, rfl, hback⟩ := answers_eq_append hcut.symm
    rcases eq_or_ne front [] with rfl | hne
    · obtain ⟨s', t', hhands, hready⟩ := ih back hback.symm h
      exact ⟨s', t', hhands, hready⟩
    · rw [List.length_append] at h
      obtain ⟨mid, hbatch, hmid⟩ := ready_batch front hne h
      obtain ⟨s', t', hhands, hready⟩ := ih back hback.symm hmid
      refine ⟨s', t', ?_, feed_append (e := e) ▸ hready⟩
      have hne' : e.answers front ≠ [] := by
        obtain ⟨report, rest, rfl⟩ := List.exists_cons_of_ne_nil hne
        exact List.cons_ne_nil _ _
      rw [List.filter_cons_of_pos (by simpa using hne')]
      exact hbatch.trans hhands

theorem foldl_record_filter (cut : List (List TrackUpdate)) (store : TrackHistoryStore) :
    (cut.filter (· ≠ [])).foldl TrackHistoryStore.record store = cut.foldl TrackHistoryStore.record store := by
  induction cut generalizing store with
  | nil => rfl
  | cons batch cut ih =>
    cases batch with
    | nil => exact ih store
    | cons u us => exact ih _

/-- A new runner with these settings. -/
def newRunner (e : TrackEstimator) (batchSize : ℕ) (flushIntervalS : ℚ) : TrackRunner where
  estimator := e
  batchSize := batchSize
  flushIntervalS := flushIntervalS

theorem newRunner_isNew (he : e.tracks = Dict.empty) (batchSize : ℕ) (flushIntervalS : ℚ) :
    (newRunner e batchSize flushIntervalS).IsNew := ⟨he, rfl, rfl⟩

/-- With room for all the reports, every cut of the answers is what some run writes. -/
theorem handledReports_of_cut {cut : List (List TrackUpdate)} (hcut : cut.flatten = e.answers reports)
    {batchSize : ℕ} (hroom : reports.length < batchSize) :
    HandledReports (newRunner e batchSize 1) reports (cut.foldl TrackHistoryStore.record {})
      (LiveTrackStore.publish {} (e.answers reports)) := by
  have hready : Ready e [] reports.length 0 { runner := newRunner e batchSize 1 } :=
    ⟨rfl, rfl, rfl, rfl, rfl, by simpa [newRunner] using hroom, rfl, rfl⟩
  obtain ⟨s, t, ⟨log, hrun, hreports, hrecorded, hlive⟩, hdone⟩ := ready_cut cut reports hcut hready
  refine ⟨s, log, hrun, hdone.holder, hreports, ?_, ?_⟩
  · rw [hdone.pending, List.foldl_concat, hrecorded, foldl_record_filter]
    rfl
  · rw [hdone.pending, hlive, foldl_publish, List.flatten_concat, List.append_nil, ← hcut,
      List.flatten_filter_ne_nil]

end

end Airspace
