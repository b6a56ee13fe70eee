import Airspace.Track.HandOver
import Airspace.Track.Sweeps

/-! Releases under concurrency.

    In every run whose reports find the map entries they wrote, a release is complete: nothing of its
    partitions is held or spoken for until they are claimed. Without the condition it is not. A new
    aircraft whose first report waits behind a sweep has its map entry deleted by that sweep, as it has no
    record yet; it is then tracked without an entry, and the release of its partition passes it over. -/

namespace Airspace

open Ownership

noncomputable section

/-- A service that has seen nothing yet; its settings are free. -/
structure Fresh (t : TrackService) : Prop where
  tracks : t.runner.estimator.tracks = Dict.empty
  pending : t.runner.pending = []
  holder : t.holder = none

/-! ### A report that waits behind a sweep -/

/-- A service with default settings. -/
def scene (estimator : TrackEstimator) (partitionOf : Dict String ℕ) (revoked : Finset ℕ)
    (counts : ℕ × ℕ) (pending : List TrackUpdate) (holder : Option Await) (waiting : List Request) :
    TrackService where
  runner :=
    { estimator := estimator, partitionOf := partitionOf, revoked := revoked, reports := counts.1
      published := counts.2, pending := pending }
  holder := holder
  waiting := waiting

section

open TrackService

variable {e e' : TrackEstimator} {u v : TrackUpdate} {d : Dict String ℕ} {n k : ℕ} {now : Instant}
  {report : SurveillanceReport} {partition : ℕ} {us : List TrackUpdate} {waiting : List Request}

theorem scene_envelope : machine.step (scene e d ∅ (n, k) us none []) (0, .envelope report partition) =
    some (scene (e.onReport report).1 (d.set report.icao24 partition) ∅ (n + 1, k) us
      (some (.handlePublish (e.onReport report).2)) [],
      [.accepted report partition (e.initiates report.icao24), .published (e.onReport report).2]) := rfl

/-- At time 0 a lone update is not flushed. -/
theorem scene_handlePublish : machine.step (scene e d ∅ (n, k) [] (some (.handlePublish u)) [])
    (0, .resume) = some (scene e d ∅ (n, k + 1) [u] none [], []) := by
  simp [machine, scene, TrackService.step, ran, TrackRunner.resume, show ¬ (1 : ℚ) ≤ 0 by norm_num]

theorem scene_sweep (h : e.sweep now = (e', [v])) :
    machine.step (scene e d ∅ (n, k) us none []) (0, .sweep now) =
      some (scene e' d ∅ (n, k) us (some (.sweepPublish now [v] [])) [], [.published v]) := by
  simp [machine, scene, TrackService.step, ran, acquire, TrackRunner.enter, TrackRunner.sweepNow, h]

theorem scene_envelope_waits :
    machine.step (scene e d ∅ (n, k) us (some (.sweepPublish now [v] [])) [])
      (0, .envelope report partition) =
      some (scene e (d.set report.icao24 partition) ∅ (n, k) us (some (.sweepPublish now [v] []))
        [.handle report partition], []) := rfl

theorem scene_sweepPublish :
    machine.step (scene e d ∅ (n, k) [u] (some (.sweepPublish now [v] [])) waiting) (0, .resume) =
      some (scene e d ∅ (n, k + 1) [] (some (.record [u, v] [] (.sweepNow now [v]))) waiting,
        [.recorded [u, v]]) := rfl

theorem scene_record {flushing : Flushing} {revoked : Finset ℕ} (h : us ≠ []) :
    machine.step (scene e d revoked (n, k) [] (some (.record us [] flushing)) waiting) (0, .resume) =
      some (scene e d revoked (n, k) [] (some (.livePublish flushing)) waiting, [.liveWritten us]) := by
  simp only [machine, scene, TrackService.step, ran, TrackRunner.resume, List.not_mem_nil,
    not_false_eq_true, decide_true, List.filter_true, Option.map_some]

/-- The sweep's last await: the entries of aircraft without a record go. -/
theorem scene_sweepLivePublish (h : v.state = .coasting) :
    machine.step (scene e d ∅ (n, k) [] (some (.livePublish (.sweepNow now [v]))) waiting) (0, .resume) =
      some (scene (e.pruneTerminated now (seconds 600)).1
        (d.filterKeys fun icao24 =>
          decide (icao24 ∈ (e.pruneTerminated now (seconds 600)).1.knownAddresses)) ∅ (n, k) [] none
        waiting, []) := by
  simp [machine, scene, TrackService.step, ran, TrackRunner.resume, TrackRunner.afterFlush,
    TrackRunner.forgetPruned, h]

theorem scene_grant :
    machine.step (scene e d ∅ (n, k) us none [.handle report partition]) (0, .grant) =
      some (scene (e.onReport report).1 d ∅ (n + 1, k) us (some (.handlePublish (e.onReport report).2)) [],
        [.accepted report partition (e.initiates report.icao24), .published (e.onReport report).2]) := rfl

/-- A release of partitions the map has no entry of. -/
theorem scene_revoke (h : ∀ icao24 p, (icao24, p) ∈ d.items → p ≠ partition) :
    machine.step (scene e d ∅ (n, k) [u] none []) (0, .revoke [⟨topicSurveillanceReports, partition⟩]) =
      some (scene e d {partition} (n, k) []
        (some (.record [u] [] (.releasePartitions {partition} []))) [], [.recorded [u]]) := by
  have hpartitions : reportPartitions [⟨topicSurveillanceReports, partition⟩] = {partition} := by
    simp [reportPartitions]
  simp [machine, scene, TrackService.step, ran, acquire, TrackRunner.enter, TrackRunner.releasePartitions,
    hpartitions, TrackRunner.flush]
  exact h

theorem scene_releaseLivePublish : machine.step (scene e d {partition} (n, k) []
    (some (.livePublish (.releasePartitions {partition} []))) []) (0, .resume) =
      some (scene e d {partition} (n, k) [] none [], [.releasedPartitions {partition}]) := rfl

end

/-- A second aircraft, first seen while the first one is being swept. -/
def secondStart : SurveillanceReport where
  reportId := "r3"
  icao24 := "abc124"
  observedAt := seconds 10
  lat := 0
  lon := 0

/-- A first aircraft on partition 0 falls silent. While a sweep publishes that it coasts, the second one's
    report comes from partition 1 and waits. After it is handled, partition 1 is revoked. -/
def missedTurns : List (ℚ × Turn) :=
  [(0, .envelope TrackEstimator.climbStart 0), (0, .resume), (0, .sweep (seconds 10)),
    (0, .envelope secondStart 1), (0, .resume), (0, .resume), (0, .resume), (0, .grant), (0, .resume),
    (0, .revoke [⟨topicSurveillanceReports, 1⟩]), (0, .resume), (0, .resume)]

/-! ### Complete and incomplete releases -/

/-- In every run of mapped turns the estimator holds no track of a partition given up, and nothing shown
    speaks for an aircraft of one. -/
theorem hand_over_complete {start : TrackService} (hfresh : Fresh start) {log : List RunnerEvent}
    (hrun : TrackService.machine.Run TrackService.Mapped start t log) :
    (∀ icao24 ∈ t.runner.estimator.knownAddresses, ¬ (after {} log).Foreign icao24) ∧
      ∀ before event later, log = before ++ event :: later →
        ∀ icao24, SpeaksFor icao24 event → ¬ (after {} before).Foreign icao24 := by
  have h0 : ServiceOwned start {} := by
    refine ⟨⟨?_, Finset.empty_subset _, ?_, ?_⟩, ?_⟩
    · simp [TrackEstimator.Filed, hfresh.tracks]
    · simp [TrackEstimator.mem_knownAddresses, hfresh.tracks]
    · simp [hfresh.pending]
    · simp [hfresh.holder]
  obtain ⟨ht, hproper⟩ := run_owned h0 hrun
  refine ⟨fun icao24 hknown => ht.runner.not_foreign hknown, ?_⟩
  intro before event later heq icao24 hspeaks
  exact hproper.not_foreign heq hspeaks

theorem hand_over_complete_other_partition :
    ∃ (t : TrackService) (log : List RunnerEvent), RunnerEvent.releasedPartitions {1} ∈ log ∧
      (∀ icao24 ∈ t.runner.estimator.knownAddresses, ¬ (after {} log).Foreign icao24) ∧
      ∀ before event later, log = before ++ event :: later →
        ∀ icao24, SpeaksFor icao24 event → ¬ (after {} before).Foreign icao24 := by
  have hmapped : TrackService.Mapped (scene {} Dict.empty ∅ (0, 0) [] none [])
      (0, .envelope TrackEstimator.climbStart 0) := fun hknown => absurd hknown List.not_mem_nil
  have hmap : ∀ icao24 p, (icao24, p) ∈ ((Dict.empty : Dict String ℕ).set "abc123" 0).items → p ≠ 1 := by
    intro icao24 p hmem
    rw [← Dict.get?_eq_some_iff, Dict.get?_set] at hmem
    split_ifs at hmem
    · rw [← Option.some.inj hmem]
      decide
    · cases hmem
  have hrun : TrackService.machine.Run TrackService.Mapped (scene {} Dict.empty ∅ (0, 0) [] none []) _ _ :=
    ((((Machine.Run.start.step hmapped scene_envelope).step mapped_resume
      scene_handlePublish).step mapped_revoke (scene_revoke hmap)).step mapped_resume
      (scene_record (List.cons_ne_nil _ _))).step mapped_resume scene_releaseLivePublish
  refine ⟨_, _, ?_, hand_over_complete ⟨rfl, rfl, rfl⟩ hrun⟩
  simp

/-- The second aircraft stays held although partition 1 has been released: the sweep deleted its map entry
    before its report was handled. -/
theorem release_misses_waiting_report :
    ∃ t log, TrackService.machine.exec { runner := {} } missedTurns = some (t, log) ∧
      TrackService.machine.Run (fun _ _ => True) { runner := {} } t log ∧
      "abc124" ∈ t.runner.estimator.knownAddresses ∧ (after {} log).Foreign "abc124" := by
  obtain ⟨u, hrecord, hcoasting⟩ := TrackEstimator.sweepRecord_climb (s := 10) (by omega) (by omega)
  obtain ⟨swept, hsweep, hknown⟩ : ∃ swept, (({} : TrackEstimator).onReport TrackEstimator.climbStart).1.sweep
      (seconds 10) = (swept, [u]) ∧ "abc124" ∉ swept.knownAddresses := by
    rw [TrackEstimator.sweep_climbStart, hrecord]
    refine ⟨_, rfl, ?_⟩
    change _ ∉ Dict.keys _
    rw [Dict.mem_keys_set]
    decide
  have hpruned : "abc124" ∉ (swept.pruneTerminated (seconds 10) (seconds 600)).1.knownAddresses := by
    intro hmem
    obtain ⟨record, hget⟩ := TrackEstimator.mem_knownAddresses.mp hmem
    exact hknown (TrackEstimator.mem_knownAddresses.mpr
      ⟨record, TrackEstimator.get?_pruneTerminated hget⟩)
  have hmap : ∀ icao24 p, (icao24, p) ∈ (((Dict.empty.set "abc123" 0).set "abc124" 1).filterKeys
      fun icao24 => decide (icao24 ∈
        (swept.pruneTerminated (seconds 10) (seconds 600)).1.knownAddresses)).items → p ≠ 1 := by
    intro icao24 p hmem
    rw [← Dict.get?_eq_some_iff, Dict.get?_filterKeys, Dict.get?_set, Dict.get?_set] at hmem
    split_ifs at hmem with h1 h2 h3
    · exact absurd (h2 ▸ of_decide_eq_true h1) hpruned
    · rw [← Option.some.inj hmem]
      decide
    · cases hmem
  have hinitiates : (swept.pruneTerminated (seconds 10) (seconds 600)).1.initiates "abc124" = true :=
    initiates_of_not_mem hpruned
  have hexec : TrackService.machine.exec (scene {} Dict.empty ∅ (0, 0) [] none []) missedTurns =
      some (_, _) := Machine.exec_cons scene_envelope <| Machine.exec_cons scene_handlePublish <|
    Machine.exec_cons (scene_sweep hsweep) <| Machine.exec_cons scene_envelope_waits <|
    Machine.exec_cons scene_sweepPublish <| Machine.exec_cons (scene_record (List.cons_ne_nil _ _)) <|
    Machine.exec_cons (scene_sweepLivePublish hcoasting) <| Machine.exec_cons scene_grant <|
    Machine.exec_cons scene_handlePublish <| Machine.exec_cons (scene_revoke hmap) <|
    Machine.exec_cons (scene_record (List.cons_ne_nil _ _)) <|
    Machine.exec_cons scene_releaseLivePublish rfl
  refine ⟨_, _, hexec, Machine.Run.start.exec hexec, ?_, ?_⟩
  · exact TrackEstimator.mem_knownAddresses_onReport.mpr (Or.inl rfl)
  · refine ⟨1, ?_, ?_⟩ <;> simp [after, see, secondStart, hinitiates]

end

end Airspace
