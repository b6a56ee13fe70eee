import Airspace.Conformance.Attachment
import Airspace.Eval.ConflictEval
import Airspace.Lib.While
import Airspace.Sim.Reports
import Airspace.Track.Records
import Mathlib.Algebra.Order.Floor.Ring

/-! Replaying a scenario through the real pipeline (`eval.run_conflict_eval.replay`).

    Every turn moves the simulation on by a second, shows the truth finder the exact states, hands the
    sensor's reports to the estimator and its answers to the detector, scans, and keeps the first alert of
    each key. The loop ends with the scenario, and what was raised is scored against what happened.

        simulation ──truth──▶ truth finder ─────────────▶ events ──┐
             └──reports──▶ estimator ──▶ detector ──▶ raised alerts ┴▶ score -/

namespace Airspace

noncomputable section

/-- `datetime(2026, 1, 1, tzinfo=UTC)`. -/
def replayStart : Instant := seconds 1767225600

/-- Seconds of simulation per step. -/
def stepS : ℚ := 1

/-- What an evaluation is run with; the detector rejects a threshold outside `(0, 1]`. -/
structure ReplaySettings where
  horizontalNm : ℝ := 5
  verticalFt : ℝ := 1000
  lookaheadS : ℝ := 300
  probabilityThreshold : Option ℝ := none
  threshold_mem : ∀ p ∈ probabilityThreshold, 0 < p ∧ p ≤ 1 := by simp

/-- What a replay draws on besides its arguments: the digest and the generator behind the noise, the
    identifiers of the alerts, and the wall clock at each update. -/
structure Surroundings (γ : Type) where
  sha256 : ByteArray → List UInt8
  rng : Random γ
  uuid4 : ℕ → String
  wall : ℕ → Instant

/-- A replay between two turns of its loop; `published` is what the publisher has captured. -/
structure Replay (γ : Type) where
  simulation : Simulation γ
  estimator : TrackEstimator := {}
  runner : ConformanceRunner
  published : List Alert := []
  truthFinder : TruthConflictFinder
  raised : Dict String RaisedAlert := Dict.empty

/-- `{f"trk-{spec.icao24}": spec.icao24 for spec in scenario.aircraft}`. -/
def addressesByTrack (scenario : Scenario) : Dict String String :=
  Dict.collect scenario.aircraft (fun spec => trackIdFor spec.icao24) AircraftSpec.icao24

namespace Replay

variable {γ : Type} (w : Surroundings γ)

def init (scenario : Scenario) (settings : ReplaySettings) : Replay γ where
  simulation := Simulation.init w.sha256 w.rng scenario replayStart
  runner :=
    { monitor :=
        { horizontalNm := settings.horizontalNm
          verticalFt := settings.verticalFt
          lookaheadS := settings.lookaheadS
          probabilityThreshold := settings.probabilityThreshold
          threshold_mem := settings.threshold_mem } }
  truthFinder := { horizontalNm := settings.horizontalNm, verticalFt := settings.verticalFt }

/-- `runner.absorb(estimator.on_report(report))`. -/
def hear (acc : TrackEstimator × ConformanceRunner) (report : SurveillanceReport) :
    TrackEstimator × ConformanceRunner :=
  let out := acc.1.onReport report
  (out.1, acc.2.absorb (w.wall acc.2.updates) none out.2)

/-- One turn of the loop. -/
def tick (r : Replay γ) : Except SimError (Replay γ) := do
  let simulation ← r.simulation.advance stepS
  let now := simulation.now
  let truthFinder := r.truthFinder.observe simulation.truth now
  let (simulation, reports) ← simulation.observe w.rng
  let (estimator, runner) := reports.foldl (hear w) (r.estimator, r.runner)
  let before := r.published.length
  let scan := runner.scanNow w.uuid4 now none
  let published := r.published ++ scan.published
  return {
    simulation := simulation
    estimator := estimator
    runner := scan.runner
    published := published
    truthFinder := truthFinder
    raised := (published.drop before).foldl (record (addressesByTrack simulation.scenario)) r.raised }

/-- What the loop leaves to be scored. -/
def outcome (r : Replay γ) : ScenarioOutcome where
  truthEvents := r.truthFinder.events
  alerts := r.raised.values

end Replay

/-- Run one scenario through the real pipeline and score it; nothing if the loop is still running after so
    many turns. -/
def replay {γ : Type} (w : Surroundings γ) (fuel : ℕ) (scenario : Scenario) (settings : ReplaySettings) :
    Option (Except SimError ScenarioOutcome) :=
  (whileNot (fun r => r.simulation.finished) (Replay.tick w) fuel (Replay.init w scenario settings)).map
    fun result => result.map fun r => score r.outcome

namespace Replay

variable {γ : Type} {w : Surroundings γ} {scenario : Scenario} {settings : ReplaySettings} {r r' : Replay γ}
  {k : ℕ}

/-! ### The simulation's side of a turn -/

/-- What the simulation of a replay is like after some turns. -/
structure Flown (scenario : Scenario) (k : ℕ) (sim : Simulation γ) : Prop where
  wellFormed : sim.WellFormed
  addressed : ∀ icao24 s, sim.state.get? icao24 = some s → icao24 ∈ scenario.addresses
  startTime : sim.startTime = replayStart
  elapsedS : sim.elapsedS = k
  scenario : sim.scenario = scenario

/-- The instant of a turn. -/
def instantAt (k : ℕ) : Instant := replayStart + seconds k

theorem instantAt_le_instantAt {i j : ℕ} : instantAt i ≤ instantAt j ↔ i ≤ j := by
  rw [instantAt, instantAt, add_le_add_iff_left, seconds, seconds, mul_le_mul_iff_left₀ (by norm_num),
    Nat.cast_le]

theorem instantAt_inj {i j : ℕ} (h : instantAt i = instantAt j) : i = j :=
  le_antisymm (instantAt_le_instantAt.mp h.le) (instantAt_le_instantAt.mp h.ge)

theorem Flown.now {sim : Simulation γ} (h : Flown scenario k sim) : sim.now = instantAt k := by
  have helapsed : sim.elapsedS = ((k : ℤ) : ℚ) := by rw [h.elapsedS, Int.cast_natCast]
  rw [Simulation.now, h.startTime, helapsed, timedelta_intCast, instantAt]

theorem flown_init (scenario : Scenario) (settings : ReplaySettings) :
    Flown scenario 0 (init w scenario settings).simulation where
  wellFormed := Simulation.init_wellFormed ..
  scenario := rfl
  startTime := rfl
  elapsedS := by rw [Nat.cast_zero]; rfl
  addressed icao24 s hs := by
    simp only [init, Simulation.init, Dict.get?_collect, Option.map_eq_some_iff] at hs
    obtain ⟨spec, hspec, -⟩ := hs
    obtain ⟨hmem, hicao⟩ := List.mem_filter.mp (List.mem_of_getLast? hspec)
    exact List.mem_map.mpr ⟨spec, hmem, of_decide_eq_true hicao⟩

/-- What a turn hears: each report is of the scenario's aircraft, made at the turn's instant. -/
structure Heard (scenario : Scenario) (now : Instant) (reports : List SurveillanceReport) : Prop where
  addressed : ∀ report ∈ reports, report.icao24 ∈ scenario.addresses
  observedAt : ∀ report ∈ reports, report.observedAt = now

/-- The rest of a turn, given what the simulation shows. -/
def heed (w : Surroundings γ) (r : Replay γ) (simulation : Simulation γ) (truth : List TruthState)
    (now : Instant) (reports : List SurveillanceReport) : Replay γ :=
  let heard := reports.foldl (hear w) (r.estimator, r.runner)
  let scan := heard.2.scanNow w.uuid4 now none
  { simulation := simulation
    estimator := heard.1
    runner := scan.runner
    published := r.published ++ scan.published
    truthFinder := r.truthFinder.observe truth now
    raised := scan.published.foldl (record (addressesByTrack simulation.scenario)) r.raised }

/-- No lookup of a turn fails: the simulation moves on by a second and is observed. -/
theorem tick_spec (h : Flown scenario k r.simulation) :
    ∃ advanced sim reports, r.simulation.advance stepS = .ok advanced ∧
      advanced.observe w.rng = .ok (sim, reports) ∧ Flown scenario (k + 1) advanced ∧
      Flown scenario (k + 1) sim ∧ Heard scenario (instantAt (k + 1)) reports ∧
      tick w r = .ok (heed w r sim advanced.truth (instantAt (k + 1)) reports) := by
  have hpos : (0 : ℚ) < stepS := by norm_num [stepS]
  obtain ⟨d, hadvance, hget⟩ := Simulation.advance_spec h.wellFormed hpos
  have hwell := Simulation.advance_wellFormed h.wellFormed hadvance
  have hadvanced : Flown scenario (k + 1)
      { r.simulation with elapsedS := r.simulation.elapsedS + stepS, state := d } :=
    { wellFormed := hwell
      scenario := h.scenario
      startTime := h.startTime
      elapsedS := by
        rw [h.elapsedS, stepS]
        push_cast
        rfl
      addressed := fun icao24 s hs => by
        obtain ⟨s', hs', -⟩ := Option.bind_eq_some_iff.mp ((hget icao24).symm.trans hs)
        exact h.addressed icao24 s' hs' }
  obtain ⟨noise, sequence, reports, hobserve, -, -⟩ := Simulation.observe_spec w.rng hwell
  refine ⟨_, _, reports, hadvance, hobserve, hadvanced, ?_, ?_, ?_⟩
  · exact { hadvanced with wellFormed := Simulation.observe_wellFormed w.rng hwell hobserve }
  · have hreport : ∀ report ∈ reports, report.icao24 ∈ scenario.addresses ∧
        report.observedAt = instantAt (k + 1) := by
      intro report hreport
      obtain ⟨s, draws, hs, hsame⟩ := Simulation.exists_observeOne w.rng hwell hobserve hreport
      refine ⟨hadvanced.addressed _ s hs, ?_⟩
      exact (congrArg SurveillanceReport.observedAt hsame).trans hadvanced.now
    exact ⟨fun report h => (hreport report h).1, fun report h => (hreport report h).2⟩
  · have hnow := hadvanced.now
    simp only [tick, hadvance, hobserve, bind, Except.bind, pure, Except.pure, hnow, List.drop_left]
    rfl

theorem finished_iff {sim : Simulation γ} (h : Flown scenario k sim) :
    sim.finished = true ↔ ⌈scenario.durationS⌉₊ ≤ k := by
  rw [Simulation.finished, decide_eq_true_eq, h.scenario, h.elapsedS, Nat.ceil_le]

theorem flown_tick (h : Flown scenario k r.simulation) :
    ∃ r', tick w r = .ok r' ∧ Flown scenario (k + 1) r'.simulation := by
  obtain ⟨_, _, _, _, _, _, hnext, _, htick⟩ := tick_spec h
  exact ⟨_, htick, hnext⟩

/-- A number of turns of a replay, from its start. -/
def after (w : Surroundings γ) (scenario : Scenario) (settings : ReplaySettings) (k : ℕ) :
    Except SimError (Replay γ) := rounds (tick w) k (init w scenario settings)

/-- After any number of turns the simulation has flown as many seconds. -/
theorem flown_after (h : after w scenario settings k = .ok r) : Flown scenario k r.simulation :=
  invariant_of_rounds (I := fun k r => Flown scenario k r.simulation) (flown_init scenario settings)
    (fun _ _ _ => flown_tick) h

/-- None of the turns raises, and the loop ends after as many of them as the scenario has begun seconds. -/
theorem replay_eq (w : Surroundings γ) (scenario : Scenario) (settings : ReplaySettings) :
    ∃ r, after w scenario settings ⌈scenario.durationS⌉₊ = .ok r ∧
      ∀ fuel ≥ ⌈scenario.durationS⌉₊, replay w fuel scenario settings = some (.ok (score r.outcome)) := by
  have hloop : ∃ r, rounds (tick w) ⌈scenario.durationS⌉₊ (init w scenario settings) = .ok r ∧
      Flown scenario ⌈scenario.durationS⌉₊ r.simulation ∧ ∀ fuel ≥ ⌈scenario.durationS⌉₊,
        whileNot (fun r => r.simulation.finished) (tick w) fuel (init w scenario settings) = some (.ok r) := by
    refine whileNot_of_invariant (I := fun k (r : Replay γ) => Flown scenario k r.simulation)
      (flown_init scenario settings) (fun _ _ => flown_tick) (fun k hk r hflown => ?_) fun r hflown => ?_
    · refine Bool.eq_false_of_not_eq_true fun hdone => ?_
      exact absurd ((finished_iff hflown).mp hdone) (Nat.not_le.mpr hk)
    · exact (finished_iff hflown).mpr le_rfl
  obtain ⟨r, hr, -, hloop⟩ := hloop
  refine ⟨r, hr, fun fuel hfuel => ?_⟩
  rw [replay, hloop fuel hfuel]
  rfl

/-! ### The detector's picture -/

/-- The update a record was last answered with. -/
def latestUpdate (record : TrackRecord) : TrackUpdate :=
  (TrackEstimator.toUpdate record record.lastReportAt).2

/-- The picture holds, of each aircraft reported since the cutoff, what the estimator last answered. -/
structure Mirrors (cutoff now : Instant) (e : TrackEstimator) (s : ConformanceRunner) : Prop where
  filed : e.Filed
  live : ∀ icao24 record, e.tracks.get? icao24 = some record → record.terminated = false ∧
    record.state ≠ .terminated ∧ record.lastReportAt ≤ now
  shown : ∀ icao24, s.picture.get? (trackIdFor icao24) = (e.tracks.get? icao24).bind fun record =>
    if cutoff ≤ record.lastReportAt then some (latestUpdate record) else none
  tracked : ∀ trackId ∈ s.picture.keys, ∃ icao24, trackId = trackIdFor icao24
  staleAfterS : s.staleAfterS = 15
  unchecked : s.conformance = none ∧ s.pendingConformance = Dict.empty ∧ s.terminated = ∅

variable {cutoff now later : Instant} {e : TrackEstimator} {s : ConformanceRunner} {report : SurveillanceReport}
  {icao24 : String}

theorem Mirrors.mono (h : Mirrors cutoff now e s) (hnow : now ≤ later) : Mirrors cutoff later e s :=
  { h with live := fun icao24 record hget =>
      have ⟨hlive, hstate, hlast⟩ := h.live icao24 record hget
      ⟨hlive, hstate, hlast.trans hnow⟩ }

/-- A report no older than its track makes the track's record as new as itself. -/
theorem onReport_of_mirrors (h : Mirrors cutoff now e s) (hnow : now ≤ report.observedAt) :
    ∃ record, e.onReport report = e.answer report record ∧ record.lastReportAt = report.observedAt ∧
      record.terminated = false ∧ record.state ≠ .terminated ∧ TrackEstimator.IsOf record report.icao24 := by
  cases hget : e.tracks.get? report.icao24 with
  | none =>
    exact ⟨_, TrackEstimator.onReport_of_none hget, rfl, rfl, by simp [TrackEstimator.initiate],
      TrackEstimator.isOf_initiate report⟩
  | some record =>
    obtain ⟨hlive, hstate, hlast⟩ := h.live _ record hget
    refine ⟨_, TrackEstimator.onReport_of_live hget hlive, ?_⟩
    rcases (hlast.trans hnow).lt_or_eq with hlt | heq
    · obtain ⟨hreport, hterminated, hstate⟩ := TrackEstimator.update_of_lt (e := e) hlt
      exact ⟨hreport, hterminated.trans hlive, hstate, TrackEstimator.isOf_update (h.filed _ _ hget) report⟩
    · rw [TrackEstimator.update_of_le heq.ge]
      exact ⟨heq, hlive, hstate, h.filed _ _ hget⟩

/-- Every update of a replay is accepted: it replaces the aircraft's record and what is shown of it. -/
theorem hear_spec (h : Mirrors cutoff now e s) (hnow : now ≤ report.observedAt) :
    ∃ record latestSeen, hear w (e, s) report =
        ({ e with tracks := e.tracks.set report.icao24 record },
          { s with
            updates := s.updates + 1
            picture := s.picture.set (trackIdFor report.icao24) (latestUpdate record)
            traceOf := s.traceOf.set (trackIdFor report.icao24) none
            latestSeen := latestSeen }) ∧
      record.lastReportAt = report.observedAt ∧ record.terminated = false ∧ record.state ≠ .terminated ∧
      TrackEstimator.IsOf record report.icao24 := by
  obtain ⟨record, hanswer, hlast, hlive, hstate, hof⟩ := onReport_of_mirrors h hnow
  refine ⟨record, s.latestAfter (w.wall s.updates) (latestUpdate record), ?_, hlast, hlive, hstate, hof⟩
  have hfirst : (e.answer report record).1 = { e with tracks := e.tracks.set report.icao24 record } :=
    congrArg (fun tracks => { e with tracks := tracks }) (TrackEstimator.tracks_answer hlast.ge)
  have hsecond : (e.answer report record).2 = latestUpdate record := by
    rw [latestUpdate, hlast]
    rfl
  have hid : (latestUpdate record).trackId = trackIdFor report.icao24 :=
    (TrackEstimator.isOf_toUpdate hof record.lastReportAt).2.2
  have hterm : (latestUpdate record).state ≠ .terminated := fun hterm =>
    hstate ((TrackEstimator.coast_frame record record.lastReportAt).1.symm.trans hterm)
  have hnotover : s.overtaken (latestUpdate record) = false := by
    rw [ConformanceRunner.overtaken, hid, h.shown]
    cases hget : e.tracks.get? report.icao24 with
    | none => rfl
    | some old =>
      have hold : ¬ (latestUpdate record).updatedAt < (latestUpdate old).updatedAt := by
        change ¬ record.lastReportAt < old.lastReportAt
        rw [hlast, not_lt]
        exact (h.live _ old hget).2.2.trans hnow
      rw [Option.bind_some]
      split_ifs
      · simp [hold]
      · rfl
  rw [hear, hanswer, hfirst, hsecond, ConformanceRunner.absorb_of_accepted hterm hnotover, hid,
    ConformanceRunner.observe]
  simp only [h.unchecked.1]

theorem mirrors_hear (h : Mirrors cutoff now e s) (hnow : now ≤ report.observedAt)
    (hcutoff : cutoff ≤ report.observedAt) :
    Mirrors cutoff report.observedAt (hear w (e, s) report).1 (hear w (e, s) report).2 := by
  obtain ⟨record, latestSeen, heq, hlast, hlive, hstate, hof⟩ := hear_spec (w := w) h hnow
  rw [heq]
  refine ⟨?_, ?_, ?_, ?_, h.staleAfterS, h.unchecked⟩
  · intro icao24 other hget
    rw [Dict.get?_set] at hget
    split_ifs at hget with hown
    · obtain rfl := Option.some.inj hget
      exact hown ▸ hof
    · exact h.filed icao24 other hget
  · intro icao24 other hget
    rw [Dict.get?_set] at hget
    split_ifs at hget
    · obtain rfl := Option.some.inj hget
      exact ⟨hlive, hstate, hlast.le⟩
    · obtain ⟨hlive, hstate, hle⟩ := h.live icao24 other hget
      exact ⟨hlive, hstate, hle.trans hnow⟩
  · intro icao24
    rw [Dict.get?_set, Dict.get?_set]
    by_cases hsame : icao24 = report.icao24
    · rw [if_pos (congrArg trackIdFor hsame), if_pos hsame, Option.bind_some, hlast, if_pos hcutoff]
    · rw [if_neg fun heq => hsame (trackIdFor_inj heq), if_neg hsame]
      exact h.shown icao24
  · intro trackId hmem
    rcases Dict.mem_keys_set.mp hmem with hown | hmem
    · exact ⟨report.icao24, hown⟩
    · exact h.tracked trackId hmem

theorem mirrors_foldl_hear {reports : List SurveillanceReport} (h : Mirrors cutoff now e s)
    (hreports : ∀ report ∈ reports, report.observedAt = now) (hcutoff : cutoff ≤ now) :
    Mirrors cutoff now (reports.foldl (hear w) (e, s)).1 (reports.foldl (hear w) (e, s)).2 := by
  induction reports generalizing e s with
  | nil => exact h
  | cons report reports ih =>
    obtain ⟨hreport, hrest⟩ := List.forall_mem_cons.mp hreports
    have hone := mirrors_hear (w := w) h hreport.ge (hreport ▸ hcutoff)
    rw [hreport] at hone
    exact ih hone hrest

/-- A scan drops what is older than its own cutoff. -/
theorem mirrors_scanNow (h : Mirrors cutoff now e s) (hcutoff : cutoff ≤ now - seconds 15) :
    Mirrors (now - seconds 15) now e (s.scanNow w.uuid4 now none).runner := by
  have hpicture : ∀ trackId, (s.scanNow w.uuid4 now none).runner.picture.get? trackId =
      (s.picture.get? trackId).filter fun u => !decide (u.updatedAt < now - seconds 15) := by
    intro trackId
    rw [ConformanceRunner.picture_scanNow, ConformanceRunner.picture_pruned, h.staleAfterS, timedelta_ofNat]
    rfl
  refine ⟨h.filed, h.live, fun icao24 => ?_, fun trackId hmem => ?_, ?_, ?_⟩
  · rw [hpicture, h.shown]
    cases e.tracks.get? icao24 with
    | none => rfl
    | some record =>
      have hupdated : (latestUpdate record).updatedAt = record.lastReportAt := rfl
      rw [Option.bind_some, Option.bind_some]
      by_cases hrecent : now - seconds 15 ≤ record.lastReportAt
      · rw [if_pos (hcutoff.trans hrecent), if_pos hrecent, Option.filter_some, hupdated]
        simp [hrecent]
      · rw [if_neg hrecent]
        split_ifs
        · rw [Option.filter_some, hupdated]
          simp [not_le.mp hrecent]
        · rfl
  · obtain ⟨u, hu⟩ := Dict.mem_keys_iff.mp hmem
    rw [hpicture, Option.filter_eq_some_iff] at hu
    exact h.tracked trackId (Dict.mem_keys_iff.mpr ⟨u, hu.1⟩)
  · exact (ConformanceRunner.staleAfterS_scanNow ..).trans h.staleAfterS
  · rw [ConformanceRunner.conformance_scanNow, h.unchecked.1]
    exact ⟨rfl, ConformanceRunner.pendingConformance_scanNow .., ConformanceRunner.terminated_scanNow ..⟩

/-- The reports of a turn leave every aircraft they name with a record of that instant, and the others
    alone. -/
theorem get?_foldl_hear {reports : List SurveillanceReport} (h : Mirrors cutoff now e s)
    (hreports : ∀ report ∈ reports, report.observedAt = now) (hcutoff : cutoff ≤ now) (icao24 : String) :
    if icao24 ∈ reports.map SurveillanceReport.icao24 then
      ∃ record, (reports.foldl (hear w) (e, s)).1.tracks.get? icao24 = some record ∧ record.lastReportAt = now
    else (reports.foldl (hear w) (e, s)).1.tracks.get? icao24 = e.tracks.get? icao24 := by
  induction reports using List.reverseRecOn with
  | nil => rfl
  | append_singleton reports report ih =>
    have hearlier : ∀ report ∈ reports, report.observedAt = now := fun r hr =>
      hreports r (List.mem_append_left _ hr)
    have hreport := hreports report (by simp)
    have hmirrors := mirrors_foldl_hear (w := w) h hearlier hcutoff
    obtain ⟨record, latestSeen, heq, hlast, -⟩ := hear_spec (w := w) hmirrors hreport.ge
    rw [List.foldl_concat, heq, Dict.get?_set, List.map_append, List.map_singleton]
    by_cases hown : icao24 = report.icao24
    · rw [if_pos (by simp [hown]), if_pos hown]
      exact ⟨record, rfl, hlast.trans hreport⟩
    · have hmem : icao24 ∈ reports.map SurveillanceReport.icao24 ++ [report.icao24] ↔
          icao24 ∈ reports.map SurveillanceReport.icao24 := by simp [hown]
      simp only [hmem, if_neg hown]
      exact ih hearlier

/-- The reports the next turn hears. -/
def nextReports (w : Surroundings γ) (r : Replay γ) : Except SimError (List SurveillanceReport) := do
  let simulation ← r.simulation.advance stepS
  let observed ← simulation.observe w.rng
  return observed.2

/-- The sensor saw the aircraft in turn `k + 1`. -/
def ObservedIn (w : Surroundings γ) (scenario : Scenario) (settings : ReplaySettings) (icao24 : String)
    (k : ℕ) : Prop :=
  ∃ r reports, after w scenario settings k = .ok r ∧ nextReports w r = .ok reports ∧
    icao24 ∈ reports.map SurveillanceReport.icao24

/-- An aircraft's record is as old as the last turn it was seen in; one never seen has none. -/
def LastSeenIn (w : Surroundings γ) (scenario : Scenario) (settings : ReplaySettings) (k : ℕ)
    (e : TrackEstimator) (icao24 : String) : Prop :=
  (e.tracks.get? icao24 = none ∧ ∀ j < k, ¬ ObservedIn w scenario settings icao24 j) ∨
  ∃ record j, e.tracks.get? icao24 = some record ∧ j < k ∧ ObservedIn w scenario settings icao24 j ∧
    (∀ i < k, j < i → ¬ ObservedIn w scenario settings icao24 i) ∧ record.lastReportAt = instantAt (j + 1)

/-- What a replay's estimator and detector are like after some turns. -/
structure Listening (w : Surroundings γ) (scenario : Scenario) (settings : ReplaySettings) (k : ℕ)
    (r : Replay γ) : Prop where
  mirrors : Mirrors (instantAt k - seconds 15) (instantAt k) r.estimator r.runner
  lastSeen : ∀ icao24, LastSeenIn w scenario settings k r.estimator icao24

theorem listening_init : Listening w scenario settings 0 (init w scenario settings) where
  mirrors :=
    { filed := fun _ _ h => nomatch h
      live := fun _ _ h => nomatch h
      shown := fun _ => rfl
      tracked := fun _ h => nomatch h
      staleAfterS := rfl
      unchecked := ⟨rfl, rfl, rfl⟩ }
  lastSeen _ := .inl ⟨rfl, fun j hj => absurd hj (Nat.not_lt_zero j)⟩

theorem nextReports_eq {advanced sim : Simulation γ} {reports : List SurveillanceReport}
    (hadvance : r.simulation.advance stepS = .ok advanced)
    (hobserve : advanced.observe w.rng = .ok (sim, reports)) :
    nextReports w r = .ok reports := by
  simp only [nextReports, hadvance, bind, Except.bind, hobserve, pure, Except.pure]

theorem listening_heed {sim : Simulation γ} {truth : List TruthState} {reports : List SurveillanceReport}
    (hr : after w scenario settings k = .ok r) (h : Listening w scenario settings k r)
    (hnext : nextReports w r = .ok reports) (hheard : Heard scenario (instantAt (k + 1)) reports) :
    Listening w scenario settings (k + 1) (heed w r sim truth (instantAt (k + 1)) reports) := by
  have hlater : instantAt k ≤ instantAt (k + 1) := instantAt_le_instantAt.mpr (Nat.le_succ k)
  have hcutoff : instantAt k - seconds 15 ≤ instantAt (k + 1) - seconds 15 := sub_le_sub_right hlater _
  have hpast : instantAt k - seconds 15 ≤ instantAt (k + 1) :=
    hcutoff.trans (sub_le_self _ (by norm_num [seconds]))
  have hmirrors := h.mirrors.mono hlater
  refine ⟨mirrors_scanNow (mirrors_foldl_hear hmirrors hheard.observedAt hpast) hcutoff, fun icao24 => ?_⟩
  have hget := get?_foldl_hear (w := w) hmirrors hheard.observedAt hpast icao24
  have hnow : ObservedIn w scenario settings icao24 k ↔ icao24 ∈ reports.map SurveillanceReport.icao24 := by
    constructor
    · rintro ⟨r', reports', hr', hreports', hmem⟩
      obtain rfl : r = r' := Except.ok.inj (hr.symm.trans hr')
      rwa [Except.ok.inj (hnext.symm.trans hreports')]
    · exact fun hmem => ⟨r, reports, hr, hnext, hmem⟩
  unfold LastSeenIn
  split_ifs at hget with hmem
  · obtain ⟨record, hrecord, hlast⟩ := hget
    refine .inr ⟨record, k, hrecord, Nat.lt_succ_self k, hnow.mpr hmem, fun i hi hki => ?_, hlast⟩
    exact absurd hki (Nat.not_lt.mpr (Nat.le_of_lt_succ hi))
  · have hunseen : ∀ i < k + 1, i < k ∨ ¬ ObservedIn w scenario settings icao24 i := by
      intro i hi
      rcases Nat.lt_succ_iff_lt_or_eq.mp hi with hi | rfl
      · exact .inl hi
      · exact .inr fun hseen => hmem (hnow.mp hseen)
    rcases h.lastSeen icao24 with ⟨hnone, hnever⟩ | ⟨record, j, hrecord, hj, hseen, hsince, hlast⟩
    · exact .inl ⟨hget.trans hnone, fun i hi => (hunseen i hi).elim (hnever i) id⟩
    · refine .inr ⟨record, j, hget.trans hrecord, hj.trans (Nat.lt_succ_self k), hseen, ?_, hlast⟩
      exact fun i hi hji => (hunseen i hi).elim (fun hi => hsince i hi hji) id

theorem listening_after (h : after w scenario settings k = .ok r) : Listening w scenario settings k r :=
  invariant_of_rounds (I := Listening w scenario settings) listening_init
    (fun k r hr hlistening => by
      obtain ⟨_, sim, reports, hadvance, hobserve, -, -, hheard, htick⟩ := tick_spec (flown_after hr)
      exact ⟨_, htick, listening_heed hr hlistening (nextReports_eq hadvance hobserve) hheard⟩) h

theorem exists_after (w : Surroundings γ) (scenario : Scenario) (settings : ReplaySettings) (k : ℕ) :
    ∃ r, after w scenario settings k = .ok r := by
  have hflown : ∃ r, after w scenario settings k = .ok r ∧ Flown scenario k r.simulation :=
    rounds_invariant (I := fun k (r : Replay γ) => Flown scenario k r.simulation) (flown_init scenario settings)
      fun _ _ _ _ => flown_tick
  obtain ⟨r, hr, -⟩ := hflown
  exact ⟨r, hr⟩

theorem ObservedIn.addressed (h : ObservedIn w scenario settings icao24 k) : icao24 ∈ scenario.addresses := by
  obtain ⟨r, reports, hr, hnext, hmem⟩ := h
  obtain ⟨_, sim, reports', hadvance, hobserve, -, -, hheard, -⟩ := tick_spec (w := w) (flown_after hr)
  obtain rfl : reports = reports' := Except.ok.inj (hnext.symm.trans (nextReports_eq hadvance hobserve))
  obtain ⟨report, hreport, rfl⟩ := List.mem_map.mp hmem
  exact hheard.addressed report hreport

/-- The picture shows an aircraft exactly if it was seen in one of the last sixteen turns. -/
theorem mem_picture_iff (h : Listening w scenario settings k r) : trackIdFor icao24 ∈ r.runner.picture.keys ↔
    ∃ j < k, k ≤ j + 16 ∧ ObservedIn w scenario settings icao24 j := by
  have hrecent : ∀ j, instantAt k - seconds 15 ≤ instantAt (j + 1) ↔ k ≤ j + 16 := by
    intro j
    have hshift : instantAt (j + 1) + seconds 15 = instantAt (j + 16) := by
      simp only [instantAt, seconds]
      push_cast
      ring
    rw [sub_le_iff_le_add, hshift, instantAt_le_instantAt]
  rw [Dict.mem_keys_iff, h.mirrors.shown]
  rcases h.lastSeen icao24 with ⟨hnone, hnever⟩ | ⟨record, j, hrecord, hj, hseen, hsince, hlast⟩
  · rw [hnone]
    exact iff_of_false (fun ⟨_, hu⟩ => nomatch hu) fun ⟨j, hj, _, hseen⟩ => hnever j hj hseen
  · rw [hrecord, Option.bind_some, hlast]
    constructor
    · rintro ⟨u, hu⟩
      split_ifs at hu with hcutoff
      exact ⟨j, hj, (hrecent j).mp hcutoff, hseen⟩
    · rintro ⟨i, hi, hk, hi'⟩
      have hij : i ≤ j := not_lt.mp fun hji => hsince i hi hji hi'
      exact ⟨_, if_pos ((hrecent j).mpr (hk.trans (Nat.add_le_add_right hij 16)))⟩

/-- After every turn of every replay the detector's picture is what the sensor has seen in the last fifteen
    seconds: it lists an aircraft exactly if one of the last sixteen turns observed it, and shows of it what
    the estimator last answered. -/
theorem picture_after (w : Surroundings γ) (scenario : Scenario) (settings : ReplaySettings) (k : ℕ) :
    ∃ r, after w scenario settings k = .ok r ∧
      (∀ trackId ∈ r.runner.picture.keys, ∃ icao24 ∈ scenario.addresses, trackId = trackIdFor icao24) ∧
      ∀ icao24, (trackIdFor icao24 ∈ r.runner.picture.keys ↔
          ∃ j < k, k ≤ j + 16 ∧ ObservedIn w scenario settings icao24 j) ∧
        ∀ u, r.runner.picture.get? (trackIdFor icao24) = some u →
          ∃ record, r.estimator.tracks.get? icao24 = some record ∧ u = latestUpdate record := by
  obtain ⟨r, hr⟩ := exists_after w scenario settings k
  have h := listening_after hr
  refine ⟨r, hr, fun trackId hmem => ?_, fun icao24 => ⟨mem_picture_iff h, fun u hu => ?_⟩⟩
  · obtain ⟨icao24, rfl⟩ := h.mirrors.tracked trackId hmem
    obtain ⟨j, -, -, hseen⟩ := (mem_picture_iff h).mp hmem
    exact ⟨icao24, hseen.addressed, rfl⟩
  · rw [h.mirrors.shown, Option.bind_eq_some_iff] at hu
    obtain ⟨record, hrecord, hu⟩ := hu
    split_ifs at hu
    exact ⟨record, hrecord, (Option.some.inj hu).symm⟩

end Replay

end

end Airspace
