import Airspace.Eval.CheckedReplay
import Airspace.Sim.Validity
import Airspace.Track.Equator

/-! Runs along the equator.

    An aircraft that starts on the equator heading east and is never told to turn stays there, so with a
    generator that adds no noise its reports are those of an aircraft on the equator, and the estimator answers
    all of them. A run through the pipeline then ends only with its scenario. -/

namespace Airspace

noncomputable section

open TrackEstimator (OfEquator)

/-! ### The aircraft -/

/-- On the equator, heading east and going to. -/
structure Eastbound (s : AircraftTruth) : Prop where
  lat : s.lat = 0
  trackDeg : s.trackDeg = 90
  targetTrackDeg : s.targetTrackDeg = 90
  turnRateDegS : 0 ≤ s.turnRateDegS

/-- No command of the plan is a turn. -/
def KeepsHeading (plan : List Command) : Prop := ∀ c ∈ plan, c.kind ≠ .turnTo

/-- Every aircraft of the scenario starts on the equator heading east, and is not told to turn. -/
def Scenario.Eastbound (scenario : Scenario) : Prop := ∀ spec ∈ scenario.aircraft,
  spec.initial.lat = 0 ∧ spec.initial.trackDeg = 90 ∧ KeepsHeading spec.plan

/-- The generator adds no noise. -/
def Noiseless {γ : Type} (rng : Random γ) : Prop := ∀ mu sigma noise, (rng.gauss mu sigma noise).1 = mu

theorem noiseless_countingRandom : Noiseless countingRandom := fun _ _ _ => rfl

variable {s : AircraftTruth} {spec : AircraftSpec}

theorem eastbound_initialTruth (hlat : spec.initial.lat = 0) (htrack : spec.initial.trackDeg = 90) :
    Eastbound (initialTruth spec) := ⟨hlat, htrack, htrack, by norm_num [initialTruth]⟩

theorem eastbound_foldl_applyCommand {commands : List Command} (h : Eastbound s) (hplan : KeepsHeading commands) :
    Eastbound (commands.foldl applyCommand s) := by
  induction commands generalizing s with
  | nil => exact h
  | cons c commands ih =>
    obtain ⟨hturn, hrest⟩ := List.forall_mem_cons.mp hplan
    refine ih ?_ hrest
    obtain ⟨atS, action⟩ := c
    cases action with
    | turnTo heading rate => exact absurd rfl hturn
    | climbTo altitude rate => exact { h with }
    | changeSpeed speed acceleration => exact { h with }
    | setSquawk code => exact { h with }

/-- A distance flown east along the equator ends on it. -/
theorem lat_projectForward_east (lon speed seconds : ℝ) : (projectForward 0 lon 90 speed seconds).1 = 0 := by
  have hzero : radians 0 = 0 := by simp [radians]
  simp [projectForward, destinationPoint, radians_ninety, hzero, degrees]

theorem normalizeBearing_east : normalizeBearing 90 = 90 := by
  have hfloor : ⌊(90 : ℝ) / 360⌋ = 0 := by
    rw [Int.floor_eq_zero_iff]
    constructor <;> norm_num
  simp only [normalizeBearing, pyMod, hfloor]
  norm_num

theorem eastbound_advanceAircraft (h : Eastbound s) {dtS : ℝ} (hdt : 0 ≤ dtS) (airborne : Bool) :
    Eastbound (advanceAircraft s dtS airborne) := by
  have hstraight : bearingDifferenceDeg 90 90 = 0 :=
    bearingDifferenceDeg_eq (n := 0) (by norm_num) (by norm_num)
  have hturn : copysign (min |bearingDifferenceDeg s.trackDeg s.targetTrackDeg| (s.turnRateDegS * dtS))
      (bearingDifferenceDeg s.trackDeg s.targetTrackDeg) = 0 := by
    rw [h.trackDeg, h.targetTrackDeg, hstraight, abs_zero, min_eq_left (mul_nonneg h.turnRateDegS hdt)]
    simp [copysign]
  cases airborne with
  | false => exact { h with }
  | true =>
    simp only [advanceAircraft, Bool.not_true, Bool.false_eq_true, if_false, hturn]
    refine ⟨?_, ?_, h.targetTrackDeg, h.turnRateDegS⟩
    · rw [h.lat, h.trackDeg, zero_div, add_zero, normalizeBearing_east, lat_projectForward_east]
    · rw [h.trackDeg, add_zero, normalizeBearing_east]

theorem eastbound_stepped (h : Eastbound s) (hplan : KeepsHeading spec.plan) {fromS toS dtS : ℚ} (hdt : 0 < dtS) :
    Eastbound (stepped spec fromS toS dtS s) := by
  rw [stepped, applyCommands_eq_foldl]
  refine eastbound_advanceAircraft (eastbound_foldl_applyCommand h fun c hc => ?_) (by exact_mod_cast hdt.le) _
  exact hplan c (List.mem_filter.mp hc).1

/-! ### A turn -/

/-- A valid simulation of aircraft along the equator, and an estimator that tracks nothing else. -/
structure FliesEast {γ : Type} (sim : Simulation γ) (e : TrackEstimator) : Prop where
  valid : sim.Valid
  states : ∀ k s, sim.state.get? k = some s → Eastbound s
  plans : ∀ k spec, sim.specs.get? k = some spec → KeepsHeading spec.plan
  tracks : e.AlongEquator

section

variable {γ : Type} {rng : Random γ} {sim advanced sim' : Simulation γ} {e : TrackEstimator} {dtS : ℚ}
  {reports : List SurveillanceReport}

theorem fliesEast_init (sha256 : ByteArray → List UInt8) (rng : Random γ) {scenario : Scenario}
    (hadmitted : scenario.Admitted) (heast : scenario.Eastbound) (startTime : Instant) :
    FliesEast (Simulation.init sha256 rng scenario startTime) {} where
  valid := Simulation.init_valid rng sha256 hadmitted startTime
  states k s hs := by
    rw [Simulation.init, Dict.get?_collect] at hs
    obtain ⟨spec, hspec, rfl⟩ := Option.map_eq_some_iff.mp hs
    obtain ⟨hlat, htrack, -⟩ := heast spec (List.mem_filter.mp (List.mem_of_getLast? hspec)).1
    exact eastbound_initialTruth hlat htrack
  plans k spec hspec := by
    rw [Simulation.init, Dict.get?_collect] at hspec
    obtain ⟨own, hown, rfl⟩ := Option.map_eq_some_iff.mp hspec
    exact (heast own (List.mem_filter.mp (List.mem_of_getLast? hown)).1).2.2
  tracks := TrackEstimator.alongEquator_empty rfl TrackFilter.positive_default

theorem FliesEast.advance (rng : Random γ) (h : FliesEast sim e) (hdt : 0 < dtS)
    (hadvance : sim.advance dtS = .ok advanced) :
    FliesEast advanced e := by
  obtain ⟨d, hd, hget⟩ := Simulation.advance_spec h.valid.toWellFormed hdt
  have hvalid := (Simulation.call_valid rng h.valid (.advance dtS)).1
  rw [Simulation.call_advance hadvance] at hvalid
  obtain rfl := Except.ok.inj (hd.symm.trans hadvance)
  refine ⟨hvalid, fun k s hs => ?_, h.plans, h.tracks⟩
  obtain ⟨s', hs', hstep⟩ := Option.bind_eq_some_iff.mp ((hget k).symm.trans hs)
  obtain ⟨spec, hspec, rfl⟩ := Option.map_eq_some_iff.mp hstep
  exact eastbound_stepped (h.states k s' hs') (h.plans k spec hspec) hdt

/-- What is observed of it are reports of the equator. -/
theorem FliesEast.ofEquator (hquiet : Noiseless rng) (h : FliesEast sim e)
    (hobserve : sim.observe rng = .ok (sim', reports)) : ∀ r ∈ reports, OfEquator r := by
  intro r hr
  have hadmitted := (Simulation.call_valid rng h.valid .observe).2 reports
    (congrArg Prod.snd (Simulation.call_observe hobserve)) r hr
  obtain ⟨s, noise, hs, hsame⟩ := Simulation.exists_observeOne rng h.valid.toWellFormed hobserve hr
  have heast := h.states _ s hs
  refine ⟨hadmitted, (congrArg SurveillanceReport.lat hsame).trans ?_,
    (congrArg SurveillanceReport.trackDeg hsame).trans ?_⟩
  · change Simulation.clamp (s.lat + (rng.gauss 0 _ noise).1 * degreesPerMetre) (-90) 90 = 0
    rw [hquiet, heast.lat]
    simp [Simulation.clamp]
  · change some (normalizeBearing (s.trackDeg + (rng.gauss 0 _ _).1)) = some 90
    rw [hquiet, heast.trackDeg, add_zero, normalizeBearing_east]

/-- All of them are answered. -/
theorem FliesEast.heard (hquiet : Noiseless rng) (h : FliesEast sim e)
    (hobserve : sim.observe rng = .ok (sim', reports)) {α : Type} (listen : α → TrackUpdate → α) (a : α) :
    reports.foldlM (answeringChecked listen) (e, a) = .ok (reports.foldl (answering listen) (e, a)) ∧
      FliesEast sim' (reports.foldl (answering listen) (e, a)).1 := by
  have hstart : (e, a).1.AlongEquator := h.tracks
  have hanswered : reports.foldlM (answeringChecked listen) (e, a) =
      .ok (reports.foldl (answering listen) (e, a)) ∧ (reports.foldl (answering listen) (e, a)).1.AlongEquator :=
    foldlM_answeringChecked_of_invariant (fun _ _ => TrackEstimator.answered_alongEquator) hstart
      (h.ofEquator hquiet hobserve)
  have hvalid := (Simulation.call_valid rng h.valid .observe).1
  rw [Simulation.call_observe hobserve] at hvalid
  obtain ⟨d, sequence, new, hd, -, -⟩ := Simulation.observe_spec rng h.valid.toWellFormed
  obtain ⟨rfl, rfl⟩ := Prod.mk.inj (Except.ok.inj (hd.symm.trans hobserve))
  exact ⟨hanswered.1, hvalid, h.states, h.plans, hanswered.2⟩

end

/-! ### A replay -/

/-- Settings with which a scan cannot raise. -/
structure ReplaySettings.Positive (settings : ReplaySettings) : Prop where
  lookaheadS : 0 < settings.lookaheadS
  horizontalNm : 0 < settings.horizontalNm
  verticalFt : 0 < settings.verticalFt

namespace Replay

variable {γ : Type} {w : Surroundings γ} {scenario : Scenario} {settings : ReplaySettings}

/-- A replay along the equator comes back. -/
theorem replayChecked_eastbound (hquiet : Noiseless w.rng) (hadmitted : scenario.Admitted)
    (heast : scenario.Eastbound) (hsettings : settings.Positive) :
    ∃ outcome, ∀ fuel ≥ ⌈scenario.durationS⌉₊, replayChecked w fuel scenario settings = some (.ok outcome) := by
  have hstep : ∀ k (r : Replay γ), Flown scenario k r.simulation ∧ FliesEast r.simulation r.estimator ∧
      r.runner.monitor = (init w scenario settings).runner.monitor →
      ∃ r', tickChecked w r = .ok r' ∧ Flown scenario (k + 1) r'.simulation ∧
        FliesEast r'.simulation r'.estimator ∧ r'.runner.monitor = (init w scenario settings).runner.monitor := by
    rintro k r ⟨hflown, hflies, hmonitor⟩
    obtain ⟨advanced, sim, reports, hadvance, hobserve, -, hnext, -⟩ := tick_spec (w := w) hflown
    have hadvanced := hflies.advance w.rng (by norm_num [stepS]) hadvance
    obtain ⟨hheard, hnextFlies⟩ := hadvanced.heard hquiet hobserve (absorbing w) r.runner
    have hkept := (monitor_foldl_absorbing w reports (r.estimator, r.runner)).trans hmonitor
    have hscan : scanFault (reports.foldl (answering (absorbing w)) (r.estimator, r.runner)).2.monitor
        ((reports.foldl (answering (absorbing w)) (r.estimator, r.runner)).2.pruned
          advanced.now).picture.values = none := by
      rw [hkept]
      exact scanFault_eq_none hsettings.lookaheadS hsettings.horizontalNm hsettings.verticalFt _
    obtain ⟨r', hr', hsim, hestimator, hrunner⟩ := tickChecked_eq hadvance hobserve hheard hscan
    exact ⟨r', hr', hsim ▸ hnext, hsim ▸ hestimator ▸ hnextFlies, hrunner.trans hkept⟩
  obtain ⟨r, -, -, hloop⟩ := whileNot_of_invariant (I := fun k (r : Replay γ) =>
      Flown scenario k r.simulation ∧ FliesEast r.simulation r.estimator ∧
      r.runner.monitor = (init w scenario settings).runner.monitor)
    ⟨flown_init scenario settings, fliesEast_init w.sha256 w.rng hadmitted heast replayStart, rfl⟩ hstep
    (fun k hk r h => Bool.eq_false_of_not_eq_true fun hdone =>
      absurd ((finished_iff h.1).mp hdone) (Nat.not_le.mpr hk))
    (fun r h => (finished_iff h.1).mpr le_rfl)
  exact ⟨score r.outcome, fun fuel hfuel => by rw [replayChecked, hloop fuel hfuel]; rfl⟩

end Replay

/-! ### Two aircraft -/

/-- An aircraft in level flight east along the equator. -/
def eastSpec (icao24 callsign : String) (plan : List Command) : AircraftSpec where
  icao24 := icao24
  callsign := callsign
  initial := { lat := 0, lon := 0, altitudeFt := 10000, groundSpeedKt := 200, trackDeg := 90 }
  plan := plan

/-- Two aircraft on one course. -/
def eastScenario (plan : List Command) : Scenario where
  scenarioId := "east"
  seed := 1
  durationS := 600
  aircraft := [eastSpec "a1b2c3" "TEST01" plan, eastSpec "d4e5f6" "TEST02" plan]

theorem eastScenario_admitted {plan : List Command} (h : ∀ c ∈ plan, c.Admitted) :
    (eastScenario plan).Admitted where
  scenarioId := (by decide : isScenarioId "east" = true)
  durationS := by norm_num [eastScenario]
  sensor := by constructor <;> norm_num [eastScenario]
  aircraft := by
    have hone : ∀ icao24 callsign, isIcao24 icao24 → 1 ≤ callsign.length ∧ callsign.length ≤ 8 →
        (eastSpec icao24 callsign plan).Admitted := by
      intro icao24 callsign hicao hcallsign
      refine ⟨hicao, hcallsign, ?_, by simp [eastSpec], by simp [eastSpec], h⟩
      constructor <;> norm_num [eastSpec]
    exact List.forall_mem_cons.mpr ⟨hone "a1b2c3" "TEST01" (by decide) (by decide),
      List.forall_mem_singleton.mpr (hone "d4e5f6" "TEST02" (by decide) (by decide))⟩
  nonempty := List.cons_ne_nil _ _
  addresses := (by decide : ["a1b2c3", "d4e5f6"].Nodup)
  callsigns := (by decide : ["TEST01", "TEST02"].Nodup)
  entry := List.forall_mem_cons.mpr ⟨by norm_num [eastSpec, eastScenario],
    List.forall_mem_singleton.mpr (by norm_num [eastSpec, eastScenario])⟩

theorem eastScenario_eastbound {plan : List Command} (h : KeepsHeading plan) : (eastScenario plan).Eastbound :=
  List.forall_mem_cons.mpr ⟨⟨rfl, rfl, h⟩, List.forall_mem_singleton.mpr ⟨rfl, rfl, h⟩⟩

/-- What an evaluation is run with by default. -/
theorem positive_default : ({} : ReplaySettings).Positive := by constructor <;> norm_num

/-- Surroundings in which the noise is none. -/
def quiet : Surroundings ℕ := ⟨fun _ => [], countingRandom, fun n => toString n, fun _ => 0⟩

end

end Airspace
