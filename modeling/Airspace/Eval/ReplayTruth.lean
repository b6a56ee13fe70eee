import Airspace.Eval.Equator
import Airspace.Sim.Plan

/-! The truth of a replay is not the sensor's.

    Two simulations of one scenario that differ in the seed, the sensor model and the generator fly the same
    flight: an advance reads neither the noise nor the number of the reports, and an observation changes
    nothing else. So what the detector is scored against is the same under every noise, and under every
    setting of the detector but the two standards that say what a loss of separation is. -/

namespace Airspace

noncomputable section

/-- The scenario under another seed, seen by another sensor. -/
def Scenario.watchedBy (scenario : Scenario) (seed : ℤ) (sensor : SensorModel) : Scenario :=
  { scenario with seed := seed, sensor := sensor }

/-- Two simulations that agree on everything but the sensor's part. -/
structure SameFlight {γ γ' : Type} (a : Simulation γ) (b : Simulation γ') : Prop where
  scenarioId : a.scenario.scenarioId = b.scenario.scenarioId
  startTime : a.startTime = b.startTime
  elapsedS : a.elapsedS = b.elapsedS
  specs : a.specs = b.specs
  state : a.state = b.state

namespace SameFlight

variable {γ γ' : Type} {a : Simulation γ} {b : Simulation γ'} {dtS previousS : ℚ}

theorem now (h : SameFlight a b) : a.now = b.now := by
  unfold Simulation.now
  rw [h.startTime, h.elapsedS]

theorem truth (h : SameFlight a b) : a.truth = b.truth := by
  have hof : a.truthOf = b.truthOf := by
    funext s
    rw [Simulation.truthOf, Simulation.truthOf, h.scenarioId, h.now]
  rw [Simulation.truth, Simulation.truth, h.state, hof]

/-- The loop of an advance keeps two flights the same. -/
theorem foldlM_advanceEntry (h : SameFlight a b) {entries : List (String × AircraftTruth)}
    (hspecs : ∀ e ∈ entries, ∃ spec, a.specs.get? e.1 = some spec) :
    ∃ a' b', entries.foldlM (Simulation.advanceEntry previousS dtS) a = .ok a' ∧
      entries.foldlM (Simulation.advanceEntry previousS dtS) b = .ok b' ∧ SameFlight a' b' := by
  induction entries generalizing a b with
  | nil => exact ⟨a, b, rfl, rfl, h⟩
  | cons entry entries ih =>
    obtain ⟨⟨spec, hspec⟩, hrest⟩ := List.forall_mem_cons.mp hspecs
    rw [List.foldlM_cons, List.foldlM_cons, Simulation.advanceEntry_eq hspec,
      Simulation.advanceEntry_eq (h.specs ▸ hspec)]
    refine ih ⟨h.scenarioId, h.startTime, h.elapsedS, h.specs, ?_⟩ hrest
    rw [h.state, h.elapsedS]

theorem advance (h : SameFlight a b) (ha : a.WellFormed) (hdt : 0 < dtS) :
    ∃ a' b', a.advance dtS = .ok a' ∧ b.advance dtS = .ok b' ∧ SameFlight a' b' := by
  have hmoved : SameFlight { a with elapsedS := a.elapsedS + dtS } { b with elapsedS := b.elapsedS + dtS } :=
    ⟨h.scenarioId, h.startTime, congrArg (· + dtS) h.elapsedS, h.specs, h.state⟩
  unfold Simulation.advance
  rw [if_neg (not_le.mpr hdt), if_neg (not_le.mpr hdt), ← congrArg Dict.items h.state, ← h.elapsedS]
  rw [← h.elapsedS] at hmoved
  exact hmoved.foldlM_advanceEntry fun e he => ha.planned e.1 e.2 (Dict.get?_eq_some_iff.mpr he)

/-- Observations keep two flights the same, whatever they draw. -/
theorem observe (h : SameFlight a b) (rng : Random γ) (rng' : Random γ') {a' : Simulation γ} {b' : Simulation γ'}
    {reports reports' : List SurveillanceReport} (ha : a.WellFormed) (hb : b.WellFormed)
    (hobserve : a.observe rng = .ok (a', reports)) (hobserve' : b.observe rng' = .ok (b', reports')) :
    SameFlight a' b' := by
  obtain ⟨noise, sequence, _, hspec, -⟩ := Simulation.observe_spec rng ha
  obtain ⟨noise', sequence', _, hspec', -⟩ := Simulation.observe_spec rng' hb
  obtain ⟨rfl, -⟩ := Prod.mk.inj (Except.ok.inj (hspec.symm.trans hobserve))
  obtain ⟨rfl, -⟩ := Prod.mk.inj (Except.ok.inj (hspec'.symm.trans hobserve'))
  exact ⟨h.scenarioId, h.startTime, h.elapsedS, h.specs, h.state⟩

end SameFlight

namespace Replay

variable {γ γ' : Type} {w : Surroundings γ} {w' : Surroundings γ'} {scenario scenario' : Scenario} {k : ℕ}

/-- Two replays that saw the same truth. -/
structure SameTruth (scenario scenario' : Scenario) (k : ℕ) (r : Replay γ) (r' : Replay γ') : Prop where
  flown : Flown scenario k r.simulation
  flown' : Flown scenario' k r'.simulation
  flight : SameFlight r.simulation r'.simulation
  finder : r.truthFinder = r'.truthFinder

theorem SameTruth.tick {r : Replay γ} {r' : Replay γ'} (h : SameTruth scenario scenario' k r r') :
    ∃ s s', tick w r = .ok s ∧ tick w' r' = .ok s' ∧ SameTruth scenario scenario' (k + 1) s s' := by
  obtain ⟨advanced, sim, reports, hadvance, hobserve, hmoved, hflown, -, htick⟩ := tick_spec (w := w) h.flown
  obtain ⟨advanced', sim', reports', hadvance', hobserve', hmoved', hflown', -, htick'⟩ :=
    tick_spec (w := w') h.flown'
  obtain ⟨a, b, ha, hb, hsame⟩ := h.flight.advance h.flown.wellFormed (by norm_num [stepS] : 0 < stepS)
  obtain rfl := Except.ok.inj (hadvance.symm.trans ha)
  obtain rfl := Except.ok.inj (hadvance'.symm.trans hb)
  refine ⟨_, _, htick, htick', hflown, hflown', ?_, ?_⟩
  · exact hsame.observe w.rng w'.rng hmoved.wellFormed hmoved'.wellFormed hobserve hobserve'
  · simp only [heed, h.finder, hsame.truth]

/-- What separation was lost in a scenario does not depend on how it was watched: two replays that differ in
    the seed, the sensor model, the generator, the identifiers, the clock and every setting but the two
    standards come back with the same events, if both of them come back. -/
theorem truth_events_do_not_depend_on_the_sensor (w : Surroundings γ) (w' : Surroundings γ') (scenario : Scenario)
    (seed : ℤ) (sensor : SensorModel) (settings settings' : ReplaySettings)
    (hhorizontal : settings.horizontalNm = settings'.horizontalNm)
    (hvertical : settings.verticalFt = settings'.verticalFt) {fuel fuel' : ℕ} {outcome outcome' : ScenarioOutcome}
    (hreturns : replayChecked w fuel scenario settings = some (.ok outcome))
    (hreturns' : replayChecked w' fuel' (scenario.watchedBy seed sensor) settings' = some (.ok outcome')) :
    outcome.truthEvents = outcome'.truthEvents := by
  obtain ⟨r, hr, rfl⟩ := exists_after_of_checked hreturns
  obtain ⟨r', hr', rfl⟩ := exists_after_of_checked hreturns'
  have hstart : SameTruth scenario (scenario.watchedBy seed sensor) 0 (init w scenario settings)
      (init w' (scenario.watchedBy seed sensor) settings') :=
    { flown := flown_init scenario settings
      flown' := flown_init _ settings'
      flight := ⟨rfl, rfl, rfl, rfl, rfl⟩
      finder := by rw [init, init, hhorizontal, hvertical] }
  have hstep : ∀ k (r : Replay γ) (r' : Replay γ'), SameTruth scenario (scenario.watchedBy seed sensor) k r r' →
      ∃ s s', tick w r = .ok s ∧ tick w' r' = .ok s' ∧
        SameTruth scenario (scenario.watchedBy seed sensor) (k + 1) s s' := fun _ _ _ h => h.tick
  obtain ⟨s, s', hs, hs', hsame⟩ := rounds_related hstart hstep ⌈scenario.durationS⌉₊
  obtain rfl := Except.ok.inj (hr.symm.trans hs)
  obtain rfl := Except.ok.inj (hr'.symm.trans hs')
  exact congrArg TruthConflictFinder.events hsame.finder

/-- Two aircraft along the equator: watched by a sensor that loses every report, with a detector that looks two
    minutes ahead, they lose separation as often as with the sensor they have. -/
theorem truth_events_do_not_depend_on_the_sensor_blind :
    let watched := (eastScenario []).watchedBy 7 { dropoutProbability := 1 }
    ∃ outcome outcome',
      replayChecked quiet 600 (eastScenario []) {} = some (.ok outcome) ∧
      replayChecked quiet 600 watched { lookaheadS := 120 } = some (.ok outcome') ∧
      outcome.truthEvents = outcome'.truthEvents := by
  intro watched
  have hadmitted := eastScenario_admitted (List.forall_mem_nil Command.Admitted)
  have hwatched : watched.Admitted :=
    { hadmitted with sensor := by constructor <;> norm_num [watched, Scenario.watchedBy] }
  have heast : (eastScenario []).Eastbound := eastScenario_eastbound (List.forall_mem_nil _)
  have hfuel : ⌈(eastScenario []).durationS⌉₊ ≤ 600 := Nat.ceil_le.mpr (by norm_num [eastScenario])
  obtain ⟨outcome, houtcome⟩ := replayChecked_eastbound (w := quiet) noiseless_countingRandom hadmitted heast
    positive_default
  have hsettings : ({ lookaheadS := 120 } : ReplaySettings).Positive := by constructor <;> norm_num
  have hblind : watched.Eastbound := heast
  obtain ⟨outcome', houtcome'⟩ := replayChecked_eastbound (w := quiet) noiseless_countingRandom hwatched hblind
    hsettings
  exact ⟨outcome, outcome', houtcome 600 hfuel, houtcome' 600 hfuel,
    truth_events_do_not_depend_on_the_sensor quiet quiet (eastScenario []) 7 { dropoutProbability := 1 } {}
      { lookaheadS := 120 } rfl rfl (houtcome 600 hfuel) (houtcome' 600 hfuel)⟩

end Replay

end

end Airspace
