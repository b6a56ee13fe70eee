import Airspace.Conformance.FirstDue
import Airspace.Eval.Equator
import Airspace.Ml.Dataset
import Airspace.Sim.Plan
import Airspace.Sim.Validity

/-! What a sample is labelled with, and what a model makes of it.

    A sample of a run is a stretch of twenty confirmed updates of one aircraft, and its label is the residual
    of the aircraft's exact position one horizon after the last of them; every stretch whose horizon the run
    reaches gives one. Serving undoes the labelling: a model that answers a sample's features with its label
    predicts where the aircraft truly was. -/

namespace Airspace

noncomputable section

open Replay (instantAt)

/-! ### The labels of a run -/

variable {spec : AircraftSpec} {horizonS : ℚ} {window : List TrackUpdate} {current : TrackUpdate}
  {features : List ℝ} {j n : ℕ}

theorem secondOf_eq (h : current.updatedAt = instantAt j) : secondOf current = j := by
  have hspan : totalSeconds (instantAt j - replayStart) = ((j : ℤ) : ℚ) := by
    rw [instantAt, add_sub_cancel_left, seconds, totalSeconds]
    push_cast
    ring
  rw [secondOf, h, hspan, roundHalfEven_intCast]

/-- The horizon in whole seconds. -/
def wholeHorizon (horizonS : ℚ) : ℕ := (roundHalfEven horizonS).toNat

theorem wholeHorizon_eq (h : 0 ≤ horizonS) : roundHalfEven horizonS = wholeHorizon horizonS := by
  have hfloor : (0 : ℤ) ≤ ⌊horizonS⌋ := Int.floor_nonneg.mpr h
  have hround : 0 ≤ roundHalfEven horizonS := by
    unfold roundHalfEven
    split_ifs <;> omega
  rw [wholeHorizon, Int.toNat_of_nonneg hround]

theorem exactPoint_natCast (h1 : 1 ≤ j) (hentry : spec.entryTimeS ≤ j) :
    exactPoint spec n j = if j ≤ n then some (pointOf (exactAt spec j)) else none := by
  have hiff : ((1 : ℤ) ≤ j ∧ (j : ℤ) ≤ n ∧ spec.entryTimeS ≤ ((j : ℤ) : ℚ)) ↔ j ≤ n := by
    rw [Int.cast_natCast]
    constructor
    · rintro ⟨-, h, -⟩
      exact_mod_cast h
    · intro h
      exact ⟨by exact_mod_cast h1, by exact_mod_cast h, hentry⟩
  simp only [exactPoint, hiff, Int.toNat_natCast]

/-- A window gives a sample exactly if the run reaches its horizon, and the sample is exact. -/
theorem sampleAt_exactPoint (scenarioId : String) (hhorizon : 0 ≤ horizonS)
    (hcurrent : window.getLast? = some current) (hextract : extract window = .ok features)
    (hat : current.updatedAt = instantAt j) (h1 : 1 ≤ j) (hj : j ≤ n) (hentry : spec.entryTimeS ≤ j) :
    sampleAt scenarioId horizonS (exactPoint spec n) window =
      if j + wholeHorizon horizonS ≤ n then
        some (sampleOf scenarioId horizonS features current (pointOf (exactAt spec (j + wholeHorizon horizonS)))
          (pointOf (exactAt spec j)))
      else none := by
  have hlater : spec.entryTimeS ≤ ((j + wholeHorizon horizonS : ℕ) : ℚ) := by
    have hmono : (j : ℚ) ≤ ((j + wholeHorizon horizonS : ℕ) : ℚ) := by exact_mod_cast Nat.le_add_right _ _
    exact hentry.trans hmono
  have hanswer := exactPoint_natCast (n := n) (h1.trans (Nat.le_add_right j (wholeHorizon horizonS))) hlater
  have hnow := exactPoint_natCast (n := n) h1 hentry
  rw [if_pos hj] at hnow
  simp only [sampleAt, hcurrent, hextract, secondOf_eq hat, wholeHorizon_eq hhorizon, ← Nat.cast_add, hanswer,
    hnow]
  split_ifs <;> rfl

/-- A stretch of twenty updates with its features, the last of them at second `j`, one horizon before the
    end of a run of `n` seconds at the latest. -/
structure LabelledStretch (updates : List TrackUpdate) (horizonS : ℚ) (n j : ℕ) (window : List TrackUpdate)
    (current : TrackUpdate) (features : List ℝ) : Prop where
  part : window <:+: updates
  length : window.length = windowLength
  last : window.getLast? = some current
  features : extract window = .ok features
  updatedAt : current.updatedAt = instantAt j
  reached : j + wholeHorizon horizonS ≤ n

namespace Gathering

variable {γ : Type} {rng : Random γ} {sha256 : ByteArray → List UInt8} {scenario : Scenario} {g : Gathering γ}

/-- A run along the equator comes back. -/
theorem runScenarioChecked_eastbound (sha256 : ByteArray → List UInt8) (hquiet : Noiseless rng)
    (hadmitted : scenario.Admitted) (heast : scenario.Eastbound) :
    ∃ g, ∀ fuel ≥ ⌈scenario.durationS⌉₊, runScenarioChecked sha256 rng fuel scenario = some (.ok g) := by
  have hstep : ∀ k (g : Gathering γ), Exact scenario k g.simulation ∧ FliesEast g.simulation g.estimator →
      ∃ g', tickChecked rng g = .ok g' ∧ Exact scenario (k + 1) g'.simulation ∧
        FliesEast g'.simulation g'.estimator := by
    rintro k g ⟨hexact, hflies⟩
    obtain ⟨advanced, hadvance, hadvanced⟩ := hexact.advance
    obtain ⟨sim, reports, hobserve, hnext⟩ := hadvanced.observe rng
    obtain ⟨hheard, hnextFlies⟩ := (hflies.advance rng zero_lt_one hadvance).heard hquiet hobserve collect g.history
    obtain ⟨g', hg', hsim, hestimator⟩ := tickChecked_eq hadvance hobserve hheard
    exact ⟨g', hg', hsim ▸ hnext, hsim ▸ hestimator ▸ hnextFlies⟩
  obtain ⟨g, -, -, hloop⟩ := whileNot_of_invariant (n := ⌈scenario.durationS⌉₊)
    (I := fun k (g : Gathering γ) => Exact scenario k g.simulation ∧ FliesEast g.simulation g.estimator)
    ⟨(gathered_init hadmitted.addresses).sim, fliesEast_init sha256 rng hadmitted heast replayStart⟩ hstep
    (fun k hk g h => Bool.eq_false_of_not_eq_true fun hdone =>
      absurd ((Replay.finished_iff h.1.flown).mp hdone) (Nat.not_le.mpr hk))
    (fun g h => (Replay.finished_iff h.1.flown).mpr le_rfl)
  exact ⟨g, hloop⟩

/-- A window of an aircraft's history ends at a second at which the aircraft is there. -/
theorem exists_current (hdistinct : scenario.addresses.Nodup) (h : Gathered scenario n g)
    (hspec : spec ∈ scenario.aircraft) (hwindow : window ∈ windowsOf (listed g.history spec.icao24)) :
    ∃ current features, ∃ j : ℕ, window.getLast? = some current ∧ extract window = .ok features ∧
      current.updatedAt = instantAt j ∧ 1 ≤ j ∧ j ≤ n ∧ spec.entryTimeS ≤ j := by
  obtain ⟨hpart, hlength⟩ := mem_windowsOf.mp hwindow
  obtain ⟨first, current, -, hcurrent, hextract⟩ := exists_extract hlength.ge
  obtain ⟨-, -, spec', hspec', haddress, j, h1, hj, hat, hentry⟩ :=
    h.updates _ current (hpart.subset (List.mem_of_getLast? hcurrent))
  obtain rfl : spec' = spec := List.inj_on_of_nodup_map hdistinct hspec' hspec haddress
  exact ⟨current, _, j, hcurrent, hextract, hat, h1, hj, hentry⟩

/-- The samples of a run are its stretches, labelled with the truth. -/
theorem mem_samplesFrom_iff (hdistinct : scenario.addresses.Nodup) (h : Gathered scenario n g)
    (hhorizon : 0 ≤ horizonS) (sample : Sample) : sample ∈ samplesFrom g horizonS ↔
      ∃ spec ∈ scenario.aircraft, ∃ window current features j,
        LabelledStretch (listed g.history spec.icao24) horizonS n j window current features ∧
          sample = sampleOf scenario.scenarioId horizonS features current
            (pointOf (exactAt spec (j + wholeHorizon horizonS))) (pointOf (exactAt spec j)) := by
  have hid : g.simulation.scenario.scenarioId = scenario.scenarioId := by rw [h.sim.flown.scenario]
  have htruth : ∀ spec ∈ scenario.aircraft, truthAt g.truth spec.icao24 = exactPoint spec n :=
    fun spec hspec => funext (h.truth spec hspec)
  simp only [samplesFrom, List.mem_flatMap, List.mem_filterMap, hid]
  constructor
  · rintro ⟨⟨icao24, updates⟩, hentry, window, hwindow, hsample⟩
    have hlisted : listed g.history icao24 = updates := by rw [listed, Dict.get?_eq_some_iff.mpr hentry]; rfl
    obtain ⟨hpart, hlength⟩ := mem_windowsOf.mp hwindow
    obtain ⟨first, current, -, hcurrent, -⟩ := exists_extract hlength.ge
    obtain ⟨-, -, spec, hspec, haddress, -⟩ :=
      h.updates icao24 current (hlisted ▸ hpart.subset (List.mem_of_getLast? hcurrent))
    subst haddress
    rw [← hlisted] at hpart hwindow
    obtain ⟨current, features, j, hcurrent, hextract, hat, h1, hj, hentry⟩ :=
      exists_current hdistinct h hspec hwindow
    rw [htruth spec hspec, sampleAt_exactPoint _ hhorizon hcurrent hextract hat h1 hj hentry] at hsample
    split_ifs at hsample with hreached
    exact ⟨spec, hspec, window, current, features, j,
      ⟨hpart, hlength, hcurrent, hextract, hat, hreached⟩, (Option.some.inj hsample).symm⟩
  · rintro ⟨spec, hspec, window, current, features, j, hstretch, rfl⟩
    have hwindow := mem_windowsOf.mpr ⟨hstretch.part, hstretch.length⟩
    obtain ⟨current', features', j', hcurrent, hextract, hat, h1, hj, hentry⟩ :=
      exists_current hdistinct h hspec hwindow
    obtain rfl := Option.some.inj (hcurrent.symm.trans hstretch.last)
    obtain rfl := Except.ok.inj (hextract.symm.trans hstretch.features)
    obtain rfl := Replay.instantAt_inj (hat.symm.trans hstretch.updatedAt)
    cases hupdates : g.history.get? spec.icao24 with
    | none =>
      have hpart := hstretch.part
      rw [listed, hupdates] at hpart
      have hlength := hstretch.length
      rw [List.eq_nil_of_infix_nil hpart] at hlength
      cases hlength
    | some updates =>
      have hlisted : listed g.history spec.icao24 = updates := by rw [listed, hupdates]; rfl
      refine ⟨(spec.icao24, updates), Dict.get?_eq_some_iff.mp hupdates, window, hlisted ▸ hwindow, ?_⟩
      rw [htruth spec hspec, sampleAt_exactPoint _ hhorizon hcurrent hextract hat h1 hj hentry,
        if_pos hstretch.reached]

/-- The samples of a run that comes back are exactly the stretches of twenty consecutive updates of one
    aircraft whose horizon the run reaches, each labelled with the residual of where the aircraft truly was one
    horizon later, the horizon in whole seconds. The updates are confirmed and in order. -/
theorem labels_are_the_truth (sha256 : ByteArray → List UInt8) (rng : Random γ) {scenario : Scenario}
    (hdistinct : scenario.addresses.Nodup) {horizonS : ℚ} (hhorizon : 0 ≤ horizonS) {fuel : ℕ} {g : Gathering γ}
    (hreturns : runScenarioChecked sha256 rng fuel scenario = some (.ok g)) :
    (∀ icao24, ((listed g.history icao24).Pairwise fun u v => u.updatedAt < v.updatedAt) ∧
        ∀ u ∈ listed g.history icao24, u.icao24 = icao24 ∧ u.state = .confirmed) ∧
      ∀ sample, sample ∈ samplesFrom g horizonS ↔
        ∃ spec ∈ scenario.aircraft, ∃ window current features j,
          LabelledStretch (listed g.history spec.icao24) horizonS ⌈scenario.durationS⌉₊ j window current features ∧
            sample = sampleOf scenario.scenarioId horizonS features current
              (pointOf (exactAt spec (j + wholeHorizon horizonS))) (pointOf (exactAt spec j)) := by
  obtain ⟨-, hgathered⟩ := gathered_of_checked hdistinct hreturns
  refine ⟨fun icao24 => ⟨hgathered.ordered icao24, fun u hu => ?_⟩,
    mem_samplesFrom_iff hdistinct hgathered hhorizon⟩
  obtain ⟨hicao, hstate, -⟩ := hgathered.updates icao24 u hu
  exact ⟨hicao, hstate⟩

/-- Two aircraft along the equator, and a horizon of two and a half seconds. -/
theorem labels_are_the_truth_east : ∃ g,
    runScenarioChecked ByteArray.toList countingRandom 600 (eastScenario []) = some (.ok g) ∧
    (∀ icao24, ((listed g.history icao24).Pairwise fun u v => u.updatedAt < v.updatedAt) ∧
        ∀ u ∈ listed g.history icao24, u.icao24 = icao24 ∧ u.state = .confirmed) ∧
      ∀ sample, sample ∈ samplesFrom g 2.5 ↔
        ∃ spec ∈ (eastScenario []).aircraft, ∃ window current features j,
          LabelledStretch (listed g.history spec.icao24) 2.5 ⌈(eastScenario []).durationS⌉₊ j window current
              features ∧
            sample = sampleOf (eastScenario []).scenarioId 2.5 features current
              (pointOf (exactAt spec (j + wholeHorizon 2.5))) (pointOf (exactAt spec j)) := by
  have hadmitted := eastScenario_admitted (List.forall_mem_nil Command.Admitted)
  obtain ⟨g, hg⟩ := runScenarioChecked_eastbound ByteArray.toList noiseless_countingRandom hadmitted
    (eastScenario_eastbound (List.forall_mem_nil _))
  have hfuel : ⌈(eastScenario []).durationS⌉₊ ≤ 600 := Nat.ceil_le.mpr (by norm_num [eastScenario])
  exact ⟨g, hg 600 hfuel, labels_are_the_truth ByteArray.toList countingRandom hadmitted.addresses (by norm_num)
    (hg 600 hfuel)⟩

end Gathering

/-! ### A model that answers with the labels -/

theorem sound_exactAt (h : spec.Admitted) (k : ℕ) : Sound (exactAt spec k) := by
  induction k with
  | zero => exact initialTruth_sound h
  | succ k ih => exact stepped_sound ih h.plan zero_lt_one

/-- Places that differ by turns of longitude are no distance apart. -/
theorem haversineNm_wrapLongitude (lat lon : ℝ) : haversineNm lat (wrapLongitude lon) lat lon = 0 := by
  obtain ⟨n, hn⟩ := wrapLongitude_eq_add_turns lon
  have hhalf : radians (lon - wrapLongitude lon) / 2 = ((-n : ℤ) : ℝ) * Real.pi := by
    rw [hn, radians]
    push_cast
    ring
  simp only [haversineNm, sub_self, zero_div, Real.sin_zero, hhalf, Real.sin_int_mul_pi]
  simp

namespace TrajectoryPredictor

variable {p : TrajectoryPredictor} {model : ResidualModel} {rest : List Output}

/-- Serving undoes the labelling: off the poles, a model that answers with the label of a window predicts the
    position and the altitude the label was made of. -/
theorem predict_label {scenarioId : String} {answer atPredictionTime : TruthPoint}
    (hlength : window.length = windowLength) (hlast : window.getLast? = some current)
    (hextract : extract window = .ok features) (hmodel : p.model = some model)
    (hanswer : model.predict [features] = .ok
      ((sampleOf scenarioId p.horizonS features current answer atPredictionTime).target.row :: rest))
    (hbaseline : |(Baselines.deadReckon (Baselines.stateFrom current) p.horizonS).lat| < 90)
    (htruth : |answer.lat| < 90) (haltitude : 0 ≤ answer.altitudeFt) :
    ∃ prediction, p.predict window = some prediction ∧ prediction.source = .model ∧
      haversineNm prediction.lat prediction.lon answer.lat answer.lon < 1e-9 ∧
      prediction.altitudeFt = answer.altitudeFt := by
  have hcorrection : p.correction window =
      some (sampleOf scenarioId p.horizonS features current answer atPredictionTime).target :=
    correction_iff.mpr ⟨model, features, _, rest, hmodel, hlength.ge, hextract, hanswer, Residual.finite_row _⟩
  refine ⟨_, (predict_eq hlast).trans (by rw [hcorrection]), rfl, ?_, ?_⟩
  · set baseline := Baselines.deadReckon (Baselines.stateFrom current) p.horizonS
    change haversineNm (Baselines.applyAlongCross baseline
      (Baselines.alongCrossTrackError baseline answer.lat answer.lon current.trackDeg).1
      (Baselines.alongCrossTrackError baseline answer.lat answer.lon current.trackDeg).2 current.trackDeg).1
      (Baselines.applyAlongCross baseline
      (Baselines.alongCrossTrackError baseline answer.lat answer.lon current.trackDeg).1
      (Baselines.alongCrossTrackError baseline answer.lat answer.lon current.trackDeg).2 current.trackDeg).2
      answer.lat answer.lon < 1e-9
    by_cases hfar : 1e-9 ≤ haversineNm baseline.lat baseline.lon answer.lat answer.lon
    · rw [Baselines.applyAlongCross_alongCrossTrackError (abs_lt.mp hbaseline) (abs_lt.mp htruth) hfar,
        haversineNm_wrapLongitude]
      norm_num
    · have hnear : Baselines.alongCrossTrackError baseline answer.lat answer.lon current.trackDeg = (0, 0) := by
        simp only [Baselines.alongCrossTrackError, if_pos (not_le.mp hfar)]
      rw [hnear, Baselines.applyAlongCross_zero]
      exact not_le.mp hfar
  · change max 0 (_ + (answer.altitudeFt - _)) = answer.altitudeFt
    rw [add_sub_cancel, max_eq_right haltitude]

/-- Training and serving agree. Of every run of an admitted scenario that comes back, and of every sample of
    it: a predictor whose model answers the sample's features with the sample's label predicts, from the window
    the sample was made of, where the aircraft truly was one horizon later, to a billionth of a mile, and its
    exact altitude, as long as neither that place nor the dead-reckoned one is a pole. The truth is looked up
    in whole seconds, so the place is the one after the horizon rounded to a second. -/
theorem labels_are_served_back {γ : Type} (sha256 : ByteArray → List UInt8) (rng : Random γ) {scenario : Scenario}
    (hadmitted : scenario.Admitted) {horizonS : ℚ} (hhorizon : 0 ≤ horizonS) {fuel : ℕ} {g : Gathering γ}
    (hreturns : runScenarioChecked sha256 rng fuel scenario = some (.ok g)) :
    ∀ sample ∈ samplesFrom g horizonS, ∃ spec ∈ scenario.aircraft, ∃ window current j,
      LabelledStretch (listed g.history spec.icao24) horizonS ⌈scenario.durationS⌉₊ j window current sample.features ∧
        ∀ model rest, model.predict [sample.features] = .ok (sample.target.row :: rest) →
          |(Baselines.deadReckon (Baselines.stateFrom current) horizonS).lat| < 90 →
          |(exactAt spec (j + wholeHorizon horizonS)).lat| < 90 →
            ∃ prediction, predict ⟨horizonS, some model⟩ window = some prediction ∧
              prediction.source = .model ∧
              haversineNm prediction.lat prediction.lon (exactAt spec (j + wholeHorizon horizonS)).lat
                (exactAt spec (j + wholeHorizon horizonS)).lon < 1e-9 ∧
              prediction.altitudeFt = (exactAt spec (j + wholeHorizon horizonS)).altitudeFt := by
  obtain ⟨-, hgathered⟩ := Gathering.gathered_of_checked hadmitted.addresses hreturns
  intro sample hsample
  obtain ⟨spec, hspec, window, current, features, j, hstretch, heq⟩ :=
    (Gathering.mem_samplesFrom_iff hadmitted.addresses hgathered hhorizon sample).mp hsample
  have hfeatures : sample.features = features := congrArg Sample.features heq
  rw [hfeatures]
  refine ⟨spec, hspec, window, current, j, hstretch, fun model rest hanswer hbaseline htruth => ?_⟩
  rw [heq] at hanswer
  have haltitude : 0 ≤ (pointOf (exactAt spec (j + wholeHorizon horizonS))).altitudeFt :=
    (sound_exactAt (hadmitted.aircraft spec hspec) _).altitudeFt
  have hserved := predict_label (p := ⟨horizonS, some model⟩) hstretch.length hstretch.last hstretch.features
    rfl hanswer hbaseline
  exact hserved htruth haltitude

/-- Two aircraft along the equator, run for ten minutes. -/
theorem labels_are_served_back_east : ∃ g,
    runScenarioChecked ByteArray.toList countingRandom 600 (eastScenario []) = some (.ok g) ∧
    ∀ sample ∈ samplesFrom g 60, ∃ spec ∈ (eastScenario []).aircraft, ∃ window current j,
      LabelledStretch (listed g.history spec.icao24) 60 ⌈(eastScenario []).durationS⌉₊ j window current
          sample.features ∧
        ∀ model rest, model.predict [sample.features] = .ok (sample.target.row :: rest) →
          |(Baselines.deadReckon (Baselines.stateFrom current) ((60 : ℚ) : ℝ)).lat| < 90 →
          |(exactAt spec (j + wholeHorizon 60)).lat| < 90 →
            ∃ prediction, predict ⟨60, some model⟩ window = some prediction ∧
              prediction.source = .model ∧
              haversineNm prediction.lat prediction.lon (exactAt spec (j + wholeHorizon 60)).lat
                (exactAt spec (j + wholeHorizon 60)).lon < 1e-9 ∧
              prediction.altitudeFt = (exactAt spec (j + wholeHorizon 60)).altitudeFt := by
  have hadmitted := eastScenario_admitted (List.forall_mem_nil Command.Admitted)
  obtain ⟨g, hg⟩ := Gathering.runScenarioChecked_eastbound ByteArray.toList noiseless_countingRandom hadmitted
    (eastScenario_eastbound (List.forall_mem_nil _))
  have hfuel : ⌈(eastScenario []).durationS⌉₊ ≤ 600 := Nat.ceil_le.mpr (by norm_num [eastScenario])
  exact ⟨g, hg 600 hfuel, labels_are_served_back ByteArray.toList countingRandom hadmitted (by norm_num)
    (hg 600 hfuel)⟩

end TrajectoryPredictor

end

end Airspace
