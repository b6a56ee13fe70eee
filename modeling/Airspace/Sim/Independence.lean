import Airspace.Sim.Steps

/-! The other aircraft of a scenario do not show.

    Two simulations are twins at an address when they agree on the clock, the sensor model and what their
    tables hold under the address. Every call keeps twins twins and shows the same of the aircraft in both,
    so whole runs do: the number of draws, the lost reports and the noise are the aircraft's own. -/

namespace Airspace

noncomputable section

namespace Simulation

variable {γ : Type} {a b sim : Simulation γ} {icao24 : String}

/-! ### Runs -/

/-- A call on a simulation. -/
inductive SimCall where
  | advance (dtS : ℚ)
  | observe
  deriving DecidableEq

/-- What a call leaves and what it returns. An advance that is rejected leaves the simulation as it was. -/
def call (rng : Random γ) (sim : Simulation γ) :
    SimCall → Simulation γ × Except SimError (List SurveillanceReport)
  | .advance dtS =>
    match sim.advance dtS with
    | .ok after => (after, .ok [])
    | .error e => (sim, .error e)
  | .observe =>
    match sim.observe rng with
    | .ok (after, reports) => (after, .ok reports)
    | .error e => (sim, .error e)

/-- What a sequence of calls leaves, and what each of them returned. -/
def run (rng : Random γ) (sim : Simulation γ) :
    List SimCall → Simulation γ × List (Except SimError (List SurveillanceReport))
  | [] => (sim, [])
  | c :: calls =>
    let rest := run rng (call rng sim c).1 calls
    (rest.1, (call rng sim c).2 :: rest.2)

/-- What a call returned of one aircraft, the numbers of its reports left out. -/
def ownOutcome (icao24 : String) (outcome : Except SimError (List SurveillanceReport)) :
    Except SimError (List SurveillanceReport) := outcome.map (ownReports icao24)

theorem call_advance {rng : Random γ} {dtS : ℚ} {after : Simulation γ} (h : sim.advance dtS = .ok after) :
    call rng sim (.advance dtS) = (after, .ok []) := by
  rw [call, h]

theorem call_advance_of_not_pos (rng : Random γ) (sim : Simulation γ) {dtS : ℚ} (h : ¬ 0 < dtS) :
    call rng sim (.advance dtS) = (sim, .error (.valueError "dt_s must be positive")) := by
  rw [call, advance_of_not_pos h]

theorem call_observe {rng : Random γ} {after : Simulation γ} {reports : List SurveillanceReport}
    (h : sim.observe rng = .ok (after, reports)) : call rng sim .observe = (after, .ok reports) := by
  rw [call, h]

/-! ### Twins -/

/-- Two simulations that agree on all that one aircraft depends on. -/
structure Twin (icao24 : String) (a b : Simulation γ) : Prop where
  wellFormed : a.WellFormed
  wellFormed' : b.WellFormed
  scenarioId : a.scenario.scenarioId = b.scenario.scenarioId
  sensor : a.scenario.sensor = b.scenario.sensor
  startTime : a.startTime = b.startTime
  elapsedS : a.elapsedS = b.elapsedS
  specs : a.specs.get? icao24 = b.specs.get? icao24
  noise : a.noise.get? icao24 = b.noise.get? icao24
  state : a.state.get? icao24 = b.state.get? icao24
  present : ∃ s, a.state.get? icao24 = some s

theorem Twin.now (h : Twin icao24 a b) : a.now = b.now := by
  unfold Simulation.now
  rw [h.startTime, h.elapsedS]

/-- An advance keeps twins twins. -/
theorem Twin.advance (h : Twin icao24 a b) {dtS : ℚ} (hdt : 0 < dtS) :
    ∃ a' b', a.advance dtS = .ok a' ∧ b.advance dtS = .ok b' ∧ Twin icao24 a' b' := by
  obtain ⟨d, ha, hget⟩ := advance_spec h.wellFormed hdt
  obtain ⟨d', hb, hget'⟩ := advance_spec h.wellFormed' hdt
  obtain ⟨s, hs⟩ := h.present
  obtain ⟨spec, hspec⟩ := h.wellFormed.planned icao24 s hs
  have hstate : d.get? icao24 = some (stepped spec a.elapsedS (a.elapsedS + dtS) dtS s) := by
    rw [hget, hs, hspec]
    rfl
  have hstate' : d'.get? icao24 = d.get? icao24 := by
    rw [hget', hget, ← h.state, ← h.specs, h.elapsedS]
  exact ⟨_, _, ha, hb, {
    wellFormed := advance_wellFormed h.wellFormed ha
    wellFormed' := advance_wellFormed h.wellFormed' hb
    scenarioId := h.scenarioId
    sensor := h.sensor
    startTime := h.startTime
    elapsedS := by rw [h.elapsedS]
    specs := h.specs
    noise := h.noise
    state := hstate'.symm
    present := ⟨_, hstate⟩ }⟩

/-- An observation keeps twins twins and reports the same of the aircraft. -/
theorem Twin.observe (rng : Random γ) (h : Twin icao24 a b) :
    ∃ a' b' reports reports', a.observe rng = .ok (a', reports) ∧ b.observe rng = .ok (b', reports') ∧
      Twin icao24 a' b' ∧ ownReports icao24 reports = ownReports icao24 reports' := by
  obtain ⟨d, sequence, reports, ha, hget, -⟩ := observe_spec rng h.wellFormed
  obtain ⟨d', sequence', reports', hb, hget', -⟩ := observe_spec rng h.wellFormed'
  obtain ⟨s, hs⟩ := h.present
  obtain ⟨noise, hnoise⟩ := h.wellFormed.noisy icao24 s hs
  have hsame : observed rng a s noise = observed rng b s noise :=
    observed_congr rng h.scenarioId h.sensor h.now s noise
  obtain ⟨hdrawn, hreports⟩ := hget icao24 s noise hs hnoise
  obtain ⟨hdrawn', hreports'⟩ := hget' icao24 s noise (h.state ▸ hs) (h.noise ▸ hnoise)
  refine ⟨_, _, reports, reports', ha, hb, ?_, ?_⟩
  · exact {
      wellFormed := observe_wellFormed rng h.wellFormed ha
      wellFormed' := observe_wellFormed rng h.wellFormed' hb
      scenarioId := h.scenarioId
      sensor := h.sensor
      startTime := h.startTime
      elapsedS := h.elapsedS
      specs := h.specs
      noise := by rw [hdrawn, hdrawn', hsame]
      state := h.state
      present := h.present }
  · rw [hreports, hreports', hsame]

/-- A call keeps twins twins and returns the same of the aircraft. -/
theorem Twin.call (rng : Random γ) (h : Twin icao24 a b) (c : SimCall) :
    Twin icao24 (call rng a c).1 (call rng b c).1 ∧
      ownOutcome icao24 (call rng a c).2 = ownOutcome icao24 (call rng b c).2 := by
  cases c with
  | advance dtS =>
    by_cases hdt : 0 < dtS
    · obtain ⟨a', b', ha, hb, htwin⟩ := h.advance hdt
      rw [call_advance ha, call_advance hb]
      exact ⟨htwin, rfl⟩
    · rw [call_advance_of_not_pos rng a hdt, call_advance_of_not_pos rng b hdt]
      exact ⟨h, rfl⟩
  | observe =>
    obtain ⟨a', b', reports, reports', ha, hb, htwin, hreports⟩ := h.observe rng
    rw [call_observe ha, call_observe hb]
    exact ⟨htwin, congrArg Except.ok hreports⟩

theorem Twin.run (rng : Random γ) (h : Twin icao24 a b) (calls : List SimCall) :
    Twin icao24 (run rng a calls).1 (run rng b calls).1 ∧
      (run rng a calls).2.map (ownOutcome icao24) = (run rng b calls).2.map (ownOutcome icao24) := by
  induction calls generalizing a b with
  | nil => exact ⟨h, rfl⟩
  | cons c calls ih =>
    obtain ⟨htwin, hown⟩ := h.call rng c
    obtain ⟨hrest, houtcomes⟩ := ih htwin
    exact ⟨hrest, congrArg₂ List.cons hown houtcomes⟩

/-- The states of an address are its entry. -/
theorem WellFormed.values_filter (h : sim.WellFormed) (icao24 : String) :
    sim.state.values.filter (fun s => s.icao24 = icao24) = (sim.state.get? icao24).toList := by
  have hfilter := Dict.filter_filterMap_values AircraftTruth.icao24
    (fun k s hs s' hs' => Option.some_inj.mp hs' ▸ h.addressed k s hs) icao24
  rwa [List.filterMap_some, Option.bind_fun_some] at hfilter

/-- The truth about one aircraft is read off its own state. -/
theorem truth_filter (h : sim.WellFormed) (icao24 : String) :
    sim.truth.filter (fun t => t.icao24 = icao24) =
      ((sim.state.get? icao24).toList.filter (·.airborne)).map sim.truthOf := by
  rw [← h.values_filter, truth, List.filter_map, List.filter_filter, List.filter_filter]
  congr 1
  exact List.filter_congr fun s _ => Bool.and_comm ..

theorem Twin.truth (h : Twin icao24 a b) : a.truth.filter (fun t => t.icao24 = icao24) =
    b.truth.filter fun t => t.icao24 = icao24 := by
  have hof : a.truthOf = b.truthOf := by
    funext s
    rw [truthOf, truthOf, h.scenarioId, h.now]
  rw [truth_filter h.wellFormed, truth_filter h.wellFormed', h.state, hof]

/-- A scenario and the same one with other aircraft start as twins at an aircraft of both. -/
theorem twin_init (sha256 : ByteArray → List UInt8) (rng : Random γ) {scenario : Scenario}
    {others : List AircraftSpec} {spec : AircraftSpec} (hspec : spec ∈ scenario.aircraft)
    (hkept : spec ∈ others) (hdistinct : scenario.addresses.Nodup)
    (hdistinct' : (others.map AircraftSpec.icao24).Nodup) (startTime : Instant) :
    Twin spec.icao24 (init sha256 rng scenario startTime)
      (init sha256 rng { scenario with aircraft := others } startTime) where
  wellFormed := init_wellFormed ..
  wellFormed' := init_wellFormed ..
  scenarioId := rfl
  sensor := rfl
  startTime := rfl
  elapsedS := rfl
  specs := (get?_collect_of_mem hdistinct hspec _).trans (get?_collect_of_mem hdistinct' hkept _).symm
  noise := (get?_collect_of_mem hdistinct hspec _).trans (get?_collect_of_mem hdistinct' hkept fun spec =>
    rng.seeded (seedFor sha256 scenario.seed spec.icao24)).symm
  state := (get?_collect_of_mem hdistinct hspec _).trans (get?_collect_of_mem hdistinct' hkept _).symm
  present := ⟨_, get?_collect_of_mem hdistinct hspec _⟩

/-- Whatever other aircraft a scenario has, an aircraft's states, the truth about it and its reports are
    the same after the same calls. -/
theorem aircraft_are_independent (sha256 : ByteArray → List UInt8) (rng : Random γ) {scenario : Scenario}
    {others : List AircraftSpec} {spec : AircraftSpec} (hspec : spec ∈ scenario.aircraft)
    (hkept : spec ∈ others) (hdistinct : scenario.addresses.Nodup)
    (hdistinct' : (others.map AircraftSpec.icao24).Nodup) (startTime : Instant) (calls : List SimCall) :
    let one := run rng (init sha256 rng scenario startTime) calls
    let other := run rng (init sha256 rng { scenario with aircraft := others } startTime) calls
    (∃ s, one.1.state.get? spec.icao24 = some s ∧ other.1.state.get? spec.icao24 = some s) ∧
      one.1.truth.filter (fun t => t.icao24 = spec.icao24) =
        other.1.truth.filter (fun t => t.icao24 = spec.icao24) ∧
      one.2.map (ownOutcome spec.icao24) = other.2.map (ownOutcome spec.icao24) := by
  obtain ⟨htwin, houtcomes⟩ := (twin_init sha256 rng hspec hkept hdistinct hdistinct' startTime).run rng calls
  obtain ⟨s, hs⟩ := htwin.present
  exact ⟨⟨s, hs, htwin.state ▸ hs⟩, htwin.truth, houtcomes⟩

/-- A second aircraft, listed first, changes nothing for the one that was there. -/
theorem aircraft_are_independent_of_a_second :
    let first := levelSpec "a1b2c3" "TEST01" [⟨1, .turnTo 90⟩]
    let second := levelSpec "ffffff" "TEST02" []
    let scenario : Scenario := { scenarioId := "level", seed := 1, durationS := 600, aircraft := [first] }
    let calls : List SimCall := [.observe, .advance 1, .observe, .advance 2, .observe]
    let one := run countingRandom (init ByteArray.toList countingRandom scenario 0) calls
    let other := run countingRandom
      (init ByteArray.toList countingRandom { scenario with aircraft := [second, first] } 0) calls
    (∃ s, one.1.state.get? "a1b2c3" = some s ∧ other.1.state.get? "a1b2c3" = some s) ∧
      one.1.truth.filter (fun t => t.icao24 = "a1b2c3") =
        other.1.truth.filter (fun t => t.icao24 = "a1b2c3") ∧
      one.2.map (ownOutcome "a1b2c3") = other.2.map (ownOutcome "a1b2c3") := by
  intro first second scenario calls one other
  have hspec : first ∈ scenario.aircraft := List.mem_singleton.mpr rfl
  have hkept : first ∈ [second, first] := List.mem_cons_of_mem _ (List.mem_singleton.mpr rfl)
  have hdistinct' : ([second, first].map AircraftSpec.icao24).Nodup :=
    (by decide : ["ffffff", "a1b2c3"].Nodup)
  exact aircraft_are_independent ByteArray.toList countingRandom hspec hkept (List.nodup_singleton _)
    hdistinct' 0 calls

end Simulation

end

end Airspace
