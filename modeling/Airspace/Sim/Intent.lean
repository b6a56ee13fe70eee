import Airspace.Sim.Plan
import Airspace.Sim.Independence

/-! What an aircraft is going to do does not show.

    Cutting every plan at a moment changes a simulation that has not passed the moment in nothing but its
    plans: each call up to then returns the same and leaves the same states and generators. So scenarios
    that differ in commands meant for later cannot be told apart before, neither by their reports nor by
    the truth. -/

namespace Airspace

noncomputable section

/-! ### A fold seen through a view -/

/-- A fallible loop whose turns commute with a view of the state commutes with it as a whole. -/
theorem foldlM_view {ε σ τ α : Type*} {inv : σ → Prop} {view : σ → τ} {f : σ → α → Except ε σ}
    {g : τ → α → Except ε τ} (hstep : ∀ s a, inv s → g (view s) a = (f s a).map view)
    (hinv : ∀ s a s', inv s → f s a = .ok s' → inv s') (l : List α) {s : σ} (hs : inv s) :
    l.foldlM g (view s) = (l.foldlM f s).map view := by
  induction l generalizing s with
  | nil => rfl
  | cons a l ih =>
    rw [List.foldlM_cons, List.foldlM_cons, hstep s a hs]
    cases hf : f s a with
    | error e => rfl
    | ok s' => exact ih (hinv s a s' hs hf)

/-! ### Plans cut at a moment -/

/-- The spec without the commands meant for later than `t`. -/
def AircraftSpec.upTo (t : ℚ) (spec : AircraftSpec) : AircraftSpec :=
  { spec with plan := due spec.plan t }

/-- The scenario without the commands meant for later than `t`. -/
def Scenario.upTo (scenario : Scenario) (t : ℚ) : Scenario :=
  { scenario with aircraft := scenario.aircraft.map (AircraftSpec.upTo t) }

/-- A step that ends by `t` fires no command meant for later. -/
theorem fired_due {plan : List Command} {fromS toS t : ℚ} (h : toS ≤ t) :
    fired (due plan t) fromS toS = fired plan fromS toS := by
  rw [fired, due, List.filter_filter]
  refine List.filter_congr fun c _ => ?_
  have himp : c.atS ≤ toS → c.atS ≤ t := fun hc => hc.trans h
  simp only [decide_eq_decide, ← Bool.decide_and]
  constructor
  · rintro ⟨hfrom, -⟩
    exact hfrom
  · rintro ⟨hfrom, hto⟩
    exact ⟨⟨hfrom, hto⟩, himp hto⟩

theorem applyCommands_upTo (s : AircraftTruth) (spec : AircraftSpec) {fromS toS t : ℚ} (h : toS ≤ t) :
    applyCommands s (spec.upTo t) fromS toS = applyCommands s spec fromS toS := by
  rw [applyCommands_eq_foldl, applyCommands_eq_foldl, AircraftSpec.upTo, fired_due h]

namespace Simulation

variable {γ : Type} {sim : Simulation γ} {t : ℚ}

/-- The simulation with its plans cut at `t`. -/
def upTo (t : ℚ) (sim : Simulation γ) : Simulation γ :=
  { sim with scenario := sim.scenario.upTo t, specs := sim.specs.mapValues (AircraftSpec.upTo t) }

theorem truth_upTo (sim : Simulation γ) : (sim.upTo t).truth = sim.truth := rfl

/-- A simulation of the cut scenario is the cut simulation. -/
theorem init_upTo (sha256 : ByteArray → List UInt8) (rng : Random γ) (scenario : Scenario)
    (startTime : Instant) : init sha256 rng (scenario.upTo t) startTime =
      (init sha256 rng scenario startTime).upTo t := by
  have hspecs : Dict.collect (scenario.aircraft.map (AircraftSpec.upTo t)) (·.icao24) id =
      (Dict.collect scenario.aircraft (·.icao24) id).mapValues (AircraftSpec.upTo t) := by
    rw [Dict.mapValues_collect, Dict.collect, List.foldl_map]
    rfl
  simp only [init, upTo, Scenario.upTo, Simulation.mk.injEq, true_and]
  refine ⟨hspecs, ?_, ?_⟩
  · rw [Dict.collect, Dict.collect, List.foldl_map]
    rfl
  · rw [Dict.collect, Dict.collect, List.foldl_map]
    rfl

/-! ### The calls -/

/-- A turn of the loop of `advance` up to `t` does not read the commands meant for later. -/
theorem advanceEntry_upTo {previousS dtS : ℚ} (h : sim.elapsedS ≤ t) (entry : String × AircraftTruth) :
    advanceEntry previousS dtS (sim.upTo t) entry = (advanceEntry previousS dtS sim entry).map (upTo t) := by
  have hspecs : (sim.upTo t).specs.get? entry.1 = (sim.specs.get? entry.1).map (AircraftSpec.upTo t) :=
    Dict.get?_mapValues ..
  cases hspec : sim.specs.get? entry.1 with
  | none =>
    rw [hspec] at hspecs
    rw [advanceEntry, advanceEntry, getItem, getItem, hspecs, hspec]
    rfl
  | some spec =>
    rw [hspec] at hspecs
    have hstepped : stepped (spec.upTo t) previousS sim.elapsedS dtS entry.2 =
        stepped spec previousS sim.elapsedS dtS entry.2 := by
      rw [stepped, stepped, applyCommands_upTo entry.2 spec h]
      rfl
    rw [advanceEntry_eq hspecs, advanceEntry_eq hspec, show (sim.upTo t).elapsedS = sim.elapsedS from rfl,
      hstepped]
    rfl

/-- A turn of the loop of `advance` does not move the clock. -/
theorem advanceEntry_elapsedS {previousS dtS : ℚ} {entry : String × AircraftTruth} {sim' : Simulation γ}
    (h : advanceEntry previousS dtS sim entry = .ok sim') : sim'.elapsedS = sim.elapsedS := by
  cases hspec : sim.specs.get? entry.1 with
  | none =>
    rw [advanceEntry, getItem, hspec] at h
    cases h
  | some spec =>
    rw [advanceEntry_eq hspec] at h
    rw [← Except.ok.inj h]

theorem advance_upTo {dtS : ℚ} (h : sim.elapsedS + dtS ≤ t) :
    (sim.upTo t).advance dtS = (sim.advance dtS).map (upTo t) := by
  unfold advance
  split_ifs with hdt
  · rfl
  · have hclock : ({ sim with elapsedS := sim.elapsedS + dtS } : Simulation γ).elapsedS ≤ t := h
    exact foldlM_view (fun s entry hs => advanceEntry_upTo hs entry)
      (fun s entry s' hs hstep => (advanceEntry_elapsedS hstep).trans_le hs) _ hclock

/-- What a turn of the loop of `observe` makes of an airborne aircraft. -/
theorem observeEntry_of_airborne (rng : Random γ) (reports : List SurveillanceReport) {s : AircraftTruth}
    {noise : γ} (hair : s.airborne = true) (hnoise : sim.noise.get? s.icao24 = some noise) :
    observeEntry rng (sim, reports) s =
      if (rng.random noise).1 < sim.scenario.sensor.dropoutProbability then
        .ok ({ sim with noise := sim.noise.set s.icao24 (rng.random noise).2 }, reports)
      else
        let drawn := observeOne rng sim s (rng.random noise).2
        .ok ({ drawn.2.1 with noise := drawn.2.1.noise.set s.icao24 drawn.2.2 }, reports ++ [drawn.1]) := by
  rw [observeEntry, hair, getItem_of_get? hnoise]
  rfl

/-- An observation does not read the plans at all. -/
theorem observe_upTo (rng : Random γ) (sim : Simulation γ) :
    (sim.upTo t).observe rng = (sim.observe rng).map fun out => (out.1.upTo t, out.2) := by
  have hturn : ∀ (out : Simulation γ × List SurveillanceReport) (s : AircraftTruth), True →
      observeEntry rng (out.1.upTo t, out.2) s =
        (observeEntry rng out s).map fun out => (out.1.upTo t, out.2) := by
    rintro ⟨sim, reports⟩ s -
    cases hair : s.airborne with
    | false =>
      rw [observeEntry, observeEntry, hair]
      rfl
    | true =>
      cases hnoise : sim.noise.get? s.icao24 with
      | none =>
        have hnoise' : (sim.upTo t).noise.get? s.icao24 = none := hnoise
        rw [observeEntry, observeEntry, hair, getItem, getItem, hnoise, hnoise']
        rfl
      | some noise =>
        have hnoise' : (sim.upTo t).noise.get? s.icao24 = some noise := hnoise
        have hsensor : (sim.upTo t).scenario.sensor = sim.scenario.sensor := rfl
        rw [observeEntry_of_airborne rng reports hair hnoise, observeEntry_of_airborne rng reports hair hnoise',
          hsensor]
        split_ifs <;> rfl
  exact foldlM_view (s := (sim, [])) hturn (fun _ _ _ _ _ => trivial) _ trivial

/-! ### The clock of a run -/

/-- How far a call moves the clock; a rejected step does not move it. -/
def SimCall.stepS : SimCall → ℚ
  | .advance dtS => max 0 dtS
  | .observe => 0

theorem SimCall.stepS_nonneg (c : SimCall) : 0 ≤ c.stepS := by
  cases c with
  | advance dtS => exact le_max_left _ _
  | observe => exact le_refl _

theorem call_wellFormed (rng : Random γ) (h : sim.WellFormed) (c : SimCall) :
    (call rng sim c).1.WellFormed ∧ (call rng sim c).1.elapsedS = sim.elapsedS + c.stepS := by
  cases c with
  | advance dtS =>
    by_cases hdt : 0 < dtS
    · obtain ⟨d, hd, -⟩ := advance_spec h hdt
      rw [call_advance hd, SimCall.stepS, max_eq_right hdt.le]
      exact ⟨advance_wellFormed h hd, rfl⟩
    · rw [call_advance_of_not_pos rng sim hdt, SimCall.stepS, max_eq_left (not_lt.mp hdt), add_zero]
      exact ⟨h, rfl⟩
  | observe =>
    obtain ⟨d, sequence, new, hd, -⟩ := observe_spec rng h
    rw [call_observe hd, SimCall.stepS, add_zero]
    exact ⟨observe_wellFormed rng h hd, rfl⟩

/-! ### Runs -/

/-- A call that does not pass `t` returns the same of the cut simulation, and leaves it cut. -/
theorem call_upTo (rng : Random γ) {c : SimCall} (h : sim.elapsedS + c.stepS ≤ t) :
    call rng (sim.upTo t) c = ((call rng sim c).1.upTo t, (call rng sim c).2) := by
  cases c with
  | advance dtS =>
    have hdt : sim.elapsedS + dtS ≤ t := le_trans (add_le_add_right (le_max_right 0 dtS) _) h
    rw [call, call, advance_upTo hdt]
    cases sim.advance dtS <;> rfl
  | observe =>
    rw [call, call, observe_upTo]
    cases sim.observe rng <;> rfl

theorem run_upTo (rng : Random γ) (hwell : sim.WellFormed) {calls : List SimCall}
    (h : sim.elapsedS + (calls.map SimCall.stepS).sum ≤ t) :
    run rng (sim.upTo t) calls = ((run rng sim calls).1.upTo t, (run rng sim calls).2) := by
  induction calls generalizing sim with
  | nil => rfl
  | cons c calls ih =>
    obtain ⟨hwell', helapsed⟩ := call_wellFormed rng hwell c
    rw [List.map_cons, List.sum_cons, ← add_assoc] at h
    have hrest : 0 ≤ (calls.map SimCall.stepS).sum := by
      refine List.sum_nonneg ?_
      simp only [List.forall_mem_map]
      exact fun c _ => c.stepS_nonneg
    have hfirst : sim.elapsedS + c.stepS ≤ t := by linarith
    have hcall := call_upTo rng hfirst
    rw [run, run, hcall, ih hwell' (by rw [helapsed]; exact h)]

/-- Scenarios that differ in commands meant for later than `t` show the same up to `t`: the same reports
    and errors of every call, the same states and the same truth. -/
theorem intent_does_not_show (sha256 : ByteArray → List UInt8) (rng : Random γ) {scenario other : Scenario}
    (hsame : scenario.upTo t = other.upTo t) (startTime : Instant) {calls : List SimCall}
    (hclock : (calls.map SimCall.stepS).sum ≤ t) :
    let one := run rng (init sha256 rng scenario startTime) calls
    let another := run rng (init sha256 rng other startTime) calls
    one.2 = another.2 ∧ one.1.state = another.1.state ∧ one.1.noise = another.1.noise ∧
      one.1.truth = another.1.truth := by
  have hcut : ∀ scenario : Scenario, run rng (init sha256 rng (scenario.upTo t) startTime) calls =
      ((run rng (init sha256 rng scenario startTime) calls).1.upTo t,
        (run rng (init sha256 rng scenario startTime) calls).2) := by
    intro scenario
    rw [init_upTo, run_upTo rng (init_wellFormed sha256 rng scenario startTime)]
    exact (zero_add _).trans_le hclock
  obtain ⟨hsim, houtcomes⟩ := Prod.mk.inj ((hcut scenario).symm.trans (hsame ▸ hcut other))
  have hstate := congrArg Simulation.state hsim
  have hnoise := congrArg Simulation.noise hsim
  have htruth := congrArg Simulation.truth hsim
  rw [truth_upTo, truth_upTo] at htruth
  exact ⟨houtcomes, hstate, hnoise, htruth⟩

/-- A turn planned for the second minute does not show in the first. -/
theorem intent_does_not_show_before_a_turn :
    let calls : List SimCall := [.observe, .advance 30, .observe, .advance 29.5, .observe]
    let one := run countingRandom (init ByteArray.toList countingRandom (levelScenario [⟨60, .turnTo 90⟩]) 0) calls
    let another := run countingRandom (init ByteArray.toList countingRandom (levelScenario []) 0) calls
    one.2 = another.2 ∧ one.1.state = another.1.state ∧ one.1.noise = another.1.noise ∧
      one.1.truth = another.1.truth := by
  have hlater : due [⟨60, .turnTo 90⟩] 59.5 = [] := by
    rw [due, List.filter_cons_of_neg (by norm_num), List.filter_nil]
  have hsame : (levelScenario [⟨60, .turnTo 90⟩]).upTo 59.5 = (levelScenario []).upTo 59.5 := by
    simp only [Scenario.upTo, levelScenario, List.map_cons, AircraftSpec.upTo, levelSpec, hlater]
    rfl
  refine intent_does_not_show ByteArray.toList countingRandom hsame 0 ?_
  norm_num [SimCall.stepS]

end Simulation

end

end Airspace
