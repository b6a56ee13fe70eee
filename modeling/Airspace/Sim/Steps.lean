import Airspace.Sim.Engine

/-! What one call of the simulation does to one aircraft.

    The tables of a simulation list the same aircraft, so no lookup of a loop fails. An advance makes of each
    aircraft what its own state and spec say; an observation makes of each aircraft what its own state and
    generator say, up to the number of its report. -/

namespace Airspace

noncomputable section

/-! ### One aircraft -/

theorem applyCommand_icao24 (s : AircraftTruth) (c : Command) : (applyCommand s c).icao24 = s.icao24 := by
  unfold applyCommand
  cases c.action <;> rfl

/-- The commands whose time fell inside `(fromS, toS]`, as the plan lists them. -/
def fired (plan : List Command) (fromS toS : ℚ) : List Command :=
  plan.filter fun c => fromS < c.atS ∧ c.atS ≤ toS

theorem applyCommands_eq_foldl (s : AircraftTruth) (spec : AircraftSpec) (fromS toS : ℚ) :
    applyCommands s spec fromS toS = (fired spec.plan fromS toS).foldl applyCommand s := by
  rw [fired, List.foldl_filter]
  simp only [applyCommands, decide_eq_true_eq]

theorem foldl_applyCommand_icao24 (s : AircraftTruth) (commands : List Command) :
    (commands.foldl applyCommand s).icao24 = s.icao24 := by
  induction commands generalizing s with
  | nil => rfl
  | cons c commands ih => rw [List.foldl_cons, ih, applyCommand_icao24]

/-- Flying leaves the identity, the code and the autopilot alone. -/
theorem advanceAircraft_frame (s : AircraftTruth) (dt : ℝ) (airborne : Bool) :
    (advanceAircraft s dt airborne).icao24 = s.icao24 ∧ (advanceAircraft s dt airborne).squawk = s.squawk ∧
      (advanceAircraft s dt airborne).targetTrackDeg = s.targetTrackDeg ∧
      (advanceAircraft s dt airborne).turnRateDegS = s.turnRateDegS ∧
      (advanceAircraft s dt airborne).targetAltitudeFt = s.targetAltitudeFt ∧
      (advanceAircraft s dt airborne).climbRateFpm = s.climbRateFpm ∧
      (advanceAircraft s dt airborne).targetSpeedKt = s.targetSpeedKt ∧
      (advanceAircraft s dt airborne).accelerationKtS = s.accelerationKtS := by
  unfold advanceAircraft
  cases airborne <;> exact ⟨rfl, rfl, rfl, rfl, rfl, rfl, rfl, rfl⟩

/-- What a step from `fromS` to `toS` makes of one aircraft. -/
def stepped (spec : AircraftSpec) (fromS toS dtS : ℚ) (s : AircraftTruth) : AircraftTruth :=
  advanceAircraft (applyCommands s spec fromS toS) dtS (spec.entryTimeS ≤ toS)

theorem stepped_icao24 (spec : AircraftSpec) (fromS toS dtS : ℚ) (s : AircraftTruth) :
    (stepped spec fromS toS dtS s).icao24 = s.icao24 := by
  rw [stepped, (advanceAircraft_frame _ _ _).1, applyCommands_eq_foldl, foldl_applyCommand_icao24]

/-- What a sequence of steps makes of one aircraft, from the clock the first one starts at. -/
def flown (spec : AircraftSpec) : ℚ → List ℚ → AircraftTruth → AircraftTruth
  | _, [], s => s
  | elapsedS, dtS :: dts, s =>
    flown spec (elapsedS + dtS) dts (stepped spec elapsedS (elapsedS + dtS) dtS s)

namespace Simulation

variable {γ : Type} {sim : Simulation γ} {dtS : ℚ}

/-! ### The tables -/

/-- The tables list the same aircraft, each under its own address. -/
structure WellFormed (sim : Simulation γ) : Prop where
  addressed : ∀ k s, sim.state.get? k = some s → s.icao24 = k
  planned : ∀ k s, sim.state.get? k = some s → ∃ spec, sim.specs.get? k = some spec
  noisy : ∀ k s, sim.state.get? k = some s → ∃ noise, sim.noise.get? k = some noise

theorem getItem_of_get? {ν : Type} {d : Dict String ν} {k : String} {v : ν} (h : d.get? k = some v) :
    getItem d k = .ok v := by
  rw [getItem, h]

/-- The states, listed with their addresses. -/
theorem WellFormed.map_icao24 (h : sim.WellFormed) :
    sim.state.values.map AircraftTruth.icao24 = sim.state.keys := by
  unfold Dict.values Dict.keys
  rw [List.map_map]
  refine List.map_congr_left fun e he => ?_
  exact h.addressed e.1 e.2 (Dict.get?_eq_some_iff.mpr he)

/-- The entry an aircraft starts with in a table built from the scenario. -/
theorem get?_collect_of_mem {ν : Type} {aircraft : List AircraftSpec} {spec : AircraftSpec}
    (hn : (aircraft.map AircraftSpec.icao24).Nodup) (hspec : spec ∈ aircraft) (value : AircraftSpec → ν) :
    (Dict.collect aircraft (·.icao24) value).get? spec.icao24 = some (value spec) := by
  obtain ⟨l₁, l₂, rfl⟩ := List.append_of_mem hspec
  rw [List.map_append, List.map_cons, List.nodup_append] at hn
  obtain ⟨-, hn₂, hdis⟩ := hn
  have hafter : l₂.filter (fun a => a.icao24 = spec.icao24) = [] := by
    refine List.filter_eq_nil_iff.mpr fun a ha heq => ?_
    exact (List.nodup_cons.mp hn₂).1 (of_decide_eq_true heq ▸ List.mem_map_of_mem ha)
  rw [Dict.get?_collect, List.filter_append, List.filter_cons_of_pos (by simp), hafter, List.getLast?_concat]
  rfl

theorem init_wellFormed (sha256 : ByteArray → List UInt8) (rng : Random γ) (scenario : Scenario)
    (startTime : Instant) : (init sha256 rng scenario startTime).WellFormed := by
  have hlast : ∀ k s, (init sha256 rng scenario startTime).state.get? k = some s →
      ∃ spec, ((scenario.aircraft.filter fun a => a.icao24 = k).getLast?) = some spec ∧
        initialTruth spec = s := by
    intro k s hs
    rw [init, Dict.get?_collect] at hs
    exact Option.map_eq_some_iff.mp hs
  constructor
  · intro k s hs
    obtain ⟨spec, hspec, rfl⟩ := hlast k s hs
    exact of_decide_eq_true (List.mem_filter.mp (List.mem_of_getLast? hspec)).2
  · intro k s hs
    obtain ⟨spec, hspec, rfl⟩ := hlast k s hs
    exact ⟨spec, by rw [init, Dict.get?_collect, hspec]; rfl⟩
  · intro k s hs
    obtain ⟨spec, hspec, rfl⟩ := hlast k s hs
    exact ⟨_, by rw [init, Dict.get?_collect, hspec]; rfl⟩

/-! ### Advancing -/

/-- One turn of the loop rewrites one entry of the states. -/
theorem advanceEntry_eq {previousS : ℚ} {entry : String × AircraftTruth} {spec : AircraftSpec}
    (h : sim.specs.get? entry.1 = some spec) : advanceEntry previousS dtS sim entry =
      .ok { sim with state := sim.state.set entry.1 (stepped spec previousS sim.elapsedS dtS entry.2) } := by
  rw [advanceEntry, getItem_of_get? h]
  rfl

/-- The loop rewrites the entries it visits and no other. -/
theorem foldlM_advanceEntry (previousS dtS : ℚ) {entries : List (String × AircraftTruth)} (sim : Simulation γ)
    (hn : (entries.map Prod.fst).Nodup) (hspecs : ∀ e ∈ entries, ∃ spec, sim.specs.get? e.1 = some spec) :
    ∃ d, entries.foldlM (advanceEntry previousS dtS) sim = .ok { sim with state := d } ∧
      (∀ e ∈ entries, ∀ spec, sim.specs.get? e.1 = some spec →
        d.get? e.1 = some (stepped spec previousS sim.elapsedS dtS e.2)) ∧
      ∀ k ∉ entries.map Prod.fst, d.get? k = sim.state.get? k := by
  induction entries generalizing sim with
  | nil => exact ⟨sim.state, rfl, by simp, fun _ _ => rfl⟩
  | cons entry entries ih =>
    obtain ⟨hnot, hnodup⟩ := List.nodup_cons.mp hn
    obtain ⟨spec, hspec⟩ := hspecs entry List.mem_cons_self
    rw [List.foldlM_cons, advanceEntry_eq hspec]
    obtain ⟨d, hd, hvisited, hother⟩ := ih
      { sim with state := sim.state.set entry.1 (stepped spec previousS sim.elapsedS dtS entry.2) }
      hnodup fun e he => hspecs e (List.mem_cons_of_mem _ he)
    refine ⟨d, hd, ?_, ?_⟩
    · intro e he spec' hspec'
      rcases List.mem_cons.mp he with rfl | he
      · rw [hother _ hnot, Dict.get?_set, if_pos rfl, Option.some_inj.mp (hspec.symm.trans hspec')]
      · exact hvisited e he spec' hspec'
    · intro k hk
      rw [List.map_cons, List.mem_cons, not_or] at hk
      rw [hother k hk.2, Dict.get?_set, if_neg hk.1]

/-- What an advance leaves of one aircraft. -/
theorem advance_spec (h : sim.WellFormed) (hdt : 0 < dtS) :
    ∃ d, sim.advance dtS = .ok { sim with elapsedS := sim.elapsedS + dtS, state := d } ∧
      ∀ k, d.get? k = (sim.state.get? k).bind fun s => (sim.specs.get? k).map fun spec =>
        stepped spec sim.elapsedS (sim.elapsedS + dtS) dtS s := by
  obtain ⟨d, hd, hvisited, hother⟩ := foldlM_advanceEntry sim.elapsedS dtS
    { sim with elapsedS := sim.elapsedS + dtS } sim.state.nodup
    fun e he => h.planned e.1 e.2 (Dict.get?_eq_some_iff.mpr he)
  refine ⟨d, ?_, fun k => ?_⟩
  · rw [advance, if_neg (not_le.mpr hdt)]
    exact hd
  · cases hs : sim.state.get? k with
    | none => exact (hother k (Dict.get?_eq_none_iff.mp hs)).trans hs
    | some s =>
      obtain ⟨spec, hspec⟩ := h.planned k s hs
      rw [Option.bind_some, hspec, Option.map_some]
      exact hvisited (k, s) (Dict.get?_eq_some_iff.mp hs) spec hspec

/-- The one thing an advance can raise is the check of its argument. -/
theorem advance_of_not_pos (hdt : ¬ 0 < dtS) :
    sim.advance dtS = .error (.valueError "dt_s must be positive") :=
  if_pos (not_lt.mp hdt)

theorem advance_wellFormed {sim' : Simulation γ} (h : sim.WellFormed) (hstep : sim.advance dtS = .ok sim') :
    sim'.WellFormed := by
  by_cases hdt : 0 < dtS
  · obtain ⟨d, hd, hget⟩ := advance_spec h hdt
    rw [hd, Except.ok.injEq] at hstep
    subst hstep
    have hback : ∀ k s', d.get? k = some s' → ∃ s, sim.state.get? k = some s ∧ s'.icao24 = s.icao24 := by
      intro k s' hs'
      rw [hget k, Option.bind_eq_some_iff] at hs'
      obtain ⟨s, hs, hs'⟩ := hs'
      obtain ⟨spec, -, rfl⟩ := Option.map_eq_some_iff.mp hs'
      exact ⟨s, hs, stepped_icao24 ..⟩
    constructor
    · intro k s' hs'
      obtain ⟨s, hs, hicao⟩ := hback k s' hs'
      rw [hicao, h.addressed k s hs]
    · intro k s' hs'
      obtain ⟨s, hs, -⟩ := hback k s' hs'
      exact h.planned k s hs
    · intro k s' hs'
      obtain ⟨s, hs, -⟩ := hback k s' hs'
      exact h.noisy k s hs
  · rw [advance_of_not_pos hdt] at hstep
    cases hstep

/-- Positive steps succeed, and an aircraft has flown them by its own state and spec. -/
theorem foldlM_advance {dts : List ℚ} (h : sim.WellFormed) (hdts : ∀ dt ∈ dts, 0 < dt) {s : AircraftTruth}
    {spec : AircraftSpec} (hs : sim.state.get? spec.icao24 = some s)
    (hspec : sim.specs.get? spec.icao24 = some spec) :
    ∃ sim', dts.foldlM advance sim = .ok sim' ∧ sim'.elapsedS = sim.elapsedS + dts.sum ∧
      sim'.state.get? spec.icao24 = some (flown spec sim.elapsedS dts s) := by
  induction dts generalizing sim s with
  | nil => exact ⟨sim, rfl, by simp, hs⟩
  | cons dt dts ih =>
    obtain ⟨hdt, hrest⟩ := List.forall_mem_cons.mp hdts
    obtain ⟨d, hd, hget⟩ := advance_spec h hdt
    have hwell := advance_wellFormed h hd
    have hs' : d.get? spec.icao24 = some (stepped spec sim.elapsedS (sim.elapsedS + dt) dt s) := by
      rw [hget, hs, hspec]
      rfl
    obtain ⟨sim', hrun, helapsed, hstate⟩ := ih hwell hrest hs' hspec
    refine ⟨sim', ?_, ?_, hstate⟩
    · rw [List.foldlM_cons, hd]
      exact hrun
    · rw [helapsed, List.sum_cons, add_assoc]

/-! ### Observing -/

variable (rng : Random γ)

/-- A report without its number, which counts the reports of all aircraft. -/
def unnumbered (r : SurveillanceReport) : SurveillanceReport := { r with reportId := "" }

/-- The reports of one aircraft, without their numbers. -/
def ownReports (k : String) (reports : List SurveillanceReport) : List SurveillanceReport :=
  (reports.filter fun r => r.icao24 = k).map unnumbered

theorem ownReports_append (k : String) (rs rs' : List SurveillanceReport) :
    ownReports k (rs ++ rs') = ownReports k rs ++ ownReports k rs' := by
  simp [ownReports]

/-- What an observation makes of one aircraft's state and generator: its report, if it is not lost, and the
    generator after the draws. -/
def observed (sim : Simulation γ) (s : AircraftTruth) (noise : γ) :
    Option SurveillanceReport × γ :=
  if !s.airborne then (none, noise)
  else if (rng.random noise).1 < sim.scenario.sensor.dropoutProbability then (none, (rng.random noise).2)
  else
    let report := observeOne rng sim s (rng.random noise).2
    (some (unnumbered report.1), report.2.2)

/-- An observation reads the clock, the sensor model and the scenario's name, and nothing else. -/
theorem observed_congr {sim sim' : Simulation γ} (hid : sim.scenario.scenarioId = sim'.scenario.scenarioId)
    (hsensor : sim.scenario.sensor = sim'.scenario.sensor) (hnow : sim.now = sim'.now) (s : AircraftTruth)
    (noise : γ) : observed rng sim s noise = observed rng sim' s noise := by
  have hone : ∀ noise, (unnumbered (observeOne rng sim s noise).1, (observeOne rng sim s noise).2.2) =
      (unnumbered (observeOne rng sim' s noise).1, (observeOne rng sim' s noise).2.2) := by
    intro noise
    have hnow' : sim.startTime + timedelta sim.elapsedS = sim'.startTime + timedelta sim'.elapsedS := hnow
    simp only [observeOne, unnumbered, now, hid, hsensor, hnow']
  unfold observed
  rw [hsensor]
  split_ifs
  · rfl
  · rfl
  · obtain ⟨hreport, hnoise⟩ := Prod.mk.inj (hone (rng.random noise).2)
    exact congrArg₂ (fun report noise => (some report, noise)) hreport hnoise

/-- One turn of the loop moves one generator on and adds its report. -/
theorem observeEntry_spec {s : AircraftTruth} {noise : γ} (reports : List SurveillanceReport)
    (hnoise : sim.noise.get? s.icao24 = some noise) :
    ∃ d sequence new, observeEntry rng (sim, reports) s =
        .ok ({ sim with noise := d, reportSequence := sequence }, reports ++ new) ∧
      (∀ k, d.get? k = if k = s.icao24 then some (observed rng sim s noise).2 else sim.noise.get? k) ∧
      ∀ k, ownReports k new = if s.icao24 = k then (observed rng sim s noise).1.toList else [] := by
  unfold observeEntry observed
  split_ifs with hair hlost
  · refine ⟨sim.noise, sim.reportSequence, [], by rw [List.append_nil], fun k => ?_, fun k => ?_⟩
    · split_ifs with hk
      · rw [hk, hnoise]
      · rfl
    · split_ifs <;> rfl
  · refine ⟨sim.noise.set s.icao24 (rng.random noise).2, sim.reportSequence, [], ?_, fun k => ?_, fun k => ?_⟩
    · rw [getItem_of_get? hnoise, List.append_nil]
      exact if_pos hlost
    · rw [Dict.get?_set]
    · split_ifs <;> rfl
  · refine ⟨sim.noise.set s.icao24 (observeOne rng sim s (rng.random noise).2).2.2, sim.reportSequence + 1,
      [(observeOne rng sim s (rng.random noise).2).1], ?_, fun k => ?_, fun k => ?_⟩
    · rw [getItem_of_get? hnoise]
      exact if_neg hlost
    · rw [Dict.get?_set]
    · have hicao : (observeOne rng sim s (rng.random noise).2).1.icao24 = s.icao24 := rfl
      rw [ownReports, List.filter_singleton, hicao]
      split_ifs with hk
      · simp [hk]
      · simp [hk]

/-- The loop gives every aircraft it visits its own observation, and leaves the others' generators. -/
theorem foldlM_observeEntry {states : List AircraftTruth} (sim : Simulation γ)
    (reports : List SurveillanceReport) (hn : (states.map AircraftTruth.icao24).Nodup)
    (hnoise : ∀ s ∈ states, ∃ noise, sim.noise.get? s.icao24 = some noise) :
    ∃ d sequence new, states.foldlM (observeEntry rng) (sim, reports) =
        .ok ({ sim with noise := d, reportSequence := sequence }, reports ++ new) ∧
      (∀ s ∈ states, ∀ noise, sim.noise.get? s.icao24 = some noise →
        d.get? s.icao24 = some (observed rng sim s noise).2 ∧
          ownReports s.icao24 new = (observed rng sim s noise).1.toList) ∧
      ∀ k ∉ states.map AircraftTruth.icao24, d.get? k = sim.noise.get? k ∧ ownReports k new = [] := by
  induction states generalizing sim reports with
  | nil =>
    refine ⟨sim.noise, sim.reportSequence, [], ?_, by simp, fun _ _ => ⟨rfl, rfl⟩⟩
    rw [List.append_nil]
    rfl
  | cons s states ih =>
    obtain ⟨hnot, hnodup⟩ := List.nodup_cons.mp hn
    obtain ⟨noise, hs⟩ := hnoise s List.mem_cons_self
    obtain ⟨d₁, sequence₁, new₁, hstep, hd₁, hnew₁⟩ := observeEntry_spec rng reports hs
    have hother : ∀ k ≠ s.icao24, d₁.get? k = sim.noise.get? k ∧ ownReports k new₁ = [] := by
      intro k hk
      exact ⟨(hd₁ k).trans (if_neg hk), (hnew₁ k).trans (if_neg (Ne.symm hk))⟩
    have hne : ∀ s' ∈ states, s'.icao24 ≠ s.icao24 := by
      intro s' hs' heq
      exact hnot (heq ▸ List.mem_map_of_mem hs')
    obtain ⟨d, sequence, new, hrun, hvisited, hunvisited⟩ :=
      ih { sim with noise := d₁, reportSequence := sequence₁ } (reports ++ new₁) hnodup fun s' hs' => by
        obtain ⟨noise', hnoise'⟩ := hnoise s' (List.mem_cons_of_mem _ hs')
        exact ⟨noise', (hother _ (hne s' hs')).1.trans hnoise'⟩
    have hsame : ∀ s noise, observed rng { sim with noise := d₁, reportSequence := sequence₁ } s noise =
        observed rng sim s noise := observed_congr rng rfl rfl rfl
    simp only [hsame] at hvisited
    refine ⟨d, sequence, new₁ ++ new, ?_, ?_, ?_⟩
    · rw [List.foldlM_cons, hstep, ← List.append_assoc]
      exact hrun
    · intro s' hs' noise' hnoise'
      rw [ownReports_append]
      rcases List.mem_cons.mp hs' with rfl | hs'
      · rw [hs, Option.some_inj] at hnoise'
        obtain ⟨hd, hnew⟩ := hunvisited _ hnot
        rw [hd, hnew, List.append_nil, ← hnoise']
        exact ⟨(hd₁ _).trans (if_pos rfl), (hnew₁ _).trans (if_pos rfl)⟩
      · obtain ⟨hd₁', hnew₁'⟩ := hother _ (hne s' hs')
        rw [hnew₁', List.nil_append]
        exact hvisited s' hs' noise' (hd₁'.trans hnoise')
    · intro k hk
      rw [List.map_cons, List.mem_cons, not_or] at hk
      obtain ⟨hd, hnew⟩ := hunvisited k hk.2
      obtain ⟨hd₁', hnew₁'⟩ := hother k hk.1
      rw [ownReports_append, hnew, hnew₁', hd]
      exact ⟨hd₁', rfl⟩

/-- What an observation leaves of one aircraft; of an address without one it reports nothing. -/
theorem observe_spec (h : sim.WellFormed) :
    ∃ d sequence new, sim.observe rng = .ok ({ sim with noise := d, reportSequence := sequence }, new) ∧
      (∀ k s noise, sim.state.get? k = some s → sim.noise.get? k = some noise →
        d.get? k = some (observed rng sim s noise).2 ∧
          ownReports k new = (observed rng sim s noise).1.toList) ∧
      ∀ k, sim.state.get? k = none → ownReports k new = [] := by
  obtain ⟨d, sequence, new, hrun, hvisited, hunvisited⟩ := foldlM_observeEntry rng sim []
    (by rw [h.map_icao24]; exact sim.state.nodup) fun s hs => by
      obtain ⟨k, hk⟩ := Dict.mem_values_iff.mp hs
      obtain ⟨noise, hnoise⟩ := h.noisy k s hk
      exact ⟨noise, h.addressed k s hk ▸ hnoise⟩
  refine ⟨d, sequence, new, hrun, fun k s noise hs hnoise => ?_, fun k hk => (hunvisited k ?_).2⟩
  · have hicao := h.addressed k s hs
    rw [← hicao] at hnoise ⊢
    exact hvisited s (Dict.mem_values_iff.mpr ⟨k, hs⟩) noise hnoise
  · rw [h.map_icao24]
    exact Dict.get?_eq_none_iff.mp hk

/-- Every report comes from the state of its aircraft. -/
theorem exists_observeOne {sim' : Simulation γ} {reports : List SurveillanceReport} {r : SurveillanceReport}
    (h : sim.WellFormed) (hstep : sim.observe rng = .ok (sim', reports)) (hr : r ∈ reports) :
    ∃ s noise, sim.state.get? r.icao24 = some s ∧ unnumbered r = unnumbered (observeOne rng sim s noise).1 := by
  obtain ⟨d, sequence, new, hd, hget, hnone⟩ := observe_spec rng h
  rw [hd, Except.ok.injEq, Prod.mk.injEq] at hstep
  obtain ⟨-, rfl⟩ := hstep
  have hmem : unnumbered r ∈ ownReports r.icao24 new :=
    List.mem_map_of_mem (List.mem_filter.mpr ⟨hr, decide_eq_true rfl⟩)
  cases hs : sim.state.get? r.icao24 with
  | none =>
    rw [hnone _ hs] at hmem
    cases hmem
  | some s =>
    obtain ⟨noise, hnoise⟩ := h.noisy _ s hs
    rw [(hget _ s noise hs hnoise).2, Option.mem_toList, observed] at hmem
    split_ifs at hmem
    · exact ⟨s, _, rfl, (Option.some_inj.mp hmem).symm⟩

theorem observe_wellFormed {sim' : Simulation γ} {reports : List SurveillanceReport} (h : sim.WellFormed)
    (hstep : sim.observe rng = .ok (sim', reports)) : sim'.WellFormed := by
  obtain ⟨d, sequence, new, hd, hget, -⟩ := observe_spec rng h
  rw [hd, Except.ok.injEq, Prod.mk.injEq] at hstep
  obtain ⟨rfl, -⟩ := hstep
  refine ⟨h.addressed, h.planned, fun k s hs => ?_⟩
  obtain ⟨noise, hnoise⟩ := h.noisy k s hs
  exact ⟨_, (hget k s noise hs hnoise).1⟩

end Simulation

end

end Airspace
