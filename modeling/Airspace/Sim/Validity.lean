import Airspace.Sim.Flight
import Airspace.Sim.Independence

/-! What the simulator publishes is admitted.

    An admitted scenario starts every aircraft on the globe, above the ground and on the compass, with
    targets and rates that keep it there; admitted commands set such targets again. So no validator of a
    report or of a truth state ever raises, whatever calls are made. -/

namespace Airspace

noncomputable section

variable {s : AircraftTruth} {spec : AircraftSpec}

/-- A state the validators accept, steered to states they accept. -/
structure Sound (s : AircraftTruth) : Prop extends Steered s where
  icao24 : isIcao24 s.icao24
  squawk : ∀ code ∈ s.squawk, isSquawk code
  lat : -90 ≤ s.lat ∧ s.lat ≤ 90
  lon : -180 ≤ s.lon ∧ s.lon ≤ 180
  trackDeg : 0 ≤ s.trackDeg ∧ s.trackDeg < 360
  groundSpeedKt : 0 ≤ s.groundSpeedKt
  targetSpeedKt : 0 ≤ s.targetSpeedKt

theorem initialTruth_sound (h : spec.Admitted) : Sound (initialTruth spec) where
  altitudeFt := h.initial.altitudeFt.1
  targetAltitudeFt := by
    simp only [initialTruth]
    split_ifs
    · exact h.initial.altitudeFt.1
    · norm_num
    · exact le_refl _
  turnRateDegS := by norm_num [initialTruth]
  climbRateFpm := by
    simp only [initialTruth]
    split_ifs with hlevel
    · norm_num
    · exact lt_of_le_of_ne (abs_nonneg _) (Ne.symm hlevel)
  accelerationKtS := by norm_num [initialTruth]
  icao24 := h.icao24
  squawk := h.squawk
  lat := h.initial.lat
  lon := h.initial.lon
  trackDeg := h.initial.trackDeg
  groundSpeedKt := h.initial.groundSpeedKt.1
  targetSpeedKt := h.initial.groundSpeedKt.1

/-- A command within its bounds keeps the targets within theirs. -/
theorem applyCommand_sound (h : Sound s) {c : Command} (hc : c.Admitted) : Sound (applyCommand s c) := by
  obtain ⟨atS, action⟩ := c
  have haction := hc.action
  cases action with
  | turnTo heading rate => exact { h with turnRateDegS := haction.2.1 }
  | climbTo altitude rate => exact { h with targetAltitudeFt := haction.1.1, climbRateFpm := haction.2.1 }
  | changeSpeed speed acceleration =>
    exact { h with targetSpeedKt := haction.1.1, accelerationKtS := haction.2.1 }
  | setSquawk code =>
    refine { h with squawk := fun code' hcode' => ?_ }
    rw [← Option.some_inj.mp hcode']
    exact haction

theorem foldl_applyCommand_sound {commands : List Command} (h : Sound s) (hc : ∀ c ∈ commands, c.Admitted) :
    Sound (commands.foldl applyCommand s) := by
  induction commands generalizing s with
  | nil => exact h
  | cons c commands ih =>
    obtain ⟨hfirst, hrest⟩ := List.forall_mem_cons.mp hc
    exact ih (applyCommand_sound h hfirst) hrest

theorem groundSpeedKt_fly_nonneg (h : Sound s) {dt : ℝ} (hdt : 0 < dt) : 0 ≤ (fly s dt).groundSpeedKt :=
  add_copysign_nonneg h.groundSpeedKt h.targetSpeedKt (mul_pos h.accelerationKtS hdt).le

/-- A step ends on the globe. -/
theorem position_fly_mem (s : AircraftTruth) (dt : ℝ) :
    (-90 ≤ (fly s dt).lat ∧ (fly s dt).lat ≤ 90) ∧ -180 ≤ (fly s dt).lon ∧ (fly s dt).lon < 180 :=
  destinationPoint_mem s.lat s.lon _ _

theorem fly_sound (h : Sound s) {dt : ℝ} (hdt : 0 < dt) : Sound (fly s dt) where
  toSteered := steered_fly h.toSteered
  icao24 := h.icao24
  squawk := h.squawk
  lat := (position_fly_mem s dt).1
  lon := ⟨(position_fly_mem s dt).2.1, (position_fly_mem s dt).2.2.le⟩
  trackDeg := heading_fly_mem s dt
  groundSpeedKt := groundSpeedKt_fly_nonneg h hdt
  targetSpeedKt := h.targetSpeedKt

theorem stepped_sound (h : Sound s) (hplan : ∀ c ∈ spec.plan, c.Admitted) {fromS toS dtS : ℚ} (hdt : 0 < dtS) :
    Sound (stepped spec fromS toS dtS s) := by
  have hcommanded : Sound (applyCommands s spec fromS toS) := by
    rw [applyCommands_eq_foldl]
    exact foldl_applyCommand_sound h fun c hc => hplan c (List.mem_filter.mp hc).1
  unfold stepped
  cases decide (spec.entryTimeS ≤ toS)
  · exact { hcommanded with }
  · exact fly_sound hcommanded (by exact_mod_cast hdt)

namespace Simulation

variable {γ : Type} {sim : Simulation γ} (rng : Random γ)

/-- Every report of a sound state passes the validators. -/
theorem observeOne_admitted (h : Sound s) (noise : γ) : (observeOne rng sim s noise).1.Admitted where
  icao24 := h.icao24
  lat := ⟨le_max_left _ _, max_le (by norm_num) (min_le_left _ _)⟩
  lon := ⟨(wrapLongitude_mem _).1, (wrapLongitude_mem _).2.le⟩
  groundSpeedKt v hv := Option.some_inj.mp hv ▸ le_max_left _ _
  trackDeg d hd := Option.some_inj.mp hd ▸ normalizeBearing_mem _
  squawk := h.squawk

theorem truthOf_admitted (h : Sound s) : (sim.truthOf s).Admitted where
  icao24 := h.icao24
  lat := h.lat
  lon := h.lon
  groundSpeedKt := h.groundSpeedKt
  trackDeg := normalizeBearing_mem _

/-- A simulation whose states are sound and whose plans keep them so. -/
structure Valid (sim : Simulation γ) : Prop extends sim.WellFormed where
  states : ∀ k s, sim.state.get? k = some s → Sound s
  plans : ∀ k spec, sim.specs.get? k = some spec → ∀ c ∈ spec.plan, c.Admitted

theorem init_valid (sha256 : ByteArray → List UInt8) {scenario : Scenario}
    (h : scenario.Admitted) (startTime : Instant) : (init sha256 rng scenario startTime).Valid where
  toWellFormed := init_wellFormed ..
  states k s hs := by
    rw [init, Dict.get?_collect] at hs
    obtain ⟨spec, hspec, rfl⟩ := Option.map_eq_some_iff.mp hs
    exact initialTruth_sound (h.aircraft spec (List.mem_filter.mp (List.mem_of_getLast? hspec)).1)
  plans k spec hspec := by
    rw [init, Dict.get?_collect] at hspec
    obtain ⟨own, hown, rfl⟩ := Option.map_eq_some_iff.mp hspec
    exact (h.aircraft own (List.mem_filter.mp (List.mem_of_getLast? hown)).1).plan

/-- A call keeps the simulation valid, and what it returns is admitted. -/
theorem call_valid (h : sim.Valid) (c : SimCall) : (call rng sim c).1.Valid ∧
    ∀ reports, (call rng sim c).2 = .ok reports → ∀ r ∈ reports, r.Admitted := by
  cases c with
  | advance dtS =>
    by_cases hdt : 0 < dtS
    · obtain ⟨d, hd, hget⟩ := advance_spec h.toWellFormed hdt
      rw [call_advance hd]
      refine ⟨⟨advance_wellFormed h.toWellFormed hd, fun k s' hs' => ?_, h.plans⟩, ?_⟩
      · obtain ⟨s, hs, hs'⟩ := Option.bind_eq_some_iff.mp ((hget k).symm.trans hs')
        obtain ⟨spec, hspec, rfl⟩ := Option.map_eq_some_iff.mp hs'
        exact stepped_sound (h.states k s hs) (h.plans k spec hspec) hdt
      · rintro reports hreports r hr
        rw [← Except.ok.inj hreports] at hr
        cases hr
    · rw [call_advance_of_not_pos rng sim hdt]
      exact ⟨h, fun reports hreports => by cases hreports⟩
  | observe =>
    obtain ⟨d, sequence, new, hd, -, -⟩ := observe_spec rng h.toWellFormed
    rw [call_observe hd]
    refine ⟨⟨observe_wellFormed rng h.toWellFormed hd, h.states, h.plans⟩, ?_⟩
    rintro reports hreports r hr
    rw [← Except.ok.inj hreports] at hr
    obtain ⟨s, noise, hs, hsame⟩ := exists_observeOne rng h.toWellFormed hd hr
    have hadmitted : (unnumbered r).Admitted := by
      rw [hsame]
      exact { observeOne_admitted rng (h.states _ s hs) noise with }
    exact { hadmitted with }

end Simulation

end

end Airspace
