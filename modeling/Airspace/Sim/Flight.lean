import Airspace.Sim.Steps
import Airspace.Lib.Chase

/-! How an aircraft flies to its targets.

    Between commands each of the three axes chases its target at its own rate. What remains is the shortest
    turn for the heading and the distance for altitude and speed; a step takes from it what the rate allows
    and never more than there is, so no axis overshoots. The floor under the altitude is never reached from
    above the ground with a target above the ground. -/

namespace Airspace

noncomputable section

variable {s : AircraftTruth} {dt : ℝ} {dts : List ℝ}

/-- A capped move towards a target, on either side of it. -/
theorem copysign_min (x : ℝ) {cap : ℝ} (hcap : 0 ≤ cap) :
    copysign (min |x| cap) x = if x < 0 then -min (-x) cap else min x cap := by
  rw [copysign, abs_of_nonneg (le_min (abs_nonneg x) hcap)]
  split_ifs with hneg
  · rw [abs_of_neg hneg]
  · rw [abs_of_nonneg (not_lt.mp hneg)]

/-- Moving by a capped amount towards a target leaves the distance less the amount. -/
theorem abs_sub_copysign (x : ℝ) {cap : ℝ} (hcap : 0 ≤ cap) :
    |x - copysign (min |x| cap) x| = |x| - min |x| cap := by
  rw [copysign_min x hcap]
  split_ifs with hneg
  · have hle : min (-x) cap ≤ -x := min_le_left _ _
    rw [abs_of_neg hneg, abs_of_nonpos (by linarith)]
    ring
  · have hle : min x cap ≤ x := min_le_left _ _
    rw [abs_of_nonneg (not_lt.mp hneg), abs_of_nonneg (by linarith)]

/-- What is left has the sign of what there was. -/
theorem sub_copysign_mem (x : ℝ) {cap : ℝ} (hcap : 0 ≤ cap) :
    min 0 x ≤ x - copysign (min |x| cap) x ∧ x - copysign (min |x| cap) x ≤ max 0 x := by
  rw [copysign_min x hcap]
  split_ifs with hneg
  · have hle : min (-x) cap ≤ -x := min_le_left _ _
    have hmin : 0 ≤ min (-x) cap := le_min (by linarith) hcap
    rw [min_eq_right hneg.le, max_eq_left hneg.le]
    constructor <;> linarith
  · have hnonneg := not_lt.mp hneg
    have hle : min x cap ≤ x := min_le_left _ _
    have hmin : 0 ≤ min x cap := le_min hnonneg hcap
    rw [min_eq_left hnonneg, max_eq_right hnonneg]
    constructor <;> linarith

/-- Between two values above zero no step goes below it. -/
theorem add_copysign_nonneg {x target cap : ℝ} (hx : 0 ≤ x) (htarget : 0 ≤ target) (hcap : 0 ≤ cap) :
    0 ≤ x + copysign (min |target - x| cap) (target - x) := by
  obtain ⟨-, hhi⟩ := sub_copysign_mem (target - x) hcap
  rcases max_choice 0 (target - x) with hmax | hmax
  · linarith
  · linarith

/-- One step of an aircraft that has entered. -/
def fly (s : AircraftTruth) (dt : ℝ) : AircraftTruth := advanceAircraft s dt true

/-- Without a command in its steps, an aircraft that has entered just flies. -/
theorem flown_eq_foldl_fly {spec : AircraftSpec} {elapsedS : ℚ} {steps : List ℚ}
    (hentered : spec.entryTimeS ≤ elapsedS) (hsteps : ∀ dt ∈ steps, 0 < dt)
    (hplan : fired spec.plan elapsedS (elapsedS + steps.sum) = []) (s : AircraftTruth) :
    flown spec elapsedS steps s = (steps.map fun dt : ℚ => (dt : ℝ)).foldl fly s := by
  induction steps generalizing elapsedS s with
  | nil => rfl
  | cons dt steps ih =>
    obtain ⟨hdt, hrest⟩ := List.forall_mem_cons.mp hsteps
    have hsum : 0 ≤ steps.sum := List.sum_nonneg fun dt hdt => (hrest dt hdt).le
    rw [List.sum_cons, fired, List.filter_eq_nil_iff] at hplan
    have hnow : fired spec.plan elapsedS (elapsedS + dt) = [] := by
      refine List.filter_eq_nil_iff.mpr fun c hc hin => hplan c hc (decide_eq_true ?_)
      have hin := of_decide_eq_true hin
      exact ⟨hin.1, by linarith [hin.2]⟩
    have hlater : fired spec.plan (elapsedS + dt) (elapsedS + dt + steps.sum) = [] := by
      refine List.filter_eq_nil_iff.mpr fun c hc hin => hplan c hc (decide_eq_true ?_)
      have hin := of_decide_eq_true hin
      exact ⟨by linarith [hin.1], by linarith [hin.2]⟩
    have hstep : stepped spec elapsedS (elapsedS + dt) dt s = fly s dt := by
      rw [stepped, applyCommands_eq_foldl, hnow, decide_eq_true (by linarith)]
      rfl
    rw [flown, hstep, ih (by linarith) hrest hlater]
    rfl

/-! ### The three axes -/

inductive Axis where | heading | altitude | speed
  deriving DecidableEq

/-- How far an aircraft is from a target: the shortest turn, or the distance. -/
def remaining : Axis → AircraftTruth → ℝ
  | .heading, s => |bearingDifferenceDeg s.trackDeg s.targetTrackDeg|
  | .altitude, s => |s.targetAltitudeFt - s.altitudeFt|
  | .speed, s => |s.targetSpeedKt - s.groundSpeedKt|

/-- How fast an aircraft closes on a target, per second. -/
def chaseRate : Axis → AircraftTruth → ℝ
  | .heading, s => s.turnRateDegS
  | .altitude, s => fpmToFtPerSecond s.climbRateFpm
  | .speed, s => s.accelerationKtS

/-- Not below the ground nor sent there, with a rate for every axis. -/
structure Steered (s : AircraftTruth) : Prop where
  altitudeFt : 0 ≤ s.altitudeFt
  targetAltitudeFt : 0 ≤ s.targetAltitudeFt
  turnRateDegS : 0 < s.turnRateDegS
  climbRateFpm : 0 < s.climbRateFpm
  accelerationKtS : 0 < s.accelerationKtS

theorem Steered.chaseRate_pos (h : Steered s) (axis : Axis) : 0 < chaseRate axis s := by
  cases axis
  · exact h.turnRateDegS
  · exact div_pos h.climbRateFpm (by norm_num)
  · exact h.accelerationKtS

theorem remaining_nonneg (axis : Axis) (s : AircraftTruth) : 0 ≤ remaining axis s := by
  cases axis <;> exact abs_nonneg _

theorem chaseRate_fly (axis : Axis) (s : AircraftTruth) (dt : ℝ) :
    chaseRate axis (fly s dt) = chaseRate axis s := by
  cases axis <;> rfl

theorem heading_fly_mem (s : AircraftTruth) (dt : ℝ) : 0 ≤ (fly s dt).trackDeg ∧ (fly s dt).trackDeg < 360 :=
  normalizeBearing_mem _

theorem altitude_fly_nonneg (s : AircraftTruth) (dt : ℝ) : 0 ≤ (fly s dt).altitudeFt := le_max_left _ _

/-- Above the ground, on the way to a target above the ground, the floor is not met. -/
theorem altitudeFt_fly (h : Steered s) (hdt : 0 < dt) : (fly s dt).altitudeFt = s.altitudeFt +
    copysign (min |s.targetAltitudeFt - s.altitudeFt| (fpmToFtPerSecond s.climbRateFpm * dt))
      (s.targetAltitudeFt - s.altitudeFt) :=
  max_eq_right (add_copysign_nonneg h.altitudeFt h.targetAltitudeFt
    (mul_pos (h.chaseRate_pos .altitude) hdt).le)

/-- A step takes from what remains what the rate allows. -/
theorem remaining_fly (h : Steered s) (hdt : 0 < dt) (axis : Axis) : remaining axis (fly s dt) =
    remaining axis s - min (remaining axis s) (chaseRate axis s * dt) := by
  have hcap : 0 ≤ chaseRate axis s * dt := (mul_pos (h.chaseRate_pos axis) hdt).le
  cases axis with
  | heading =>
    obtain ⟨⟨hlo, hhi⟩, m, hm⟩ := bearingDifferenceDeg_spec s.trackDeg s.targetTrackDeg
    obtain ⟨hleft, hright⟩ := sub_copysign_mem (bearingDifferenceDeg s.trackDeg s.targetTrackDeg) hcap
    obtain ⟨n, hn⟩ := normalizeBearing_eq_add_turns (s.trackDeg +
      copysign (min |bearingDifferenceDeg s.trackDeg s.targetTrackDeg| (chaseRate .heading s * dt))
        (bearingDifferenceDeg s.trackDeg s.targetTrackDeg))
    -- the rest of the turn, from the wrapped heading
    have hrest : bearingDifferenceDeg (fly s dt).trackDeg s.targetTrackDeg =
        bearingDifferenceDeg s.trackDeg s.targetTrackDeg -
          copysign (min |bearingDifferenceDeg s.trackDeg s.targetTrackDeg| (chaseRate .heading s * dt))
            (bearingDifferenceDeg s.trackDeg s.targetTrackDeg) := by
      refine bearingDifferenceDeg_eq (n := m + n) ⟨?_, ?_⟩ ?_
      · exact (lt_min (by norm_num) hlo).trans_le hleft
      · exact hright.trans (max_le (by norm_num) hhi)
      · rw [show (fly s dt).trackDeg = _ from hn, hm]
        push_cast
        ring
    rw [remaining, show (fly s dt).targetTrackDeg = s.targetTrackDeg from rfl, hrest, abs_sub_copysign _ hcap]
    rfl
  | altitude =>
    rw [remaining, altitudeFt_fly h hdt, show (fly s dt).targetAltitudeFt = s.targetAltitudeFt from rfl,
      ← sub_sub]
    exact abs_sub_copysign _ hcap
  | speed =>
    have hspeed : (fly s dt).targetSpeedKt - (fly s dt).groundSpeedKt = s.targetSpeedKt - s.groundSpeedKt -
        copysign (min |s.targetSpeedKt - s.groundSpeedKt| (s.accelerationKtS * dt))
          (s.targetSpeedKt - s.groundSpeedKt) := (sub_sub ..).symm
    rw [remaining, hspeed]
    exact abs_sub_copysign _ hcap

theorem steered_fly (h : Steered s) : Steered (fly s dt) where
  altitudeFt := altitude_fly_nonneg s dt
  targetAltitudeFt := h.targetAltitudeFt
  turnRateDegS := h.turnRateDegS
  climbRateFpm := h.climbRateFpm
  accelerationKtS := h.accelerationKtS

theorem chases_axis (axis : Axis) : Chases Steered fly (remaining axis) (chaseRate axis) where
  kept _ _ h _ := steered_fly h
  rate_step s dt _ _ := chaseRate_fly axis s dt
  rate_pos _ h := h.chaseRate_pos axis
  nonneg s _ := remaining_nonneg axis s
  falls _ _ h hdt := remaining_fly h hdt axis

/-- In a running simulation, an aircraft whose plan is silent settles on its targets. -/
theorem Simulation.settles {γ : Type} {sim : Simulation γ} {spec : AircraftSpec} {steps : List ℚ}
    (h : sim.WellFormed) (hs : sim.state.get? spec.icao24 = some s)
    (hspec : sim.specs.get? spec.icao24 = some spec) (hentered : spec.entryTimeS ≤ sim.elapsedS)
    (hsteps : ∀ dt ∈ steps, 0 < dt) (hplan : fired spec.plan sim.elapsedS (sim.elapsedS + steps.sum) = [])
    (hsteered : Steered s) {axis : Axis}
    (htime : remaining axis s ≤ chaseRate axis s * (steps.map fun dt : ℚ => (dt : ℝ)).sum) :
    ∃ sim' s', steps.foldlM advance sim = .ok sim' ∧ sim'.state.get? spec.icao24 = some s' ∧
      remaining axis s' = 0 := by
  obtain ⟨sim', hrun, -, hs'⟩ := foldlM_advance h hsteps hs hspec
  have hreal : ∀ x ∈ steps.map (fun dt : ℚ => (dt : ℝ)), 0 < x := by
    intro x hx
    obtain ⟨step, hstep, rfl⟩ := List.mem_map.mp hx
    exact_mod_cast hsteps step hstep
  refine ⟨sim', _, hrun, hs', ?_⟩
  rw [flown_eq_foldl_fly hentered hsteps hplan]
  exact (chases_axis axis).remaining_foldl_eq_zero hsteered hreal htime

/-- Under any positive steps every axis closes on its target at its rate, rests on it once it is there, and
    is there once the time suffices; the aircraft stays above the ground and on the compass. -/
theorem flight_reaches_targets (h : Steered s) (hdts : ∀ dt ∈ dts, 0 < dt) :
    (∀ before dt after, dts = before ++ dt :: after →
      (∀ axis, remaining axis (fly (before.foldl fly s) dt) = remaining axis (before.foldl fly s) -
          min (remaining axis (before.foldl fly s)) (chaseRate axis s * dt) ∧
        remaining axis (fly (before.foldl fly s) dt) ≤ remaining axis (before.foldl fly s) ∧
        (remaining axis (before.foldl fly s) = 0 → remaining axis (fly (before.foldl fly s) dt) = 0)) ∧
      0 ≤ (fly (before.foldl fly s) dt).altitudeFt ∧
      0 ≤ (fly (before.foldl fly s) dt).trackDeg ∧ (fly (before.foldl fly s) dt).trackDeg < 360) ∧
    ∀ axis, remaining axis s ≤ chaseRate axis s * dts.sum → remaining axis (dts.foldl fly s) = 0 := by
  refine ⟨?_, fun axis htime => (chases_axis axis).remaining_foldl_eq_zero h hdts htime⟩
  rintro before dt after rfl
  have hbefore : ∀ dt ∈ before, 0 < dt := fun dt hdt => hdts dt (List.mem_append_left _ hdt)
  have hdt : 0 < dt := hdts dt (by simp)
  refine ⟨fun axis => ?_, altitude_fly_nonneg _ _, heading_fly_mem _ _⟩
  have hsteered := (chases_axis axis).inv_foldl h hbefore
  have hfalls := remaining_fly hsteered hdt axis
  rw [(chases_axis axis).rate_foldl h hbefore] at hfalls
  refine ⟨hfalls, ?_, (chases_axis axis).remaining_step_eq_zero hsteered hdt⟩
  have hmin : 0 ≤ min (remaining axis (before.foldl fly s)) (chaseRate axis s * dt) :=
    le_min (remaining_nonneg axis _) (mul_pos (h.chaseRate_pos axis) hdt).le
  linarith

/-- An aircraft west of north and low, sent east of north, up and faster. -/
def turningNorth : AircraftTruth where
  icao24 := "a1b2c3"
  callsign := "TEST01"
  lat := 0
  lon := 0
  altitudeFt := 10000
  groundSpeedKt := 200
  trackDeg := 350
  verticalRateFpm := 0
  squawk := none
  airborne := true
  targetTrackDeg := 10
  turnRateDegS := 3
  targetAltitudeFt := 12000
  climbRateFpm := 1800
  targetSpeedKt := 300
  accelerationKtS := 1

theorem flight_reaches_targets_across_north :
    (∀ axis, remaining axis ([60, 60].foldl fly turningNorth) = 0) ∧ 0 ≤ (fly turningNorth 60).altitudeFt := by
  have hsteered : Steered turningNorth := by constructor <;> norm_num [turningNorth]
  have hdts : ∀ dt ∈ ([60, 60] : List ℝ), 0 < dt := by norm_num
  obtain ⟨hstep, htime⟩ := flight_reaches_targets hsteered hdts
  refine ⟨fun axis => htime axis ?_, (hstep [] 60 [60] rfl).2.1⟩
  cases axis with
  | heading =>
    obtain ⟨⟨hlo, hhi⟩, -⟩ := bearingDifferenceDeg_spec turningNorth.trackDeg turningNorth.targetTrackDeg
    refine (abs_le.mpr ⟨hlo.le, hhi⟩).trans ?_
    norm_num [chaseRate, turningNorth]
  | altitude => norm_num [remaining, chaseRate, turningNorth, fpmToFtPerSecond, abs_le]
  | speed => norm_num [remaining, chaseRate, turningNorth, abs_le]

end

end Airspace
