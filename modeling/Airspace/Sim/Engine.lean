import Airspace.Sim.Scenario
import Airspace.Common.Geodesy
import Airspace.Lib.Dict

/-! The simulation engine (`acp.sim.engine`).

    Truth is propagated, then degraded into observations. An aircraft's noise is drawn from a generator of
    its own, seeded from the scenario's seed and the aircraft's address. The digest behind the seed and the
    generator are parameters: what matters of them is that a seed fixes the stream. -/

namespace Airspace

noncomputable section

/-- A vertical rate below this reads as level flight. -/
def levelThresholdFpm : ℝ := 300

/-- One metre expressed in degrees of latitude. -/
def degreesPerMetre : ℝ := 1 / 111320

/-- `math.copysign`. -/
def copysign (x y : ℝ) : ℝ := if y < 0 then -|x| else |x|

/-- Exact state of one aircraft, plus the autopilot targets driving it. -/
structure AircraftTruth where
  icao24 : String
  callsign : String
  lat : ℝ
  lon : ℝ
  altitudeFt : ℝ
  groundSpeedKt : ℝ
  trackDeg : ℝ
  verticalRateFpm : ℝ
  squawk : Option String
  airborne : Bool
  targetTrackDeg : ℝ
  turnRateDegS : ℝ
  targetAltitudeFt : ℝ
  climbRateFpm : ℝ
  targetSpeedKt : ℝ
  accelerationKtS : ℝ

/-- Coarse flight phase, derived from what the aircraft is doing now. -/
def AircraftTruth.phase (s : AircraftTruth) : String :=
  if s.verticalRateFpm > levelThresholdFpm then "climb"
  else if s.verticalRateFpm < -levelThresholdFpm then "descent"
  else if |bearingDifferenceDeg s.trackDeg s.targetTrackDeg| > 1 then "turn"
  else "cruise"

/-- `int.from_bytes(_, "big")`. -/
def fromBigEndian (bytes : List UInt8) : ℕ := bytes.foldl (fun n b => n * 256 + b.toNat) 0

/-- `_seed_for`: the seed of one aircraft's generator. -/
def seedFor (sha256 : ByteArray → List UInt8) (scenarioSeed : ℤ) (icao24 : String) : ℕ :=
  fromBigEndian ((sha256 (toString scenarioSeed ++ ":" ++ icao24).toUTF8).take 8)

/-- `random.Random`: a seed gives a state, a draw gives a value and the state after it. -/
structure Random (γ : Type) where
  seeded : ℕ → γ
  random : γ → ℝ × γ
  gauss : ℝ → ℝ → γ → ℝ × γ

/-- A generator that counts its draws and draws the mean. -/
def countingRandom : Random ℕ where
  seeded seed := seed
  random drawn := (1 / 2, drawn + 1)
  gauss mu _ drawn := (mu, drawn + 1)

/-- What an entry point of the simulation can raise. -/
inductive SimError where
  | valueError (message : String)
  | keyError (key : String)
  deriving DecidableEq

/-- `d[key]`. -/
def getItem {ν : Type} (d : Dict String ν) (key : String) : Except SimError ν :=
  match d.get? key with
  | some v => .ok v
  | none => .error (.keyError key)

/-- A running scenario. -/
structure Simulation (γ : Type) where
  scenario : Scenario
  startTime : Instant
  elapsedS : ℚ
  reportSequence : ℕ
  specs : Dict String AircraftSpec
  noise : Dict String γ
  state : Dict String AircraftTruth

/-- `_initial_truth`. A non-zero vertical rate means "keep climbing". -/
def initialTruth (spec : AircraftSpec) : AircraftTruth where
  icao24 := spec.icao24
  callsign := spec.callsign
  lat := spec.initial.lat
  lon := spec.initial.lon
  altitudeFt := spec.initial.altitudeFt
  groundSpeedKt := spec.initial.groundSpeedKt
  trackDeg := spec.initial.trackDeg
  verticalRateFpm := spec.initial.verticalRateFpm
  squawk := spec.squawk
  airborne := spec.entryTimeS ≤ 0
  targetTrackDeg := spec.initial.trackDeg
  turnRateDegS := 3
  targetAltitudeFt :=
    if |spec.initial.verticalRateFpm| < 1e-9 then spec.initial.altitudeFt
    else if spec.initial.verticalRateFpm > 0 then 60000 else 0
  climbRateFpm := if |spec.initial.verticalRateFpm| = 0 then 1800 else |spec.initial.verticalRateFpm|
  targetSpeedKt := spec.initial.groundSpeedKt
  accelerationKtS := 1

/-- What a command does to the autopilot. -/
def applyCommand (state : AircraftTruth) (command : Command) : AircraftTruth :=
  match command.action with
  | .turnTo heading rate => { state with targetTrackDeg := heading, turnRateDegS := rate }
  | .climbTo altitude rate => { state with targetAltitudeFt := altitude, climbRateFpm := rate }
  | .changeSpeed speed acceleration => { state with targetSpeedKt := speed, accelerationKtS := acceleration }
  | .setSquawk code => { state with squawk := code }

/-- `_apply_commands`: fire the commands of the plan whose time fell inside `(fromS, toS]`. -/
def applyCommands (state : AircraftTruth) (spec : AircraftSpec) (fromS toS : ℚ) : AircraftTruth :=
  spec.plan.foldl (fun state command =>
    if fromS < command.atS ∧ command.atS ≤ toS then applyCommand state command else state) state

/-- `_advance_aircraft`: propagate one aircraft by one step. -/
def advanceAircraft (state : AircraftTruth) (dtS : ℝ) (airborne : Bool) : AircraftTruth :=
  if !airborne then { state with airborne := false }
  else
    -- heading: turn the short way, at the commanded rate
    let toTurn := bearingDifferenceDeg state.trackDeg state.targetTrackDeg
    let maxTurn := state.turnRateDegS * dtS
    let turn := copysign (min |toTurn| maxTurn) toTurn
    let trackDeg := normalizeBearing (state.trackDeg + turn)
    -- speed: accelerate toward the target, never past it
    let toAccelerate := state.targetSpeedKt - state.groundSpeedKt
    let maxAccelerate := state.accelerationKtS * dtS
    let speedKt := state.groundSpeedKt + copysign (min |toAccelerate| maxAccelerate) toAccelerate
    -- altitude: climb or descend toward the target and level off
    let toClimbFt := state.targetAltitudeFt - state.altitudeFt
    let maxClimbFt := fpmToFtPerSecond state.climbRateFpm * dtS
    let climbFt := copysign (min |toClimbFt| maxClimbFt) toClimbFt
    let altitudeFt := max 0 (state.altitudeFt + climbFt)
    let verticalRateFpm := if dtS > 0 then climbFt / dtS * 60 else 0
    let midTrack := normalizeBearing (state.trackDeg + turn / 2)
    let midSpeed := (state.groundSpeedKt + speedKt) / 2
    let position := projectForward state.lat state.lon midTrack midSpeed dtS
    { state with
      lat := position.1
      lon := position.2
      altitudeFt := altitudeFt
      groundSpeedKt := speedKt
      trackDeg := trackDeg
      verticalRateFpm := verticalRateFpm
      airborne := true }

namespace Simulation

variable {γ : Type} (sha256 : ByteArray → List UInt8) (rng : Random γ)

/-- `Simulation(scenario, start_time)`. -/
def init (scenario : Scenario) (startTime : Instant) : Simulation γ where
  scenario := scenario
  startTime := startTime
  elapsedS := 0
  reportSequence := 0
  specs := Dict.collect scenario.aircraft (·.icao24) id
  noise := Dict.collect scenario.aircraft (·.icao24) fun spec =>
    rng.seeded (seedFor sha256 scenario.seed spec.icao24)
  state := Dict.collect scenario.aircraft (·.icao24) initialTruth

/-- Simulated wall-clock time at the current step. -/
def now (sim : Simulation γ) : Instant := sim.startTime + timedelta sim.elapsedS

/-- One turn of the loop of `advance`, once the clock is moved on. -/
def advanceEntry (previousS dtS : ℚ) (sim : Simulation γ) (entry : String × AircraftTruth) :
    Except SimError (Simulation γ) := do
  let spec ← getItem sim.specs entry.1
  let commanded := applyCommands entry.2 spec previousS sim.elapsedS
  let advanced := advanceAircraft commanded dtS (spec.entryTimeS ≤ sim.elapsedS)
  return { sim with state := sim.state.set entry.1 advanced }

/-- `advance`: move the simulation forward by `dtS` seconds. -/
def advance (sim : Simulation γ) (dtS : ℚ) : Except SimError (Simulation γ) :=
  if dtS ≤ 0 then .error (.valueError "dt_s must be positive")
  else sim.state.items.foldlM (advanceEntry sim.elapsedS dtS) { sim with elapsedS := sim.elapsedS + dtS }

/-- What `truth` says of one aircraft. -/
def truthOf (sim : Simulation γ) (s : AircraftTruth) : TruthState where
  icao24 := s.icao24
  scenarioId := sim.scenario.scenarioId
  simVersion := simVersion
  validAt := sim.now
  lat := s.lat
  lon := s.lon
  altitudeFt := s.altitudeFt
  groundSpeedKt := s.groundSpeedKt
  trackDeg := normalizeBearing s.trackDeg
  verticalRateFpm := s.verticalRateFpm
  phase := s.phase

/-- `truth`: exact state of every airborne aircraft. -/
def truth (sim : Simulation γ) : List TruthState := (sim.state.values.filter (·.airborne)).map sim.truthOf

/-- `f"{n:09d}"`. -/
def nineDigits (n : ℕ) : String := "".pushn '0' (9 - (toString n).length) ++ toString n

/-- `_clamp`. -/
def clamp (value low high : ℝ) : ℝ := max low (min high value)

/-- `_observe_one`: one report, and the generator after its draws. The longitude error grows towards the
    poles, where a metre is a larger angle. -/
def observeOne (sim : Simulation γ) (state : AircraftTruth) (noise : γ) :
    SurveillanceReport × Simulation γ × γ :=
  let sensor := sim.scenario.sensor
  let (northM, noise) := rng.gauss 0 sensor.positionSigmaM noise
  let northDeg := northM * degreesPerMetre
  let (eastM, noise) := rng.gauss 0 sensor.positionSigmaM noise
  let cosLat := max 0.01 |Real.cos (radians state.lat)|
  let eastDeg := eastM * degreesPerMetre / cosLat
  let sim := { sim with reportSequence := sim.reportSequence + 1 }
  let (altitudeNoise, noise) := rng.gauss 0 sensor.altitudeSigmaFt noise
  let (speedNoise, noise) := rng.gauss 0 sensor.speedSigmaKt noise
  let (trackNoise, noise) := rng.gauss 0 sensor.trackSigmaDeg noise
  let report : SurveillanceReport :=
    { reportId := sim.scenario.scenarioId ++ "-" ++ nineDigits sim.reportSequence
      icao24 := state.icao24
      callsign := state.callsign
      observedAt := sim.now
      lat := clamp (state.lat + northDeg) (-90) 90
      lon := wrapLongitude (state.lon + eastDeg)
      altitudeBaroFt := state.altitudeFt + altitudeNoise
      groundSpeedKt := some (max 0 (state.groundSpeedKt + speedNoise))
      trackDeg := some (normalizeBearing (state.trackDeg + trackNoise))
      verticalRateFpm := some state.verticalRateFpm
      squawk := state.squawk
      onGround := false
      source := .simulator
      scenarioId := sim.scenario.scenarioId }
  (report, sim, noise)

/-- One turn of the loop of `observe`: the simulation and the reports so far. -/
def observeEntry (acc : Simulation γ × List SurveillanceReport) (state : AircraftTruth) :
    Except SimError (Simulation γ × List SurveillanceReport) :=
  if !state.airborne then .ok acc
  else do
    let noise ← getItem acc.1.noise state.icao24
    let (drawn, noise) := rng.random noise
    if drawn < acc.1.scenario.sensor.dropoutProbability then
      return ({ acc.1 with noise := acc.1.noise.set state.icao24 noise }, acc.2)
    else
      let (report, sim, noise) := observeOne rng acc.1 state noise
      return ({ sim with noise := sim.noise.set state.icao24 noise }, acc.2 ++ [report])

/-- `observe`: what the sensor layer saw this step. -/
def observe (sim : Simulation γ) : Except SimError (Simulation γ × List SurveillanceReport) :=
  sim.state.values.foldlM (observeEntry rng) (sim, [])

end Simulation

end

end Airspace
