import Airspace.Common.Contracts

/-! Scenario definitions: the input to the simulator (`acp.sim.scenario`).

    Instants of a scenario are seconds after its start, kept as exact rationals so that comparing two of
    them is decidable. The fields no part of the engine reads are left out: the description, the reference
    point and the report interval. What the validators accept is the predicate `Admitted` of each model. -/

namespace Airspace

noncomputable section

def simVersion : String := "acp-sim-v2"

/-- How the simulated surveillance layer degrades the truth. -/
structure SensorModel where
  positionSigmaM : ℝ := 30
  altitudeSigmaFt : ℝ := 25
  speedSigmaKt : ℝ := 2
  trackSigmaDeg : ℝ := 0.5
  dropoutProbability : ℝ := 0.02

structure SensorModel.Admitted (sensor : SensorModel) : Prop where
  positionSigmaM : 0 ≤ sensor.positionSigmaM
  altitudeSigmaFt : 0 ≤ sensor.altitudeSigmaFt
  speedSigmaKt : 0 ≤ sensor.speedSigmaKt
  trackSigmaDeg : 0 ≤ sensor.trackSigmaDeg
  dropoutProbability : 0 ≤ sensor.dropoutProbability ∧ sensor.dropoutProbability ≤ 1

/-- Where an aircraft starts and how it is moving. -/
structure InitialState where
  lat : ℝ
  lon : ℝ
  altitudeFt : ℝ
  groundSpeedKt : ℝ
  trackDeg : ℝ
  verticalRateFpm : ℝ := 0

structure InitialState.Admitted (initial : InitialState) : Prop where
  lat : -90 ≤ initial.lat ∧ initial.lat ≤ 90
  lon : -180 ≤ initial.lon ∧ initial.lon ≤ 180
  altitudeFt : 0 ≤ initial.altitudeFt ∧ initial.altitudeFt ≤ 60000
  groundSpeedKt : 0 ≤ initial.groundSpeedKt ∧ initial.groundSpeedKt ≤ 700
  trackDeg : 0 ≤ initial.trackDeg ∧ initial.trackDeg < 360
  verticalRateFpm : -8000 ≤ initial.verticalRateFpm ∧ initial.verticalRateFpm ≤ 8000

/-- The discriminator of a command. -/
inductive CommandKind where | turnTo | climbTo | changeSpeed | setSquawk
  deriving DecidableEq

/-- What a command orders, by its discriminator. -/
inductive CommandAction where
  | turnTo (headingDeg : ℝ) (rateDegS : ℝ := 3)
  | climbTo (altitudeFt : ℝ) (rateFpm : ℝ := 1800)
  | changeSpeed (groundSpeedKt : ℝ) (accelerationKtS : ℝ := 1)
  | setSquawk (squawk : String)

def CommandAction.kind : CommandAction → CommandKind
  | .turnTo _ _ => .turnTo
  | .climbTo _ _ => .climbTo
  | .changeSpeed _ _ => .changeSpeed
  | .setSquawk _ => .setSquawk

/-- One scripted manoeuvre and the instant it is meant for. -/
structure Command where
  atS : ℚ
  action : CommandAction

def Command.kind (command : Command) : CommandKind := command.action.kind

/-- What the validators accept as the values of an action. -/
def CommandAction.Admitted : CommandAction → Prop
  | .turnTo heading rate => (0 ≤ heading ∧ heading < 360) ∧ 0 < rate ∧ rate ≤ 10
  | .climbTo altitude rate => (0 ≤ altitude ∧ altitude ≤ 60000) ∧ 0 < rate ∧ rate ≤ 8000
  | .changeSpeed speed acceleration => (0 ≤ speed ∧ speed ≤ 700) ∧ 0 < acceleration ∧ acceleration ≤ 10
  | .setSquawk code => isSquawk code

structure Command.Admitted (command : Command) : Prop where
  atS : 0 ≤ command.atS
  action : command.action.Admitted

/-- One aircraft in a scenario. The plan may list its commands in any order. -/
structure AircraftSpec where
  icao24 : String
  callsign : String
  initial : InitialState
  squawk : Option String := none
  entryTimeS : ℚ := 0
  plan : List Command := []

structure AircraftSpec.Admitted (spec : AircraftSpec) : Prop where
  icao24 : isIcao24 spec.icao24
  callsign : 1 ≤ spec.callsign.length ∧ spec.callsign.length ≤ 8
  initial : spec.initial.Admitted
  squawk : ∀ code ∈ spec.squawk, isSquawk code
  entryTimeS : 0 ≤ spec.entryTimeS
  plan : ∀ command ∈ spec.plan, command.Admitted

/-- An aircraft in level flight at the equator. -/
def levelSpec (icao24 callsign : String) (plan : List Command) : AircraftSpec where
  icao24 := icao24
  callsign := callsign
  initial := { lat := 0, lon := 0, altitudeFt := 10000, groundSpeedKt := 200, trackDeg := 0 }
  plan := plan

/-- A complete, reproducible airspace situation. -/
structure Scenario where
  scenarioId : String
  seed : ℤ
  durationS : ℚ
  sensor : SensorModel := {}
  aircraft : List AircraftSpec

/-- The addresses of a scenario's aircraft, in the order they are listed. -/
def Scenario.addresses (scenario : Scenario) : List String := scenario.aircraft.map AircraftSpec.icao24

/-- `^[a-z0-9][a-z0-9-]*$`, of at most 64 characters. -/
def isScenarioId (s : String) : Bool :=
  let alphanumeric := fun c : Char => c.isDigit || ('a' ≤ c && c ≤ 'z')
  s.length ≤ 64 && s.toList.head?.any alphanumeric && s.toList.all (fun c => alphanumeric c || c == '-')

/-- What the field checks accept, no duplicate aircraft, and none that never appears. -/
structure Scenario.Admitted (scenario : Scenario) : Prop where
  scenarioId : isScenarioId scenario.scenarioId
  durationS : 0 < scenario.durationS
  sensor : scenario.sensor.Admitted
  aircraft : ∀ spec ∈ scenario.aircraft, spec.Admitted
  nonempty : scenario.aircraft ≠ []
  addresses : scenario.addresses.Nodup
  callsigns : (scenario.aircraft.map AircraftSpec.callsign).Nodup
  entry : ∀ spec ∈ scenario.aircraft, spec.entryTimeS < scenario.durationS

end

end Airspace
