import Airspace.Lib.Draws
import Airspace.Lib.While
import Airspace.Sim.ScenarioFile

/-! Randomised scenarios for evaluation (`acp.sim.generator`).

    A family of scenarios is drawn from a seed, each encounter from its own source, seeded by the version,
    the seed and the index. An encounter the validators reject is left out and the next index is tried, so
    many times at most. Draws are rationals; what is computed from them is real. -/

namespace Airspace

noncomputable section

def generatorVersion : String := "acp-gen-v1"

def centreLat : ℝ := 40.60

def centreLon : ℝ := -75.50

/-- The knobs that define a scenario family. -/
structure FamilyParameters where
  name : String
  backgroundAircraft : ℕ × ℕ := (2, 5)
  speedKt : ℚ × ℚ := (380, 500)
  flightLevels : List ℕ := [300, 310, 320, 330, 340, 350, 360, 370, 380, 390]
  missDistanceNm : ℚ × ℚ := (0, 12)
  crossingAngleDeg : ℚ × ℚ := (30, 180)
  manoeuvreProbability : ℚ := 0.35
  backgroundManoeuvreProbability : ℚ := 0
  manoeuvresPerAircraft : ℕ := 1
  verticalOffsetFt : ℚ × ℚ := (0, 1400)
  durationS : ℚ := 600
  levels_ne : flightLevels ≠ [] := by simp

/-- `NOMINAL`. -/
def nominal : FamilyParameters where
  name := "nominal"

/-- `TRAINING`. -/
def training : FamilyParameters where
  name := "training"
  backgroundAircraft := (4, 7)
  manoeuvreProbability := 0.95
  backgroundManoeuvreProbability := 0.8
  manoeuvresPerAircraft := 3
  durationS := 900

/-- `SHIFTED`. -/
def shifted : FamilyParameters where
  name := "shifted"
  backgroundAircraft := (5, 9)
  speedKt := (300, 560)
  flightLevels := [240, 250, 260, 270, 280, 290, 400, 410]
  crossingAngleDeg := (15, 180)
  manoeuvreProbability := 0.9
  backgroundManoeuvreProbability := 0.7
  manoeuvresPerAircraft := 2
  verticalOffsetFt := (0, 1800)
  durationS := 900

/-! ### Texts of numbers -/

/-- A number in a base, with leading zeros up to a width. -/
def padded (base width n : ℕ) : String :=
  String.ofList (List.replicate (width - (Nat.toDigits base n).length) '0' ++ Nat.toDigits base n)

/-- `f"{x:.{places}f}"`. A negative number that rounds to zero keeps its sign. -/
def fixedPoint (places : ℕ) (x : ℚ) : String :=
  let n := (roundHalfEven (|x| * 10 ^ places)).toNat
  let sign := if x < 0 then "-" else ""
  if places = 0 then sign ++ toString n
  else sign ++ toString (n / 10 ^ places) ++ "." ++ padded 10 places (n % 10 ^ places)

/-! ### Drawing an encounter -/

namespace FamilyParameters

variable {γ : Type} (rng : Source γ) (params : FamilyParameters)

/-- `_address`. -/
def address : StateM γ String := do
  return padded 16 6 (← rng.getrandbits 24)

/-- `_one_manoeuvre`. -/
def oneManoeuvre (atS : ℚ) (trackDeg levelFt speedKt : ℝ) : StateM γ Command := do
  let choice ← rng.random
  if choice < 0.45 then do
    let offset ← rng.uniform (-60) 60
    let rate ← rng.uniform 1 3
    return ⟨atS, .turnTo (normalizeBearing (trackDeg + offset)) rate⟩
  else if choice < 0.8 then do
    let step ← rng.choice [-2000, -1000, 1000, 2000] (by simp)
    let rate ← rng.uniform 800 2200
    return ⟨atS, .climbTo (max 1000 (min 45000 (levelFt + step))) rate⟩
  else do
    let offset ← rng.uniform (-60) 60
    let acceleration ← rng.uniform 0.5 2
    return ⟨atS, .changeSpeed (max 200 (speedKt + offset)) acceleration⟩

/-- The heading a later manoeuvre starts from. -/
def headingAfter (heading : ℝ) (command : Command) : ℝ :=
  match command.action with
  | .turnTo headingDeg _ => headingDeg
  | _ => heading

/-- The manoeuvres after the first, from the one of an index on. -/
def laterManoeuvres (levelFt speedKt : ℝ) : ℕ → ℕ → ℝ → StateM γ (List Command)
  | 0, _, _ => return []
  | n + 1, index, heading => do
    let spread ← rng.uniform 150 260
    let command ← oneManoeuvre rng (60 + index * spread) heading levelFt speedKt
    let rest ← laterManoeuvres levelFt speedKt n (index + 1) (headingAfter heading command)
    return command :: rest

/-- `_maybe_manoeuvre`. The later manoeuvres turn from the track, and not from where the first one turned. -/
def maybeManoeuvre (trackDeg levelFt speedKt : ℝ) (probability : Option ℚ := none) :
    StateM γ (List Command) := do
  let threshold := probability.getD params.manoeuvreProbability
  let luck ← rng.random
  if threshold ≤ luck then return []
  else do
    let atS ← rng.uniform 60 240
    let first ← oneManoeuvre rng atS trackDeg levelFt speedKt
    let later ← laterManoeuvres rng levelFt speedKt (params.manoeuvresPerAircraft - 1) 1 trackDeg
    return first :: later

/-- The plan of an aircraft of the background, if its family plans any. -/
def backgroundPlan (trackDeg levelFt speedKt : ℝ) : StateM γ (List Command) :=
  if 0 < params.backgroundManoeuvreProbability then
    maybeManoeuvre rng params trackDeg levelFt speedKt (some params.backgroundManoeuvreProbability)
  else pure []

/-- One aircraft of the background. -/
def backgroundOne (number : ℕ) : StateM γ AircraftSpec := do
  let bearing ← rng.uniform 0 359
  let distance ← rng.uniform 40 120
  let place := destinationPoint centreLat centreLon bearing distance
  let icao24 ← address rng
  let level ← rng.choice params.flightLevels params.levels_ne
  let levelFt : ℝ := level * 100
  let speedKt ← rng.uniform params.speedKt.1 params.speedKt.2
  let turn ← rng.uniform (-45) 45
  let trackDeg := normalizeBearing (bearing + turn)
  let plan ← backgroundPlan rng params trackDeg levelFt speedKt
  return {
    icao24
    callsign := "BKG" ++ padded 10 3 number
    initial := { lat := place.1, lon := place.2, altitudeFt := levelFt, groundSpeedKt := speedKt, trackDeg }
    plan }

/-- `_background`. -/
def background (existing : ℕ) : StateM γ (List AircraftSpec) := do
  let count ← rng.randint params.backgroundAircraft.1 params.backgroundAircraft.2
  (List.range count).mapM fun i => backgroundOne rng params (existing + i)

/-- What `generate_encounter` draws, before it is validated. -/
def drawEncounter (index : ℕ) (seed : ℤ) : StateM γ ScenarioDocument := do
  let speedA ← rng.uniform params.speedKt.1 params.speedKt.2
  let speedB ← rng.uniform params.speedKt.1 params.speedKt.2
  let flightLevel ← rng.choice params.flightLevels params.levels_ne
  let level : ℝ := flightLevel * 100
  let verticalOffset ← rng.uniform params.verticalOffsetFt.1 params.verticalOffsetFt.2
  let missNm ← rng.uniform params.missDistanceNm.1 params.missDistanceNm.2
  let crossing ← rng.uniform params.crossingAngleDeg.1 params.crossingAngleDeg.2
  let timeToMeetS ← rng.uniform 240 420
  let trackA ← rng.uniform 0 359
  let trackB := normalizeBearing (trackA + crossing)
  let startA := destinationPoint centreLat centreLon (normalizeBearing (trackA + 180))
    (speedA * timeToMeetS / 3600)
  let aimedB := destinationPoint centreLat centreLon (normalizeBearing (trackB + 180))
    (speedB * timeToMeetS / 3600)
  let startB := destinationPoint aimedB.1 aimedB.2 (normalizeBearing (trackB + 90)) missNm
  let icaoA ← address rng
  let planA ← maybeManoeuvre rng params trackA level speedA
  let icaoB ← address rng
  let planB ← maybeManoeuvre rng params trackB (level + verticalOffset) speedB
  let others ← background rng params 2
  return {
    scenario := {
      scenarioId := "gen-" ++ params.name ++ "-enc-" ++ padded 10 4 index
      seed := seed * 1000 + index
      durationS := params.durationS
      aircraft := {
          icao24 := icaoA
          callsign := "ENC" ++ padded 10 3 index ++ "A"
          initial := {
            lat := startA.1
            lon := startA.2
            altitudeFt := level
            groundSpeedKt := speedA
            trackDeg := normalizeBearing trackA }
          plan := planA } :: {
          icao24 := icaoB
          callsign := "ENC" ++ padded 10 3 index ++ "B"
          initial := {
            lat := startB.1
            lon := startB.2
            altitudeFt := level + verticalOffset
            groundSpeedKt := speedB
            trackDeg := normalizeBearing trackB }
          plan := planB } :: others }
    description := "Generated encounter: " ++ fixedPoint 0 crossing ++ " deg crossing, " ++ fixedPoint 1 missNm ++
      " NM lateral offset, " ++ fixedPoint 0 verticalOffset ++ " ft vertical offset."
    reference := (centreLat, centreLon) }

/-- The encounter of an index, before it is validated. -/
def drawn (seed : ℤ) (index : ℕ) : ScenarioDocument :=
  ((drawEncounter rng params index seed).run
    (rng.seeded (generatorVersion ++ ":" ++ toString seed ++ ":" ++ toString index))).1

open Classical in
/-- `generate_encounter`: nothing if building the models raises a `ValueError`, which it does unless every
    validator accepts. -/
def generateEncounter (index : ℕ) (seed : ℤ) : Option ScenarioDocument :=
  if (drawn rng params seed index).Admitted then some (drawn rng params seed index) else none

/-- The loop of `generate_family`. -/
structure Family where
  scenarios : List ScenarioDocument := []
  index : ℕ := 0
  attempts : ℕ := 0

/-- There are enough scenarios, or no attempt is left. -/
def Family.done (count : ℕ) (f : Family) : Bool := !(f.scenarios.length < count && f.attempts < count * 10)

/-- One attempt. -/
def attempt (seed : ℤ) (f : Family) : Except Empty Family :=
  .ok {
    scenarios := f.scenarios ++ (generateEncounter rng params f.index seed).toList
    index := f.index + 1
    attempts := f.attempts + 1 }

/-- `generate_family`: the scenarios, or the text of its `RuntimeError`; nothing if the fuel is not enough. -/
def generateFamily (count : ℕ) (seed : ℤ) (fuel : ℕ) : Option (Except String (List ScenarioDocument)) :=
  (whileNot (Family.done count) (attempt rng params seed) fuel {}).map fun
    | .ok f =>
      if f.scenarios.length < count then
        .error ("only generated " ++ toString f.scenarios.length ++ " of " ++ toString count ++ " scenarios")
      else .ok f.scenarios
    | .error e => e.elim

end FamilyParameters

end

end Airspace
