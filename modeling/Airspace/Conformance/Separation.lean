import Airspace.Common.Contracts
import Airspace.Common.Geodesy
import Airspace.Conformance.Probability
import Airspace.Lib.Dict
import Airspace.Lib.Motion
import Mathlib.Data.EReal.Basic
import Mathlib.Data.String.Basic

/-! Predicted loss of separation between pairs of aircraft (`acp.services.conformance.separation`).

    Tracks are projected into one tangent plane, bucketed into a uniform grid, and every pair of own or
    adjacent cells is tested: the window in which the horizontal standard is breached (a quadratic) is
    intersected with the window of the vertical one (an affine function) and with the lookahead. A
    probability threshold replaces the accept test by a probability and leaves the geometry as it is.

        tracks ──▶ eligible ──▶ _kinematics ──▶ _candidate_pairs ──▶ _test_pair ──▶ sort by time -/

namespace Airspace

noncomputable section

open Classical

/-- The open interval of `t` where `a t² + b t + c < 0`, or `none`. -/
def quadraticBelow (a b c : ℝ) : Option (EReal × EReal) :=
  if |a| < 1e-12 then
    if |b| < 1e-12 then
      if c < 0 then some (⊥, ⊤) else none
    else
      let root := -c / b
      if b > 0 then some (⊥, ↑root) else some (↑root, ⊤)
  else
    let discriminant := b * b - 4 * a * c
    if discriminant ≤ 0 then none
    else
      let root := √discriminant
      some (↑((-b - root) / (2 * a)), ↑((-b + root) / (2 * a)))

/-- The open interval of `t` where `|offset + rate t| < limit`, or `none`. -/
def linearWithin (offset rate limit : ℝ) : Option (EReal × EReal) :=
  if |rate| < 1e-12 then
    if |offset| < limit then some (⊥, ⊤) else none
  else
    let low := (-limit - offset) / rate
    let high := (limit - offset) / rate
    if low ≤ high then some (↑low, ↑high) else some (↑high, ↑low)

/-- Intersect two open intervals with the lookahead window `[0, horizon]`. -/
def overlap (first second : Option (EReal × EReal)) (horizon : ℝ) : Option (ℝ × ℝ) :=
  match first, second with
  | some f, some s =>
    let start := max (max f.1 s.1) 0
    let stop := min (min f.2 s.2) horizon
    if stop > start then some (start.toReal, stop.toReal) else none
  | _, _ => none

/-- A predicted loss of separation between two tracks. -/
structure Conflict where
  firstTrackId : String
  secondTrackId : String
  firstCallsign : Option String
  secondCallsign : Option String
  timeToCpaS : ℝ
  minHorizontalNm : ℝ
  minVerticalFt : ℝ
  currentHorizontalNm : ℝ
  currentVerticalFt : ℝ
  lookaheadS : ℝ
  horizontalStandardNm : ℝ
  verticalStandardFt : ℝ
  probability : Option ℝ := none

/-- Stable identity for this pair, independent of argument order. -/
def Conflict.key (c : Conflict) : String :=
  "predicted_conflict:" ++ min c.firstTrackId c.secondTrackId ++ ":" ++
    max c.firstTrackId c.secondTrackId

def Conflict.reasonCodes (c : Conflict) : List String :=
  ["horizontal_below_standard", "vertical_below_standard"] ++
  (if c.timeToCpaS ≤ 0 then ["already_in_conflict"]
    else if c.timeToCpaS < 60 then ["imminent"] else []) ++
  (if c.currentHorizontalNm < c.horizontalStandardNm then ["currently_within_horizontal_standard"]
    else [])

/-- A track reduced to the numbers the geometry needs. -/
structure Kinematics where
  track : TrackUpdate
  eastNm : ℝ
  northNm : ℝ
  vEastKt : ℝ
  vNorthKt : ℝ
  altitudeFt : ℝ
  vAltFpm : ℝ

/-- The configured detector; the constructor of the source rejects a threshold outside `(0, 1]`. -/
structure SeparationMonitor where
  horizontalNm : ℝ := 5
  verticalFt : ℝ := 1000
  lookaheadS : ℝ := 300
  minUpdates : ℕ := 5
  probabilityThreshold : Option ℝ := none
  threshold_mem : ∀ p ∈ probabilityThreshold, 0 < p ∧ p ≤ 1 := by simp

/-- The relative motion `_test_pair` works in: nautical miles and feet, per second. -/
def relative (first second : Kinematics) : RelativeMotion where
  east := second.eastNm - first.eastNm
  north := second.northNm - first.northNm
  vEast := knotsToNmPerSecond (second.vEastKt - first.vEastKt)
  vNorth := knotsToNmPerSecond (second.vNorthKt - first.vNorthKt)
  up := second.altitudeFt - first.altitudeFt
  vUp := (second.vAltFpm - first.vAltFpm) / 60

/-- Closest approach clamped to the lookahead; now, when the relative speed is negligible. -/
def cpaTime (r : RelativeMotion) (lookaheadS : ℝ) : ℝ :=
  if r.speedSq < 1e-12 then 0 else max 0 (min lookaheadS (-r.opening / r.speedSq))

def kinematics (track : TrackUpdate) (refLat refLon : ℝ) : Kinematics :=
  let enu := toLocalEnu refLat refLon track.lat track.lon
  let heading := radians track.trackDeg
  { track := track
    eastNm := enu.1
    northNm := enu.2
    vEastKt := track.groundSpeedKt * Real.sin heading
    vNorthKt := track.groundSpeedKt * Real.cos heading
    altitudeFt := track.altitudeFt
    vAltFpm := track.verticalRateFpm }

/-- Per-axis sigmas as (position NM, velocity kt, altitude ft, rate fpm), if the producer sent them. -/
def uncertainty (track : TrackUpdate) : Option (ℝ × ℝ × ℝ × ℝ) :=
  match track.velocityUncertaintyKt, track.altitudeUncertaintyFt, track.verticalRateUncertaintyFpm with
  | some velocityKt, some altitudeFt, some rateFpm =>
    some (track.positionUncertaintyM / 1852 / √2, velocityKt, altitudeFt, rateFpm)
  | _, _, _ => none

/-- The grid cell a state falls in. -/
def cellOf (cell : ℝ) (state : Kinematics) : ℤ × ℤ :=
  (pyFloorDiv state.eastNm cell, pyFloorDiv state.northNm cell)

/-- The states bucketed by grid cell. -/
def buckets (cell : ℝ) (states : List Kinematics) : Dict (ℤ × ℤ) (List Kinematics) :=
  states.foldl (fun b state =>
    b.set (cellOf cell state) ((b.get? (cellOf cell state)).getD [] ++ [state])) Dict.empty

/-- The occupants of a cell and of the eight around it. -/
def neighbourhood (b : Dict (ℤ × ℤ) (List Kinematics)) (c : ℤ × ℤ) : List Kinematics :=
  [-1, 0, 1].flatMap fun dx => [-1, 0, 1].flatMap fun dy => (b.get? (c.1 + dx, c.2 + dy)).getD []

/-- The pairs in the order the three nested loops visit them. -/
def visits (b : Dict (ℤ × ℤ) (List Kinematics)) : List (Kinematics × Kinematics) :=
  b.items.flatMap fun entry =>
    entry.2.flatMap fun first => (neighbourhood b entry.1).map fun second => (first, second)

/-- `tuple(sorted((first_id, second_id)))`. -/
def pairKey (p : Kinematics × Kinematics) : String × String :=
  (min p.1.track.trackId p.2.track.trackId, max p.1.track.trackId p.2.track.trackId)

/-- The loop body: skip a state with itself and a pair already seen. -/
def visit (acc : List (String × String) × List (Kinematics × Kinematics))
    (p : Kinematics × Kinematics) : List (String × String) × List (Kinematics × Kinematics) :=
  if p.1.track.trackId = p.2.track.trackId then acc
  else if pairKey p ∈ acc.1 then acc
  else (pairKey p :: acc.1, acc.2 ++ [p])

namespace SeparationMonitor

variable (m : SeparationMonitor)

/-- How far apart two aircraft can be and still conflict in the window. -/
def interactionRadiusNm : ℝ :=
  let maxClosingKt := 1200
  knotsToNmPerSecond maxClosingKt * m.lookaheadS + m.horizontalNm

/-- Pairs close enough to be worth the full geometry test. -/
def candidatePairs (states : List Kinematics) : List (Kinematics × Kinematics) :=
  ((visits (buckets m.interactionRadiusNm states)).foldl visit ([], [])).2

/-- How far the cheap vertical rejection must be widened, in feet. -/
def verticalSlack (first second : Kinematics) : ℝ :=
  match m.probabilityThreshold, uncertainty first.track, uncertainty second.track with
  | some _, some (_, _, alt₁, rate₁), some (_, _, alt₂, rate₂) =>
    sigmaCutoff * projectedSigma alt₁ alt₂ (rate₁ / 60) (rate₂ / 60) m.lookaheadS
  | _, _, _ => 0

/-- P(conflict), or `none` if this pair must be judged deterministically. -/
def probability (first second : Kinematics) (minHorizontalNm minVerticalFt tCpaS : ℝ) : Option ℝ :=
  match m.probabilityThreshold, uncertainty first.track, uncertainty second.track with
  | some _, some (pos₁, vel₁, alt₁, rate₁), some (pos₂, vel₂, alt₂, rate₂) =>
    let horizontalSigma :=
      projectedSigma pos₁ pos₂ (knotsToNmPerSecond vel₁) (knotsToNmPerSecond vel₂) tCpaS
    let verticalSigma := projectedSigma alt₁ alt₂ (rate₁ / 60) (rate₂ / 60) tCpaS
    some (conflictProbability minHorizontalNm minVerticalFt horizontalSigma verticalSigma
      m.horizontalNm m.verticalFt)
  | _, _, _ => none

/-- The window in which both standards are breached at once, as the code computes it. -/
def window (r : RelativeMotion) : Option (ℝ × ℝ) :=
  overlap
    (quadraticBelow r.speedSq (2 * r.opening) (r.rangeSq - m.horizontalNm ^ 2))
    (linearWithin r.up r.vUp m.verticalFt)
    m.lookaheadS

/-- `(t_report, min_horizontal, min_vertical)`. -/
def report (r : RelativeMotion) : ℝ × ℝ × ℝ :=
  let tCpa := cpaTime r m.lookaheadS
  match m.window r with
  | none => (tCpa, r.horizontalAt tCpa, r.verticalAt tCpa)
  | some (start, stop) =>
    let tReport := max start (min stop tCpa)
    (tReport, r.horizontalAt tReport, min (r.verticalAt start) (r.verticalAt stop))

/-- The cheap vertical rejection at the head of `_test_pair`. -/
def rejectsVertically (first second : Kinematics) : Prop :=
  let verticalNow := |second.altitudeFt - first.altitudeFt|
  let maxVerticalClosure := |second.vAltFpm - first.vAltFpm| / 60 * m.lookaheadS
  verticalNow - maxVerticalClosure - m.verticalSlack first second ≥ m.verticalFt

/-- The conflict `_test_pair` reports for a pair it accepts. -/
def conflictFor (first second : Kinematics) (probability : Option ℝ) : Conflict :=
  let r := relative first second
  let (tReport, minHorizontal, minVertical) := m.report r
  { probability := probability
    firstTrackId := first.track.trackId
    secondTrackId := second.track.trackId
    firstCallsign := first.track.callsign
    secondCallsign := second.track.callsign
    timeToCpaS := tReport
    minHorizontalNm := minHorizontal
    minVerticalFt := minVertical
    currentHorizontalNm := √(r.east ^ 2 + r.north ^ 2)
    currentVerticalFt := |second.altitudeFt - first.altitudeFt|
    lookaheadS := m.lookaheadS
    horizontalStandardNm := m.horizontalNm
    verticalStandardFt := m.verticalFt }

def testPair (first second : Kinematics) : Option Conflict :=
  if m.rejectsVertically first second then none
  else
    let r := relative first second
    let (tReport, minHorizontal, minVertical) := m.report r
    match m.probability first second minHorizontal minVertical tReport with
    | none => if m.window r = none then none else some (m.conflictFor first second none)
    | some p =>
      if p < m.probabilityThreshold.getD 0 then none else some (m.conflictFor first second (some p))

def eligible (tracks : List TrackUpdate) : List TrackUpdate :=
  tracks.filter (fun t => t.updateCount ≥ m.minUpdates)

/-- The eligible tracks projected about the mean of their positions. -/
def states (tracks : List TrackUpdate) : List Kinematics :=
  let eligible := m.eligible tracks
  let refLat := (eligible.map TrackUpdate.lat).sum / eligible.length
  let refLon := (eligible.map TrackUpdate.lon).sum / eligible.length
  eligible.map (fun t => kinematics t refLat refLon)

/-- Test every plausible pair and return the conflicts found, soonest first. -/
def scan (tracks : List TrackUpdate) : List Conflict :=
  if (m.eligible tracks).length < 2 then []
  else
    let conflicts := (m.candidatePairs (m.states tracks)).filterMap (fun p => m.testPair p.1 p.2)
    conflicts.mergeSort (fun a b => a.timeToCpaS ≤ b.timeToCpaS)

end SeparationMonitor

end

end Airspace
