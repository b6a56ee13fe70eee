import Airspace.Common.Contracts
import Airspace.Lib.Dict
import Airspace.Lib.KeyedFold

/-! The track history (`acp.storage.stores.TrackHistoryStore`).

    Two tables: one row for each track, upserted, and one point for each track and instant, inserted unless
    it is there. `record` collapses a batch in memory first, to the newest update of each track and to the
    last update of each track and instant, since a statement may not touch a row twice. -/

namespace Airspace

noncomputable section

/-- The value of the enumeration, as it is stored. -/
def TrackState.value : TrackState → String
  | .initiating => "initiating"
  | .confirmed => "confirmed"
  | .coasting => "coasting"
  | .terminated => "terminated"

/-- A row of `tracks`, under its `track_id`. -/
structure TrackRow where
  trackId : String
  icao24 : String
  callsign : Option String
  scenarioId : Option String
  firstSeenAt : Instant
  lastSeenAt : Instant
  state : String
  updateCount : ℕ

/-- A row of `track_points`, unique in its `track_id` and `observed_at`. -/
structure TrackPoint where
  trackId : String
  observedAt : Instant
  lat : ℝ
  lon : ℝ
  altitudeFt : ℝ
  groundSpeedKt : ℝ
  trackDeg : ℝ
  verticalRateFpm : ℝ
  turnRateDegS : ℝ
  positionUncertaintyM : ℝ

structure TrackHistoryStore where
  tracks : Dict String TrackRow := Dict.empty
  points : Dict (String × Instant) TrackPoint := Dict.empty

/-- `update.updated_at >= existing.updated_at` against the update held, if any. -/
def newerUpdate (held : Option TrackUpdate) (u : TrackUpdate) : Option TrackUpdate :=
  match held with
  | none => some u
  | some existing => if u.updatedAt ≥ existing.updatedAt then some u else held

/-- `update.last_report_at < earliest` against the time held, if any. -/
def earlierReport (held : Option Instant) (u : TrackUpdate) : Option Instant :=
  match held with
  | none => some u.lastReportAt
  | some earliest => if u.lastReportAt < earliest then some u.lastReportAt else held

namespace TrackHistoryStore

/-- The loop over the batch: the newest update of each track, and its earliest report. -/
def collapse (acc : Dict String TrackUpdate × Dict String Instant) (u : TrackUpdate) :
    Dict String TrackUpdate × Dict String Instant :=
  (match newerUpdate (acc.1.get? u.trackId) u with
    | some latest => acc.1.set u.trackId latest
    | none => acc.1,
   match earlierReport (acc.2.get? u.trackId) u with
    | some earliest => acc.2.set u.trackId earliest
    | none => acc.2)

/-- The row an update is inserted as. -/
def trackRow (u : TrackUpdate) (firstSeenAt : Instant) : TrackRow where
  trackId := u.trackId
  icao24 := u.icao24
  callsign := u.callsign
  scenarioId := u.scenarioId
  firstSeenAt := firstSeenAt
  lastSeenAt := u.updatedAt
  state := u.state.value
  updateCount := u.updateCount

/-- The point an update is inserted as. -/
def pointRow (u : TrackUpdate) : TrackPoint where
  trackId := u.trackId
  observedAt := u.updatedAt
  lat := u.lat
  lon := u.lon
  altitudeFt := u.altitudeFt
  groundSpeedKt := u.groundSpeedKt
  trackDeg := u.trackDeg
  verticalRateFpm := u.verticalRateFpm
  turnRateDegS := u.turnRateDegS
  positionUncertaintyM := u.positionUncertaintyM

/-- `ON CONFLICT (track_id) DO UPDATE`: the four columns that follow the track, the others stay. -/
def doUpdate (existing excluded : TrackRow) : TrackRow :=
  { existing with
    lastSeenAt := excluded.lastSeenAt
    state := excluded.state
    updateCount := excluded.updateCount
    callsign := excluded.callsign }

/-- What an insert makes of the row under its key. -/
def upserted (held : Option TrackRow) (row : TrackRow) : Option TrackRow :=
  match held with
  | none => some row
  | some existing => some (doUpdate existing row)

def upsert (tracks : Dict String TrackRow) (row : TrackRow) : Dict String TrackRow :=
  match upserted (tracks.get? row.trackId) row with
  | some kept => tracks.set row.trackId kept
  | none => tracks

/-- `ON CONFLICT DO NOTHING`. -/
def insertPoint (points : Dict (String × Instant) TrackPoint) (row : TrackPoint) :
    Dict (String × Instant) TrackPoint :=
  match points.get? (row.trackId, row.observedAt) with
  | none => points.set (row.trackId, row.observedAt) row
  | some _ => points

/-- Persist a batch of updates. -/
def record (store : TrackHistoryStore) (updates : List TrackUpdate) : TrackHistoryStore :=
  match updates with
  | [] => store
  | updates =>
    let collapsed := updates.foldl collapse (Dict.empty, Dict.empty)
    -- `first_seen` has an entry wherever `latest` has one
    let trackRows := collapsed.1.values.map fun u =>
      trackRow u ((collapsed.2.get? u.trackId).getD u.lastReportAt)
    let points := updates.foldl (fun d u => d.set (u.trackId, u.updatedAt) u) Dict.empty
    { tracks := trackRows.foldl upsert store.tracks
      points := (points.values.map pointRow).foldl insertPoint store.points }

/-- The tables hold the same rows, whatever the order of insertion. -/
structure SameTables (a b : TrackHistoryStore) : Prop where
  tracks : ∀ trackId, a.tracks.get? trackId = b.tracks.get? trackId
  points : ∀ trackId observedAt, a.points.get? (trackId, observedAt) = b.points.get? (trackId, observedAt)

theorem SameTables.symm {a b : TrackHistoryStore} (h : SameTables a b) : SameTables b a :=
  ⟨fun trackId => (h.tracks trackId).symm, fun trackId observedAt => (h.points trackId observedAt).symm⟩

theorem SameTables.trans {a b c : TrackHistoryStore} (h : SameTables a b) (h' : SameTables b c) :
    SameTables a c :=
  ⟨fun trackId => (h.tracks trackId).trans (h'.tracks trackId),
    fun trackId observedAt => (h.points trackId observedAt).trans (h'.points trackId observedAt)⟩

/-! ### One batch, read at a key -/

variable {store : TrackHistoryStore} {updates : List TrackUpdate} {trackId : String} {observedAt : Instant}

/-- The updates of one track. -/
def ofTrack (trackId : String) (updates : List TrackUpdate) : List TrackUpdate :=
  updates.filter fun u => u.trackId = trackId

/-- The updates of one track at one instant. -/
def atInstant (trackId : String) (observedAt : Instant) (updates : List TrackUpdate) : List TrackUpdate :=
  updates.filter fun u => (u.trackId, u.updatedAt) = (trackId, observedAt)

def latestOf (us : List TrackUpdate) : Option TrackUpdate := us.foldl newerUpdate none

def earliestOf (us : List TrackUpdate) : Option Instant := us.foldl earlierReport none

theorem newerUpdate_ne_none (held : Option TrackUpdate) (u : TrackUpdate) :
    ∃ kept, newerUpdate held u = some kept ∧ (kept = u ∨ some kept = held) := by
  cases held with
  | none => exact ⟨u, rfl, .inl rfl⟩
  | some existing =>
    simp only [newerUpdate]
    split_ifs
    · exact ⟨u, rfl, .inl rfl⟩
    · exact ⟨existing, rfl, .inr rfl⟩

theorem earlierReport_ne_none (held : Option Instant) (u : TrackUpdate) :
    ∃ kept, earlierReport held u = some kept := by
  cases held with
  | none => exact ⟨_, rfl⟩
  | some earliest =>
    simp only [earlierReport]
    split_ifs
    · exact ⟨_, rfl⟩
    · exact ⟨_, rfl⟩

theorem get?_collapse (acc : Dict String TrackUpdate × Dict String Instant) (u : TrackUpdate)
    (trackId : String) : (collapse acc u).1.get? trackId =
      (if u.trackId = trackId then newerUpdate (acc.1.get? trackId) u else acc.1.get? trackId) ∧
    (collapse acc u).2.get? trackId =
      if u.trackId = trackId then earlierReport (acc.2.get? trackId) u else acc.2.get? trackId := by
  obtain ⟨latest, hlatest, -⟩ := newerUpdate_ne_none (acc.1.get? u.trackId) u
  obtain ⟨earliest, hearliest⟩ := earlierReport_ne_none (acc.2.get? u.trackId) u
  simp only [collapse, hlatest, hearliest, Dict.get?_set]
  by_cases hid : trackId = u.trackId
  · subst hid
    simp [hlatest, hearliest]
  · simp [hid, Ne.symm hid]

/-- The collapsed batch holds for each track what its own updates make of it. -/
theorem get?_collapsed (updates : List TrackUpdate) (trackId : String) :
    (updates.foldl collapse (Dict.empty, Dict.empty)).1.get? trackId = latestOf (ofTrack trackId updates) ∧
    (updates.foldl collapse (Dict.empty, Dict.empty)).2.get? trackId =
      earliestOf (ofTrack trackId updates) :=
  ⟨view_foldl_filter (fun k acc => acc.1.get? k) _ _ (fun acc u k => (get?_collapse acc u k).1) _ _ _,
    view_foldl_filter (fun k acc => acc.2.get? k) _ _ (fun acc u k => (get?_collapse acc u k).2) _ _ _⟩

end TrackHistoryStore

end

end Airspace
