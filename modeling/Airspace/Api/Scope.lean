import Airspace.Api.Display
import Airspace.Common.Contracts
import Airspace.Lib.Dict
import Airspace.Lib.KeyOrder
import Airspace.Lib.KeyedFold
import Mathlib.Data.List.DropRight
import Mathlib.Data.List.MinMax
import Mathlib.Data.List.Sort

/-! What the browser display shows (`acp/services/api/static/app.js`).

    Every payload replaces the picture: what it does not name is gone, what it names is drawn where it says,
    at the end of a trail of the places it was drawn at before. A trail goes back to the last payload that
    did not name the track, and no further than ninety places. -/

namespace Airspace

noncomputable section

/-! ### Payloads -/

/-- What `/v1/tracks` answers, as far as the display reads it. -/
structure TracksPayload where
  generatedAt : Instant
  count : ℕ
  tracks : List TrackUpdate

/-- What `/v1/alerts` answers, as far as the display reads it. -/
structure AlertsPayload where
  generatedAt : Instant
  alerts : List Alert

/-- What the server pushes. -/
structure StreamFrame where
  generatedAt : Instant
  liveWindowS : ℚ
  tracks : List TrackUpdate
  alerts : List Alert

def StreamFrame.forAlerts (frame : StreamFrame) : AlertsPayload := ⟨frame.generatedAt, frame.alerts⟩

def StreamFrame.forTracks (frame : StreamFrame) : TracksPayload :=
  ⟨frame.generatedAt, frame.tracks.length, frame.tracks⟩

/-! ### The view -/

/-- `getBoundingClientRect()` of a canvas with room to draw in: one of no width has an infinite scale. -/
structure Canvas where
  width : ℝ
  height : ℝ
  width_pos : 0 < width
  height_pos : 0 < height

/-- Where the picture is centred, and its scale. -/
structure View where
  lat : ℝ
  lon : ℝ
  nmPerPixel : ℝ

/-- `FIT_SMOOTHING`. -/
def fitSmoothing : ℝ := 0.12

/-- Halfway between the smallest and the largest. -/
def midpoint (xs : List ℝ) : ℝ := (xs.min?.getD 0 + xs.max?.getD 0) / 2

/-- How far the tracks spread along an axis about the centre: ten miles at the least. -/
def spanNm (offset : TrackUpdate → ℝ) (tracks : List TrackUpdate) : ℝ :=
  tracks.foldl (fun span t => max span (|offset t| * 2)) 10

/-- The view that fits the tracks. -/
def targetView (canvas : Canvas) (tracks : List TrackUpdate) : View :=
  let centreLat := midpoint (tracks.map (·.lat))
  let centreLon := midpoint (tracks.map (·.lon))
  let eastSpanNm := spanNm (fun t => (toLocal centreLat centreLon t.lat t.lon).1) tracks
  let northSpanNm := spanNm (fun t => (toLocal centreLat centreLon t.lat t.lon).2) tracks
  { lat := centreLat
    lon := centreLon
    nmPerPixel := max (max (eastSpanNm * 1.3 / canvas.width) (northSpanNm * 1.35 / canvas.height)) 0.02 }

/-- Part of the way from one view to another. -/
def View.towards (view target : View) : View where
  lat := view.lat + (target.lat - view.lat) * fitSmoothing
  lon := view.lon + (target.lon - view.lon) * fitSmoothing
  nmPerPixel := view.nmPerPixel + (target.nmPerPixel - view.nmPerPixel) * fitSmoothing

def fitView (canvas : Canvas) (view : Option View) (tracks : List TrackUpdate) : Option View :=
  if tracks = [] then view
  else some ((view.map fun view => view.towards (targetView canvas tracks)).getD (targetView canvas tracks))

/-- Where a place is drawn. -/
def project (canvas : Canvas) (view : View) (lat lon : ℝ) : ℝ × ℝ :=
  let offset := toLocal view.lat view.lon lat lon
  (canvas.width / 2 + offset.1 / view.nmPerPixel, canvas.height / 2 - offset.2 / view.nmPerPixel)

/-! ### The picture -/

/-- A track and the places it was drawn at. -/
structure Entry where
  track : TrackUpdate
  trail : List (ℝ × ℝ)

/-- `TRAIL_LENGTH`. -/
def trailLength : ℕ := 90

/-- `SEVERITY_ORDER`. -/
def severityOrder : Severity → ℕ
  | .warning => 0
  | .caution => 1
  | .advisory => 2
  | .info => 3

/-- What an alert is listed with. -/
structure AlertRow where
  severity : Severity
  ageS : ℤ
  summary : String
  reasonCodes : List String

/-- What is on the screen, and what it is drawn from. -/
structure Scope where
  state : Dict String Entry := Dict.empty
  view : Option View := none
  alertedTracks : Finset String := ∅
  alertList : List AlertRow := []
  alertCount : ℕ := 0
  alertEmptyHidden : Bool := false
  tracksShown : ℕ := 0
  updatedAt : Option Instant := none

/-- What an entry is after one more place; the oldest place goes when there are too many. -/
def Entry.shown (held : Option Entry) (track : TrackUpdate) : Entry :=
  let trail := (held.map (·.trail)).getD [] ++ [(track.lat, track.lon)]
  { track := track, trail := if trailLength < trail.length then trail.tail else trail }

/-- The loop body of `ingest`. -/
def showTrack (state : Dict String Entry) (track : TrackUpdate) : Dict String Entry :=
  state.set track.trackId (Entry.shown (state.get? track.trackId) track)

/-- A payload names a track. -/
def TracksPayload.Names (payload : TracksPayload) (id : String) : Prop := id ∈ payload.tracks.map (·.trackId)

instance (payload : TracksPayload) (id : String) : Decidable (payload.Names id) := by
  unfold TracksPayload.Names
  infer_instance

/-- The tracks of a payload are shown, and anything it no longer names is dropped. -/
def showPayload (state : Dict String Entry) (payload : TracksPayload) : Dict String Entry :=
  (payload.tracks.foldl showTrack state).filterKeys fun id => payload.Names id

def ingest (canvas : Canvas) (scope : Scope) (payload : TracksPayload) : Scope :=
  { scope with
    state := showPayload scope.state payload
    view := fitView canvas scope.view payload.tracks
    tracksShown := payload.count
    updatedAt := some payload.generatedAt }

/-- `Date.parse`: whole milliseconds. -/
def dateParse (t : Instant) : ℤ := t / 1000

/-- `Math.max(0, Math.round((now - Date.parse(alert.raised_at)) / 1000))`. -/
def ageS (now : Instant) (alert : Alert) : ℤ :=
  max 0 ((dateParse now - dateParse alert.raisedAt + 500) / 1000)

/-- What an alert says in the list. -/
def AlertRow.of (now : Instant) (alert : Alert) : AlertRow where
  severity := alert.severity
  ageS := Airspace.ageS now alert
  summary := alert.summary
  reasonCodes := alert.reasonCodes

def updateAlerts (scope : Scope) (payload : AlertsPayload) : Scope :=
  let alerts := inKeyOrder (fun a => severityOrder a.severity) payload.alerts
  { scope with
    alertedTracks := (alerts.flatMap (·.trackIds)).toFinset
    alertList := alerts.map (.of payload.generatedAt)
    alertCount := alerts.length
    alertEmptyHidden := 0 < alerts.length }

/-! ### What the picture is -/

/-- The entry of a track shown so often. -/
def entryFrom (sightings : List TrackUpdate) : Option Entry :=
  sightings.getLast?.map fun track =>
    { track := track, trail := (sightings.map fun t => (t.lat, t.lon)).rtake trailLength }

/-- How often and where a track was shown since the last payload that did not name it. -/
def sightings (payloads : List TracksPayload) (id : String) : List TrackUpdate :=
  (payloads.rtakeWhile fun payload => payload.Names id).flatMap fun payload =>
    payload.tracks.filter fun t => t.trackId = id

theorem rtake_concat {α : Type} (l : List α) (a : α) (n : ℕ) (hn : 0 < n) :
    (if n < (l.rtake n ++ [a]).length then (l.rtake n ++ [a]).tail else l.rtake n ++ [a]) =
      (l ++ [a]).rtake n := by
  obtain ⟨n, rfl⟩ := Nat.exists_eq_succ_of_ne_zero hn.ne'
  rw [List.rtake_concat_succ]
  rcases le_or_gt (n + 1) l.length with hlong | hshort
  · have hcut : l.length - (n + 1) + 1 = l.length - n := by omega
    have hlength : (l.rtake (n + 1)).length = n + 1 := by
      rw [List.rtake, List.length_drop]
      omega
    have hne : l.rtake (n + 1) ≠ [] := List.ne_nil_of_length_eq_add_one hlength
    have hover : n + 1 < (l.rtake (n + 1) ++ [a]).length := by
      rw [List.length_append, hlength, List.length_singleton]
      omega
    rw [if_pos hover, List.tail_append_of_ne_nil hne, List.rtake, List.rtake, List.tail_drop, hcut]
  · have hwhole : l.length - (n + 1) = 0 := by omega
    have hwhole' : l.length - n = 0 := by omega
    have hunder : ¬ n + 1 < (l.rtake (n + 1) ++ [a]).length := by
      rw [List.rtake, hwhole, List.drop_zero, List.length_append, List.length_singleton]
      omega
    rw [if_neg hunder, List.rtake, List.rtake, hwhole, hwhole']

theorem shown_entryFrom (seen : List TrackUpdate) (track : TrackUpdate) :
    some (Entry.shown (entryFrom seen) track) = entryFrom (seen ++ [track]) := by
  have htrail : ((entryFrom seen).map (·.trail)).getD [] =
      (seen.map fun t => (t.lat, t.lon)).rtake trailLength := by
    rcases List.eq_nil_or_concat seen with rfl | ⟨init, last, rfl⟩
    · rfl
    · simp [entryFrom]
  have hplaces := rtake_concat (seen.map fun t => (t.lat, t.lon)) (track.lat, track.lon) trailLength (by decide)
  rw [Entry.shown, htrail, hplaces]
  simp [entryFrom]

/-- A track shown some more times. -/
theorem foldl_shown (more seen : List TrackUpdate) :
    more.foldl (fun held t => some (Entry.shown held t)) (entryFrom seen) = entryFrom (seen ++ more) := by
  induction more generalizing seen with
  | nil => rw [List.append_nil, List.foldl_nil]
  | cons t more ih => rw [List.foldl_cons, shown_entryFrom, ih, List.append_assoc, List.singleton_append]

theorem get?_foldl_showTrack (tracks : List TrackUpdate) (state : Dict String Entry) (id : String) :
    (tracks.foldl showTrack state).get? id =
      (tracks.filter fun t => t.trackId = id).foldl (fun held t => some (Entry.shown held t)) (state.get? id) :=
  view_foldl_filter (fun id (state : Dict String Entry) => state.get? id) TrackUpdate.trackId
    (fun held t => some (Entry.shown held t)) (fun s u id => by
      rw [showTrack, Dict.get?_set]
      by_cases hid : u.trackId = id
      · rw [if_pos hid.symm, if_pos hid, hid]
      · rw [if_neg (Ne.symm hid), if_neg hid]) tracks state id

/-- The picture after some payloads: of each track that the last one names, its last state, and the last ninety
    of the places it was shown at since a payload did not name it. -/
theorem get?_foldl_showPayload (payloads : List TracksPayload) (id : String) :
    (payloads.foldl showPayload Dict.empty).get? id = entryFrom (sightings payloads id) := by
  induction payloads using List.reverseRecOn with
  | nil => rfl
  | append_singleton payloads payload ih =>
    rw [List.foldl_concat, showPayload, Dict.get?_filterKeys, get?_foldl_showTrack, ih, sightings, sightings]
    by_cases hnames : payload.Names id
    · rw [if_pos (by simpa using hnames), foldl_shown, List.rtakeWhile_concat_pos _ _ _ (by simpa using hnames),
        List.flatMap_append, List.flatMap_singleton]
    · rw [if_neg (by simpa using hnames), List.rtakeWhile_concat_neg _ _ _ (by simpa using hnames)]
      rfl

/-- The alerts that are listed are those of a payload, the most severe first, and the tracks they name are
    highlighted. -/
structure Scope.Lists (scope : Scope) (payload : AlertsPayload) : Prop where
  highlighted : ∀ id, id ∈ scope.alertedTracks ↔ ∃ alert ∈ payload.alerts, id ∈ alert.trackIds
  rows : scope.alertList.Perm (payload.alerts.map (.of payload.generatedAt))
  sorted : scope.alertList.Pairwise fun a b => severityOrder a.severity ≤ severityOrder b.severity
  count : scope.alertCount = payload.alerts.length
  emptyHidden : scope.alertEmptyHidden = decide (0 < payload.alerts.length)

theorem lists_updateAlerts (scope : Scope) (payload : AlertsPayload) :
    (updateAlerts scope payload).Lists payload := by
  have hperm : (inKeyOrder (fun a : Alert => severityOrder a.severity) payload.alerts).Perm payload.alerts :=
    inKeyOrder_perm _
  refine ⟨fun id => ?_, hperm.map _, List.pairwise_map.mpr (pairwise_inKeyOrder _), hperm.length_eq, ?_⟩
  · simp only [updateAlerts, List.mem_toFinset, List.mem_flatMap, hperm.mem_iff]
  · simp only [updateAlerts, hperm.length_eq]

/-! ### Where it is drawn -/

theorem le_spanNm (offset : TrackUpdate → ℝ) (tracks : List TrackUpdate) :
    10 ≤ spanNm offset tracks ∧ ∀ t ∈ tracks, |offset t| * 2 ≤ spanNm offset tracks := by
  induction tracks using List.reverseRecOn with
  | nil => exact ⟨le_rfl, List.forall_mem_nil _⟩
  | append_singleton tracks t ih =>
    rw [spanNm, List.foldl_concat]
    refine ⟨ih.1.trans (le_max_left _ _), fun u hu => ?_⟩
    rcases List.mem_append.mp hu with hu | hu
    · exact (ih.2 u hu).trans (le_max_left _ _)
    · rw [List.mem_singleton.mp hu]
      exact le_max_right _ _

/-- The scale of a view never reaches zero. -/
def View.Scaled (view : View) : Prop := 0.02 ≤ view.nmPerPixel

theorem scaled_targetView (canvas : Canvas) (tracks : List TrackUpdate) : (targetView canvas tracks).Scaled :=
  le_max_right _ _

theorem scaled_fitView {canvas : Canvas} {view : Option View} (h : ∀ v ∈ view, v.Scaled)
    (tracks : List TrackUpdate) : ∀ v ∈ fitView canvas view tracks, v.Scaled := by
  have htarget := scaled_targetView canvas tracks
  intro v hv
  rw [fitView] at hv
  split_ifs at hv
  · exact h v hv
  · obtain rfl := Option.some.inj hv
    rcases view with - | view
    · exact htarget
    · have hview := h view rfl
      simp only [View.Scaled, Option.map_some, Option.getD_some, View.towards, fitSmoothing] at hview htarget ⊢
      linarith

/-- A place on the canvas, and not on its edge. -/
def Canvas.Holds (canvas : Canvas) (place : ℝ × ℝ) : Prop :=
  (0 < place.1 ∧ place.1 < canvas.width) ∧ 0 < place.2 ∧ place.2 < canvas.height

/-- A place that is no further from the centre than half a span is drawn within the canvas. -/
theorem abs_offset_lt {offset span scale margin side : ℝ} (hspan : 10 ≤ span ∧ |offset| * 2 ≤ span)
    (hmargin : 1 < margin) (hside : 0 < side) (hscale : span * margin / side ≤ scale) :
    -(side / 2) < offset / scale ∧ offset / scale < side / 2 := by
  have hpos : 0 < span := by linarith
  have hscale' : 0 < scale := lt_of_lt_of_le (by positivity) hscale
  have hwide : span * margin ≤ scale * side := by rwa [div_le_iff₀ hside] at hscale
  have hnarrow : span < span * margin := by nlinarith
  rw [← abs_lt, abs_div, abs_of_pos hscale', div_lt_iff₀ hscale']
  linarith

/-- The scale leaves a margin about both spans. -/
theorem le_nmPerPixel (canvas : Canvas) (tracks : List TrackUpdate) :
    let view := targetView canvas tracks
    spanNm (fun t => (toLocal view.lat view.lon t.lat t.lon).1) tracks * 1.3 / canvas.width ≤ view.nmPerPixel ∧
      spanNm (fun t => (toLocal view.lat view.lon t.lat t.lon).2) tracks * 1.35 / canvas.height ≤
        view.nmPerPixel :=
  ⟨le_max_of_le_left (le_max_left _ _), le_max_of_le_left (le_max_right _ _)⟩

/-- The view that fits the tracks shows every one of them. -/
theorem project_targetView (canvas : Canvas) {tracks : List TrackUpdate} {t : TrackUpdate} (ht : t ∈ tracks) :
    canvas.Holds (project canvas (targetView canvas tracks) t.lat t.lon) := by
  have hspan : ∀ offset : TrackUpdate → ℝ, 10 ≤ spanNm offset tracks ∧ |offset t| * 2 ≤ spanNm offset tracks :=
    fun offset => (le_spanNm offset tracks).imp_right fun hall => hall t ht
  obtain ⟨heast, hnorth⟩ := le_nmPerPixel canvas tracks
  obtain ⟨hleft, hright⟩ := abs_offset_lt (hspan _) (by norm_num) canvas.width_pos heast
  obtain ⟨hlow, hhigh⟩ := abs_offset_lt (hspan _) (by norm_num) canvas.height_pos hnorth
  simp only [Canvas.Holds, project]
  constructor
  · constructor <;> linarith
  · constructor <;> linarith

end

end Airspace
