import Airspace.Conformance.Grid
import Mathlib.Algebra.BigOperators.Group.List.Lemmas
import Mathlib.Analysis.Real.Pi.Bounds

/-! The scan of a rotated picture.

    Rotating every longitude and wrapping the results takes whole turns off some of them. The reference
    of the scan is the arithmetic mean of the longitudes, so it moves with the picture exactly when the
    turns taken off are spread evenly, that is when the number of tracks divides their sum. Then every
    projected coordinate and with it the whole scan is unchanged; otherwise every track is projected
    from a reference turned away from the picture. -/

namespace Airspace

noncomputable section

open Classical

/-- The track turned about the axis of the earth. -/
def TrackUpdate.rotate (delta : ℝ) (t : TrackUpdate) : TrackUpdate :=
  { t with lon := wrapLongitude (t.lon + delta) }

/-- The whole turns that wrapping takes off a rotated longitude. -/
def turns (delta : ℝ) (t : TrackUpdate) : ℤ := ⌊(t.lon + delta + 180) / 360⌋

/-- The turns taken off the eligible tracks, in total. -/
def SeparationMonitor.totalTurns (m : SeparationMonitor) (delta : ℝ) (tracks : List TrackUpdate) : ℤ :=
  ((m.eligible tracks).map (turns delta)).sum

variable {m : SeparationMonitor} {tracks : List TrackUpdate} {delta : ℝ}

theorem rotate_lon (delta : ℝ) (t : TrackUpdate) :
    (t.rotate delta).lon = t.lon + delta - turns delta t * 360 := by
  simp only [TrackUpdate.rotate, wrapLongitude, pyMod, turns]
  ring

/-! ### The pairs of a relabelled picture -/

/-- Relabelling the tracks of the states relabels the buckets. -/
theorem buckets_map {f : Kinematics → Kinematics} {cell : ℝ} (hcell : ∀ s, cellOf cell (f s) = cellOf cell s)
    (states : List Kinematics) :
    buckets cell (states.map f) = (buckets cell states).mapValues (List.map f) := by
  induction states using List.reverseRecOn with
  | nil => rfl
  | append_singleton states s ih =>
    have hget : ((buckets cell (states.map f)).get? (cellOf cell s)).getD [] =
        (((buckets cell states).get? (cellOf cell s)).getD []).map f := by
      rw [ih, Dict.get?_mapValues]
      cases (buckets cell states).get? (cellOf cell s) <;> rfl
    rw [List.map_append, List.map_singleton, buckets_concat, buckets_concat, hcell, hget, ih,
      ← Dict.set_mapValues, List.map_append, List.map_singleton]

theorem visits_mapValues (f : Kinematics → Kinematics) (b : Dict (ℤ × ℤ) (List Kinematics)) :
    visits (b.mapValues (List.map f)) = (visits b).map (Prod.map f f) := by
  have hnear : ∀ c, neighbourhood (b.mapValues (List.map f)) c = (neighbourhood b c).map f := by
    intro c
    simp only [neighbourhood, List.map_flatMap, Dict.get?_mapValues]
    refine List.flatMap_congr fun dx _ => List.flatMap_congr fun dy _ => ?_
    cases b.get? (c.1 + dx, c.2 + dy) <;> rfl
  simp only [visits, hnear, Dict.items_mapValues, List.flatMap_map, List.map_flatMap, List.map_map]
  rfl

theorem foldl_visit_map {f : Kinematics → Kinematics}
    (hid : ∀ s, (f s).track.trackId = s.track.trackId) (l : List (Kinematics × Kinematics)) :
    (l.map (Prod.map f f)).foldl visit ([], []) =
      ((l.foldl visit ([], [])).1, (l.foldl visit ([], [])).2.map (Prod.map f f)) := by
  induction l using List.reverseRecOn with
  | nil => rfl
  | append_singleton l p ih =>
    rw [List.map_append, List.foldl_append, List.foldl_append, ih]
    simp only [List.map_cons, List.map_nil, List.foldl_cons, List.foldl_nil]
    have hkey : pairKey (Prod.map f f p) = pairKey p := by simp only [pairKey, Prod.map, hid]
    simp only [visit, hkey, Prod.map_fst, Prod.map_snd, hid]
    split_ifs
    · rfl
    · rfl
    · simp

/-- Relabelling keeps the candidate pairs. -/
theorem candidatePairs_map {f : Kinematics → Kinematics}
    (hcell : ∀ s, cellOf m.interactionRadiusNm (f s) = cellOf m.interactionRadiusNm s)
    (hid : ∀ s, (f s).track.trackId = s.track.trackId) (states : List Kinematics) :
    m.candidatePairs (states.map f) = (m.candidatePairs states).map (Prod.map f f) := by
  unfold SeparationMonitor.candidatePairs
  rw [buckets_map hcell, visits_mapValues, foldl_visit_map hid]

/-! ### The reference of a rotated picture -/

theorem eligible_rotate :
    m.eligible (tracks.map (TrackUpdate.rotate delta)) =
      (m.eligible tracks).map (TrackUpdate.rotate delta) := by
  simp only [SeparationMonitor.eligible, List.filter_map]
  rfl

theorem sum_rotate (l : List TrackUpdate) :
    ((l.map (TrackUpdate.rotate delta)).map TrackUpdate.lon).sum =
      (l.map TrackUpdate.lon).sum + l.length * delta - (l.map (turns delta)).sum * 360 := by
  induction l with
  | nil => simp
  | cons t l ih =>
    simp only [List.map_cons, List.sum_cons, List.length_cons, ih, rotate_lon]
    push_cast
    ring

/-- When the turns are spread evenly every track is projected to the same place. -/
theorem projection_rotate {l : List TrackUpdate} {q : ℤ} (hne : l ≠ [])
    (hq : (l.map (turns delta)).sum = l.length * q) (refLat : ℝ) (t : TrackUpdate) :
    toLocalEnu refLat (((l.map (TrackUpdate.rotate delta)).map TrackUpdate.lon).sum / l.length)
        (t.rotate delta).lat (t.rotate delta).lon =
      toLocalEnu refLat ((l.map TrackUpdate.lon).sum / l.length) t.lat t.lon := by
  have hlen : (l.length : ℝ) ≠ 0 := by
    exact_mod_cast (List.length_pos_iff.mpr hne).ne'
  refine toLocalEnu_congr ?_
  rw [sum_rotate, rotate_lon, ← wrapLongitude_add_turns (t.lon - _) (q - turns delta t)]
  congr 1
  have hsum : (((l.map (turns delta)).sum : ℤ) : ℝ) = l.length * q := by rw [hq]; push_cast; ring
  rw [hsum]
  push_cast
  field_simp
  ring

theorem wrapLongitude_eq_iff {x y : ℝ} (h : wrapLongitude x = wrapLongitude y) :
    ∃ n : ℤ, x - y = n * 360 := by
  refine ⟨⌊(x + 180) / 360⌋ - ⌊(y + 180) / 360⌋, ?_⟩
  simp only [wrapLongitude, pyMod] at h
  push_cast
  linarith

/-- Conversely a track away from the poles keeps its place only if the turns are spread evenly. -/
theorem turns_dvd_of_projection {l : List TrackUpdate} (hne : l ≠ []) (refLat : ℝ) {t : TrackUpdate}
    (hpole : Real.cos (radians ((refLat + t.lat) / 2)) ≠ 0)
    (h : toLocalEnu refLat (((l.map (TrackUpdate.rotate delta)).map TrackUpdate.lon).sum / l.length)
        (t.rotate delta).lat (t.rotate delta).lon =
      toLocalEnu refLat ((l.map TrackUpdate.lon).sum / l.length) t.lat t.lon) :
    (l.length : ℤ) ∣ (l.map (turns delta)).sum := by
  have hlen : (l.length : ℝ) ≠ 0 := by
    exact_mod_cast (List.length_pos_iff.mpr hne).ne'
  have heast := congrArg Prod.fst h
  have hscale : Real.cos (radians ((refLat + t.lat) / 2)) * earthRadiusNm ≠ 0 :=
    mul_ne_zero hpole (by norm_num [earthRadiusNm])
  have hwrap : wrapLongitude ((t.rotate delta).lon - ((l.map (TrackUpdate.rotate delta)).map
      TrackUpdate.lon).sum / l.length) =
      wrapLongitude (t.lon - (l.map TrackUpdate.lon).sum / l.length) := by
    simp only [toLocalEnu, mul_assoc] at heast
    have := mul_right_cancel₀ hscale heast
    exact mul_right_cancel₀ Real.pi_ne_zero ((div_left_inj' (by norm_num)).mp this)
  obtain ⟨n, hn⟩ := wrapLongitude_eq_iff hwrap
  rw [sum_rotate, rotate_lon] at hn
  refine ⟨n + turns delta t, ?_⟩
  have hreal : (((l.map (turns delta)).sum : ℤ) : ℝ) = l.length * (n + turns delta t) := by
    field_simp at hn
    linarith
  exact_mod_cast hreal

/-! ### The scan of a rotated picture -/

/-- The state of the rotated track in the same place. -/
def Kinematics.rotate (delta : ℝ) (k : Kinematics) : Kinematics :=
  { k with track := k.track.rotate delta }

/-- Where a state lies in the tangent plane. -/
def Kinematics.position (k : Kinematics) : ℝ × ℝ := (k.eastNm, k.northNm)

theorem states_rotate (h : ((m.eligible tracks).length : ℤ) ∣ m.totalTurns delta tracks) :
    m.states (tracks.map (TrackUpdate.rotate delta)) = (m.states tracks).map (Kinematics.rotate delta) := by
  obtain ⟨q, hq⟩ := h
  simp only [SeparationMonitor.states, eligible_rotate, List.length_map, List.map_map]
  refine List.map_congr_left fun t ht => ?_
  have hlat : ∀ l : List TrackUpdate, l.map (TrackUpdate.lat ∘ TrackUpdate.rotate delta) =
    l.map TrackUpdate.lat := fun l => rfl
  have hproj := projection_rotate (List.ne_nil_of_mem ht) hq
    (((m.eligible tracks).map TrackUpdate.lat).sum / (m.eligible tracks).length) t
  rw [List.map_map] at hproj
  simp only [Function.comp_apply, kinematics, Kinematics.rotate, hlat, hproj]
  rfl

/-- When the turns are spread evenly the scan of the rotated picture is the scan. -/
theorem scan_rotate (h : ((m.eligible tracks).length : ℤ) ∣ m.totalTurns delta tracks) :
    m.scan (tracks.map (TrackUpdate.rotate delta)) = m.scan tracks := by
  unfold SeparationMonitor.scan
  rw [eligible_rotate, List.length_map, states_rotate h,
    candidatePairs_map (f := Kinematics.rotate delta) (fun _ => rfl) (fun _ => rfl), List.filterMap_map]
  rfl

/-- The mean latitude of tracks away from the poles is away from them. -/
theorem mean_lat_bounds {l : List TrackUpdate} (hne : l ≠ [])
    (h : ∀ t ∈ l, -90 < t.lat ∧ t.lat < 90) :
    -90 < (l.map TrackUpdate.lat).sum / l.length ∧ (l.map TrackUpdate.lat).sum / l.length < 90 := by
  have hlen : (0 : ℝ) < l.length := by exact_mod_cast List.length_pos_iff.mpr hne
  rw [lt_div_iff₀ hlen, div_lt_iff₀ hlen]
  clear hlen
  induction l with
  | nil => exact absurd rfl hne
  | cons t l ih =>
    obtain ⟨ht, ht'⟩ := h t List.mem_cons_self
    simp only [List.map_cons, List.sum_cons, List.length_cons]
    push_cast
    rcases eq_or_ne l [] with rfl | hl
    · simp only [List.map_nil, List.sum_nil, List.length_nil]
      constructor <;> norm_num <;> linarith
    · obtain ⟨h1, h2⟩ := ih hl fun u hu => h u (List.mem_cons_of_mem _ hu)
      constructor <;> linarith

theorem cos_radians_ne_zero {x : ℝ} (h0 : -90 < x) (h1 : x < 90) : Real.cos (radians x) ≠ 0 := by
  have hpi := Real.pi_pos
  refine (Real.cos_pos_of_mem_Ioo ⟨?_, ?_⟩).ne' <;> unfold radians <;> nlinarith

/-- Rotating the picture keeps every projected place exactly when the number of eligible tracks divides
    the turns that wrapping takes off them in total; and then the scan returns the same conflicts. -/
theorem scan_rotate_of_turns_dvd (m : SeparationMonitor) (tracks : List TrackUpdate) (delta : ℝ)
    (hpoles : ∀ t ∈ m.eligible tracks, -90 < t.lat ∧ t.lat < 90) :
    (((m.eligible tracks).length : ℤ) ∣ m.totalTurns delta tracks →
      m.scan (tracks.map (TrackUpdate.rotate delta)) = m.scan tracks) ∧
    ((m.states (tracks.map (TrackUpdate.rotate delta))).map Kinematics.position =
        (m.states tracks).map Kinematics.position ↔
      ((m.eligible tracks).length : ℤ) ∣ m.totalTurns delta tracks) := by
  refine ⟨scan_rotate, fun h => ?_, fun h => ?_⟩
  · by_cases hne : m.eligible tracks = []
    · simp [SeparationMonitor.totalTurns, hne]
    obtain ⟨t, ht⟩ := List.exists_mem_of_ne_nil _ hne
    obtain ⟨h0, h1⟩ := mean_lat_bounds hne hpoles
    obtain ⟨ht0, ht1⟩ := hpoles t ht
    simp only [SeparationMonitor.states, eligible_rotate, List.length_map, List.map_map] at h
    have ht' := List.map_inj_left.mp h t ht
    simp only [Function.comp_apply, Kinematics.position, kinematics] at ht'
    refine turns_dvd_of_projection hne (((m.eligible tracks).map TrackUpdate.lat).sum /
      (m.eligible tracks).length) (t := t) (cos_radians_ne_zero (by linarith) (by linarith)) ?_
    rw [List.map_map]
    exact ht'
  · rw [states_rotate h, List.map_map]
    rfl

/-- Two aircraft a mile apart on the equator, either side of the meridian of Greenwich. -/
def astride : List TrackUpdate :=
  [equatorTrack "trk-west" (-0.01) 35000 450 90 0, equatorTrack "trk-east" 0.01 35000 450 90 0]

/-- Ten degrees on, nothing is wrapped and the scan is the same. -/
theorem scan_rotate_ten : ({} : SeparationMonitor).scan (astride.map (TrackUpdate.rotate 10)) =
    ({} : SeparationMonitor).scan astride := by
  refine (scan_rotate_of_turns_dvd {} astride 10 ?_).1 ?_
  · norm_num [SeparationMonitor.eligible, astride, equatorTrack]
  · have hfloor : ∀ x : ℝ, 0 ≤ x → x < 360 → ⌊x / 360⌋ = 0 := by
      intro x h0 h1
      rw [Int.floor_eq_iff]
      constructor <;> norm_num <;> linarith
    norm_num [SeparationMonitor.totalTurns, SeparationMonitor.eligible, astride, equatorTrack, turns,
      hfloor]

theorem states_astride : ({} : SeparationMonitor).states astride =
    [kinematics (equatorTrack "trk-west" (-0.01) 35000 450 90 0) 0 0,
      kinematics (equatorTrack "trk-east" 0.01 35000 450 90 0) 0 0] := by
  simp only [SeparationMonitor.states, SeparationMonitor.eligible, astride, equatorTrack]
  norm_num

theorem states_astride_rotate :
    ({} : SeparationMonitor).states (astride.map (TrackUpdate.rotate 180)) =
    [kinematics (equatorTrack "trk-west" 179.99 35000 450 90 0) 0 0,
      kinematics (equatorTrack "trk-east" (-179.99) 35000 450 90 0) 0 0] := by
  have hwest : wrapLongitude (-0.01 + 180) = 179.99 := by
    rw [wrapLongitude_eq_self (by norm_num) (by norm_num)]; norm_num
  have heast : wrapLongitude (0.01 + 180) = -179.99 := by
    rw [show (0.01 + 180 : ℝ) = -179.99 + (1 : ℤ) * 360 by norm_num, wrapLongitude_add_turns,
      wrapLongitude_eq_self (by norm_num) (by norm_num)]
  simp only [SeparationMonitor.states, SeparationMonitor.eligible, astride, List.map_cons, List.map_nil,
    TrackUpdate.rotate, equatorTrack, hwest, heast]
  norm_num

/-- Half a turn on, the mean longitude is on the far side of the earth and the two cells far apart. -/
theorem scan_astride_rotate : ({} : SeparationMonitor).scan (astride.map (TrackUpdate.rotate 180)) = [] := by
  have hpi := Real.pi_gt_d2
  have hpi' := Real.pi_lt_d2
  refine List.eq_nil_iff_forall_not_mem.mpr fun c hc => ?_
  obtain ⟨p, hp, -⟩ := mem_scan_iff.mp hc
  obtain ⟨hf, hs, hne, hadj⟩ := neighbours_of_mem_candidatePairs hp
  have hwest : 102 ≤ pyFloorDiv (179.99 * Real.pi / 180 * earthRadiusNm) 105 := by
    refine Int.le_floor.mpr ?_
    norm_num [earthRadiusNm]
    linarith
  have heast : pyFloorDiv (-179.99 * Real.pi / 180 * earthRadiusNm) 105 < -102 := by
    refine Int.floor_lt.mpr ?_
    norm_num [earthRadiusNm]
    linarith
  rw [states_astride_rotate, kinematics_equatorTrack _ (by norm_num) (by norm_num),
    kinematics_equatorTrack _ (by norm_num) (by norm_num)] at hf hs
  simp only [List.mem_cons, List.not_mem_nil, or_false] at hf hs
  rcases hf with hf | hf <;> rcases hs with hs | hs <;> rw [hf, hs] at hne hadj
  · exact hne rfl
  · simp only [interactionRadiusNm_default, AdjacentCells, cellOf, abs_le] at hadj; omega
  · simp only [interactionRadiusNm_default, AdjacentCells, cellOf, abs_le] at hadj; omega
  · exact hne rfl

theorem scan_astride : ({} : SeparationMonitor).scan astride ≠ [] := by
  have hm : ({} : SeparationMonitor).Positive := ⟨by norm_num, by norm_num, by norm_num⟩
  have hpi := Real.pi_gt_d2
  have hpi' := Real.pi_lt_d2
  have hwest := kinematics_equatorTrack (-0.01) (by norm_num) (by norm_num) "trk-west" 35000 450 0
  have heast := kinematics_equatorTrack 0.01 (by norm_num) (by norm_num) "trk-east" 35000 450 0
  refine scan_ne_nil_of_neighbours (by decide) (by rw [states_astride]; exact List.mem_cons_self)
    (by rw [states_astride]; exact List.mem_cons_of_mem _ List.mem_cons_self) (by decide) ?_
    (isSome_testPair_of_breach rfl hm (t := 0) ?_ ?_)
  · rw [interactionRadiusNm_default, hwest, heast]
    refine adjacentCells_of_abs_lt (by norm_num) ?_ ?_ (by norm_num) (by norm_num)
    · rw [abs_lt]; constructor <;> norm_num [earthRadiusNm] <;> linarith
    · rw [abs_lt]; constructor <;> norm_num [earthRadiusNm] <;> linarith
  · rw [hwest, heast]
    constructor
    · left; norm_num [relative, RelativeMotion.speedSq, knotsToNmPerSecond]
    · left; norm_num [relative]
  · rw [hwest, heast]
    refine ⟨le_rfl, by norm_num, ?_, ?_⟩
    · rw [horizontalDistance, Real.sqrt_lt' (by norm_num)]
      norm_num [Kinematics.eastAt, Kinematics.northAt, earthRadiusNm]
      nlinarith
    · norm_num [verticalDistance, Kinematics.altitudeAt]

/-- Half a turn on, the two aircraft are either side of the antimeridian and the conflict is gone. -/
theorem scan_rotate_loses_conflict : ({} : SeparationMonitor).Positive ∧
    (∀ t ∈ astride, t.lat = 0 ∧ |t.lon| ≤ 0.01) ∧
    ({} : SeparationMonitor).scan (astride.map (TrackUpdate.rotate 180)) = [] ∧
    ({} : SeparationMonitor).scan astride ≠ [] := by
  refine ⟨⟨by norm_num, by norm_num, by norm_num⟩, ?_, scan_astride_rotate, scan_astride⟩
  norm_num [astride, equatorTrack, abs_of_pos, abs_of_neg]

end

end Airspace
