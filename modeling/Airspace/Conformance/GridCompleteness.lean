import Airspace.Conformance.Grid
import Mathlib.Analysis.Real.Pi.Bounds

/-! The grid against the exhaustive search.

    A cell is as wide as two aircraft can close at 1200 kt within the lookahead, plus the standard. Two
    tracks in cells that do not touch are farther apart than that, so below that closing speed they
    cannot conflict and the grid loses nothing; the ground speeds of two tracks are not bounded by it. -/

namespace Airspace

noncomputable section

open Classical

/-- The vertical standard is broken at `t`, a rate below the code's epsilon counting as level. -/
def SeparationMonitor.WithinVertical (m : SeparationMonitor) (first second : Kinematics) (t : ℝ) : Prop :=
  if |second.vAltFpm - first.vAltFpm| / 60 < 1e-12 then
    |second.altitudeFt - first.altitudeFt| < m.verticalFt
  else verticalDistance first second t < m.verticalFt

variable {m : SeparationMonitor} {first second : Kinematics} {r : RelativeMotion}
  {tracks : List TrackUpdate}

/-! ### Tracks in cells that do not touch -/

/-- Two numbers whose cells are two or more apart differ by more than a cell. -/
theorem lt_abs_sub_of_floorDiv {x y c : ℝ} (hc : 0 < c) (h : 1 < |pyFloorDiv y c - pyFloorDiv x c|) :
    c < |y - x| := by
  have hx := Int.floor_le (x / c)
  have hx' := Int.lt_floor_add_one (x / c)
  have hy := Int.floor_le (y / c)
  have hy' := Int.lt_floor_add_one (y / c)
  have hscale : |y - x| = c * |y / c - x / c| := by
    rw [← sub_div, abs_div, abs_of_pos hc, mul_div_cancel₀ _ hc.ne']
  have hone : 1 < |y / c - x / c| := by
    unfold pyFloorDiv at h
    rcases lt_abs.mp h with h | h
    · have : ((⌊x / c⌋ : ℤ) : ℝ) + 2 ≤ ⌊y / c⌋ := by exact_mod_cast (by omega)
      exact lt_abs.mpr (.inl (by linarith))
    · have : ((⌊y / c⌋ : ℤ) : ℝ) + 2 ≤ ⌊x / c⌋ := by exact_mod_cast (by omega)
      exact lt_abs.mpr (.inr (by linarith))
  rw [hscale]
  nlinarith

/-- Tracks in cells that do not touch are farther apart than the interaction radius. -/
theorem interactionRadius_lt_of_not_adjacent (hm : m.Positive)
    (h : ¬ AdjacentCells (cellOf m.interactionRadiusNm first) (cellOf m.interactionRadiusNm second)) :
    m.interactionRadiusNm < √(relative first second).rangeSq := by
  have hpos : 0 < m.interactionRadiusNm := by
    rw [interactionRadiusNm_eq]
    have := hm.lookahead
    have := hm.horizontal
    positivity
  unfold AdjacentCells at h
  rw [not_and_or, not_le, not_le] at h
  refine Real.lt_sqrt_of_sq_lt ?_
  rcases h with h | h
  · have hlt := lt_abs_sub_of_floorDiv hpos h
    have := pow_lt_pow_left₀ hlt hpos.le two_ne_zero
    rw [sq_abs] at this
    exact this.trans_le (le_add_of_nonneg_right (sq_nonneg _))
  · have hlt := lt_abs_sub_of_floorDiv hpos h
    have := pow_lt_pow_left₀ hlt hpos.le two_ne_zero
    rw [sq_abs] at this
    exact this.trans_le (le_add_of_nonneg_left (sq_nonneg _))

/-- The relative motion has to cover the interaction radius less the standard. -/
theorem horizontalAt_gt_of_slow {s h t : ℝ} (hfar : h / 3 + s < √r.rangeSq)
    (hslow : √r.speedSq ≤ 1 / 3) (h0 : 0 ≤ t) (h1 : t ≤ h) : s < r.horizontalAt t := by
  have := RelativeMotion.sqrt_rangeSq_le (r := r) h0 h1
  have := mul_le_mul_of_nonneg_right hslow (h0.trans h1)
  linarith

/-- For a pair that far apart the horizontal window is exact at every speed. -/
theorem inside_horizontal_of_far {s h t : ℝ} (hs : 0 < s) (hfar : h / 3 + s < √r.rangeSq) (h0 : 0 ≤ t)
    (h1 : t ≤ h) :
    Inside (quadraticBelow r.speedSq (2 * r.opening) (r.rangeSq - s ^ 2)) t ↔ r.horizontalAt t < s := by
  by_cases hspeed : 1e-12 ≤ r.speedSq
  · exact inside_horizontal hs (.inr hspeed) t
  have hh : 0 ≤ h := h0.trans h1
  have hroot : √r.speedSq < 1e-6 := by
    rw [Real.sqrt_lt' (by norm_num)]
    norm_num at hspeed ⊢
    exact hspeed
  refine iff_of_false ?_ (not_lt.mpr (horizontalAt_gt_of_slow hfar (by linarith) h0 h1).le)
  have hrange := Real.sq_sqrt (RelativeMotion.rangeSq_nonneg (r := r))
  have hd := Real.sqrt_nonneg r.rangeSq
  have hopening : |2 * r.opening| ≤ 2 * (√r.rangeSq * 1e-6) := by
    rw [abs_mul, abs_two]
    have hsq : |r.opening| ≤ √r.rangeSq * √r.speedSq := by
      refine abs_le_of_sq_le_sq ?_ (mul_nonneg hd (Real.sqrt_nonneg _))
      rw [mul_pow, hrange, Real.sq_sqrt RelativeMotion.speedSq_nonneg]
      exact RelativeMotion.opening_sq_le
    have := mul_le_mul_of_nonneg_left hroot.le hd
    linarith
  have hc : h / 3 * √r.rangeSq ≤ r.rangeSq - s ^ 2 := by nlinarith
  have hcpos : 0 < r.rangeSq - s ^ 2 := by nlinarith
  unfold quadraticBelow
  rw [if_pos (by rw [abs_of_nonneg RelativeMotion.speedSq_nonneg]; exact not_le.mp hspeed)]
  split_ifs with hb hneg hbpos
  · exact absurd hneg (not_lt.mpr hcpos.le)
  · exact not_inside_none t
  · rw [inside_some, EReal.coe_lt_coe_iff]
    rintro ⟨-, hlt⟩
    have : -(r.rangeSq - s ^ 2) / (2 * r.opening) < 0 := div_neg_of_neg_of_pos (by linarith) hbpos
    linarith
  · rw [inside_some, EReal.coe_lt_coe_iff]
    rintro ⟨hlt, -⟩
    have hb0 : 2 * r.opening < 0 := by
      rcases lt_trichotomy (2 * r.opening) 0 with h | h | h
      · exact h
      · rw [h] at hb; norm_num at hb
      · exact absurd h hbpos
    rw [div_lt_iff_of_neg hb0] at hlt
    rw [abs_of_neg hb0] at hopening
    nlinarith

theorem inside_vertical (hm : m.Positive) (t : ℝ) :
    Inside (linearWithin (relative first second).up (relative first second).vUp m.verticalFt) t ↔
      m.WithinVertical first second t := by
  have hrate : |(relative first second).vUp| = |second.vAltFpm - first.vAltFpm| / 60 := by
    rw [relative, abs_div]; norm_num
  unfold SeparationMonitor.WithinVertical
  rw [← hrate, verticalDistance_eq]
  by_cases hlevel : |(relative first second).vUp| < 1e-12
  · rw [if_pos hlevel, linearWithin, if_pos hlevel]
    by_cases hup : |(relative first second).up| < m.verticalFt
    · rw [if_pos hup]
      exact iff_of_true (by simp) hup
    · rw [if_neg hup]
      exact iff_of_false (not_inside_none t) hup
  · rw [if_neg hlevel]
    exact inside_linearWithin hm.vertical (.inr (not_lt.mp hlevel)) t

/-- Tracks in cells that do not touch conflict exactly when they come inside both standards. -/
theorem isSome_testPair_of_far (hdet : m.probabilityThreshold = none) (hm : m.Positive)
    (h : ¬ AdjacentCells (cellOf m.interactionRadiusNm first) (cellOf m.interactionRadiusNm second)) :
    (m.testPair first second).isSome ↔ ∃ t, 0 ≤ t ∧ t ≤ m.lookaheadS ∧
      horizontalDistance first second t < m.horizontalNm ∧ m.WithinVertical first second t := by
  have hfar := interactionRadius_lt_of_not_adjacent hm h
  rw [interactionRadiusNm_eq] at hfar
  have hinside := fun {t} (h0 : 0 ≤ t) (h1 : t ≤ m.lookaheadS) =>
    inside_horizontal_of_far hm.horizontal hfar h0 h1
  rw [isSome_testPair hdet]
  constructor
  · rintro ⟨-, hw⟩
    obtain ⟨⟨lo, hi⟩, hw⟩ := Option.ne_none_iff_exists'.mp hw
    obtain ⟨h0, hlt, h1⟩ := overlap_bounds hw
    obtain ⟨t, htlo, hthi⟩ := exists_between hlt
    obtain ⟨hf, hs⟩ := inside_of_overlap hw htlo hthi
    have ht0 := h0.trans htlo.le
    have ht1 := hthi.le.trans h1
    exact ⟨t, ht0, ht1, horizontalDistance_eq t ▸ (hinside ht0 ht1).mp hf, (inside_vertical hm t).mp hs⟩
  · rintro ⟨t, h0, h1, hh, hv⟩
    rw [horizontalDistance_eq] at hh
    obtain ⟨lo, hi, hw, -⟩ := overlap_of_inside hm.lookahead h0 h1 ((hinside h0 h1).mpr hh)
      ((inside_vertical hm t).mpr hv)
    exact ⟨not_rejectsVertically_of_window hdet hm hw, fun hnone => by
      rw [SeparationMonitor.window, hw] at hnone; cases hnone⟩

/-- Below the closing speed the cells are laid out for, such tracks keep the horizontal standard. -/
theorem horizontal_kept_of_closing_le (hm : m.Positive)
    (h : ¬ AdjacentCells (cellOf m.interactionRadiusNm first) (cellOf m.interactionRadiusNm second))
    (hclosing : √(relative first second).speedSq ≤ knotsToNmPerSecond 1200) {t : ℝ} (h0 : 0 ≤ t)
    (h1 : t ≤ m.lookaheadS) : m.horizontalNm < horizontalDistance first second t := by
  have hfar := interactionRadius_lt_of_not_adjacent hm h
  rw [interactionRadiusNm_eq] at hfar
  rw [horizontalDistance_eq]
  refine horizontalAt_gt_of_slow hfar (hclosing.trans ?_) h0 h1
  norm_num [knotsToNmPerSecond]

/-! ### The scan and the exhaustive search -/

namespace SeparationMonitor

/-- The conflicts a scan returns, seen from either aircraft. -/
def scannedConflicts (m : SeparationMonitor) (tracks : List TrackUpdate) : Set Conflict :=
  {c | c ∈ m.scan tracks ∨ c.swap ∈ m.scan tracks}

/-- The conflicts of the pair test on every two of the projected tracks, seen from either aircraft. -/
def exhaustiveConflicts (m : SeparationMonitor) (tracks : List TrackUpdate) : Set Conflict :=
  {c | ∃ first ∈ m.states tracks, ∃ second ∈ m.states tracks,
    first.track.trackId ≠ second.track.trackId ∧ m.testPair first second = some c}

end SeparationMonitor

theorem testPair_swap_eq_some {c : Conflict} :
    m.testPair second first = some c ↔ m.testPair first second = some c.swap := by
  rw [SeparationMonitor.testPair_swap, Option.map_eq_some_iff]
  constructor
  · rintro ⟨c', h, rfl⟩; exact h
  · exact fun h => ⟨_, h, rfl⟩

theorem scannedConflicts_subset : m.scannedConflicts tracks ⊆ m.exhaustiveConflicts tracks := by
  rintro c (h | h)
  · obtain ⟨p, hp, hc⟩ := mem_scan_iff.mp h
    obtain ⟨hf, hs, hne, -⟩ := neighbours_of_mem_candidatePairs hp
    exact ⟨_, hf, _, hs, hne, hc⟩
  · obtain ⟨p, hp, hc⟩ := mem_scan_iff.mp h
    obtain ⟨hf, hs, hne, -⟩ := neighbours_of_mem_candidatePairs hp
    exact ⟨_, hs, _, hf, hne.symm, testPair_swap_eq_some.mpr hc⟩

/-- The scan returns the conflicts of neighbours and no others. -/
theorem mem_scannedConflicts_iff (hids : (tracks.map TrackUpdate.trackId).Nodup)
    (hf : first ∈ m.states tracks) (hs : second ∈ m.states tracks)
    (hne : first.track.trackId ≠ second.track.trackId) {c : Conflict}
    (hc : m.testPair first second = some c) :
    c ∈ m.scannedConflicts tracks ↔
      AdjacentCells (cellOf m.interactionRadiusNm first) (cellOf m.interactionRadiusNm second) := by
  have hinj : ∀ a ∈ m.states tracks, ∀ b ∈ m.states tracks,
      a.track.trackId = b.track.trackId → a = b := List.inj_on_of_nodup_map (nodup_ids_states hids)
  obtain ⟨hid₁, hid₂⟩ := testPair_ids hc
  constructor
  · rintro (h | h)
    · obtain ⟨p, hp, hpc⟩ := mem_scan_iff.mp h
      obtain ⟨hpf, hps, -, hadj⟩ := neighbours_of_mem_candidatePairs hp
      obtain ⟨h₁, h₂⟩ := testPair_ids hpc
      rwa [hinj _ hpf _ hf (h₁.symm.trans hid₁), hinj _ hps _ hs (h₂.symm.trans hid₂)] at hadj
    · obtain ⟨p, hp, hpc⟩ := mem_scan_iff.mp h
      obtain ⟨hpf, hps, -, hadj⟩ := neighbours_of_mem_candidatePairs hp
      obtain ⟨h₁, h₂⟩ := testPair_ids hpc
      rw [hinj _ hpf _ hs (h₁.symm.trans hid₂), hinj _ hps _ hf (h₂.symm.trans hid₁)] at hadj
      exact hadj.symm
  · intro hadj
    rcases (mem_candidatePairs_iff (nodup_ids_states hids)).mpr ⟨hf, hs, hne, hadj⟩ with hq | hq
    · exact .inl (mem_scan_iff.mpr ⟨_, hq, hc⟩)
    · exact .inr (mem_scan_iff.mpr ⟨_, hq, testPair_swap_eq_some.mpr hc⟩)

/-- The grid loses nothing exactly when no two tracks in cells that do not touch conflict. -/
theorem scannedConflicts_eq_iff (hids : (tracks.map TrackUpdate.trackId).Nodup) :
    m.scannedConflicts tracks = m.exhaustiveConflicts tracks ↔
      ∀ first ∈ m.states tracks, ∀ second ∈ m.states tracks,
        first.track.trackId ≠ second.track.trackId →
        ¬ AdjacentCells (cellOf m.interactionRadiusNm first) (cellOf m.interactionRadiusNm second) →
        ¬ (m.testPair first second).isSome := by
  constructor
  · intro heq first hf second hs hne hfar hsome
    obtain ⟨c, hc⟩ := Option.isSome_iff_exists.mp hsome
    have hmem : c ∈ m.exhaustiveConflicts tracks := ⟨first, hf, second, hs, hne, hc⟩
    rw [← heq] at hmem
    exact hfar ((mem_scannedConflicts_iff hids hf hs hne hc).mp hmem)
  · intro h
    refine Set.Subset.antisymm scannedConflicts_subset ?_
    rintro c ⟨first, hf, second, hs, hne, hc⟩
    refine (mem_scannedConflicts_iff hids hf hs hne hc).mpr ?_
    by_contra hfar
    exact h first hf second hs hne hfar (by rw [hc]; rfl)

/-- The scan finds the conflicts of the exhaustive search exactly when no two eligible tracks whose
    cells do not touch come inside both standards at one instant of the lookahead. -/
theorem grid_complete_iff (hdet : m.probabilityThreshold = none) (hm : m.Positive)
    (hids : (tracks.map TrackUpdate.trackId).Nodup) :
    m.scannedConflicts tracks = m.exhaustiveConflicts tracks ↔
      ∀ first ∈ m.states tracks, ∀ second ∈ m.states tracks,
        first.track.trackId ≠ second.track.trackId →
        ¬ AdjacentCells (cellOf m.interactionRadiusNm first) (cellOf m.interactionRadiusNm second) →
        ¬ ∃ t, 0 ≤ t ∧ t ≤ m.lookaheadS ∧ horizontalDistance first second t < m.horizontalNm ∧
          m.WithinVertical first second t := by
  rw [scannedConflicts_eq_iff hids]
  refine forall₂_congr fun first _ => forall₂_congr fun second _ => forall₂_congr fun _ hfar => ?_
  rw [isSome_testPair_of_far hdet hm hfar]

/-- A pair in one cell: the scan is the exhaustive search. -/
theorem grid_complete_in_trail : ({} : SeparationMonitor).scannedConflicts
      [equatorTrack "trk-low" 0 33000 450 90 0, equatorTrack "trk-high" 0 34500 450 90 (-600)] =
    ({} : SeparationMonitor).exhaustiveConflicts
      [equatorTrack "trk-low" 0 33000 450 90 0, equatorTrack "trk-high" 0 34500 450 90 (-600)] := by
  refine (grid_complete_iff rfl ⟨by norm_num, by norm_num, by norm_num⟩ (by decide)).mpr ?_
  intro first hf second hs _ hfar
  have hcell : ∀ k ∈ ({} : SeparationMonitor).states
      [equatorTrack "trk-low" 0 33000 450 90 0, equatorTrack "trk-high" 0 34500 450 90 (-600)],
      cellOf ({} : SeparationMonitor).interactionRadiusNm k =
        cellOf ({} : SeparationMonitor).interactionRadiusNm
          (kinematics (equatorTrack "trk-low" 0 33000 450 90 0) 0 0) := by
    simp only [SeparationMonitor.states, SeparationMonitor.eligible, equatorTrack]
    norm_num [kinematics, cellOf]
  rw [hcell first hf, hcell second hs] at hfar
  exact absurd (by simp [AdjacentCells]) hfar

/-- A track on the meridian of Greenwich, flying north or south at 35000 ft. -/
def meridianTrack (id : String) (latDeg speedKt headingDeg : ℝ) : TrackUpdate :=
  { equatorTrack id 0 35000 speedKt headingDeg 0 with lat := latDeg }

/-- Two tracks head-on at 700 kt each, 109 miles apart, and a third that shifts the origin. -/
def headOn : List TrackUpdate :=
  [meridianTrack "trk-north" 1.74 700 0, meridianTrack "trk-south" 3.55 700 180,
    meridianTrack "trk-third" (-5.29) 400 0]

theorem meridianTrack_admitted {id : String} {lat v hd : ℝ} (hlat : -90 ≤ lat ∧ lat ≤ 90) (hv : 0 ≤ v)
    (hhd : 0 ≤ hd ∧ hd < 360) : (meridianTrack id lat v hd).Admitted where
  icao24 := (by decide : isIcao24 "a1b2c3" = true)
  lat := hlat
  lon := ⟨by norm_num [meridianTrack, equatorTrack], by norm_num [meridianTrack, equatorTrack]⟩
  groundSpeedKt := hv
  trackDeg := hhd
  positionUncertaintyM := le_rfl
  innovationNm := by simp [meridianTrack, equatorTrack]
  velocityUncertaintyKt := by simp [meridianTrack, equatorTrack]
  altitudeUncertaintyFt := by simp [meridianTrack, equatorTrack]
  verticalRateUncertaintyFpm := by simp [meridianTrack, equatorTrack]
  squawk := by simp [meridianTrack, equatorTrack]

theorem states_headOn : ({} : SeparationMonitor).states headOn =
    [kinematics (meridianTrack "trk-north" 1.74 700 0) 0 0,
      kinematics (meridianTrack "trk-south" 3.55 700 180) 0 0,
      kinematics (meridianTrack "trk-third" (-5.29) 400 0) 0 0] := by
  simp only [SeparationMonitor.states, SeparationMonitor.eligible, headOn, meridianTrack, equatorTrack]
  norm_num

theorem kinematics_meridianTrack (id : String) (lat v hd : ℝ) :
    kinematics (meridianTrack id lat v hd) 0 0 =
      { track := meridianTrack id lat v hd
        eastNm := 0
        northNm := lat * Real.pi / 180 * earthRadiusNm
        vEastKt := v * Real.sin (hd * Real.pi / 180)
        vNorthKt := v * Real.cos (hd * Real.pi / 180)
        altitudeFt := 35000
        vAltFpm := 0 } := by
  have hwrap : wrapLongitude 0 = 0 := wrapLongitude_eq_self (by norm_num) (by norm_num)
  simp [kinematics, meridianTrack, equatorTrack, toLocalEnu, radians, hwrap]

/-- The two aircraft meet within the lookahead, in cells that do not touch: the scan returns nothing
    for them. -/
theorem grid_misses_headOn : ({} : SeparationMonitor).Positive ∧ (∀ t ∈ headOn, t.Admitted) ∧
    (headOn.map TrackUpdate.trackId).Nodup ∧
    ({} : SeparationMonitor).scannedConflicts headOn ≠
      ({} : SeparationMonitor).exhaustiveConflicts headOn := by
  have hm : ({} : SeparationMonitor).Positive := ⟨by norm_num, by norm_num, by norm_num⟩
  have hids : (headOn.map TrackUpdate.trackId).Nodup := by decide
  have hadmitted : ∀ t ∈ headOn, t.Admitted := by
    simp only [headOn, List.mem_cons, List.not_mem_nil, or_false]
    rintro t (rfl | rfl | rfl) <;> exact meridianTrack_admitted (by norm_num) (by norm_num) (by norm_num)
  refine ⟨hm, hadmitted, hids, ?_⟩
  rw [Ne, scannedConflicts_eq_iff hids, states_headOn]
  intro h
  have hpi := Real.pi_gt_d2
  have hpi' := Real.pi_lt_d2
  have hsouthward : (180 : ℝ) * Real.pi / 180 = Real.pi := by ring
  simp only [List.mem_cons, List.not_mem_nil, or_false, forall_eq_or_imp, forall_eq,
    kinematics_meridianTrack, hsouthward, zero_mul, zero_div, Real.sin_zero, Real.cos_zero, Real.sin_pi,
    Real.cos_pi] at h
  have hcell₁ : pyFloorDiv (1.74 * Real.pi / 180 * earthRadiusNm) 105 = 0 := by
    rw [pyFloorDiv, Int.floor_eq_iff]
    constructor <;> norm_num [earthRadiusNm] <;> linarith
  have hcell₂ : pyFloorDiv (3.55 * Real.pi / 180 * earthRadiusNm) 105 = 2 := by
    rw [pyFloorDiv, Int.floor_eq_iff]
    constructor <;> norm_num [earthRadiusNm] <;> linarith
  have hfar := h.1.2.1 (by decide)
  rw [interactionRadiusNm_default, AdjacentCells, cellOf, cellOf, hcell₁, hcell₂] at hfar
  refine hfar (by norm_num) ((isSome_testPair_of_far rfl hm ?_).mpr ⟨280, by norm_num, by norm_num, ?_, ?_⟩)
  · rw [interactionRadiusNm_default, AdjacentCells, cellOf, cellOf, hcell₁, hcell₂]; norm_num
  · rw [horizontalDistance, Real.sqrt_lt' (by norm_num)]
    norm_num [Kinematics.eastAt, Kinematics.northAt, knotsToNmPerSecond, earthRadiusNm]
    nlinarith
  · norm_num [SeparationMonitor.WithinVertical]

end

end Airspace
