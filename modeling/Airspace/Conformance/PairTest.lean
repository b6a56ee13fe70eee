import Airspace.Conformance.Windows

/-! The deterministic pair test against straight-line flight.

    The specification speaks of the two aircraft flying straight: where each is at time `t`, and at
    which instants of the lookahead both standards are broken at once (`breachSet`). Above the code's
    epsilons the test returns a conflict exactly when there is such an instant. The evidence it returns
    is the truth about that set in every field but the vertical minimum, which is read at the ends of
    the window: it is right exactly when the two aircraft do not change level order inside it.

        relative motion ──▶ window = (lo, hi) ──▶ Ioo lo hi ⊆ breachSet ⊆ Icc lo hi ──▶ evidence -/

namespace Airspace

noncomputable section

open Classical

/-! ### Straight-line flight -/

namespace Kinematics

variable (k : Kinematics)

def eastAt (t : ℝ) : ℝ := k.eastNm + knotsToNmPerSecond k.vEastKt * t

def northAt (t : ℝ) : ℝ := k.northNm + knotsToNmPerSecond k.vNorthKt * t

def altitudeAt (t : ℝ) : ℝ := k.altitudeFt + k.vAltFpm / 60 * t

end Kinematics

/-- Horizontal distance of two aircraft flying straight for `t` seconds. -/
def horizontalDistance (first second : Kinematics) (t : ℝ) : ℝ :=
  √((second.eastAt t - first.eastAt t) ^ 2 + (second.northAt t - first.northAt t) ^ 2)

/-- Vertical distance of two aircraft flying straight for `t` seconds. -/
def verticalDistance (first second : Kinematics) (t : ℝ) : ℝ :=
  |second.altitudeAt t - first.altitudeAt t|

/-- The instants of the lookahead at which both standards are broken at once. -/
def SeparationMonitor.breachSet (m : SeparationMonitor) (first second : Kinematics) : Set ℝ :=
  {t | 0 ≤ t ∧ t ≤ m.lookaheadS ∧ horizontalDistance first second t < m.horizontalNm ∧
    verticalDistance first second t < m.verticalFt}

/-- The relative rates are zero or large enough for the code to see them. -/
structure AboveEpsilons (r : RelativeMotion) : Prop where
  horizontal : √r.speedSq = 0 ∨ 1e-6 ≤ √r.speedSq
  vertical : r.vUp = 0 ∨ 1e-12 ≤ |r.vUp|

/-- Standards and lookahead a monitor is meant to be built with. -/
structure SeparationMonitor.Positive (m : SeparationMonitor) : Prop where
  horizontal : 0 < m.horizontalNm
  vertical : 0 < m.verticalFt
  lookahead : 0 < m.lookaheadS

variable {m : SeparationMonitor} {first second : Kinematics} {r : RelativeMotion}

theorem horizontalDistance_eq (t : ℝ) :
    horizontalDistance first second t = (relative first second).horizontalAt t := by
  unfold horizontalDistance RelativeMotion.horizontalAt relative
  simp only [Kinematics.eastAt, Kinematics.northAt, knotsToNmPerSecond]
  congr 1; ring

theorem altitude_sub_eq (t : ℝ) :
    second.altitudeAt t - first.altitudeAt t =
      (relative first second).up + (relative first second).vUp * t := by
  unfold Kinematics.altitudeAt relative; ring

theorem verticalDistance_eq (t : ℝ) :
    verticalDistance first second t = (relative first second).verticalAt t := by
  rw [verticalDistance, altitude_sub_eq]; rfl

theorem breachSet_eq : m.breachSet first second =
    (relative first second).breach m.horizontalNm m.verticalFt m.lookaheadS := by
  ext t
  simp only [SeparationMonitor.breachSet, RelativeMotion.breach, horizontalDistance_eq,
    verticalDistance_eq]

theorem AboveEpsilons.speedSq (h : AboveEpsilons r) : r.speedSq = 0 ∨ 1e-12 ≤ r.speedSq := by
  rcases h.horizontal with h0 | h1
  · exact Or.inl ((Real.sqrt_eq_zero RelativeMotion.speedSq_nonneg).mp h0)
  · have := (Real.le_sqrt' (by norm_num)).mp h1
    exact Or.inr (by norm_num at this ⊢; linarith)

/-! ### The window -/

/-- Above the epsilons the horizontal window is where the horizontal standard is breached. -/
theorem inside_horizontal {s : ℝ} (hs : 0 < s) (h : r.speedSq = 0 ∨ 1e-12 ≤ r.speedSq) (t : ℝ) :
    Inside (quadraticBelow r.speedSq (2 * r.opening) (r.rangeSq - s ^ 2)) t ↔ r.horizontalAt t < s := by
  rw [RelativeMotion.horizontalAt_lt_iff hs]
  rcases h with h0 | h1
  · rw [h0, RelativeMotion.opening_eq_zero h0, mul_zero, inside_quadraticBelow_const]; simp
  · exact inside_quadraticBelow_of_ge h1 t

/-- A computed window is filled with breaches and contains all of them. -/
theorem window_eq_some (hm : m.Positive) (h : AboveEpsilons r) {lo hi : ℝ}
    (hw : m.window r = some (lo, hi)) :
    Set.Ioo lo hi ⊆ r.breach m.horizontalNm m.verticalFt m.lookaheadS ∧
      r.breach m.horizontalNm m.verticalFt m.lookaheadS ⊆ Set.Icc lo hi := by
  obtain ⟨h0, -, h1⟩ := overlap_bounds hw
  refine ⟨fun t ht => ?_, fun t ht => ?_⟩
  · obtain ⟨hf, hs⟩ := inside_of_overlap hw ht.1 ht.2
    exact ⟨h0.trans ht.1.le, ht.2.le.trans h1, (inside_horizontal hm.horizontal h.speedSq t).mp hf,
      (inside_linearWithin hm.vertical h.vertical t).mp hs⟩
  · obtain ⟨ht0, ht1, hh, hv⟩ := ht
    obtain ⟨lo', hi', hw', hlo, hhi⟩ := overlap_of_inside hm.lookahead ht0 ht1
      ((inside_horizontal hm.horizontal h.speedSq t).mpr hh)
      ((inside_linearWithin hm.vertical h.vertical t).mpr hv)
    have heq : some (lo, hi) = some (lo', hi') := hw.symm.trans hw'
    cases heq
    exact ⟨hlo, hhi⟩

/-- The window is computed exactly when some instant breaches both standards. -/
theorem window_ne_none_iff (hm : m.Positive) (h : AboveEpsilons r) :
    m.window r ≠ none ↔ (r.breach m.horizontalNm m.verticalFt m.lookaheadS).Nonempty := by
  constructor
  · intro hw
    obtain ⟨⟨lo, hi⟩, hw⟩ := Option.ne_none_iff_exists'.mp hw
    obtain ⟨t, ht⟩ := Set.nonempty_Ioo.mpr (overlap_bounds hw).2.1
    exact ⟨t, (window_eq_some hm h hw).1 ht⟩
  · rintro ⟨t, ht0, ht1, hh, hv⟩
    obtain ⟨lo, hi, hw, -⟩ := overlap_of_inside hm.lookahead ht0 ht1
      ((inside_horizontal hm.horizontal h.speedSq t).mpr hh)
      ((inside_linearWithin hm.vertical h.vertical t).mpr hv)
    exact Option.ne_none_iff_exists'.mpr ⟨_, hw⟩

theorem cpaTime_mem (hH : 0 ≤ m.lookaheadS) (r : RelativeMotion) :
    0 ≤ cpaTime r m.lookaheadS ∧ cpaTime r m.lookaheadS ≤ m.lookaheadS := by
  unfold cpaTime
  split_ifs
  · exact ⟨le_rfl, hH⟩
  · exact ⟨le_max_left _ _, max_le hH (min_le_left _ _)⟩

/-! ### The deterministic test -/

/-- An established track on the equator with no uncertainty reported. -/
def equatorTrack (id : String) (lonDeg altitudeFt speedKt headingDeg rateFpm : ℝ) : TrackUpdate where
  trackId := id
  icao24 := "a1b2c3"
  updatedAt := 0
  lastReportAt := 0
  state := .confirmed
  lat := 0
  lon := lonDeg
  altitudeFt := altitudeFt
  groundSpeedKt := speedKt
  trackDeg := headingDeg
  verticalRateFpm := rateFpm
  turnRateDegS := 0
  positionUncertaintyM := 0
  updateCount := 50

theorem kinematics_equatorTrack (lon : ℝ) (h0 : -180 ≤ lon) (h1 : lon < 180) (id : String)
    (alt v rate : ℝ) :
    kinematics (equatorTrack id lon alt v 90 rate) 0 0 =
      { track := equatorTrack id lon alt v 90 rate
        eastNm := lon * Real.pi / 180 * earthRadiusNm
        northNm := 0
        vEastKt := v
        vNorthKt := 0
        altitudeFt := alt
        vAltFpm := rate } := by
  have hquarter : (90 : ℝ) * Real.pi / 180 = Real.pi / 2 := by ring
  simp [kinematics, equatorTrack, toLocalEnu, radians, wrapLongitude_eq_self h0 h1, hquarter]

/-- An aircraft flying east or west, `eastNm` from the origin of the plane. -/
def flying (id : String) (eastNm altitudeFt vEastKt rateFpm : ℝ) : Kinematics where
  track := equatorTrack id 0 altitudeFt vEastKt 90 rateFpm
  eastNm := eastNm
  northNm := 0
  vEastKt := vEastKt
  vNorthKt := 0
  altitudeFt := altitudeFt
  vAltFpm := rateFpm

theorem probability_none (hdet : m.probabilityThreshold = none) (h v t : ℝ) :
    m.probability first second h v t = none := by
  simp [SeparationMonitor.probability, hdet]

theorem verticalSlack_zero (hdet : m.probabilityThreshold = none) :
    m.verticalSlack first second = 0 := by
  simp [SeparationMonitor.verticalSlack, hdet]

/-- What the deterministic test returns, in terms of the rejection and the window. -/
theorem testPair_eq_some_iff (hdet : m.probabilityThreshold = none) {c : Conflict} :
    m.testPair first second = some c ↔ ¬ m.rejectsVertically first second ∧
      m.window (relative first second) ≠ none ∧ c = m.conflictFor first second none := by
  unfold SeparationMonitor.testPair
  by_cases hr : m.rejectsVertically first second
  · simp [hr]
  · by_cases hw : m.window (relative first second) = none
    · simp [hr, hw, probability_none hdet]
    · simp [hr, hw, probability_none hdet, eq_comm]

/-- The cheap rejection discards no pair with an instant inside the vertical standard. -/
theorem not_rejectsVertically (hdet : m.probabilityThreshold = none) {t : ℝ} (h0 : 0 ≤ t)
    (h1 : t ≤ m.lookaheadS) (hv : verticalDistance first second t < m.verticalFt) :
    ¬ m.rejectsVertically first second := by
  have hge := abs_affine_ge (o := (relative first second).up) (r := (relative first second).vUp) h0 h1
  have hrate : |(relative first second).vUp| = |second.vAltFpm - first.vAltFpm| / 60 := by
    rw [relative, abs_div]; norm_num
  rw [verticalDistance_eq, RelativeMotion.verticalAt] at hv
  rw [hrate] at hge
  simp only [SeparationMonitor.rejectsVertically, verticalSlack_zero hdet, not_le, ge_iff_le, sub_zero]
  exact lt_of_le_of_lt hge hv

theorem isSome_testPair (hdet : m.probabilityThreshold = none) :
    (m.testPair first second).isSome ↔ ¬ m.rejectsVertically first second ∧
      m.window (relative first second) ≠ none := by
  rw [Option.isSome_iff_exists]
  constructor
  · rintro ⟨c, hc⟩
    obtain ⟨hr, hw, -⟩ := (testPair_eq_some_iff hdet).mp hc
    exact ⟨hr, hw⟩
  · rintro ⟨hr, hw⟩
    exact ⟨_, (testPair_eq_some_iff hdet).mpr ⟨hr, hw, rfl⟩⟩

/-- The cheap rejection discards no pair with a window, at whatever rate. -/
theorem not_rejectsVertically_of_window (hdet : m.probabilityThreshold = none) (hm : m.Positive)
    {lo hi : ℝ} (hw : m.window (relative first second) = some (lo, hi)) :
    ¬ m.rejectsVertically first second := by
  obtain ⟨t, hlo, hhi⟩ := exists_between (overlap_bounds hw).2.1
  obtain ⟨h0, -, h1⟩ := overlap_bounds hw
  have hs := (inside_of_overlap hw hlo hhi).2
  by_cases hrate : |(relative first second).vUp| < 1e-12
  · rw [linearWithin, if_pos hrate] at hs
    have hup : |second.altitudeFt - first.altitudeFt| < m.verticalFt := by
      by_contra hnot
      rw [if_neg (show ¬ |(relative first second).up| < m.verticalFt from hnot)] at hs
      exact not_inside_none t hs
    have hclosure : 0 ≤ |second.vAltFpm - first.vAltFpm| / 60 * m.lookaheadS :=
      mul_nonneg (div_nonneg (abs_nonneg _) (by norm_num)) hm.lookahead.le
    simp only [SeparationMonitor.rejectsVertically, verticalSlack_zero hdet, not_le, ge_iff_le]
    linarith
  · refine not_rejectsVertically hdet (h0.trans hlo.le) (hhi.le.trans h1) ?_
    rw [verticalDistance_eq]
    exact (inside_linearWithin hm.vertical (.inr (not_lt.mp hrate)) t).mp hs

/-- The deterministic test returns a conflict for every pair with an instant that breaks both. -/
theorem isSome_testPair_of_breach (hdet : m.probabilityThreshold = none) (hm : m.Positive)
    (heps : AboveEpsilons (relative first second)) {t : ℝ} (ht : t ∈ m.breachSet first second) :
    (m.testPair first second).isSome := by
  have hw : m.window (relative first second) ≠ none :=
    (window_ne_none_iff hm heps).mpr (breachSet_eq ▸ ⟨t, ht⟩)
  obtain ⟨h0, h1, -, hv⟩ := ht
  exact (isSome_testPair hdet).mpr ⟨not_rejectsVertically hdet h0 h1 hv, hw⟩

/-- The deterministic test returns a conflict exactly when some instant of the lookahead breaks both
    standards at once, and the cheap rejection never discards a pair for which there is one. -/
theorem testPair_iff_breach (hdet : m.probabilityThreshold = none) (hm : m.Positive)
    (heps : AboveEpsilons (relative first second)) :
    ((∃ c, m.testPair first second = some c) ↔
      ∃ t, 0 ≤ t ∧ t ≤ m.lookaheadS ∧ horizontalDistance first second t < m.horizontalNm ∧
        verticalDistance first second t < m.verticalFt) ∧
    ((∃ t, 0 ≤ t ∧ t ≤ m.lookaheadS ∧ horizontalDistance first second t < m.horizontalNm ∧
        verticalDistance first second t < m.verticalFt) → ¬ m.rejectsVertically first second) := by
  have hreject : (m.breachSet first second).Nonempty → ¬ m.rejectsVertically first second := by
    rintro ⟨t, h0, h1, -, hv⟩; exact not_rejectsVertically hdet h0 h1 hv
  refine ⟨⟨?_, ?_⟩, hreject⟩
  · rintro ⟨c, hc⟩
    have hw := ((testPair_eq_some_iff hdet).mp hc).2.1
    rw [window_ne_none_iff hm heps, ← breachSet_eq] at hw
    exact hw
  · rintro ⟨t, ht⟩
    exact Option.isSome_iff_exists.mp (isSome_testPair_of_breach hdet hm heps ht)

/-- Twelve miles apart, head-on, the higher aircraft descending: a conflict after closest approach. -/
theorem testPair_iff_breach_descending : ∃ c, ({} : SeparationMonitor).testPair
    (flying "trk-west" 0 33000 450 0) (flying "trk-east" 12 35000 (-450) (-1000)) = some c := by
  have heps : AboveEpsilons (relative (flying "trk-west" 0 33000 450 0)
      (flying "trk-east" 12 35000 (-450) (-1000))) := by
    constructor
    · refine Or.inr ((Real.le_sqrt' (by norm_num)).mpr ?_)
      norm_num [RelativeMotion.speedSq, relative, flying, knotsToNmPerSecond]
    · right; norm_num [relative, flying]
  refine (testPair_iff_breach rfl ⟨by norm_num, by norm_num, by norm_num⟩ heps).1.mpr
    ⟨62, by norm_num, by norm_num, ?_, ?_⟩
  · rw [horizontalDistance, Real.sqrt_lt' (by norm_num)]
    norm_num [flying, Kinematics.eastAt, Kinematics.northAt, knotsToNmPerSecond]
  · rw [verticalDistance, abs_lt]
    norm_num [flying, Kinematics.altitudeAt]

/-! ### The evidence -/

/-- The evidence of a conflict is the truth about the set of instants that break both standards. -/
structure EvidenceTrue (m : SeparationMonitor) (first second : Kinematics) (c : Conflict) : Prop where
  time_mem : c.timeToCpaS ∈ Set.Icc 0 m.lookaheadS
  time_closure : c.timeToCpaS ∈ closure (m.breachSet first second)
  time_least : ∀ t ∈ closure (m.breachSet first second),
    horizontalDistance first second c.timeToCpaS ≤ horizontalDistance first second t
  horizontal : c.minHorizontalNm = horizontalDistance first second c.timeToCpaS
  vertical : IsGLB (verticalDistance first second '' m.breachSet first second) c.minVerticalFt
  horizontal_lt : c.minHorizontalNm < m.horizontalNm
  vertical_lt : c.minVerticalFt < m.verticalFt

/-- Strictly inside the lookahead, within the horizontal standard, the two aircraft pass through each
    other's level. -/
def CrossesLevelsInside (m : SeparationMonitor) (first second : Kinematics) : Prop :=
  first.vAltFpm ≠ second.vAltFpm ∧
    ∃ t, 0 < t ∧ t < m.lookaheadS ∧ horizontalDistance first second t < m.horizontalNm ∧
      first.altitudeAt t = second.altitudeAt t

theorem report_of_window {lo hi : ℝ} (hw : m.window r = some (lo, hi)) :
    m.report r = (max lo (min hi (cpaTime r m.lookaheadS)),
      r.horizontalAt (max lo (min hi (cpaTime r m.lookaheadS))),
      min (r.verticalAt lo) (r.verticalAt hi)) := by
  simp only [SeparationMonitor.report, hw]

/-- Above the epsilons the reported moment is the closest approach within the window. -/
theorem horizontalAt_clamp_le (h : r.speedSq = 0 ∨ 1e-12 ≤ r.speedSq) {lo hi lookaheadS t : ℝ}
    (h0 : 0 ≤ lo) (h1 : hi ≤ lookaheadS) (hlo : lo ≤ t) (hhi : t ≤ hi) :
    r.horizontalAt (max lo (min hi (cpaTime r lookaheadS))) ≤ r.horizontalAt t := by
  rw [← sq_le_sq₀ (RelativeMotion.horizontalAt_nonneg _) (RelativeMotion.horizontalAt_nonneg _),
    RelativeMotion.horizontalAt_sq, RelativeMotion.horizontalAt_sq]
  rcases h with hz | hpos
  · rw [hz, RelativeMotion.opening_eq_zero hz]; simp
  · have hspeed : 0 < r.speedSq := lt_of_lt_of_le (by norm_num) hpos
    have hcpa : cpaTime r lookaheadS =
        max 0 (min lookaheadS (-(2 * r.opening) / (2 * r.speedSq))) := by
      rw [cpaTime, if_neg (not_lt.mpr hpos), ← mul_neg, mul_div_mul_left _ _ two_ne_zero]
    rw [hcpa, clamp_clamp (hlo.trans hhi) h0 h1]
    exact quadratic_clamp_le hspeed hlo hhi

theorem vUp_ne_zero_iff : (relative first second).vUp ≠ 0 ↔ first.vAltFpm ≠ second.vAltFpm := by
  rw [ne_comm (a := first.vAltFpm)]
  simp only [relative, ne_eq, div_eq_zero_iff, OfNat.ofNat_ne_zero, or_false, sub_eq_zero]

/-- Inside a computed window, changing level order is an inner zero of the vertical motion. -/
theorem crossesLevelsInside_iff (hm : m.Positive) (heps : AboveEpsilons (relative first second))
    {lo hi : ℝ} (hw : m.window (relative first second) = some (lo, hi)) :
    CrossesLevelsInside m first second ↔ (relative first second).vUp ≠ 0 ∧
      ∃ t, lo < t ∧ t < hi ∧ (relative first second).up + (relative first second).vUp * t = 0 := by
  have hlevel : ∀ t, first.altitudeAt t = second.altitudeAt t ↔
      (relative first second).up + (relative first second).vUp * t = 0 := by
    intro t; rw [← altitude_sub_eq, sub_eq_zero, eq_comm]
  obtain ⟨h0, -, h1⟩ := overlap_bounds hw
  unfold CrossesLevelsInside
  rw [vUp_ne_zero_iff]
  refine and_congr_right fun _ => exists_congr fun t => ?_
  rw [hlevel, horizontalDistance_eq]
  constructor
  · rintro ⟨ht0, ht1, hh, hz⟩
    obtain ⟨hlo, hhi⟩ := mem_Ioo_of_overlap hw ht0 ht1
      ((inside_horizontal hm.horizontal heps.speedSq t).mpr hh)
      ((inside_linearWithin hm.vertical heps.vertical t).mpr (by simpa [hz] using hm.vertical))
    exact ⟨hlo, hhi, hz⟩
  · rintro ⟨hlo, hhi, hz⟩
    obtain ⟨-, -, hh, -⟩ := (window_eq_some hm heps hw).1 ⟨hlo, hhi⟩
    exact ⟨h0.trans_lt hlo, hhi.trans_le h1, hh, hz⟩

/-- Without a change of level order inside the window its ends carry the vertical minimum. -/
theorem isLeast_vertical_ends {lo hi : ℝ} (hle : lo ≤ hi)
    (hne : ∀ t, lo < t → t < hi → r.vUp = 0 ∨ r.up + r.vUp * t ≠ 0) :
    IsLeast (r.verticalAt '' Set.Icc lo hi) (min (r.verticalAt lo) (r.verticalAt hi)) := by
  constructor
  · rcases min_choice (r.verticalAt lo) (r.verticalAt hi) with h | h <;> rw [h]
    · exact ⟨lo, ⟨le_rfl, hle⟩, rfl⟩
    · exact ⟨hi, ⟨hle, le_rfl⟩, rfl⟩
  · rintro _ ⟨t, ht, rfl⟩
    exact abs_affine_ge_ends hne ht.1 ht.2

/-- With one, the vertical minimum is zero. -/
theorem isLeast_vertical_zero {lo hi t : ℝ} (hlo : lo ≤ t) (hhi : t ≤ hi)
    (hz : r.up + r.vUp * t = 0) : IsLeast (r.verticalAt '' Set.Icc lo hi) 0 := by
  refine ⟨⟨t, ⟨hlo, hhi⟩, by rw [RelativeMotion.verticalAt, hz, abs_zero]⟩, ?_⟩
  rintro _ ⟨u, -, rfl⟩
  exact abs_nonneg _

/-- The image of the breach set under the vertical distance has the bound of the closed window. -/
theorem isGLB_verticalDistance (hm : m.Positive) (heps : AboveEpsilons (relative first second)) {lo hi v : ℝ}
    (hw : m.window (relative first second) = some (lo, hi))
    (hleast : IsLeast ((relative first second).verticalAt '' Set.Icc lo hi) v) :
    IsGLB (verticalDistance first second '' m.breachSet first second) v := by
  obtain ⟨-, hlt, -⟩ := overlap_bounds hw
  obtain ⟨hin, hout⟩ := window_eq_some hm heps hw
  have hfun : verticalDistance first second = (relative first second).verticalAt :=
    funext verticalDistance_eq
  rw [breachSet_eq, hfun]
  exact RelativeMotion.isGLB_of_squeezed RelativeMotion.continuous_verticalAt hlt hin hout hleast

/-- A level crossed inside the window makes the true minimum zero, the reported one is not. -/
theorem not_evidenceTrue_of_zero (hm : m.Positive) (heps : AboveEpsilons (relative first second)) {lo hi t : ℝ}
    (hw : m.window (relative first second) = some (lo, hi)) (hrate : (relative first second).vUp ≠ 0)
    (hlo : lo < t) (hhi : t < hi) (hz : (relative first second).up + (relative first second).vUp * t = 0) :
    ¬ EvidenceTrue m first second (m.conflictFor first second none) := by
  intro he
  have hglb := he.vertical
  simp only [SeparationMonitor.conflictFor, report_of_window hw] at hglb
  have hmin := hglb.unique (isGLB_verticalDistance hm heps hw (isLeast_vertical_zero hlo.le hhi.le hz))
  -- away from the crossing the vertical motion does not vanish
  have hpos : ∀ u, u ≠ t → 0 < (relative first second).verticalAt u := by
    intro u hu
    have : (relative first second).up + (relative first second).vUp * u =
        (relative first second).vUp * (u - t) := by linarith
    rw [RelativeMotion.verticalAt, this]
    exact abs_pos.mpr (mul_ne_zero hrate (sub_ne_zero.mpr hu))
  exact absurd hmin (lt_min (hpos lo hlo.ne) (hpos hi hhi.ne')).ne'

/-- Without one the ends of the window carry the minimum and all of the evidence is true. -/
theorem evidenceTrue_of_no_zero (hm : m.Positive) (heps : AboveEpsilons (relative first second)) {lo hi : ℝ}
    (hw : m.window (relative first second) = some (lo, hi))
    (hne : ∀ t, lo < t → t < hi → (relative first second).vUp = 0 ∨
      (relative first second).up + (relative first second).vUp * t ≠ 0) :
    EvidenceTrue m first second (m.conflictFor first second none) := by
  obtain ⟨h0, hlt, h1⟩ := overlap_bounds hw
  obtain ⟨hin, hout⟩ := window_eq_some hm heps hw
  have hclosure := RelativeMotion.closure_of_squeezed hlt hin hout
  have hglb := isGLB_verticalDistance hm heps hw (isLeast_vertical_ends hlt.le hne)
  obtain ⟨t, ht⟩ := Set.nonempty_Ioo.mpr hlt
  have htmem := hin ht
  rw [← breachSet_eq] at htmem
  obtain ⟨-, -, hth, htv⟩ := hin ht
  set T := max lo (min hi (cpaTime (relative first second) m.lookaheadS)) with hT
  have hTmem : T ∈ Set.Icc lo hi := ⟨le_max_left _ _, max_le hlt.le (min_le_left _ _)⟩
  simp only [SeparationMonitor.conflictFor, report_of_window hw]
  refine ⟨⟨h0.trans hTmem.1, hTmem.2.trans h1⟩, ?_, ?_, (horizontalDistance_eq T).symm, hglb, ?_, ?_⟩
  · rw [breachSet_eq, hclosure]; exact hTmem
  · intro u hu
    rw [breachSet_eq, hclosure] at hu
    rw [horizontalDistance_eq, horizontalDistance_eq]
    exact horizontalAt_clamp_le heps.speedSq h0 h1 hu.1 hu.2
  · exact (horizontalAt_clamp_le heps.speedSq h0 h1 ht.1.le ht.2.le).trans_lt hth
  · refine (hglb.1 (Set.mem_image_of_mem _ htmem)).trans_lt ?_
    rwa [verticalDistance_eq]

/-- On every conflict the deterministic test returns, the evidence is true exactly when the aircraft
    do not pass through each other's level inside the window. -/
theorem evidence_true_iff (hdet : m.probabilityThreshold = none) (hm : m.Positive)
    (heps : AboveEpsilons (relative first second)) {c : Conflict}
    (hc : m.testPair first second = some c) :
    EvidenceTrue m first second c ↔ ¬ CrossesLevelsInside m first second := by
  obtain ⟨-, hw, rfl⟩ := (testPair_eq_some_iff hdet).mp hc
  obtain ⟨⟨lo, hi⟩, hw⟩ := Option.ne_none_iff_exists'.mp hw
  rw [crossesLevelsInside_iff hm heps hw]
  constructor
  · rintro he ⟨hrate, t, htlo, hthi, hz⟩
    exact not_evidenceTrue_of_zero hm heps hw hrate htlo hthi hz he
  · intro hcross
    refine evidenceTrue_of_no_zero hm heps hw fun t htlo hthi => ?_
    by_contra hcon
    rw [not_or, not_not] at hcon
    exact hcross ⟨hcon.1, t, htlo, hthi, hcon.2⟩

/-- A level pair two miles in trail: no level is crossed and the evidence is true. -/
theorem evidence_true_iff_level : ∃ c, ({} : SeparationMonitor).testPair
    (flying "trk-low" 0 33000 450 0) (flying "trk-high" 2 33500 450 0) = some c ∧
      EvidenceTrue {} (flying "trk-low" 0 33000 450 0) (flying "trk-high" 2 33500 450 0) c := by
  have hm : ({} : SeparationMonitor).Positive := ⟨by norm_num, by norm_num, by norm_num⟩
  set r := relative (flying "trk-low" 0 33000 450 0) (flying "trk-high" 2 33500 450 0) with hr
  have hvup : r.vUp = 0 := by norm_num [hr, relative, flying]
  have hspeed : r.speedSq = 0 := by
    norm_num [hr, relative, flying, RelativeMotion.speedSq, knotsToNmPerSecond]
  have heps : AboveEpsilons r := ⟨Or.inl (by rw [hspeed, Real.sqrt_zero]), Or.inl hvup⟩
  have hnear : (0 : ℝ) ∈ ({} : SeparationMonitor).breachSet (flying "trk-low" 0 33000 450 0)
      (flying "trk-high" 2 33500 450 0) := by
    refine ⟨le_rfl, by norm_num, ?_, ?_⟩
    · rw [horizontalDistance, Real.sqrt_lt' (by norm_num)]
      norm_num [flying, Kinematics.eastAt, Kinematics.northAt]
    · rw [verticalDistance, abs_lt]
      norm_num [flying, Kinematics.altitudeAt]
  have hc := (testPair_eq_some_iff rfl).mpr ⟨not_rejectsVertically rfl hnear.1 hnear.2.1 hnear.2.2.2,
    (window_ne_none_iff hm heps).mpr (breachSet_eq ▸ ⟨0, hnear⟩), rfl⟩
  exact ⟨_, hc, (evidence_true_iff rfl hm heps hc).mpr fun h => h.1 rfl⟩

/-- One aircraft descends through the level of another two miles ahead: the true vertical minimum is
    zero, the reported one is the standard itself. -/
theorem evidence_false_crossing : ({} : SeparationMonitor).Positive ∧
    AboveEpsilons (relative (flying "trk-low" 0 33000 450 0) (flying "trk-high" 2 35000 450 (-1200))) ∧
    ∃ c, ({} : SeparationMonitor).testPair (flying "trk-low" 0 33000 450 0)
        (flying "trk-high" 2 35000 450 (-1200)) = some c ∧ c.minVerticalFt = 1000 ∧
      ¬ EvidenceTrue {} (flying "trk-low" 0 33000 450 0) (flying "trk-high" 2 35000 450 (-1200)) c := by
  set r := relative (flying "trk-low" 0 33000 450 0) (flying "trk-high" 2 35000 450 (-1200)) with hr
  have hup : r.up = 2000 := by norm_num [hr, relative, flying]
  have hvup : r.vUp = -20 := by norm_num [hr, relative, flying]
  have hspeed : r.speedSq = 0 := by
    norm_num [hr, relative, flying, RelativeMotion.speedSq, knotsToNmPerSecond]
  have hrange : r.rangeSq = 4 := by norm_num [hr, relative, flying, RelativeMotion.rangeSq]
  have hw : ({} : SeparationMonitor).window r = some (50, 150) := by
    have hh : quadraticBelow 0 0 (4 - 5 ^ 2) = some (⊥, ⊤) := by norm_num [quadraticBelow]
    have hv : linearWithin 2000 (-20) 1000 = some (((50 : ℝ) : EReal), ((150 : ℝ) : EReal)) := by
      norm_num [linearWithin]
    rw [SeparationMonitor.window, hspeed, RelativeMotion.opening_eq_zero hspeed, hrange, hup, hvup,
      mul_zero, hh, hv]
    exact overlap_all_left (by norm_num) (by norm_num) (by norm_num)
  have hreject : ¬ ({} : SeparationMonitor).rejectsVertically (flying "trk-low" 0 33000 450 0)
      (flying "trk-high" 2 35000 450 (-1200)) := by
    simp only [SeparationMonitor.rejectsVertically, verticalSlack_zero]
    norm_num [flying]
  have hmin : (({} : SeparationMonitor).conflictFor (flying "trk-low" 0 33000 450 0)
      (flying "trk-high" 2 35000 450 (-1200)) none).minVerticalFt = 1000 := by
    simp only [SeparationMonitor.conflictFor, ← hr, report_of_window hw, RelativeMotion.verticalAt,
      hup, hvup]
    norm_num
  refine ⟨⟨by norm_num, by norm_num, by norm_num⟩, ⟨.inl (by rw [hspeed, Real.sqrt_zero]),
    .inr (by rw [hvup]; norm_num)⟩, _, (testPair_eq_some_iff rfl).mpr ⟨hreject, by rw [← hr, hw]; simp,
    rfl⟩, hmin, fun he => ?_⟩
  have := he.vertical_lt
  rw [hmin] at this
  norm_num at this

end

end Airspace
