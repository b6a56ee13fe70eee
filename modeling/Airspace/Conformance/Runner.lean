import Airspace.Conformance.Alerts
import Airspace.Conformance.Grid
import Mathlib.Analysis.Real.Pi.Bounds

/-! From a conflict to the alert it raises (`acp.services.conformance.runner`).

    The detection of a conflict carries its reason codes and a severity that grows as the reported
    moment comes near. For a pair that is inside both standards at the scan the overlap starts at zero,
    but the reported moment is the closest approach within it: the pair is shown as already in conflict
    exactly when it is not converging. -/

namespace Airspace

noncomputable section

open Classical

/-- Escalate with urgency: the time to closest approach drives severity. -/
def severityFor (conflict : Conflict) : Severity :=
  if conflict.timeToCpaS ≤ 60 then .warning
  else if conflict.timeToCpaS ≤ 180 then .caution
  else .advisory

/-- The alert manager's view of a conflict. -/
def asDetection (conflict : Conflict) : Detection where
  key := conflict.key
  kind := .predictedConflict
  severity := severityFor conflict
  summary :=
    displayName conflict.firstCallsign conflict.firstTrackId ++ " and " ++
    displayName conflict.secondCallsign conflict.secondTrackId ++ ": predicted separation " ++
    formatFixed 1 conflict.minHorizontalNm ++ " NM / " ++ formatFixed 0 conflict.minVerticalFt ++
    " ft in " ++ formatFixed 0 conflict.timeToCpaS ++ " s"
  reasonCodes := conflict.reasonCodes
  trackIds := [conflict.firstTrackId, conflict.secondTrackId]
  conflict := some
    { timeToCpaS := conflict.timeToCpaS
      minHorizontalSepNm := conflict.minHorizontalNm
      minVerticalSepFt := conflict.minVerticalFt
      lookaheadS := conflict.lookaheadS
      horizontalStandardNm := conflict.horizontalStandardNm
      verticalStandardFt := conflict.verticalStandardFt }

/-- The pair is shown as an infringement in progress. -/
def ShownInProgress (d : Detection) : Prop :=
  "already_in_conflict" ∈ d.reasonCodes ∧ d.severity = .warning

/-- At the scan the horizontal distance is shrinking, at a relative speed the code can see. -/
def Converging (first second : Kinematics) : Prop :=
  1e-12 ≤ (relative first second).speedSq ∧ (relative first second).opening < 0

variable {m : SeparationMonitor} {first second : Kinematics} {r : RelativeMotion}
  {tracks : List TrackUpdate}

theorem shownInProgress_asDetection (c : Conflict) :
    ShownInProgress (asDetection c) ↔ c.timeToCpaS ≤ 0 := by
  unfold ShownInProgress asDetection Conflict.reasonCodes severityFor
  constructor
  · rintro ⟨h, -⟩
    by_contra hpos
    simp only [if_neg hpos] at h
    split_ifs at h <;> simp at h
  · intro h
    refine ⟨?_, if_pos (h.trans (by norm_num))⟩
    simp [if_pos h]

/-! ### Inside both standards now -/

/-- Below zero now, a quadratic with a nonnegative leading coefficient has a window around now. -/
theorem inside_quadraticBelow_now {a b c : ℝ} (ha : 0 ≤ a) (hc : c < 0) :
    Inside (quadraticBelow a b c) 0 := by
  by_cases hbig : 1e-12 ≤ a
  · exact (inside_quadraticBelow_of_ge hbig 0).mpr (by linarith)
  unfold quadraticBelow
  rw [if_pos (by rw [abs_of_nonneg ha]; exact not_le.mp hbig)]
  split_ifs with hb hpos
  · simp
  · rw [inside_some, EReal.coe_lt_coe_iff]
    exact ⟨EReal.bot_lt_coe 0, div_pos (by linarith) hpos⟩
  · rw [inside_some, EReal.coe_lt_coe_iff]
    have hb0 : b < 0 := lt_of_le_of_ne (not_lt.mp hpos) (by rintro rfl; norm_num at hb)
    exact ⟨div_neg_of_pos_of_neg (by linarith) hb0, EReal.coe_lt_top 0⟩

/-- Within the limit now, an affine function has a window around now. -/
theorem inside_linearWithin_now {offset rate limit : ℝ} (h : |offset| < limit) :
    Inside (linearWithin offset rate limit) 0 := by
  by_cases hrate : |rate| < 1e-12
  · rw [linearWithin, if_pos hrate, if_pos h]
    simp
  · exact (inside_linearWithin ((abs_nonneg _).trans_lt h) (.inr (not_lt.mp hrate)) 0).mpr
      (by simpa using h)

/-- The window of a pair inside both standards now starts now. -/
theorem window_of_inside_now (hm : m.Positive) (hh : horizontalDistance first second 0 < m.horizontalNm)
    (hv : verticalDistance first second 0 < m.verticalFt) :
    ∃ hi, 0 < hi ∧ m.window (relative first second) = some (0, hi) := by
  rw [horizontalDistance_eq, RelativeMotion.horizontalAt_lt_iff hm.horizontal] at hh
  rw [verticalDistance_eq, RelativeMotion.verticalAt, mul_zero, add_zero] at hv
  have hf : Inside (quadraticBelow (relative first second).speedSq (2 * (relative first second).opening)
      ((relative first second).rangeSq - m.horizontalNm ^ 2)) 0 :=
    inside_quadraticBelow_now RelativeMotion.speedSq_nonneg (by linarith)
  have hs : Inside (linearWithin (relative first second).up (relative first second).vUp m.verticalFt) 0 :=
    inside_linearWithin_now hv
  obtain ⟨lo, hi, hw, hlo, -⟩ := overlap_of_inside hm.lookahead le_rfl hm.lookahead.le hf hs
  obtain ⟨h0, hlt, -⟩ := overlap_bounds hw
  obtain rfl := le_antisymm hlo h0
  exact ⟨hi, hlt, hw⟩

theorem cpaTime_nonpos_iff {h : ℝ} (hh : 0 < h) :
    cpaTime r h ≤ 0 ↔ ¬ (1e-12 ≤ r.speedSq ∧ r.opening < 0) := by
  unfold cpaTime
  by_cases hslow : r.speedSq < 1e-12
  · rw [if_pos hslow]
    exact iff_of_true le_rfl fun hc => absurd hc.1 (not_le.mpr hslow)
  · have hpos : 0 < r.speedSq := lt_of_lt_of_le (by norm_num) (not_lt.mp hslow)
    rw [if_neg hslow, max_le_iff, min_le_iff, div_le_iff₀ hpos, zero_mul, neg_nonpos]
    simp only [le_refl, true_and, not_le.mpr hh, false_or, not_lt.mp hslow, not_lt]

/-- A pair inside both standards at the scan is reported at its closest approach in the window. -/
theorem testPair_of_inside_now (hdet : m.probabilityThreshold = none) (hm : m.Positive)
    (hh : horizontalDistance first second 0 < m.horizontalNm)
    (hv : verticalDistance first second 0 < m.verticalFt) :
    ∃ c hi, 0 < hi ∧ m.window (relative first second) = some (0, hi) ∧
      m.testPair first second = some c ∧
      c.timeToCpaS = max 0 (min hi (cpaTime (relative first second) m.lookaheadS)) := by
  obtain ⟨hi, hhi, hw⟩ := window_of_inside_now hm hh hv
  refine ⟨m.conflictFor first second none, hi, hhi, hw, (testPair_eq_some_iff hdet).mpr
    ⟨not_rejectsVertically_of_window hdet hm hw, by rw [hw]; simp, rfl⟩, ?_⟩
  simp only [SeparationMonitor.conflictFor, report_of_window hw]

/-- A candidate pair inside both standards at the scan is reported, and its detection shows an
    infringement in progress exactly when the two aircraft are not converging. -/
theorem shown_in_progress_iff (hdet : m.probabilityThreshold = none) (hm : m.Positive)
    (hp : (first, second) ∈ m.candidatePairs (m.states tracks))
    (hh : horizontalDistance first second 0 < m.horizontalNm)
    (hv : verticalDistance first second 0 < m.verticalFt) :
    ∃ c ∈ m.scan tracks, m.testPair first second = some c ∧
      (ShownInProgress (asDetection c) ↔ ¬ Converging first second) := by
  obtain ⟨c, hi, hhi, -, hc, htime⟩ := testPair_of_inside_now hdet hm hh hv
  refine ⟨c, mem_scan_iff.mpr ⟨_, hp, hc⟩, hc, ?_⟩
  rw [shownInProgress_asDetection, Converging, ← cpaTime_nonpos_iff hm.lookahead, htime, max_le_iff,
    min_le_iff]
  simp [not_le.mpr hhi]

/-! ### Two aircraft four miles in trail -/

/-- Four miles in trail at one level, the one behind at 450 kt plus the overtaking speed. -/
def inTrail (overtakingKt : ℝ) : List TrackUpdate :=
  [equatorTrack "trk-behind" (-1 / 30) 35000 (450 + overtakingKt) 90 0,
    equatorTrack "trk-ahead" (1 / 30) 35000 450 90 0]

theorem states_inTrail (overtakingKt : ℝ) : ({} : SeparationMonitor).states (inTrail overtakingKt) =
    [kinematics (equatorTrack "trk-behind" (-1 / 30) 35000 (450 + overtakingKt) 90 0) 0 0,
      kinematics (equatorTrack "trk-ahead" (1 / 30) 35000 450 90 0) 0 0] := by
  simp only [SeparationMonitor.states, SeparationMonitor.eligible, inTrail, equatorTrack]
  norm_num

/-- The relative motion of the pair. -/
def trailMotion (overtakingKt : ℝ) : RelativeMotion :=
  ⟨Real.pi / 2700 * earthRadiusNm, 0, -overtakingKt / 3600, 0, 0, 0⟩

/-- The two states of the trail: motion and cells. -/
theorem neighbours_inTrail (overtakingKt : ℝ) : ∃ behind ahead,
    ({} : SeparationMonitor).states (inTrail overtakingKt) = [behind, ahead] ∧
      relative behind ahead = trailMotion overtakingKt ∧ behind.track.trackId ≠ ahead.track.trackId ∧
      AdjacentCells (cellOf ({} : SeparationMonitor).interactionRadiusNm behind)
        (cellOf ({} : SeparationMonitor).interactionRadiusNm ahead) := by
  refine ⟨_, _, states_inTrail overtakingKt, ?_, by simp [kinematics, equatorTrack], ?_⟩
  · rw [kinematics_equatorTrack _ (by norm_num) (by norm_num),
      kinematics_equatorTrack _ (by norm_num) (by norm_num)]
    simp only [relative, trailMotion, knotsToNmPerSecond, RelativeMotion.mk.injEq]
    refine ⟨?_, ?_, ?_, ?_, ?_, ?_⟩ <;> ring
  · have hpi := Real.pi_gt_d2
    have hpi' := Real.pi_lt_d2
    rw [interactionRadiusNm_default, kinematics_equatorTrack _ (by norm_num) (by norm_num),
      kinematics_equatorTrack _ (by norm_num) (by norm_num)]
    refine adjacentCells_of_abs_lt (by norm_num) ?_ ?_ ?_ ?_
    · rw [abs_lt]; constructor <;> norm_num [earthRadiusNm] <;> linarith
    · rw [abs_lt]; constructor <;> norm_num [earthRadiusNm] <;> linarith
    · norm_num
    · norm_num

/-- The pair is a candidate, and its motion is the trailing one up to the order of the two. -/
theorem candidate_inTrail (overtakingKt : ℝ) :
    ∃ p ∈ ({} : SeparationMonitor).candidatePairs (({} : SeparationMonitor).states (inTrail overtakingKt)),
      (∀ t, horizontalDistance p.1 p.2 t = (trailMotion overtakingKt).horizontalAt t) ∧
      (∀ t, verticalDistance p.1 p.2 t = 0) ∧
      (relative p.1 p.2).speedSq = (trailMotion overtakingKt).speedSq ∧
      (relative p.1 p.2).opening = (trailMotion overtakingKt).opening := by
  have hids : ((({} : SeparationMonitor).states (inTrail overtakingKt)).map
      fun s => s.track.trackId).Nodup := nodup_ids_states (by simp [inTrail, equatorTrack])
  obtain ⟨behind, ahead, hstates, hmotion, hne, hadj⟩ := neighbours_inTrail overtakingKt
  rw [hstates] at hids ⊢
  have hvertical : ∀ t, (trailMotion overtakingKt).verticalAt t = 0 := by
    intro t; simp [trailMotion, RelativeMotion.verticalAt]
  rcases (mem_candidatePairs_iff (m := {}) hids).mpr ⟨by simp, by simp, hne, hadj⟩ with h | h
  · refine ⟨_, h, fun t => ?_, fun t => ?_, ?_, ?_⟩
    · rw [horizontalDistance_eq, hmotion]
    · rw [verticalDistance_eq, hmotion, hvertical]
    · rw [hmotion]
    · rw [hmotion]
  · refine ⟨_, h, fun t => ?_, fun t => ?_, ?_, ?_⟩
    · rw [horizontalDistance_eq, relative_swap behind, hmotion, RelativeMotion.horizontalAt_swap]
    · rw [verticalDistance_eq, relative_swap behind, hmotion, RelativeMotion.verticalAt_swap, hvertical]
    · rw [relative_swap behind, hmotion, RelativeMotion.speedSq_swap]
    · rw [relative_swap behind, hmotion, RelativeMotion.opening_swap]

/-- In formation the infringement is shown. -/
theorem shown_in_progress_formation : ∃ c ∈ ({} : SeparationMonitor).scan (inTrail 0),
    ShownInProgress (asDetection c) := by
  obtain ⟨⟨first, second⟩, hp, hh, hv, hspeed, -⟩ := candidate_inTrail 0
  have hpi := Real.pi_gt_d2
  have hpi' := Real.pi_lt_d2
  obtain ⟨c, hc, -, hshown⟩ := shown_in_progress_iff rfl ⟨by norm_num, by norm_num, by norm_num⟩ hp
    (by
      rw [hh, RelativeMotion.horizontalAt, Real.sqrt_lt' (by norm_num)]
      norm_num [trailMotion, earthRadiusNm]
      nlinarith)
    (by rw [hv]; norm_num)
  refine ⟨c, hc, hshown.mpr fun hconv => ?_⟩
  have := hconv.1
  rw [hspeed] at this
  norm_num [trailMotion, RelativeMotion.speedSq] at this

/-- Overtaking at 10 kt the pair stays inside both standards throughout the lookahead, and the alert is
    an advisory without the reason code. -/
theorem shown_in_progress_not_overtaking : ({} : SeparationMonitor).Positive ∧
    ∃ p ∈ ({} : SeparationMonitor).candidatePairs (({} : SeparationMonitor).states (inTrail 10)),
      horizontalDistance p.1 p.2 0 < 5 ∧ verticalDistance p.1 p.2 0 < 1000 ∧
      ∃ c ∈ ({} : SeparationMonitor).scan (inTrail 10), ({} : SeparationMonitor).testPair p.1 p.2 = some c ∧
        ¬ ShownInProgress (asDetection c) ∧ (asDetection c).severity = .advisory := by
  obtain ⟨⟨first, second⟩, hp, hh, hv, hspeed, hopening⟩ := candidate_inTrail 10
  have hm : ({} : SeparationMonitor).Positive := ⟨by norm_num, by norm_num, by norm_num⟩
  have hpi := Real.pi_gt_d2
  have hpi' := Real.pi_lt_d2
  have hnear : ∀ t, 0 ≤ t → t ≤ 200 → horizontalDistance first second t < 5 := by
    intro t h0 h1
    rw [hh, RelativeMotion.horizontalAt, Real.sqrt_lt' (by norm_num)]
    norm_num [trailMotion, earthRadiusNm]
    nlinarith
  have hlevel : ∀ t, verticalDistance first second t < 1000 := fun t => by rw [hv]; norm_num
  obtain ⟨c, hi, hhi, hw, hc, htime⟩ := testPair_of_inside_now rfl hm (hnear 0 le_rfl (by norm_num))
    (hlevel 0)
  have hspeed' : (relative first second).speedSq = 1 / 129600 := by
    rw [hspeed]; norm_num [trailMotion, RelativeMotion.speedSq]
  have hcpa : cpaTime (relative first second) 300 = 300 := by
    rw [cpaTime, hspeed', hopening, if_neg (by norm_num), min_eq_left, max_eq_right (by norm_num)]
    norm_num [trailMotion, RelativeMotion.opening, earthRadiusNm]
    linarith
  have hrate : (relative first second).vUp = 0 := by
    have h0 := hv 0
    have h1 := hv 1
    rw [verticalDistance_eq, RelativeMotion.verticalAt, abs_eq_zero] at h0 h1
    linarith
  have heps : AboveEpsilons (relative first second) :=
    ⟨.inr ((Real.le_sqrt' (by norm_num)).mpr (by rw [hspeed']; norm_num)), .inl hrate⟩
  have hlast : 200 ≤ hi := by
    have hmem : (200 : ℝ) ∈ ({} : SeparationMonitor).breachSet first second :=
      ⟨by norm_num, by norm_num, hnear 200 (by norm_num) le_rfl, hlevel 200⟩
    rw [breachSet_eq] at hmem
    exact ((window_eq_some hm heps hw).2 hmem).2
  have hlate : 180 < c.timeToCpaS := by
    rw [htime, hcpa]
    exact lt_max_of_lt_right (lt_min (by linarith) (by norm_num))
  refine ⟨hm, _, hp, hnear 0 le_rfl (by norm_num), hlevel 0, c, mem_scan_iff.mpr ⟨_, hp, hc⟩, hc, ?_, ?_⟩
  · rw [shownInProgress_asDetection]; linarith
  · simp only [asDetection, severityFor]
    rw [if_neg (by linarith), if_neg (by linarith)]

end

end Airspace
