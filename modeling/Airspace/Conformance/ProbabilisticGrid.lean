import Airspace.Conformance.DiscRace
import Airspace.Conformance.GridCompleteness
import Airspace.Conformance.Tails
import Airspace.Conformance.ZeroUncertainty

/-! The cheap filters against the probability test.

    Two filters stand before the probability: the grid, laid out for where the aircraft are expected to be,
    and the vertical rejection, widened by nine sigmas of the altitude. A pair either of them drops has no
    window, so its probability would be judged at the clamped closest approach. The vertical filter gives way
    to the uncertainty and the grid does not: with enough of it a pair of cells that do not touch is more
    likely to conflict than the threshold allows. It is not while nine sigmas of its position fit between the
    two all through the lookahead. -/

namespace Airspace

noncomputable section

open Classical

namespace SeparationMonitor

variable (m : SeparationMonitor)

/-- P(conflict) as the pair test would compute it, if it came to it. -/
def pairProbability (first second : Kinematics) : Option ℝ :=
  let (tReport, minHorizontal, minVertical) := m.report (relative first second)
  m.probability first second minHorizontal minVertical tReport

/-- P(conflict) at the closest approach within the lookahead. -/
def approachProbability (first second : Kinematics) : Option ℝ :=
  match uncertainty first.track, uncertainty second.track with
  | some (pos₁, vel₁, alt₁, rate₁), some (pos₂, vel₂, alt₂, rate₂) =>
    let t := cpaTime (relative first second) m.lookaheadS
    some (conflictProbability (horizontalDistance first second t) (verticalDistance first second t)
      (projectedSigma pos₁ pos₂ (knotsToNmPerSecond vel₁) (knotsToNmPerSecond vel₂) t)
      (projectedSigma alt₁ alt₂ (rate₁ / 60) (rate₂ / 60) t) m.horizontalNm m.verticalFt)
  | _, _ => none

/-- Farther apart in altitude than the standard, what they can close within the lookahead, and nine sigmas of
    the altitude at its end. -/
def VerticallyApart (first second : Kinematics) : Prop :=
  match uncertainty first.track, uncertainty second.track with
  | some (_, _, alt₁, rate₁), some (_, _, alt₂, rate₂) =>
    m.verticalFt + |second.vAltFpm - first.vAltFpm| / 60 * m.lookaheadS +
      9 * projectedSigma alt₁ alt₂ (rate₁ / 60) (rate₂ / 60) m.lookaheadS ≤
        |second.altitudeFt - first.altitudeFt|
  | _, _ => False

/-- Throughout the lookahead farther apart than the standard and nine sigmas of the relative position; or
    judged without uncertainty. -/
def HorizontallyApart (first second : Kinematics) : Prop :=
  match uncertainty first.track, uncertainty second.track with
  | some (pos₁, vel₁, _, _), some (pos₂, vel₂, _, _) => ∀ t, 0 ≤ t → t ≤ m.lookaheadS →
    m.horizontalNm + 9 * projectedSigma pos₁ pos₂ (knotsToNmPerSecond vel₁) (knotsToNmPerSecond vel₂) t <
      horizontalDistance first second t
  | _, _ => True

/-- Neither filter drops the two, or they are apart by nine sigmas: horizontally, or vertically if the threshold
    is above what the normal law leaves beyond nine. -/
def FiltersGiveWay (first second : Kinematics) : Prop :=
  AdjacentCells (cellOf m.interactionRadiusNm first) (cellOf m.interactionRadiusNm second) ∧
      ¬ m.VerticallyApart first second ∨
    m.HorizontallyApart first second ∨
    m.VerticallyApart first second ∧ ∀ threshold ∈ m.probabilityThreshold, normalCdf (-sigmaCutoff) < threshold

/-- A scan reports every two eligible tracks that conflict with at least the probability asked for. -/
def ReportsLikelyPairs (tracks : List TrackUpdate) : Prop :=
  ∀ first ∈ m.states tracks, ∀ second ∈ m.states tracks, first.track.trackId ≠ second.track.trackId →
    ∀ threshold ∈ m.probabilityThreshold, ∀ p ∈ m.pairProbability first second, threshold ≤ p →
      s(first.track.trackId, second.track.trackId) ∈ m.reportedPairs tracks

end SeparationMonitor

variable {m : SeparationMonitor} {first second : Kinematics} {r : RelativeMotion} {tracks : List TrackUpdate}
  {p threshold : ℝ}

/-! ### The pairs the filters drop -/

theorem report_of_window_none (hw : m.window r = none) : m.report r =
    (cpaTime r m.lookaheadS, r.horizontalAt (cpaTime r m.lookaheadS),
      r.verticalAt (cpaTime r m.lookaheadS)) := by
  simp only [SeparationMonitor.report, hw]

/-- The grid drops no pair with a window, at the closing speed its cells are laid out for. -/
theorem window_none_of_far (hm : m.Positive)
    (h : ¬ AdjacentCells (cellOf m.interactionRadiusNm first) (cellOf m.interactionRadiusNm second))
    (hclosing : √(relative first second).speedSq ≤ knotsToNmPerSecond 1200) :
    m.window (relative first second) = none := by
  by_contra hw
  obtain ⟨⟨lo, hi⟩, hw⟩ := Option.ne_none_iff_exists'.mp hw
  obtain ⟨h0, hlt, h1⟩ := overlap_bounds hw
  obtain ⟨t, htlo, hthi⟩ := exists_between hlt
  have ht0 := h0.trans htlo.le
  have ht1 := hthi.le.trans h1
  have hfar := interactionRadius_lt_of_not_adjacent hm h
  rw [interactionRadiusNm_eq] at hfar
  have hin := (inside_horizontal_of_far hm.horizontal hfar ht0 ht1).mp (inside_of_overlap hw htlo hthi).1
  have hkept := horizontal_kept_of_closing_le hm h hclosing ht0 ht1
  rw [horizontalDistance_eq] at hkept
  exact absurd hin (not_lt.mpr hkept.le)

theorem projectedSigma_nonneg (a b c d t : ℝ) : 0 ≤ projectedSigma a b c d t := Real.sqrt_nonneg _

theorem verticalSlack_nonneg : 0 ≤ m.verticalSlack first second := by
  unfold SeparationMonitor.verticalSlack
  split
  · exact mul_nonneg (by norm_num [sigmaCutoff]) (projectedSigma_nonneg ..)
  · exact le_rfl

/-- The vertical rejection drops no pair with a window either. -/
theorem window_none_of_rejects (hm : m.Positive) (h : m.rejectsVertically first second) :
    m.window (relative first second) = none := by
  by_contra hw
  obtain ⟨⟨lo, hi⟩, hw⟩ := Option.ne_none_iff_exists'.mp hw
  -- without a threshold the rejection is not widened, so it rejects all the more
  set bare : SeparationMonitor := { m with probabilityThreshold := none, threshold_mem := by simp } with hbare
  refine not_rejectsVertically_of_window (m := bare) rfl ⟨hm.horizontal, hm.vertical, hm.lookahead⟩
    hw ?_
  have hslack : 0 ≤ m.verticalSlack first second := verticalSlack_nonneg
  have hslack' : bare.verticalSlack first second = 0 := verticalSlack_zero rfl
  simp only [SeparationMonitor.rejectsVertically, ge_iff_le] at h ⊢
  rw [hslack', sub_zero]
  exact h.trans (sub_le_self _ hslack)

/-- With uncertainties sent, the vertical rejection asks for nine sigmas more than the closest the two can
    come. -/
theorem rejectsVertically_iff (hthr : threshold ∈ m.probabilityThreshold)
    (hp : p ∈ m.approachProbability first second) :
    m.rejectsVertically first second ↔ m.VerticallyApart first second := by
  rw [Option.mem_def] at hthr hp
  unfold SeparationMonitor.approachProbability at hp
  unfold SeparationMonitor.rejectsVertically SeparationMonitor.verticalSlack SeparationMonitor.VerticallyApart
  cases h₁ : uncertainty first.track with
  | none => rw [h₁] at hp; exact nomatch hp
  | some u₁ =>
    cases h₂ : uncertainty second.track with
    | none => rw [h₁, h₂] at hp; exact nomatch hp
    | some u₂ =>
      simp only [hthr, sigmaCutoff]
      constructor <;> intro h <;> linarith

/-- Without a window the probability is that at the closest approach. -/
theorem pairProbability_of_window_none (hthr : threshold ∈ m.probabilityThreshold)
    (hw : m.window (relative first second) = none) :
    m.pairProbability first second = m.approachProbability first second := by
  rw [Option.mem_def] at hthr
  simp only [SeparationMonitor.pairProbability, report_of_window_none hw, SeparationMonitor.probability,
    SeparationMonitor.approachProbability, hthr, horizontalDistance_eq, verticalDistance_eq]
  cases uncertainty first.track <;> cases uncertainty second.track <;> rfl

theorem isSome_probability (hthr : threshold ∈ m.probabilityThreshold) (h v t : ℝ) :
    (m.probability first second h v t).isSome =
      ((uncertainty first.track).isSome && (uncertainty second.track).isSome) := by
  rw [Option.mem_def] at hthr
  unfold SeparationMonitor.probability
  rw [hthr]
  cases uncertainty first.track <;> cases uncertainty second.track <;> simp

theorem isSome_approachProbability : (m.approachProbability first second).isSome =
    ((uncertainty first.track).isSome && (uncertainty second.track).isSome) := by
  unfold SeparationMonitor.approachProbability
  cases uncertainty first.track <;> cases uncertainty second.track <;> simp

/-! ### What the scan reports -/

/-- The pair test reports a pair that comes to the probability and reaches the threshold. -/
theorem isSome_testPair_of_probability (hthr : threshold ∈ m.probabilityThreshold)
    (hp : p ∈ m.pairProbability first second) :
    (m.testPair first second).isSome ↔ ¬ m.rejectsVertically first second ∧ threshold ≤ p := by
  rw [Option.mem_def] at hthr hp
  simp only [SeparationMonitor.pairProbability] at hp
  simp only [SeparationMonitor.testPair, hp, hthr, Option.getD_some]
  by_cases hr : m.rejectsVertically first second
  · simp [hr]
  · by_cases hlow : p < threshold
    · simp [hr, hlow, not_le.mpr hlow]
    · simp [hr, hlow, not_lt.mp hlow]

theorem mem_reportedPairs_iff (hids : (tracks.map TrackUpdate.trackId).Nodup) (hf : first ∈ m.states tracks)
    (hs : second ∈ m.states tracks) (hne : first.track.trackId ≠ second.track.trackId) :
    s(first.track.trackId, second.track.trackId) ∈ m.reportedPairs tracks ↔
      AdjacentCells (cellOf m.interactionRadiusNm first) (cellOf m.interactionRadiusNm second) ∧
        (m.testPair first second).isSome := by
  have hinj : ∀ a ∈ m.states tracks, ∀ b ∈ m.states tracks,
      a.track.trackId = b.track.trackId → a = b := List.inj_on_of_nodup_map (nodup_ids_states hids)
  have hswap : (m.testPair second first).isSome = (m.testPair first second).isSome := by
    rw [SeparationMonitor.testPair_swap, Option.isSome_map]
  rw [mem_reportedPairs]
  constructor
  · rintro ⟨⟨f, s⟩, hq, hsome, hpair⟩
    obtain ⟨hf', hs', -, hadj⟩ := neighbours_of_mem_candidatePairs hq
    rcases Sym2.eq_iff.mp hpair with ⟨h₁, h₂⟩ | ⟨h₁, h₂⟩
    · obtain rfl := hinj f hf' first hf h₁
      obtain rfl := hinj s hs' second hs h₂
      exact ⟨hadj, hsome⟩
    · obtain rfl := hinj f hf' second hs h₁
      obtain rfl := hinj s hs' first hf h₂
      exact ⟨hadj.symm, hswap ▸ hsome⟩
  · rintro ⟨hadj, hsome⟩
    rcases (mem_candidatePairs_iff (nodup_ids_states hids)).mpr ⟨hf, hs, hne, hadj⟩ with hq | hq
    · exact ⟨_, hq, hsome, rfl⟩
    · exact ⟨_, hq, hswap ▸ hsome, Sym2.eq_swap⟩

/-- The filters overrule the probability test exactly where two tracks in cells that do not touch, or
    vertically apart, are at least as likely to conflict at their closest approach as the threshold asks. -/
theorem reportsLikelyPairs_iff (hm : m.Positive) (hids : (tracks.map TrackUpdate.trackId).Nodup)
    (hclosing : ∀ first ∈ m.states tracks, ∀ second ∈ m.states tracks,
      √(relative first second).speedSq ≤ knotsToNmPerSecond 1200) :
    m.ReportsLikelyPairs tracks ↔
      ∀ first ∈ m.states tracks, ∀ second ∈ m.states tracks, first.track.trackId ≠ second.track.trackId →
        ¬ AdjacentCells (cellOf m.interactionRadiusNm first) (cellOf m.interactionRadiusNm second) ∨
          m.VerticallyApart first second →
        ∀ threshold ∈ m.probabilityThreshold, ∀ p ∈ m.approachProbability first second, p < threshold := by
  refine forall₂_congr fun first hf => forall₂_congr fun second hs => forall_congr' fun hne => ?_
  constructor
  · intro h hdropped threshold hthr p hp
    by_contra hlikely
    have hw : m.window (relative first second) = none := by
      rcases hdropped with hfar | hapart
      · exact window_none_of_far hm hfar (hclosing first hf second hs)
      · exact window_none_of_rejects hm ((rejectsVertically_iff hthr hp).mpr hapart)
    have hpair : p ∈ m.pairProbability first second := by
      rw [pairProbability_of_window_none hthr hw]
      exact hp
    obtain ⟨hadj, hsome⟩ := (mem_reportedPairs_iff hids hf hs hne).mp
      (h threshold hthr p hpair (not_lt.mp hlikely))
    have hkept := ((isSome_testPair_of_probability hthr hpair).mp hsome).1
    rcases hdropped with hfar | hapart
    · exact hfar hadj
    · exact hkept ((rejectsVertically_iff hthr hp).mpr hapart)
  · intro h threshold hthr p hp hlikely
    obtain ⟨q, hq⟩ : ∃ q, q ∈ m.approachProbability first second := by
      have hsome : (m.pairProbability first second).isSome := Option.isSome_iff_exists.mpr ⟨p, hp⟩
      rw [SeparationMonitor.pairProbability, isSome_probability hthr, ← isSome_approachProbability (m := m)]
        at hsome
      exact Option.isSome_iff_exists.mp hsome
    have hnot : ∀ hw : m.window (relative first second) = none, q = p := fun hw =>
      Option.some_inj.mp (hq.symm.trans ((pairProbability_of_window_none hthr hw).symm.trans hp))
    have hadj : AdjacentCells (cellOf m.interactionRadiusNm first) (cellOf m.interactionRadiusNm second) := by
      by_contra hfar
      have hsame := hnot (window_none_of_far hm hfar (hclosing first hf second hs))
      exact absurd (hsame ▸ h (.inl hfar) threshold hthr q hq) (not_lt.mpr hlikely)
    have hkept : ¬ m.rejectsVertically first second := by
      intro hr
      have hsame := hnot (window_none_of_rejects hm hr)
      exact absurd (hsame ▸ h (.inr ((rejectsVertically_iff hthr hq).mp hr)) threshold hthr q hq)
        (not_lt.mpr hlikely)
    exact (mem_reportedPairs_iff hids hf hs hne).mpr
      ⟨hadj, (isSome_testPair_of_probability hthr hp).mpr ⟨hkept, hlikely⟩⟩

/-! ### Filters that give way -/

/-- The altitudes close no faster than their rates. -/
theorem verticalDistance_ge {t h : ℝ} (h0 : 0 ≤ t) (hh : t ≤ h) :
    |second.altitudeFt - first.altitudeFt| - |second.vAltFpm - first.vAltFpm| / 60 * h ≤
      verticalDistance first second t := by
  have hends := abs_affine_ge (o := (relative first second).up) (r := (relative first second).vUp) h0 hh
  have hrate : |(relative first second).vUp| = |second.vAltFpm - first.vAltFpm| / 60 := by
    rw [relative, abs_div, abs_of_pos (by norm_num : (0 : ℝ) < 60)]
  rw [hrate] at hends
  rw [verticalDistance_eq]
  exact hends

/-- Nine sigmas of the position between them: they do not conflict. -/
theorem approachProbability_of_horizontallyApart (hm : m.Positive) (h : m.HorizontallyApart first second)
    (hp : p ∈ m.approachProbability first second) : p = 0 := by
  obtain ⟨h0, h1⟩ := cpaTime_mem hm.lookahead.le (relative first second)
  rw [Option.mem_def, SeparationMonitor.approachProbability] at hp
  unfold SeparationMonitor.HorizontallyApart at h
  split at hp
  · next u₁ u₂ =>
    rw [u₁, u₂] at h
    obtain rfl := Option.some.inj hp
    have hfar := h _ h0 h1
    refine conflictProbability_of_beyond (projectedSigma_nonneg ..) ?_
    rw [sigmaCutoff]
    linarith
  · cases hp

/-- Nine sigmas of the altitude: at most what the normal law leaves beyond them. -/
theorem approachProbability_of_verticallyApart (hm : m.Positive) (h : m.VerticallyApart first second)
    (hp : p ∈ m.approachProbability first second) : p ≤ normalCdf (-sigmaCutoff) := by
  obtain ⟨h0, h1⟩ := cpaTime_mem hm.lookahead.le (relative first second)
  set t := cpaTime (relative first second) m.lookaheadS with ht
  rw [Option.mem_def, SeparationMonitor.approachProbability] at hp
  unfold SeparationMonitor.VerticallyApart at h
  split at hp
  · next alt₁ rate₁ _ _ alt₂ rate₂ u₁ u₂ =>
    rw [u₁, u₂] at h
    obtain rfl := Option.some.inj hp
    refine conflictProbability_le_tail (abs_nonneg _) (projectedSigma_nonneg ..) ?_
    rw [← ht]
    have hclosest := @verticalDistance_ge first second _ _ h0 h1
    -- the sigma has not outgrown its last value
    have hgrown := mul_le_mul_of_nonneg_left (projectedSigma_mono alt₁ alt₂ (rate₁ / 60) (rate₂ / 60) h0 h1)
      (by norm_num [sigmaCutoff] : 0 ≤ sigmaCutoff)
    refine hgrown.trans ?_
    rw [sigmaCutoff]
    linarith
  · cases hp

/-- The series is at least its first term, no first count against one second count. -/
theorem discSeries_ge {meanA meanB : ℝ} (hA : 0 < meanA) (hB : 0 < meanB) :
    Real.exp (-meanA) * (meanB * Real.exp (-meanB)) ≤ discSeries meanA meanB := by
  have hterm : ∀ j k, 0 ≤ poissonMass meanA j * poissonMass meanB k :=
    fun j k => mul_nonneg (poissonMass_nonneg hA.le j) (poissonMass_nonneg hB.le k)
  have hone : 1 ∈ Finset.range (indexMax meanA meanB + 1) := by
    rw [Finset.mem_range, indexMax]
    omega
  rw [discSeries_eq_sum hA.le hB.le]
  calc Real.exp (-meanA) * (meanB * Real.exp (-meanB))
      = ∑ j ∈ Finset.range 1, poissonMass meanA j * poissonMass meanB 1 := by
        simp [poissonMass, mul_comm]
    _ ≤ ∑ k ∈ Finset.range (indexMax meanA meanB + 1), ∑ j ∈ Finset.range k,
          poissonMass meanA j * poissonMass meanB k :=
        Finset.single_le_sum (fun k _ => Finset.sum_nonneg fun j _ => hterm j k) hone

/-- A track on the meridian of Greenwich whose position is good to five miles. -/
def uncertainTrack (id : String) (latDeg speedKt headingDeg : ℝ) : TrackUpdate :=
  { meridianTrack id latDeg speedKt headingDeg with
    positionUncertaintyM := 9260
    velocityUncertaintyKt := some 0
    altitudeUncertaintyFt := some 0
    verticalRateUncertaintyFpm := some 0 }

/-- Two tracks head-on at 600 kt each, a little more than 105 miles apart, and a third that shifts the
    origin. -/
def uncertainHeadOn : List TrackUpdate :=
  [uncertainTrack "trk-north" 1.74 600 0, uncertainTrack "trk-south" 3.5 600 180,
    uncertainTrack "trk-third" (-5.24) 0 0]

/-- Six miles or less from the centre of a disc of five, at a sigma of five, the disc has a twentieth of the
    mass at least. -/
theorem discProbability_ge {miss : ℝ} (h0 : 0 < miss) (h1 : miss ≤ 6) : 1 / 20 ≤ discProbability miss 5 5 := by
  have hA : 0 < 0.5 * (miss / 5) * (miss / 5) := by positivity
  have hbound : 0.5 * (miss / 5) * (miss / 5) ≤ 0.72 := by nlinarith
  have hseries := discSeries_ge hA (show (0 : ℝ) < 0.5 * (5 / 5) * (5 / 5) by norm_num)
  have hexpA := Real.add_one_le_exp (-(0.5 * (miss / 5) * (miss / 5)))
  have hexpB := Real.add_one_le_exp (-(0.5 * (5 / 5) * (5 / 5) : ℝ))
  have hlow : (1 : ℝ) / 20 ≤ discSeries (0.5 * (miss / 5) * (miss / 5)) (0.5 * (5 / 5) * (5 / 5)) := by
    refine le_trans ?_ hseries
    have h₁ : (0.28 : ℝ) ≤ Real.exp (-(0.5 * (miss / 5) * (miss / 5))) := by linarith
    have h₂ : (0.25 : ℝ) ≤ 0.5 * (5 / 5) * (5 / 5) * Real.exp (-(0.5 * (5 / 5) * (5 / 5))) := by
      norm_num at hexpB ⊢
      linarith
    calc (1 : ℝ) / 20 ≤ 0.28 * 0.25 := by norm_num
      _ ≤ _ := mul_le_mul h₁ h₂ (by norm_num) (Real.exp_pos _).le
  unfold discProbability
  rw [if_neg (by norm_num), if_neg (by norm_num)]
  simp only
  rw [if_neg (by rw [sigmaCutoff]; linarith), if_neg (by rw [sigmaCutoff]; linarith)]
  exact le_min (le_max_of_le_left hlow) (by norm_num)

theorem kinematics_uncertainTrack (id : String) (lat v hd : ℝ) :
    kinematics (uncertainTrack id lat v hd) 0 0 =
      { track := uncertainTrack id lat v hd
        eastNm := 0
        northNm := lat * Real.pi / 180 * earthRadiusNm
        vEastKt := v * Real.sin (hd * Real.pi / 180)
        vNorthKt := v * Real.cos (hd * Real.pi / 180)
        altitudeFt := 35000
        vAltFpm := 0 } :=
  -- only the uncertainties differ, which the projection does not read
  congrArg (fun k : Kinematics => { k with track := uncertainTrack id lat v hd })
    (kinematics_meridianTrack id lat v hd)

/-- Two such positions are good to five miles together, at any time. -/
theorem projectedSigma_uncertainTrack (t : ℝ) : projectedSigma (9260 / 1852 / √2) (9260 / 1852 / √2)
    (knotsToNmPerSecond 0) (knotsToNmPerSecond 0) t = 5 := by
  have hsum : (9260 / 1852 / √2 : ℝ) ^ 2 + (9260 / 1852 / √2) ^ 2 = 5 ^ 2 := by
    rw [div_pow, Real.sq_sqrt (by norm_num)]
    norm_num
  have hmax : max 0 ((5 : ℝ) ^ 2 + (0 ^ 2 + 0 ^ 2) * t * t) = 5 ^ 2 := by norm_num
  simp only [projectedSigma, knotsToNmPerSecond, zero_div, hsum]
  rw [hmax, Real.sqrt_sq (by norm_num)]

theorem relative_hovering (id id' : String) (lat lat' : ℝ) :
    relative (kinematics (uncertainTrack id lat 0 0) 0 0) (kinematics (uncertainTrack id' lat' 0 0) 0 0) =
      ⟨0, (lat' - lat) * Real.pi / 180 * earthRadiusNm, 0, 0, 0, 0⟩ := by
  rw [kinematics_uncertainTrack, kinematics_uncertainTrack]
  simp only [relative, zero_mul, knotsToNmPerSecond, RelativeMotion.mk.injEq]
  refine ⟨by ring, by ring, by norm_num, by norm_num, by norm_num, by norm_num⟩

/-- Ten degrees between them leave room for nine sigmas. -/
theorem horizontallyApart_hovering {m : SeparationMonitor} (hstandard : m.horizontalNm = 5) (id id' : String)
    {lat lat' : ℝ} (h : 10 ≤ |lat' - lat|) : m.HorizontallyApart (kinematics (uncertainTrack id lat 0 0) 0 0)
      (kinematics (uncertainTrack id' lat' 0 0) 0 0) := by
  intro t _ _
  have hpi := Real.pi_gt_d4
  have hradius : 0 < earthRadiusNm := by norm_num [earthRadiusNm]
  have hdistance : horizontalDistance (kinematics (uncertainTrack id lat 0 0) 0 0)
      (kinematics (uncertainTrack id' lat' 0 0) 0 0) t = |lat' - lat| * Real.pi / 180 * earthRadiusNm := by
    rw [horizontalDistance_eq, relative_hovering, RelativeMotion.horizontalAt]
    simp only [zero_mul, add_zero, ne_eq, OfNat.ofNat_ne_zero, not_false_eq_true, zero_pow, zero_add]
    rw [Real.sqrt_sq_eq_abs, abs_mul, abs_div, abs_mul, abs_of_pos Real.pi_pos, abs_of_pos hradius,
      abs_of_pos (by norm_num : (0 : ℝ) < 180)]
  have hfar : 10 * 3.1415 / 180 * earthRadiusNm ≤ |lat' - lat| * Real.pi / 180 * earthRadiusNm := by
    gcongr
  have hu : ∀ id lat, (kinematics (uncertainTrack id lat 0 0) 0 0).track.positionUncertaintyM = 9260 :=
    fun _ _ => rfl
  rw [hu, hu, projectedSigma_uncertainTrack, hdistance, hstandard]
  refine lt_of_lt_of_le ?_ hfar
  norm_num [earthRadiusNm]

theorem states_uncertainHeadOn (threshold : ℝ) (h : 0 < threshold ∧ threshold ≤ 1) :
    (({} : SeparationMonitor).withThreshold threshold h).states uncertainHeadOn =
      [kinematics (uncertainTrack "trk-north" 1.74 600 0) 0 0,
        kinematics (uncertainTrack "trk-south" 3.5 600 180) 0 0,
        kinematics (uncertainTrack "trk-third" (-5.24) 0 0) 0 0] := by
  simp only [SeparationMonitor.states, SeparationMonitor.eligible, uncertainHeadOn, uncertainTrack,
    meridianTrack, equatorTrack, SeparationMonitor.withThreshold]
  norm_num

theorem uncertainTrack_admitted {id : String} {lat v hd : ℝ} (hlat : -90 ≤ lat ∧ lat ≤ 90) (hv : 0 ≤ v)
    (hhd : 0 ≤ hd ∧ hd < 360) : (uncertainTrack id lat v hd).Admitted :=
  { (meridianTrack_admitted hlat hv hhd : (meridianTrack id lat v hd).Admitted) with
    positionUncertaintyM := by norm_num [uncertainTrack]
    velocityUncertaintyKt := by simp [uncertainTrack]
    altitudeUncertaintyFt := by simp [uncertainTrack]
    verticalRateUncertaintyFpm := by simp [uncertainTrack] }

/-- The relative motion of the two aircraft that meet. -/
theorem relative_uncertainHeadOn : relative (kinematics (uncertainTrack "trk-north" 1.74 600 0) 0 0)
    (kinematics (uncertainTrack "trk-south" 3.5 600 180) 0 0) =
      ⟨0, 1.76 * Real.pi / 180 * earthRadiusNm, 0, -(1 / 3), 0, 0⟩ := by
  have hsouthward : (180 : ℝ) * Real.pi / 180 = Real.pi := by ring
  rw [kinematics_uncertainTrack, kinematics_uncertainTrack, hsouthward]
  simp only [relative, zero_mul, zero_div, Real.sin_zero, Real.cos_zero, Real.sin_pi, Real.cos_pi,
    knotsToNmPerSecond, RelativeMotion.mk.injEq]
  refine ⟨by ring, by ring, by norm_num, by norm_num, by norm_num, by norm_num⟩

/-- At the end of the lookahead they are less than six miles apart. -/
theorem approach_uncertainHeadOn (threshold : ℝ) (h : 0 < threshold ∧ threshold ≤ 1) :
    ∃ p ∈ (({} : SeparationMonitor).withThreshold threshold h).approachProbability
        (kinematics (uncertainTrack "trk-north" 1.74 600 0) 0 0)
        (kinematics (uncertainTrack "trk-south" 3.5 600 180) 0 0), 1 / 20 ≤ p := by
  have hpi := Real.pi_gt_d4
  have hpi' := Real.pi_lt_d4
  set r := relative (kinematics (uncertainTrack "trk-north" 1.74 600 0) 0 0)
    (kinematics (uncertainTrack "trk-south" 3.5 600 180) 0 0) with hr
  have hrel : r = ⟨0, 1.76 * Real.pi / 180 * earthRadiusNm, 0, -(1 / 3), 0, 0⟩ := relative_uncertainHeadOn
  have hlow : 105.5 < 1.76 * Real.pi / 180 * earthRadiusNm := by norm_num [earthRadiusNm]; linarith
  have hhigh : 1.76 * Real.pi / 180 * earthRadiusNm < 106 := by norm_num [earthRadiusNm]; linarith
  have hcpa : cpaTime r 300 = 300 := by
    rw [hrel, cpaTime, if_neg (by norm_num [RelativeMotion.speedSq])]
    simp only [RelativeMotion.opening, RelativeMotion.speedSq]
    rw [min_eq_left, max_eq_right] <;> norm_num
    linarith
  have hmiss : r.horizontalAt 300 = 1.76 * Real.pi / 180 * earthRadiusNm - 100 := by
    rw [hrel, RelativeMotion.horizontalAt]
    norm_num
    rw [show ∀ x : ℝ, x + -100 = x - 100 from fun x => by ring, Real.sqrt_sq (by norm_num at hlow ⊢; linarith)]
  have hlevel : r.verticalAt 300 = 0 := by
    rw [hrel, RelativeMotion.verticalAt]
    norm_num
  refine ⟨_, rfl, ?_⟩
  simp only [SeparationMonitor.withThreshold, horizontalDistance_eq, verticalDistance_eq, ← hr, hcpa,
    hmiss, hlevel]
  have hu : ∀ id lat v hd, (kinematics (uncertainTrack id lat v hd) 0 0).track.positionUncertaintyM = 9260 :=
    fun _ _ _ _ => rfl
  rw [hu, hu, projectedSigma_uncertainTrack, zero_div, projectedSigma_zero]
  have hdisc : 1 / 20 ≤ discProbability (1.76 * Real.pi / 180 * earthRadiusNm - 100) 5 5 :=
    discProbability_ge (by linarith) (by linarith)
  unfold conflictProbability
  simp only
  rw [if_neg (by linarith), bandProbability, if_neg (by norm_num), if_pos le_rfl, if_pos (by norm_num), mul_one]
  exact hdisc

end

end Airspace
