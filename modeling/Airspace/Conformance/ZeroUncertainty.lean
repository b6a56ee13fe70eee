import Airspace.Conformance.Grid

/-! The probabilistic detector on filters that claim no uncertainty.

    With every sigma zero the probability is the indicator that both reported minima are below their
    standards, so a threshold in `(0, 1]` asks of the minima what the plain detector asks of the window.
    The two disagree on a pair that flies through the whole vertical band inside the lookahead and the
    horizontal standard: the vertical minimum is read at the ends of the window, where it equals the
    standard. -/

namespace Airspace

noncomputable section

open Classical

/-- Every uncertainty is present and zero. -/
structure TrackUpdate.ZeroUncertainty (t : TrackUpdate) : Prop where
  position : t.positionUncertaintyM = 0
  velocity : t.velocityUncertaintyKt = some 0
  altitude : t.altitudeUncertaintyFt = some 0
  rate : t.verticalRateUncertaintyFpm = some 0

namespace SeparationMonitor

/-- The same detector with a probability threshold. -/
def withThreshold (m : SeparationMonitor) (p : ℝ) (hp : 0 < p ∧ p ≤ 1) : SeparationMonitor :=
  { m with probabilityThreshold := some p, threshold_mem := by simpa using hp }

/-- The unordered pairs of tracks a scan reports. -/
def reportedPairs (m : SeparationMonitor) (tracks : List TrackUpdate) : Set (Sym2 String) :=
  {pair | ∃ c ∈ m.scan tracks, s(c.firstTrackId, c.secondTrackId) = pair}

/-- The two aircraft pass through the whole vertical band, inside the lookahead and within the
    horizontal standard. -/
def FliesThroughBand (m : SeparationMonitor) (first second : Kinematics) : Prop :=
  first.vAltFpm ≠ second.vAltFpm ∧ ∀ t, verticalDistance first second t < m.verticalFt →
    0 < t ∧ t < m.lookaheadS ∧ horizontalDistance first second t < m.horizontalNm

/-- The window and the minima read off it tell the same: without a window the closest approach keeps a
    standard, with one the reported moment and one of its ends break both. -/
def WindowAgrees (m : SeparationMonitor) (first second : Kinematics) : Prop :=
  let r := relative first second
  let tCpa := cpaTime r m.lookaheadS
  match m.window r with
  | none => ¬ (r.horizontalAt tCpa < m.horizontalNm ∧ r.verticalAt tCpa < m.verticalFt)
  | some (lo, hi) => r.horizontalAt (max lo (min hi tCpa)) < m.horizontalNm ∧
      (r.verticalAt lo < m.verticalFt ∨ r.verticalAt hi < m.verticalFt)

end SeparationMonitor

variable {m : SeparationMonitor} {first second : Kinematics} {tracks : List TrackUpdate}

/-! ### What a scan reports -/

/-- A pair is reported exactly when it is a candidate the pair test accepts. -/
theorem mem_reportedPairs {pair : Sym2 String} :
    pair ∈ m.reportedPairs tracks ↔ ∃ p ∈ m.candidatePairs (m.states tracks),
      (m.testPair p.1 p.2).isSome ∧ s(p.1.track.trackId, p.2.track.trackId) = pair := by
  simp only [SeparationMonitor.reportedPairs, Set.mem_ofPred_eq, mem_scan_iff]
  constructor
  · rintro ⟨c, ⟨p, hp, hc⟩, rfl⟩
    obtain ⟨h₁, h₂⟩ := testPair_ids hc
    exact ⟨p, hp, by rw [hc]; rfl, by rw [h₁, h₂]⟩
  · rintro ⟨p, hp, hsome, rfl⟩
    obtain ⟨c, hc⟩ := Option.isSome_iff_exists.mp hsome
    obtain ⟨h₁, h₂⟩ := testPair_ids hc
    exact ⟨c, ⟨p, hp, hc⟩, by rw [h₁, h₂]⟩

/-! ### One pair without uncertainty -/

theorem uncertainty_zero {t : TrackUpdate} (h : t.ZeroUncertainty) :
    uncertainty t = some (0, 0, 0, 0) := by
  simp [uncertainty, h.position, h.velocity, h.altitude, h.rate]

variable {p : ℝ} {hp : 0 < p ∧ p ≤ 1}

theorem rejectsVertically_withThreshold (hdet : m.probabilityThreshold = none)
    (hf : first.track.ZeroUncertainty) (hs : second.track.ZeroUncertainty) :
    (m.withThreshold p hp).rejectsVertically first second = m.rejectsVertically first second := by
  have hslack : (m.withThreshold p hp).verticalSlack first second = 0 := by
    simp [SeparationMonitor.verticalSlack, SeparationMonitor.withThreshold, uncertainty_zero hf,
      uncertainty_zero hs]
  simp only [SeparationMonitor.rejectsVertically, hslack, verticalSlack_zero hdet]
  rfl

/-- With a threshold the test asks for both reported minima below their standards. -/
theorem testPair_withThreshold (hdet : m.probabilityThreshold = none) (hm : m.Positive)
    (hf : first.track.ZeroUncertainty) (hs : second.track.ZeroUncertainty) :
    ((m.withThreshold p hp).testPair first second).isSome ↔ ¬ m.rejectsVertically first second ∧
      (m.report (relative first second)).2.1 < m.horizontalNm ∧
      |(m.report (relative first second)).2.2| < m.verticalFt := by
  have hprob : ∀ h v t, (m.withThreshold p hp).probability first second h v t =
      some (if h < m.horizontalNm ∧ |v| < m.verticalFt then 1 else 0) := by
    intro h v t
    rw [← conflictProbability_zero_sigma hm.horizontal hm.vertical]
    simp [SeparationMonitor.probability, SeparationMonitor.withThreshold, uncertainty_zero hf,
      uncertainty_zero hs, knotsToNmPerSecond]
  simp only [SeparationMonitor.testPair, rejectsVertically_withThreshold hdet hf hs, hprob]
  have hreport : (m.withThreshold p hp).report (relative first second) =
    m.report (relative first second) := rfl
  have hthreshold : (m.withThreshold p hp).probabilityThreshold.getD 0 = p := rfl
  rw [hreport, hthreshold]
  by_cases hr : m.rejectsVertically first second
  · simp [hr]
  · by_cases hb : (m.report (relative first second)).2.1 < m.horizontalNm ∧
        |(m.report (relative first second)).2.2| < m.verticalFt
    · simp [hr, hb, not_lt.mpr hp.2]
    · simp only [hr, hb, if_false, hp.1, if_true, Option.isSome_none, not_false_iff, true_and,
        Bool.false_eq_true]

/-- The two detectors agree on a pair exactly when its window agrees with the minima read off it. -/
theorem isSome_withThreshold_iff (hdet : m.probabilityThreshold = none) (hm : m.Positive)
    (hf : first.track.ZeroUncertainty) (hs : second.track.ZeroUncertainty) :
    (((m.withThreshold p hp).testPair first second).isSome ↔ (m.testPair first second).isSome) ↔
      m.WindowAgrees first second := by
  rw [testPair_withThreshold hdet hm hf hs, isSome_testPair hdet]
  unfold SeparationMonitor.WindowAgrees
  cases hw : m.window (relative first second) with
  | none =>
    obtain ⟨h0, h1⟩ := cpaTime_mem hm.lookahead.le (relative first second)
    simp only [SeparationMonitor.report, hw, RelativeMotion.verticalAt, abs_abs]
    constructor
    · rintro h ⟨hh, hv⟩
      have hrej := not_rejectsVertically hdet h0 h1 (by rw [verticalDistance_eq]; exact hv)
      exact (h.mp ⟨hrej, hh, hv⟩).2 rfl
    · exact fun h => iff_of_false (fun hb => h hb.2) fun hb => hb.2 rfl
  | some w =>
    obtain ⟨lo, hi⟩ := w
    have hrej := not_rejectsVertically_of_window hdet hm hw
    have hmin : 0 ≤ min ((relative first second).verticalAt lo) ((relative first second).verticalAt hi) :=
      le_min (abs_nonneg _) (abs_nonneg _)
    rw [report_of_window hw]
    simp only [hw, hrej, not_false_iff, true_and, ne_eq, reduceCtorEq, iff_true, abs_of_nonneg hmin,
      min_lt_iff]

/-- Flying through the band, read off the relative motion. -/
theorem fliesThroughBand_iff : m.FliesThroughBand first second ↔ (relative first second).vUp ≠ 0 ∧
    ∀ t, (relative first second).verticalAt t < m.verticalFt → 0 < t ∧ t < m.lookaheadS ∧
      (relative first second).horizontalAt t < m.horizontalNm := by
  simp only [SeparationMonitor.FliesThroughBand, vUp_ne_zero_iff, verticalDistance_eq,
    horizontalDistance_eq]

/-- A pair that flies through the band has a window: both standards break where the levels meet. -/
theorem window_of_fliesThroughBand (hm : m.Positive) (heps : AboveEpsilons (relative first second))
    (hband : m.FliesThroughBand first second) : m.window (relative first second) ≠ none := by
  obtain ⟨hne, hinside⟩ := fliesThroughBand_iff.mp hband
  set r := relative first second
  have hlevel : r.verticalAt (-r.up / r.vUp) < m.verticalFt := by
    have hzero : r.up + r.vUp * (-r.up / r.vUp) = 0 := by field_simp; ring
    rw [RelativeMotion.verticalAt, hzero, abs_zero]
    exact hm.vertical
  obtain ⟨ht0, ht1, hh⟩ := hinside _ hlevel
  exact (window_ne_none_iff hm heps).mpr ⟨_, ht0.le, ht1.le, hh, hlevel⟩

/-- With a window, both of its ends are outside the band exactly when the pair flies through it. -/
theorem window_ends_iff (hm : m.Positive) (heps : AboveEpsilons (relative first second)) {lo hi : ℝ}
    (hw : m.window (relative first second) = some (lo, hi)) :
    ((relative first second).verticalAt lo < m.verticalFt ∨
      (relative first second).verticalAt hi < m.verticalFt) ↔ ¬ m.FliesThroughBand first second := by
  rw [fliesThroughBand_iff]
  set r := relative first second
  obtain ⟨h0, hlt, h1⟩ := overlap_bounds hw
  obtain ⟨hin, -⟩ := window_eq_some hm heps hw
  obtain ⟨t, htlo, hthi⟩ := exists_between hlt
  obtain ⟨-, -, -, htv⟩ := hin ⟨htlo, hthi⟩
  constructor
  · rintro hends ⟨-, hband⟩
    -- an end inside the band would be inside the window it ends
    have hinside : ∀ u, r.verticalAt u < m.verticalFt → lo < u ∧ u < hi := by
      intro u hu
      obtain ⟨hu0, hu1, huh⟩ := hband u hu
      exact mem_Ioo_of_overlap hw hu0 hu1 ((inside_horizontal hm.horizontal heps.speedSq u).mpr huh)
        ((inside_linearWithin hm.vertical heps.vertical u).mpr hu)
    rcases hends with h | h
    · exact lt_irrefl _ (hinside lo h).1
    · exact lt_irrefl _ (hinside hi h).2
  · intro hnot
    by_contra hends
    rw [not_or, not_lt, not_lt] at hends
    refine hnot ⟨fun hzero => ?_, fun u hu => ?_⟩
    · rw [RelativeMotion.verticalAt, hzero, zero_mul] at htv hends
      exact absurd htv (not_lt.mpr hends.1)
    · have hlo : lo < u := by
        by_contra hle
        exact absurd (abs_affine_between hu htv (not_lt.mp hle) htlo.le) (not_lt.mpr hends.1)
      have hhi : u < hi := by
        by_contra hle
        exact absurd (abs_affine_between htv hu hthi.le (not_lt.mp hle)) (not_lt.mpr hends.2)
      exact ⟨h0.trans_lt hlo, hhi.trans_le h1, (hin ⟨hlo, hhi⟩).2.2.1⟩

/-- Above the epsilons only a flight through the whole band parts the window from its minima. -/
theorem windowAgrees_iff (hm : m.Positive) (heps : AboveEpsilons (relative first second)) :
    m.WindowAgrees first second ↔ ¬ m.FliesThroughBand first second := by
  simp only [SeparationMonitor.WindowAgrees]
  cases hw : m.window (relative first second) with
  | none =>
    refine iff_of_true (fun hb => ?_) fun hband => window_of_fliesThroughBand hm heps hband hw
    obtain ⟨h0, h1⟩ := cpaTime_mem hm.lookahead.le (relative first second)
    exact (window_ne_none_iff hm heps).mpr ⟨_, h0, h1, hb⟩ hw
  | some w =>
    obtain ⟨lo, hi⟩ := w
    obtain ⟨h0, hlt, h1⟩ := overlap_bounds hw
    obtain ⟨t, htlo, hthi⟩ := exists_between hlt
    obtain ⟨-, -, hth, -⟩ := (window_eq_some hm heps hw).1 ⟨htlo, hthi⟩
    rw [← window_ends_iff hm heps hw]
    exact and_iff_right ((horizontalAt_clamp_le heps.speedSq h0 h1 htlo.le hthi.le).trans_lt hth)

/-! ### The whole picture -/

/-- Two detectors over one grid report the same pairs exactly when they agree on every candidate. -/
theorem reportedPairs_eq_iff {m₁ m₂ : SeparationMonitor}
    (hcand : m₁.candidatePairs (m₁.states tracks) = m₂.candidatePairs (m₂.states tracks)) :
    m₁.reportedPairs tracks = m₂.reportedPairs tracks ↔ ∀ q ∈ m₂.candidatePairs (m₂.states tracks),
      ((m₁.testPair q.1 q.2).isSome ↔ (m₂.testPair q.1 q.2).isSome) := by
  have hinj : ∀ q ∈ m₂.candidatePairs (m₂.states tracks), ∀ q' ∈ m₂.candidatePairs (m₂.states tracks),
      s(q.1.track.trackId, q.2.track.trackId) = s(q'.1.track.trackId, q'.2.track.trackId) → q = q' :=
    fun q hq q' hq' h => List.inj_on_of_nodup_map nodup_candidatePairs hq hq' (pairKey_eq_iff.mpr h)
  constructor
  · intro heq q hq
    have hmem := Set.ext_iff.mp heq s(q.1.track.trackId, q.2.track.trackId)
    rw [mem_reportedPairs, mem_reportedPairs, hcand] at hmem
    constructor
    · intro h
      obtain ⟨q', hq', hsome, hkey⟩ := hmem.mp ⟨q, hq, h, rfl⟩
      rwa [hinj q' hq' q hq hkey] at hsome
    · intro h
      obtain ⟨q', hq', hsome, hkey⟩ := hmem.mpr ⟨q, hq, h, rfl⟩
      rwa [hinj q' hq' q hq hkey] at hsome
  · intro h
    ext pair
    rw [mem_reportedPairs, mem_reportedPairs, hcand]
    exact exists_congr fun q => and_congr_right fun hq => and_congr_left' (h q hq)

/-- The detectors with and without a threshold report the same pairs exactly when the window of every
    candidate agrees with its minima. -/
theorem reportedPairs_withThreshold_eq_iff (hdet : m.probabilityThreshold = none) (hm : m.Positive)
    (hzero : ∀ t ∈ tracks, t.ZeroUncertainty) :
    (m.withThreshold p hp).reportedPairs tracks = m.reportedPairs tracks ↔
      ∀ q ∈ m.candidatePairs (m.states tracks), m.WindowAgrees q.1 q.2 := by
  have hcand : (m.withThreshold p hp).candidatePairs ((m.withThreshold p hp).states tracks) =
    m.candidatePairs (m.states tracks) := rfl
  refine (reportedPairs_eq_iff hcand).trans (forall₂_congr fun q hq => ?_)
  obtain ⟨hf, hs, -⟩ := neighbours_of_mem_candidatePairs hq
  exact isSome_withThreshold_iff hdet hm (hzero _ (track_of_mem_states hf))
    (hzero _ (track_of_mem_states hs))

theorem windowAgrees_comm (first second : Kinematics) :
    m.WindowAgrees second first = m.WindowAgrees first second := by
  unfold SeparationMonitor.WindowAgrees
  simp only [relative_swap first second, SeparationMonitor.window_swap, cpaTime,
    RelativeMotion.speedSq_swap, RelativeMotion.opening_swap, RelativeMotion.horizontalAt_swap,
    RelativeMotion.verticalAt_swap]

/-- Without uncertainty the detectors with and without a threshold report the same pairs exactly when
    no two neighbouring tracks fly through the whole vertical band inside the window; below the code's
    epsilons, when the window agrees with the minima read off it. -/
theorem zero_uncertainty_same_pairs_iff (hdet : m.probabilityThreshold = none) (hm : m.Positive)
    (hids : (tracks.map TrackUpdate.trackId).Nodup) (hzero : ∀ t ∈ tracks, t.ZeroUncertainty)
    (p : ℝ) (hp : 0 < p ∧ p ≤ 1) :
    (m.withThreshold p hp).reportedPairs tracks = m.reportedPairs tracks ↔
      ∀ first ∈ m.states tracks, ∀ second ∈ m.states tracks,
        first.track.trackId ≠ second.track.trackId →
        AdjacentCells (cellOf m.interactionRadiusNm first) (cellOf m.interactionRadiusNm second) →
        if AboveEpsilons (relative first second) then ¬ m.FliesThroughBand first second
        else m.WindowAgrees first second := by
  rw [reportedPairs_withThreshold_eq_iff hdet hm hzero,
    forall_candidatePairs_iff hids windowAgrees_comm]
  refine forall₂_congr fun first _ => forall₂_congr fun second _ => forall₂_congr fun _ _ => ?_
  by_cases heps : AboveEpsilons (relative first second)
  · rw [if_pos heps, windowAgrees_iff hm heps]
  · rw [if_neg heps]

/-! ### One aircraft over another -/

/-- A track over the origin of the plane whose filter claims no uncertainty. -/
def overhead (id : String) (altitudeFt rateFpm : ℝ) : TrackUpdate :=
  { equatorTrack id 0 altitudeFt 450 90 rateFpm with
    velocityUncertaintyKt := some 0
    altitudeUncertaintyFt := some 0
    verticalRateUncertaintyFpm := some 0 }

theorem overhead_zeroUncertainty (id : String) (altitudeFt rateFpm : ℝ) :
    (overhead id altitudeFt rateFpm).ZeroUncertainty := ⟨rfl, rfl, rfl, rfl⟩

theorem states_overhead (a b : String) (alt₁ alt₂ rate₁ rate₂ : ℝ) :
    ({} : SeparationMonitor).states [overhead a alt₁ rate₁, overhead b alt₂ rate₂] =
      [kinematics (overhead a alt₁ rate₁) 0 0, kinematics (overhead b alt₂ rate₂) 0 0] := by
  simp [SeparationMonitor.states, SeparationMonitor.eligible, overhead, equatorTrack]

theorem relative_overhead (a b : String) (alt₁ alt₂ rate₁ rate₂ : ℝ) :
    relative (kinematics (overhead a alt₁ rate₁) 0 0) (kinematics (overhead b alt₂ rate₂) 0 0) =
      ⟨0, 0, 0, 0, alt₂ - alt₁, (rate₂ - rate₁) / 60⟩ := by
  simp [relative, kinematics, overhead, equatorTrack, knotsToNmPerSecond]

theorem aboveEpsilons_overhead {up vUp : ℝ} (h : vUp = 0 ∨ 1e-12 ≤ |vUp|) :
    AboveEpsilons ⟨0, 0, 0, 0, up, vUp⟩ :=
  ⟨.inl (by simp [RelativeMotion.speedSq]), h⟩

/-- Two level aircraft over one another: both detectors report the pair. -/
theorem zero_uncertainty_same_pairs_level :
    (({} : SeparationMonitor).withThreshold 0.5 (by norm_num)).reportedPairs
        [overhead "trk-low" 10000 0, overhead "trk-high" 10500 0] =
      ({} : SeparationMonitor).reportedPairs [overhead "trk-low" 10000 0, overhead "trk-high" 10500 0] := by
  refine (zero_uncertainty_same_pairs_iff rfl ⟨by norm_num, by norm_num, by norm_num⟩ (by decide)
    (by simp [overhead_zeroUncertainty]) 0.5 (by norm_num)).mpr fun first hf second hs _ _ => ?_
  have hrate : ∀ k ∈ ({} : SeparationMonitor).states [overhead "trk-low" 10000 0,
      overhead "trk-high" 10500 0], ∃ id alt, k = kinematics (overhead id alt 0) 0 0 := by
    rw [states_overhead]
    simp only [List.mem_cons, List.not_mem_nil, or_false]
    rintro k (rfl | rfl)
    · exact ⟨_, _, rfl⟩
    · exact ⟨_, _, rfl⟩
  obtain ⟨a, alt₁, rfl⟩ := hrate first hf
  obtain ⟨b, alt₂, rfl⟩ := hrate second hs
  rw [relative_overhead, if_pos (aboveEpsilons_overhead (.inl (by norm_num)))]
  exact fun h => h.1 rfl

/-- A level track and one descending through its level from above. -/
def descent : List TrackUpdate := [overhead "trk-low" 10000 0, overhead "trk-high" 12000 (-1200)]

/-- Certain to break both standards, the pair is reported without a threshold and not with one. -/
theorem zero_uncertainty_missed_descent : ({} : SeparationMonitor).Positive ∧
    (descent.map TrackUpdate.trackId).Nodup ∧ (∀ t ∈ descent, t.ZeroUncertainty) ∧
    (({} : SeparationMonitor).withThreshold 0.5 (by norm_num)).reportedPairs descent ≠
      ({} : SeparationMonitor).reportedPairs descent := by
  set low := kinematics (overhead "trk-low" 10000 0) 0 0 with hlow
  set high := kinematics (overhead "trk-high" 12000 (-1200)) 0 0 with hhigh
  have hm : ({} : SeparationMonitor).Positive := ⟨by norm_num, by norm_num, by norm_num⟩
  have hids : (descent.map TrackUpdate.trackId).Nodup := by decide
  have hzero : ∀ t ∈ descent, t.ZeroUncertainty := by simp [descent, overhead_zeroUncertainty]
  have hrel : relative low high = ⟨0, 0, 0, 0, 2000, -20⟩ := by
    rw [hlow, hhigh, relative_overhead]; norm_num
  have hband : ({} : SeparationMonitor).FliesThroughBand low high := by
    refine ⟨by norm_num [hlow, hhigh, kinematics, overhead, equatorTrack], fun t ht => ?_⟩
    rw [verticalDistance_eq, hrel, RelativeMotion.verticalAt, abs_lt] at ht
    norm_num at ht
    refine ⟨by linarith, by norm_num; linarith, ?_⟩
    rw [horizontalDistance_eq, hrel, RelativeMotion.horizontalAt]
    norm_num
  refine ⟨hm, hids, hzero, ?_⟩
  rw [Ne, reportedPairs_withThreshold_eq_iff rfl hm hzero, forall_candidatePairs_iff hids windowAgrees_comm,
    descent, states_overhead]
  intro h
  have hadj : AdjacentCells (cellOf ({} : SeparationMonitor).interactionRadiusNm low)
      (cellOf ({} : SeparationMonitor).interactionRadiusNm high) := by
    have hcell : cellOf ({} : SeparationMonitor).interactionRadiusNm high =
        cellOf ({} : SeparationMonitor).interactionRadiusNm low := rfl
    rw [hcell]
    simp [AdjacentCells]
  refine (windowAgrees_iff hm ?_).mp (h low (by simp [hlow]) high (by simp [hhigh]) (by decide) hadj) hband
  rw [hrel]
  exact aboveEpsilons_overhead (.inr (by norm_num))

end

end Airspace
