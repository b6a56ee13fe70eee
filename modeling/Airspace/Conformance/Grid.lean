import Airspace.Conformance.PairTest
import Mathlib.Data.List.Induction
import Mathlib.Data.Sym.Sym2

/-! The candidate pairs of a scan.

    The buckets hold the states by grid cell, the three loops visit every pair of states in the same or
    adjacent cells, and the loop body keeps one pair for each unordered pair of track identifiers. With
    distinct identifiers the candidates are therefore, up to order, the pairs of neighbours. -/

namespace Airspace

noncomputable section

open Classical

/-- The same cell or one of the eight around it. -/
def AdjacentCells (a b : ℤ × ℤ) : Prop := |b.1 - a.1| ≤ 1 ∧ |b.2 - a.2| ≤ 1

theorem AdjacentCells.symm {a b : ℤ × ℤ} (h : AdjacentCells a b) : AdjacentCells b a := by
  unfold AdjacentCells at *
  rwa [abs_sub_comm b.1, abs_sub_comm b.2] at h

variable {cell : ℝ} {states : List Kinematics} {first second : Kinematics}

/-- Less than a cell from the origin every coordinate falls in one of two cells. -/
theorem pyFloorDiv_of_abs_lt {x c : ℝ} (hc : 0 < c) (h : |x| < c) :
    pyFloorDiv x c = -1 ∨ pyFloorDiv x c = 0 := by
  rw [abs_lt] at h
  have h1 : -1 ≤ pyFloorDiv x c := Int.le_floor.mpr (by rw [le_div_iff₀ hc]; push_cast; linarith)
  have h2 : pyFloorDiv x c < 1 := Int.floor_lt.mpr (by rw [div_lt_iff₀ hc]; push_cast; linarith)
  omega

theorem adjacentCells_of_abs_lt (hc : 0 < cell) (h₁ : |first.eastNm| < cell) (h₂ : |second.eastNm| < cell)
    (h₃ : |first.northNm| < cell) (h₄ : |second.northNm| < cell) :
    AdjacentCells (cellOf cell first) (cellOf cell second) := by
  have e₁ := pyFloorDiv_of_abs_lt hc h₁
  have e₂ := pyFloorDiv_of_abs_lt hc h₂
  have e₃ := pyFloorDiv_of_abs_lt hc h₃
  have e₄ := pyFloorDiv_of_abs_lt hc h₄
  simp only [AdjacentCells, cellOf, abs_le]
  omega

/-! ### The visited pairs -/

theorem buckets_concat (cell : ℝ) (states : List Kinematics) (s : Kinematics) :
    buckets cell (states ++ [s]) = (buckets cell states).set (cellOf cell s)
      (((buckets cell states).get? (cellOf cell s)).getD [] ++ [s]) := by
  rw [buckets, List.foldl_append, List.foldl_cons, List.foldl_nil, ← buckets]

/-- A bucket holds the states of its cell, in order; cells without a state have none. -/
theorem get?_buckets (cell : ℝ) (states : List Kinematics) (c : ℤ × ℤ) :
    ((buckets cell states).get? c).getD [] = states.filter fun s => cellOf cell s = c := by
  induction states using List.reverseRecOn with
  | nil => rfl
  | append_singleton states s ih =>
    rw [buckets_concat, List.filter_append, Dict.get?_set]
    by_cases hc : c = cellOf cell s
    · subst hc
      rw [if_pos rfl, Option.getD_some, ih]
      simp
    · have hc' : ¬ cellOf cell s = c := fun h => hc h.symm
      rw [if_neg hc, ih]
      simp [hc']

theorem mem_bucket {c : ℤ × ℤ} :
    first ∈ ((buckets cell states).get? c).getD [] ↔ first ∈ states ∧ cellOf cell first = c := by
  rw [get?_buckets, List.mem_filter, decide_eq_true_iff]

theorem mem_neighbourhood {c : ℤ × ℤ} :
    second ∈ neighbourhood (buckets cell states) c ↔
      second ∈ states ∧ AdjacentCells c (cellOf cell second) := by
  simp only [neighbourhood, List.mem_flatMap, mem_bucket, AdjacentCells, abs_le]
  constructor
  · rintro ⟨dx, hdx, dy, hdy, hs, hc⟩
    simp only [List.mem_cons, List.not_mem_nil, or_false] at hdx hdy
    rw [hc]
    refine ⟨hs, ?_, ?_⟩ <;> constructor <;> simp only <;> omega
  · rintro ⟨hs, ⟨h₁, h₂⟩, h₃, h₄⟩
    refine ⟨(cellOf cell second).1 - c.1, ?_, (cellOf cell second).2 - c.2, ?_, hs, ?_⟩
    · simp only [List.mem_cons, List.not_mem_nil, or_false]; omega
    · simp only [List.mem_cons, List.not_mem_nil, or_false]; omega
    · ext <;> simp

/-- The loops visit exactly the pairs of states in the same or adjacent cells. -/
theorem mem_visits :
    (first, second) ∈ visits (buckets cell states) ↔
      first ∈ states ∧ second ∈ states ∧ AdjacentCells (cellOf cell first) (cellOf cell second) := by
  simp only [visits, List.mem_flatMap, List.mem_map]
  constructor
  · rintro ⟨⟨c, occupants⟩, hentry, f, hf, s, hs, heq⟩
    obtain ⟨rfl, rfl⟩ := Prod.mk.inj heq
    have hbucket : ((buckets cell states).get? c).getD [] = occupants := by
      rw [Dict.get?_eq_some_iff.mpr hentry]; rfl
    obtain ⟨hmem, rfl⟩ := mem_bucket.mp (hbucket.symm ▸ hf)
    exact ⟨hmem, mem_neighbourhood.mp hs⟩
  · rintro ⟨hf, hs⟩
    have hbucket : first ∈ ((buckets cell states).get? (cellOf cell first)).getD [] :=
      mem_bucket.mpr ⟨hf, rfl⟩
    cases hget : (buckets cell states).get? (cellOf cell first) with
    | none => rw [hget] at hbucket; cases hbucket
    | some occupants =>
      rw [hget] at hbucket
      exact ⟨(cellOf cell first, occupants), Dict.get?_eq_some_iff.mp hget, first, hbucket, second,
        mem_neighbourhood.mpr hs, rfl⟩

/-! ### The deduplicating loop -/

/-- What the loop has kept of the pairs visited so far. -/
structure Kept (visited : List (Kinematics × Kinematics))
    (acc : List (String × String) × List (Kinematics × Kinematics)) : Prop where
  sound : ∀ p ∈ acc.2, p ∈ visited ∧ p.1.track.trackId ≠ p.2.track.trackId
  covers : ∀ p ∈ visited, p.1.track.trackId ≠ p.2.track.trackId → ∃ q ∈ acc.2, pairKey q = pairKey p
  seen : ∀ key, key ∈ acc.1 ↔ key ∈ acc.2.map pairKey
  once : (acc.2.map pairKey).Nodup

/-- One iteration keeps a pair exactly when its key is new. -/
theorem Kept.visit {visited : List (Kinematics × Kinematics)}
    {acc : List (String × String) × List (Kinematics × Kinematics)} (h : Kept visited acc)
    (p : Kinematics × Kinematics) : Kept (visited ++ [p]) (visit acc p) := by
  have hsub : ∀ q ∈ acc.2, q ∈ visited ++ [p] ∧ q.1.track.trackId ≠ q.2.track.trackId :=
    fun q hq => ⟨List.mem_append_left _ (h.sound q hq).1, (h.sound q hq).2⟩
  unfold Airspace.visit
  by_cases hid : p.1.track.trackId = p.2.track.trackId
  · rw [if_pos hid]
    refine ⟨hsub, fun q hq hne => ?_, h.seen, h.once⟩
    rcases List.mem_append.mp hq with hq | hq
    · exact h.covers q hq hne
    · rw [List.mem_singleton.mp hq] at hne; exact absurd hid hne
  · rw [if_neg hid]
    by_cases hseen : pairKey p ∈ acc.1
    · rw [if_pos hseen]
      refine ⟨hsub, fun q hq hne => ?_, h.seen, h.once⟩
      rcases List.mem_append.mp hq with hq | hq
      · exact h.covers q hq hne
      · rw [List.mem_singleton.mp hq]
        exact List.mem_map.mp ((h.seen _).mp hseen)
    · rw [if_neg hseen]
      have hnew : pairKey p ∉ acc.2.map pairKey := fun hmem => hseen ((h.seen _).mpr hmem)
      refine ⟨fun q hq => ?_, fun q hq hne => ?_, fun key => ?_, ?_⟩
      · rcases List.mem_append.mp hq with hq | hq
        · exact hsub q hq
        · rw [List.mem_singleton.mp hq]; exact ⟨by simp, hid⟩
      · rcases List.mem_append.mp hq with hq | hq
        · obtain ⟨q', hq', hkey⟩ := h.covers q hq hne
          exact ⟨q', List.mem_append_left _ hq', hkey⟩
        · exact ⟨q, List.mem_append_right _ hq, rfl⟩
      · rw [List.map_append, List.mem_append, List.mem_cons, h.seen, or_comm]; simp
      · rw [List.map_append, List.map_singleton]
        refine List.nodup_append.mpr ⟨h.once, List.nodup_singleton _, ?_⟩
        rintro a ha b hb rfl
        exact hnew (List.mem_singleton.mp hb ▸ ha)

theorem kept_foldl (visited : List (Kinematics × Kinematics)) :
    Kept visited (visited.foldl visit ([], [])) := by
  induction visited using List.reverseRecOn with
  | nil => exact ⟨by simp, by simp, by simp, List.nodup_nil⟩
  | append_singleton visited p ih =>
    rw [List.foldl_append, List.foldl_cons, List.foldl_nil]
    exact ih.visit p

/-! ### The candidates -/

/-- Two pairs have the same key exactly when they name the same two tracks. -/
theorem pairKey_eq_iff {p q : Kinematics × Kinematics} :
    pairKey p = pairKey q ↔
      s(p.1.track.trackId, p.2.track.trackId) = s(q.1.track.trackId, q.2.track.trackId) := by
  unfold pairKey
  rw [Prod.mk.injEq, Sym2.eq_iff]
  constructor
  · rintro ⟨hmin, hmax⟩
    rcases le_total p.1.track.trackId p.2.track.trackId with hp | hp <;>
      rcases le_total q.1.track.trackId q.2.track.trackId with hq | hq <;>
      simp only [min_eq_left, min_eq_right, max_eq_left, max_eq_right, hp, hq] at hmin hmax
    · exact .inl ⟨hmin, hmax⟩
    · exact .inr ⟨hmin, hmax⟩
    · exact .inr ⟨hmax, hmin⟩
    · exact .inl ⟨hmax, hmin⟩
  · rintro (⟨h₁, h₂⟩ | ⟨h₁, h₂⟩)
    · rw [h₁, h₂]; exact ⟨rfl, rfl⟩
    · rw [h₁, h₂]; exact ⟨min_comm _ _, max_comm _ _⟩

variable {m : SeparationMonitor}

theorem interactionRadiusNm_eq : m.interactionRadiusNm = m.lookaheadS / 3 + m.horizontalNm := by
  unfold SeparationMonitor.interactionRadiusNm knotsToNmPerSecond
  ring

/-- With the default settings a cell is 105 NM wide. -/
theorem interactionRadiusNm_default : ({} : SeparationMonitor).interactionRadiusNm = 105 := by
  rw [interactionRadiusNm_eq]
  norm_num

/-- A candidate pair is a pair of different tracks in the same or adjacent cells. -/
theorem neighbours_of_mem_candidatePairs {p : Kinematics × Kinematics}
    (h : p ∈ m.candidatePairs states) :
    p.1 ∈ states ∧ p.2 ∈ states ∧ p.1.track.trackId ≠ p.2.track.trackId ∧
      AdjacentCells (cellOf m.interactionRadiusNm p.1) (cellOf m.interactionRadiusNm p.2) := by
  obtain ⟨hvisited, hne⟩ := (kept_foldl _).sound p h
  obtain ⟨hf, hs, hadj⟩ := mem_visits.mp hvisited
  exact ⟨hf, hs, hne, hadj⟩

/-- Candidate pairs differ in their keys. -/
theorem nodup_candidatePairs : ((m.candidatePairs states).map pairKey).Nodup := (kept_foldl _).once

/-- With distinct identifiers every pair of neighbours is a candidate, in one order or the other. -/
theorem mem_candidatePairs_iff (hids : (states.map fun s => s.track.trackId).Nodup) :
    (first, second) ∈ m.candidatePairs states ∨ (second, first) ∈ m.candidatePairs states ↔
      first ∈ states ∧ second ∈ states ∧ first.track.trackId ≠ second.track.trackId ∧
        AdjacentCells (cellOf m.interactionRadiusNm first) (cellOf m.interactionRadiusNm second) := by
  constructor
  · rintro (h | h)
    · exact neighbours_of_mem_candidatePairs h
    · obtain ⟨hs, hf, hne, hadj⟩ := neighbours_of_mem_candidatePairs h
      exact ⟨hf, hs, hne.symm, hadj.symm⟩
  · rintro ⟨hf, hs, hne, hadj⟩
    obtain ⟨⟨f, s⟩, hq, hkey⟩ := (kept_foldl _).covers _ (mem_visits.mpr ⟨hf, hs, hadj⟩) hne
    obtain ⟨hf', hs', -⟩ := neighbours_of_mem_candidatePairs (m := m) hq
    have hinj : ∀ a ∈ states, ∀ b ∈ states, a.track.trackId = b.track.trackId → a = b :=
      List.inj_on_of_nodup_map hids
    rcases Sym2.eq_iff.mp (pairKey_eq_iff.mp hkey) with ⟨h₁, h₂⟩ | ⟨h₁, h₂⟩
    · rw [hinj f hf' first hf h₁, hinj s hs' second hs h₂] at hq
      exact .inl hq
    · rw [hinj f hf' second hs h₁, hinj s hs' first hf h₂] at hq
      exact .inr hq

/-! ### The scan -/

variable {tracks : List TrackUpdate}

theorem length_states : (m.states tracks).length = (m.eligible tracks).length := by
  simp [SeparationMonitor.states]

theorem ids_states : (m.states tracks).map (fun s => s.track.trackId) =
    (m.eligible tracks).map TrackUpdate.trackId := by
  simp only [SeparationMonitor.states, List.map_map]
  rfl

theorem nodup_ids_states (h : (tracks.map TrackUpdate.trackId).Nodup) :
    ((m.states tracks).map fun s => s.track.trackId).Nodup := by
  rw [ids_states]
  exact (List.filter_sublist.map _).nodup h

/-- The conflicts of a scan are the accepted candidate pairs. -/
theorem mem_scan_iff {c : Conflict} :
    c ∈ m.scan tracks ↔ ∃ p ∈ m.candidatePairs (m.states tracks), m.testPair p.1 p.2 = some c := by
  unfold SeparationMonitor.scan
  by_cases hlen : (m.eligible tracks).length < 2
  · rw [if_pos hlen]
    refine iff_of_false List.not_mem_nil ?_
    rintro ⟨p, hp, -⟩
    obtain ⟨hf, hs, hne, -⟩ := neighbours_of_mem_candidatePairs hp
    rw [← length_states] at hlen
    match hst : m.states tracks with
    | [] => rw [hst] at hf; cases hf
    | [a] =>
      rw [hst, List.mem_singleton] at hf hs
      exact hne (by rw [hf, hs])
    | a :: b :: l => rw [hst] at hlen; simp at hlen
  · rw [if_neg hlen, List.mem_mergeSort, List.mem_filterMap]

/-- Whatever decides it, the conflict reported of a pair is the one made for it. -/
theorem exists_conflictFor {c : Conflict} (h : m.testPair first second = some c) :
    ∃ p, c = m.conflictFor first second p := by
  simp only [SeparationMonitor.testPair] at h
  cases hprob : m.probability first second (m.report (relative first second)).2.1
    (m.report (relative first second)).2.2 (m.report (relative first second)).1 with
  | none =>
    simp only [hprob] at h
    split_ifs at h
    exact ⟨none, (Option.some.inj h).symm⟩
  | some p =>
    simp only [hprob] at h
    split_ifs at h
    exact ⟨some p, (Option.some.inj h).symm⟩

theorem testPair_ids {c : Conflict} (h : m.testPair first second = some c) :
    c.firstTrackId = first.track.trackId ∧ c.secondTrackId = second.track.trackId := by
  obtain ⟨p, rfl⟩ := exists_conflictFor h
  exact ⟨rfl, rfl⟩

theorem track_of_mem_states {k : Kinematics} (h : k ∈ m.states tracks) : k.track ∈ tracks := by
  obtain ⟨t, ht, rfl⟩ := List.mem_map.mp h
  exact List.mem_of_mem_filter ht

/-- Every candidate has a symmetric property exactly when every two neighbouring tracks have it. -/
theorem forall_candidatePairs_iff (hids : (tracks.map TrackUpdate.trackId).Nodup)
    {P : Kinematics → Kinematics → Prop} (hP : ∀ f s, P s f = P f s) :
    (∀ q ∈ m.candidatePairs (m.states tracks), P q.1 q.2) ↔
      ∀ first ∈ m.states tracks, ∀ second ∈ m.states tracks,
        first.track.trackId ≠ second.track.trackId →
        AdjacentCells (cellOf m.interactionRadiusNm first) (cellOf m.interactionRadiusNm second) →
        P first second := by
  constructor
  · intro h first hf second hs hne hadj
    rcases (mem_candidatePairs_iff (nodup_ids_states hids)).mpr ⟨hf, hs, hne, hadj⟩ with hq | hq
    · exact h _ hq
    · exact (hP first second) ▸ h _ hq
  · intro h q hq
    obtain ⟨hf, hs, hne, hadj⟩ := neighbours_of_mem_candidatePairs hq
    exact h _ hf _ hs hne hadj

/-! ### Either order of a pair -/

/-- The same conflict seen from the other aircraft. -/
def Conflict.swap (c : Conflict) : Conflict where
  firstTrackId := c.secondTrackId
  secondTrackId := c.firstTrackId
  firstCallsign := c.secondCallsign
  secondCallsign := c.firstCallsign
  timeToCpaS := c.timeToCpaS
  minHorizontalNm := c.minHorizontalNm
  minVerticalFt := c.minVerticalFt
  currentHorizontalNm := c.currentHorizontalNm
  currentVerticalFt := c.currentVerticalFt
  lookaheadS := c.lookaheadS
  horizontalStandardNm := c.horizontalStandardNm
  verticalStandardFt := c.verticalStandardFt
  probability := c.probability

theorem relative_swap (first second : Kinematics) : relative second first = (relative first second).swap := by
  simp only [relative, RelativeMotion.swap, RelativeMotion.mk.injEq, knotsToNmPerSecond]
  refine ⟨?_, ?_, ?_, ?_, ?_, ?_⟩ <;> ring

theorem linearWithin_neg (offset rate limit : ℝ) :
    linearWithin (-offset) (-rate) limit = linearWithin offset rate limit := by
  have h₁ : (-limit - -offset) / -rate = (limit - offset) / rate := by
    rw [div_neg, ← neg_div]; ring_nf
  have h₂ : (limit - -offset) / -rate = (-limit - offset) / rate := by
    rw [div_neg, ← neg_div]; ring_nf
  unfold linearWithin
  rw [abs_neg, abs_neg, h₁, h₂]
  simp only
  rcases lt_trichotomy ((-limit - offset) / rate) ((limit - offset) / rate) with h | h | h
  · rw [if_neg (not_le.mpr h), if_pos h.le]
  · rw [h]
  · rw [if_pos h.le, if_neg (not_le.mpr h)]

theorem projectedSigma_comm (a b c d t : ℝ) : projectedSigma a b c d t = projectedSigma b a d c t := by
  unfold projectedSigma
  rw [add_comm (a ^ 2), add_comm (c ^ 2)]

namespace SeparationMonitor

theorem verticalSlack_comm (first second : Kinematics) :
    m.verticalSlack first second = m.verticalSlack second first := by
  unfold verticalSlack
  cases m.probabilityThreshold <;> cases uncertainty first.track <;> cases uncertainty second.track <;>
    simp only
  rw [projectedSigma_comm]

theorem probability_comm (first second : Kinematics) (h v t : ℝ) :
    m.probability first second h v t = m.probability second first h v t := by
  unfold probability
  cases m.probabilityThreshold <;> cases uncertainty first.track <;> cases uncertainty second.track <;>
    simp only
  rw [projectedSigma_comm _ _ (knotsToNmPerSecond _), projectedSigma_comm _ _ (_ / 60)]

theorem rejectsVertically_comm (first second : Kinematics) :
    m.rejectsVertically first second = m.rejectsVertically second first := by
  unfold rejectsVertically
  rw [abs_sub_comm second.altitudeFt, abs_sub_comm second.vAltFpm, verticalSlack_comm]

theorem window_swap (r : RelativeMotion) : m.window r.swap = m.window r := by
  rw [window, window, RelativeMotion.speedSq_swap, RelativeMotion.opening_swap,
    RelativeMotion.rangeSq_swap]
  exact congrArg (overlap _ · _) (linearWithin_neg _ _ _)

theorem report_swap (r : RelativeMotion) : m.report r.swap = m.report r := by
  simp only [report, cpaTime, window_swap, RelativeMotion.speedSq_swap, RelativeMotion.opening_swap,
    RelativeMotion.horizontalAt_swap, RelativeMotion.verticalAt_swap]

theorem conflictFor_swap (first second : Kinematics) (p : Option ℝ) :
    m.conflictFor second first p = (m.conflictFor first second p).swap := by
  simp only [conflictFor, Conflict.swap, relative_swap first second, report_swap]
  simp only [RelativeMotion.swap, neg_sq, abs_sub_comm first.altitudeFt]

/-- The pair test does not depend on the order of the pair. -/
theorem testPair_swap (first second : Kinematics) :
    m.testPair second first = (m.testPair first second).map Conflict.swap := by
  simp only [testPair, rejectsVertically_comm second, relative_swap first second, report_swap,
    window_swap, probability_comm second, conflictFor_swap first second]
  by_cases hr : m.rejectsVertically first second
  · simp only [if_pos hr, Option.map_none]
  · simp only [if_neg hr]
    cases m.probability first second (m.report (relative first second)).2.1
      (m.report (relative first second)).2.2 (m.report (relative first second)).1 with
    | none => simp only; split_ifs <;> rfl
    | some p => simp only; split_ifs <;> rfl

end SeparationMonitor

/-- Two neighbours the pair test accepts, in either order, are reported. -/
theorem scan_ne_nil_of_neighbours (hids : (tracks.map TrackUpdate.trackId).Nodup)
    (hf : first ∈ m.states tracks) (hs : second ∈ m.states tracks)
    (hne : first.track.trackId ≠ second.track.trackId)
    (hadj : AdjacentCells (cellOf m.interactionRadiusNm first) (cellOf m.interactionRadiusNm second))
    (hsome : (m.testPair first second).isSome) : m.scan tracks ≠ [] := by
  obtain ⟨c, hc⟩ := Option.isSome_iff_exists.mp hsome
  rcases (mem_candidatePairs_iff (nodup_ids_states hids)).mpr ⟨hf, hs, hne, hadj⟩ with h | h
  · exact List.ne_nil_of_mem (mem_scan_iff.mpr ⟨_, h, hc⟩)
  · have hswap : m.testPair second first = some c.swap := by
      rw [SeparationMonitor.testPair_swap, hc]; rfl
    exact List.ne_nil_of_mem (mem_scan_iff.mpr ⟨_, h, hswap⟩)

/-! ### Pairs within a cell of each other -/

/-- Coordinates at most a cell apart fall in the same or in neighbouring cells. -/
theorem floorDiv_near {x y c : ℝ} (hc : 0 < c) (h : |y - x| ≤ c) : |pyFloorDiv y c - pyFloorDiv x c| ≤ 1 := by
  have hscaled : |y / c - x / c| ≤ 1 := by
    rw [← sub_div, abs_div, abs_of_pos hc]
    exact (div_le_one hc).mpr h
  obtain ⟨hlow, hhigh⟩ := abs_le.mp hscaled
  have hup : pyFloorDiv y c ≤ pyFloorDiv x c + 1 := by
    have := Int.floor_le_floor (show y / c ≤ x / c + 1 by linarith)
    rwa [Int.floor_add_one] at this
  have hdown : pyFloorDiv x c ≤ pyFloorDiv y c + 1 := by
    have := Int.floor_le_floor (show x / c ≤ y / c + 1 by linarith)
    rwa [Int.floor_add_one] at this
  rw [abs_le]
  omega

theorem adjacentCells_of_near (hc : 0 < cell) (heast : |second.eastNm - first.eastNm| ≤ cell)
    (hnorth : |second.northNm - first.northNm| ≤ cell) :
    AdjacentCells (cellOf cell first) (cellOf cell second) :=
  ⟨floorDiv_near hc heast, floorDiv_near hc hnorth⟩

/-- The candidates as unordered pairs are pairwise different. -/
theorem nodup_candidatePairs_unordered :
    ((m.candidatePairs states).map fun p => s(p.1, p.2)).Nodup := by
  rw [List.nodup_map_iff_inj_on nodup_candidatePairs.of_map]
  intro p hp q hq hpair
  refine List.inj_on_of_nodup_map nodup_candidatePairs hp hq (pairKey_eq_iff.mpr ?_)
  exact congrArg (Sym2.map fun k : Kinematics => k.track.trackId) hpair

/-- Each unordered pair of tracks at most a cell apart east and north is a candidate exactly once, no
    unordered pair is one twice, and no track is paired with itself. -/
theorem near_pairs_are_candidates_once (hcell : 0 < m.interactionRadiusNm)
    (hids : (states.map fun s => s.track.trackId).Nodup) :
    (∀ first ∈ states, ∀ second ∈ states, first ≠ second →
      |second.eastNm - first.eastNm| ≤ m.interactionRadiusNm →
      |second.northNm - first.northNm| ≤ m.interactionRadiusNm →
      ((m.candidatePairs states).map fun p => s(p.1, p.2)).count s(first, second) = 1) ∧
    (∀ pair, ((m.candidatePairs states).map fun p => s(p.1, p.2)).count pair ≤ 1) ∧
    ∀ p ∈ m.candidatePairs states, p.1 ∈ states ∧ p.2 ∈ states ∧ p.1 ≠ p.2 := by
  refine ⟨?_, List.nodup_iff_count_le_one.mp nodup_candidatePairs_unordered, ?_⟩
  · intro first hf second hs hne heast hnorth
    have hid : first.track.trackId ≠ second.track.trackId :=
      fun h => hne (List.inj_on_of_nodup_map hids hf hs h)
    refine List.count_eq_one_of_mem nodup_candidatePairs_unordered (List.mem_map.mpr ?_)
    rcases (mem_candidatePairs_iff hids).mpr ⟨hf, hs, hid, adjacentCells_of_near hcell heast hnorth⟩
      with h | h
    · exact ⟨_, h, rfl⟩
    · exact ⟨_, h, Sym2.eq_swap⟩
  · intro p hp
    obtain ⟨hf, hs, hid, -⟩ := neighbours_of_mem_candidatePairs hp
    exact ⟨hf, hs, fun h => hid (by rw [h])⟩

/-- Two tracks exactly one cell apart, on either side of the origin. -/
theorem near_pairs_are_candidates_once_apart :
    let west : Kinematics :=
      { track := equatorTrack "trk-west" 0 33000 450 90 0, eastNm := -1, northNm := 0, vEastKt := 450,
        vNorthKt := 0, altitudeFt := 33000, vAltFpm := 0 }
    let east : Kinematics := { west with track := equatorTrack "trk-east" 0 33000 450 90 0, eastNm := 104 }
    ((({} : SeparationMonitor).candidatePairs [west, east]).map fun p => s(p.1, p.2)).count s(west, east) =
      1 := by
  intro west east
  refine (near_pairs_are_candidates_once (m := {})
    (by rw [interactionRadiusNm_default]; norm_num) (by decide)).1 west (by simp) east (by simp) ?_ ?_ ?_
  · intro h
    have := congrArg Kinematics.eastNm h
    norm_num [west, east] at this
  · rw [interactionRadiusNm_default]
    norm_num [west, east]
  · rw [interactionRadiusNm_default]
    norm_num [west, east]

end

end Airspace
