import Airspace.Conformance.GridCompleteness
import Mathlib.Algebra.BigOperators.Group.List.Basic
import Mathlib.Data.List.Perm.Basic

/-! The scan of a reordered picture.

    The reference of the projection is a mean, so reordering the tracks reorders the projected states and
    changes none. The cells are visited in another order and a pair may come up the other way round; the
    pair test sees the same pair, so the scan finds the same conflicts, some of them from the other
    aircraft, and sorts them by the same times. -/

namespace Airspace

noncomputable section

open Classical

/-- The two track ids of a conflict, in order. -/
def Conflict.idPair (c : Conflict) : String × String :=
  (min c.firstTrackId c.secondTrackId, max c.firstTrackId c.secondTrackId)

/-- The same conflict, seen from the one aircraft or from the other. -/
structure Conflict.Matches (c d : Conflict) : Prop where
  either : d = c ∨ d = c.swap
  key : d.key = c.key
  time : d.timeToCpaS = c.timeToCpaS
  horizontal : d.minHorizontalNm = c.minHorizontalNm ∧ d.currentHorizontalNm = c.currentHorizontalNm
  vertical : d.minVerticalFt = c.minVerticalFt ∧ d.currentVerticalFt = c.currentVerticalFt
  probability : d.probability = c.probability

variable {m : SeparationMonitor} {tracks tracks' : List TrackUpdate} {c d : Conflict}

theorem Conflict.min_ids_swap (c : Conflict) :
    min c.swap.firstTrackId c.swap.secondTrackId = min c.firstTrackId c.secondTrackId := min_comm _ _

theorem Conflict.max_ids_swap (c : Conflict) :
    max c.swap.firstTrackId c.swap.secondTrackId = max c.firstTrackId c.secondTrackId := max_comm _ _

theorem Conflict.idPair_swap (c : Conflict) : c.swap.idPair = c.idPair := by
  unfold idPair
  rw [min_ids_swap, max_ids_swap]

theorem Conflict.key_swap (c : Conflict) : c.swap.key = c.key := by
  unfold key
  rw [min_ids_swap, max_ids_swap]

theorem Conflict.matches_of_either (h : d = c ∨ d = c.swap) : c.Matches d := by
  rcases h with rfl | rfl
  · exact ⟨.inl rfl, rfl, rfl, ⟨rfl, rfl⟩, ⟨rfl, rfl⟩, rfl⟩
  · exact ⟨.inr rfl, c.key_swap, rfl, ⟨rfl, rfl⟩, ⟨rfl, rfl⟩, rfl⟩

/-! ### One scan -/

/-- The scan is ordered by time. -/
theorem pairwise_scan : (m.scan tracks).Pairwise fun a b => a.timeToCpaS ≤ b.timeToCpaS := by
  unfold SeparationMonitor.scan
  split_ifs
  · exact List.Pairwise.nil
  · refine (List.pairwise_mergeSort ?_ ?_ _).imp fun h => of_decide_eq_true h
    · intro a b c hab hbc
      exact decide_eq_true ((of_decide_eq_true hab).trans (of_decide_eq_true hbc))
    · intro a b
      simpa using le_total a.timeToCpaS b.timeToCpaS

/-- No two conflicts of a scan are of the same two tracks. -/
theorem nodup_idPair_scan : ((m.scan tracks).map Conflict.idPair).Nodup := by
  unfold SeparationMonitor.scan
  split_ifs
  · exact List.nodup_nil
  · refine ((List.mergeSort_perm _ _).map Conflict.idPair).nodup_iff.mpr ?_
    have hpairs : ((m.candidatePairs (m.states tracks)).map pairKey).Nodup := nodup_candidatePairs
    refine List.Nodup.sublist ?_ hpairs
    clear hpairs
    generalize m.candidatePairs (m.states tracks) = pairs
    induction pairs with
    | nil => exact List.Sublist.slnil
    | cons p pairs ih =>
      rw [List.map_cons]
      cases hp : m.testPair p.1 p.2 with
      | none =>
        rw [List.filterMap_cons, hp]
        exact ih.cons _
      | some c =>
        have hkey : c.idPair = pairKey p := by
          obtain ⟨h₁, h₂⟩ := testPair_ids hp
          simp only [Conflict.idPair, pairKey, h₁, h₂]
        rw [List.filterMap_cons, hp, List.map_cons, hkey]
        exact ih.cons_cons _

/-! ### Two scans -/

theorem eligible_perm (h : tracks.Perm tracks') : (m.eligible tracks).Perm (m.eligible tracks') :=
  h.filter _

/-- The mean position is that of the reordered picture, so the states are the same ones. -/
theorem states_perm (h : tracks.Perm tracks') : (m.states tracks).Perm (m.states tracks') := by
  have heligible := eligible_perm (m := m) h
  have hlat := (heligible.map TrackUpdate.lat).sum_eq
  have hlon := (heligible.map TrackUpdate.lon).sum_eq
  simp only [SeparationMonitor.states, hlat, hlon, heligible.length_eq]
  exact heligible.map _

/-- A conflict of one picture is found in the reordered one, from one aircraft or the other. -/
theorem mem_scan_perm (hids : (tracks.map TrackUpdate.trackId).Nodup) (h : tracks.Perm tracks')
    (hc : c ∈ m.scan tracks) : ∃ d ∈ m.scan tracks', d = c ∨ d = c.swap := by
  obtain ⟨⟨first, second⟩, hp, htest⟩ := mem_scan_iff.mp hc
  obtain ⟨hf, hs, hne, hadj⟩ := neighbours_of_mem_candidatePairs hp
  have hids' : (tracks'.map TrackUpdate.trackId).Nodup := (h.map _).nodup_iff.mp hids
  have hmem := (mem_scannedConflicts_iff hids' ((states_perm h).mem_iff.mp hf)
    ((states_perm h).mem_iff.mp hs) hne htest).mpr hadj
  rcases hmem with hmem | hmem
  · exact ⟨c, hmem, .inl rfl⟩
  · exact ⟨c.swap, hmem, .inr rfl⟩

/-- Two conflicts of the same two tracks, one of each scan, are one conflict. -/
theorem either_of_idPair_eq (hids : (tracks.map TrackUpdate.trackId).Nodup) (h : tracks.Perm tracks')
    (hc : c ∈ m.scan tracks) (hd : d ∈ m.scan tracks') (hpair : c.idPair = d.idPair) :
    d = c ∨ d = c.swap := by
  obtain ⟨c', hc', heither⟩ := mem_scan_perm hids h hc
  have hsame : c' = d := by
    refine List.inj_on_of_nodup_map nodup_idPair_scan hc' hd (Eq.trans ?_ hpair)
    rcases heither with rfl | rfl
    · rfl
    · exact c.idPair_swap
  exact hsame ▸ heither

/-- Reordering the tracks reorders the conflicts of the scan, some seen from the other aircraft, and either
    scan is sorted by time. -/
theorem scan_of_reordered_picture (hids : (tracks.map TrackUpdate.trackId).Nodup)
    (h : tracks.Perm tracks') :
    (∃ reordered, reordered.Perm (m.scan tracks) ∧
      List.Forall₂ Conflict.Matches reordered (m.scan tracks')) ∧
    ((m.scan tracks).Pairwise fun a b => a.timeToCpaS ≤ b.timeToCpaS) ∧
    (m.scan tracks').Pairwise fun a b => a.timeToCpaS ≤ b.timeToCpaS := by
  refine ⟨?_, pairwise_scan, pairwise_scan⟩
  have hids' : (tracks'.map TrackUpdate.trackId).Nodup := (h.map _).nodup_iff.mp hids
  have hinto : ∀ {l l' : List TrackUpdate}, (l.map TrackUpdate.trackId).Nodup → l.Perm l' →
      ∀ pair ∈ (m.scan l).map Conflict.idPair, pair ∈ (m.scan l').map Conflict.idPair := by
    intro l l' hl hperm pair hpair
    obtain ⟨a, ha, rfl⟩ := List.mem_map.mp hpair
    obtain ⟨b, hb, hab⟩ := mem_scan_perm hl hperm ha
    refine List.mem_map.mpr ⟨b, hb, ?_⟩
    rcases hab with rfl | rfl
    · rfl
    · exact a.idPair_swap
  have hpairs : ((m.scan tracks).map Conflict.idPair).Perm ((m.scan tracks').map Conflict.idPair) :=
    (List.perm_ext_iff_of_nodup nodup_idPair_scan nodup_idPair_scan).mpr fun pair =>
      ⟨hinto hids h pair, hinto hids' h.symm pair⟩
  obtain ⟨reordered, hmap, hperm⟩ : (Relation.Comp (· = List.map Conflict.idPair ·) List.Perm)
      ((m.scan tracks').map Conflict.idPair) (m.scan tracks) := by
    rw [List.eq_map_comp_perm]
    exact hpairs.symm
  have himages : List.Forall₂ (· = ·) (reordered.map Conflict.idPair)
      ((m.scan tracks').map Conflict.idPair) := by
    rw [List.forall₂_eq_eq_eq]
    exact hmap.symm
  have hsame := List.forall₂_map_right_iff.mp (List.forall₂_map_left_iff.mp himages)
  refine ⟨reordered, hperm, ?_⟩
  rw [List.forall₂_iff_get] at hsame ⊢
  refine ⟨hsame.1, fun i hi hi' => Conflict.matches_of_either ?_⟩
  exact either_of_idPair_eq hids h (hperm.mem_iff.mp (List.get_mem ..)) (List.get_mem ..)
    (hsame.2 i hi hi')

/-- Two tracks in trail, listed either way round. -/
theorem scan_of_reordered_picture_in_trail :
    let low := equatorTrack "trk-low" 0 33000 450 90 0
    let high := equatorTrack "trk-high" 0 34500 450 90 (-600)
    ∃ reordered, reordered.Perm (({} : SeparationMonitor).scan [low, high]) ∧
      List.Forall₂ Conflict.Matches reordered (({} : SeparationMonitor).scan [high, low]) := by
  intro low high
  exact (scan_of_reordered_picture (by decide)
    (List.Perm.swap high low [])).1

end

end Airspace
