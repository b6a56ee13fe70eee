import Airspace.Conformance.Monitor
import Airspace.Conformance.PairTest

/-! The queue of pending predictions over a run.

    The updates of a track push one prediction each, and pop from the left what has come due. A prediction
    keeps its place, the newer ones behind it, until an update comes at or after `valid_at` minus the
    tolerance; but the queue holds 256, and the 256th further update pushes it out whether or not one has. -/

namespace Airspace

noncomputable section

open Classical

namespace ConformanceMonitor

variable {m : ConformanceMonitor} {trackId : String} {u v w : TrackUpdate}
  {us before mid later : List TrackUpdate}

/-- The monitor after some updates. -/
def after (m : ConformanceMonitor) (us : List TrackUpdate) : ConformanceMonitor :=
  us.foldl (fun m u => (m.observe u).1) m

theorem after_concat (m : ConformanceMonitor) (us : List TrackUpdate) (u : TrackUpdate) :
    m.after (us ++ [u]) = ((m.after us).observe u).1 := List.foldl_concat ..

@[simp] theorem horizonS_observe (m : ConformanceMonitor) (u : TrackUpdate) :
    (m.observe u).1.horizonS = m.horizonS := by
  rw [observe_eq]

@[simp] theorem horizonS_after (m : ConformanceMonitor) (us : List TrackUpdate) :
    (m.after us).horizonS = m.horizonS := by
  induction us generalizing m with
  | nil => rfl
  | cons u us ih => exact (ih _).trans (horizonS_observe m u)

/-- The prediction an update leaves behind. -/
def predictionOf (m : ConformanceMonitor) (u : TrackUpdate) : PendingPrediction :=
  m.predictionFrom (m.windowAfter u).items u

theorem validAt_predictionOf (m : ConformanceMonitor) (u : TrackUpdate) :
    (m.predictionOf u).validAt = u.updatedAt + timedelta m.horizonS := rfl

theorem due_eq_false {p : PendingPrediction} :
    due w p = false ↔ w.updatedAt < p.validAt - timedelta matchToleranceS := by
  rw [due, Bool.not_eq_false', decide_eq_true_eq]

/-- The queue of a track before its next update. -/
theorem queue_concat (hu : u.trackId = trackId) : (m.after (us ++ [u])).queueOf trackId =
    (((m.after us).queueOf trackId).dropWhile (due u)).append ((m.after us).predictionOf u) := by
  subst hu
  rw [after_concat, queueOf_observe]
  rfl

/-! ### Waiting -/

/-- A prediction waits in the queue with `k` newer ones behind it. -/
def Waits (queue : List PendingPrediction) (p : PendingPrediction) (k : ℕ) : Prop :=
  ∃ front back, queue = front ++ p :: back ∧ back.length = k

theorem Waits.length_le {queue : List PendingPrediction} {p : PendingPrediction} {k : ℕ}
    (h : Waits queue p k) : k + 1 ≤ queue.length := by
  obtain ⟨front, back, rfl, rfl⟩ := h
  rw [List.length_append, List.length_cons]
  exact Nat.le_add_left _ _

/-- A new prediction is the last of its queue. -/
theorem waits_new (hu : u.trackId = trackId) :
    Waits ((m.after (us ++ [u])).queueOf trackId).items ((m.after us).predictionOf u) 0 := by
  rw [queue_concat hu, Deque.items_append, Deque.appendItems]
  split_ifs with hroom
  · exact ⟨_, [], rfl, rfl⟩
  · cases hitems : (((m.after us).queueOf trackId).dropWhile (due u)).items with
    | nil =>
      rw [hitems] at hroom
      exact absurd (by decide) hroom
    | cons a items => exact ⟨items, [], rfl, rfl⟩

/-- A prediction waits while no update is due for it and fewer than 256 have come. -/
theorem waits_of_not_due (hone : ∀ w ∈ u :: mid, w.trackId = trackId)
    (hnot : ∀ w ∈ mid, due w ((m.after before).predictionOf u) = false) (hroom : mid.length < queueLength) :
    Waits ((m.after (before ++ u :: mid)).queueOf trackId).items ((m.after before).predictionOf u)
      mid.length := by
  induction mid using List.reverseRecOn with
  | nil => exact waits_new (hone u (List.mem_cons_self ..))
  | append_singleton mid w ih =>
    rw [List.length_append, List.length_singleton] at hroom ⊢
    obtain ⟨front, back, hqueue, hback⟩ := ih
      (fun w' hw' => hone w' (by simpa using (List.mem_cons.mp hw').imp_right Or.inl))
      (fun w' hw' => hnot w' (List.mem_append_left _ hw')) (by omega)
    obtain ⟨front', hnext⟩ := Deque.refill_of_waiting hqueue (hnot w (by simp)) (by rwa [hback])
      ((m.after (before ++ u :: mid)).predictionOf w)
    have hrun : before ++ u :: (mid ++ [w]) = before ++ u :: mid ++ [w] := by simp
    rw [hrun, queue_concat (hone w (by simp))]
    exact ⟨front', _, hnext, by rw [List.length_append, hback]; rfl⟩

/-- Until an update comes at or after `valid_at` minus the tolerance, every prediction stays queued. -/
def StaysQueued (m : ConformanceMonitor) (trackId : String) (us : List TrackUpdate) : Prop :=
  ∀ before u mid later, us = before ++ u :: (mid ++ later) →
    (∀ w ∈ mid, due w ((m.after before).predictionOf u) = false) →
    Waits ((m.after (before ++ u :: mid)).queueOf trackId).items ((m.after before).predictionOf u) mid.length

/-- The updates come in order. -/
def Ordered (us : List TrackUpdate) : Prop := us.Pairwise (·.updatedAt ≤ ·.updatedAt)

theorem Ordered.sublist {vs : List TrackUpdate} (h : Ordered us) (hvs : vs.Sublist us) : Ordered vs :=
  List.Pairwise.sublist hvs h

/-- A prediction that 256 updates have found not due is no longer queued. -/
theorem not_waits_of_full {p : PendingPrediction} (hfull : queueLength ≤ mid.length) :
    ¬ Waits (m.queueOf trackId).items p mid.length := by
  intro h
  have hlength := h.length_le
  have hbound := (m.queueOf trackId).bound
  omega

theorem exists_split_at {l : List TrackUpdate} {n : ℕ} (h : n < l.length) :
    ∃ before x later, l = before ++ x :: later ∧ before.length = n :=
  ⟨l.take n, l[n], l.drop (n + 1), by rw [← List.drop_eq_getElem_cons, List.take_append_drop],
    List.length_take_of_le h.le⟩

/-- Of a track whose updates come in order no prediction is lost before its moment exactly when the 256th
    update after each one comes at or after its prediction's moment, less the tolerance. -/
theorem no_prediction_lost_iff (hone : ∀ u ∈ us, u.trackId = trackId) (horder : Ordered us) :
    m.StaysQueued trackId us ↔
      ∀ before u mid v later, us = before ++ u :: (mid ++ v :: later) → mid.length + 1 = queueLength →
        u.updatedAt + timedelta m.horizonS - timedelta matchToleranceS ≤ v.updatedAt := by
  constructor
  · intro h before u mid v later hus hlength
    by_contra hlate
    have hv : ∀ w ∈ mid ++ [v], due w ((m.after before).predictionOf u) = false := by
      intro w hw
      rw [due_eq_false, validAt_predictionOf, horizonS_after]
      have hle : w.updatedAt ≤ v.updatedAt := by
        rcases List.mem_append.mp hw with hw | hw
        · have hsub : Ordered (mid ++ [v]) := horder.sublist (by rw [hus]; simp)
          exact (List.pairwise_append.mp hsub).2.2 w hw v (by simp)
        · rw [List.mem_singleton.mp hw]
      exact hle.trans_lt (not_le.mp hlate)
    have hwaits := h before u (mid ++ [v]) later (by rw [hus]; simp) hv
    exact not_waits_of_full (by rw [List.length_append, List.length_singleton, hlength]) hwaits
  · intro h before u mid later hus hnot
    refine waits_of_not_due (fun w hw => hone w ?_) hnot ?_
    · rw [hus]
      simp only [List.mem_append, List.mem_cons] at hw ⊢
      tauto
    · -- the 256th update after the prediction would have been due for it
      by_contra hfull
      obtain ⟨mid', v, rest, rfl, hlength⟩ := exists_split_at (n := queueLength - 1) (l := mid)
        (by have : 0 < queueLength := by decide
            omega)
      have hdue := h before u mid' v (rest ++ later) (by rw [hus]; simp) (by rw [hlength]; rfl)
      have hv := hnot v (by simp)
      rw [due_eq_false, validAt_predictionOf, horizonS_after] at hv
      exact absurd hdue (not_le.mpr hv)

/-! ### A horizon of five minutes -/

/-- An update of one aircraft, on the second. -/
def onTheSecond (s : ℤ) : TrackUpdate :=
  { equatorTrack "trk-abc123" 0 35000 450 90 0 with updatedAt := seconds s, lastReportAt := seconds s }

theorem updatedAt_onTheSecond_le {a b : ℤ} (h : a ≤ b) :
    (onTheSecond a).updatedAt ≤ (onTheSecond b).updatedAt :=
  Int.mul_le_mul_of_nonneg_right h (by decide)

def fiveMinutes : ConformanceMonitor := { predictor := physicsPredictor 300, horizonS := 300 }

theorem no_prediction_lost_two : fiveMinutes.StaysQueued "trk-abc123" [onTheSecond 0, onTheSecond 60] := by
  refine (no_prediction_lost_iff ?_ ?_).mpr ?_
  · intro u hu
    rcases List.mem_pair.mp hu with rfl | rfl <;> rfl
  · simp [Ordered, onTheSecond, seconds]
  · intro before u mid v later hus hlength
    have hcount := congrArg List.length hus
    simp only [List.length_append, List.length_cons, List.length_nil] at hcount
    have hqueue : queueLength = 256 := rfl
    omega

/-- At an update a second, the first of 257 predictions is pushed out before it is due. -/
theorem prediction_pushed_out : ¬ ∀ (m : ConformanceMonitor) (trackId : String) (us : List TrackUpdate),
    0 < m.horizonS → m.queueOf trackId = Deque.empty → (∀ u ∈ us, u.trackId = trackId) → Ordered us →
      m.StaysQueued trackId us := by
  intro h
  set mid := (List.range 256).map fun s : ℕ => onTheSecond (s + 1) with hmid
  have hwaits := h fiveMinutes "trk-abc123" (onTheSecond 0 :: mid) (by norm_num [fiveMinutes]) rfl ?_ ?_
    [] (onTheSecond 0) mid [] (by simp) ?_
  · exact not_waits_of_full (by simp [hmid, queueLength]) hwaits
  · intro u hu
    rcases List.mem_cons.mp hu with rfl | hu
    · rfl
    · obtain ⟨s, -, rfl⟩ := List.mem_map.mp hu
      rfl
  · refine List.pairwise_cons.mpr ⟨fun u hu => ?_, List.pairwise_map.mpr ?_⟩
    · obtain ⟨s, -, rfl⟩ := List.mem_map.mp hu
      exact updatedAt_onTheSecond_le (by omega)
    · exact List.pairwise_lt_range.imp fun {a b} hab => updatedAt_onTheSecond_le (by omega)
  · intro w hw
    obtain ⟨s, hs, rfl⟩ := List.mem_map.mp hw
    have hs' := List.mem_range.mp hs
    have hhorizon : timedelta (fiveMinutes.after []).horizonS = seconds 300 := timedelta_ofNat 300
    have htolerance : timedelta matchToleranceS = seconds 3 := timedelta_ofNat 3
    rw [due_eq_false, validAt_predictionOf, hhorizon, htolerance]
    change ((s : ℤ) + 1) * 1000000 < 0 * 1000000 + 300 * 1000000 - 3 * 1000000
    omega

end ConformanceMonitor

end

end Airspace
