import Airspace.Conformance.PendingQueue
import Mathlib.Data.List.MinMax

/-! When predictions mature.

    The updates of a track come in order, so its queue is ordered by `valid_at`: what a check pops is all
    that is due and what it leaves is all that is not. Of a queue that never fills, nothing else takes
    anything away. A prediction is compared with the first update that is due for it, unless its window has
    passed by then. -/

namespace Airspace

noncomputable section

open Classical

namespace ConformanceMonitor

variable {m : ConformanceMonitor} {trackId : String} {u v w : TrackUpdate} {p : PendingPrediction}
  {us before mid later : List TrackUpdate}

/-! ### One check -/

/-- The monitor an update is checked on: its window has the update. -/
def withWindow (m : ConformanceMonitor) (u : TrackUpdate) : ConformanceMonitor :=
  { m with windows := m.windows.set u.trackId (m.windowAfter u) }

/-- The predictions a check takes from the queue. -/
def popped (m : ConformanceMonitor) (u : TrackUpdate) : List PendingPrediction :=
  (m.queueOf u.trackId).items.takeWhile (due u)

/-- Its moment is further back than the tolerance. -/
def overdue (u : TrackUpdate) (p : PendingPrediction) : Bool :=
  decide (u.updatedAt > p.validAt + timedelta matchToleranceS)

/-- The predictions a check compares with its update. -/
def compared (m : ConformanceMonitor) (u : TrackUpdate) : List PendingPrediction :=
  (m.popped u).filter fun p => !overdue u p

def errorNm (u : TrackUpdate) (p : PendingPrediction) : ℝ := haversineNm p.lat p.lon u.lat u.lon

/-- The error is above the threshold of the prediction's own source. -/
def Deviates (m : ConformanceMonitor) (u : TrackUpdate) (p : PendingPrediction) : Prop :=
  errorNm u p > m.thresholdFor (decide (p.source = .model))

/-- The finding a prediction leads to. -/
def findingOf (m : ConformanceMonitor) (u : TrackUpdate) (p : PendingPrediction) : NonConformance where
  trackId := u.trackId
  callsign := u.callsign
  predictedAt := p.predictedAt
  horizonS := m.horizonS
  errorNm := errorNm u p
  baselineErrorNm := haversineNm p.baselineLat p.baselineLon u.lat u.lon
  thresholdNm := m.thresholdFor (decide (p.source = .model))
  predictorVersion := p.predictorVersion
  usedModel := decide (p.source = .model)

theorem judge_eq (finding : Option NonConformance) (p : PendingPrediction) : m.judge u finding p =
    if overdue u p then finding
    else if m.Deviates u p ∧ ∀ f ∈ finding, errorNm u p > f.errorNm then some (m.findingOf u p)
    else finding := by
  simp only [judge, overdue, decide_eq_true_eq]
  rfl

/-- The loop keeps the first of the largest errors among the compared predictions that deviate. -/
theorem foldl_judge (queue : List PendingPrediction) : queue.foldl (m.judge u) none =
    (((queue.filter fun p => !overdue u p).filter fun p => decide (m.Deviates u p)).argmax (errorNm u)).map
      (m.findingOf u) := by
  induction queue using List.reverseRecOn with
  | nil => rfl
  | append_singleton queue p ih =>
    rw [List.foldl_append, List.foldl_cons, List.foldl_nil, ih, List.filter_append, List.filter_append,
      judge_eq]
    by_cases hover : overdue u p = true
    · simp [hover]
    · by_cases hdev : m.Deviates u p
      · have hkept : ([p].filter fun p => !overdue u p).filter (fun p => decide (m.Deviates u p)) = [p] := by
          simp [hover, hdev]
        rw [if_neg hover, hkept, List.argmax_concat]
        cases ((queue.filter fun p => !overdue u p).filter fun p => decide (m.Deviates u p)).argmax
            (errorNm u) with
        | none => exact if_pos ⟨hdev, by simp⟩
        | some q =>
          have hheld : (∀ f ∈ (some q).map (m.findingOf u), errorNm u p > f.errorNm) ↔
              errorNm u q < errorNm u p := by simp [findingOf]
          simp only [hdev, hheld, true_and]
          split_ifs <;> rfl
      · have hkept : ([p].filter fun p => !overdue u p).filter (fun p => decide (m.Deviates u p)) = [] := by
          simp [hdev]
        rw [if_neg hover, hkept, List.append_nil, if_neg fun h => hdev h.1]

/-- A check finds something exactly when a compared prediction deviates, and then one of the worst. -/
theorem checkMatured_finding (m : ConformanceMonitor) (u : TrackUpdate) :
    ((∃ f, (m.checkMatured u).2 = some f) ↔ ∃ p ∈ m.compared u, m.Deviates u p) ∧
    ∀ f, (m.checkMatured u).2 = some f → ∃ p ∈ m.compared u, m.Deviates u p ∧ f = m.findingOf u p ∧
      ∀ q ∈ m.compared u, m.Deviates u q → errorNm u q ≤ errorNm u p := by
  have hfinding : (m.checkMatured u).2 =
      (((m.compared u).filter fun p => decide (m.Deviates u p)).argmax (errorNm u)).map (m.findingOf u) := by
    rw [compared, ← foldl_judge]
    simp only [checkMatured, popped, queueOf]
    cases m.pending.get? u.trackId <;> rfl
  have hmem : ∀ p, p ∈ (m.compared u).filter (fun p => decide (m.Deviates u p)) ↔
      p ∈ m.compared u ∧ m.Deviates u p := by simp [List.mem_filter]
  rw [hfinding]
  refine ⟨⟨?_, ?_⟩, ?_⟩
  · rintro ⟨f, hf⟩
    obtain ⟨p, hp, -⟩ := Option.map_eq_some_iff.mp hf
    exact ⟨p, (hmem p).mp (List.argmax_mem hp)⟩
  · rintro ⟨p, hp⟩
    cases hworst : ((m.compared u).filter fun p => decide (m.Deviates u p)).argmax (errorNm u) with
    | none =>
      have hnil := List.argmax_eq_none.mp hworst
      have := (hmem p).mpr hp
      rw [hnil] at this
      cases this
    | some q => exact ⟨_, rfl⟩
  · intro f hf
    obtain ⟨p, hp, rfl⟩ := Option.map_eq_some_iff.mp hf
    obtain ⟨hp', hdev⟩ := (hmem p).mp (List.argmax_mem hp)
    exact ⟨p, hp', hdev, rfl, fun q hq hdevq => List.le_of_mem_argmax ((hmem q).mpr ⟨hq, hdevq⟩) hp⟩

/-- What a check leaves. -/
theorem queueOf_checkMatured (m : ConformanceMonitor) (u : TrackUpdate) :
    ((m.checkMatured u).1.queueOf u.trackId).items = (m.queueOf u.trackId).items.dropWhile (due u) := by
  simp only [checkMatured]
  cases hget : m.pending.get? u.trackId with
  | none => simp [queueOf, hget]
  | some queue => simp [queueOf, hget, Dict.get?_set]

/-! ### Runs in order -/

/-- The predictions the updates of a run leave behind, in order. -/
def made (m : ConformanceMonitor) : List TrackUpdate → List PendingPrediction
  | [] => []
  | u :: us => m.predictionOf u :: (m.observe u).1.made us

/-- The predictions the checks of a run take, in order. -/
def taken (m : ConformanceMonitor) : List TrackUpdate → List PendingPrediction
  | [] => []
  | u :: us => m.popped u ++ (m.observe u).1.taken us

theorem made_append (m : ConformanceMonitor) (us vs : List TrackUpdate) :
    m.made (us ++ vs) = m.made us ++ (m.after us).made vs := by
  induction us generalizing m with
  | nil => rfl
  | cons u us ih => exact congrArg (List.cons _) (ih _)

theorem made_concat (m : ConformanceMonitor) (us : List TrackUpdate) (u : TrackUpdate) :
    m.made (us ++ [u]) = m.made us ++ [(m.after us).predictionOf u] := made_append m us [u]

theorem taken_concat (m : ConformanceMonitor) (us : List TrackUpdate) (u : TrackUpdate) :
    m.taken (us ++ [u]) = m.taken us ++ (m.after us).popped u := by
  induction us generalizing m with
  | nil => simp [taken, after]
  | cons v us ih =>
    rw [List.cons_append, taken, ih, taken, List.append_assoc]
    rfl

theorem validAt_made (m : ConformanceMonitor) (us : List TrackUpdate) :
    (m.made us).map (·.validAt) = us.map fun u => u.updatedAt + timedelta m.horizonS := by
  induction us generalizing m with
  | nil => rfl
  | cons u us ih =>
    rw [made, List.map_cons, ih, horizonS_observe]
    rfl

theorem length_made (m : ConformanceMonitor) (us : List TrackUpdate) : (m.made us).length = us.length := by
  have h := congrArg List.length (validAt_made m us)
  simpa only [List.length_map] using h

/-- The predictions of updates in order are in order. -/
theorem sorted_made (h : Ordered us) : (m.made us).Pairwise (·.validAt ≤ ·.validAt) := by
  rw [← List.pairwise_map (R := (· ≤ ·)), validAt_made, List.pairwise_map]
  exact h.imp fun hle => Int.add_le_add_right hle _

/-- What is queued is the newest of what was made. -/
theorem queue_suffix_made (hnew : m.queueOf trackId = Deque.empty) (hone : ∀ u ∈ us, u.trackId = trackId) :
    ((m.after us).queueOf trackId).items <:+ m.made us := by
  induction us using List.reverseRecOn with
  | nil =>
    change (m.queueOf trackId).items <:+ []
    rw [hnew]
    exact List.suffix_rfl
  | append_singleton us u ih =>
    have ih' := ih fun v hv => hone v (List.mem_append_left _ hv)
    rw [queue_concat (hone u (by simp)), made_concat]
    refine (Deque.refill_suffix _ _ _).trans ?_
    obtain ⟨gone, hgone⟩ := ih'
    exact ⟨gone, by rw [← List.append_assoc, hgone]⟩

/-- What a check leaves is what is not due. -/
theorem dropWhile_due {queue : List PendingPrediction} (h : queue.Pairwise (·.validAt ≤ ·.validAt)) :
    queue.dropWhile (due u) =
      queue.filter fun p => decide (u.updatedAt + timedelta matchToleranceS < p.validAt) := by
  rw [Deque.dropWhile_eq_filter]
  · refine congrArg (queue.filter ·) (funext fun p => ?_)
    rw [due, Bool.not_not, decide_eq_decide, lt_sub_iff_add_lt]
  · refine h.imp fun {a b} hle hdue => ?_
    rw [← Bool.not_eq_false, due_eq_false, not_lt] at hdue ⊢
    exact (sub_le_sub_right hle _).trans hdue

/-- The queue of a track is not full before, between and after some updates. -/
def BelowCapacity (m : ConformanceMonitor) (trackId : String) (us : List TrackUpdate) : Prop :=
  ∀ before later, us = before ++ later → ((m.after before).queueOf trackId).items.length < queueLength

/-- Below capacity nothing is taken but by the checks. -/
theorem made_eq_taken (hnew : m.queueOf trackId = Deque.empty) (hone : ∀ u ∈ us, u.trackId = trackId)
    (hbelow : m.BelowCapacity trackId us) :
    m.made us = m.taken us ++ ((m.after us).queueOf trackId).items := by
  induction us using List.reverseRecOn with
  | nil =>
    change [] = [] ++ (m.queueOf trackId).items
    rw [hnew]
    rfl
  | append_singleton us u ih =>
    have ih' := ih (fun v hv => hone v (List.mem_append_left _ hv))
      fun before later h => hbelow before (later ++ [u]) (by rw [h, List.append_assoc])
    have hu := hone u (by simp)
    have hroom : (((m.after us).queueOf trackId).items.dropWhile (due u)).length < queueLength :=
      (List.dropWhile_sublist _).length_le.trans_lt (hbelow us [u] rfl)
    rw [queue_concat hu, made_concat, taken_concat, Deque.items_append, Deque.items_dropWhile,
      Deque.appendItems, if_pos hroom, ih', popped, hu]
    rw [← List.append_assoc _ _ [_], List.append_assoc (m.taken us) (List.takeWhile _ _),
      List.takeWhile_append_dropWhile]

/-- Of a track whose updates come in order and whose queue stays below its capacity: the checks take every
    prediction at most once, compare it within the tolerance of its moment, leave exactly what is not due,
    and report one of the worst of the compared predictions above their thresholds. -/
theorem predictions_are_judged_once (hnew : m.queueOf trackId = Deque.empty)
    (hone : ∀ u ∈ us, u.trackId = trackId) (horder : Ordered us) (hbelow : m.BelowCapacity trackId us) :
    m.made us = m.taken us ++ ((m.after us).queueOf trackId).items ∧
    ∀ before u later, us = before ++ u :: later →
      let n := (m.after before).withWindow u
      let queue := (n.queueOf trackId).items
      let kept := ((n.checkMatured u).1.queueOf trackId).items
      (kept <:+ queue ∧
        kept = queue.filter fun p => decide (u.updatedAt + timedelta matchToleranceS < p.validAt)) ∧
      (∀ p ∈ n.compared u, p.validAt - timedelta matchToleranceS ≤ u.updatedAt ∧
        u.updatedAt ≤ p.validAt + timedelta matchToleranceS) ∧
      ((∃ f, (n.checkMatured u).2 = some f) ↔ ∃ p ∈ n.compared u, n.Deviates u p) ∧
      ∀ f, (n.checkMatured u).2 = some f → ∃ p ∈ n.compared u, n.Deviates u p ∧ f = n.findingOf u p ∧
        ∀ q ∈ n.compared u, n.Deviates u q → errorNm u q ≤ errorNm u p := by
  refine ⟨made_eq_taken hnew hone hbelow, ?_⟩
  intro before u later hus n queue kept
  have hu : u.trackId = trackId := hone u (by rw [hus]; simp)
  have hbefore : ∀ v ∈ before, v.trackId = trackId := fun v hv => hone v (by rw [hus]; simp [hv])
  have hsorted : queue.Pairwise (·.validAt ≤ ·.validAt) := by
    refine List.Pairwise.sublist (queue_suffix_made hnew hbefore).sublist (sorted_made ?_)
    exact horder.sublist (hus ▸ List.sublist_append_left _ _)
  have hkept : kept = queue.dropWhile (due u) := by
    have := queueOf_checkMatured n u
    rwa [hu] at this
  refine ⟨⟨hkept ▸ List.dropWhile_suffix _, hkept.trans (dropWhile_due hsorted)⟩, ?_,
    checkMatured_finding n u⟩
  intro p hp
  obtain ⟨hpopped, hover⟩ := List.mem_filter.mp hp
  refine ⟨?_, ?_⟩
  · have hdue := List.mem_takeWhile_imp hpopped
    rwa [← Bool.not_eq_false, due_eq_false, not_lt] at hdue
  · simpa [overdue] using hover

/-- A run of fewer than 256 updates cannot fill the queue. -/
theorem belowCapacity_of_length (hnew : m.queueOf trackId = Deque.empty)
    (hone : ∀ u ∈ us, u.trackId = trackId) (hlength : us.length < queueLength) :
    m.BelowCapacity trackId us := by
  rintro before later rfl
  have hqueue := (queue_suffix_made hnew fun v hv => hone v (List.mem_append_left _ hv)).length_le
  rw [length_made] at hqueue
  rw [List.length_append] at hlength
  omega

theorem predictions_are_judged_once_two :
    fiveMinutes.made [onTheSecond 0, onTheSecond 60] = fiveMinutes.taken [onTheSecond 0, onTheSecond 60] ++
      ((fiveMinutes.after [onTheSecond 0, onTheSecond 60]).queueOf "trk-abc123").items := by
  have hone : ∀ u ∈ [onTheSecond 0, onTheSecond 60], u.trackId = "trk-abc123" := by
    intro u hu
    rcases List.mem_pair.mp hu with rfl | rfl <;> rfl
  refine (predictions_are_judged_once rfl hone ?_ (belowCapacity_of_length rfl hone (by decide))).1
  exact List.pairwise_pair.mpr (updatedAt_onTheSecond_le (by decide))

end ConformanceMonitor

end

end Airspace
