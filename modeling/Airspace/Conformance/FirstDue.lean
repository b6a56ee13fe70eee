import Airspace.Conformance.Maturity
import Airspace.Lib.Prefixes

/-! The update a prediction is compared with.

    It is the first one at or after `valid_at` minus the tolerance, whether or not a nearer one follows: the
    comparison is made as that update arrives. So a prediction is compared with the nearest update only where
    no later one falls between the first of the window and its mirror image about `valid_at`. -/

namespace Airspace

noncomputable section

open Classical

/-- No distance between a point and itself. -/
theorem haversineNm_self (lat lon : ℝ) : haversineNm lat lon lat lon = 0 := by
  simp [haversineNm, radians]

namespace ConformanceMonitor

variable {m : ConformanceMonitor} {trackId : String} {u v w : TrackUpdate} {p : PendingPrediction}
  {us before mid later : List TrackUpdate}

/-- The prediction made at `u` is compared with the update `v` that comes after it and `mid`: the check at
    `v` takes it from its place in the queue, and its window has not passed. -/
def ComparedWith (m : ConformanceMonitor) (trackId : String) (before : List TrackUpdate) (u : TrackUpdate)
    (mid : List TrackUpdate) (v : TrackUpdate) : Prop :=
  let p := (m.after before).predictionOf u
  ∃ front back, ((m.after (before ++ u :: mid)).queueOf trackId).items = front ++ p :: back ∧
    back.length = mid.length ∧ (∀ q ∈ front ++ [p], due v q = true) ∧ overdue v p = false

theorem due_eq_true : due w p = true ↔ p.validAt - timedelta matchToleranceS ≤ w.updatedAt := by
  rw [← Bool.not_eq_false, due_eq_false, not_lt]

/-- The window of a prediction: due, and not overdue. -/
theorem inWindow_iff : |w.updatedAt - p.validAt| ≤ timedelta matchToleranceS ↔
    due w p = true ∧ overdue w p = false := by
  rw [abs_le, due_eq_true, overdue, decide_eq_false_iff_not, not_lt]
  constructor <;> rintro ⟨hlow, hhigh⟩ <;> constructor <;> linarith

/-- One more update adds at most one prediction. -/
theorem length_queue_append (hone : ∀ w ∈ mid, w.trackId = trackId) :
    ((m.after (us ++ mid)).queueOf trackId).items.length ≤
      ((m.after us).queueOf trackId).items.length + mid.length := by
  induction mid using List.reverseRecOn with
  | nil => rw [List.append_nil]; exact le_rfl
  | append_singleton mid w ih =>
    have hstep := ih fun w' hw' => hone w' (List.mem_append_left _ hw')
    rw [← List.append_assoc, queue_concat (hone w (by simp)), List.length_append, List.length_singleton]
    have hlength := (Deque.refill_suffix ((m.after (us ++ mid)).queueOf trackId) (due w)
      ((m.after (us ++ mid)).predictionOf w)).length_le
    rw [List.length_append, List.length_singleton] at hlength
    omega

/-- An update that is due for a prediction leaves at most the predictions made after it. -/
theorem length_queue_of_due (hnew : m.queueOf trackId = Deque.empty)
    (hone : ∀ x ∈ before ++ u :: (mid ++ [w]), x.trackId = trackId)
    (horder : Ordered (before ++ u :: (mid ++ [w]))) (hdue : due w ((m.after before).predictionOf u) = true) :
    ((m.after (before ++ u :: (mid ++ [w]))).queueOf trackId).items.length ≤ mid.length + 1 := by
  set p := (m.after before).predictionOf u with hp
  have hsplit : before ++ u :: (mid ++ [w]) = before ++ u :: mid ++ [w] := by simp
  rw [hsplit] at hone horder ⊢
  have hone' : ∀ w' ∈ before ++ u :: mid, w'.trackId = trackId := fun w' hw' =>
    hone w' (List.mem_append_left _ hw')
  have horder' : Ordered (before ++ u :: mid) := horder.sublist (List.sublist_append_left _ _)
  set back := ((m.after before).observe u).1.made mid with hback
  have hmade : m.made (before ++ u :: mid) = (m.made before ++ [p]) ++ back := by
    rw [made_append, made, List.append_assoc]
    rfl
  have hsuffix := queue_suffix_made hnew hone'
  have hsorted := sorted_made (m := m) horder'
  have hfront : (m.made before ++ [p]).filter (fun q => !due w q) = [] := by
    rw [List.filter_eq_nil_iff]
    intro q hq
    have hle : q.validAt ≤ p.validAt := by
      rw [hmade] at hsorted
      rcases List.mem_append.mp hq with hq | hq
      · exact (List.pairwise_append.mp (List.pairwise_append.mp hsorted).1).2.2 q hq p (by simp)
      · rw [List.mem_singleton.mp hq]
    have hq' : due w q = true := due_eq_true.mpr ((sub_le_sub_right hle _).trans (due_eq_true.mp hdue))
    simp [hq']
  have hleft : (((m.after (before ++ u :: mid)).queueOf trackId).items.dropWhile (due w)).length ≤
      mid.length := by
    rw [Deque.dropWhile_eq_filter]
    · calc (((m.after (before ++ u :: mid)).queueOf trackId).items.filter fun q => !due w q).length
          ≤ ((m.made (before ++ u :: mid)).filter fun q => !due w q).length :=
            (hsuffix.sublist.filter _).length_le
        _ = (back.filter fun q => !due w q).length := by
            rw [hmade, List.filter_append, hfront, List.nil_append]
        _ ≤ back.length := List.length_filter_le _ _
        _ = mid.length := length_made _ _
    · refine (hsorted.sublist hsuffix.sublist).imp fun {a b} hle hb => ?_
      exact due_eq_true.mpr ((sub_le_sub_right hle _).trans (due_eq_true.mp hb))
  rw [queue_concat (hone w (by simp)), Deque.items_append]
  refine (Deque.appendItems_suffix _ _).length_le.trans ?_
  rw [List.length_append, List.length_singleton]
  exact Nat.add_le_add_right hleft 1

/-- A prediction is compared with the first update that is due for it, unless its window has passed by then
    or 256 updates have come. -/
theorem comparedWith_iff (hnew : m.queueOf trackId = Deque.empty)
    (hone : ∀ x ∈ before ++ u :: (mid ++ v :: later), x.trackId = trackId)
    (horder : Ordered (before ++ u :: (mid ++ v :: later))) :
    m.ComparedWith trackId before u mid v ↔ mid.length < queueLength ∧
      (∀ w ∈ mid, due w ((m.after before).predictionOf u) = false) ∧
      due v ((m.after before).predictionOf u) = true ∧ overdue v ((m.after before).predictionOf u) = false := by
  constructor
  · rintro ⟨front, back, hqueue, hback, hdue, hover⟩
    have hwaits : Waits ((m.after (before ++ u :: mid)).queueOf trackId).items
        ((m.after before).predictionOf u) mid.length := ⟨front, back, hqueue, hback⟩
    have hlength := hwaits.length_le
    refine ⟨hlength.trans (Deque.bound _), fun w hw => ?_, hdue _ (by simp), hover⟩
    -- an update that was due would have taken it
    by_contra hearly
    obtain ⟨mid₁, mid₂, rfl⟩ := List.append_of_mem hw
    have hrun : before ++ u :: (mid₁ ++ w :: mid₂ ++ v :: later) =
        (before ++ u :: (mid₁ ++ [w])) ++ (mid₂ ++ v :: later) := by simp
    rw [hrun] at hone horder
    have htaken := length_queue_of_due hnew (fun x hx => hone x (List.mem_append_left _ hx))
      (horder.sublist (List.sublist_append_left _ _)) ((Bool.not_eq_false _).mp hearly)
    have hsame : before ++ u :: (mid₁ ++ w :: mid₂) = before ++ u :: (mid₁ ++ [w]) ++ mid₂ := by simp
    have hgrown : ((m.after (before ++ u :: (mid₁ ++ w :: mid₂))).queueOf trackId).items.length ≤
        ((m.after (before ++ u :: (mid₁ ++ [w]))).queueOf trackId).items.length + mid₂.length := by
      rw [hsame]
      exact length_queue_append fun x hx => hone x (by simp [hx])
    rw [List.length_append, List.length_cons] at hlength
    omega
  · rintro ⟨hroom, hnot, hdue, hover⟩
    have hrun : before ++ u :: (mid ++ v :: later) = (before ++ u :: mid) ++ v :: later := by simp
    have hone' : ∀ x ∈ before ++ u :: mid, x.trackId = trackId := fun x hx =>
      hone x (hrun ▸ List.mem_append_left _ hx)
    obtain ⟨front, back, hqueue, hback⟩ := waits_of_not_due
      (fun x hx => hone' x (List.mem_append_right _ hx)) hnot hroom
    refine ⟨front, back, hqueue, hback, fun q hq => ?_, hover⟩
    have hsorted := (sorted_made (m := m) (horder.sublist (hrun ▸ List.sublist_append_left _ _))).sublist
      (queue_suffix_made hnew hone').sublist
    rw [hqueue] at hsorted
    have hle : q.validAt ≤ ((m.after before).predictionOf u).validAt := by
      rcases List.mem_append.mp hq with hq | hq
      · exact (List.pairwise_append.mp hsorted).2.2 q hq _ (List.mem_cons_self ..)
      · rw [List.mem_singleton.mp hq]
    exact due_eq_true.mpr ((sub_le_sub_right hle _).trans (due_eq_true.mp hdue))

/-! ### The nearest update -/

/-- Every prediction with an update in its window is compared with a nearest one; so it is given no error if
    the track is where predicted at its moment. -/
structure JudgedAtMoment (m : ConformanceMonitor) (trackId : String) (us : List TrackUpdate) : Prop where
  nearest : ∀ before u later, us = before ++ u :: later →
    let p := (m.after before).predictionOf u
    (∃ w ∈ later, |w.updatedAt - p.validAt| ≤ timedelta matchToleranceS) →
      ∃ mid v rest, later = mid ++ v :: rest ∧ m.ComparedWith trackId before u mid v ∧
        ∀ w ∈ later, |v.updatedAt - p.validAt| ≤ |w.updatedAt - p.validAt|
  as_predicted : ∀ before u later, us = before ++ u :: later →
    let p := (m.after before).predictionOf u
    (∃ w ∈ later, w.updatedAt = p.validAt) →
    (∀ w ∈ later, w.updatedAt = p.validAt → w.lat = p.lat ∧ w.lon = p.lon) →
      ∃ mid v rest, later = mid ++ v :: rest ∧ m.ComparedWith trackId before u mid v ∧ errorNm v p = 0

/-- For every update: fewer than 256 come between it and the first one in the window of its prediction, and
    none comes after that one and before its mirror image about the prediction's moment. -/
def FirstIsNearest (m : ConformanceMonitor) (us : List TrackUpdate) : Prop :=
  ∀ before u mid v later, us = before ++ u :: (mid ++ v :: later) →
    let moment := u.updatedAt + timedelta m.horizonS
    (∀ w ∈ mid, w.updatedAt < moment - timedelta matchToleranceS) →
    |v.updatedAt - moment| ≤ timedelta matchToleranceS →
      mid.length < queueLength ∧ ∀ w ∈ later, v.updatedAt < w.updatedAt → 2 * moment - v.updatedAt ≤ w.updatedAt

/-- The nearest update of a window gives a prediction that holds no error. -/
theorem as_predicted_of_nearest {p : PendingPrediction} (hexact : ∃ w ∈ later, w.updatedAt = p.validAt)
    (hthere : ∀ w ∈ later, w.updatedAt = p.validAt → w.lat = p.lat ∧ w.lon = p.lon) (hv : v ∈ later)
    (hnearest : ∀ w ∈ later, |v.updatedAt - p.validAt| ≤ |w.updatedAt - p.validAt|) : errorNm v p = 0 := by
  obtain ⟨w, hw, hat⟩ := hexact
  have hzero := hnearest w hw
  rw [hat, sub_self, abs_zero, abs_nonpos_iff, sub_eq_zero] at hzero
  obtain ⟨hlat, hlon⟩ := hthere v hv hzero
  rw [errorNm, hlat, hlon, haversineNm_self]

/-- Of two updates in order, the later is nearer to a moment only between the first and its mirror image. -/
theorem abs_le_of_mirror {moment a b : ℤ} (hab : a ≤ b) (hmirror : a < b → 2 * moment - a ≤ b) :
    |a - moment| ≤ |b - moment| := by
  rcases hab.eq_or_lt with rfl | hlt
  · exact le_rfl
  · have hfar := hmirror hlt
    rcases abs_cases (a - moment) with ⟨ha, ha'⟩ | ⟨ha, ha'⟩ <;>
      rcases abs_cases (b - moment) with ⟨hb, hb'⟩ | ⟨hb, hb'⟩ <;> omega

theorem mirror_of_abs_le {moment a b : ℤ} (hlt : a < b) (h : |a - moment| ≤ |b - moment|) :
    2 * moment - a ≤ b := by
  rcases abs_cases (a - moment) with ⟨ha, ha'⟩ | ⟨ha, ha'⟩ <;>
    rcases abs_cases (b - moment) with ⟨hb, hb'⟩ | ⟨hb, hb'⟩ <;> omega

section Run

variable (hnew : m.queueOf trackId = Deque.empty) (hone : ∀ u ∈ us, u.trackId = trackId) (horder : Ordered us)

include hnew hone horder

theorem firstIsNearest_of_judged (h : m.JudgedAtMoment trackId us) : m.FirstIsNearest us := by
  rintro before u mid v later rfl moment hmid hv
  set p := (m.after before).predictionOf u with hp
  have hvalid : p.validAt = moment := by rw [hp, validAt_predictionOf, horizonS_after]
  rw [← hvalid] at hmid hv ⊢
  obtain ⟨mid', v', rest, hsplit, hcompared, hnearest⟩ := h.nearest before u (mid ++ v :: later) rfl
    ⟨v, by simp, hv⟩
  rw [hsplit] at hone horder
  obtain ⟨hroom, hnot, hdue, -⟩ := (comparedWith_iff hnew hone horder).mp hcompared
  -- the first update that is due stands in one place
  obtain ⟨rfl, rfl, rfl⟩ := first_unique (p := fun w => due w p = true) hsplit
    (fun w hw hdue => by rw [due_eq_false.mpr (hmid w hw)] at hdue; cases hdue) (inWindow_iff.mp hv).1
    (fun w hw hdue => by rw [hnot w hw] at hdue; cases hdue) hdue
  exact ⟨hroom, fun w hw hlt => mirror_of_abs_le hlt (hnearest w (by simp [hw]))⟩

/-- The first update of a window, if none between it and its mirror image follows. -/
theorem exists_comparedWith (h : m.FirstIsNearest us) (hus : us = before ++ u :: later)
    (hwindow : ∃ w ∈ later, |w.updatedAt - ((m.after before).predictionOf u).validAt| ≤
      timedelta matchToleranceS) :
    ∃ mid v rest, later = mid ++ v :: rest ∧ m.ComparedWith trackId before u mid v ∧
      ∀ w ∈ later, |v.updatedAt - ((m.after before).predictionOf u).validAt| ≤
        |w.updatedAt - ((m.after before).predictionOf u).validAt| := by
  set p := (m.after before).predictionOf u with hp
  obtain ⟨w, hw, hnear⟩ := hwindow
  obtain ⟨mid, v, rest, rfl, hnot, hdue⟩ := exists_first (p := fun w => due w p = true)
    ⟨w, hw, (inWindow_iff.mp hnear).1⟩
  subst hus
  have hrest : ∀ x ∈ v :: rest, v.updatedAt ≤ x.updatedAt := by
    have hsub : Ordered (v :: rest) := horder.sublist
      (((List.sublist_append_right mid _).trans (List.sublist_cons_self u _)).trans
        (List.sublist_append_right before _))
    intro x hx
    rcases List.mem_cons.mp hx with rfl | hx
    · exact le_rfl
    · exact (List.pairwise_cons.mp hsub).1 x hx
  have hmid : ∀ x ∈ mid, due x p = false := fun x hx => (Bool.not_eq_true _).mp (hnot x hx)
  have hv : |v.updatedAt - p.validAt| ≤ timedelta matchToleranceS := by
    have hle : v.updatedAt ≤ w.updatedAt := by
      rcases List.mem_append.mp hw with hw | hw
      · exact absurd (inWindow_iff.mp hnear).1 (hnot w hw)
      · exact hrest w hw
    have hlow := due_eq_true.mp hdue
    have hhigh := (abs_le.mp hnear).2
    exact abs_le.mpr ⟨by linarith, by linarith⟩
  have hvalid : p.validAt = u.updatedAt + timedelta m.horizonS := by
    rw [hp, validAt_predictionOf, horizonS_after]
  obtain ⟨hroom, hmirror⟩ := h before u mid v rest rfl
    (fun x hx => by rw [← hvalid]; exact due_eq_false.mp (hmid x hx)) (by rw [← hvalid]; exact hv)
  rw [← hvalid] at hmirror
  refine ⟨mid, v, rest, rfl,
    (comparedWith_iff hnew hone horder).mpr ⟨hroom, hmid, hdue, (inWindow_iff.mp hv).2⟩, fun x hx => ?_⟩
  rcases List.mem_append.mp hx with hx | hx
  · -- what comes before the window is further away than the tolerance
    refine hv.trans ?_
    have hearly := due_eq_false.mp (hmid x hx)
    exact le_abs.mpr (.inr (by linarith))
  · refine abs_le_of_mirror (hrest x hx) fun hlt => ?_
    rcases List.mem_cons.mp hx with rfl | hx
    · exact absurd hlt (lt_irrefl _)
    · exact hmirror x hx hlt

/-- Of a track whose updates come in order, every prediction is compared with the nearest update exactly when
    the first update of its window is the nearest and comes before the queue is full. -/
theorem predictions_judged_at_moment_iff : m.JudgedAtMoment trackId us ↔ m.FirstIsNearest us := by
  refine ⟨firstIsNearest_of_judged hnew hone horder, fun h => ⟨fun before u later hus hwindow => ?_, ?_⟩⟩
  · exact exists_comparedWith hnew hone horder h hus hwindow
  · intro before u later hus p hexact hthere
    obtain ⟨w, hw, hat⟩ := hexact
    obtain ⟨mid, v, rest, hsplit, hcompared, hnearest⟩ := exists_comparedWith hnew hone horder h hus
      ⟨w, hw, by rw [hat, sub_self, abs_zero]; decide +kernel⟩
    exact ⟨mid, v, rest, hsplit, hcompared,
      as_predicted_of_nearest ⟨w, hw, hat⟩ hthere (by rw [hsplit]; simp) hnearest⟩

end Run

def oneMinute : ConformanceMonitor := { predictor := physicsPredictor 60 }

theorem predictions_judged_at_moment_exact :
    oneMinute.JudgedAtMoment "trk-abc123" [onTheSecond 0, onTheSecond 60] := by
  refine (predictions_judged_at_moment_iff rfl ?_ ?_).mpr ?_
  · intro u hu
    rcases List.mem_pair.mp hu with rfl | rfl <;> rfl
  · exact List.pairwise_pair.mpr (updatedAt_onTheSecond_le (by decide))
  · intro before u mid v later hus moment _ _
    have hlength := congrArg List.length hus
    simp only [List.length_append, List.length_cons, List.length_nil] at hlength
    have hmid : mid.length = 0 := by omega
    have hlater : later = [] := List.eq_nil_of_length_eq_zero (by omega)
    exact ⟨by rw [hmid]; decide, by simp [hlater]⟩

/-- An update at 57 s and one at the very moment: the prediction is compared with the first. -/
theorem prediction_judged_three_seconds_early : ¬ ∀ (m : ConformanceMonitor) (trackId : String)
    (us : List TrackUpdate), m.queueOf trackId = Deque.empty → (∀ u ∈ us, u.trackId = trackId) → Ordered us →
      m.JudgedAtMoment trackId us := by
  intro h
  have hone : ∀ u ∈ [onTheSecond 0, onTheSecond 57, onTheSecond 60], u.trackId = "trk-abc123" := by
    intro u hu
    simp only [List.mem_cons, List.not_mem_nil, or_false] at hu
    rcases hu with rfl | rfl | rfl <;> rfl
  have horder : Ordered [onTheSecond 0, onTheSecond 57, onTheSecond 60] := by
    simp [Ordered, onTheSecond, seconds]
  have hnearest := firstIsNearest_of_judged rfl hone horder (h oneMinute "trk-abc123" _ rfl hone horder)
  have hhorizon : timedelta oneMinute.horizonS = seconds 60 := timedelta_ofNat 60
  have htolerance : timedelta matchToleranceS = seconds 3 := timedelta_ofNat 3
  obtain ⟨-, hmirror⟩ := hnearest [] (onTheSecond 0) [] (onTheSecond 57) [onTheSecond 60] rfl (by simp) (by
    rw [hhorizon, htolerance]
    simp [onTheSecond, seconds])
  rw [hhorizon] at hmirror
  exact absurd (hmirror (onTheSecond 60) (by simp) (by simp [onTheSecond, seconds])) (by
    simp [onTheSecond, seconds])

end ConformanceMonitor

end

end Airspace
