import Airspace.Conformance.AlertProtocol
import Airspace.Conformance.Attachment

/-! Redelivered updates.

    The topic is consumed at least once, so an update may arrive twice in a row. A terminated or overtaken
    update changes nothing the second time. An accepted one passes the guard again, which lets equal times
    through, and enters the window and the queue of its track once more; that goes unseen only where both
    are already full of it. -/

namespace Airspace

noncomputable section

open Classical

namespace ConformanceMonitor

variable {m : ConformanceMonitor} {update : TrackUpdate}

/-- The prediction from a window full of one update. -/
def predictionAt (m : ConformanceMonitor) (update : TrackUpdate) : PendingPrediction :=
  m.predictionFrom (List.replicate windowLength update) update

/-- The window ends with nineteen copies of the update, and the queue is full of their prediction too; or
    it has nothing but due predictions, where the horizon is so short that they are due at once. -/
structure FullOf (m : ConformanceMonitor) (update : TrackUpdate) : Prop where
  window : List.replicate (windowLength - 1) update <:+ (m.windowOf update.trackId).items
  queue : timedelta matchToleranceS < timedelta m.horizonS ∧
      List.replicate (queueLength - 1) (m.predictionAt update) <:+ (m.queueOf update.trackId).items ∨
    timedelta m.horizonS ≤ timedelta matchToleranceS ∧
      ∀ candidate ∈ (m.queueOf update.trackId).items, due update candidate = true

/-- A prediction is due at the update it was made at only if the horizon is within the tolerance. -/
theorem due_predictionFrom (window : List TrackUpdate) :
    due update (m.predictionFrom window update) = true ↔ timedelta m.horizonS ≤ timedelta matchToleranceS := by
  rw [due, Bool.not_eq_true', decide_eq_false_iff_not, not_lt]
  change update.updatedAt + timedelta m.horizonS - timedelta matchToleranceS ≤ update.updatedAt ↔ _
  rw [add_sub_assoc, add_le_iff_nonpos_right, sub_nonpos]

/-- A second copy leaves the monitor as it is exactly when it leaves its window and its queue. -/
theorem observe_again_iff : ((m.observe update).1.observe update).1 = (m.observe update).1 ↔
    (m.windowAfter update).append update = m.windowAfter update ∧
      ((m.queueAfter update).dropWhile (due update)).append
        (m.predictionFrom ((m.windowAfter update).append update).items update) = m.queueAfter update := by
  have hwindow : (m.observe update).1.windowAfter update = (m.windowAfter update).append update := by
    rw [windowAfter, windowOf_observe]
  have hqueue : (m.observe update).1.queueAfter update = ((m.queueAfter update).dropWhile (due update)).append
      (m.predictionFrom ((m.windowAfter update).append update).items update) := by
    rw [queueAfter, hwindow, queueOf_observe, observe_eq]
    rfl
  rw [observe_eq (m.observe update).1, hwindow, hqueue, observe_eq m]
  simp only [Dict.set_set, mk.injEq, true_and]
  constructor
  · rintro ⟨hw, hq⟩
    have hget := congrArg (fun d => d.get? update.trackId) hw
    have hget' := congrArg (fun d => d.get? update.trackId) hq
    simp only [Dict.get?_set, if_true, Option.some.injEq] at hget hget'
    exact ⟨hget, hget'⟩
  · rintro ⟨hw, hq⟩
    rw [hq, hw]
    exact ⟨rfl, rfl⟩

/-- With the window full of the update, a copy queues the update's own prediction. -/
theorem queueAfter_of_window (hwindow : (m.windowAfter update).items = List.replicate windowLength update) :
    m.queueAfter update =
      ((m.queueOf update.trackId).dropWhile (due update)).append (m.predictionAt update) := by
  rw [queueAfter, hwindow, predictionAt]

theorem due_predictionAt : due update (m.predictionAt update) = true ↔
    timedelta m.horizonS ≤ timedelta matchToleranceS := due_predictionFrom _

/-- With the window full of the update, a second copy leaves the queue as it is exactly when the queue is
    full of its prediction, or empty but for it. -/
theorem queue_again_iff (hwindow : (m.windowAfter update).items = List.replicate windowLength update) :
    ((m.queueAfter update).dropWhile (due update)).append (m.predictionAt update) = m.queueAfter update ↔
      timedelta matchToleranceS < timedelta m.horizonS ∧
        List.replicate (queueLength - 1) (m.predictionAt update) <:+ (m.queueOf update.trackId).items ∨
      timedelta m.horizonS ≤ timedelta matchToleranceS ∧
        ∀ candidate ∈ (m.queueOf update.trackId).items, due update candidate = true := by
  have hrefill : ((m.queueAfter update).dropWhile (due update)).append (m.predictionAt update) =
      m.queueAfter update ↔ _ := Deque.refill_eq_self_iff
  rw [hrefill, queueAfter_of_window hwindow]
  refine or_congr ?_ (and_congr due_predictionAt ?_)
  · have hnot : due update (m.predictionAt update) = false ↔
        timedelta matchToleranceS < timedelta m.horizonS := by
      rw [← Bool.not_eq_true, due_predictionAt, not_le]
    refine (and_congr_right fun h => ?_).trans (and_congr_left' hnot)
    exact Deque.append_eq_replicate_iff.trans (Deque.replicate_suffix_dropWhile_iff h)
  · refine Deque.append_eq_singleton_iff.trans ?_
    rw [Deque.items_dropWhile, List.dropWhile_eq_nil_iff]

/-- A second copy leaves the monitor as it is exactly when the monitor is full of it. -/
theorem observe_again_eq_iff :
    ((m.observe update).1.observe update).1 = (m.observe update).1 ↔ m.FullOf update := by
  have hwindow : (m.windowAfter update).items = List.replicate windowLength update ↔
      List.replicate (windowLength - 1) update <:+ (m.windowOf update.trackId).items :=
    Deque.append_eq_replicate_iff
  have hsame : (m.windowAfter update).items = List.replicate windowLength update →
      m.predictionFrom ((m.windowAfter update).append update).items update = m.predictionAt update := by
    intro h
    rw [Deque.append_eq_self_iff.mpr h, h, predictionAt]
  rw [observe_again_iff, Deque.append_eq_self_iff]
  constructor
  · rintro ⟨hw, hq⟩
    rw [hsame hw] at hq
    exact ⟨hwindow.mp hw, (queue_again_iff hw).mp hq⟩
  · rintro ⟨hw, hq⟩
    rw [← hwindow] at hw
    rw [hsame hw]
    exact ⟨hw, (queue_again_iff hw).mpr hq⟩

/-- The finding of a second copy: there is none unless the first copy's own prediction is due. -/
theorem finding_again (h : m.FullOf update) : ((m.observe update).1.observe update).2 =
    if timedelta m.horizonS ≤ timedelta matchToleranceS then
      m.judge update none (m.predictionAt update)
    else none := by
  have hwindow : (m.windowAfter update).items = List.replicate windowLength update :=
    Deque.append_eq_replicate_iff.mpr h.window
  have hjudge : (m.observe update).1.judge update = m.judge update := by
    rw [observe_eq]
    rfl
  rw [finding_observe, queueOf_observe, hjudge, queueAfter_of_window hwindow]
  rcases h.queue with ⟨hlong, hsuffix⟩ | ⟨hshort, hall⟩
  · have hnot : due update (m.predictionAt update) = false := by
      rw [← Bool.not_eq_true, due_predictionAt, not_le]
      exact hlong
    have hkept : List.replicate (queueLength - 1) (m.predictionAt update) <:+
        ((m.queueOf update.trackId).dropWhile (due update)).items :=
      (Deque.replicate_suffix_dropWhile_iff hnot).mpr hsuffix
    have hfull : (((m.queueOf update.trackId).dropWhile (due update)).append (m.predictionAt update)).items =
        List.replicate queueLength (m.predictionAt update) := Deque.append_eq_replicate_iff.mpr hkept
    rw [hfull, List.takeWhile_replicate, if_neg (by simp [hnot]), if_neg (not_le.mpr hlong)]
    rfl
  · have hempty : ((m.queueOf update.trackId).dropWhile (due update)).items = [] :=
      List.dropWhile_eq_nil_iff.mpr hall
    have hone : (((m.queueOf update.trackId).dropWhile (due update)).append (m.predictionAt update)).items =
        [m.predictionAt update] := Deque.append_eq_singleton_iff.mpr hempty
    rw [hone, if_pos hshort]
    simp [due_predictionAt.mpr hshort]

end ConformanceMonitor

namespace ConformanceRunner

variable {s a b : ConformanceRunner} {wall wall' : Instant} {context context' : Option SpanContext}
  {update : TrackUpdate} {m : ConformanceMonitor} {uuid4 : ℕ → String}

/-! ### Two services that agree -/

/-- What the two services hold of the tracks is the same. -/
structure Agree (a b : ConformanceRunner) : Prop where
  picture : a.picture = b.picture
  terminated : a.terminated = b.terminated
  conformance : a.conformance = b.conformance
  pendingConformance : a.pendingConformance = b.pendingConformance
  staleAfterS : a.staleAfterS = b.staleAfterS

theorem Agree.trans {c : ConformanceRunner} (h : Agree a b) (h' : Agree b c) : Agree a c :=
  ⟨h.picture.trans h'.picture, h.terminated.trans h'.terminated, h.conformance.trans h'.conformance,
    h.pendingConformance.trans h'.pendingConformance, h.staleAfterS.trans h'.staleAfterS⟩

/-- An update is folded in alike, whenever it comes. -/
theorem Agree.absorb (h : Agree a b) (wall wall' : Instant) (context context' : Option SpanContext)
    (update : TrackUpdate) : Agree (a.absorb wall context update) (b.absorb wall' context' update) := by
  have ho : a.overtaken update = b.overtaken update := by rw [overtaken, overtaken, h.picture]
  by_cases hstate : update.state = .terminated
  · rw [absorb_of_terminated hstate, absorb_of_terminated hstate]
    exact ⟨congrArg (·.erase update.trackId) h.picture, congrArg (insert update.trackId) h.terminated,
      h.conformance, h.pendingConformance, h.staleAfterS⟩
  cases hb : b.overtaken update with
  | true =>
    rw [absorb_of_overtaken hstate (ho.trans hb), absorb_of_overtaken hstate hb]
    exact ⟨h.picture, h.terminated, h.conformance, h.pendingConformance, h.staleAfterS⟩
  | false =>
    rw [absorb_of_accepted hstate (ho.trans hb), absorb_of_accepted hstate hb]
    refine ⟨?_, ?_, ?_, ?_, ?_⟩
    · rw [picture_observe, picture_observe]
      exact congrArg (·.set update.trackId update) h.picture
    · rw [terminated_observe, terminated_observe]
      exact h.terminated
    · rw [conformance_observe, conformance_observe]
      exact congrArg _ h.conformance
    · rw [pendingConformance_observe, pendingConformance_observe]
      simp only [h.conformance, h.pendingConformance]
    · rw [staleAfterS_observe, staleAfterS_observe]
      exact h.staleAfterS

/-- A scan releases the same tracks. -/
theorem Agree.scanNow (h : Agree a b) (now : Instant) (fault fault' : Option SinkFault) :
    Agree (a.scanNow uuid4 now fault).runner (b.scanNow uuid4 now fault').runner := by
  have hstale : (a.expireStale now).2 = (b.expireStale now).2 := by
    simp only [expireStale, h.picture, h.staleAfterS]
  have hvanished : a.vanished now = b.vanished now := by rw [vanished, vanished, hstale, h.terminated]
  refine ⟨?_, ?_, ?_, ?_, ?_⟩
  · rw [picture_scanNow, picture_scanNow]
    simp only [pruned, expireStale, h.picture, h.staleAfterS]
  · rw [terminated_scanNow, terminated_scanNow]
  · rw [conformance_scanNow, conformance_scanNow, h.conformance, hvanished]
  · rw [pendingConformance_scanNow, pendingConformance_scanNow]
  · rw [staleAfterS_scanNow, staleAfterS_scanNow, h.staleAfterS]

/-- What agrees goes on agreeing. -/
theorem Agree.after (h : Agree a b) (uuid4 : ℕ → String) (calls : List ConformanceCall) :
    Agree (a.after uuid4 calls) (b.after uuid4 calls) := by
  induction calls generalizing a b with
  | nil => exact h
  | cons call calls ih =>
    cases call with
    | absorb wall context update => exact ih (h.absorb wall wall context context update)
    | scanNow now fault => exact ih (h.scanNow now fault fault)

/-! ### A second copy -/

/-- The monitor is full of the update, and what a second copy would find is pending already. -/
structure FullOf (s : ConformanceRunner) (m : ConformanceMonitor) (update : TrackUpdate) : Prop where
  monitor : m.FullOf update
  finding : timedelta m.horizonS ≤ timedelta matchToleranceS →
    ∀ f ∈ m.judge update none (m.predictionAt update),
      ((m.queueOf update.trackId).items.foldl (m.judge update) none).or
        (s.pendingConformance.get? f.key) = some f

/-- A second copy of an accepted update is accepted. -/
theorem absorb_again (hstate : update.state ≠ .terminated) (ho : s.overtaken update = false) :
    Agree ((s.absorb wall context update).absorb wall' context' update)
      ((s.absorb wall context update).observe update) := by
  have hheld : (s.absorb wall context update).picture.get? update.trackId = some update := by
    rw [picture_absorb, if_pos rfl, if_neg hstate, ho]
    rfl
  have hagain : (s.absorb wall context update).overtaken update = false := by
    rw [overtaken, hheld]
    simp
  rw [absorb_of_accepted hstate hagain]
  refine ⟨?_, ?_, ?_, ?_, ?_⟩
  · rw [picture_observe, picture_observe]
    exact Dict.set_eq_self_iff.mpr hheld
  · rw [terminated_observe, terminated_observe]
  · rw [conformance_observe, conformance_observe]
  · rw [pendingConformance_observe, pendingConformance_observe]
  · rw [staleAfterS_observe, staleAfterS_observe]

/-- What the first copy leaves to the second. -/
theorem checked_absorb (hm : s.conformance = some m) (hstate : update.state ≠ .terminated)
    (ho : s.overtaken update = false) :
    (s.absorb wall context update).conformance = some (m.observe update).1 ∧
      (s.absorb wall context update).pendingConformance =
        (m.observe update).2.elim s.pendingConformance fun f => s.pendingConformance.set f.key f := by
  rw [absorb_of_accepted hstate ho, conformance_observe, pendingConformance_observe]
  simp only [hm]
  exact ⟨rfl, rfl⟩

/-- With all of its queue due, what is pending for the track after the first copy. -/
theorem get?_pending_absorb (hm : s.conformance = some m) (hstate : update.state ≠ .terminated)
    (ho : s.overtaken update = false) (hall : ∀ candidate ∈ (m.queueOf update.trackId).items,
      ConformanceMonitor.due update candidate = true) {f : NonConformance} (hf : f.trackId = update.trackId) :
    (s.absorb wall context update).pendingConformance.get? f.key =
      ((m.queueOf update.trackId).items.foldl (m.judge update) none).or
        (s.pendingConformance.get? f.key) := by
  have hfinding : (m.observe update).2 = (m.queueOf update.trackId).items.foldl (m.judge update) none := by
    rw [ConformanceMonitor.finding_observe, List.takeWhile_eq_self_iff.mpr hall]
  rw [(checked_absorb hm hstate ho).2, ← hfinding]
  cases hfirst : (m.observe update).2 with
  | none => rfl
  | some g =>
    have hkey : f.key = g.key := by
      rw [NonConformance.key, NonConformance.key, hf, ConformanceMonitor.trackId_of_finding hfirst]
    rw [Option.elim_some, hkey, Dict.get?_set, if_pos rfl, Option.some_or]

/-- The findings stay as they are exactly when the second copy's is pending already. -/
theorem findings_again_iff (hm : s.conformance = some m) (hstate : update.state ≠ .terminated)
    (ho : s.overtaken update = false) (hfull : m.FullOf update) :
    ((s.absorb wall context update).observe update).pendingConformance =
        (s.absorb wall context update).pendingConformance ↔
      (timedelta m.horizonS ≤ timedelta matchToleranceS →
        ∀ f ∈ m.judge update none (m.predictionAt update),
          ((m.queueOf update.trackId).items.foldl (m.judge update) none).or
            (s.pendingConformance.get? f.key) = some f) := by
  have hconformance : (s.absorb wall context update).conformance = some (m.observe update).1 :=
    (checked_absorb hm hstate ho).1
  rw [pendingConformance_observe, hconformance, Option.bind_some]
  have hagain := ConformanceMonitor.finding_again hfull
  rcases hfull.queue with ⟨hlong, -⟩ | ⟨hshort, hall⟩
  · rw [if_neg (not_le.mpr hlong)] at hagain
    rw [hagain]
    exact iff_of_true rfl fun hshort => absurd hshort (not_le.mpr hlong)
  · rw [if_pos hshort] at hagain
    have hid : ∀ f ∈ m.judge update none (m.predictionAt update), f.trackId = update.trackId :=
      fun f hf => ConformanceMonitor.trackId_of_finding (hagain.trans hf)
    rw [hagain]
    cases hfinding : m.judge update none (m.predictionAt update) with
    | none => simp
    | some f =>
      rw [Option.elim_some, Dict.set_eq_self_iff, get?_pending_absorb hm hstate ho hall (hid f hfinding)]
      constructor
      · rintro h - _ ⟨⟩
        exact h
      · exact fun h => h hshort f rfl

/-- A second copy of an accepted update is harmless exactly when the monitor is full of it. -/
theorem observe_again_agrees_iff (wall : Instant) (context : Option SpanContext) (hm : s.conformance = some m)
    (hstate : update.state ≠ .terminated) (ho : s.overtaken update = false) :
    Agree ((s.absorb wall context update).observe update) (s.absorb wall context update) ↔
      s.FullOf m update := by
  have hmonitor : ((s.absorb wall context update).observe update).conformance =
      (s.absorb wall context update).conformance ↔ m.FullOf update := by
    rw [conformance_observe, (checked_absorb hm hstate ho).1, Option.map_some, Option.some.injEq]
    exact ConformanceMonitor.observe_again_eq_iff
  constructor
  · intro h
    have hfull : m.FullOf update := hmonitor.mp h.conformance
    exact ⟨hfull, (findings_again_iff hm hstate ho hfull).mp h.pendingConformance⟩
  · intro h
    exact ⟨picture_observe, terminated_observe, hmonitor.mpr h.monitor,
      (findings_again_iff hm hstate ho h.monitor).mpr h.finding, staleAfterS_observe⟩

/-- A second copy of a terminated or overtaken update changes nothing. -/
theorem absorb_again_of_rejected (h : update.state = .terminated ∨ s.overtaken update = true) :
    Agree ((s.absorb wall context update).absorb wall' context' update) (s.absorb wall context update) := by
  by_cases hstate : update.state = .terminated
  · rw [absorb_of_terminated hstate, absorb_of_terminated hstate]
    exact ⟨Dict.erase_erase _ _, Finset.insert_idem _ _, rfl, rfl, rfl⟩
  · have ho : s.overtaken update = true := h.resolve_left hstate
    rw [absorb_of_overtaken hstate ho, absorb_of_overtaken hstate (s := { s with updates := s.updates + 1 }) ho]
    exact ⟨rfl, rfl, rfl, rfl, rfl⟩

/-- Redelivery. Absorbing an update twice in a row leaves the picture, the windows, the queues and the
    findings, then and through every later run, as absorbing it once does exactly when it is TERMINATED or
    overtaken or the monitor is full of it already. -/
theorem redelivery_is_harmless_iff (hm : s.conformance = some m) (uuid4 : ℕ → String) (wall wall' : Instant)
    (context context' : Option SpanContext) (update : TrackUpdate) :
    let once := s.absorb wall context update
    let twice := once.absorb wall' context' update
    (∀ calls, (twice.after uuid4 calls).picture = (once.after uuid4 calls).picture ∧
      (twice.after uuid4 calls).conformance = (once.after uuid4 calls).conformance ∧
      (twice.after uuid4 calls).pendingConformance = (once.after uuid4 calls).pendingConformance) ↔
      update.state = .terminated ∨ s.overtaken update = true ∨ s.FullOf m update := by
  intro once twice
  have hlater : Agree twice once → ∀ calls,
      (twice.after uuid4 calls).picture = (once.after uuid4 calls).picture ∧
      (twice.after uuid4 calls).conformance = (once.after uuid4 calls).conformance ∧
      (twice.after uuid4 calls).pendingConformance = (once.after uuid4 calls).pendingConformance := by
    intro h calls
    have hafter := h.after uuid4 calls
    exact ⟨hafter.picture, hafter.conformance, hafter.pendingConformance⟩
  by_cases hrejected : update.state = .terminated ∨ s.overtaken update = true
  · refine iff_of_true (hlater (absorb_again_of_rejected hrejected)) ?_
    rw [← or_assoc]
    exact .inl hrejected
  · obtain ⟨hstate, ho⟩ := not_or.mp hrejected
    have hsecond : Agree twice (once.observe update) := absorb_again hstate (Bool.not_eq_true _ ▸ ho)
    have hfull := observe_again_agrees_iff wall context hm hstate (Bool.not_eq_true _ ▸ ho)
    rw [← or_assoc, or_iff_right hrejected, ← hfull]
    constructor
    · intro h
      obtain ⟨-, hc, hf⟩ := h []
      exact ⟨picture_observe, terminated_observe, hsecond.conformance.symm.trans hc,
        hsecond.pendingConformance.symm.trans hf, staleAfterS_observe⟩
    · exact fun h => hlater (hsecond.trans h)

/-- A TERMINATED may be delivered as often as it likes. -/
theorem redelivery_is_harmless_terminated :
    let update := { equatorTrack "trk-abc123" 0 35000 450 90 0 with state := .terminated }
    let once := physicsOnly.absorb 0 none update
    ∀ calls, ((once.absorb 0 none update).after AlertManager.twoUuids calls).conformance =
      (once.after AlertManager.twoUuids calls).conformance := by
  intro update once calls
  have hm : physicsOnly.conformance = some { predictor := physicsPredictor 60 } := rfl
  have hsame := (redelivery_is_harmless_iff hm AlertManager.twoUuids 0 0 none none update).mpr (.inl rfl)
  exact (hsame calls).2.1

/-- A redelivered update enters the window of its track twice. -/
theorem redelivered_update_is_kept_twice :
    let update := equatorTrack "trk-abc123" 0 35000 450 90 0
    let once := physicsOnly.absorb 0 none update
    let twice := once.absorb 0 none update
    once.conformance.map (fun m => (m.windowOf "trk-abc123").items) = some [update] ∧
      twice.conformance.map (fun m => (m.windowOf "trk-abc123").items) = some [update, update] := by
  intro update once twice
  have hm : physicsOnly.conformance = some { predictor := physicsPredictor 60 } := rfl
  have hstate : update.state ≠ .terminated := by decide
  have honce : once.conformance = some _ := (checked_absorb hm hstate rfl).1
  have htwice : twice.conformance = (once.observe update).conformance := (absorb_again hstate rfl).conformance
  rw [htwice, conformance_observe, honce, Option.map_some, Option.map_some, Option.map_some]
  have hid : update.trackId = "trk-abc123" := rfl
  rw [← hid, ConformanceMonitor.windowOf_observe, ConformanceMonitor.windowOf_observe,
    ConformanceMonitor.windowAfter, ConformanceMonitor.windowAfter, ConformanceMonitor.windowOf_observe]
  exact ⟨rfl, rfl⟩

end ConformanceRunner

end

end Airspace
