import Airspace.Conformance.LiveConditions

/-! One bad timestamp.

    An update from far ahead of the wall clock does not move the scan clock, but it enters the picture like
    any other. From there it is compared with: honest updates of its track are older and are turned away,
    and the expiry of the track counts from a time that is not near. The damage is done unless the picture
    held a time as bad before. -/

namespace Airspace

noncomputable section

/-- A clock near enough to the wall clock to be believed. -/
def Honest (wall : Instant) (update : TrackUpdate) : Prop := update.updatedAt ≤ wall + maxDataClockLead

instance (wall : Instant) (update : TrackUpdate) : Decidable (Honest wall update) :=
  inferInstanceAs (Decidable (update.updatedAt ≤ wall + maxDataClockLead))

theorem maxDataClockLead_nonneg : 0 ≤ maxDataClockLead := by decide

namespace ConformanceRunner

variable {s a b : ConformanceRunner} {wall : Instant} {context : Option SpanContext} {update bad : TrackUpdate}
  {trackId : String} {uuid4 : ℕ → String}

/-- The time of a track in the picture. -/
def timeOf (s : ConformanceRunner) (trackId : String) : Option Instant :=
  (s.picture.get? trackId).map TrackUpdate.updatedAt

/-! ### Two runs whose pictures show the same times -/

/-- The same tracks, each with the same time. -/
structure SameTimes (a b : ConformanceRunner) : Prop where
  timeOf : ∀ trackId, a.timeOf trackId = b.timeOf trackId
  staleAfterS : a.staleAfterS = b.staleAfterS

theorem overtaken_eq_any (s : ConformanceRunner) (update : TrackUpdate) :
    s.overtaken update = (s.timeOf update.trackId).any fun t => decide (update.updatedAt < t) := by
  rw [overtaken, timeOf, Option.any_map]

/-- The times decide which updates are turned away. -/
theorem SameTimes.overtaken (h : SameTimes a b) (update : TrackUpdate) :
    a.overtaken update = b.overtaken update := by
  rw [overtaken_eq_any, overtaken_eq_any, h.timeOf]

theorem timeOf_absorb (s : ConformanceRunner) (wall : Instant) (context : Option SpanContext)
    (update : TrackUpdate) (trackId : String) : (s.absorb wall context update).timeOf trackId =
      if trackId = update.trackId then
        if update.state = .terminated then none
        else if s.overtaken update then s.timeOf trackId else some update.updatedAt
      else s.timeOf trackId := by
  rw [timeOf, picture_absorb]
  split_ifs <;> rfl

theorem SameTimes.absorb (h : SameTimes a b) (wall : Instant) (context : Option SpanContext)
    (update : TrackUpdate) : SameTimes (a.absorb wall context update) (b.absorb wall context update) := by
  refine ⟨fun trackId => ?_, ?_⟩
  · rw [timeOf_absorb, timeOf_absorb, h.overtaken, h.timeOf]
  · rw [staleAfterS_absorb, staleAfterS_absorb, h.staleAfterS]

/-- The times decide which tracks a scan drops. -/
theorem timeOf_scanNow (s : ConformanceRunner) (now : Instant) (fault : Option SinkFault) (trackId : String) :
    (s.scanNow uuid4 now fault).runner.timeOf trackId =
      (s.timeOf trackId).filter fun t => !decide (t < now - timedelta s.staleAfterS) := by
  rw [timeOf, picture_scanNow, picture_pruned, timeOf]
  cases s.picture.get? trackId with
  | none => rfl
  | some u =>
    rw [Option.filter_some, Option.map_some, Option.filter_some]
    split_ifs <;> rfl

theorem SameTimes.scanNow (h : SameTimes a b) (now : Instant) (fault : Option SinkFault) :
    SameTimes (a.scanNow uuid4 now fault).runner (b.scanNow uuid4 now fault).runner := by
  refine ⟨fun trackId => ?_, ?_⟩
  · rw [timeOf_scanNow, timeOf_scanNow, h.timeOf, h.staleAfterS]
  · rw [staleAfterS_scanNow, staleAfterS_scanNow, h.staleAfterS]

/-- Pictures that show the same times go on doing so. -/
theorem SameTimes.after (h : SameTimes a b) (uuid4 : ℕ → String) (calls : List ConformanceCall) :
    SameTimes (a.after uuid4 calls) (b.after uuid4 calls) := by
  induction calls generalizing a b with
  | nil => exact h
  | cons call calls ih =>
    cases call with
    | absorb wall context update => exact ih (h.absorb wall context update)
    | scanNow now fault => exact ih (h.scanNow now fault)

/-- An update enters the picture unless it is overtaken. -/
theorem get?_absorb_eq_some_iff (hstate : update.state ≠ .terminated) :
    (s.absorb wall context update).picture.get? update.trackId = some update ↔ s.overtaken update = false := by
  rw [picture_absorb, if_pos rfl, if_neg hstate]
  cases ho : s.overtaken update with
  | false => simp
  | true =>
    obtain ⟨held, hheld, hlt⟩ := Option.any_eq_true _ _ |>.mp ho
    refine iff_of_false ?_ (by simp)
    rw [if_pos rfl, hheld]
    rintro ⟨⟩
    exact absurd (of_decide_eq_true hlt) (lt_irrefl _)

theorem timeOf_eq_none_iff : s.timeOf trackId = none ↔ s.picture.get? trackId = none := Option.map_eq_none_iff

/-! ### The inserted update -/

/-- The picture shows a time as late for the track already. -/
def ShowsAsLate (s : ConformanceRunner) (bad : TrackUpdate) : Prop :=
  ∃ held, s.picture.get? bad.trackId = some held ∧ bad.updatedAt ≤ held.updatedAt

/-- An update no later than the one held changes no time. -/
theorem sameTimes_of_showsAsLate (h : s.ShowsAsLate bad) (hstate : bad.state ≠ .terminated) (wall : Instant)
    (context : Option SpanContext) : SameTimes s (s.absorb wall context bad) := by
  obtain ⟨held, hheld, hle⟩ := h
  refine ⟨fun trackId => ?_, (staleAfterS_absorb ..).symm⟩
  rw [timeOf_absorb]
  by_cases hid : trackId = bad.trackId
  · rw [if_pos hid, if_neg hstate, overtaken_eq_any, hid, timeOf, hheld]
    rcases hle.lt_or_eq with hlt | heq
    · simp [hlt]
    · simp [heq]
  · rw [if_neg hid]

/-- The latest honest time that would still enter the picture, at the wall clock given: the one it shows, or
    the present if it shows none. -/
def honestTime (s : ConformanceRunner) (wall : Instant) (trackId : String) : Instant :=
  (s.timeOf trackId).getD wall

theorem honestTime_lt (hfar : ¬ Honest wall bad) (hlate : ¬ s.ShowsAsLate bad) :
    s.honestTime wall bad.trackId < bad.updatedAt := by
  cases htime : s.timeOf bad.trackId with
  | none =>
    rw [honestTime, htime, Option.getD_none]
    exact (le_add_of_nonneg_right maxDataClockLead_nonneg).trans_lt (not_le.mp hfar)
  | some t =>
    rw [honestTime, htime, Option.getD_some]
    obtain ⟨held, hheld, rfl⟩ := Option.map_eq_some_iff.mp htime
    exact not_le.mp fun hle => hlate ⟨held, hheld, hle⟩

/-- An update of that time enters the picture as it was. -/
theorem overtaken_honestTime (s : ConformanceRunner) (wall : Instant) (update : TrackUpdate) :
    s.overtaken { update with updatedAt := s.honestTime wall update.trackId } = false := by
  rw [overtaken_eq_any, honestTime]
  cases s.timeOf update.trackId with
  | none => rfl
  | some t => simp

/-- It is turned away once the bad update is in. -/
theorem overtaken_by_bad (hfar : ¬ Honest wall bad) (hlate : ¬ s.ShowsAsLate bad)
    (hstate : bad.state ≠ .terminated) : (s.absorb wall context bad).overtaken
      { bad with updatedAt := s.honestTime wall bad.trackId } = true := by
  have hlt : s.honestTime wall bad.trackId < bad.updatedAt := honestTime_lt hfar hlate
  have hin : s.overtaken bad = false := by
    rw [overtaken_eq_any]
    cases htime : s.timeOf bad.trackId with
    | none => rfl
    | some t =>
      rw [honestTime, htime, Option.getD_some] at hlt
      simp [hlt.le]
  rw [overtaken_eq_any, timeOf_absorb, if_pos rfl, if_neg hstate, hin]
  simpa using hlt

/-- One bad timestamp. Inserting a live update from beyond the clock lead leaves every later honest update
    of its track that would have entered the picture to enter it, and lets every later scan drop the track
    that would have dropped it, exactly when the picture showed as late a time for the track before. -/
theorem bad_timestamp_is_harmless_iff (uuid4 : ℕ → String) (s : ConformanceRunner) (wall : Instant)
    (context : Option SpanContext) (bad : TrackUpdate) (hfar : ¬ Honest wall bad)
    (hstate : bad.state ≠ .terminated) :
    (∀ calls, let without := s.after uuid4 calls
      let inserted := (s.absorb wall context bad).after uuid4 calls
      (∀ wall' context' update, wall ≤ wall' → update.trackId = bad.trackId → update.state ≠ .terminated →
        Honest wall' update →
        (without.absorb wall' context' update).picture.get? bad.trackId = some update →
        (inserted.absorb wall' context' update).picture.get? bad.trackId = some update) ∧
      ∀ now fault, (without.scanNow uuid4 now fault).runner.picture.get? bad.trackId = none →
        (inserted.scanNow uuid4 now fault).runner.picture.get? bad.trackId = none) ↔
      s.ShowsAsLate bad := by
  constructor
  · intro h
    by_contra hlate
    let update : TrackUpdate := { bad with updatedAt := s.honestTime wall bad.trackId }
    have hlive : update.state ≠ .terminated := hstate
    have hhonest : Honest (max wall update.updatedAt) update :=
      (le_max_right ..).trans (le_add_of_nonneg_right maxDataClockLead_nonneg)
    have henters : (s.absorb (max wall update.updatedAt) none update).picture.get? update.trackId =
        some update :=
      (get?_absorb_eq_some_iff hlive).mpr (overtaken_honestTime s wall bad)
    have hstill := (h []).1 _ none update (le_max_left ..) rfl hlive hhonest henters
    have hturned : (s.absorb wall context bad).overtaken update = true := overtaken_by_bad hfar hlate hstate
    have hentered : (s.absorb wall context bad).overtaken update = false :=
      (get?_absorb_eq_some_iff hlive).mp hstill
    exact absurd (hentered.symm.trans hturned) Bool.false_ne_true
  · intro hlate calls without inserted
    have hsame : SameTimes without inserted :=
      (sameTimes_of_showsAsLate hlate hstate wall context).after uuid4 calls
    refine ⟨fun wall' context' update _ hid hlive _ henters => ?_, fun now fault hdropped => ?_⟩
    · rw [← hid] at henters ⊢
      rw [get?_absorb_eq_some_iff hlive, ← hsame.overtaken]
      exact (get?_absorb_eq_some_iff hlive).mp henters
    · rw [← timeOf_eq_none_iff] at hdropped ⊢
      rw [← (hsame.scanNow now fault).timeOf]
      exact hdropped

/-- A clock a year ahead does no further harm where the picture shows one two years ahead. -/
theorem bad_timestamp_is_harmless_second :
    let worse := { equatorTrack "trk-abc123" 0 35000 450 90 0 with updatedAt := seconds 63072000 }
    let bad := { equatorTrack "trk-abc123" 0 35000 450 90 0 with updatedAt := seconds 31536000 }
    let s := initial.absorb 0 none worse
    ∀ calls now fault, ((s.after AlertManager.twoUuids calls).scanNow AlertManager.twoUuids now
        fault).runner.picture.get? "trk-abc123" = none →
      (((s.absorb 0 none bad).after AlertManager.twoUuids calls).scanNow AlertManager.twoUuids now
        fault).runner.picture.get? "trk-abc123" = none := by
  intro worse bad s calls
  have hfar : ¬ Honest 0 bad := by decide
  have hlate : s.ShowsAsLate bad := ⟨worse, rfl, by decide⟩
  exact ((bad_timestamp_is_harmless_iff AlertManager.twoUuids s 0 none bad hfar (by decide)).mpr hlate calls).2

/-- A track blinded by one clock. An update a year ahead turns an honest one away, and an hour of silence
    later a scan still keeps the track. -/
theorem far_future_update_blinds_track :
    let bad := { equatorTrack "trk-abc123" 0 35000 450 90 0 with updatedAt := seconds 31536000 }
    let honest := { equatorTrack "trk-abc123" 0 35000 450 90 0 with updatedAt := seconds 1 }
    let blinded := (initial.absorb 0 none bad).absorb (seconds 1) none honest
    ¬ Honest 0 bad ∧ Honest (seconds 1) honest ∧ blinded.picture.get? "trk-abc123" = some bad ∧
      (blinded.scanNow AlertManager.twoUuids (seconds 3600) none).runner.picture.get? "trk-abc123" =
        some bad := by
  intro bad honest blinded
  have hbad : blinded.picture.get? "trk-abc123" = some bad := rfl
  refine ⟨by decide, by decide, hbad, ?_⟩
  have hrecent : ¬ bad.updatedAt < seconds 3600 - timedelta 15 := by
    rw [timedelta_ofNat]
    decide
  have hstale : blinded.staleAfterS = 15 := rfl
  rw [picture_scanNow, picture_pruned, hbad, hstale, Option.filter_some, decide_eq_false hrecent]
  rfl

end ConformanceRunner

end

end Airspace
