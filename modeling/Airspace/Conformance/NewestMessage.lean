import Airspace.Conformance.Picture
import Airspace.Lib.Register

/-! The picture and the newest message of each track.

    The messages of a track meet at a register: an update overwrites the one held unless it is older, a
    TERMINATED empties the picture whatever its time. Nothing is left then to compare a late update with,
    so an update overtaken by the termination of its track puts the track back. -/

namespace Airspace

noncomputable section

/-- The message ends its track. -/
def TrackUpdate.ends (u : TrackUpdate) : Bool := decide (u.state = .terminated)

/-- The messages of one track, in the order they arrive. -/
def messagesOf (trackId : String) (deliveries : List Delivery) : List TrackUpdate :=
  (deliveries.map Delivery.update).filter fun u => u.trackId = trackId

/-- What the picture ought to hold: the newest message of the track, or nothing if that ends it. -/
def newestMessage (messages : List TrackUpdate) : Option TrackUpdate :=
  Register.newest TrackUpdate.updatedAt TrackUpdate.ends messages

/-- No TERMINATED arrives after a newest message that lives, and after a newest message that is
    TERMINATED a TERMINATED arrives last. -/
def InOrder (messages : List TrackUpdate) : Prop :=
  Register.Settled TrackUpdate.updatedAt TrackUpdate.ends messages

namespace ConformanceRunner

variable {s start : ConformanceRunner} {deliveries deliveries' : List Delivery} {trackId : String}

/-- An update is a value put into the register of its track. -/
theorem get?_absorb (s : ConformanceRunner) (d : Delivery) (trackId : String) :
    (s.absorb d.wall d.context d.update).picture.get? trackId =
      if d.update.trackId = trackId then
        Register.put TrackUpdate.updatedAt TrackUpdate.ends (s.picture.get? trackId) d.update
      else s.picture.get? trackId := by
  rw [picture_absorb]
  by_cases hid : trackId = d.update.trackId
  · subst hid
    simp only [Register.put, TrackUpdate.ends, overtaken, decide_eq_true_eq, if_true]
    rfl
  · rw [if_neg hid, if_neg (Ne.symm hid)]

/-- The picture of a track is the register its messages leave. -/
theorem get?_absorbAll (s : ConformanceRunner) (deliveries : List Delivery) (trackId : String) :
    (s.absorbAll deliveries).picture.get? trackId =
      (messagesOf trackId deliveries).foldl (Register.put TrackUpdate.updatedAt TrackUpdate.ends)
        (s.picture.get? trackId) := by
  induction deliveries generalizing s with
  | nil => rfl
  | cons d deliveries ih =>
    rw [absorbAll, List.foldl_cons, ← absorbAll, ih, get?_absorb, messagesOf, messagesOf, List.map_cons]
    by_cases hid : d.update.trackId = trackId
    · rw [if_pos hid, List.filter_cons_of_pos (by simpa using hid), List.foldl_cons]
    · rw [if_neg hid, List.filter_cons_of_neg (by simpa using hid)]

/-- Times are distinct within every track. -/
def DistinctTimes (deliveries : List Delivery) : Prop :=
  (deliveries.map fun d => (d.update.trackId, d.update.updatedAt)).Nodup

theorem DistinctTimes.messagesOf (h : DistinctTimes deliveries) (trackId : String) :
    ((messagesOf trackId deliveries).map TrackUpdate.updatedAt).Nodup := by
  have hpairs : ((deliveries.map Delivery.update).map fun u => (u.trackId, u.updatedAt)).Nodup := by
    rwa [List.map_map]
  refine List.Nodup.map_on ?_ ((List.Nodup.of_map _ hpairs).filter _)
  intro u hu v hv htime
  obtain ⟨hu, hut⟩ := List.mem_filter.mp hu
  obtain ⟨hv, hvt⟩ := List.mem_filter.mp hv
  refine List.inj_on_of_nodup_map hpairs hu hv ?_
  rw [of_decide_eq_true hut, of_decide_eq_true hvt, htime]

theorem DistinctTimes.perm (h : DistinctTimes deliveries)
    (hperm : (deliveries.map Delivery.update).Perm (deliveries'.map Delivery.update)) :
    DistinctTimes deliveries' := by
  have hpairs := hperm.map fun u => (u.trackId, u.updatedAt)
  rw [List.map_map, List.map_map] at hpairs
  exact hpairs.nodup_iff.mp h

/-- The picture of a track is its newest message exactly when its messages come in order. -/
theorem picture_eq_newest_iff (hempty : start.picture = Dict.empty) (hdistinct : DistinctTimes deliveries)
    (trackId : String) :
    (start.absorbAll deliveries).picture.get? trackId = newestMessage (messagesOf trackId deliveries) ↔
      InOrder (messagesOf trackId deliveries) := by
  rw [get?_absorbAll, hempty, Dict.get?_empty]
  exact Register.foldl_put_eq_newest_iff (hdistinct.messagesOf trackId)

/-- The newest message does not depend on the order of arrival. -/
theorem newestMessage_perm (hdistinct : DistinctTimes deliveries)
    (hperm : (deliveries.map Delivery.update).Perm (deliveries'.map Delivery.update)) (trackId : String) :
    newestMessage (messagesOf trackId deliveries) = newestMessage (messagesOf trackId deliveries') :=
  Register.newest_perm (hperm.filter _) (hdistinct.messagesOf trackId)

/-- The picture depends on the newest messages alone. Whatever two orders the same updates arrive in, both
    leave the newest message of every track, or nothing where that is TERMINATED, exactly when no track's
    messages come out of order in either. -/
theorem picture_depends_on_newest_iff (hempty : start.picture = Dict.empty)
    (hdistinct : DistinctTimes deliveries)
    (hperm : (deliveries.map Delivery.update).Perm (deliveries'.map Delivery.update)) :
    (∀ trackId, (start.absorbAll deliveries).picture.get? trackId =
        (start.absorbAll deliveries').picture.get? trackId ∧
      (start.absorbAll deliveries).picture.get? trackId = newestMessage (messagesOf trackId deliveries)) ↔
      ∀ trackId, InOrder (messagesOf trackId deliveries) ∧ InOrder (messagesOf trackId deliveries') := by
  refine forall_congr' fun trackId => ?_
  rw [← picture_eq_newest_iff hempty hdistinct, ← picture_eq_newest_iff hempty (hdistinct.perm hperm),
    ← newestMessage_perm hdistinct hperm]
  constructor
  · rintro ⟨hsame, hnewest⟩
    exact ⟨hnewest, hsame.symm.trans hnewest⟩
  · rintro ⟨hnewest, hnewest'⟩
    exact ⟨hnewest.trans hnewest'.symm, hnewest⟩

/-- A message of one aircraft, as it arrives. -/
def message (updatedAt : Instant) (state : TrackState) : Delivery where
  wall := 0
  update := { equatorTrack "trk-abc123" 0 35000 450 90 0 with updatedAt := updatedAt, state := state }

/-- Two live messages may arrive in either order. -/
theorem picture_depends_on_newest_live :
    let first := message 1 .confirmed
    let second := message 2 .confirmed
    DistinctTimes [first, second] ∧ ∀ trackId, (initial.absorbAll [first, second]).picture.get? trackId =
      (initial.absorbAll [second, first]).picture.get? trackId := by
  intro first second
  have hdistinct : DistinctTimes [first, second] := by simp [DistinctTimes, first, second, message]
  have hlive : ∀ l : List Delivery, (∀ d ∈ l, d.update.state = .confirmed) → ∀ trackId,
      InOrder (messagesOf trackId l) := by
    intro l hl trackId
    refine Register.settled_of_live fun u hu => ?_
    obtain ⟨d, hd, rfl⟩ := List.mem_map.mp (List.mem_of_mem_filter hu)
    simp [TrackUpdate.ends, hl d hd]
  have hperm : ([first, second].map Delivery.update).Perm ([second, first].map Delivery.update) := .swap ..
  refine ⟨hdistinct, fun trackId => ?_⟩
  refine ((picture_depends_on_newest_iff rfl hdistinct hperm).mpr ?_ trackId).1
  intro trackId
  exact ⟨hlive _ (by simp [first, second, message]) trackId, hlive _ (by simp [first, second, message]) trackId⟩

/-- A track put back after its end. The termination of an aircraft overtakes its last update: the newest
    message of the two is TERMINATED in either order, and the picture holds the aircraft in one of them. -/
theorem late_update_revives_track :
    let live := message 1 .confirmed
    let ended := message 2 .terminated
    DistinctTimes [live, ended] ∧ [live.update, ended.update].Perm [ended.update, live.update] ∧
      (∀ d ∈ [live, ended], d.update.updatedAt ≤ d.wall + maxDataClockLead) ∧
      (initial.absorbAll [live, ended]).picture.get? "trk-abc123" = none ∧
      (initial.absorbAll [ended, live]).picture.get? "trk-abc123" = some live.update := by
  refine ⟨?_, .swap .., ?_, rfl, rfl⟩
  · simp [DistinctTimes, message]
  · simp [message, maxDataClockLead, seconds]

end ConformanceRunner

end

end Airspace
