import Airspace.Track.Endings

/-! Releases whose flush fails.

    A release flushes before it drops anything, so if a sink raises the aircraft of its partitions stay in
    the estimator and in the map, and a sweep ages them although their reports are discarded. If no call
    raises, the aircraft are gone, and as long as the partitions stay revoked nothing is shown of them. -/

namespace Airspace

noncomputable section

/-- The map has the aircraft under one of the partitions. -/
def MappedTo (s : TrackRunner) (partitions : Finset ℕ) (icao24 : String) : Prop :=
  ∃ p ∈ partitions, s.partitionOf.get? icao24 = some p

/-- The event takes a report of the aircraft on, or says something of it to the topic or the live store. -/
def Concerns (icao24 : String) : RunnerEvent → Prop
  | .accepted report _ _ => report.icao24 = icao24
  | .published u => u.icao24 = icao24
  | .liveWritten batch => ∃ u ∈ batch, u.icao24 = icao24
  | .forgotten trackIds => trackIdFor icao24 ∈ trackIds
  | _ => False

/-- The request leaves the partitions revoked, and brings no report of the aircraft from elsewhere. -/
def Request.Spares (partitions : Finset ℕ) (icao24 : String) : Request → Prop
  | .handle report partition => report.icao24 = icao24 → partition ∈ partitions
  | .claimPartitions claimed => Disjoint claimed partitions
  | _ => True

/-- The condition on a turn after the release. -/
def TrackProcess.StaysRevoked (partitions : Finset ℕ) (icao24 : String) (_ : TrackProcess)
    (turn : ℚ × ProcessTurn) : Prop :=
  ∀ request, turn.2.request = some request → request.Spares partitions icao24

/-! ### The invariant -/

variable {partitions : Finset ℕ} {icao24 : String} {s out : TrackRunner} {time : ℚ} {flushing : Flushing}
  {await : Await} {us : List TrackUpdate}

/-- Updates of other aircraft, under their own ids. -/
def OfOthers (icao24 : String) (us : List TrackUpdate) : Prop :=
  ∀ u ∈ us, u.icao24 ≠ icao24 ∧ u.trackId = trackIdFor u.icao24

/-- The aircraft is neither held nor written of, and its reports are discarded. -/
structure Gone (partitions : Finset ℕ) (icao24 : String) (s : TrackRunner) : Prop where
  filed : s.estimator.Filed
  revoked : partitions ⊆ s.revoked
  unheld : icao24 ∉ s.estimator.knownAddresses
  pending : OfOthers icao24 s.pending

def FlushingOfOthers (icao24 : String) : Flushing → Prop
  | .sweepNow _ changed => OfOthers icao24 changed
  | _ => True

/-- A suspended coroutine carries nothing of the aircraft. -/
def AwaitOfOthers (icao24 : String) : Await → Prop
  | .handlePublish update => OfOthers icao24 [update]
  | .sweepPublish _ changed rest => OfOthers icao24 changed ∧ OfOthers icao24 rest
  | .record batch _ flushing => OfOthers icao24 batch ∧ FlushingOfOthers icao24 flushing
  | .livePublish flushing => FlushingOfOthers icao24 flushing
  | .forget _ => True

/-- A stretch leaves the aircraft alone. -/
structure StretchGone (partitions : Finset ℕ) (icao24 : String) (stretch : Stretch) : Prop where
  gone : Gone partitions icao24 stretch.runner
  await : ∀ a ∈ stretch.await, AwaitOfOthers icao24 a
  shown : ∀ event ∈ stretch.shown, ¬ Concerns icao24 event

theorem OfOthers.append {us' : List TrackUpdate} (h : OfOthers icao24 us) (h' : OfOthers icao24 us') :
    OfOthers icao24 (us ++ us') := fun u hu => (List.mem_append.mp hu).elim (h u) (h' u)

theorem OfOthers.not_written (h : OfOthers icao24 us) {batch : List TrackUpdate} (hsub : ∀ u ∈ batch, u ∈ us) :
    ¬ Concerns icao24 (.liveWritten batch) := by
  rintro ⟨u, hu, heq⟩
  exact (h u (hsub u hu)).1 heq

theorem OfOthers.not_forgotten (h : OfOthers icao24 us) {batch : List TrackUpdate}
    (hsub : ∀ u ∈ batch, u ∈ us) : ¬ Concerns icao24 (.forgotten (batch.map (·.trackId))) := by
  intro hmem
  obtain ⟨u, hu, heq⟩ := List.mem_map.mp hmem
  obtain ⟨hother, hid⟩ := h u (hsub u hu)
  exact hother (trackIdFor_inj (hid.symm.trans heq))

/-- Records that go and partitions that are revoked leave the aircraft gone. -/
theorem Gone.mono (h : Gone partitions icao24 s) (hrevoked : s.revoked ⊆ out.revoked)
    (hpending : OfOthers icao24 out.pending) (hget : ∀ key record,
      out.estimator.tracks.get? key = some record → s.estimator.tracks.get? key = some record) :
    Gone partitions icao24 out := by
  refine ⟨fun key record hr => h.filed key record (hget key record hr), h.revoked.trans hrevoked, ?_, hpending⟩
  intro hknown
  obtain ⟨record, hr⟩ := TrackEstimator.mem_knownAddresses.mp hknown
  exact h.unheld (TrackEstimator.mem_knownAddresses.mpr ⟨record, hget _ _ hr⟩)

theorem forgetPruned_gone (h : Gone partitions icao24 s) (now : Instant) :
    Gone partitions icao24 (s.forgetPruned now) := by
  have hpending : OfOthers icao24 (s.forgetPruned now).pending := h.pending
  exact h.mono subset_rfl hpending fun _ _ hr => TrackEstimator.get?_pruneTerminated hr

/-- Nothing shown, nothing awaited. -/
theorem stretchGone_done (h : Gone partitions icao24 s) : StretchGone partitions icao24 { runner := s } :=
  ⟨h, by simp, by simp⟩

/-! ### Stretches -/

theorem afterFlush_gone (h : Gone partitions icao24 s) (hothers : FlushingOfOthers icao24 flushing) :
    StretchGone partitions icao24 (s.afterFlush time flushing) := by
  have h' : Gone partitions icao24 { s with lastFlush := time } := ⟨h.filed, h.revoked, h.unheld, h.pending⟩
  cases flushing with
  | handle => exact stretchGone_done h'
  | sweepNow now changed =>
    simp only [TrackRunner.afterFlush]
    split
    · exact stretchGone_done (forgetPruned_gone h' now)
    · refine ⟨⟨h.filed, h.revoked, h.unheld, h.pending⟩, ?_, ?_⟩
      · rintro a ⟨⟩
        trivial
      · intro event hevent
        rw [List.mem_singleton.mp hevent]
        exact OfOthers.not_forgotten hothers fun u hu => List.mem_of_mem_filter hu
  | releasePartitions released addresses =>
    refine ⟨h.mono subset_rfl h.pending fun _ _ hr => (TrackEstimator.get?_release_eq_some hr).2, ?_, ?_⟩
    · simp [TrackRunner.afterFlush]
    · simp [TrackRunner.afterFlush, Concerns]

theorem flush_gone (h : Gone partitions icao24 s) (exclude : List String) (flushing : Flushing)
    (hothers : FlushingOfOthers icao24 flushing) :
    StretchGone partitions icao24 (s.flush time exclude flushing) := by
  unfold TrackRunner.flush
  split
  · exact afterFlush_gone h hothers
  · refine ⟨⟨h.filed, h.revoked, h.unheld, fun u hu => absurd hu List.not_mem_nil⟩, ?_, by simp [Concerns]⟩
    rintro a ⟨⟩
    exact ⟨h.pending, hothers⟩

theorem handle_gone (h : Gone partitions icao24 s) {report : SurveillanceReport} {partition : ℕ}
    (hspares : report.icao24 = icao24 → partition ∈ partitions) :
    StretchGone partitions icao24 (s.handle report partition) := by
  unfold TrackRunner.handle
  split_ifs with hrevoked
  · exact stretchGone_done ⟨h.filed, h.revoked, h.unheld, h.pending⟩
  · have hother : report.icao24 ≠ icao24 := fun heq => hrevoked (h.revoked (hspares heq))
    obtain ⟨hfiled, hicao, htrack⟩ := TrackEstimator.filed_onReport h.filed report
    refine ⟨⟨hfiled, h.revoked, ?_, h.pending⟩, ?_, ?_⟩
    · intro hknown
      exact (TrackEstimator.mem_knownAddresses_onReport.mp hknown).elim (fun heq => hother heq.symm) h.unheld
    · rintro a ⟨⟩ u hu
      rw [List.mem_singleton.mp hu, hicao]
      exact ⟨hother, htrack⟩
    · simp [Concerns, hicao, hother]

theorem sweepNow_gone (h : Gone partitions icao24 s) (now : Instant) :
    StretchGone partitions icao24 (s.sweepNow now) := by
  obtain ⟨hfiled, hout⟩ := TrackEstimator.filed_sweep h.filed now
  have hothers : OfOthers icao24 (s.estimator.sweep now).2 := by
    intro u hu
    obtain ⟨hknown, htrack⟩ := hout u hu
    exact ⟨fun heq => h.unheld (heq ▸ hknown), htrack⟩
  have h' : Gone partitions icao24 { s with estimator := (s.estimator.sweep now).1 } := by
    refine ⟨hfiled, h.revoked, ?_, h.pending⟩
    change icao24 ∉ (s.estimator.sweep now).1.knownAddresses
    rw [TrackEstimator.knownAddresses_sweep]
    exact h.unheld
  simp only [TrackRunner.sweepNow]
  split
  · exact stretchGone_done (forgetPruned_gone h' now)
  · next update rest heq =>
    rw [heq] at hothers
    refine ⟨h', ?_, ?_⟩
    · rintro a ⟨⟩
      exact ⟨heq ▸ hothers, fun u hu => hothers u (List.mem_cons_of_mem _ hu)⟩
    · intro event hevent
      rw [List.mem_singleton.mp hevent]
      exact (hothers update (List.mem_cons_self ..)).1

/-- A call that gets the lock. -/
theorem enter_gone (h : Gone partitions icao24 s) {request : Request}
    (hspares : request.Spares partitions icao24) : StretchGone partitions icao24 (s.enter time request) := by
  cases request with
  | handle report partition => exact handle_gone h hspares
  | sweepNow now => exact sweepNow_gone h now
  | releasePartitions released =>
    have h' : Gone partitions icao24 { s with revoked := s.revoked ∪ released } :=
      ⟨h.filed, h.revoked.trans Finset.subset_union_left, h.unheld, h.pending⟩
    simp only [TrackRunner.enter, TrackRunner.releasePartitions]
    exact flush_gone h' _ (.releasePartitions ..) trivial
  | claimPartitions claimed =>
    refine ⟨⟨h.filed, ?_, h.unheld, h.pending⟩, ?_, by simp [TrackRunner.enter, TrackRunner.claimPartitions,
      Concerns]⟩
    · intro p hp
      exact Finset.mem_sdiff.mpr ⟨h.revoked hp, fun hclaimed => Finset.disjoint_left.mp hspares hclaimed hp⟩
    · simp [TrackRunner.enter, TrackRunner.claimPartitions]

theorem resume_gone (h : Gone partitions icao24 s) (hothers : AwaitOfOthers icao24 await) :
    StretchGone partitions icao24 (s.resume time await) := by
  cases await with
  | handlePublish update =>
    have h' : Gone partitions icao24
        { s with published := s.published + 1, pending := s.pending ++ [update] } :=
      ⟨h.filed, h.revoked, h.unheld, h.pending.append hothers⟩
    simp only [TrackRunner.resume]
    split_ifs
    · exact flush_gone h' [] .handle trivial
    · exact stretchGone_done h'
  | sweepPublish now changed rest =>
    obtain ⟨hchanged, hrest⟩ := hothers
    cases rest with
    | nil =>
      have h' : Gone partitions icao24
          { s with published := s.published + 1, pending := s.pending ++ changed } :=
        ⟨h.filed, h.revoked, h.unheld, h.pending.append hchanged⟩
      simp only [TrackRunner.resume]
      exact flush_gone h' [] (.sweepNow now changed) hchanged
    | cons update rest =>
      refine ⟨⟨h.filed, h.revoked, h.unheld, h.pending⟩, ?_, ?_⟩
      · rintro a ⟨⟩
        exact ⟨hchanged, fun u hu => hrest u (List.mem_cons_of_mem _ hu)⟩
      · intro event hevent
        rw [List.mem_singleton.mp hevent]
        exact (hrest update (List.mem_cons_self ..)).1
  | record batch exclude flushing =>
    obtain ⟨hbatch, hflushing⟩ := hothers
    simp only [TrackRunner.resume]
    split
    · exact afterFlush_gone h hflushing
    · refine ⟨h, ?_, ?_⟩
      · rintro a ⟨⟩
        exact hflushing
      · intro event hevent
        rw [List.mem_singleton.mp hevent]
        exact hbatch.not_written fun u hu => List.mem_of_mem_filter hu
  | livePublish flushing => exact afterFlush_gone h hothers
  | forget now => exact stretchGone_done (forgetPruned_gone h now)

/-! ### Runs -/

variable {start p p' : TrackProcess} {log shown : List ProcessEvent}

/-- The process between two turns. -/
structure ProcessGone (partitions : Finset ℕ) (icao24 : String) (p : TrackProcess) : Prop where
  gone : Gone partitions icao24 p.service.runner
  holder : ∀ a ∈ p.service.holder, AwaitOfOthers icao24 a
  closing : ∀ a ∈ p.closing, AwaitOfOthers icao24 a
  waiting : ∀ request ∈ p.service.waiting, request.Spares partitions icao24

theorem step_gone {turn : ℚ × ProcessTurn} (h : ProcessGone partitions icao24 p)
    (hstays : p.StaysRevoked partitions icao24 turn)
    (hstep : p.step turn.1 turn.2 = some (p', shown)) :
    ProcessGone partitions icao24 p' ∧ ∀ event, .shown event ∈ shown → ¬ Concerns icao24 event := by
  obtain ⟨time, pturn⟩ := turn
  obtain ⟨hmoves, hwaiting⟩ := TrackProcess.moves hstep
  have hrequests : ∀ request ∈ p'.service.waiting, request.Spares partitions icao24 :=
    fun request hr => (hwaiting request hr).elim (h.waiting request) (hstays request)
  cases hmoves with
  | waits hlog hstays' =>
    subst hlog
    obtain ⟨d, hrunner⟩ := hstays'.runner
    refine ⟨⟨?_, ?_, ?_, hrequests⟩, by simp⟩
    · rw [hrunner]
      exact ⟨h.gone.filed, h.gone.revoked, h.gone.unheld, h.gone.pending⟩
    · rw [hstays'.holder]
      exact h.holder
    · rw [hstays'.closing]
      exact h.closing
  | enters d request hfree hrequest hran hlog =>
    have h' : Gone partitions icao24 { p.service.runner with partitionOf := d } :=
      ⟨h.gone.filed, h.gone.revoked, h.gone.unheld, h.gone.pending⟩
    have hstretch : StretchGone _ _ ({ p.service.runner with partitionOf := d }.enter time request) :=
      enter_gone h' (hrequest.elim (h.waiting request) (hstays request))
    refine ⟨⟨hran.runner ▸ hstretch.gone, hran.holder ▸ hstretch.await, hran.closing ▸ h.closing,
      hrequests⟩, ?_⟩
    intro event hevent
    rcases Stretch.mem_begun (hlog ▸ hevent) with ⟨changed, heq⟩ | ⟨event', hshown, heq⟩
    · cases heq
    · cases heq
      exact hstretch.shown event hshown
  | resumes await hawait hran hlog =>
    have hstretch : StretchGone _ _ (p.service.runner.resume time await) :=
      resume_gone h.gone (h.holder await hawait)
    refine ⟨⟨hran.runner ▸ hstretch.gone, hran.holder ▸ hstretch.await, hran.closing ▸ h.closing,
      hrequests⟩, ?_⟩
    intro event hevent
    exact hstretch.shown event (by simpa [hlog] using hevent)
  | raises await hturn hawait hran hlog =>
    refine ⟨⟨hran.runner ▸ h.gone, ?_, hran.closing ▸ h.closing, hrequests⟩, by simp [hlog]⟩
    rw [hran.holder]
    simp
  | closes hturn hnone hclosed hlog =>
    have hstretch : StretchGone _ _ (p.service.runner.flush time [] .handle) :=
      flush_gone h.gone [] .handle trivial
    refine ⟨⟨hclosed.runner ▸ hstretch.gone, hclosed.holder ▸ h.holder, hclosed.closing ▸ hstretch.await,
      hrequests⟩, ?_⟩
    intro event hevent
    exact hstretch.shown event (by simpa [hlog] using hevent)
  | closeResumes await hturn hawait hclosed hlog =>
    have hstretch : StretchGone _ _ (p.service.runner.resume time await) :=
      resume_gone h.gone (h.closing await hawait)
    refine ⟨⟨hclosed.runner ▸ hstretch.gone, hclosed.holder ▸ h.holder, hclosed.closing ▸ hstretch.await,
      hrequests⟩, ?_⟩
    intro event hevent
    exact hstretch.shown event (by simpa [hlog] using hevent)
  | closeRaises await hturn hawait hclosed hlog =>
    refine ⟨⟨hclosed.runner ▸ h.gone, hclosed.holder ▸ h.holder, ?_, hrequests⟩, by simp [hlog]⟩
    rw [hclosed.closing]
    simp

theorem run_gone (h0 : ProcessGone partitions icao24 start)
    (hrun : TrackProcess.machine.Run (TrackProcess.StaysRevoked partitions icao24) start p log) :
    ∀ event, .shown event ∈ log → ¬ Concerns icao24 event := by
  refine (hrun.invariant (I := fun p log => ProcessGone partitions icao24 p ∧
    ∀ event, .shown event ∈ log → ¬ Concerns icao24 event) ⟨h0, by simp⟩ ?_).2
  rintro p log turn p' shown ⟨h, hlog⟩ hstays hstep
  obtain ⟨h', hshown⟩ := step_gone h hstays hstep
  exact ⟨h', fun event hevent => (List.mem_append.mp hevent).elim (hlog event) (hshown event)⟩

/-! ### Releases -/

/-- The aircraft a release lists are those the map has under its partitions. -/
theorem mem_addresses {s : TrackRunner} : icao24 ∈ (s.partitionOf.items.filter fun entry =>
    entry.2 ∈ partitions).map Prod.fst ↔ MappedTo s partitions icao24 := by
  simp only [List.mem_map, List.mem_filter, decide_eq_true_eq, MappedTo, Dict.get?_eq_some_iff]
  constructor
  · rintro ⟨⟨key, p⟩, ⟨hmem, hp⟩, rfl⟩
    exact ⟨p, hp, hmem⟩
  · rintro ⟨p, hp, hmem⟩
    exact ⟨(icao24, p), ⟨hmem, hp⟩, rfl⟩

/-- What a release leaves behind: without the aircraft if no call raises, with all of them if one does. -/
theorem ends_release {fault : Option Await} {returned : List RunnerEvent}
    (h : Ends (s.releasePartitions time partitions) fault returned out) :
    partitions ⊆ out.revoked ∧ out.pending = [] ∧
    (fault = none ∧ (∀ key record, out.estimator.tracks.get? key = some record →
        ¬ MappedTo s partitions key ∧ s.estimator.tracks.get? key = some record) ∧
        (∀ key, MappedTo s partitions key → out.partitionOf.get? key = none) ∨
      fault ≠ none ∧ out.partitionOf = s.partitionOf) := by
  rcases ends_flush h with ⟨later, calls, rest, -, -, hafter⟩ | ⟨-, rfl, hfault⟩
  · cases hafter with
    | done =>
      refine ⟨Finset.subset_union_right, rfl, .inl ⟨rfl, ?_, ?_⟩⟩
      · intro key record hget
        obtain ⟨hnot, hold⟩ := TrackEstimator.get?_release_eq_some hget
        exact ⟨fun hmapped => hnot (mem_addresses.mpr hmapped), hold⟩
      · intro key hmapped
        change (List.foldl Dict.erase s.partitionOf _).get? key = none
        rw [Dict.get?_foldl_erase, if_pos (mem_addresses.mpr hmapped)]
    | raised hawait => cases hawait
    | resumed later hawait => cases hawait
  · refine ⟨Finset.subset_union_right, rfl, .inr ⟨?_, rfl⟩⟩
    rcases hfault with ⟨rfl, -⟩ | ⟨rfl, -⟩ <;> simp

/-- A release takes effect if and only if no sink call of its flush raises or the map has nothing under its
    partitions: then none of their aircraft is held or mapped, and until they are claimed nothing is shown
    of one. -/
theorem release_takes_effect_iff (s out : TrackRunner) (hfiled : s.estimator.Filed) (time : ℚ)
    (partitions : Finset ℕ) (fault : Option Await) (returned : List RunnerEvent)
    (h : Ends (s.releasePartitions time partitions) fault returned out) :
    (∀ icao24, MappedTo s partitions icao24 →
      icao24 ∉ out.estimator.knownAddresses ∧ out.partitionOf.get? icao24 = none ∧
      ∀ waiting : List Request, (∀ request ∈ waiting, request.Spares partitions icao24) → ∀ p log,
        TrackProcess.machine.Run (TrackProcess.StaysRevoked partitions icao24)
          { service := { runner := out, waiting := waiting } } p log →
        ∀ event, .shown event ∈ log → ¬ Concerns icao24 event) ↔
      fault = none ∨ ∀ icao24, ¬ MappedTo s partitions icao24 := by
  obtain ⟨hrevoked, hpending, hends⟩ := ends_release h
  constructor
  · intro heffect
    rcases hends with ⟨hnone, -⟩ | ⟨-, hmap⟩
    · exact .inl hnone
    · refine .inr fun icao24 hmapped => ?_
      have hgone := (heffect icao24 hmapped).2.1
      obtain ⟨p, -, hget⟩ := hmapped
      rw [hmap, hget] at hgone
      cases hgone
  · rintro (hnone | hempty) icao24 hmapped
    · obtain ⟨-, hestimator, hmap⟩ := hends.resolve_right fun hfault => hfault.1 hnone
      have hunheld : icao24 ∉ out.estimator.knownAddresses := by
        intro hknown
        obtain ⟨record, hget⟩ := TrackEstimator.mem_knownAddresses.mp hknown
        exact (hestimator icao24 record hget).1 hmapped
      have hfiled' : out.estimator.Filed :=
        fun key record hget => hfiled key record (hestimator key record hget).2
      refine ⟨hunheld, hmap icao24 hmapped, fun waiting hwaiting p log hrun => ?_⟩
      refine run_gone ⟨⟨hfiled', hrevoked, hunheld, ?_⟩, by simp, by simp, hwaiting⟩ hrun
      change OfOthers icao24 out.pending
      rw [hpending]
      exact fun u hu => absurd hu List.not_mem_nil
    · exact absurd hmapped (hempty icao24)

theorem mappedTo_first : MappedTo (firstRunner 1 [firstUpdate]) {0} "abc123" :=
  ⟨0, Finset.mem_singleton_self 0, rfl⟩

theorem filed_first : (firstRunner 1 [firstUpdate]).estimator.Filed ∧
    firstUpdate.trackId = trackIdFor "abc123" := by
  have hempty : ({} : TrackEstimator).Filed := fun _ _ hget => by cases hget
  obtain ⟨hfiled, -, htrack⟩ := TrackEstimator.filed_onReport hempty TrackEstimator.climbStart
  exact ⟨hfiled, htrack⟩

/-- The service after its first report, with the update pending, gives partition 0 up, and the history store
    does its part. -/
theorem release_takes_effect_first : ∃ out returned,
    Ends ((firstRunner 1 [firstUpdate]).releasePartitions 0 {0}) none returned out ∧
    "abc123" ∉ out.estimator.knownAddresses ∧ out.partitionOf.get? "abc123" = none := by
  obtain ⟨hfiled, hid⟩ := filed_first
  have hends : ∃ returned out,
      Ends ((firstRunner 1 [firstUpdate]).releasePartitions 0 {0}) none returned out := by
    refine ⟨_, _, .resumed 0 rfl (.done ?_)⟩
    have hitems : (firstRunner 1 [firstUpdate]).partitionOf.items = [("abc123", 0)] := rfl
    have hpending : (firstRunner 1 [firstUpdate]).pending = [firstUpdate] := rfl
    simp [TrackRunner.resume, TrackRunner.afterFlush, hitems, hpending, hid]
  obtain ⟨returned, out, hends⟩ := hends
  obtain ⟨hunheld, hunmapped, -⟩ :=
    (release_takes_effect_iff _ out hfiled 0 {0} none returned hends).mpr (.inl rfl) "abc123" mappedTo_first
  exact ⟨out, returned, hends, hunheld, hunmapped⟩

/-- The history store fails during the same release: the aircraft stays held and mapped, and a sweep thirty
    silent seconds later publishes the end of its track. -/
theorem failed_release_keeps_aircraft : ∃ (log : List ProcessEvent) (fault : Await) (out : TrackRunner),
    TrackProcess.machine.Run (fun _ _ => True) { service := { runner := {} } }
      { service := { runner := firstRunner 1 [firstUpdate] } } log ∧
    Ends ((firstRunner 1 [firstUpdate]).releasePartitions 0 {0}) (some fault) [] out ∧
    MappedTo (firstRunner 1 [firstUpdate]) {0} "abc123" ∧
    "abc123" ∈ out.estimator.knownAddresses ∧ out.partitionOf.get? "abc123" = some 0 ∧
    ∃ p later u, TrackProcess.machine.Run (TrackProcess.StaysRevoked {0} "abc123")
      { service := { runner := out } } p later ∧ .shown (.published u) ∈ later ∧ u.Ends "abc123" := by
  obtain ⟨swept, v, -, hsweep, hicao, hstate, -⟩ := TrackEstimator.sweep_climb_silent
  refine ⟨_, _, _, (Machine.Run.start.step trivial step_first).step trivial step_firstBuffered, .raised rfl,
    mappedTo_first, ?_, rfl, ?_⟩
  · exact TrackEstimator.mem_knownAddresses_onReport.mpr (.inl rfl)
  · have hrun : TrackProcess.machine.Run (TrackProcess.StaysRevoked {0} "abc123")
        { service := { runner := ((firstRunner 1 [firstUpdate]).releasePartitions 0 {0}).runner } } _ _ :=
      Machine.Run.start.step (by rintro request ⟨⟩; trivial) (step_sweep 0 hsweep)
    exact ⟨_, _, v, hrun, by simp, hicao, hstate⟩

end

end Airspace
