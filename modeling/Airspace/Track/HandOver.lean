import Airspace.Track.Ownership
import Airspace.Track.Records

/-! Handing partitions over.

    A release drops the aircraft the partition map lists, so it is complete as long as the map lists every
    aircraft held under the partition its reports came from. `run` writes the map before it waits for the
    lock, though, and whoever holds the lock may delete the entry before the report is handled: a sweep
    deletes the entries of aircraft without a record, a release those of the partitions it gives up. As long
    as a report finds its entry when it is accepted, and comes from the partition the map has when it
    arrives for an aircraft held, nothing of a released partition stays behind. -/

namespace Airspace

open Ownership

/-! ### The invariant -/

/-- An update that may be sent: it names its track, and the aircraft is not somebody else's. -/
def Ours (h : Ownership) (u : TrackUpdate) : Prop :=
  u.trackId = trackIdFor u.icao24 ∧ ¬ h.Foreign u.icao24

/-- The state between two stretches. Every aircraft held is in the map under its only origin. -/
structure Owned (s : TrackRunner) (h : Ownership) : Prop where
  filed : s.estimator.Filed
  givenUp : h.givenUp ⊆ s.revoked
  held : ∀ icao24 ∈ s.estimator.knownAddresses,
    ∃ p, s.partitionOf.get? icao24 = some p ∧ h.origins icao24 = {p} ∧ p ∉ h.givenUp
  pending : ∀ u ∈ s.pending, Ours h u

/-- What a flush leaves to do is still right: a release lists all it has to drop. -/
def FlushingOwned (s : TrackRunner) (h : Ownership) : Flushing → Prop
  | .handle => True
  | .sweepNow _ changed => ∀ u ∈ changed, Ours h u
  | .releasePartitions partitions addresses => partitions ⊆ s.revoked ∧
    ∀ icao24 ∈ s.estimator.knownAddresses, ∀ p ∈ s.partitionOf.get? icao24, p ∈ partitions →
      icao24 ∈ addresses

/-- What a suspended coroutine carries. -/
def AwaitOwned (s : TrackRunner) (h : Ownership) : Await → Prop
  | .handlePublish update => Ours h update
  | .sweepPublish _ changed rest => (∀ u ∈ changed, Ours h u) ∧ ∀ u ∈ rest, u ∈ changed
  | .record batch _ flushing => s.pending = [] ∧ (∀ u ∈ batch, Ours h u) ∧ FlushingOwned s h flushing
  | .livePublish flushing => s.pending = [] ∧ FlushingOwned s h flushing
  | .forget _ => True

/-- A stretch speaks for nobody else's aircraft and leaves what it should. -/
structure StretchOwned (h : Ownership) (stretch : Stretch) : Prop where
  proper : h.Proper stretch.shown
  owned : Owned stretch.runner (h.after stretch.shown)
  await : ∀ a ∈ stretch.await, AwaitOwned stretch.runner (h.after stretch.shown) a

variable {s : TrackRunner} {h : Ownership} {time : ℚ}

theorem Owned.not_foreign (hs : Owned s h) {icao24 : String} (hmem : icao24 ∈ s.estimator.knownAddresses) :
    ¬ h.Foreign icao24 := by
  obtain ⟨p, -, horigins, hp⟩ := hs.held icao24 hmem
  rintro ⟨q, hq, hgiven⟩
  rw [horigins, Finset.mem_singleton] at hq
  exact hp (hq ▸ hgiven)

/-! ### Stretches -/

theorem forgetPruned_owned (hs : Owned s h) (now : Instant) : Owned (s.forgetPruned now) h := by
  have hmem : ∀ icao24 ∈ (s.forgetPruned now).estimator.knownAddresses,
      icao24 ∈ s.estimator.knownAddresses := by
    intro icao24 hknown
    obtain ⟨record, hget⟩ := TrackEstimator.mem_knownAddresses.mp hknown
    exact TrackEstimator.mem_knownAddresses.mpr ⟨record, TrackEstimator.get?_pruneTerminated hget⟩
  refine ⟨?_, hs.givenUp, ?_, hs.pending⟩
  · intro icao24 record hget
    exact hs.filed icao24 record (TrackEstimator.get?_pruneTerminated hget)
  · intro icao24 hknown
    obtain ⟨p, hp, horigins⟩ := hs.held icao24 (hmem icao24 hknown)
    refine ⟨p, ?_, horigins⟩
    change (s.partitionOf.filterKeys _).get? icao24 = some p
    rw [Dict.get?_filterKeys]
    exact (if_pos (decide_eq_true hknown)).trans hp

/-- Nothing shown, nothing awaited. -/
theorem stretchOwned_done (hs : Owned s h) : StretchOwned h { runner := s } :=
  ⟨trivial, hs, by simp⟩

/-- What a release still lists is all that is held of its partitions, so nothing of them stays. -/
theorem release_owned (hs : Owned s h) (hpending : s.pending = []) {partitions : Finset ℕ}
    {addresses : List String} (hflushing : FlushingOwned s h (.releasePartitions partitions addresses)) :
    StretchOwned h (s.afterFlush time (.releasePartitions partitions addresses)) := by
  obtain ⟨hsub, hlisted⟩ := hflushing
  have hget : ∀ icao24 record, (s.estimator.release addresses).1.tracks.get? icao24 = some record →
      icao24 ∉ addresses ∧ s.estimator.tracks.get? icao24 = some record :=
    fun icao24 record => TrackEstimator.get?_release_eq_some
  refine ⟨⟨fun _ hspeaks => hspeaks.elim, trivial⟩, ⟨?_, ?_, ?_, ?_⟩, by simp [TrackRunner.afterFlush]⟩
  · intro icao24 record hrecord
    exact hs.filed icao24 record (hget icao24 record hrecord).2
  · exact Finset.union_subset hs.givenUp hsub
  · intro icao24 hknown
    obtain ⟨record, hrecord⟩ := TrackEstimator.mem_knownAddresses.mp hknown
    obtain ⟨hnot, hold⟩ := hget icao24 record hrecord
    have hknown' := TrackEstimator.mem_knownAddresses.mpr ⟨record, hold⟩
    obtain ⟨p, hp, horigins, hgiven⟩ := hs.held icao24 hknown'
    refine ⟨p, ?_, horigins, ?_⟩
    · change (addresses.foldl Dict.erase s.partitionOf).get? icao24 = some p
      rw [Dict.get?_foldl_erase, if_neg hnot, hp]
    · intro hmem
      rcases Finset.mem_union.mp hmem with hmem | hmem
      · exact hgiven hmem
      · exact hnot (hlisted icao24 hknown' p hp hmem)
  · change ∀ u ∈ s.pending, _
    rw [hpending]
    exact fun u hu => absurd hu List.not_mem_nil

theorem afterFlush_owned (hs : Owned s h) (hpending : s.pending = []) {flushing : Flushing}
    (hflushing : FlushingOwned s h flushing) : StretchOwned h (s.afterFlush time flushing) := by
  have hs' : Owned { s with lastFlush := time } h := ⟨hs.filed, hs.givenUp, hs.held, hs.pending⟩
  cases flushing with
  | handle => exact stretchOwned_done hs'
  | sweepNow now changed =>
    simp only [TrackRunner.afterFlush]
    split
    · exact stretchOwned_done (forgetPruned_owned hs' now)
    · refine ⟨⟨?_, trivial⟩, ⟨hs.filed, hs.givenUp, hs.held, hs.pending⟩, ?_⟩
      · intro icao24 hspeaks
        obtain ⟨u, hu, htrack⟩ := List.mem_map.mp hspeaks
        obtain ⟨hid, hforeign⟩ := hflushing u (List.mem_of_mem_filter hu)
        rw [hid] at htrack
        exact trackIdFor_inj htrack ▸ hforeign
      · rintro a ⟨⟩
        trivial
  | releasePartitions partitions addresses => exact release_owned hs hpending hflushing

theorem flush_owned (hs : Owned s h) {exclude : List String} {flushing : Flushing}
    (hflushing : FlushingOwned s h flushing) : StretchOwned h (s.flush time exclude flushing) := by
  unfold TrackRunner.flush
  split
  · next hpending => exact afterFlush_owned hs hpending hflushing
  · refine ⟨⟨fun _ hspeaks => hspeaks.elim, trivial⟩, ⟨hs.filed, hs.givenUp, hs.held, by simp⟩, ?_⟩
    rintro a ⟨⟩
    exact ⟨rfl, hs.pending, hflushing⟩

/-! ### Entering -/

theorem initiates_of_not_mem {e : TrackEstimator} {icao24 : String} (h : icao24 ∉ e.knownAddresses) :
    e.initiates icao24 = true := by
  rw [TrackEstimator.initiates, Dict.get?_eq_none_iff.mpr h]

/-- An accepted report leaves its partition as the aircraft's only origin. -/
theorem see_accepted (hs : Owned s h) {report : SurveillanceReport} {partition : ℕ}
    (hmapped : s.partitionOf.get? report.icao24 = some partition) :
    h.see (.accepted report partition (s.estimator.initiates report.icao24)) =
      { h with origins := Function.update h.origins report.icao24 {partition} } := by
  simp only [see]
  split_ifs with hinit
  · rfl
  · have hknown : report.icao24 ∈ s.estimator.knownAddresses := by
      by_contra hnot
      exact hinit (initiates_of_not_mem hnot)
    obtain ⟨p, hp, horigins, -⟩ := hs.held _ hknown
    obtain rfl : p = partition := Option.some.inj (hp.symm.trans hmapped)
    rw [horigins, Finset.insert_eq_of_mem (Finset.mem_singleton_self p)]

/-- A report from an owned partition makes no aircraft foreign, its own least of all. -/
theorem not_foreign_update (icao24 : String) {partition : ℕ} (hgiven : partition ∉ h.givenUp) :
    ∀ other, other = icao24 ∨ ¬ h.Foreign other →
      ¬ Foreign { h with origins := Function.update h.origins icao24 {partition} } other := by
  rintro other hother ⟨p, hp, hmem⟩
  replace hp : p ∈ Function.update h.origins icao24 {partition} other := hp
  by_cases heq : other = icao24
  · rw [heq, Function.update_self, Finset.mem_singleton] at hp
    exact hgiven (hp ▸ hmem)
  · rw [Function.update_of_ne heq] at hp
    exact hother.resolve_left heq ⟨p, hp, hmem⟩

theorem handle_owned (hs : Owned s h) {report : SurveillanceReport} {partition : ℕ}
    (hmapped : partition ∉ s.revoked → s.partitionOf.get? report.icao24 = some partition) :
    StretchOwned h (s.handle report partition) := by
  unfold TrackRunner.handle
  split_ifs with hrevoked
  · exact stretchOwned_done ⟨hs.filed, hs.givenUp, hs.held, hs.pending⟩
  · have hafter : ∀ u, h.after [.accepted report partition (s.estimator.initiates report.icao24),
        .published u] = { h with origins := Function.update h.origins report.icao24 {partition} } :=
      fun u => see_accepted hs (hmapped hrevoked)
    have hgiven : partition ∉ h.givenUp := fun hmem => hrevoked (hs.givenUp hmem)
    have hclear := not_foreign_update report.icao24 hgiven
    obtain ⟨hfiled, hicao, htrack⟩ := TrackEstimator.filed_onReport hs.filed report
    have hours : Ours { h with origins := Function.update h.origins report.icao24 {partition} }
        (s.estimator.onReport report).2 := ⟨by rw [hicao, htrack], hclear _ (Or.inl hicao)⟩
    refine ⟨⟨fun _ hspeaks => hspeaks.elim, ?_, trivial⟩, ?_, ?_⟩
    · rintro icao24 ⟨rfl, -⟩
      rw [see_accepted hs (hmapped hrevoked)]
      exact hours.2
    · change Owned _ (h.after [_, _])
      rw [hafter]
      refine ⟨hfiled, hs.givenUp, ?_, fun u hu => ?_⟩
      · intro icao24 hknown
        by_cases heq : icao24 = report.icao24
        · subst heq
          exact ⟨partition, hmapped hrevoked, Function.update_self .., hgiven⟩
        · have hold := (TrackEstimator.mem_knownAddresses_onReport.mp hknown).resolve_left heq
          obtain ⟨p, hp, horigins, hnot⟩ := hs.held icao24 hold
          exact ⟨p, hp, (Function.update_of_ne heq ..).trans horigins, hnot⟩
      · exact ⟨(hs.pending u hu).1, hclear _ (Or.inr (hs.pending u hu).2)⟩
    · rintro a ⟨⟩
      change Ours (h.after [_, _]) _
      rw [hafter]
      exact hours

theorem sweepNow_owned (hs : Owned s h) (now : Instant) : StretchOwned h (s.sweepNow now) := by
  obtain ⟨hfiled, hout⟩ := TrackEstimator.filed_sweep hs.filed now
  have hs' : Owned { s with estimator := (s.estimator.sweep now).1 } h := by
    refine ⟨hfiled, hs.givenUp, ?_, hs.pending⟩
    intro icao24 hknown
    exact hs.held icao24 (TrackEstimator.knownAddresses_sweep (e := s.estimator) now ▸ hknown)
  have hours : ∀ u ∈ (s.estimator.sweep now).2, Ours h u := by
    intro u hu
    obtain ⟨hknown, htrack⟩ := hout u hu
    exact ⟨htrack, hs.not_foreign hknown⟩
  simp only [TrackRunner.sweepNow]
  split
  · exact stretchOwned_done (forgetPruned_owned hs' now)
  · next update rest heq =>
    rw [heq] at hours
    refine ⟨⟨?_, trivial⟩, hs', ?_⟩
    · rintro icao24 ⟨rfl, -⟩
      exact (hours update (List.mem_cons_self ..)).2
    · rintro a ⟨⟩
      rw [heq]
      exact ⟨hours, fun u hu => List.mem_cons_of_mem _ hu⟩

theorem releasePartitions_owned (hs : Owned s h) (partitions : Finset ℕ) :
    StretchOwned h (s.releasePartitions time partitions) := by
  have hs' : Owned { s with revoked := s.revoked ∪ partitions } h :=
    ⟨hs.filed, hs.givenUp.trans Finset.subset_union_left, hs.held, hs.pending⟩
  refine flush_owned hs' ?_
  change _ ∧ _
  refine ⟨Finset.subset_union_right, ?_⟩
  intro icao24 _ p hp hmem
  refine List.mem_map.mpr ⟨(icao24, p), List.mem_filter.mpr ⟨?_, by simpa using hmem⟩, rfl⟩
  exact Dict.get?_eq_some_iff.mp hp

theorem claimPartitions_owned (hs : Owned s h) (partitions : Finset ℕ) :
    StretchOwned h (s.claimPartitions partitions) := by
  refine ⟨⟨fun _ hspeaks => hspeaks.elim, trivial⟩,
    ⟨hs.filed, Finset.sdiff_subset_sdiff hs.givenUp (le_refl _), ?_, fun u hu => ?_⟩, by
      simp [TrackRunner.claimPartitions]⟩
  · intro icao24 hknown
    obtain ⟨p, hp, horigins, hnot⟩ := hs.held icao24 hknown
    exact ⟨p, hp, horigins, fun hmem => hnot (Finset.sdiff_subset hmem)⟩
  · obtain ⟨htrack, hforeign⟩ := hs.pending u hu
    exact ⟨htrack, fun hf => hforeign hf.before_claim⟩

/-- A call that gets the lock; a report needs its map entry. -/
theorem enter_owned (hs : Owned s h) {request : Request}
    (hmapped : ∀ report partition, request = .handle report partition → partition ∉ s.revoked →
      s.partitionOf.get? report.icao24 = some partition) :
    StretchOwned h (s.enter time request) := by
  cases request with
  | handle report partition => exact handle_owned hs (hmapped report partition rfl)
  | sweepNow now => exact sweepNow_owned hs now
  | releasePartitions partitions => exact releasePartitions_owned hs partitions
  | claimPartitions partitions => exact claimPartitions_owned hs partitions

/-! ### Resuming -/

theorem pending_append_owned (hs : Owned s h) {us : List TrackUpdate} (hus : ∀ u ∈ us, Ours h u) :
    Owned { s with published := s.published + 1, pending := s.pending ++ us } h := by
  refine ⟨hs.filed, hs.givenUp, hs.held, ?_⟩
  intro u hu
  rcases List.mem_append.mp hu with hu | hu
  · exact hs.pending u hu
  · exact hus u hu

theorem resume_owned (hs : Owned s h) {await : Await} (hawait : AwaitOwned s h await) :
    StretchOwned h (s.resume time await) := by
  cases await with
  | handlePublish update =>
    have hours : Ours h update := hawait
    have hs' : Owned { s with published := s.published + 1, pending := s.pending ++ [update] } h :=
      pending_append_owned hs (by simpa using hours)
    simp only [TrackRunner.resume]
    split_ifs
    · exact flush_owned hs' trivial
    · exact stretchOwned_done hs'
  | sweepPublish now changed rest =>
    obtain ⟨hours, hrest⟩ := hawait
    cases rest with
    | nil => exact flush_owned (pending_append_owned hs hours) hours
    | cons update rest =>
      refine ⟨⟨?_, trivial⟩, ⟨hs.filed, hs.givenUp, hs.held, hs.pending⟩, ?_⟩
      · rintro icao24 ⟨rfl, -⟩
        exact (hours update (hrest update (List.mem_cons_self ..))).2
      · rintro a ⟨⟩
        exact ⟨hours, fun u hu => hrest u (List.mem_cons_of_mem _ hu)⟩
  | record batch exclude flushing =>
    obtain ⟨hpending, hours, hflushing⟩ := hawait
    simp only [TrackRunner.resume]
    split
    · exact afterFlush_owned hs hpending hflushing
    · refine ⟨⟨?_, trivial⟩, hs, ?_⟩
      · rintro icao24 ⟨u, hu, rfl⟩
        exact (hours u (List.mem_of_mem_filter hu)).2
      · rintro a ⟨⟩
        exact ⟨hpending, hflushing⟩
  | livePublish flushing => exact afterFlush_owned hs hawait.1 hawait.2
  | forget now => exact stretchOwned_done (forgetPruned_owned hs now)

/-! ### Turns -/

/-- The service between two turns. -/
structure ServiceOwned (s : TrackService) (h : Ownership) : Prop where
  runner : Owned s.runner h
  holder : ∀ await ∈ s.holder, AwaitOwned s.runner h await

/-- The condition on a turn: a report of an aircraft held arrives from the partition the map has for it,
    and a report that waited finds its map entry when it gets the lock. -/
def TrackService.Mapped (s : TrackService) : ℚ × Turn → Prop
  | (_, .envelope report partition) => report.icao24 ∈ s.runner.estimator.knownAddresses →
    s.runner.partitionOf.get? report.icao24 = some partition
  | (_, .grant) => ∀ report partition rest, s.waiting = .handle report partition :: rest →
    partition ∉ s.runner.revoked → s.runner.partitionOf.get? report.icao24 = some partition
  | _ => True

variable {t t' : TrackService}

theorem mapped_resume : t.Mapped (time, .resume) := trivial

theorem mapped_revoke {tps : List TopicPartition} : t.Mapped (time, .revoke tps) := trivial

theorem ran_owned {stretch : Stretch} (hstretch : StretchOwned h stretch) {shown : List RunnerEvent}
    (hran : t.ran stretch = (t', shown)) : ServiceOwned t' (h.after shown) ∧ h.Proper shown := by
  cases hran
  exact ⟨⟨hstretch.owned, hstretch.await⟩, hstretch.proper⟩

theorem acquire_owned (ht : ServiceOwned t h) {request : Request}
    (hmapped : ∀ report partition, request = .handle report partition → partition ∉ t.runner.revoked →
      t.runner.partitionOf.get? report.icao24 = some partition) {shown : List RunnerEvent}
    (hacquire : t.acquire time request = (t', shown)) :
    ServiceOwned t' (h.after shown) ∧ h.Proper shown := by
  unfold TrackService.acquire at hacquire
  split at hacquire
  · exact ran_owned (enter_owned ht.runner hmapped) hacquire
  · cases hacquire
    exact ⟨⟨ht.runner, ht.holder⟩, trivial⟩

/-- `run` writes a map entry only where nothing is held or the entry is there already. -/
theorem envelope_owned (ht : ServiceOwned t h) {report : SurveillanceReport} {partition : ℕ}
    (hmapped : report.icao24 ∈ t.runner.estimator.knownAddresses →
      t.runner.partitionOf.get? report.icao24 = some partition) :
    ServiceOwned (t.envelope report partition) h := by
  have hsame : ∀ icao24 ∈ t.runner.estimator.knownAddresses,
      (t.runner.partitionOf.set report.icao24 partition).get? icao24 =
        t.runner.partitionOf.get? icao24 := by
    intro icao24 hknown
    rw [Dict.get?_set]
    split_ifs with heq
    · rw [heq, hmapped (heq ▸ hknown)]
    · rfl
  have hflushing : ∀ flushing, FlushingOwned t.runner h flushing →
      FlushingOwned (t.envelope report partition).runner h flushing := by
    rintro (_ | _ | ⟨partitions, addresses⟩) hf
    · trivial
    · exact hf
    · refine ⟨hf.1, fun icao24 hknown p hp => hf.2 icao24 hknown p ?_⟩
      rwa [← hsame icao24 hknown]
  refine ⟨⟨ht.runner.filed, ht.runner.givenUp, ?_, ht.runner.pending⟩, ?_⟩
  · intro icao24 hknown
    obtain ⟨p, hp, horigins⟩ := ht.runner.held icao24 hknown
    exact ⟨p, (hsame icao24 hknown).trans hp, horigins⟩
  · intro await hawait
    have hold := ht.holder await hawait
    cases await with
    | record batch exclude flushing => exact ⟨hold.1, hold.2.1, hflushing flushing hold.2.2⟩
    | livePublish flushing => exact ⟨hold.1, hflushing flushing hold.2⟩
    | handlePublish update => exact hold
    | sweepPublish now changed rest => exact hold
    | forget now => exact hold

/-- One turn. -/
theorem step_owned (ht : ServiceOwned t h) {turn : Turn} (hmapped : t.Mapped (time, turn))
    {shown : List RunnerEvent} (hstep : t.step time turn = some (t', shown)) :
    ServiceOwned t' (h.after shown) ∧ h.Proper shown := by
  cases turn with
  | envelope report partition =>
    simp only [TrackService.step] at hstep
    split_ifs at hstep
    refine acquire_owned (envelope_owned ht hmapped) ?_ (Option.some.inj hstep)
    rintro _ _ ⟨⟩ _
    change (t.runner.partitionOf.set report.icao24 partition).get? report.icao24 = some partition
    rw [Dict.get?_set, if_pos rfl]
  | sweep now => exact acquire_owned ht (by simp) (Option.some.inj hstep)
  | revoke tps =>
    simp only [TrackService.step] at hstep
    split_ifs at hstep
    · cases hstep
      exact ⟨ht, trivial⟩
    · exact acquire_owned ht (by simp) (Option.some.inj hstep)
  | assign tps =>
    simp only [TrackService.step] at hstep
    split_ifs at hstep
    · cases hstep
      exact ⟨ht, trivial⟩
    · exact acquire_owned ht (by simp) (Option.some.inj hstep)
  | grant =>
    simp only [TrackService.step] at hstep
    split at hstep
    · next request rest _ hwaiting =>
      have hrequest : ∀ report partition, request = .handle report partition →
          partition ∉ t.runner.revoked →
          t.runner.partitionOf.get? report.icao24 = some partition := by
        rintro report partition rfl
        exact hmapped report partition rest hwaiting
      exact ran_owned (enter_owned ht.runner hrequest) (Option.some.inj hstep)
    · cases hstep
  | resume =>
    obtain ⟨await, hawait, hran⟩ := Option.map_eq_some_iff.mp hstep
    exact ran_owned (resume_owned ht.runner (ht.holder await hawait)) hran

/-! ### Runs -/

theorem run_owned {start : TrackService} (h0 : ServiceOwned start {}) {log : List RunnerEvent}
    (hrun : TrackService.machine.Run TrackService.Mapped start t log) :
    ServiceOwned t (after {} log) ∧ Proper {} log := by
  refine hrun.invariant (I := fun t log => ServiceOwned t (after {} log) ∧ Proper {} log)
    ⟨h0, trivial⟩ ?_
  rintro t log turn t' shown ⟨ht, hproper⟩ hmapped hstep
  obtain ⟨ht', hshown⟩ := step_owned ht hmapped hstep
  exact ⟨after_append {} log shown ▸ ht', proper_append.mpr ⟨hproper, hshown⟩⟩

end Airspace
