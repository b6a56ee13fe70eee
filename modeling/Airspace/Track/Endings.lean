import Airspace.Track.Refusals

/-! Telling that a track has ended.

    A sweep ends tracks in the estimator first and then tells: it publishes the updates, has them
    recorded, and deletes the live entries. A terminated record is passed over by every later sweep, so a
    sweep that fails in between is not made up for: the end stays untold, and pruning drops the record. As
    long as no call of a sweep that has an end to tell raises, and the estimator does not refuse to build an
    update once it has ended a track, every end is told by the sweep that found it. -/

namespace Airspace

noncomputable section

/-- What has become of an aircraft's track: it goes on, or it has ended, and its end has been announced and
    its live entry removed or not. -/
inductive Fate where
  | alive
  | ended (announced removed : Bool)

namespace Fate

def announce : Fate → Fate
  | .alive => .alive
  | .ended _ removed => .ended true removed

def remove : Fate → Fate
  | .alive => .alive
  | .ended announced _ => .ended announced true

/-- The live entry may be there again. -/
def rewrite : Fate → Fate
  | .alive => .alive
  | .ended announced _ => .ended announced false

end Fate

/-- The update ends the aircraft's track. -/
def TrackUpdate.Ends (u : TrackUpdate) (icao24 : String) : Prop := u.icao24 = icao24 ∧ u.state = .terminated

instance (u : TrackUpdate) (icao24 : String) : Decidable (u.Ends icao24) :=
  inferInstanceAs (Decidable (_ ∧ _))

/-- What an event says of an aircraft's track. A live write that raises may have been done. -/
def tell (icao24 : String) (fate : Fate) : ProcessEvent → Fate
  | .swept changed => if ∃ u ∈ changed, u.Ends icao24 then .ended false false else fate
  | .shown (.accepted report _ _) => if report.icao24 = icao24 then .alive else fate
  | .returned (.published u) => if u.Ends icao24 then fate.announce else fate
  | .returned (.forgotten trackIds) => if trackIdFor icao24 ∈ trackIds then fate.remove else fate
  | .returned (.liveWritten batch) | .raised (.liveWritten batch) =>
    if ∃ u ∈ batch, u.icao24 = icao24 then fate.rewrite else fate
  | _ => fate

def fateOf (log : List ProcessEvent) (icao24 : String) : Fate := log.foldl (tell icao24) .alive

theorem fateOf_append (log later : List ProcessEvent) (icao24 : String) :
    fateOf (log ++ later) icao24 = later.foldl (tell icao24) (fateOf log icao24) := List.foldl_append ..

/-- A sweep is suspended here that has an end to tell. -/
def Await.Tells : Await → Prop
  | .sweepPublish _ changed _ | .record _ _ (.sweepNow _ changed) | .livePublish (.sweepNow _ changed) =>
    ∃ u ∈ changed, u.state = .terminated
  | .forget _ => True
  | _ => False

/-- The condition on a turn: no call of a sweep with an end to tell raises, and `run` goes on. -/
def TrackProcess.SweepsTell (p : TrackProcess) : ℚ × ProcessTurn → Prop
  | (_, .raise) => ∀ await, p.service.holder = some await → ¬ await.Tells
  | (_, .close) => False
  | _ => True

/-- The condition on a turn of the service with an estimator that raises: a sweep that is stopped has ended no
    track. Reports are those their contract admits. -/
structure TrackProcess.EndsTell (p : TrackProcess) (turn : ℚ × ProcessTurn) : Prop where
  tells : p.SweepsTell turn
  keeps : ∀ serviceTurn runner now, turn.2 = .turn serviceTurn →
    p.service.lets serviceTurn = some (runner, .sweepNow now) → runner.estimator.LosesNoEnd now
  admits : ∀ request, turn.2.request = some request → request.Admits

/-! ### The invariant -/

/-- The track goes on, or its end is told and none of the updates is of it. -/
def Settled (us : List TrackUpdate) (fate : Fate) (icao24 : String) : Prop :=
  fate = .alive ∨ fate = .ended true true ∧ ∀ u ∈ us, u.icao24 ≠ icao24

/-- The end is among those a sweep tells: still held, and announced unless its update is still to be
    published. -/
structure Telling (e : TrackEstimator) (changed rest : List TrackUpdate) (fate : Fate) (icao24 : String) :
    Prop where
  ends : ∃ u ∈ changed, u.Ends icao24
  held : icao24 ∈ e.knownAddresses
  fate : ∃ announced removed, fate = .ended announced removed ∧
    (announced = true ∨ ∃ u ∈ rest, u.Ends icao24)

/-- Every track of an aircraft is settled or its end is being told. -/
def SettledBut (e : TrackEstimator) (us changed rest : List TrackUpdate) (fate : String → Fate) : Prop :=
  ∀ icao24, Settled us (fate icao24) icao24 ∨ Telling e changed rest (fate icao24) icao24

/-- What a flush still has to tell, with a batch under way. -/
def FlushTold (e : TrackEstimator) (batch : List TrackUpdate) (fate : String → Fate) : Flushing → Prop
  | .sweepNow _ changed =>
    (∀ u ∈ changed, u.trackId = trackIdFor u.icao24) ∧ SettledBut e batch changed [] fate
  | _ => ∀ icao24, Settled batch (fate icao24) icao24

/-- What a suspended coroutine still has to tell. -/
def AwaitTold (e : TrackEstimator) (pending : List TrackUpdate) (fate : String → Fate)
    (call : Option RunnerEvent) : Await → Prop
  | .handlePublish update => call = some (.published update) ∧ fate update.icao24 = .alive ∧
    ∀ icao24, Settled pending (fate icao24) icao24
  | .sweepPublish _ changed rest => (∀ u ∈ changed, u.trackId = trackIdFor u.icao24) ∧
    ∃ u, call = some (.published u) ∧ SettledBut e (pending ++ changed) changed (u :: rest) fate
  | .record batch _ flushing => pending = [] ∧ call = some (.recorded batch) ∧ FlushTold e batch fate flushing
  | .livePublish flushing => pending = [] ∧
    ∃ batch, call = some (.liveWritten batch) ∧ FlushTold e batch fate flushing
  | .forget _ => pending = [] ∧ ∃ changed trackIds, call = some (.forgotten trackIds) ∧
    (∀ u ∈ changed, u.state = .terminated → trackIdFor u.icao24 ∈ trackIds) ∧ SettledBut e [] changed [] fate

/-- Where the coroutine that holds the lock is. -/
def HolderTold (e : TrackEstimator) (pending : List TrackUpdate) (fate : String → Fate)
    (call : Option RunnerEvent) : Option Await → Prop
  | none => ∀ icao24, Settled pending (fate icao24) icao24
  | some await => AwaitTold e pending fate call await

/-- A track that has ended is terminated in the estimator, if it is still held. -/
structure Over (e : TrackEstimator) (fate : String → Fate) : Prop where
  filed : e.Filed
  ended : ∀ icao24 record, e.tracks.get? icao24 = some record → fate icao24 ≠ .alive →
    record.terminated = true

/-- A stretch leaves every end told or being told. -/
structure StretchTold (fate : String → Fate) (stretch : Stretch) : Prop where
  ended : Over stretch.runner.estimator fate
  holder : HolderTold stretch.runner.estimator stretch.runner.pending fate stretch.call stretch.await

variable {s : TrackRunner} {e e' : TrackEstimator} {fate : String → Fate}
  {us us' changed rest : List TrackUpdate}
  {icao24 : String} {time : ℚ} {flushing : Flushing} {call : Option RunnerEvent} {await : Await}

theorem Settled.mono {f : Fate} (h : Settled us f icao24) (hsub : ∀ u ∈ us', u ∈ us) :
    Settled us' f icao24 :=
  h.imp_right fun hended => ⟨hended.1, fun u hu => hended.2 u (hsub u hu)⟩

theorem SettledBut.mono (h : SettledBut e us changed rest fate) (hsub : ∀ u ∈ us', u ∈ us) :
    SettledBut e us' changed rest fate := fun icao24 => (h icao24).imp_left fun hs => hs.mono hsub

theorem FlushTold.mono (h : FlushTold e us fate flushing) (hsub : ∀ u ∈ us', u ∈ us) :
    FlushTold e us' fate flushing := by
  cases flushing with
  | sweepNow now changed => exact ⟨h.1, h.2.mono hsub⟩
  | handle | releasePartitions partitions addresses => exact fun icao24 => (h icao24).mono hsub

/-- A sweep without a termination has nothing to tell. -/
theorem SettledBut.settled (h : SettledBut e us changed rest fate)
    (hnone : ∀ u ∈ changed, u.state ≠ .terminated) : ∀ icao24, Settled us (fate icao24) icao24 := by
  intro icao24
  refine (h icao24).resolve_right fun htelling => ?_
  obtain ⟨u, hu, -, hterminated⟩ := htelling.ends
  exact hnone u hu hterminated

theorem FlushTold.settled (h : FlushTold e us fate flushing)
    (hnone : ∀ now changed, flushing = .sweepNow now changed → ∀ u ∈ changed, u.state ≠ .terminated) :
    ∀ icao24, Settled us (fate icao24) icao24 := by
  cases flushing with
  | sweepNow now changed => exact h.2.settled (hnone now changed rfl)
  | handle | releasePartitions partitions addresses => exact h

/-- An estimator that has lost records, or none, is over where it was. -/
theorem Over.of_get? (h : Over e fate)
    (hget : ∀ icao24 record, e'.tracks.get? icao24 = some record → e.tracks.get? icao24 = some record) :
    Over e' fate :=
  ⟨fun icao24 record hr => h.filed icao24 record (hget icao24 record hr),
    fun icao24 record hr => h.ended icao24 record (hget icao24 record hr)⟩

theorem over_forgetPruned (h : Over s.estimator fate) (now : Instant) :
    Over (s.forgetPruned now).estimator fate :=
  h.of_get? fun _ _ hr => TrackEstimator.get?_pruneTerminated hr

/-! ### Flushes -/

theorem afterFlush_told (hover : Over s.estimator fate) (hpending : s.pending = [])
    (h : FlushTold s.estimator [] fate flushing) : StretchTold fate (s.afterFlush time flushing) := by
  have hall : (∀ icao24, Settled [] (fate icao24) icao24) → ∀ icao24,
      Settled s.pending (fate icao24) icao24 := by
    rw [hpending]
    exact id
  cases flushing with
  | handle => exact ⟨hover, hall h⟩
  | sweepNow now changed =>
    obtain ⟨hids, htold⟩ := h
    simp only [TrackRunner.afterFlush]
    split
    · next hnone =>
      have hsettled := htold.settled fun u hu hterminated => by
        have hmem : u ∈ changed.filter fun u => decide (u.state = .terminated) :=
          List.mem_filter.mpr ⟨hu, decide_eq_true hterminated⟩
        rw [hnone] at hmem
        exact absurd hmem List.not_mem_nil
      exact ⟨over_forgetPruned hover now, hall hsettled⟩
    · refine ⟨hover, hpending, changed, _, rfl, ?_, htold⟩
      intro u hu hterminated
      rw [← hids u hu]
      exact List.mem_map_of_mem (List.mem_filter.mpr ⟨hu, decide_eq_true hterminated⟩)
  | releasePartitions partitions addresses =>
    exact ⟨hover.of_get? fun _ _ hr => (TrackEstimator.get?_release_eq_some hr).2, hall h⟩

theorem flush_told (hover : Over s.estimator fate) (exclude : List String) (flushing : Flushing)
    (h : FlushTold s.estimator s.pending fate flushing) :
    StretchTold fate (s.flush time exclude flushing) := by
  unfold TrackRunner.flush
  split
  · next hpending => exact afterFlush_told hover hpending (hpending ▸ h)
  · exact ⟨hover, rfl, rfl, h⟩

/-! ### Events that say nothing -/

/-- Of what a stretch shows only an accepted report says something of a track. -/
def Quiet (event : RunnerEvent) : Prop := ∀ report partition initiated,
    event ≠ .accepted report partition initiated

theorem foldl_tell_shown {shown : List RunnerEvent} (h : ∀ event ∈ shown, Quiet event) (f : Fate) :
    (shown.map ProcessEvent.shown).foldl (tell icao24) f = f := by
  induction shown with
  | nil => rfl
  | cons event shown ih =>
    have hfirst : tell icao24 f (.shown event) = f := by
      cases event with
      | accepted report partition initiated => exact absurd rfl (h _ (List.mem_cons_self ..) _ _ _)
      | _ => rfl
    rw [List.map_cons, List.foldl_cons, hfirst]
    exact ih fun event hevent => h event (List.mem_cons_of_mem _ hevent)

theorem afterFlush_quiet : ∀ event ∈ (s.afterFlush time flushing).shown, Quiet event := by
  cases flushing with
  | handle => simp [TrackRunner.afterFlush]
  | sweepNow now changed =>
    simp only [TrackRunner.afterFlush]
    split <;> simp [Quiet]
  | releasePartitions partitions addresses => simp [TrackRunner.afterFlush, Quiet]

theorem flush_quiet (exclude : List String) :
    ∀ event ∈ (s.flush time exclude flushing).shown, Quiet event := by
  unfold TrackRunner.flush
  split
  · exact afterFlush_quiet
  · simp [Quiet]

theorem resume_quiet (await : Await) : ∀ event ∈ (s.resume time await).shown, Quiet event := by
  cases await with
  | handlePublish update =>
    simp only [TrackRunner.resume]
    split_ifs
    · exact flush_quiet []
    · simp
  | sweepPublish now changed rest =>
    cases rest with
    | nil => exact flush_quiet []
    | cons update rest => simp [TrackRunner.resume, Quiet]
  | record batch exclude flushing =>
    simp only [TrackRunner.resume]
    split
    · exact afterFlush_quiet
    · simp [Quiet]
  | livePublish flushing => exact afterFlush_quiet
  | forget now => simp [TrackRunner.resume]

/-- A flush is not the beginning of a sweep. -/
theorem begun_flush (exclude : List String) : (s.flush time exclude flushing).begun =
    (s.flush time exclude flushing).shown.map .shown := by
  have hafter : (s.afterFlush time flushing).await.bind Await.sweeps = none := by
    cases flushing with
    | handle | releasePartitions partitions addresses => rfl
    | sweepNow now changed =>
      simp only [TrackRunner.afterFlush]
      split <;> rfl
  have hflush : (s.flush time exclude flushing).await.bind Await.sweeps = none := by
    unfold TrackRunner.flush
    split
    · exact hafter
    · rfl
  rw [Stretch.begun, hflush]
  rfl

/-! ### Entering -/

/-- What a sweep does to the record of an aircraft, and what it has to announce of it. -/
theorem sweep_told (hover : Over e fate) (now : Instant) :
    Over (e.sweep now).1 (fun icao24 => if ∃ u ∈ (e.sweep now).2, u.Ends icao24 then .ended false false
      else fate icao24) ∧ ∀ u ∈ (e.sweep now).2, fate u.icao24 = .alive := by
  have hrecord : ∀ u ∈ (e.sweep now).2, ∃ record, e.tracks.get? u.icao24 = some record ∧
      (e.sweepRecord now record).2 = some u := by
    intro u hu
    obtain ⟨record, hmem, hout⟩ := List.mem_filterMap.mp hu
    obtain ⟨key, hkey⟩ := Dict.mem_values_iff.mp hmem
    obtain ⟨hicao, -⟩ := (TrackEstimator.isOf_sweepRecord (hover.filed key record hkey) now).2 u hout
    exact ⟨record, hicao ▸ hkey, hout⟩
  refine ⟨⟨(TrackEstimator.filed_sweep hover.filed now).1, ?_⟩, ?_⟩
  · intro icao24 record hget hended
    rw [TrackEstimator.sweep, Dict.get?_mapValues, Option.map_eq_some_iff] at hget
    obtain ⟨old, hold, rfl⟩ := hget
    by_cases hends : ∃ u ∈ (e.sweep now).2, u.Ends icao24
    · obtain ⟨u, hu, rfl, hterminated⟩ := hends
      obtain ⟨old', hold', hout⟩ := hrecord u hu
      obtain rfl : old = old' := Option.some.inj (hold.symm.trans hold')
      rcases (TrackEstimator.announced_sweepRecord hout).coasting_or with ⟨hcoasting, -⟩ | ⟨-, hdone⟩
      · rw [hcoasting] at hterminated
        cases hterminated
      · exact hdone
    · rw [if_neg hends] at hended
      have hdone := hover.ended icao24 old hold hended
      rwa [TrackEstimator.sweepRecord_of_terminated hdone]
  · intro u hu
    obtain ⟨record, hget, hout⟩ := hrecord u hu
    by_contra hended
    have hlive := (TrackEstimator.announced_sweepRecord hout).live
    rw [hover.ended _ record hget hended] at hlive
    cases hlive

/-- A report brings its aircraft's track back, or goes on with it. -/
theorem over_onReport (hover : Over e fate) (report : SurveillanceReport) :
    Over (e.onReport report).1 fun icao24 => if report.icao24 = icao24 then .alive else fate icao24 := by
  refine ⟨(TrackEstimator.filed_onReport hover.filed report).1, ?_⟩
  intro icao24 record hget hended
  by_cases heq : report.icao24 = icao24
  · exact absurd (if_pos heq) hended
  · rw [if_neg heq] at hended
    refine hover.ended icao24 record ?_ hended
    rwa [TrackEstimator.onReport, Dict.get?_set, if_neg (Ne.symm heq)] at hget

theorem settled_accepted (h : ∀ icao24, Settled us (fate icao24) icao24) (report : SurveillanceReport)
    (icao24 : String) : Settled us (if report.icao24 = icao24 then .alive else fate icao24) icao24 := by
  split_ifs
  · exact .inl rfl
  · exact h icao24

theorem handle_told (hover : Over s.estimator fate) (h : ∀ icao24, Settled s.pending (fate icao24) icao24)
    (report : SurveillanceReport) (partition : ℕ) :
    StretchTold (fun icao24 => (s.handle report partition).begun.foldl (tell icao24) (fate icao24))
      (s.handle report partition) := by
  unfold TrackRunner.handle
  split_ifs
  · exact ⟨hover, h⟩
  · have hfate : (fun icao24 => if report.icao24 = icao24 then Fate.alive else fate icao24) = fun icao24 =>
        [ProcessEvent.shown (.accepted report partition (s.estimator.initiates report.icao24)),
          .shown (.published (s.estimator.onReport report).2)].foldl (tell icao24) (fate icao24) := rfl
    change StretchTold (fun icao24 => List.foldl _ _ [_, _]) _
    rw [← hfate]
    obtain ⟨-, hicao, -⟩ := TrackEstimator.filed_onReport hover.filed report
    refine ⟨over_onReport hover report, rfl, ?_, settled_accepted h report⟩
    change (if report.icao24 = (s.estimator.onReport report).2.icao24 then _ else _) = Fate.alive
    rw [if_pos hicao.symm]

theorem sweepNow_told (hover : Over s.estimator fate) (h : ∀ icao24, Settled s.pending (fate icao24) icao24)
    (now : Instant) :
    StretchTold (fun icao24 => (s.sweepNow now).begun.foldl (tell icao24) (fate icao24)) (s.sweepNow now) := by
  obtain ⟨hover', halive⟩ := sweep_told hover now
  simp only [TrackRunner.sweepNow]
  split
  · next hnone =>
    refine ⟨over_forgetPruned ?_ now, h⟩
    change Over (s.estimator.sweep now).1 fate
    simpa only [hnone, List.not_mem_nil, false_and, exists_false, if_false] using hover'
  · next update rest heq =>
    refine ⟨hover', ?_, update, rfl, ?_⟩
    · intro u hu
      exact ((TrackEstimator.filed_sweep hover.filed now).2 u hu).2
    · intro icao24
      change Settled _ (if ∃ u ∈ (s.estimator.sweep now).2, u.Ends icao24 then _ else _) icao24 ∨
        Telling _ _ _ (if ∃ u ∈ (s.estimator.sweep now).2, u.Ends icao24 then _ else _) icao24
      split_ifs with hends
      · refine .inr ⟨hends, ?_, false, false, rfl, .inr (heq ▸ hends)⟩
        obtain ⟨u, hu, rfl, -⟩ := hends
        change u.icao24 ∈ (s.estimator.sweep now).1.knownAddresses
        rw [TrackEstimator.knownAddresses_sweep]
        exact ((TrackEstimator.filed_sweep hover.filed now).2 u hu).1
      · refine .inl ((h icao24).imp_right fun hended => ⟨hended.1, fun u hu => ?_⟩)
        rcases List.mem_append.mp hu with hu | hu
        · exact hended.2 u hu
        · rintro rfl
          cases (halive u hu).symm.trans hended.1

/-- A call that gets the lock while every end is told. -/
theorem enter_told (hover : Over s.estimator fate) (h : ∀ icao24, Settled s.pending (fate icao24) icao24)
    (request : Request) :
    StretchTold (fun icao24 => (s.enter time request).begun.foldl (tell icao24) (fate icao24))
      (s.enter time request) := by
  cases request with
  | handle report partition => exact handle_told hover h report partition
  | sweepNow now => exact sweepNow_told hover h now
  | releasePartitions partitions =>
    simp only [TrackRunner.enter, TrackRunner.releasePartitions, begun_flush,
      foldl_tell_shown (flush_quiet _)]
    exact flush_told (s := { s with revoked := s.revoked ∪ partitions }) hover _ (.releasePartitions ..) h
  | claimPartitions partitions => exact ⟨hover, h⟩

/-! ### Resuming -/

theorem Settled.announce {f : Fate} (h : Settled us f icao24) : Settled us f.announce icao24 := by
  rcases h with rfl | ⟨rfl, hnot⟩
  · exact .inl rfl
  · exact .inr ⟨rfl, hnot⟩

theorem Settled.remove {f : Fate} (h : Settled us f icao24) : Settled us f.remove icao24 := by
  rcases h with rfl | ⟨rfl, hnot⟩
  · exact .inl rfl
  · exact .inr ⟨rfl, hnot⟩

/-- A batch without updates of the aircraft leaves its live entry alone. -/
theorem Settled.rewrite {f : Fate} (h : Settled us f icao24) :
    Settled us (if ∃ u ∈ us, u.icao24 = icao24 then f.rewrite else f) icao24 := by
  rcases h with rfl | ⟨rfl, hnot⟩
  · split_ifs <;> exact .inl rfl
  · rw [if_neg (by simpa only [not_exists, not_and] using hnot)]
    exact .inr ⟨rfl, hnot⟩

/-- Whether a fate is that of a track that goes on is not changed by what calls say. -/
theorem tell_call {f : Fate} {call : RunnerEvent} {e : ProcessEvent}
    (he : e = .returned call ∨ e = .raised call) : tell icao24 f e = .alive ↔ f = .alive := by
  rcases he with rfl | rfl <;> cases call <;> simp only [tell] <;> (try split_ifs) <;> cases f <;>
    simp [Fate.announce, Fate.remove, Fate.rewrite]

theorem Over.tell (h : Over e fate) {call : RunnerEvent} {event : ProcessEvent}
    (he : event = .returned call ∨ event = .raised call) :
    Over e fun icao24 => tell icao24 (fate icao24) event :=
  ⟨h.filed, fun icao24 record hget hended =>
    h.ended icao24 record hget fun halive => hended ((tell_call he).mpr halive)⟩

/-- The published update is told, the others are still to be published. -/
theorem SettledBut.publish {u : TrackUpdate} (h : SettledBut e us changed (u :: rest) fate) :
    SettledBut e us changed rest fun icao24 => tell icao24 (fate icao24) (.returned (.published u)) := by
  intro icao24
  simp only [Airspace.tell]
  rcases h icao24 with hsettled | ⟨hends, hheld, announced, removed, hfate, htold⟩
  · split_ifs
    · exact .inl hsettled.announce
    · exact .inl hsettled
  · refine .inr ⟨hends, hheld, ?_⟩
    rw [hfate]
    split_ifs with hu
    · exact ⟨true, removed, rfl, .inl rfl⟩
    · refine ⟨announced, removed, rfl, htold.imp_right ?_⟩
      rintro ⟨v, hv, hvends⟩
      rcases List.mem_cons.mp hv with rfl | hv
      · exact absurd hvends hu
      · exact ⟨v, hv, hvends⟩

/-- A live write leaves the ends that are being told to be removed. -/
theorem FlushTold.written {returned : ProcessEvent} (h : FlushTold e us fate flushing)
    (hreturned : returned = .returned (.liveWritten us) ∨ returned = .raised (.liveWritten us)) :
    FlushTold e us (fun icao24 => tell icao24 (fate icao24) returned) flushing := by
  have htell : ∀ icao24 f, Airspace.tell icao24 f returned =
      if ∃ u ∈ us, u.icao24 = icao24 then f.rewrite else f := by
    intro icao24 f
    rcases hreturned with rfl | rfl <;> rfl
  simp only [htell]
  cases flushing with
  | handle | releasePartitions partitions addresses => exact fun icao24 => (h icao24).rewrite
  | sweepNow now changed =>
    refine ⟨h.1, fun icao24 => (h.2 icao24).imp (fun hs => hs.rewrite) fun htelling => ?_⟩
    obtain ⟨hends, hheld, announced, removed, hfate, htold⟩ := htelling
    refine ⟨hends, hheld, announced, if ∃ u ∈ us, u.icao24 = icao24 then false else removed, ?_, htold⟩
    change (if _ then (fate icao24).rewrite else fate icao24) = _
    rw [hfate]
    split_ifs <;> rfl

/-- The last call of a sweep removes the live entries of the tracks it ends. -/
theorem SettledBut.forget {trackIds : List String} (h : SettledBut e us changed [] fate)
    (hids : ∀ u ∈ changed, u.state = .terminated → trackIdFor u.icao24 ∈ trackIds)
    (hus : us = []) (icao24 : String) :
    Settled us (tell icao24 (fate icao24) (.returned (.forgotten trackIds))) icao24 := by
  simp only [Airspace.tell]
  rcases h icao24 with hsettled | ⟨⟨u, hu, rfl, hterminated⟩, -, announced, removed, hfate, htold⟩
  · split_ifs
    · exact hsettled.remove
    · exact hsettled
  · rw [if_pos (hids u hu hterminated), hfate]
    rcases htold with rfl | ⟨v, hv, -⟩
    · exact .inr ⟨rfl, fun v hv => absurd (hus ▸ hv) List.not_mem_nil⟩
    · exact absurd hv List.not_mem_nil

/-- What the call that returns says. -/
def heard (fate : String → Fate) (call : Option RunnerEvent) (icao24 : String) : Fate :=
  (call.map ProcessEvent.returned).toList.foldl (tell icao24) (fate icao24)

theorem resume_told (hover : Over s.estimator fate) (h : AwaitTold s.estimator s.pending fate call await) :
    StretchTold (heard fate call) (s.resume time await) := by
  cases await with
  | handlePublish update =>
    obtain ⟨rfl, halive, hsettled⟩ := h
    have hsettled' : ∀ icao24, Settled (s.pending ++ [update])
        (heard fate (some (.published update)) icao24) icao24 := by
      intro icao24
      change Settled _ (if _ then _ else _) _
      have hpending : Settled (s.pending ++ [update]) (fate icao24) icao24 := by
        refine (hsettled icao24).imp_right fun hended => ⟨hended.1, fun u hu => ?_⟩
        rcases List.mem_append.mp hu with hu | hu
        · exact hended.2 u hu
        · rintro rfl
          rw [← List.mem_singleton.mp hu, hended.1] at halive
          cases halive
      split_ifs
      · exact hpending.announce
      · exact hpending
    have hover' := hover.tell (.inl (rfl : ProcessEvent.returned (.published update) = _))
    simp only [TrackRunner.resume]
    split_ifs
    · exact flush_told (s := { s with published := s.published + 1, pending := s.pending ++ [update] })
        hover' [] .handle hsettled'
    · exact ⟨hover', hsettled'⟩
  | sweepPublish now changed rest =>
    obtain ⟨hids, u, rfl, htold⟩ := h
    have hover' := hover.tell (.inl (rfl : ProcessEvent.returned (.published u) = _))
    cases rest with
    | cons update rest => exact ⟨hover', hids, update, rfl, htold.publish⟩
    | nil =>
      exact flush_told (s := { s with published := s.published + 1, pending := s.pending ++ changed })
        hover' [] (.sweepNow now changed) ⟨hids, htold.publish⟩
  | record batch exclude flushing =>
    obtain ⟨hpending, rfl, htold⟩ := h
    simp only [TrackRunner.resume]
    split
    · exact afterFlush_told hover hpending (htold.mono (by simp))
    · exact ⟨hover, hpending, _, rfl, htold.mono fun u hu => List.mem_of_mem_filter hu⟩
  | livePublish flushing =>
    obtain ⟨hpending, batch, rfl, htold⟩ := h
    have hover' := hover.tell (.inl (rfl : ProcessEvent.returned (.liveWritten batch) = _))
    exact afterFlush_told hover' hpending ((htold.written (.inl rfl)).mono (by simp))
  | forget now =>
    obtain ⟨hpending, changed, trackIds, rfl, hids, htold⟩ := h
    have hsettled := htold.forget hids rfl
    rw [← hpending] at hsettled
    have hover' := hover.tell (.inl (rfl : ProcessEvent.returned (.forgotten trackIds) = _))
    exact ⟨over_forgetPruned hover' now, hsettled⟩

/-- A call that raises in a coroutine with no end to tell leaves every end told. -/
theorem raise_told (h : AwaitTold e us fate call await) (hquiet : ¬ await.Tells) (icao24 : String) :
    Settled us ((call.map ProcessEvent.raised).toList.foldl (tell icao24) (fate icao24)) icao24 := by
  have hnone : ∀ {changed : List TrackUpdate}, (¬ ∃ u ∈ changed, u.state = .terminated) →
      ∀ u ∈ changed, u.state ≠ .terminated := fun hnot u hu hterminated => hnot ⟨u, hu, hterminated⟩
  cases await with
  | handlePublish update =>
    obtain ⟨rfl, -, hsettled⟩ := h
    exact hsettled icao24
  | sweepPublish now changed rest =>
    obtain ⟨-, u, rfl, htold⟩ := h
    exact (htold.settled (hnone hquiet) icao24).mono fun u hu => List.mem_append_left _ hu
  | record batch exclude flushing =>
    obtain ⟨rfl, rfl, htold⟩ := h
    refine (htold.settled ?_ icao24).mono (by simp)
    rintro now changed rfl
    exact hnone hquiet
  | livePublish flushing =>
    obtain ⟨rfl, batch, rfl, htold⟩ := h
    refine ((htold.written (.inr rfl)).settled ?_ icao24).mono (by simp)
    rintro now changed rfl
    exact hnone hquiet
  | forget now => exact absurd trivial hquiet

/-! ### Runs -/

variable {start p p' : TrackProcess} {log shown : List ProcessEvent}

/-- The process between two turns. -/
structure ProcessTold (p : TrackProcess) (fate : String → Fate) : Prop where
  ended : Over p.service.runner.estimator fate
  holder : HolderTold p.service.runner.estimator p.service.runner.pending fate p.call p.service.holder
  closing : p.closing = none

theorem ran_told {stretch : Stretch} (hran : Ran p p' stretch) (h : StretchTold fate stretch)
    (hclosing : p.closing = none) : ProcessTold p' fate := by
  refine ⟨?_, ?_, hran.closing.trans hclosing⟩
  · rw [hran.runner]
    exact h.ended
  · rw [hran.runner, hran.call, hran.holder]
    exact h.holder

theorem step_told {turn : ℚ × ProcessTurn} (h : ProcessTold p fate) (htells : p.SweepsTell turn)
    (hstep : p.step turn.1 turn.2 = some (p', shown)) :
    ProcessTold p' fun icao24 => shown.foldl (tell icao24) (fate icao24) := by
  obtain ⟨time, pturn⟩ := turn
  cases (TrackProcess.moves hstep).1 with
  | waits hlog hstays =>
    subst hlog
    obtain ⟨d, hrunner⟩ := hstays.runner
    refine ⟨?_, ?_, hstays.closing.trans h.closing⟩
    · rw [hrunner]
      exact h.ended
    · rw [hrunner, hstays.holder]
      cases hholder : p.service.holder with
      | none =>
        have htold := h.holder
        rw [hholder] at htold
        exact htold
      | some await =>
        rw [hstays.call (hholder ▸ rfl), ← hholder]
        exact h.holder
  | enters d request hfree hrequest hran hlog =>
    have htold := h.holder
    rw [hfree] at htold
    subst hlog
    exact ran_told hran (enter_told (s := { p.service.runner with partitionOf := d }) h.ended htold request)
      h.closing
  | resumes await hawait hran hlog =>
    have htold := h.holder
    rw [hawait] at htold
    have hheard : (fun icao24 => shown.foldl (tell icao24) (fate icao24)) = heard fate p.call := by
      funext icao24
      rw [hlog, List.foldl_append, List.foldl_append, foldl_tell_shown (resume_quiet await)]
      rfl
    rw [hheard]
    exact ran_told hran (resume_told h.ended htold) h.closing
  | raises await hturn hawait hran hlog =>
    subst hturn
    have htold := h.holder
    rw [hawait] at htold
    subst hlog
    refine ran_told hran ⟨?_, raise_told htold (htells await hawait)⟩ h.closing
    cases hcall : p.call with
    | none => exact h.ended
    | some call => exact h.ended.tell (.inr rfl)
  | closes hturn hnone hclosed hlog =>
    subst hturn
    exact htells.elim
  | closeResumes await hturn hawait hclosed hlog =>
    rw [h.closing] at hawait
    cases hawait
  | closeRaises await hturn hawait hclosed hlog =>
    rw [h.closing] at hawait
    cases hawait

/-- A sweep that is stopped leaves the ended tracks ended. -/
theorem over_sweepChecked (hover : Over e fate) (now : Instant) : Over (e.sweepChecked now).1 fate := by
  constructor
  · intro icao24 v hget
    obtain ⟨record, hrecord, rfl | rfl⟩ := TrackEstimator.get?_sweepChecked hget
    · exact hover.filed icao24 v hrecord
    · exact (TrackEstimator.isOf_sweepRecord (hover.filed icao24 record hrecord) now).1
  · intro icao24 v hget hended
    obtain ⟨record, hrecord, rfl | rfl⟩ := TrackEstimator.get?_sweepChecked hget
    · exact hover.ended icao24 v hrecord hended
    · have hdone := hover.ended icao24 record hrecord hended
      rwa [TrackEstimator.sweepRecord_of_terminated hdone]

/-- A call that the estimator refuses leaves every end told, a sweep if it has ended no track. -/
theorem refusal_told (hover : Over s.estimator fate) (h : ∀ icao24, Settled s.pending (fate icao24) icao24)
    (hsteady : s.estimator.Steady) {request : Request}
    (hkeeps : ∀ now, request = .sweepNow now → s.estimator.LosesNoEnd now) {runner : TrackRunner}
    (hrefused : s.refusal request = some (runner, shown)) :
    StretchTold (fun icao24 => shown.foldl (tell icao24) (fate icao24)) { runner := runner } := by
  cases request with
  | handle report partition =>
    simp only [TrackRunner.refusal] at hrefused
    split_ifs at hrefused
    cases hrefused
    exact ⟨over_onReport hover report, settled_accepted h report⟩
  | sweepNow now =>
    simp only [TrackRunner.refusal] at hrefused
    split_ifs at hrefused with hnone
    cases hrefused
    rcases TrackEstimator.sweepChecked_cases s.estimator now with hall | ⟨before, later, entry, hstopped⟩
    · rw [TrackEstimator.sweepChecked_of_answers hall] at hnone
      exact absurd rfl hnone
    · have hnot := TrackEstimator.reached_of_losesNoEnd hsteady (hkeeps now rfl) hstopped
      have hfate : (fun icao24 => [ProcessEvent.swept (s.estimator.sweepReached now)].foldl (tell icao24)
          (fate icao24)) = fate := by
        funext icao24
        refine if_neg ?_
        rintro ⟨u, hu, -, hterminated⟩
        exact hnot u hu hterminated
      rw [hfate]
      exact ⟨over_sweepChecked hover now, h⟩
  | releasePartitions partitions | claimPartitions partitions => cases hrefused

theorem stepChecked_told {turn : ℚ × ProcessTurn} (h : ProcessTold p fate) (hsteady : SteadyProcess p)
    (htells : p.EndsTell turn) (hstep : p.stepChecked turn.1 turn.2 = some (p', shown)) :
    ProcessTold p' fun icao24 => shown.foldl (tell icao24) (fate icao24) := by
  rcases (TrackProcess.stepChecked_cases hstep).1 with ⟨-, hmoves⟩ | ⟨d, request, hrefuses⟩
  · exact step_told h htells.tells hmoves
  · obtain ⟨runner, hrefused, hran⟩ := hrefuses.refused
    obtain ⟨serviceTurn, hturn, hlets⟩ := hrefuses.lets
    have htold := h.holder
    rw [hrefuses.free] at htold
    refine ran_told hran (refusal_told (s := { p.service.runner with partitionOf := d }) h.ended htold
      hsteady.estimator ?_ hrefused) h.closing
    rintro now rfl
    exact htells.keeps serviceTurn _ now hturn hlets

theorem run_told (hidle : start.Idle) (hsteady : SteadyProcess start)
    (hrun : TrackProcess.machineChecked.Run TrackProcess.EndsTell start p log) :
    ProcessTold p (fateOf log) ∧ SteadyProcess p := by
  refine hrun.invariant (I := fun p log => ProcessTold p (fateOf log) ∧ SteadyProcess p)
    ⟨⟨⟨?_, ?_⟩, ?_, hidle.closing⟩, hsteady⟩ ?_
  · exact fun icao24 record hget => (hsteady.estimator.placed icao24 record hget).framed.isOf
  · exact fun _ _ _ hended => absurd rfl hended
  · rw [hidle.holder]
    exact fun _ => .inl rfl
  · rintro p log turn p' shown ⟨h, hsteady⟩ htells hstep
    have hfate : fateOf (log ++ shown) = fun icao24 => shown.foldl (tell icao24) (fateOf log icao24) :=
      funext fun icao24 => fateOf_append log shown icao24
    rw [hfate]
    exact ⟨stepChecked_told h hsteady htells hstep, steady_stepChecked hsteady htells.admits hstep⟩

/-- A track whose aircraft is not held, or any while nothing is being told, goes on or its end is told. -/
theorem ProcessTold.fate_of (h : ProcessTold p fate) (icao24 : String)
    (hdone : icao24 ∉ p.service.runner.estimator.knownAddresses ∨ ∀ await, p.service.holder = some await →
      ¬ await.Tells) : fate icao24 = .alive ∨ fate icao24 = .ended true true := by
  have hsettled : ∀ {us}, Settled us (fate icao24) icao24 →
      fate icao24 = .alive ∨ fate icao24 = .ended true true := fun hs => hs.imp_right And.left
  have htelling : ∀ {us changed rest}, SettledBut p.service.runner.estimator us changed rest fate →
      (icao24 ∉ p.service.runner.estimator.knownAddresses ∨ ¬ ∃ u ∈ changed, u.state = .terminated) →
      fate icao24 = .alive ∨ fate icao24 = .ended true true := by
    rintro us changed rest htold (hnot | hquiet)
    · exact hsettled ((htold icao24).resolve_right fun htelling => hnot htelling.held)
    · exact hsettled (htold.settled (fun u hu hterminated => hquiet ⟨u, hu, hterminated⟩) icao24)
  have htold := h.holder
  cases hholder : p.service.holder with
  | none =>
    rw [hholder] at htold
    exact hsettled (htold icao24)
  | some await =>
    rw [hholder] at htold
    replace hdone := hdone.imp_right fun hquiet => hquiet await hholder
    cases await with
    | handlePublish update => exact hsettled (htold.2.2 icao24)
    | sweepPublish now changed rest =>
      obtain ⟨-, u, -, hbut⟩ := htold
      exact htelling hbut hdone
    | record batch exclude flushing =>
      obtain ⟨-, -, hflush⟩ := htold
      cases flushing with
      | handle | releasePartitions partitions addresses => exact hsettled (hflush icao24)
      | sweepNow now changed => exact htelling hflush.2 hdone
    | livePublish flushing =>
      obtain ⟨-, batch, -, hflush⟩ := htold
      cases flushing with
      | handle | releasePartitions partitions addresses => exact hsettled (hflush icao24)
      | sweepNow now changed => exact htelling hflush.2 hdone
    | forget now =>
      obtain ⟨-, changed, trackIds, -, -, hbut⟩ := htold
      rcases hdone with hnot | hquiet
      · exact htelling hbut (.inl hnot)
      · exact absurd trivial hquiet

/-! ### One aircraft falls silent -/

open TrackEstimator

/-- The service with its one aircraft swept. -/
def sweptRunner (estimator : TrackEstimator) (published : ℕ) (pending : List TrackUpdate) : TrackRunner :=
  { firstRunner published pending with estimator := estimator }

/-- A sweep publishes the end of the track. -/
def publishingEnd (swept : TrackEstimator) (now : Instant) (v : TrackUpdate) : TrackProcess where
  service := { runner := sweptRunner swept 1 [firstUpdate], holder := some (.sweepPublish now [v] []) }
  call := some (.published v)

/-! ### Failing sweeps -/

/-- The calls of the one climbing aircraft are answered. -/
theorem refusal_first : ({ service := { runner := {} } } : TrackProcess).refusal
    (.turn (.envelope climbStart 0)) = none := by
  have hanswered : (({} : TrackEstimator).onReport climbStart).2.Admitted := by
    refine (report_checked (steady_empty rfl TrackFilter.positive_default) admitted_climbStart).1.mpr ?_
    intro record hget
    cases hget
  have hsome : (({} : TrackEstimator).onReportChecked climbStart).2.isSome := by
    rw [onReportChecked_of_admitted hanswered]
    rfl
  exact if_pos (.inr hsome)

/-- A sweep of a service whose tracks are all run on between the poles is not refused. -/
theorem refusal_sweep {now : Instant} (hsteady : s.estimator.Steady)
    (hkeeps : KeepsOffPoles s.estimator (.sweep now)) :
    ({ service := { runner := s } } : TrackProcess).refusal (.turn (.sweep now)) = none := by
  have hsome : (s.estimator.sweepChecked now).2.isSome := by
    rw [sweepChecked_of_answers ((answers_all_iff hsteady).mpr hkeeps)]
    rfl
  exact if_pos hsome

/-- The aircraft stands still on the equator, so its sweep is answered. -/
theorem refusal_silent : ({ service := { runner := firstRunner 1 [firstUpdate] } } : TrackProcess).refusal
    (.turn (.sweep (seconds 31))) = none := by
  have hsteady : (firstRunner 1 [firstUpdate]).estimator.Steady :=
    (report_checked (steady_empty rfl TrackFilter.positive_default) admitted_climbStart).2
  exact refusal_sweep hsteady (keepsOffPoles_climbStart (seconds 31))

/-- As long as no call of a sweep with an end to tell raises and no sweep is stopped that has ended a track, the
    end of every track is announced and its live entry removed, once no sweep is telling it and before its
    record is dropped. -/
theorem ended_tracks_are_told {start p : TrackProcess} {log : List ProcessEvent} (hidle : start.Idle)
    (hsteady : SteadyProcess start)
    (hrun : TrackProcess.machineChecked.Run TrackProcess.EndsTell start p log) (icao24 : String)
    (hdone : icao24 ∉ p.service.runner.estimator.knownAddresses ∨
      ∀ await, p.service.holder = some await → ¬ await.Tells) :
    fateOf log icao24 = .alive ∨ fateOf log icao24 = .ended true true :=
  (run_told hidle hsteady hrun).1.fate_of icao24 hdone

/-- A report, thirty-one silent seconds, and a sweep whose calls all return. -/
theorem ended_tracks_are_told_silent : ∃ (v : TrackUpdate) (log : List ProcessEvent), v.Ends "abc123" ∧
    .swept [v] ∈ log ∧ (fateOf log "abc123" = .alive ∨ fateOf log "abc123" = .ended true true) := by
  obtain ⟨swept, v, record, hsweep, hicao, hstate, -, -, -⟩ := sweep_climb_silent
  have hends : v.Ends "abc123" := ⟨hicao, hstate⟩
  let runner := sweptRunner swept 2 []
  let sweeping := Flushing.sweepNow (seconds 31) [v]
  have hpublish : TrackProcess.machineChecked.step (publishingEnd swept (seconds 31) v) (0, .turn .resume) =
      some ({ service := { runner := runner, holder := some (.record [firstUpdate, v] [] sweeping) }
              call := some (.recorded [firstUpdate, v]) },
        [.returned (.published v), .entered [v], .shown (.recorded [firstUpdate, v])]) :=
    stepChecked_of_answered rfl rfl
  have hrecord : TrackProcess.machineChecked.step
      { service := { runner := runner, holder := some (.record [firstUpdate, v] [] sweeping) }
        call := some (.recorded [firstUpdate, v]) } (0, .turn .resume) =
      some ({ service := { runner := runner, holder := some (.livePublish sweeping) }
              call := some (.liveWritten [firstUpdate, v]) },
        [.returned (.recorded [firstUpdate, v]), .entered [], .shown (.liveWritten [firstUpdate, v])]) := by
    refine stepChecked_of_answered rfl ?_
    simp [TrackProcess.machine, TrackProcess.step, TrackProcess.preface, TrackService.step, TrackService.ran,
      TrackRunner.resume, Await.enters]
  have hlive : TrackProcess.machineChecked.step
      { service := { runner := runner, holder := some (.livePublish sweeping) }
        call := some (.liveWritten [firstUpdate, v]) } (0, .turn .resume) =
      some ({ service := { runner := { runner with terminated := 1 }, holder := some (.forget (seconds 31)) }
              call := some (.forgotten [v.trackId]) },
        [.returned (.liveWritten [firstUpdate, v]), .entered [], .shown (.forgotten [v.trackId])]) := by
    refine stepChecked_of_answered rfl ?_
    simp [TrackProcess.machine, TrackProcess.step, TrackProcess.preface, TrackService.step, TrackService.ran,
      TrackRunner.resume, TrackRunner.afterFlush, Await.enters, sweeping, runner, sweptRunner, firstRunner,
      hends.2]
  have hforget : TrackProcess.machineChecked.step
      { service := { runner := { runner with terminated := 1 }, holder := some (.forget (seconds 31)) }
        call := some (.forgotten [v.trackId]) } (0, .turn .resume) =
      some ({ service := { runner := { runner with terminated := 1 }.forgetPruned (seconds 31) } },
        [.returned (.forgotten [v.trackId]), .entered []]) := stepChecked_of_answered rfl rfl
  have hfirst : ({ service := { runner := {} } } : TrackProcess).EndsTell
      (0, .turn (.envelope climbStart 0)) := by
    refine ⟨trivial, ?_, ?_⟩
    · rintro _ _ now ⟨⟩ ⟨⟩
    · rintro _ ⟨⟩ _ _ ⟨⟩
      exact admitted_climbStart
  have hsilent : ({ service := { runner := firstRunner 1 [firstUpdate] } } : TrackProcess).EndsTell
      (0, .turn (.sweep (seconds 31))) := by
    refine ⟨trivial, ?_, ?_⟩
    · rintro _ _ now ⟨⟩ ⟨⟩
      exact losesNoEnd_of_keepsOffPoles (keepsOffPoles_climbStart (seconds 31))
    · rintro _ ⟨⟩ _ _ ⟨⟩
  have hresume : ∀ {p : TrackProcess}, p.EndsTell (0, .turn .resume) := by
    intro p
    refine ⟨trivial, ?_, ?_⟩
    · rintro _ runner now ⟨⟩ hlets
      rw [TrackService.lets_resume] at hlets
      cases hlets
    · rintro _ ⟨⟩
  refine ⟨v, _, hends, ?_, ended_tracks_are_told ⟨rfl, rfl⟩
    ⟨steady_empty rfl TrackFilter.positive_default, fun _ hrequest => absurd hrequest List.not_mem_nil⟩
    (((((((Machine.Run.start.step hfirst (stepChecked_of_answered refusal_first step_first)).step hresume
      (stepChecked_of_answered rfl step_firstBuffered)).step hsilent
      (stepChecked_of_answered refusal_silent (step_sweep 0 hsweep))).step hresume hpublish).step hresume
      hrecord).step hresume hlive).step hresume hforget) "abc123" (.inr ?_)⟩
  · simp
  · rintro await ⟨⟩

/-- The publish of the end raises: no later sweep announces it, and the record is dropped in the end. -/
theorem failed_sweep_is_not_made_up_for : ∃ (p : TrackProcess) (log : List ProcessEvent),
    TrackProcess.machineChecked.Run (fun _ _ => True) { service := { runner := {} } } p log ∧ p.Idle ∧
    "abc123" ∉ p.service.runner.estimator.knownAddresses ∧ fateOf log "abc123" = .ended false false := by
  obtain ⟨swept, v, record, hsweep, hicao, hstate, htracks, hterminated, hlast⟩ := sweep_climb_silent
  have hends : v.Ends "abc123" := ⟨hicao, hstate⟩
  have hraise : TrackProcess.machine.step (publishingEnd swept (seconds 31) v) (0, .raise) =
      some ({ service := { runner := sweptRunner swept 1 [firstUpdate] } }, [.raised (.published v)]) := rfl
  have hended : ∀ other ∈ swept.tracks.values, other.terminated = true := by
    intro other hother
    obtain ⟨key, hkey⟩ := Dict.mem_values_iff.mp hother
    rw [htracks, Dict.get?_set] at hkey
    split_ifs at hkey
    · rwa [← Option.some.inj hkey]
    · cases hkey
  have hquiet : swept.sweep (seconds 700) = (swept, []) :=
    sweep_eq_self fun other hother => sweepRecord_of_terminated (hended other hother)
  have hanswered : ({ service := { runner := sweptRunner swept 1 [firstUpdate] } } : TrackProcess).refusal
      (.turn (.sweep (seconds 700))) = none := by
    have hanswers : ∀ other ∈ swept.tracks.values, Answers swept (seconds 700) other := by
      intro other hother u hu
      rw [sweepRecord_of_terminated (hended other hother)] at hu
      cases hu
    have hsome : (swept.sweepChecked (seconds 700)).2.isSome := by
      rw [sweepChecked_of_answers hanswers]
      rfl
    exact if_pos hsome
  have hlater : TrackProcess.machine.step { service := { runner := sweptRunner swept 1 [firstUpdate] } }
      (0, .turn (.sweep (seconds 700))) =
        some ({ service := {
          runner := (sweptRunner swept 1 [firstUpdate]).forgetPruned (seconds 700) } }, []) := by
    simp [TrackProcess.machine, TrackProcess.step, TrackProcess.preface, TrackService.step, TrackService.ran,
      TrackService.acquire, TrackRunner.enter, TrackRunner.sweepNow, sweptRunner, hquiet]
  refine ⟨_, _, ((((Machine.Run.start.step trivial
    (stepChecked_of_answered refusal_first step_first)).step trivial
    (stepChecked_of_answered rfl step_firstBuffered)).step trivial
    (stepChecked_of_answered refusal_silent (step_sweep 0 hsweep))).step trivial
    (stepChecked_of_answered rfl hraise)).step trivial (stepChecked_of_answered hanswered hlater), ⟨rfl, rfl⟩,
    ?_, ?_⟩
  · refine not_mem_pruneTerminated (e := swept) fun other hother => ?_
    rw [htracks, Dict.get?_set, if_pos rfl] at hother
    obtain rfl := Option.some.inj hother
    exact ⟨hterminated, by rw [hlast]; decide⟩
  · simp [fateOf, tell, hends, Fate.announce, climbStart]

end

end Airspace
