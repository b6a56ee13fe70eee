import Airspace.Track.Checked
import Airspace.Track.Faults

/-! The track service with an estimator that raises.

    `_handle` and `sweep_now` call the estimator when they have taken the lock. Where it raises the call ends:
    what the estimator has done stays done, nothing is published, and the lock is free again. The process is
    the one with failing sinks in all else. Of a sweep that is refused the log tells what it had to announce of
    the tracks it reached. -/

namespace Airspace

noncomputable section

/-- What a call that the estimator refuses leaves and what the log says of it; none if it is not refused. -/
def TrackRunner.refusal (s : TrackRunner) : Request → Option (TrackRunner × List ProcessEvent)
  | .handle report partition =>
    let out := s.estimator.onReportChecked report
    if partition ∈ s.revoked ∨ out.2.isSome then none
    else
      some ({ s with reports := s.reports + 1, estimator := out.1 },
        [.shown (.accepted report partition (s.estimator.initiates report.icao24))])
  | .sweepNow now =>
    let out := s.estimator.sweepChecked now
    if out.2.isSome then none
    else some ({ s with estimator := out.1 }, [.swept (s.estimator.sweepReached now)])
  | .releasePartitions _ | .claimPartitions _ => none

/-- The call of the estimator that gets the lock in a turn, with the runner it finds. -/
def TrackService.lets (t : TrackService) (turn : Turn) : Option (TrackRunner × Request) :=
  match t.holder, t.waiting, turn with
  | none, [], .envelope report partition =>
    some ((t.envelope report partition).runner, .handle report partition)
  | none, [], .sweep now => some (t.runner, .sweepNow now)
  | none, request :: _, .grant => some (t.runner, request)
  | _, _, _ => none

namespace TrackProcess

variable (p : TrackProcess)

/-- What a turn in which the estimator refuses a call leaves. -/
def refusal : ProcessTurn → Option (TrackRunner × List ProcessEvent)
  | .turn turn => (p.service.lets turn).bind fun entry => entry.1.refusal entry.2
  | _ => none

/-- One turn, with an estimator that raises. -/
def stepChecked (time : ℚ) (pturn : ProcessTurn) : Option (TrackProcess × List ProcessEvent) :=
  (p.step time pturn).map fun out =>
    match p.refusal pturn with
    | none => out
    | some refused =>
      ({ out.1 with service := { out.1.service with runner := refused.1, holder := none }, call := none },
        refused.2)

/-- The process with sinks that fail and an estimator that raises. -/
def machineChecked : Machine TrackProcess (ℚ × ProcessTurn) ProcessEvent where
  step p turn := p.stepChecked turn.1 turn.2

end TrackProcess

variable {s : TrackRunner} {t : TrackService} {p p' : TrackProcess} {time : ℚ} {pturn : ProcessTurn}
  {log : List ProcessEvent} {e e' : TrackEstimator}

/-! ### What a turn does -/

/-- A call that gets the lock waited for it or is made in this turn. -/
theorem TrackService.lets_cases {turn : Turn} {entry : TrackRunner × Request} (h : t.lets turn = some entry) :
    t.holder = none ∧ (∃ d, entry.1 = { t.runner with partitionOf := d }) ∧
      (entry.2 ∈ t.waiting ∨ turn.request = some entry.2) := by
  unfold TrackService.lets at h
  split at h
  · next hfree hnone =>
    cases h
    exact ⟨hfree, ⟨_, rfl⟩, .inr rfl⟩
  · next hfree hnone =>
    cases h
    exact ⟨hfree, ⟨t.runner.partitionOf, rfl⟩, .inr rfl⟩
  · next hfree hwaiting =>
    cases h
    exact ⟨hfree, ⟨t.runner.partitionOf, rfl⟩, .inl (hwaiting ▸ List.mem_cons_self ..)⟩
  · cases h

theorem TrackService.lets_resume (t : TrackService) : t.lets .resume = none := by
  unfold TrackService.lets
  split <;> first | contradiction | rfl

/-- A turn that lets in a call which is refused. -/
structure Refuses (p p' : TrackProcess) (pturn : ProcessTurn) (d : Dict String ℕ) (request : Request)
    (log : List ProcessEvent) : Prop where
  free : p.service.holder = none
  asked : request ∈ p.service.waiting ∨ pturn.request = some request
  lets : ∃ turn, pturn = .turn turn ∧
    p.service.lets turn = some ({ p.service.runner with partitionOf := d }, request)
  refused : ∃ runner, { p.service.runner with partitionOf := d }.refusal request = some (runner, log) ∧
    Ran p p' { runner := runner }

theorem TrackProcess.stepChecked_cases (h : p.stepChecked time pturn = some (p', log)) :
    (p.refusal pturn = none ∧ p.step time pturn = some (p', log) ∨
      ∃ d request, Refuses p p' pturn d request log) ∧
    ∀ r ∈ p'.service.waiting, r ∈ p.service.waiting ∨ pturn.request = some r := by
  obtain ⟨⟨next, shown⟩, hstep, heq⟩ := Option.map_eq_some_iff.mp h
  obtain ⟨-, hwaiting⟩ := TrackProcess.moves hstep
  cases hrefusal : p.refusal pturn with
  | none =>
    rw [hrefusal] at heq
    cases heq
    exact ⟨.inl ⟨rfl, hstep⟩, hwaiting⟩
  | some refused =>
    rw [hrefusal] at heq
    cases heq
    refine ⟨.inr ?_, hwaiting⟩
    cases pturn with
    | turn turn =>
      obtain ⟨⟨runner, request⟩, hlets, hrefused⟩ := Option.bind_eq_some_iff.mp hrefusal
      obtain ⟨hfree, ⟨d, hrunner⟩, hrequest⟩ := TrackService.lets_cases hlets
      obtain rfl : runner = { p.service.runner with partitionOf := d } := hrunner
      obtain ⟨⟨t', events⟩, -, hout⟩ := Option.map_eq_some_iff.mp hstep
      cases hout
      exact ⟨d, request, hfree, hrequest, ⟨turn, rfl, hlets⟩, refused.1, hrefused, rfl, rfl, rfl, rfl, rfl⟩
    | raise | cancel | close | closeResume | closeRaise => cases hrefusal

/-- Where nothing is refused the process goes on as without the checks. -/
theorem stepChecked_of_answered {out : TrackProcess × List ProcessEvent} (h : p.refusal pturn = none)
    (hstep : TrackProcess.machine.step p (time, pturn) = some out) :
    TrackProcess.machineChecked.step p (time, pturn) = some out := by
  change Option.map _ (TrackProcess.machine.step p (time, pturn)) = some out
  rw [hstep, Option.map_some, h]

/-! ### What the estimator goes through -/

/-- An estimator that has lost records, or none. -/
structure Shrinks (e e' : TrackEstimator) : Prop where
  tuning : e'.tuning = e.tuning
  get? : ∀ icao24 record, e'.tracks.get? icao24 = some record → e.tracks.get? icao24 = some record

theorem Shrinks.refl (e : TrackEstimator) : Shrinks e e := ⟨rfl, fun _ _ h => h⟩

theorem Shrinks.steady (h : Shrinks e e') (he : e.Steady) : e'.Steady :=
  ⟨h.tuning ▸ he.tuning, fun icao24 record hget => he.placed icao24 record (h.get? icao24 record hget)⟩

theorem shrinks_forgetPruned (s : TrackRunner) (now : Instant) :
    Shrinks s.estimator (s.forgetPruned now).estimator :=
  ⟨rfl, fun _ _ hget => TrackEstimator.get?_pruneTerminated hget⟩

theorem shrinks_release (e : TrackEstimator) (addresses : List String) :
    Shrinks e (e.release addresses).1 := by
  have htuning : ∀ acc : TrackEstimator × ℕ,
      (addresses.foldl TrackEstimator.pop acc).1.tuning = acc.1.tuning := by
    induction addresses with
    | nil => exact fun _ => rfl
    | cons icao24 addresses ih =>
      intro acc
      rw [List.foldl_cons, ih, TrackEstimator.pop]
      split <;> rfl
  exact ⟨htuning (e, 0), fun _ _ hget => (TrackEstimator.get?_release_eq_some hget).2⟩

theorem shrinks_afterFlush (flushing : Flushing) :
    Shrinks s.estimator (s.afterFlush time flushing).runner.estimator := by
  cases flushing with
  | handle => exact .refl _
  | sweepNow now changed =>
    simp only [TrackRunner.afterFlush]
    split
    · exact shrinks_forgetPruned { s with lastFlush := time } now
    · exact .refl _
  | releasePartitions partitions addresses => exact shrinks_release s.estimator addresses

theorem shrinks_flush (exclude : List String) (flushing : Flushing) :
    Shrinks s.estimator (s.flush time exclude flushing).runner.estimator := by
  unfold TrackRunner.flush
  split
  · exact shrinks_afterFlush flushing
  · exact .refl _

theorem shrinks_resume (await : Await) : Shrinks s.estimator (s.resume time await).runner.estimator := by
  cases await with
  | handlePublish update =>
    simp only [TrackRunner.resume]
    split_ifs
    · exact shrinks_flush (s := { s with published := s.published + 1, pending := s.pending ++ [update] }) []
        .handle
    · exact .refl _
  | sweepPublish now changed rest =>
    cases rest with
    | nil =>
      exact shrinks_flush (s := { s with published := s.published + 1, pending := s.pending ++ changed }) []
        (.sweepNow now changed)
    | cons update rest => exact .refl _
  | record batch exclude flushing =>
    simp only [TrackRunner.resume]
    split
    · exact shrinks_afterFlush flushing
    · exact .refl _
  | livePublish flushing => exact shrinks_afterFlush flushing
  | forget now => exact shrinks_forgetPruned s now

/-- A call whose report, if it brings one, is admitted. -/
def Request.Admits (request : Request) : Prop :=
  ∀ report partition, request = .handle report partition → report.Admitted

theorem steady_enter (h : s.estimator.Steady) {request : Request} (hadmits : request.Admits) :
    (s.enter time request).runner.estimator.Steady := by
  cases request with
  | handle report partition =>
    simp only [TrackRunner.enter, TrackRunner.handle]
    split_ifs
    · exact h
    · exact (TrackEstimator.report_checked h (hadmits report partition rfl)).2
  | sweepNow now =>
    simp only [TrackRunner.enter, TrackRunner.sweepNow]
    split
    · exact (shrinks_forgetPruned { s with estimator := (s.estimator.sweep now).1 } now).steady
        (TrackEstimator.steady_sweep h now)
    · exact TrackEstimator.steady_sweep h now
  | releasePartitions partitions =>
    exact (shrinks_flush (s := { s with revoked := s.revoked ∪ partitions }) _ (.releasePartitions ..)).steady h
  | claimPartitions partitions => exact h

theorem steady_refusal (h : s.estimator.Steady) {request : Request} (hadmits : request.Admits)
    {refused : TrackRunner × List ProcessEvent} (hrefused : s.refusal request = some refused) :
    refused.1.estimator.Steady := by
  cases request with
  | handle report partition =>
    simp only [TrackRunner.refusal] at hrefused
    split_ifs at hrefused
    cases hrefused
    exact (TrackEstimator.report_checked h (hadmits report partition rfl)).2
  | sweepNow now =>
    simp only [TrackRunner.refusal] at hrefused
    split_ifs at hrefused
    cases hrefused
    exact TrackEstimator.steady_sweepChecked h now
  | releasePartitions partitions | claimPartitions partitions => cases hrefused

/-- The estimator is steady and no report that waits is refused by its contract. -/
structure SteadyProcess (p : TrackProcess) : Prop where
  estimator : p.service.runner.estimator.Steady
  waiting : ∀ request ∈ p.service.waiting, request.Admits

theorem steady_stepChecked (h : SteadyProcess p) (hadmits : ∀ request, pturn.request = some request →
    request.Admits) (hstep : p.stepChecked time pturn = some (p', log)) : SteadyProcess p' := by
  obtain ⟨hcases, hwaiting⟩ := TrackProcess.stepChecked_cases hstep
  refine ⟨?_, fun request hrequest => (hwaiting request hrequest).elim (h.waiting request) (hadmits request)⟩
  have hrequest : ∀ {request}, request ∈ p.service.waiting ∨ pturn.request = some request → request.Admits :=
    fun hfrom => hfrom.elim (h.waiting _) (hadmits _)
  rcases hcases with ⟨-, hmoves⟩ | ⟨d, request, hrefuses⟩
  · cases (TrackProcess.moves hmoves).1 with
    | waits _ hstays =>
      obtain ⟨d, hrunner⟩ := hstays.runner
      rw [hrunner]
      exact h.estimator
    | enters d request _ hfrom hran _ =>
      rw [hran.runner]
      exact steady_enter (s := { p.service.runner with partitionOf := d }) h.estimator (hrequest hfrom)
    | resumes await _ hran _ =>
      rw [hran.runner]
      exact (shrinks_resume await).steady h.estimator
    | raises await _ _ hran _ =>
      rw [hran.runner]
      exact h.estimator
    | closes _ _ hclosed _ =>
      rw [hclosed.runner]
      exact (shrinks_flush [] .handle).steady h.estimator
    | closeResumes await _ _ hclosed _ =>
      rw [hclosed.runner]
      exact (shrinks_resume await).steady h.estimator
    | closeRaises await _ _ hclosed _ =>
      rw [hclosed.runner]
      exact h.estimator
  · obtain ⟨runner, hrefused, hran⟩ := hrefuses.refused
    rw [hran.runner]
    exact steady_refusal (s := { p.service.runner with partitionOf := d }) h.estimator
      (hrequest hrefuses.asked) hrefused

end

end Airspace
