import Airspace.Track.Faults

/-! What a flush can lose.

    A flush detaches its batch before it calls a sink, and nothing puts the batch back. If the live store
    fails the batch is in the history already; if the history store fails it is in neither and no longer
    pending. So over a run every update that was ever pending reaches the history as long as no record call
    raises, whatever else does. -/

namespace Airspace

noncomputable section

/-- The updates an awaited record call carries. -/
def inFlight : Option Await → List TrackUpdate
  | some (.record batch _ _) => batch
  | _ => []

def Entered (log : List ProcessEvent) (u : TrackUpdate) : Prop := ∃ us, .entered us ∈ log ∧ u ∈ us

/-- The update was part of a record call that returned. -/
def Recorded (log : List ProcessEvent) (u : TrackUpdate) : Prop :=
  ∃ batch, .returned (.recorded batch) ∈ log ∧ u ∈ batch

namespace TrackProcess

/-- The condition on a turn: it is no record call that raises. -/
def RecordReturns (p : TrackProcess) : ℚ × ProcessTurn → Prop
  | (_, .raise) => ∀ batch exclude flushing, p.service.holder ≠ some (.record batch exclude flushing)
  | (_, .closeRaise) => ∀ batch exclude flushing, p.closing ≠ some (.record batch exclude flushing)
  | _ => True

end TrackProcess

/-! ### Stretches -/

variable {s : TrackRunner} {time : ℚ} {stretch : Stretch} {us : List TrackUpdate}

/-- An awaited record call is the last call made. -/
def CallsRecord (await : Option Await) (call : Option RunnerEvent) : Prop :=
  ∀ batch exclude flushing, await = some (.record batch exclude flushing) → call = some (.recorded batch)

/-- The stretch leaves the updates pending or awaits the call that records them. -/
structure Keeps (us : List TrackUpdate) (stretch : Stretch) : Prop where
  kept : ∀ u ∈ us, u ∈ stretch.runner.pending ∨ u ∈ inFlight stretch.await
  call : CallsRecord stretch.await stretch.call

/-- A stretch that leaves the pending batch as it is and awaits no record call. -/
theorem keeps_pending (hpending : stretch.runner.pending = us)
    (hawait : ∀ batch exclude flushing, stretch.await ≠ some (.record batch exclude flushing)) :
    Keeps us stretch :=
  ⟨fun _ hu => .inl (hpending ▸ hu), fun _ _ _ h => absurd h (hawait _ _ _)⟩

theorem afterFlush_keeps (flushing : Flushing) : Keeps s.pending (s.afterFlush time flushing) := by
  cases flushing with
  | handle => exact keeps_pending rfl (by simp [TrackRunner.afterFlush])
  | sweepNow now changed =>
    simp only [TrackRunner.afterFlush]
    split <;> exact keeps_pending rfl (by simp)
  | releasePartitions partitions addresses => exact keeps_pending rfl (by simp [TrackRunner.afterFlush])

theorem flush_keeps (exclude : List String) (flushing : Flushing) :
    Keeps s.pending (s.flush time exclude flushing) := by
  unfold TrackRunner.flush
  split
  · exact afterFlush_keeps flushing
  · refine ⟨fun u hu => .inr hu, ?_⟩
    rintro batch' exclude' flushing' ⟨⟩
    rfl

theorem enter_keeps (request : Request) : Keeps s.pending (s.enter time request) := by
  cases request with
  | handle report partition =>
    simp only [TrackRunner.enter, TrackRunner.handle]
    split_ifs <;> exact keeps_pending rfl (by simp)
  | sweepNow now =>
    simp only [TrackRunner.enter, TrackRunner.sweepNow]
    split <;> exact keeps_pending rfl (by simp)
  | releasePartitions partitions =>
    exact flush_keeps (s := { s with revoked := s.revoked ∪ partitions }) _ _
  | claimPartitions partitions =>
    exact keeps_pending rfl (by simp [TrackRunner.enter, TrackRunner.claimPartitions])

/-- After an await the updates that enter the batch are kept with the rest. -/
theorem resume_keeps (await : Await) : Keeps (s.pending ++ await.enters) (s.resume time await) := by
  cases await with
  | handlePublish update =>
    simp only [TrackRunner.resume]
    split_ifs
    · exact flush_keeps (s := { s with published := s.published + 1, pending := s.pending ++ [update] }) _ _
    · exact keeps_pending rfl (by simp)
  | sweepPublish now changed rest =>
    cases rest with
    | nil =>
      exact flush_keeps (s := { s with published := s.published + 1, pending := s.pending ++ changed }) _ _
    | cons update rest => exact keeps_pending (List.append_nil _).symm (by simp [TrackRunner.resume])
  | record batch exclude flushing =>
    simp only [TrackRunner.resume, Await.enters, List.append_nil]
    split
    · exact afterFlush_keeps flushing
    · exact keeps_pending rfl (by simp)
  | livePublish flushing =>
    simp only [Await.enters, List.append_nil]
    exact afterFlush_keeps flushing
  | forget now => exact keeps_pending (List.append_nil _).symm (by simp [TrackRunner.resume])

/-! ### Runs -/

variable {start p p' : TrackProcess} {log shown : List ProcessEvent}

/-- The update is pending or in flight. -/
def TrackProcess.Carries (p : TrackProcess) (u : TrackUpdate) : Prop :=
  u ∈ p.service.runner.pending ∨ u ∈ inFlight p.service.holder ∨ u ∈ inFlight p.closing

/-- Every update that was ever pending is recorded, pending or in flight. -/
structure AllKept (p : TrackProcess) (log : List ProcessEvent) : Prop where
  kept : ∀ u, Entered log u → Recorded log u ∨ p.Carries u
  call : CallsRecord p.service.holder p.call
  closingCall : CallsRecord p.closing p.closingCall

theorem recorded_append {u : TrackUpdate} (h : Recorded log u) : Recorded (log ++ shown) u := by
  obtain ⟨batch, hmem, hu⟩ := h
  exact ⟨batch, List.mem_append_left _ hmem, hu⟩

theorem mem_inFlight {u : TrackUpdate} {await : Option Await} : u ∈ inFlight await ↔
    ∃ batch exclude flushing, await = some (.record batch exclude flushing) ∧ u ∈ batch := by
  constructor
  · intro hu
    unfold inFlight at hu
    split at hu
    · exact ⟨_, _, _, rfl, hu⟩
    · cases hu
  · rintro ⟨batch, exclude, flushing, rfl, hu⟩
    exact hu

/-- What was in flight is recorded once the call has returned. -/
theorem recorded_returned {u : TrackUpdate} {await : Option Await} {call : Option RunnerEvent}
    (hcall : CallsRecord await call) (hu : u ∈ inFlight await)
    (hshown : ∀ e ∈ (call.map ProcessEvent.returned).toList, e ∈ shown) : Recorded (log ++ shown) u := by
  obtain ⟨batch, exclude, flushing, hawait, hmem⟩ := mem_inFlight.mp hu
  rw [hcall batch exclude flushing hawait] at hshown
  exact ⟨batch, List.mem_append_right _ (hshown _ (List.mem_singleton_self _)), hmem⟩

/-- Nothing is in flight at an await that is no record call. -/
theorem not_mem_inFlight {u : TrackUpdate} {await : Option Await}
    (h : ∀ batch exclude flushing, await ≠ some (.record batch exclude flushing)) : u ∉ inFlight await := by
  intro hu
  obtain ⟨batch, exclude, flushing, hawait, -⟩ := mem_inFlight.mp hu
  exact h batch exclude flushing hawait

theorem callsRecord_none {call : Option RunnerEvent} : CallsRecord none call := by
  rintro batch exclude flushing ⟨⟩

/-- A turn keeps what was ever pending if it records or carries on what was carried, and carries what it
    enters. -/
theorem AllKept.turn (h : AllKept p log) (us : List TrackUpdate)
    (hentered : ∀ entered, .entered entered ∈ shown → entered = us) (hnew : ∀ u ∈ us, p'.Carries u)
    (hcarried : ∀ u, p.Carries u → Recorded (log ++ shown) u ∨ p'.Carries u) :
    ∀ u, Entered (log ++ shown) u → Recorded (log ++ shown) u ∨ p'.Carries u := by
  rintro u ⟨entered, hmem, hu⟩
  rcases List.mem_append.mp hmem with hmem | hmem
  · rcases h.kept u ⟨entered, hmem, hu⟩ with hrecorded | hcarries
    · exact .inl (recorded_append hrecorded)
    · exact hcarried u hcarries
  · exact .inr (hnew u (hentered entered hmem ▸ hu))

section Steps

variable {stretch : Stretch}

/-- A stretch of the lock's holder keeps what is pending and what enters, if what it held is recorded. -/
theorem AllKept.ran (h : AllKept p log) (new : List TrackUpdate) (hran : Ran p p' stretch)
    (hkeeps : Keeps (p.service.runner.pending ++ new) stretch)
    (hentered : ∀ entered, .entered entered ∈ shown → entered = new)
    (hheld : ∀ u ∈ inFlight p.service.holder, Recorded (log ++ shown) u) : AllKept p' (log ++ shown) := by
  have hcarries : ∀ u ∈ p.service.runner.pending ++ new, p'.Carries u := by
    intro u hu
    rw [TrackProcess.Carries, hran.runner, hran.holder]
    exact or_assoc.mp (.inl (hkeeps.kept u hu))
  refine ⟨h.turn new hentered (fun u hu => hcarries u (List.mem_append_right _ hu)) ?_, ?_, ?_⟩
  · rintro u (hu | hu | hu)
    · exact .inr (hcarries u (List.mem_append_left _ hu))
    · exact .inl (hheld u hu)
    · exact .inr (.inr (.inr (hran.closing ▸ hu)))
  · rw [hran.holder, hran.call]
    exact hkeeps.call
  · rw [hran.closing, hran.closingCall]
    exact h.closingCall

/-- A stretch of `run`'s last flush keeps what is pending, if what it held is recorded; nothing enters. -/
theorem AllKept.closed (h : AllKept p log) (new : List TrackUpdate) (hclosed : Closed p p' stretch)
    (hkeeps : Keeps (p.service.runner.pending ++ new) stretch)
    (hentered : ∀ entered, .entered entered ∉ shown)
    (hheld : ∀ u ∈ inFlight p.closing, Recorded (log ++ shown) u) : AllKept p' (log ++ shown) := by
  have hcarries : ∀ u ∈ p.service.runner.pending, p'.Carries u := by
    intro u hu
    rw [TrackProcess.Carries, hclosed.runner, hclosed.closing]
    exact (hkeeps.kept u (List.mem_append_left _ hu)).imp_right .inr
  refine ⟨h.turn [] (fun entered hmem => absurd hmem (hentered entered)) (by simp) ?_, ?_, ?_⟩
  · rintro u (hu | hu | hu)
    · exact .inr (hcarries u hu)
    · exact .inr (.inr (.inl (hclosed.holder ▸ hu)))
    · exact .inl (hheld u hu)
  · rw [hclosed.holder, hclosed.call]
    exact h.call
  · rw [hclosed.closing, hclosed.closingCall]
    exact hkeeps.call

theorem AllKept.waits (h : AllKept p log) (hstays : Stays p p') : AllKept p' log := by
  obtain ⟨d, hrunner⟩ := hstays.runner
  refine ⟨fun u hu => (h.kept u hu).imp_right ?_, ?_, ?_⟩
  · rw [TrackProcess.Carries, TrackProcess.Carries, hrunner, hstays.holder, hstays.closing]
    exact id
  · intro batch exclude flushing hawait
    rw [hstays.holder] at hawait
    rw [hstays.call (hawait ▸ rfl)]
    exact h.call batch exclude flushing hawait
  · rw [hstays.closing, hstays.closingCall]
    exact h.closingCall

theorem AllKept.enters {d : Dict String ℕ} {request : Request} {time : ℚ} (h : AllKept p log)
    (hfree : p.service.holder = none)
    (hran : Ran p p' ({ p.service.runner with partitionOf := d }.enter time request)) :
    AllKept p' (log ++ ({ p.service.runner with partitionOf := d }.enter time request).begun) := by
  have hkeeps : Keeps p.service.runner.pending ({ p.service.runner with partitionOf := d }.enter time request) :=
    enter_keeps (s := { p.service.runner with partitionOf := d }) request
  refine h.ran [] hran (by rwa [List.append_nil]) ?_ ?_
  · intro entered hmem
    rcases Stretch.mem_begun hmem with ⟨changed, heq⟩ | ⟨event, -, heq⟩ <;> cases heq
  · rw [hfree]
    exact List.forall_mem_nil _

theorem AllKept.resumes {await : Await} {time : ℚ} (h : AllKept p log)
    (hran : Ran p p' (p.service.runner.resume time await))
    (hlog : shown = (p.call.map ProcessEvent.returned).toList ++ [.entered await.enters] ++
      (p.service.runner.resume time await).shown.map .shown) : AllKept p' (log ++ shown) := by
  refine h.ran await.enters hran (resume_keeps await) ?_ fun u hu => ?_
  · intro entered hmem
    rw [hlog] at hmem
    simpa using hmem
  · refine recorded_returned h.call hu fun e he => ?_
    rw [hlog, List.append_assoc]
    exact List.mem_append_left _ he

/-- A call that raises loses what it awaits to record; no other does. -/
theorem AllKept.raises (h : AllKept p log) (hran : Ran p p' { runner := p.service.runner })
    (hlog : shown = (p.call.map ProcessEvent.raised).toList)
    (hreturns : ∀ batch exclude flushing, p.service.holder ≠ some (.record batch exclude flushing)) :
    AllKept p' (log ++ shown) := by
  refine h.ran [] hran (keeps_pending (List.append_nil _).symm (by simp)) ?_ fun u hu => ?_
  · rw [hlog]
    simp
  · exact absurd hu (not_mem_inFlight hreturns)

theorem AllKept.closes {time : ℚ} (h : AllKept p log) (hnone : p.closing = none)
    (hclosed : Closed p p' (p.service.runner.flush time [] .handle)) :
    AllKept p' (log ++ (p.service.runner.flush time [] .handle).shown.map .shown) := by
  have hkeeps : Keeps p.service.runner.pending (p.service.runner.flush time [] .handle) := flush_keeps [] .handle
  refine h.closed [] hclosed (by rwa [List.append_nil]) (by simp) ?_
  rw [hnone]
  exact List.forall_mem_nil _

theorem AllKept.closeResumes {await : Await} {time : ℚ} (h : AllKept p log)
    (hclosed : Closed p p' (p.service.runner.resume time await))
    (hlog : shown = (p.closingCall.map ProcessEvent.returned).toList ++
      (p.service.runner.resume time await).shown.map .shown) : AllKept p' (log ++ shown) := by
  refine h.closed await.enters hclosed (resume_keeps await) ?_ fun u hu => ?_
  · rw [hlog]
    simp
  · refine recorded_returned h.closingCall hu fun e he => ?_
    rw [hlog]
    exact List.mem_append_left _ he

theorem AllKept.closeRaises (h : AllKept p log) (hclosed : Closed p p' { runner := p.service.runner })
    (hlog : shown = (p.closingCall.map ProcessEvent.raised).toList)
    (hreturns : ∀ batch exclude flushing, p.closing ≠ some (.record batch exclude flushing)) :
    AllKept p' (log ++ shown) := by
  refine h.closed [] hclosed (keeps_pending (List.append_nil _).symm (by simp)) ?_ fun u hu => ?_
  · rw [hlog]
    simp
  · exact absurd hu (not_mem_inFlight hreturns)

end Steps

theorem step_kept {turn : ℚ × ProcessTurn} (h : AllKept p log) (hreturns : p.RecordReturns turn)
    (hstep : p.step turn.1 turn.2 = some (p', shown)) : AllKept p' (log ++ shown) := by
  obtain ⟨time, pturn⟩ := turn
  cases (TrackProcess.moves hstep).1 with
  | waits hlog hstays =>
    rw [hlog, List.append_nil]
    exact h.waits hstays
  | enters d request hfree hrequest hran hlog => exact hlog ▸ h.enters hfree hran
  | resumes await hawait hran hlog => exact h.resumes hran hlog
  | raises await hturn hawait hran hlog =>
    subst hturn
    exact h.raises hran hlog hreturns
  | closes hturn hnone hclosed hlog => exact hlog ▸ h.closes hnone hclosed
  | closeResumes await hturn hawait hclosed hlog => exact h.closeResumes hclosed hlog
  | closeRaises await hturn hawait hclosed hlog =>
    subst hturn
    exact h.closeRaises hclosed hlog hreturns

theorem run_kept (hidle : start.Idle)
    (hrun : TrackProcess.machine.Run TrackProcess.RecordReturns start p log) : AllKept p log := by
  refine hrun.invariant (I := AllKept) ⟨?_, ?_, ?_⟩ fun p log turn p' shown h hreturns hstep =>
    step_kept h hreturns hstep
  · rintro u ⟨us, hmem, -⟩
    exact absurd hmem List.not_mem_nil
  · rw [hidle.holder]
    exact callsRecord_none
  · rw [hidle.closing]
    exact callsRecord_none

/-! ### One flush -/

/-- After a flush every update of the batch is recorded, unless the record call is what raises. -/
theorem flush_kept_iff {exclude : List String} {flushing : Flushing} {fault : Option Await}
    {returned : List RunnerEvent} {out : TrackRunner}
    (h : Ends (s.flush time exclude flushing) fault returned out) :
    (∀ u ∈ s.pending, u ∈ out.pending ∨ ∃ batch, .recorded batch ∈ returned ∧ u ∈ batch) ↔
      ∀ batch exclude flushing, fault ≠ some (.record batch exclude flushing) := by
  rcases ends_flush h with ⟨later, calls, rest, hcalls, rfl, hrest⟩ | ⟨hne, rfl, hfault⟩
  · have hfault : ∀ batch exclude flushing, fault ≠ some (.record batch exclude flushing) := by
      rintro batch exclude flushing rfl
      rcases ends_afterFlush hrest with hnone | ⟨now, hforget⟩
      · cases hnone
      · cases hforget
    refine iff_of_true (fun u hu => .inr ⟨s.pending, ?_, hu⟩) hfault
    exact List.mem_append_left _ (hcalls (List.ne_nil_of_mem hu))
  · rcases hfault with ⟨rfl, rfl⟩ | ⟨rfl, hmem⟩
    · refine iff_of_false ?_ fun hall => hall _ _ _ rfl
      intro hall
      obtain ⟨u, rest, hpending⟩ := List.exists_cons_of_ne_nil hne
      rcases hall u (hpending ▸ List.mem_cons_self ..) with hu | ⟨batch, hbatch, -⟩
      · exact absurd hu List.not_mem_nil
      · exact absurd hbatch List.not_mem_nil
    · refine iff_of_true (fun u hu => .inr ⟨s.pending, hmem, hu⟩) ?_
      rintro batch exclude flushing ⟨⟩

/-! ### One flush, and whole runs -/

/-- The service while it awaits the record call of a first report's update. -/
def recording : TrackProcess where
  service := { runner := firstRunner 1 [], holder := some (.record [firstUpdate] [] .handle) }
  call := some (.recorded [firstUpdate])

theorem step_firstPublish : TrackProcess.machine.step firstHandled (1, .turn .resume) =
    some (recording,
      [.returned (.published firstUpdate), .entered [firstUpdate], .shown (.recorded [firstUpdate])]) := by
  simp [TrackProcess.machine, TrackProcess.step, TrackProcess.preface, TrackService.step, TrackService.ran,
    TrackRunner.resume, TrackRunner.flush, firstRunner, firstHandled, recording, Await.enters]

theorem step_recording : TrackProcess.machine.step recording (1, .turn .resume) =
    some ({ service := { runner := firstRunner 1 [], holder := some (.livePublish .handle) }
            call := some (.liveWritten [firstUpdate]) },
      [.returned (.recorded [firstUpdate]), .entered [], .shown (.liveWritten [firstUpdate])]) := by
  simp [TrackProcess.machine, TrackProcess.step, TrackProcess.preface, TrackService.step, TrackService.ran,
    TrackRunner.resume, recording, Await.enters]

/-- A flush keeps every update of its batch if and only if its record call does not raise; so if none does,
    every update that was ever pending has been recorded once nothing is under way and a flush succeeds. -/
theorem flush_loses_nothing_iff (s : TrackRunner) (time : ℚ) (exclude : List String) (flushing : Flushing)
    (fault : Option Await) (returned : List RunnerEvent) (out : TrackRunner)
    (h : Ends (s.flush time exclude flushing) fault returned out) :
    ((∀ u ∈ s.pending, u ∈ out.pending ∨ ∃ batch, .recorded batch ∈ returned ∧ u ∈ batch) ↔
      ∀ batch exclude flushing, fault ≠ some (.record batch exclude flushing)) ∧
    ∀ (start p : TrackProcess) log, start.Idle →
      TrackProcess.machine.Run TrackProcess.RecordReturns start p log → p.Idle →
      ∀ time returned out, Ends (p.service.runner.flush time [] .handle) none returned out →
      ∀ u, Entered log u → Recorded log u ∨ ∃ batch, .recorded batch ∈ returned ∧ u ∈ batch := by
  refine ⟨flush_kept_iff h, ?_⟩
  intro start p log hstart hrun hidle time returned out hends u hentered
  rcases (run_kept hstart hrun).kept u hentered with hrecorded | hpending | hholder | hclosing
  · exact .inl hrecorded
  · rcases ends_flush hends with ⟨later, calls, rest, hcalls, rfl, -⟩ | ⟨-, -, hfault⟩
    · exact .inr ⟨_, List.mem_append_left _ (hcalls (List.ne_nil_of_mem hpending)), hpending⟩
    · rcases hfault with ⟨hfault, -⟩ | ⟨hfault, -⟩ <;> cases hfault
  · rw [hidle.holder] at hholder
    exact absurd hholder List.not_mem_nil
  · rw [hidle.closing] at hclosing
    exact absurd hclosing List.not_mem_nil

/-- The live store fails on the first flush: the update is in the history all the same. -/
theorem flush_loses_nothing_live :
    (∀ u ∈ [firstUpdate], u ∈ ([] : List TrackUpdate) ∨
      ∃ batch, RunnerEvent.recorded batch ∈ [RunnerEvent.recorded [firstUpdate]] ∧ u ∈ batch) ∧
    ∃ log, ProcessEvent.raised (.liveWritten [firstUpdate]) ∈ log ∧ (Recorded log firstUpdate ∨
      ∃ batch, RunnerEvent.recorded batch ∈ ([] : List RunnerEvent) ∧ firstUpdate ∈ batch) := by
  have hends : Ends ((firstRunner 1 [firstUpdate]).flush 1 [] .handle)
      (some (.livePublish .handle)) [.recorded [firstUpdate]] (firstRunner 1 []) :=
    .resumed 1 rfl (.raised rfl)
  have hraise : TrackProcess.machine.step
      { service := { runner := firstRunner 1 [], holder := some (.livePublish .handle) }
        call := some (.liveWritten [firstUpdate]) } (1, .raise) =
      some ({ service := { runner := firstRunner 1 [] } }, [.raised (.liveWritten [firstUpdate])]) := rfl
  have hrun : TrackProcess.machine.Run TrackProcess.RecordReturns { service := { runner := {} } } _ _ :=
    (((Machine.Run.start.step trivial step_first).step trivial step_firstPublish).step trivial
      step_recording).step (by rintro batch exclude flushing ⟨⟩) hraise
  obtain ⟨hflush, hruns⟩ := flush_loses_nothing_iff _ _ _ _ _ _ _ hends
  refine ⟨hflush.mpr (by rintro batch exclude flushing ⟨⟩), _, ?_,
    hruns _ _ _ ⟨rfl, rfl⟩ hrun ⟨rfl, rfl⟩ 2 [] _ (.done rfl) firstUpdate ?_⟩
  · simp
  · exact ⟨[firstUpdate], by simp, List.mem_singleton_self _⟩

/-- The history store fails on the first flush: the update is not pending any more, and no later flush
    records it. -/
theorem failed_record_loses_batch : ∃ p log, TrackProcess.machine.Run (fun _ _ => True)
    { service := { runner := {} } } p log ∧ p.Idle ∧ Entered log firstUpdate ∧
    ∃ returned out, Ends (p.service.runner.flush 2 [] .handle) none returned out ∧
      firstUpdate ∉ out.pending ∧
      ¬ (Recorded log firstUpdate ∨ ∃ batch, .recorded batch ∈ returned ∧ firstUpdate ∈ batch) := by
  have hraise : TrackProcess.machine.step recording (1, .raise) =
      some ({ service := { runner := firstRunner 1 [] } }, [.raised (.recorded [firstUpdate])]) := rfl
  refine ⟨_, _, ((Machine.Run.start.step trivial step_first).step trivial step_firstPublish).step trivial
    hraise, ⟨rfl, rfl⟩, ?_, [], { firstRunner 1 [] with lastFlush := 2 }, .done rfl, List.not_mem_nil, ?_⟩
  · exact ⟨[firstUpdate], by simp, List.mem_singleton_self _⟩
  · simp [Recorded]

end

end Airspace
