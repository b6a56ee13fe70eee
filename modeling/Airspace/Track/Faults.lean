import Airspace.Track.Runner
import Airspace.Track.Sweeps

/-! The track service with sinks that fail.

    A sink call returns or raises, at any await; a cancellation is raised there as well. A coroutine in
    which a call raises ends where it stands: the lock is free again and the state is left as it is. The
    sweep's loop and the broker's callback go on after that; `run` leaves its loop and writes what is
    buffered, without the lock. `Ends` is one call on its own, `TrackProcess` the service with all of its
    coroutines, whose log also tells which calls returned and what became of the updates. -/

namespace Airspace

noncomputable section

/-- The sink call a stretch ends in, if it ends at an await. -/
def Stretch.call (stretch : Stretch) : Option RunnerEvent := stretch.await.bind fun _ => stretch.shown.getLast?

/-- A call, from one of its stretches to its end: the await at which it raises, if any, the sink calls that
    return and the state it leaves. -/
inductive Ends : Stretch → Option Await → List RunnerEvent → TrackRunner → Prop where
  | done {stretch : Stretch} : stretch.await = none → Ends stretch none [] stretch.runner
  | raised {stretch : Stretch} {await : Await} : stretch.await = some await →
      Ends stretch (some await) [] stretch.runner
  | resumed {stretch : Stretch} {await : Await} {fault : Option Await} {returned : List RunnerEvent}
      {out : TrackRunner} (time : ℚ) : stretch.await = some await →
      Ends (stretch.runner.resume time await) fault returned out →
      Ends stretch fault (stretch.call.toList ++ returned) out

/-- After a flush only the sweep's last call can raise. -/
theorem ends_afterFlush {s out : TrackRunner} {time : ℚ} {flushing : Flushing} {fault : Option Await}
    {returned : List RunnerEvent} (h : Ends (s.afterFlush time flushing) fault returned out) :
    fault = none ∨ ∃ now, fault = some (.forget now) := by
  cases flushing with
  | handle | releasePartitions partitions addresses =>
    cases h with
    | done => exact .inl rfl
    | raised hawait => cases hawait
    | resumed later hawait => cases hawait
  | sweepNow now changed =>
    simp only [TrackRunner.afterFlush] at h
    split at h
    · cases h with
      | done => exact .inl rfl
      | raised hawait => cases hawait
      | resumed later hawait => cases hawait
    · cases h with
      | done hnone => cases hnone
      | raised hawait =>
        cases hawait
        exact .inr ⟨now, rfl⟩
      | resumed later hawait hrest =>
        cases hawait
        cases hrest with
        | done => exact .inl rfl
        | raised hawait => cases hawait
        | resumed last hawait => cases hawait

/-- How a flush ends: the batch is detached first, so if a sink raises it is in the history or nowhere. -/
theorem ends_flush {s out : TrackRunner} {time : ℚ} {exclude : List String} {flushing : Flushing}
    {fault : Option Await} {returned : List RunnerEvent}
    (h : Ends (s.flush time exclude flushing) fault returned out) :
    (∃ later calls rest, (s.pending ≠ [] → .recorded s.pending ∈ calls) ∧ returned = calls ++ rest ∧
      Ends ({ s with pending := [] }.afterFlush later flushing) fault rest out) ∨
    (s.pending ≠ [] ∧ out = { s with pending := [] } ∧
      (fault = some (.record s.pending exclude flushing) ∧ returned = [] ∨
        fault = some (.livePublish flushing) ∧ .recorded s.pending ∈ returned)) := by
  by_cases hnil : s.pending = []
  · have hsame : s.flush time exclude flushing = { s with pending := [] }.afterFlush time flushing := by
      cases s
      cases hnil
      rfl
    exact .inl ⟨time, [], returned, fun hne => absurd hnil hne, rfl, hsame ▸ h⟩
  · have hflush : s.flush time exclude flushing =
        { runner := { s with pending := [] }
          await := some (.record s.pending exclude flushing)
          shown := [.recorded s.pending] } := by
      unfold TrackRunner.flush
      split
      · next hpending => exact absurd hpending hnil
      · rfl
    rw [hflush] at h
    cases h with
    | done hnone => cases hnone
    | raised hawait =>
      cases hawait
      exact .inr ⟨hnil, rfl, .inl ⟨rfl, rfl⟩⟩
    | resumed later hawait hrest =>
      cases hawait
      simp only [Stretch.call, Option.bind_some, List.getLast?_singleton, Option.toList_some]
      simp only [TrackRunner.resume] at hrest
      split at hrest
      · exact .inl ⟨later, [.recorded s.pending], _, fun _ => List.mem_singleton_self _, rfl, hrest⟩
      · cases hrest with
        | done hnone => cases hnone
        | raised hawait =>
          cases hawait
          exact .inr ⟨hnil, rfl, .inr ⟨rfl, List.mem_append_left _ (List.mem_singleton_self _)⟩⟩
        | resumed last hawait hrest =>
          cases hawait
          refine .inl ⟨last, _, _, fun _ => ?_, (List.append_assoc ..).symm, hrest⟩
          exact List.mem_append_left _ (List.mem_singleton_self _)

/-! ### The whole service -/

/-- What a run shows: the service's own events, the sink calls that return and those that raise, the
    updates a sweep has to announce, and those that enter the pending batch. -/
inductive ProcessEvent where
  | swept (changed : List TrackUpdate)
  | shown (event : RunnerEvent)
  | returned (call : RunnerEvent)
  | raised (call : RunnerEvent)
  | entered (updates : List TrackUpdate)

/-- The service, the sink call that the holder of the lock awaits, and the last flush of `run`, which does
    without the lock, with the call it awaits. -/
structure TrackProcess where
  service : TrackService
  call : Option RunnerEvent := none
  closing : Option Await := none
  closingCall : Option RunnerEvent := none

/-- A turn of the service; the call of the lock's holder raises; a coroutine that waits for the lock is
    cancelled; or `run` flushes after its loop. -/
inductive ProcessTurn where
  | turn (turn : Turn)
  | raise
  | cancel (waiter : ℕ)
  | close
  | closeResume
  | closeRaise

/-- The updates that enter the pending batch after an await. -/
def Await.enters : Await → List TrackUpdate
  | .handlePublish update => [update]
  | .sweepPublish _ changed [] => changed
  | _ => []

/-- What the sweep that is suspended here has to announce, while it publishes. -/
def Await.sweeps : Await → Option (List TrackUpdate)
  | .sweepPublish _ changed _ => some changed
  | _ => none

namespace TrackProcess

variable (p : TrackProcess)

/-- What the log says of a turn of the service before the events it shows. -/
def preface (turn : Turn) (holder : Option Await) (shown : List RunnerEvent) : List ProcessEvent :=
  match turn, p.service.holder with
  | .resume, some await => (p.call.map .returned).toList ++ [.entered await.enters]
  | .resume, none => []
  | _, _ => if shown = [] then [] else ((holder.bind Await.sweeps).map .swept).toList

/-- One turn at a time of the event loop's clock. -/
def step (time : ℚ) : ProcessTurn → Option (TrackProcess × List ProcessEvent)
  | .turn turn => (p.service.step time turn).map fun out =>
    ({ p with
        service := out.1
        -- a turn that shows nothing leaves the holder at its call, if there is one
        call := out.1.holder.bind fun _ => out.2.getLast?.or p.call },
      p.preface turn out.1.holder out.2 ++ out.2.map .shown)
  | .raise => p.service.holder.map fun _ =>
    ({ p with service := { p.service with holder := none }, call := none }, (p.call.map .raised).toList)
  | .cancel waiter =>
    if waiter < p.service.waiting.length then
      some ({ p with service := { p.service with waiting := p.service.waiting.eraseIdx waiter } }, [])
    else none
  | .close =>
    if p.closing.isSome then none
    else
      let stretch := p.service.runner.flush time [] .handle
      some ({ p with
          service := { p.service with runner := stretch.runner }
          closing := stretch.await
          closingCall := stretch.call },
        stretch.shown.map .shown)
  | .closeResume => p.closing.map fun await =>
    let stretch := p.service.runner.resume time await
    ({ p with
        service := { p.service with runner := stretch.runner }
        closing := stretch.await
        closingCall := stretch.call },
      (p.closingCall.map .returned).toList ++ stretch.shown.map .shown)
  | .closeRaise => p.closing.map fun _ =>
    ({ p with closing := none, closingCall := none }, (p.closingCall.map .raised).toList)

/-- No coroutine is under way. -/
structure Idle (p : TrackProcess) : Prop where
  holder : p.service.holder = none
  closing : p.closing = none

/-- The process as a machine. -/
def machine : Machine TrackProcess (ℚ × ProcessTurn) ProcessEvent where
  step p turn := p.step turn.1 turn.2

end TrackProcess

/-! ### What a turn does -/

variable {s : TrackRunner} {t t' : TrackService} {p p' : TrackProcess} {time : ℚ} {turn : Turn}

/-- A stretch that ends at an await has just made its call. -/
theorem afterFlush_shown {flushing : Flushing} {await : Await}
    (h : (s.afterFlush time flushing).await = some await) : (s.afterFlush time flushing).shown ≠ [] := by
  cases flushing with
  | handle => cases h
  | sweepNow now changed =>
    simp only [TrackRunner.afterFlush] at h ⊢
    split at h
    · cases h
    · exact List.cons_ne_nil _ _
  | releasePartitions partitions addresses => cases h

theorem flush_shown {exclude : List String} {flushing : Flushing} {await : Await}
    (h : (s.flush time exclude flushing).await = some await) : (s.flush time exclude flushing).shown ≠ [] := by
  simp only [TrackRunner.flush] at h ⊢
  split at h
  · exact afterFlush_shown h
  · exact List.cons_ne_nil _ _

theorem enter_shown {request : Request} {await : Await} (h : (s.enter time request).await = some await) :
    (s.enter time request).shown ≠ [] := by
  cases request with
  | handle report partition =>
    simp only [TrackRunner.enter, TrackRunner.handle] at h ⊢
    split_ifs at h ⊢
    exact List.cons_ne_nil _ _
  | sweepNow now =>
    simp only [TrackRunner.enter, TrackRunner.sweepNow] at h ⊢
    split at h
    · cases h
    · exact List.cons_ne_nil _ _
  | releasePartitions partitions => exact flush_shown h
  | claimPartitions partitions => cases h

theorem resume_shown {a await : Await} (h : (s.resume time a).await = some await) :
    (s.resume time a).shown ≠ [] := by
  cases a with
  | handlePublish update =>
    simp only [TrackRunner.resume] at h ⊢
    split_ifs at h ⊢
    exact flush_shown h
  | sweepPublish now changed rest =>
    cases rest with
    | nil => exact flush_shown h
    | cons update rest => exact List.cons_ne_nil _ _
  | record batch exclude flushing =>
    simp only [TrackRunner.resume] at h ⊢
    split at h
    · exact afterFlush_shown h
    · exact List.cons_ne_nil _ _
  | livePublish flushing => exact afterFlush_shown h
  | forget now => cases h

/-- The call a turn makes. -/
def Turn.request : Turn → Option Request
  | .envelope report partition => some (.handle report partition)
  | .sweep now => some (.sweepNow now)
  | .revoke tps => some (.releasePartitions (reportPartitions tps))
  | .assign tps => some (.claimPartitions (reportPartitions tps))
  | .grant | .resume => none

/-- A turn that leaves the lock's holder at its await writes at most the partition map. -/
structure Waits (t t' : TrackService) : Prop where
  runner : ∃ d, t'.runner = { t.runner with partitionOf := d }
  holder : t'.holder = t.holder

/-- The service after a stretch under the lock. -/
structure RanTo (t' : TrackService) (stretch : Stretch) (shown : List RunnerEvent) : Prop where
  runner : t'.runner = stretch.runner
  holder : t'.holder = stretch.await
  shown : shown = stretch.shown

/-- What a turn of the service can do. -/
inductive Turns (t t' : TrackService) (time : ℚ) (turn : Turn) (shown : List RunnerEvent) : Prop where
  | waits : turn ≠ .resume → shown = [] → Waits t t' → Turns t t' time turn shown
  | enters (d : Dict String ℕ) (request : Request) : turn ≠ .resume → t.holder = none →
      request ∈ t.waiting ∨ turn.request = some request →
      RanTo t' ({ t.runner with partitionOf := d }.enter time request) shown → Turns t t' time turn shown
  | resumes (await : Await) : turn = .resume → t.holder = some await →
      RanTo t' (t.runner.resume time await) shown → Turns t t' time turn shown

/-- A call gets the lock, or waits for it. -/
theorem turns_acquire {q : TrackService} {d : Dict String ℕ} {request : Request} {shown : List RunnerEvent}
    (hturn : turn.request = some request) (hrunner : q.runner = { t.runner with partitionOf := d })
    (hholder : q.holder = t.holder) (hwaiting : q.waiting = t.waiting)
    (h : q.acquire time request = (t', shown)) : Turns t t' time turn shown ∧
      ∀ r ∈ t'.waiting, r ∈ t.waiting ∨ turn.request = some r := by
  have hresume : turn ≠ .resume := by
    rintro rfl
    cases hturn
  unfold TrackService.acquire at h
  split at h
  · next hfree hnone =>
    cases h
    refine ⟨.enters d request hresume (hholder ▸ hfree) (.inr hturn) (hrunner ▸ ⟨rfl, rfl, rfl⟩), ?_⟩
    intro r hr
    exact .inl (hwaiting ▸ hr)
  · cases h
    refine ⟨.waits hresume rfl ⟨⟨d, hrunner⟩, hholder⟩, ?_⟩
    intro r hr
    rcases List.mem_append.mp hr with hr | hr
    · exact .inl (hwaiting ▸ hr)
    · exact .inr (List.mem_singleton.mp hr ▸ hturn)

theorem TrackService.turns {shown : List RunnerEvent} (h : t.step time turn = some (t', shown)) :
    Turns t t' time turn shown ∧ ∀ r ∈ t'.waiting, r ∈ t.waiting ∨ turn.request = some r := by
  have hstays : ∀ {tps : List TopicPartition}, turn ≠ .resume → reportPartitions tps = ∅ →
      some (t, []) = some (t', shown) → Turns t t' time turn shown ∧
        ∀ r ∈ t'.waiting, r ∈ t.waiting ∨ turn.request = some r := by
    rintro tps hturn - ⟨⟩
    exact ⟨.waits hturn rfl ⟨⟨t.runner.partitionOf, rfl⟩, rfl⟩, fun r hr => .inl hr⟩
  cases turn with
  | envelope report partition =>
    simp only [TrackService.step] at h
    split_ifs at h
    have hrunner : (t.envelope report partition).runner =
        { t.runner with partitionOf := t.runner.partitionOf.set report.icao24 partition } := rfl
    exact turns_acquire rfl hrunner rfl rfl (Option.some.inj h)
  | sweep now => exact turns_acquire rfl rfl rfl rfl (Option.some.inj h)
  | revoke tps =>
    simp only [TrackService.step] at h
    split_ifs at h with hempty
    · exact hstays (by simp) hempty h
    · exact turns_acquire rfl rfl rfl rfl (Option.some.inj h)
  | assign tps =>
    simp only [TrackService.step] at h
    split_ifs at h with hempty
    · exact hstays (by simp) hempty h
    · exact turns_acquire rfl rfl rfl rfl (Option.some.inj h)
  | grant =>
    simp only [TrackService.step] at h
    split at h
    · next request rest hfree hwaiting =>
      cases h
      refine ⟨.enters t.runner.partitionOf request (by simp) hfree (.inl ?_) ⟨rfl, rfl, rfl⟩, ?_⟩
      · exact hwaiting ▸ List.mem_cons_self ..
      · intro r hr
        exact .inl (hwaiting ▸ List.mem_cons_of_mem _ hr)
    · cases h
  | resume =>
    obtain ⟨await, hawait, hran⟩ := Option.map_eq_some_iff.mp h
    cases hran
    exact ⟨.resumes await rfl hawait ⟨rfl, rfl, rfl⟩, fun r hr => .inl hr⟩

/-! ### What a turn of the process does -/

/-- The call the turn makes, if it makes one. -/
def ProcessTurn.request : ProcessTurn → Option Request
  | .turn turn => turn.request
  | _ => none

/-- The process after a stretch under the lock. -/
structure Ran (p p' : TrackProcess) (stretch : Stretch) : Prop where
  runner : p'.service.runner = stretch.runner
  holder : p'.service.holder = stretch.await
  call : p'.call = stretch.call
  closing : p'.closing = p.closing
  closingCall : p'.closingCall = p.closingCall

/-- The process after a stretch of `run`'s last flush. -/
structure Closed (p p' : TrackProcess) (stretch : Stretch) : Prop where
  runner : p'.service.runner = stretch.runner
  holder : p'.service.holder = p.service.holder
  call : p'.call = p.call
  closing : p'.closing = stretch.await
  closingCall : p'.closingCall = stretch.call

/-- The coroutines stay where they are; `run` may have written the partition map. -/
structure Stays (p p' : TrackProcess) : Prop where
  runner : ∃ d, p'.service.runner = { p.service.runner with partitionOf := d }
  holder : p'.service.holder = p.service.holder
  call : p.service.holder.isSome → p'.call = p.call
  closing : p'.closing = p.closing
  closingCall : p'.closingCall = p.closingCall

/-- What the log says of a stretch that begins a call. -/
def Stretch.begun (stretch : Stretch) : List ProcessEvent :=
  ((stretch.await.bind Await.sweeps).map ProcessEvent.swept).toList ++ stretch.shown.map .shown

theorem Stretch.mem_begun {stretch : Stretch} {e : ProcessEvent} (h : e ∈ stretch.begun) :
    (∃ changed, e = .swept changed) ∨ ∃ event ∈ stretch.shown, e = .shown event := by
  rcases List.mem_append.mp h with h | h
  · obtain ⟨changed, -, rfl⟩ := Option.map_eq_some_iff.mp (Option.mem_toList.mp h)
    exact .inl ⟨changed, rfl⟩
  · obtain ⟨event, hevent, rfl⟩ := List.mem_map.mp h
    exact .inr ⟨event, hevent, rfl⟩

/-- What a turn can do, and what the log says of it. -/
inductive Moves (p p' : TrackProcess) (time : ℚ) (pturn : ProcessTurn) (log : List ProcessEvent) : Prop where
  | waits : log = [] → Stays p p' → Moves p p' time pturn log
  | enters (d : Dict String ℕ) (request : Request) : p.service.holder = none →
      request ∈ p.service.waiting ∨ pturn.request = some request →
      Ran p p' ({ p.service.runner with partitionOf := d }.enter time request) →
      log = ({ p.service.runner with partitionOf := d }.enter time request).begun →
      Moves p p' time pturn log
  | resumes (await : Await) : p.service.holder = some await →
      Ran p p' (p.service.runner.resume time await) →
      log = (p.call.map ProcessEvent.returned).toList ++ [.entered await.enters] ++
        (p.service.runner.resume time await).shown.map .shown → Moves p p' time pturn log
  | raises (await : Await) : pturn = .raise → p.service.holder = some await →
      Ran p p' { runner := p.service.runner } → log = (p.call.map ProcessEvent.raised).toList →
      Moves p p' time pturn log
  | closes : pturn = .close → p.closing = none → Closed p p' (p.service.runner.flush time [] .handle) →
      log = (p.service.runner.flush time [] .handle).shown.map .shown → Moves p p' time pturn log
  | closeResumes (await : Await) : pturn = .closeResume → p.closing = some await →
      Closed p p' (p.service.runner.resume time await) →
      log = (p.closingCall.map ProcessEvent.returned).toList ++
        (p.service.runner.resume time await).shown.map .shown → Moves p p' time pturn log
  | closeRaises (await : Await) : pturn = .closeRaise → p.closing = some await →
      Closed p p' { runner := p.service.runner } → log = (p.closingCall.map ProcessEvent.raised).toList →
      Moves p p' time pturn log

/-- A stretch's call, as the process keeps it. -/
theorem call_eq {stretch : Stretch} {call : Option RunnerEvent}
    (h : ∀ await, stretch.await = some await → stretch.shown ≠ []) :
    (stretch.await.bind fun _ => stretch.shown.getLast?.or call) = stretch.call := by
  cases hawait : stretch.await with
  | none => rw [Stretch.call, hawait, Option.bind_none, Option.bind_none]
  | some await =>
    obtain ⟨last, hlast⟩ := Option.ne_none_iff_exists'.mp (mt List.getLast?_eq_none_iff.mp (h await hawait))
    rw [Stretch.call, hawait, Option.bind_some, Option.bind_some, hlast, Option.some_or]

/-- The log of a turn that lets a call in. -/
theorem preface_enters {stretch : Stretch} (hturn : turn ≠ .resume)
    (h : ∀ await, stretch.await = some await → stretch.shown ≠ []) :
    p.preface turn stretch.await stretch.shown ++ stretch.shown.map .shown = stretch.begun := by
  have hpreface : p.preface turn stretch.await stretch.shown = if stretch.shown = [] then []
      else ((stretch.await.bind Await.sweeps).map ProcessEvent.swept).toList := by
    cases turn with
    | resume => exact absurd rfl hturn
    | _ => rfl
  rw [hpreface]
  split_ifs with hnil
  · cases hawait : stretch.await with
    | none => simp only [Stretch.begun, hawait, Option.bind_none, Option.map_none, Option.toList_none]
    | some await => exact absurd hnil (h await hawait)
  · rfl

theorem TrackProcess.moves {pturn : ProcessTurn} {log : List ProcessEvent}
    (h : p.step time pturn = some (p', log)) : Moves p p' time pturn log ∧
      ∀ r ∈ p'.service.waiting, r ∈ p.service.waiting ∨ pturn.request = some r := by
  cases pturn with
  | turn turn =>
    obtain ⟨⟨t', shown⟩, hstep, heq⟩ := Option.map_eq_some_iff.mp h
    cases heq
    obtain ⟨hturns, hwaiting⟩ := TrackService.turns hstep
    refine ⟨?_, hwaiting⟩
    cases hturns with
    | waits hturn hshown hwaits =>
      subst hshown
      refine .waits ?_ ⟨hwaits.runner, hwaits.holder, ?_, rfl, rfl⟩
      · cases turn with
        | resume => exact absurd rfl hturn
        | _ => rfl
      · intro hsome
        obtain ⟨await, hawait⟩ := Option.isSome_iff_exists.mp hsome
        simp only [hwaits.holder, hawait, Option.bind_some, List.getLast?_nil, Option.none_or]
    | enters d request hturn hfree hrequest hran =>
      obtain ⟨hrunner, hholder, rfl⟩ := hran
      refine .enters d request hfree hrequest ⟨hrunner, hholder, ?_, rfl, rfl⟩ ?_
      · simp only [hholder]
        exact call_eq fun _ => enter_shown
      · rw [← preface_enters (p := p) hturn fun _ => enter_shown, hholder]
    | resumes await hturn hawait hran =>
      subst hturn
      obtain ⟨hrunner, hholder, rfl⟩ := hran
      refine .resumes await hawait ⟨hrunner, hholder, ?_, rfl, rfl⟩ ?_
      · simp only [hholder]
        exact call_eq fun _ => resume_shown
      · simp only [preface, hawait]
  | raise =>
    obtain ⟨await, hawait, heq⟩ := Option.map_eq_some_iff.mp h
    cases heq
    exact ⟨.raises await rfl hawait ⟨rfl, rfl, rfl, rfl, rfl⟩ rfl, fun r hr => .inl hr⟩
  | cancel waiter =>
    simp only [step] at h
    split_ifs at h
    cases h
    refine ⟨.waits rfl ⟨⟨p.service.runner.partitionOf, rfl⟩, rfl, fun _ => rfl, rfl, rfl⟩, ?_⟩
    exact fun r hr => .inl (List.mem_of_mem_eraseIdx hr)
  | close =>
    simp only [step] at h
    split_ifs at h with hclosing
    cases h
    exact ⟨.closes rfl (Option.not_isSome_iff_eq_none.mp hclosing) ⟨rfl, rfl, rfl, rfl, rfl⟩ rfl,
      fun r hr => .inl hr⟩
  | closeResume =>
    obtain ⟨await, hawait, heq⟩ := Option.map_eq_some_iff.mp h
    cases heq
    exact ⟨.closeResumes await rfl hawait ⟨rfl, rfl, rfl, rfl, rfl⟩ rfl, fun r hr => .inl hr⟩
  | closeRaise =>
    obtain ⟨await, hawait, heq⟩ := Option.map_eq_some_iff.mp h
    cases heq
    exact ⟨.closeRaises await rfl hawait ⟨rfl, rfl, rfl, rfl, rfl⟩ rfl, fun r hr => .inl hr⟩

/-- A sweep that finds one track to announce begins to publish it. -/
theorem step_sweep (time : ℚ) {now : Instant} {swept : TrackEstimator} {v : TrackUpdate}
    (h : s.estimator.sweep now = (swept, [v])) :
    TrackProcess.machine.step { service := { runner := s } } (time, .turn (.sweep now)) =
      some ({ service :=
                { runner := { s with estimator := swept }, holder := some (.sweepPublish now [v] []) }
              call := some (.published v) },
        [.swept [v], .shown (.published v)]) := by
  simp [TrackProcess.machine, TrackProcess.step, TrackProcess.preface, TrackService.step, TrackService.ran,
    TrackService.acquire, TrackRunner.enter, TrackRunner.sweepNow, h, Await.sweeps]

/-! ### One report -/

open TrackEstimator

/-- The update of a first report. -/
def firstUpdate : TrackUpdate := (({} : TrackEstimator).onReport climbStart).2

/-- The service after a first report from partition 0. -/
def firstRunner (published : ℕ) (pending : List TrackUpdate) : TrackRunner where
  estimator := (({} : TrackEstimator).onReport climbStart).1
  reports := 1
  published := published
  pending := pending
  partitionOf := Dict.empty.set "abc123" 0

/-- The report has been handled and its update is being published. -/
def firstHandled : TrackProcess where
  service := { runner := firstRunner 0 [], holder := some (.handlePublish firstUpdate) }
  call := some (.published firstUpdate)

theorem step_first : TrackProcess.machine.step { service := { runner := {} } }
    (0, .turn (.envelope climbStart 0)) =
      some (firstHandled, [.shown (.accepted climbStart 0 true), .shown (.published firstUpdate)]) := rfl

/-- At time 0 a lone update is not flushed. -/
theorem step_firstBuffered : TrackProcess.machine.step firstHandled (0, .turn .resume) =
    some ({ service := { runner := firstRunner 1 [firstUpdate] } },
      [.returned (.published firstUpdate), .entered [firstUpdate]]) := by
  simp [TrackProcess.machine, TrackProcess.step, TrackProcess.preface, TrackService.step, TrackService.ran,
    TrackRunner.resume, firstRunner, firstHandled, Await.enters, show ¬ (1 : ℚ) ≤ 0 by norm_num]

end

end Airspace
