import Airspace.Lib.Run
import Airspace.Track.Estimator
import Mathlib.Data.Finset.Basic

/-! The track service (`acp.services.track.runner`).

    Four coroutines share the tracker's state under one lock: `_handle` for a report, `sweep_now`,
    `release_partitions` and `claim_partitions`. Each runs undisturbed from one await to the next, so
    each is cut at its awaits into stretches. A stretch takes the state to a new one, shows what it
    sends outside and says at which await the coroutine, still holding the lock, is left; with no await
    it is done and the lock is free. Only `run` touches the state without the lock: it writes down the
    partition of a report before it asks for the lock. -/

namespace Airspace

noncomputable section

/-- A partition of a topic, as a rebalance names it. -/
structure TopicPartition where
  topic : String
  partition : ℕ

def topicSurveillanceReports : String := "surveillance.reports.v1"

/-- The partitions of the reports' topic among those of a rebalance. -/
def reportPartitions (tps : List TopicPartition) : Finset ℕ :=
  ((tps.filter fun tp => tp.topic = topicSurveillanceReports).map (·.partition)).toFinset

/-- Consumes reports, maintains tracks, and publishes estimates. -/
structure TrackRunner where
  estimator : TrackEstimator := {}
  batchSize : ℕ := 50
  flushIntervalS : ℚ := 1
  pending : List TrackUpdate := []
  reports : ℕ := 0
  published : ℕ := 0
  terminated : ℕ := 0
  released : ℕ := 0
  lastFlush : ℚ := 0
  partitionOf : Dict String ℕ := Dict.empty
  revoked : Finset ℕ := ∅
  discarded : ℕ := 0

/-- The calls that take the lock. -/
inductive Request where
  | handle (report : SurveillanceReport) (partition : ℕ)
  | sweepNow (now : Instant)
  | releasePartitions (partitions : Finset ℕ)
  | claimPartitions (partitions : Finset ℕ)

/-- The coroutine a flush is part of, with what it still needs after it. -/
inductive Flushing where
  | handle
  | sweepNow (now : Instant) (changed : List TrackUpdate)
  | releasePartitions (partitions : Finset ℕ) (addresses : List String)

/-- The await at which the coroutine that holds the lock is suspended. -/
inductive Await where
  | handlePublish (update : TrackUpdate)
  | sweepPublish (now : Instant) (changed rest : List TrackUpdate)
  | record (batch : List TrackUpdate) (excludeFromLive : List String) (flushing : Flushing)
  | livePublish (flushing : Flushing)
  | forget (now : Instant)

/-- What is seen of the service: what it sends to the topic and the stores, and what it has taken on
    and given up. -/
inductive RunnerEvent where
  | accepted (report : SurveillanceReport) (partition : ℕ) (initiated : Bool)
  | published (update : TrackUpdate)
  | recorded (batch : List TrackUpdate)
  | liveWritten (batch : List TrackUpdate)
  | forgotten (trackIds : List String)
  | releasedPartitions (partitions : Finset ℕ)
  | claimedPartitions (partitions : Finset ℕ)

/-- What a coroutine comes to between two awaits. -/
structure Stretch where
  runner : TrackRunner
  await : Option Await := none
  shown : List RunnerEvent := []

/-- Whether a report starts a track: no record, or a terminated one. -/
def TrackEstimator.initiates (e : TrackEstimator) (icao24 : String) : Bool :=
  match e.tracks.get? icao24 with
  | none => true
  | some record => record.terminated

namespace TrackRunner

variable (s : TrackRunner) (time : ℚ)

/-- `_forget_pruned`: drop long-terminated tracks, and the map entries of aircraft not held. -/
def forgetPruned (now : Instant) : TrackRunner :=
  let estimator := (s.estimator.pruneTerminated now (seconds 600)).1
  { s with
    estimator := estimator
    partitionOf := s.partitionOf.filterKeys fun icao24 => decide (icao24 ∈ estimator.knownAddresses) }

/-- What follows `await self._flush(...)`; the flush has just set its time. -/
def afterFlush : Flushing → Stretch
  | .handle => { runner := { s with lastFlush := time } }
  | .sweepNow now changed =>
    let s := { s with lastFlush := time }
    let terminated := changed.filter fun u => u.state = .terminated
    match terminated with
    | [] => { runner := s.forgetPruned now }
    | _ =>
      { runner := { s with terminated := s.terminated + terminated.length }
        await := some (.forget now)
        shown := [.forgotten (terminated.map (·.trackId))] }
  | .releasePartitions partitions addresses =>
    let out := s.estimator.release addresses
    { runner :=
        { s with
          lastFlush := time
          estimator := out.1
          partitionOf := addresses.foldl Dict.erase s.partitionOf
          released := s.released + out.2 }
      shown := [.releasedPartitions partitions] }

/-- `_flush`, up to the history store. -/
def flush (excludeFromLive : List String) (flushing : Flushing) : Stretch :=
  match s.pending with
  | [] => s.afterFlush time flushing
  | batch =>
    { runner := { s with pending := [] }
      await := some (.record batch excludeFromLive flushing)
      shown := [.recorded batch] }

/-- `_handle`, up to its first await. -/
def handle (report : SurveillanceReport) (partition : ℕ) : Stretch :=
  if partition ∈ s.revoked then { runner := { s with discarded := s.discarded + 1 } }
  else
    let out := s.estimator.onReport report
    { runner := { s with reports := s.reports + 1, estimator := out.1 }
      await := some (.handlePublish out.2)
      shown := [.accepted report partition (s.estimator.initiates report.icao24), .published out.2] }

/-- `sweep_now`, up to its first await. -/
def sweepNow (now : Instant) : Stretch :=
  let out := s.estimator.sweep now
  let s := { s with estimator := out.1 }
  match out.2 with
  | [] => { runner := s.forgetPruned now }
  | update :: rest =>
    { runner := s
      await := some (.sweepPublish now out.2 rest)
      shown := [.published update] }

/-- `release_partitions`, up to its first await. -/
def releasePartitions (partitions : Finset ℕ) : Stretch :=
  let s := { s with revoked := s.revoked ∪ partitions }
  let addresses := (s.partitionOf.items.filter fun entry => entry.2 ∈ partitions).map Prod.fst
  s.flush time (addresses.map trackIdFor) (.releasePartitions partitions addresses)

/-- `claim_partitions`. -/
def claimPartitions (partitions : Finset ℕ) : Stretch where
  runner := { s with revoked := s.revoked \ partitions }
  shown := [.claimedPartitions partitions]

/-- A call from the moment it has the lock. -/
def enter : Request → Stretch
  | .handle report partition => s.handle report partition
  | .sweepNow now => s.sweepNow now
  | .releasePartitions partitions => s.releasePartitions time partitions
  | .claimPartitions partitions => s.claimPartitions partitions

/-- The stretch after an await. -/
def resume : Await → Stretch
  | .handlePublish update =>
    let s := { s with published := s.published + 1, pending := s.pending ++ [update] }
    if s.batchSize ≤ s.pending.length ∨ s.flushIntervalS ≤ time - s.lastFlush then
      s.flush time [] .handle
    else { runner := s }
  | .sweepPublish now changed rest =>
    let s := { s with published := s.published + 1 }
    match rest with
    | update :: rest =>
      { runner := s
        await := some (.sweepPublish now changed rest)
        shown := [.published update] }
    | [] => { s with pending := s.pending ++ changed }.flush time [] (.sweepNow now changed)
  | .record batch excludeFromLive flushing =>
    match batch.filter fun u => u.trackId ∉ excludeFromLive with
    | [] => s.afterFlush time flushing
    | live =>
      { runner := s
        await := some (.livePublish flushing)
        shown := [.liveWritten live] }
  | .livePublish flushing => s.afterFlush time flushing
  | .forget now => { runner := s.forgetPruned now }

end TrackRunner

/-! ### The lock -/

/-- The state, the coroutine holding the lock and, in order, those waiting for it. -/
structure TrackService where
  runner : TrackRunner
  holder : Option Await := none
  waiting : List Request := []

/-- A turn of the event loop. -/
inductive Turn where
  | envelope (report : SurveillanceReport) (partition : ℕ)
  | sweep (now : Instant)
  | revoke (tps : List TopicPartition)
  | assign (tps : List TopicPartition)
  | grant
  | resume

def Request.isHandle : Request → Bool
  | .handle .. => true
  | _ => false

def Await.isHandle : Await → Bool
  | .handlePublish _ | .record _ _ .handle | .livePublish .handle => true
  | _ => false

namespace TrackService

variable (s : TrackService) (time : ℚ)

/-- `run` is inside `_handle`. -/
def handling : Bool := s.waiting.any Request.isHandle || s.holder.any Await.isHandle

/-- A stretch has been run under the lock. -/
def ran (stretch : Stretch) : TrackService × List RunnerEvent :=
  ({ s with runner := stretch.runner, holder := stretch.await }, stretch.shown)

/-- `async with self._lock`: straight in if it is free and nobody waits, else to the end of the
    queue. -/
def acquire (request : Request) : TrackService × List RunnerEvent :=
  match s.holder, s.waiting with
  | none, [] => s.ran (s.runner.enter time request)
  | _, _ => ({ s with waiting := s.waiting ++ [request] }, [])

/-- `run` has taken an envelope from the stream. -/
def envelope (report : SurveillanceReport) (partition : ℕ) : TrackService :=
  { s with runner := { s.runner with partitionOf := s.runner.partitionOf.set report.icao24 partition } }

/-- One turn; the time is the event loop's clock. -/
def step : Turn → Option (TrackService × List RunnerEvent)
  | .envelope report partition =>
    if s.handling then none
    else some ((s.envelope report partition).acquire time (.handle report partition))
  | .sweep now => some (s.acquire time (.sweepNow now))
  | .revoke tps =>
    if reportPartitions tps = ∅ then some (s, [])
    else some (s.acquire time (.releasePartitions (reportPartitions tps)))
  | .assign tps =>
    if reportPartitions tps = ∅ then some (s, [])
    else some (s.acquire time (.claimPartitions (reportPartitions tps)))
  | .grant =>
    match s.holder, s.waiting with
    | none, request :: rest => some ({ s with waiting := rest }.ran (s.runner.enter time request))
    | _, _ => none
  | .resume => s.holder.map fun await => s.ran (s.runner.resume time await)

/-- The service as a machine; every turn has its time. -/
def machine : Machine TrackService (ℚ × Turn) RunnerEvent where
  step s turn := s.step turn.1 turn.2

end TrackService

end

end Airspace
