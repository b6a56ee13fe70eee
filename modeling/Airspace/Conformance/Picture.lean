import Airspace.Conformance.AlertHistory
import Airspace.Conformance.Monitor
import Airspace.Conformance.Rules
import Airspace.Conformance.Runner
import Airspace.Lib.Run
import Airspace.Storage.LiveAlerts
import Mathlib.Data.Finset.Sort

/-! The conformance service (`acp.services.conformance.runner.ConformanceRunner`).

    Updates are folded into a picture of the airspace, one entry per track, and a scan on a timer turns
    the picture into alerts. A scan drops what is stale, gathers detections, commits the alert manager's
    transitions and only then sends the alerts out: one publish after the other, then the live store. A
    sink that raises ends the scan where it stands; the loop around it goes on.

        absorb ──▶ picture ──scan──▶ detections ──reconcile, forget──▶ alerts ──publish──▶ topic, store -/

namespace Airspace

noncomputable section

/-- An opaque trace context. -/
structure SpanContext where
  traceId : ℕ
  spanId : ℕ

/-- `MAX_DATA_CLOCK_LEAD`: one day. -/
def maxDataClockLead : Span := seconds 86400

/-- Maintains the airspace picture and scans it for conflicts. -/
structure ConformanceRunner where
  monitor : SeparationMonitor := {}
  conformance : Option ConformanceMonitor := none
  manager : AlertManager := {}
  /-- What the live store holds, if there is one. -/
  alertStore : Option LiveAlertStore := none
  staleAfterS : ℚ := 15
  picture : Dict String TrackUpdate := Dict.empty
  terminated : Finset String := ∅
  traceOf : Dict String (Option SpanContext) := Dict.empty
  pendingConformance : Dict String NonConformance := Dict.empty
  updates : ℕ := 0
  scans : ℕ := 0
  alerts : ℕ := 0
  latestSeen : Option Instant := none

/-- An update as it arrives: what the wall clock says and the trace it comes with. -/
structure Delivery where
  wall : Instant
  context : Option SpanContext := none
  update : TrackUpdate

/-- A sink raises in a scan: a publish, after some alerts have gone out, or the store's write, after the
    commands of some alerts have been carried out. -/
inductive SinkFault where
  | publish (sent : ℕ)
  | store (written : ℕ)

/-- What a scan comes to: the keys it returns, or nothing if it raised. -/
structure ScanOutcome where
  runner : ConformanceRunner
  published : List Alert
  returned : Option (List String)

/-- What a scan does to the alerts: reconcile the detections, then forget the vanished tracks. -/
def AlertManager.transitions (uuid4 : ℕ → String) (m : AlertManager) (detections : List Detection)
    (vanished : List String) (now : Instant) : AlertManager × List Alert :=
  let reconciled := m.reconcile uuid4 detections now
  let forgotten := reconciled.1.forget vanished now
  (forgotten.1, reconciled.2 ++ forgotten.2)

namespace ConformanceRunner

variable (s : ConformanceRunner)

/-- The later of the wall clock and the newest timestamp in the data. -/
def clock (wall : Instant) : Instant :=
  match s.latestSeen with
  | none => wall
  | some seen => max wall seen

/-- The picture holds a newer update of the track. -/
def overtaken (update : TrackUpdate) : Bool :=
  (s.picture.get? update.trackId).any fun existing => decide (update.updatedAt < existing.updatedAt)

/-- The conformance check of one update; a finding waits for the next scan. -/
def observe (update : TrackUpdate) : ConformanceRunner :=
  match s.conformance with
  | none => s
  | some monitor =>
    let out := monitor.observe update
    let s := { s with conformance := some out.1 }
    match out.2 with
    | none => s
    | some finding => { s with pendingConformance := s.pendingConformance.set finding.key finding }

/-- The newest timestamp seen, unless it is too far ahead of the wall clock to be believed. -/
def latestAfter (wall : Instant) (update : TrackUpdate) : Option Instant :=
  if update.updatedAt ≤ wall + maxDataClockLead ∧ ∀ seen ∈ s.latestSeen, seen < update.updatedAt then
    some update.updatedAt
  else s.latestSeen

/-- Fold one track update into the airspace picture. -/
def absorb (wall : Instant) (context : Option SpanContext) (update : TrackUpdate) : ConformanceRunner :=
  let s := { s with updates := s.updates + 1 }
  if update.state = .terminated then
    -- what the scan has to release is left for it
    { s with
      picture := s.picture.erase update.trackId
      traceOf := s.traceOf.erase update.trackId
      terminated := insert update.trackId s.terminated }
  else if s.overtaken update then s
  else
    { s with
      picture := s.picture.set update.trackId update
      traceOf := s.traceOf.set update.trackId context
      latestSeen := s.latestAfter wall update }.observe update

/-- Fold a list of updates in as they arrive. -/
def absorbAll (deliveries : List Delivery) : ConformanceRunner :=
  deliveries.foldl (fun s d => s.absorb d.wall d.context d.update) s

/-- Drop tracks whose last update is too old to reason about. -/
def expireStale (now : Instant) : ConformanceRunner × List String :=
  let cutoff := now - timedelta s.staleAfterS
  let stale := (s.picture.items.filter fun entry => decide (entry.2.updatedAt < cutoff)).map Prod.fst
  ({ s with picture := stale.foldl Dict.erase s.picture, traceOf := stale.foldl Dict.erase s.traceOf },
    stale)

/-- The detection of a rule that fired. -/
def ruleDetection (track : TrackUpdate) (finding : RuleFinding) : Detection where
  key := finding.key
  kind := finding.kind
  severity := finding.severity
  summary := finding.summary
  reasonCodes := finding.reasonCodes
  trackIds := [finding.trackId]
  scenarioId := track.scenarioId

/-- The detection of a pending finding. -/
def findingDetection (finding : NonConformance) : Detection where
  key := finding.key
  kind := .nonConformance
  severity := finding.severity
  summary := finding.summary
  reasonCodes := finding.reasonCodes
  trackIds := [finding.trackId]
  conformance := some finding.asEvidence
  scenarioId := (s.picture.get? finding.trackId).bind (·.scenarioId)

/-- What a scan detects: conflicts, rules and the findings since the last scan. -/
def detections : List Detection :=
  (s.monitor.scan s.picture.values).map asDetection ++
  s.picture.values.flatMap (fun track => (checkRules track).map (ruleDetection track)) ++
  s.pendingConformance.values.map s.findingDetection

/-- The tracks gone since the last scan: the stale ones, then the terminated ones in order. -/
def vanished (now : Instant) : List String := (s.expireStale now).2 ++ s.terminated.sort (· ≤ ·)

/-- What the scan looks at: the runner without its stale tracks. -/
def pruned (now : Instant) : ConformanceRunner := (s.expireStale now).1

/-- A scan up to its first publish: the transitions are committed, the alerts still to be sent. -/
def commit (uuid4 : ℕ → String) (now : Instant) : ConformanceRunner × List Alert :=
  let vanished := s.vanished now
  let pruned := s.pruned now
  let alerts := s.manager.transitions uuid4 pruned.detections vanished now
  ({ pruned with
      scans := s.scans + 1
      terminated := ∅
      pendingConformance := Dict.empty
      manager := alerts.1
      -- with nothing vanished there is nothing to forget
      conformance := s.conformance.map fun monitor => monitor.forget vanished },
    alerts.2)

/-- The rest of a scan: every alert is published, then the store is written. -/
def deliver (alerts : List Alert) (fault : Option SinkFault) : ScanOutcome :=
  let done : ScanOutcome :=
    { runner :=
        { s with
          alerts := s.alerts + alerts.length
          alertStore := s.alertStore.map fun store => store.apply alerts }
      published := alerts
      returned := some (alerts.map (·.alertKey)) }
  match fault with
  | none => done
  | some (.publish sent) =>
    if sent < alerts.length then
      { runner := { s with alerts := s.alerts + sent }
        published := alerts.take sent
        returned := none }
    -- there is no such publish
    else done
  | some (.store written) =>
    -- the store is only written if there is one and something to write
    if s.alertStore.isNone ∨ alerts = [] then done
    else
      { runner :=
          { s with
            alerts := s.alerts + alerts.length
            alertStore := s.alertStore.map fun store => store.apply (alerts.take written) }
        published := alerts
        returned := none }

/-- Run one scan and publish whatever changed. -/
def scanNow (uuid4 : ℕ → String) (now : Instant) (fault : Option SinkFault) : ScanOutcome :=
  let out := s.commit uuid4 now
  out.1.deliver out.2 fault

end ConformanceRunner

/-- The calls on a conformance service; `wall` is what `datetime.now` says in the call. -/
inductive ConformanceCall where
  | absorb (wall : Instant) (context : Option SpanContext) (update : TrackUpdate)
  | scanNow (now : Instant) (fault : Option SinkFault)

namespace ConformanceRunner

/-- One call, with the alerts that reach the topic. -/
def step (uuid4 : ℕ → String) (s : ConformanceRunner) : ConformanceCall → ConformanceRunner × List Alert
  | .absorb wall context update => (s.absorb wall context update, [])
  | .scanNow now fault =>
    let out := s.scanNow uuid4 now fault
    (out.runner, out.published)

/-- The service after some calls. -/
def after (uuid4 : ℕ → String) (s : ConformanceRunner) (calls : List ConformanceCall) : ConformanceRunner :=
  calls.foldl (fun s call => (s.step uuid4 call).1) s

/-- The service as a machine: calls one after the other, whatever the sinks do. -/
def machine (uuid4 : ℕ → String) : Machine ConformanceRunner ConformanceCall Alert where
  step s call := some (s.step uuid4 call)

/-- A call in which nothing raises. -/
def Quiet (_ : ConformanceRunner) : ConformanceCall → Prop
  | .absorb .. => True
  | .scanNow _ fault => fault = none

/-- A service that has seen nothing yet; its settings are free. -/
structure Fresh (s : ConformanceRunner) : Prop where
  picture : s.picture = Dict.empty
  terminated : s.terminated = ∅
  traceOf : s.traceOf = Dict.empty
  pendingConformance : s.pendingConformance = Dict.empty
  latestSeen : s.latestSeen = none
  active : s.manager.active = Dict.empty
  windows : ∀ monitor ∈ s.conformance, monitor.windows = Dict.empty ∧ monitor.pending = Dict.empty
  store : ∀ store ∈ s.alertStore, store = {}

/-- A service with the settings it has by default. -/
def initial : ConformanceRunner := {}

theorem fresh_initial : initial.Fresh :=
  ⟨rfl, rfl, rfl, rfl, rfl, rfl, fun _ h => (Option.some_ne_none _ h.symm).elim,
    fun _ h => (Option.some_ne_none _ h.symm).elim⟩

end ConformanceRunner

/-! ### One condition through a scan -/

/-- Reconciled, then released with the vanished tracks. -/
def keyScan (clearAfterScans : ℕ) (sustainIntervalS : ℚ) (fresh : String) (now : Instant)
    (latest : Option Detection) (gone : List String) (record : Option Active) :
    Option Active × List Alert :=
  let reconciled := keyReconcile clearAfterScans sustainIntervalS fresh now latest record
  let forgotten := keyForget gone now reconciled.1
  (forgotten.1, reconciled.2 ++ forgotten.2)

namespace AlertManager

variable {m : AlertManager} {now : Instant} {detections : List Detection} {gone : List String}

/-- On every key a scan runs the machine of that key. -/
theorem get?_transitions (uuid4 : ℕ → String) (hk : m.Keyed) (now : Instant) (detections : List Detection)
    (gone : List String) (key : String) :
    ∃ i, (m.transitions uuid4 detections gone now).1.active.get? key =
        (keyScan m.clearAfterScans m.sustainIntervalS (uuid4 i) now (latestIn detections key) gone
          (m.active.get? key)).1 ∧
      (m.transitions uuid4 detections gone now).2.filter (fun a => a.alertKey = key) =
        (keyScan m.clearAfterScans m.sustainIntervalS (uuid4 i) now (latestIn detections key) gone
          (m.active.get? key)).2 := by
  obtain ⟨i, -, -, hreconcile⟩ := keyView_reconcile uuid4 now hk detections key
  have hkeyed : (m.reconcile uuid4 detections now).1.Keyed := (reconcile_extends hk detections).keyed
  have hforget := keyView_forget now hkeyed gone key
  have hrecord : (m.reconcile uuid4 detections now).1.active.get? key = _ := congrArg Prod.fst hreconcile
  rw [hrecord] at hforget
  have hforgotten := congrArg Prod.fst hforget
  have hreconciled := congrArg Prod.snd hreconcile
  have hreleased := congrArg Prod.snd hforget
  simp only [keyView] at hforgotten hreconciled hreleased
  refine ⟨i, ?_, ?_⟩
  · simp only [transitions, keyScan, hforgotten]
  · simp only [transitions, keyScan, List.filter_append, hreconciled, hreleased]

/-- A scan keeps the manager's filing and settings. -/
theorem transitions_extends (uuid4 : ℕ → String) (hk : m.Keyed) :
    Extends m (m.transitions uuid4 detections gone now) := by
  have hreconcile : Extends m (m.reconcile uuid4 detections now) := reconcile_extends hk detections
  have hforget : Extends _ ((m.reconcile uuid4 detections now).1.forget gone now) :=
    forget_extends hreconcile.keyed gone
  exact ⟨hforget.keyed, hreconcile.drawn.trans hforget.drawn,
    hforget.clearAfterScans.trans hreconcile.clearAfterScans,
    hforget.sustainIntervalS.trans hreconcile.sustainIntervalS⟩

end AlertManager

namespace ConformanceRunner

variable {s : ConformanceRunner} {wall now : Instant} {context : Option SpanContext} {update : TrackUpdate}
  {trackId key : String}

/-! ### Absorbing -/

/-- The check touches the monitor and its findings alone. -/
theorem observe_eq (s : ConformanceRunner) (update : TrackUpdate) : s.observe update =
    { s with
      conformance := (s.observe update).conformance
      pendingConformance := (s.observe update).pendingConformance } := by
  unfold observe
  split
  · rfl
  · simp only
    split <;> rfl

@[simp] theorem picture_observe : (s.observe update).picture = s.picture := by rw [observe_eq]

@[simp] theorem terminated_observe : (s.observe update).terminated = s.terminated := by rw [observe_eq]

@[simp] theorem staleAfterS_observe : (s.observe update).staleAfterS = s.staleAfterS := by rw [observe_eq]

theorem conformance_observe : (s.observe update).conformance =
    s.conformance.map fun monitor => (monitor.observe update).1 := by
  unfold observe
  split
  · next h => rw [h]; rfl
  · next monitor h =>
    rw [h]
    simp only
    split <;> rfl

theorem pendingConformance_observe : (s.observe update).pendingConformance =
    (s.conformance.bind fun monitor => (monitor.observe update).2).elim s.pendingConformance
      fun finding => s.pendingConformance.set finding.key finding := by
  unfold observe
  split
  · next h => rw [h]; rfl
  · next monitor h =>
    rw [h, Option.bind_some]
    simp only
    split
    · next hnone => rw [hnone]; rfl
    · next finding hfinding => rw [hfinding]; rfl

/-- A pending finding was pending before or is of the update's track. -/
theorem finding_observe_cases {finding : NonConformance}
    (h : (s.observe update).pendingConformance.get? key = some finding) :
    s.pendingConformance.get? key = some finding ∨
      ∃ monitor, s.conformance = some monitor ∧ (monitor.observe update).2 = some finding := by
  unfold observe at h
  split at h
  · exact .inl h
  · next monitor hmonitor =>
    simp only at h
    split at h
    · exact .inl h
    · next new hnew =>
      rw [Dict.get?_set] at h
      split_ifs at h
      · exact .inr ⟨monitor, hmonitor, hnew.trans h⟩
      · exact .inl h

theorem absorb_of_terminated (h : update.state = .terminated) : s.absorb wall context update =
    { s with
      updates := s.updates + 1
      picture := s.picture.erase update.trackId
      traceOf := s.traceOf.erase update.trackId
      terminated := insert update.trackId s.terminated } := if_pos h

theorem absorb_of_overtaken (h : update.state ≠ .terminated) (ho : s.overtaken update = true) :
    s.absorb wall context update = { s with updates := s.updates + 1 } :=
  (if_neg h).trans (if_pos ho)

theorem absorb_of_accepted (h : update.state ≠ .terminated) (ho : s.overtaken update = false) :
    s.absorb wall context update =
      { s with
        updates := s.updates + 1
        picture := s.picture.set update.trackId update
        traceOf := s.traceOf.set update.trackId context
        latestSeen := s.latestAfter wall update }.observe update :=
  (if_neg h).trans (if_neg (ho ▸ Bool.false_ne_true))

section

variable (s) (wall : Instant) (context : Option SpanContext) (update : TrackUpdate)

/-- An update leaves the manager, the store, the settings and the count of scans alone. -/
theorem absorb_keeps : (s.absorb wall context update).staleAfterS = s.staleAfterS ∧
    (s.absorb wall context update).manager = s.manager ∧
    (s.absorb wall context update).alertStore = s.alertStore ∧
    (s.absorb wall context update).scans = s.scans := by
  by_cases hstate : update.state = .terminated
  · rw [absorb_of_terminated hstate]
    exact ⟨rfl, rfl, rfl, rfl⟩
  cases ho : s.overtaken update with
  | true =>
    rw [absorb_of_overtaken hstate ho]
    exact ⟨rfl, rfl, rfl, rfl⟩
  | false =>
    rw [absorb_of_accepted hstate ho, observe_eq]
    exact ⟨rfl, rfl, rfl, rfl⟩

@[simp] theorem staleAfterS_absorb : (s.absorb wall context update).staleAfterS = s.staleAfterS :=
  (s.absorb_keeps wall context update).1

@[simp] theorem manager_absorb : (s.absorb wall context update).manager = s.manager :=
  (s.absorb_keeps wall context update).2.1

@[simp] theorem alertStore_absorb : (s.absorb wall context update).alertStore = s.alertStore :=
  (s.absorb_keeps wall context update).2.2.1

@[simp] theorem scans_absorb : (s.absorb wall context update).scans = s.scans :=
  (s.absorb_keeps wall context update).2.2.2

end

theorem absorbAll_concat (deliveries : List Delivery) (d : Delivery) :
    s.absorbAll (deliveries ++ [d]) = (s.absorbAll deliveries).absorb d.wall d.context d.update := by
  rw [absorbAll, List.foldl_append]
  rfl

/-- Updates arriving in turn are a run that shows nothing. -/
theorem run_absorbAll (uuid4 : ℕ → String) (s : ConformanceRunner) (deliveries : List Delivery) :
    (machine uuid4).Run Quiet s (s.absorbAll deliveries) [] := by
  induction deliveries using List.reverseRecOn with
  | nil => exact .start
  | append_singleton deliveries d ih =>
    have hquiet : Quiet (s.absorbAll deliveries) (.absorb d.wall d.context d.update) := trivial
    rw [absorbAll_concat]
    exact ih.step hquiet rfl

/-- What the picture holds after an update. -/
theorem picture_absorb (s : ConformanceRunner) (wall : Instant) (context : Option SpanContext)
    (update : TrackUpdate) (trackId : String) : (s.absorb wall context update).picture.get? trackId =
      if trackId = update.trackId then
        if update.state = .terminated then none
        else if s.overtaken update then s.picture.get? trackId else some update
      else s.picture.get? trackId := by
  by_cases hstate : update.state = .terminated
  · rw [absorb_of_terminated hstate, Dict.get?_erase, if_pos hstate]
  · rw [if_neg hstate]
    cases ho : s.overtaken update with
    | true =>
      rw [absorb_of_overtaken hstate ho]
      simp
    | false =>
      rw [absorb_of_accepted hstate ho, observe_eq]
      simp

/-! ### Scanning -/

/-- Delivery touches the store and the count alone. -/
theorem deliver_eq (alerts : List Alert) (fault : Option SinkFault) : (s.deliver alerts fault).runner =
    { s with
      alerts := (s.deliver alerts fault).runner.alerts
      alertStore := (s.deliver alerts fault).runner.alertStore } := by
  unfold deliver
  split
  · rfl
  · split_ifs <;> rfl
  · split_ifs <;> rfl

section

variable (s) (uuid4 : ℕ → String) (now : Instant) (fault : Option SinkFault)

@[simp] theorem picture_scanNow :
    (s.scanNow uuid4 now fault).runner.picture = (s.pruned now).picture := by
  rw [scanNow, deliver_eq]
  simp only [commit, pruned, expireStale]

@[simp] theorem traceOf_scanNow :
    (s.scanNow uuid4 now fault).runner.traceOf = (s.pruned now).traceOf := by
  rw [scanNow, deliver_eq]
  simp only [commit, pruned, expireStale]

@[simp] theorem terminated_scanNow : (s.scanNow uuid4 now fault).runner.terminated = ∅ := by
  rw [scanNow, deliver_eq]
  simp only [commit, pruned, expireStale]

@[simp] theorem pendingConformance_scanNow :
    (s.scanNow uuid4 now fault).runner.pendingConformance = Dict.empty := by
  rw [scanNow, deliver_eq]
  simp only [commit, pruned, expireStale]

@[simp] theorem staleAfterS_scanNow : (s.scanNow uuid4 now fault).runner.staleAfterS = s.staleAfterS := by
  rw [scanNow, deliver_eq]
  simp only [commit, pruned, expireStale]

@[simp] theorem scans_scanNow : (s.scanNow uuid4 now fault).runner.scans = s.scans + 1 := by
  rw [scanNow, deliver_eq]
  simp only [commit, pruned, expireStale]

@[simp] theorem conformance_scanNow : (s.scanNow uuid4 now fault).runner.conformance =
    s.conformance.map fun monitor => monitor.forget (s.vanished now) := by
  rw [scanNow, deliver_eq]
  simp only [commit, pruned, expireStale]

@[simp] theorem manager_scanNow : (s.scanNow uuid4 now fault).runner.manager =
    (s.manager.transitions uuid4 (s.pruned now).detections (s.vanished now) now).1 := by
  rw [scanNow, deliver_eq]
  simp only [commit, pruned, expireStale]

theorem published_scanNow : (s.scanNow uuid4 now none).published =
    (s.manager.transitions uuid4 (s.pruned now).detections (s.vanished now) now).2 := by
  rw [scanNow]
  simp only [deliver, commit]

end

theorem mem_stale_iff : trackId ∈ (s.expireStale now).2 ↔
    ∃ u, s.picture.get? trackId = some u ∧ u.updatedAt < now - timedelta s.staleAfterS := by
  simp only [expireStale, List.mem_map, List.mem_filter, decide_eq_true_eq, Dict.get?_eq_some_iff]
  constructor
  · rintro ⟨⟨_, u⟩, ⟨hmem, hold⟩, rfl⟩
    exact ⟨u, hmem, hold⟩
  · rintro ⟨u, hmem, hold⟩
    exact ⟨(trackId, u), ⟨hmem, hold⟩, rfl⟩

theorem mem_vanished_iff : trackId ∈ s.vanished now ↔
    (∃ u, s.picture.get? trackId = some u ∧ u.updatedAt < now - timedelta s.staleAfterS) ∨
      trackId ∈ s.terminated := by
  rw [vanished, List.mem_append, mem_stale_iff, Finset.mem_sort]

/-- The scan looks at the tracks that are not stale. -/
theorem picture_pruned (s : ConformanceRunner) (now : Instant) (trackId : String) :
    (s.pruned now).picture.get? trackId =
      (s.picture.get? trackId).filter fun u => !decide (u.updatedAt < now - timedelta s.staleAfterS) := by
  have hstale : (s.pruned now).picture = (s.expireStale now).2.foldl Dict.erase s.picture := rfl
  rw [hstale, Dict.get?_foldl_erase]
  cases hget : s.picture.get? trackId with
  | none => simp
  | some u =>
    have hiff : trackId ∈ (s.expireStale now).2 ↔ u.updatedAt < now - timedelta s.staleAfterS := by
      rw [mem_stale_iff, hget]
      simp
    rw [Option.filter_some]
    by_cases hold : u.updatedAt < now - timedelta s.staleAfterS
    · simp [hiff, hold]
    · simp [hiff, hold]

/-- A scan drops nothing while every update is recent. -/
theorem expireStale_of_recent (h : ∀ u ∈ s.picture.values, now - timedelta s.staleAfterS ≤ u.updatedAt) :
    s.expireStale now = (s, []) := by
  have hnone : s.picture.items.filter
      (fun entry => decide (entry.2.updatedAt < now - timedelta s.staleAfterS)) = [] := by
    rw [List.filter_eq_nil_iff]
    intro entry hentry
    have hu := h entry.2 (List.mem_map_of_mem hentry)
    simpa using hu
  simp only [expireStale, hnone, List.map_nil, List.foldl_nil]

/-- A track that leaves the picture with the stale ones has vanished. -/
theorem mem_picture_or_vanished (h : trackId ∈ s.picture.keys ∨ trackId ∈ s.terminated) :
    trackId ∈ (s.pruned now).picture.keys ∨ trackId ∈ s.vanished now := by
  rw [mem_vanished_iff]
  rcases h with h | h
  · obtain ⟨u, hu⟩ := Dict.mem_keys_iff.mp h
    by_cases hold : u.updatedAt < now - timedelta s.staleAfterS
    · exact .inr (.inl ⟨u, hu, hold⟩)
    · refine .inl (Dict.mem_keys_iff.mpr ⟨u, ?_⟩)
      rw [picture_pruned, hu, Option.filter_some]
      simp [hold]
  · exact .inr (.inr h)

end ConformanceRunner

end

end Airspace
