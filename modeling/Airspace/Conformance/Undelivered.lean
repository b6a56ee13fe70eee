import Airspace.Conformance.LiveConditions

/-! Scans that fail.

    A scan commits the manager's transitions before it sends anything, and a sink that raises keeps the rest
    of the batch from the topic and the store. What is withheld is not sent again: a NEW or a SUSTAINED is
    made good by the next heartbeat, a CLEARED is lost with the record that could have repeated it. As long
    as every CLEARED gets past the failure, an alert that is open on the topic or in the store is active in
    the manager, and so is cleared on both once its condition is gone. -/

namespace Airspace

noncomputable section

open LiveAlertStore (keyApply entryKey)

/-- The alert a consumer of the topic shows for a key, if any. -/
def topicOf (key : String) (log : List Alert) : Option Alert :=
  (log.filter fun a => a.alertKey = key).foldl keyApply none

/-! ### One condition through a scan -/

section

variable {clearAfterScans : ℕ} {sustainIntervalS : ℚ} {fresh key : String} {now : Instant}
  {latest : Option Detection} {gone : List String} {record : Option Active} {shown : Option Alert}
  {alerts sent withheld : List Alert}

/-- A reconciliation that leaves no record has none to begin with, or clears it. -/
theorem keyReconcile_none
    (h : (keyReconcile clearAfterScans sustainIntervalS fresh now latest record).1 = none) :
    record = none ∧ (keyReconcile clearAfterScans sustainIntervalS fresh now latest record).2 = [] ∨
      ∃ last, (keyReconcile clearAfterScans sustainIntervalS fresh now latest record).2 = [last] ∧
        last.state = .cleared := by
  cases latest with
  | some d =>
    obtain ⟨a, -, ha, -⟩ := keyReconcile_detected clearAfterScans sustainIntervalS fresh now d record
    rw [ha] at h
    cases h
  | none =>
    cases record with
    | none => exact .inl ⟨rfl, rfl⟩
    | some a =>
      simp only [keyReconcile] at h ⊢
      split_ifs at h ⊢
      exact .inr ⟨_, rfl, rfl⟩

/-- A scan that leaves no record has none to begin with and says nothing, or ends with a CLEARED. -/
theorem keyScan_none (h : (keyScan clearAfterScans sustainIntervalS fresh now latest gone record).1 = none) :
    record = none ∧ (keyScan clearAfterScans sustainIntervalS fresh now latest gone record).2 = [] ∨
      ∃ said last, (keyScan clearAfterScans sustainIntervalS fresh now latest gone record).2 = said ++ [last] ∧
        last.state = .cleared := by
  simp only [keyScan] at h ⊢
  cases hreconciled : (keyReconcile clearAfterScans sustainIntervalS fresh now latest record).1 with
  | none =>
    rw [keyForget, List.append_nil]
    rcases keyReconcile_none hreconciled with hnothing | ⟨last, hlast, hcleared⟩
    · exact .inl hnothing
    · exact .inr ⟨[], last, hlast, hcleared⟩
  | some a =>
    rw [hreconciled, keyForget] at h
    rw [keyForget]
    split_ifs at h ⊢
    exact .inr ⟨_, _, rfl, rfl⟩

/-- What is said of a key closes it if the scan drops it, provided no CLEARED is withheld. -/
theorem closed_of_keyScan_none (hsent : alerts = sent ++ withheld)
    (hkept : ∀ a ∈ withheld, a.state ≠ .cleared)
    (hscan : alerts.filter (fun a => a.alertKey = key) =
      (keyScan clearAfterScans sustainIntervalS fresh now latest gone record).2)
    (hopen : shown ≠ none → record ≠ none)
    (hnone : (keyScan clearAfterScans sustainIntervalS fresh now latest gone record).1 = none) :
    (sent.filter fun a => a.alertKey = key).foldl keyApply shown = none := by
  have hsplit : sent.filter (fun a => a.alertKey = key) ++ withheld.filter (fun a => a.alertKey = key) =
      (keyScan clearAfterScans sustainIntervalS fresh now latest gone record).2 := by
    rw [← hscan, hsent, List.filter_append]
  rcases keyScan_none hnone with ⟨hrecord, hnothing⟩ | ⟨said, last, hsaid, hcleared⟩
  · rw [hnothing, List.append_eq_nil_iff] at hsplit
    rw [hsplit.1]
    exact not_not.mp fun hshown => hopen hshown hrecord
  · -- the CLEARED comes last, so nothing of the key is withheld
    have hall : withheld.filter (fun a => a.alertKey = key) = [] := by
      rcases List.eq_nil_or_concat (withheld.filter fun a => a.alertKey = key) with hnil | ⟨l, a, hl⟩
      · exact hnil
      · rw [List.concat_eq_append] at hl
        rw [hsaid, hl, ← List.append_assoc] at hsplit
        have hlast : a = last := by simpa using (List.append_inj' hsplit rfl).2
        have ha : a ∈ withheld := List.mem_of_mem_filter (hl ▸ List.mem_append_right l List.mem_cons_self)
        exact absurd (hlast ▸ hcleared) (hkept a ha)
    rw [hall, List.append_nil, hsaid] at hsplit
    rw [hsplit, List.foldl_append, List.foldl_cons, List.foldl_nil, keyApply, if_pos hcleared]

end

namespace ConformanceRunner

variable {s s' start : ConformanceRunner} {uuid4 : ℕ → String} {now : Instant} {fault : Option SinkFault}
  {key : String} {log later : List Alert}

/-! ### What a failing sink withholds -/

/-- The alerts of a scan that do not reach the topic, or do not reach the store if there is one. -/
def withheld (s : ConformanceRunner) (alerts : List Alert) : Option SinkFault → List Alert
  | none => []
  | some (.publish sent) =>
    -- after a failing publish the store is not written at all
    if s.alertStore.isSome ∧ sent < alerts.length then alerts else alerts.drop sent
  | some (.store written) => if s.alertStore.isSome then alerts.drop written else []

/-- Every CLEARED of a scan gets past its failure. -/
def ClearsAll (uuid4 : ℕ → String) (s : ConformanceRunner) : ConformanceCall → Prop
  | .absorb .. => True
  | .scanNow now fault => ∀ a ∈ s.withheld (s.manager.transitions uuid4 (s.pruned now).detections
      (s.vanished now) now).2 fault, a.state ≠ .cleared

/-- The entry of a key in the live store. -/
def storeOf (s : ConformanceRunner) (key : String) : Option Alert :=
  s.alertStore.bind fun store => store.entries.get? (entryKey key)

/-- Both sinks get the batch up to some point, and what they do not get is withheld. -/
theorem delivered (s : ConformanceRunner) (alerts : List Alert) (fault : Option SinkFault) :
    ∃ sent unsent stored unstored, alerts = sent ++ unsent ∧ alerts = stored ++ unstored ∧
      (s.deliver alerts fault).published = sent ∧
      (s.deliver alerts fault).runner.alertStore = s.alertStore.map (·.apply stored) ∧
      (∀ a ∈ unsent, a ∈ s.withheld alerts fault) ∧
      (s.alertStore.isSome → ∀ a ∈ unstored, a ∈ s.withheld alerts fault) := by
  have hnothing : ∀ p : Alert → Prop, ∀ a ∈ ([] : List Alert), p a := fun _ _ h => (List.not_mem_nil h).elim
  have hall : alerts = alerts ++ [] := (List.append_nil alerts).symm
  cases fault with
  | none => exact ⟨alerts, [], alerts, [], hall, hall, rfl, rfl, hnothing _, fun _ => hnothing _⟩
  | some fault =>
    cases fault with
    | publish sent =>
      simp only [deliver, withheld]
      by_cases hlt : sent < alerts.length
      · refine ⟨alerts.take sent, alerts.drop sent, [], alerts, (List.take_append_drop sent alerts).symm,
          rfl, ?_⟩
        have hsame : s.alertStore.map (fun store => store.apply []) = s.alertStore := Option.map_id' ..
        rw [if_pos hlt]
        refine ⟨rfl, hsame.symm, fun a ha => ?_, fun hstore a ha => ?_⟩
        · split_ifs
          · exact List.mem_of_mem_drop ha
          · exact ha
        · rwa [if_pos ⟨hstore, hlt⟩]
      · rw [if_neg hlt]
        exact ⟨alerts, [], alerts, [], hall, hall, rfl, rfl, hnothing _, fun _ => hnothing _⟩
    | store written =>
      simp only [deliver, withheld]
      by_cases hnone : s.alertStore.isNone ∨ alerts = []
      · rw [if_pos hnone]
        exact ⟨alerts, [], alerts, [], hall, hall, rfl, rfl, hnothing _, fun _ => hnothing _⟩
      · rw [if_neg hnone]
        refine ⟨alerts, [], alerts.take written, alerts.drop written, hall,
          (List.take_append_drop written alerts).symm, rfl, rfl, hnothing _, fun hstore a ha => ?_⟩
        rwa [if_pos hstore]

/-- The same of a whole scan. -/
theorem delivered_scanNow (s : ConformanceRunner) (uuid4 : ℕ → String) (now : Instant)
    (fault : Option SinkFault) :
    let alerts := (s.manager.transitions uuid4 (s.pruned now).detections (s.vanished now) now).2
    ∃ sent unsent stored unstored, alerts = sent ++ unsent ∧ alerts = stored ++ unstored ∧
      (s.scanNow uuid4 now fault).published = sent ∧
      (s.scanNow uuid4 now fault).runner.alertStore = s.alertStore.map (·.apply stored) ∧
      (∀ a ∈ unsent, a ∈ s.withheld alerts fault) ∧
      (s.alertStore.isSome → ∀ a ∈ unstored, a ∈ s.withheld alerts fault) :=
  delivered (s.commit uuid4 now).1 (s.commit uuid4 now).2 fault

/-! ### What is open is active -/

/-- What is open under a key, on the topic or in the store, is active in the manager. -/
structure Open (key : String) (s : ConformanceRunner) (log : List Alert) : Prop where
  keyed : s.manager.Keyed
  topic : topicOf key log ≠ none → s.manager.active.get? key ≠ none
  store : s.storeOf key ≠ none → s.manager.active.get? key ≠ none

theorem open_fresh (h : start.Fresh) (key : String) : Open key start [] := by
  refine ⟨(attached_fresh h).keyed, fun hshown => absurd rfl hshown, fun hstored => absurd ?_ hstored⟩
  rw [storeOf]
  cases hstore : start.alertStore with
  | none => rfl
  | some store =>
    rw [h.store store hstore]
    rfl

theorem topicOf_append (key : String) (log shown : List Alert) : topicOf key (log ++ shown) =
    (shown.filter fun a => a.alertKey = key).foldl keyApply (topicOf key log) := by
  rw [topicOf, List.filter_append, List.foldl_append]
  rfl

/-- A scan whose every CLEARED gets past its failure. -/
theorem Open.scanNow (h : Open key s log) (hclears : ClearsAll uuid4 s (.scanNow now fault)) :
    Open key (s.scanNow uuid4 now fault).runner (log ++ (s.scanNow uuid4 now fault).published) := by
  obtain ⟨sent, unsent, stored, unstored, hsent, hstored, hpublished, hstore, hunsent, hunstored⟩ :=
    delivered_scanNow s uuid4 now fault
  obtain ⟨i, hrecord, halerts⟩ := AlertManager.get?_transitions uuid4 h.keyed now (s.pruned now).detections
    (s.vanished now) key
  refine ⟨?_, fun hshown hnone => hshown ?_, fun hshown hnone => hshown ?_⟩
  · rw [manager_scanNow]
    exact (AlertManager.transitions_extends uuid4 h.keyed).keyed
  · rw [manager_scanNow, hrecord] at hnone
    rw [topicOf_append, hpublished]
    exact closed_of_keyScan_none hsent (fun a ha => hclears a (hunsent a ha)) halerts h.topic hnone
  · rw [manager_scanNow, hrecord] at hnone
    rw [storeOf, hstore]
    cases hsome : s.alertStore with
    | none => rfl
    | some store =>
      have hheld : store.entries.get? (entryKey key) ≠ none → s.manager.active.get? key ≠ none := by
        intro hentry
        refine h.store ?_
        rwa [storeOf, hsome]
      have hisSome : s.alertStore.isSome := hsome ▸ rfl
      rw [Option.map_some, Option.bind_some, LiveAlertStore.get?_apply]
      exact closed_of_keyScan_none hstored (fun a ha => hclears a (hunstored hisSome a ha)) halerts hheld hnone

theorem Open.absorb (h : Open key s log) (wall : Instant) (context : Option SpanContext)
    (update : TrackUpdate) : Open key (s.absorb wall context update) log := by
  refine ⟨?_, ?_, ?_⟩
  · rw [manager_absorb]
    exact h.keyed
  · rw [manager_absorb]
    exact h.topic
  · rw [manager_absorb, storeOf, alertStore_absorb]
    exact h.store

theorem open_run (hfresh : start.Fresh) (hrun : (machine uuid4).Run (ClearsAll uuid4) start s log)
    (key : String) : Open key s log := by
  refine hrun.invariant (I := Open key) (open_fresh hfresh key) ?_
  rintro s log call s' shown h hclears hstep
  cases call with
  | absorb wall context update =>
    cases hstep
    rw [List.append_nil]
    exact h.absorb wall context update
  | scanNow now fault =>
    cases hstep
    exact h.scanNow hclears

/-! ### A condition that is gone -/

/-- Nothing raises and the condition is not detected. -/
def Gone (key : String) (s : ConformanceRunner) : ConformanceCall → Prop
  | .absorb .. => True
  | .scanNow now fault => fault = none ∧ AlertManager.latestIn (s.pruned now).detections key = none

theorem clearsAll_of_gone {call : ConformanceCall} (h : Gone key s call) : ClearsAll uuid4 s call := by
  cases call with
  | absorb wall context update => trivial
  | scanNow now fault =>
    rintro a ha
    rw [h.1] at ha
    exact (List.not_mem_nil ha).elim

/-- The condition is no longer active, or has been missed in every scan since there were `scans`. -/
structure Missed (key : String) (k scans : ℕ) (s : ConformanceRunner) : Prop where
  keyed : s.manager.Keyed
  clearAfterScans : s.manager.clearAfterScans = k
  record : ∀ a, s.manager.active.get? key = some a → s.scans ≤ scans + a.missedScans ∧
    (s.scans = scans ∨ a.missedScans < k)

/-- A record left by a scan that did not detect its condition has missed one scan more. -/
theorem keyScan_missed {k : ℕ} {sustainIntervalS : ℚ} {fresh : String} {gone : List String}
    {record : Option Active} {b : Active}
    (h : (keyScan k sustainIntervalS fresh now none gone record).1 = some b) :
    ∃ a, record = some a ∧ b.missedScans = a.missedScans + 1 ∧ b.missedScans < k := by
  obtain ⟨hreconciled, -⟩ := keyForget_some h
  cases record with
  | none => cases hreconciled
  | some a =>
    simp only [keyReconcile] at hreconciled
    split_ifs at hreconciled with hclear
    obtain rfl := Option.some.inj hreconciled
    exact ⟨a, rfl, rfl, not_le.mp hclear⟩

theorem Missed.run {k scans : ℕ} (h : Missed key k scans s) (hrun : (machine uuid4).Run (Gone key) s s' later) :
    Missed key k scans s' := by
  refine hrun.invariant (I := fun s _ => Missed key k scans s) h ?_
  rintro s log call s' shown h hgone hstep
  cases call with
  | absorb wall context update =>
    cases hstep
    refine ⟨?_, ?_, ?_⟩
    · rw [manager_absorb]
      exact h.keyed
    · rw [manager_absorb]
      exact h.clearAfterScans
    · rw [manager_absorb, scans_absorb]
      exact h.record
  | scanNow now fault =>
    cases hstep
    have hextends : AlertManager.Extends s.manager (s.manager.transitions uuid4 (s.pruned now).detections
        (s.vanished now) now) := AlertManager.transitions_extends uuid4 h.keyed
    obtain ⟨i, hrecord, -⟩ := AlertManager.get?_transitions uuid4 h.keyed now (s.pruned now).detections
      (s.vanished now) key
    refine ⟨?_, ?_, ?_⟩
    · rw [manager_scanNow]
      exact hextends.keyed
    · rw [manager_scanNow]
      exact hextends.clearAfterScans.trans h.clearAfterScans
    · intro b hb
      rw [manager_scanNow, hrecord, hgone.2] at hb
      obtain ⟨a, ha, hmissed, hlt⟩ := keyScan_missed hb
      obtain ⟨hle, -⟩ := h.record a ha
      rw [scans_scanNow, ← h.clearAfterScans]
      exact ⟨by omega, .inr hlt⟩

/-- A condition missed often enough is not active. -/
theorem inactive_of_gone (hkeyed : s.manager.Keyed) (hrun : (machine uuid4).Run (Gone key) s s' later)
    (hscans : s.scans + max 1 s.manager.clearAfterScans ≤ s'.scans) :
    s'.manager.active.get? key = none := by
  have hstart : Missed key s.manager.clearAfterScans s.scans s :=
    ⟨hkeyed, rfl, fun a _ => ⟨Nat.le_add_right .., .inl rfl⟩⟩
  have hmissed := hstart.run hrun
  cases hget : s'.manager.active.get? key with
  | none => rfl
  | some a =>
    obtain ⟨hle, hlt⟩ := hmissed.record a hget
    omega

/-- No failed scan leaves an alert open. In every run in which every CLEARED gets past the failure of its
    scan, if any, an alert open on the topic or in the live store is active in the manager; and once
    nothing fails and its condition has been gone for as many scans as it takes to clear it, both end with
    it closed. -/
theorem failed_scans_leave_no_alert_open (hfresh : start.Fresh)
    (hrun : (machine uuid4).Run (ClearsAll uuid4) start s log) (key : String) :
    (topicOf key log ≠ none → key ∈ s.manager.active.keys) ∧
      (s.storeOf key ≠ none → key ∈ s.manager.active.keys) ∧
      ∀ s' later, (machine uuid4).Run (Gone key) s s' later →
        s.scans + max 1 s.manager.clearAfterScans ≤ s'.scans →
        topicOf key (log ++ later) = none ∧ s'.storeOf key = none := by
  have hopen : Open key s log := open_run hfresh hrun key
  have hactive : s.manager.active.get? key ≠ none → key ∈ s.manager.active.keys := by
    rw [ne_eq, Dict.get?_eq_none_iff, not_not]
    exact id
  refine ⟨fun h => hactive (hopen.topic h), fun h => hactive (hopen.store h), fun s' later hlater hscans => ?_⟩
  have hnone : s'.manager.active.get? key = none := inactive_of_gone hopen.keyed hlater hscans
  have hlast : Open key s' (log ++ later) :=
    open_run hfresh (hrun.trans (hlater.mono fun _ _ => clearsAll_of_gone)) key
  exact ⟨not_not.mp fun h => hlast.topic h hnone, not_not.mp fun h => hlast.store h hnone⟩

/-! ### An alert left open -/

/-- Of a condition that is neither active nor detected nothing is said. -/
structure Silent (key : String) (entry : Option Alert) (s : ConformanceRunner) (said : List Alert) : Prop where
  keyed : s.manager.Keyed
  inactive : s.manager.active.get? key = none
  said : said.filter (fun a => a.alertKey = key) = []
  stored : s.storeOf key = entry

theorem silent_run (hkeyed : s.manager.Keyed) (hnone : s.manager.active.get? key = none)
    (hrun : (machine uuid4).Run (Gone key) s s' later) : Silent key (s.storeOf key) s' later := by
  refine hrun.invariant (I := Silent key (s.storeOf key)) ⟨hkeyed, hnone, rfl, rfl⟩ ?_
  rintro t said call t' shown h hgone hstep
  cases call with
  | absorb wall context update =>
    cases hstep
    refine ⟨?_, ?_, ?_, ?_⟩
    · rw [manager_absorb]
      exact h.keyed
    · rw [manager_absorb]
      exact h.inactive
    · rw [List.append_nil]
      exact h.said
    · rw [storeOf, alertStore_absorb]
      exact h.stored
  | scanNow now fault =>
    cases hstep
    obtain ⟨sent, unsent, stored, unstored, hsent, hstored, hpublished, hstore, -, -⟩ :=
      delivered_scanNow t uuid4 now fault
    obtain ⟨i, hrecord, halerts⟩ := AlertManager.get?_transitions uuid4 h.keyed now (t.pruned now).detections
      (t.vanished now) key
    rw [h.inactive, hgone.2] at hrecord halerts
    replace halerts : _ = ([] : List Alert) := halerts
    have hquiet : ∀ part rest, part ++ rest = (t.manager.transitions uuid4 (t.pruned now).detections
        (t.vanished now) now).2 → part.filter (fun a => a.alertKey = key) = [] := by
      intro part rest hpart
      rw [← hpart, List.filter_append, List.append_eq_nil_iff] at halerts
      exact halerts.1
    refine ⟨?_, ?_, ?_, ?_⟩
    · rw [manager_scanNow]
      exact (AlertManager.transitions_extends uuid4 h.keyed).keyed
    · rw [manager_scanNow, hrecord]
      rfl
    · rw [List.filter_append, h.said]
      exact hpublished ▸ hquiet sent unsent hsent.symm
    · rw [← h.stored, storeOf, storeOf, hstore]
      cases t.alertStore with
      | none => rfl
      | some store =>
        rw [Option.map_some, Option.bind_some, LiveAlertStore.get?_apply, hquiet stored unstored hstored.symm]
        rfl

/-- A service with an empty live store. -/
def storing : ConformanceRunner := { initial with alertStore := some {} }

/-- It hears of an emergency. -/
def alarmed : ConformanceRunner := storing.absorb 0 none (distress 0 .confirmed)

theorem alarmed_run : (machine AlertManager.twoUuids).Run (ClearsAll AlertManager.twoUuids)
    storing alarmed [] := by
  have hclears : ClearsAll AlertManager.twoUuids storing
      (.absorb 0 none (distress 0 .confirmed)) := trivial
  exact Machine.Run.start.step hclears rfl

theorem fresh_storing : storing.Fresh := by
  refine ⟨rfl, rfl, rfl, rfl, rfl, rfl, ?_, ?_⟩
  · rintro monitor ⟨⟩
  · rintro store ⟨⟩
    rfl

/-- The first scan of it raises the emergency. -/
theorem transitions_alarmed : alarmed.manager.transitions AlertManager.twoUuids (alarmed.pruned 0).detections
    (alarmed.vanished 0) 0 = AlertManager.transitions AlertManager.twoUuids {} [distressDetection] [] 0 := by
  obtain ⟨hrecent, hdetections⟩ := detected_distress (s := alarmed) rfl rfl rfl
  have hnone : alarmed.vanished 0 = [] := by
    rw [vanished, hrecent]
    exact Finset.sort_empty _
  rw [hdetections, hnone]
  rfl

/-- A service that sees no aircraft, and has nothing to report of one. -/
structure Empty (s : ConformanceRunner) : Prop where
  picture : s.picture.items = []
  pending : s.pendingConformance = Dict.empty

theorem Empty.expireStale (h : s.Empty) (now : Instant) : s.expireStale now = (s, []) := by
  refine expireStale_of_recent fun u hu => ?_
  rw [Dict.values, h.picture] at hu
  exact (List.not_mem_nil hu).elim

theorem Empty.detections (h : s.Empty) (now : Instant) : (s.pruned now).detections = [] := by
  rw [pruned, h.expireStale, ConformanceRunner.detections, Dict.values, h.picture, h.pending]
  rfl

/-- It stays empty, and every condition gone, for as many scans as there are. -/
theorem Empty.run_gone (h : s.Empty) (key : String) (now : Instant) (n : ℕ) :
    ∃ s' later, (machine uuid4).Run (Gone key) s s' later ∧ s'.Empty ∧ s'.scans = s.scans + n := by
  induction n with
  | zero => exact ⟨s, [], .start, h, rfl⟩
  | succ n ih =>
    obtain ⟨s', later, hrun, hempty, hscans⟩ := ih
    have hgone : Gone key s' (.scanNow now none) := ⟨rfl, by rw [hempty.detections]; rfl⟩
    refine ⟨_, _, hrun.step hgone rfl, ⟨?_, pendingConformance_scanNow ..⟩, (scans_scanNow ..).trans (by omega)⟩
    rw [picture_scanNow, pruned, hempty.expireStale]
    exact hempty.picture

/-- The aircraft in an emergency is the only one, and once it is terminated there is none. -/
theorem empty_of_alarmed (fault : Option SinkFault) :
    ((alarmed.scanNow AlertManager.twoUuids 0 fault).runner.absorb 0 none (distress 0 .terminated)).Empty := by
  obtain ⟨hrecent, -⟩ := detected_distress (s := alarmed) rfl rfl rfl
  rw [absorb_of_terminated rfl]
  refine ⟨?_, pendingConformance_scanNow ..⟩
  rw [picture_scanNow, pruned, hrecent]
  rfl

/-- A scan that fails to write the store has sent everything. -/
theorem published_store (s : ConformanceRunner) (uuid4 : ℕ → String) (now : Instant) (written : ℕ) :
    (s.scanNow uuid4 now (some (.store written))).published =
      (s.manager.transitions uuid4 (s.pruned now).detections (s.vanished now) now).2 := by
  rw [scanNow, deliver]
  exact (apply_ite ScanOutcome.published _ _ _).trans (ite_self _)

/-- The emergency announced, by a scan that fails to store it. -/
def unstored : ScanOutcome := alarmed.scanNow AlertManager.twoUuids 0 (some (.store 0))

/-- Open on the topic the emergency is active, and three scans after its aircraft has gone it is closed. -/
theorem failed_scans_leave_no_alert_open_alarmed :
    topicOf distressDetection.key unstored.published ≠ none ∧
      distressDetection.key ∈ unstored.runner.manager.active.keys ∧
      ∃ s' later, (machine AlertManager.twoUuids).Run (Gone distressDetection.key) unstored.runner s' later ∧
        topicOf distressDetection.key (unstored.published ++ later) = none ∧
        s'.storeOf distressDetection.key = none := by
  have hclears : ClearsAll AlertManager.twoUuids alarmed (.scanNow 0 (some (.store 0))) := by
    intro a ha
    rw [transitions_alarmed] at ha
    have hnew : a = render _ distressDetection .new 0 := List.mem_singleton.mp ha
    rw [hnew]
    decide
  have hrun : (machine AlertManager.twoUuids).Run (ClearsAll AlertManager.twoUuids) storing unstored.runner
      ([] ++ unstored.published) := alarmed_run.step hclears rfl
  have hopen : topicOf distressDetection.key unstored.published ≠ none := by
    have hpublished : unstored.published =
        (AlertManager.transitions AlertManager.twoUuids {} [distressDetection] [] 0).2 := by
      rw [← transitions_alarmed, unstored, published_store]
    rw [hpublished]
    decide
  obtain ⟨htopic, -, hlater⟩ := failed_scans_leave_no_alert_open fresh_storing hrun distressDetection.key
  have hterminated : (machine AlertManager.twoUuids).Run (Gone distressDetection.key) unstored.runner
      (unstored.runner.absorb 0 none (distress 0 .terminated)) [] := by
    have habsorb : Gone distressDetection.key unstored.runner (.absorb 0 none (distress 0 .terminated)) := trivial
    exact Machine.Run.start.step habsorb rfl
  obtain ⟨s', later, hgone, -, hscans⟩ := (empty_of_alarmed (some (.store 0))).run_gone
    distressDetection.key 0 3
  have hlast : unstored.runner.scans + max 1 unstored.runner.manager.clearAfterScans ≤ s'.scans := by
    have hclearAfter : unstored.runner.manager.clearAfterScans = 3 := by
      rw [unstored, manager_scanNow, transitions_alarmed]
      rfl
    rw [hclearAfter, hscans, scans_absorb]
    exact le_rfl
  exact ⟨hopen, htopic hopen, s', _, hterminated.trans hgone, hlater s' _ (hterminated.trans hgone) hlast⟩

/-- A scan that fails at its first publish sends and stores nothing. -/
theorem deliver_publish_zero (s : ConformanceRunner) (alerts : List Alert) :
    (s.deliver alerts (some (.publish 0))).published = [] ∧
      (s.deliver alerts (some (.publish 0))).runner.alertStore = s.alertStore := by
  simp only [deliver]
  split_ifs with hlt
  · exact ⟨rfl, rfl⟩
  · obtain rfl : alerts = [] := List.eq_nil_of_length_eq_zero (Nat.eq_zero_of_not_pos hlt)
    exact ⟨rfl, Option.map_id' ..⟩

theorem scanNow_publish_zero (s : ConformanceRunner) (uuid4 : ℕ → String) (now : Instant) :
    (s.scanNow uuid4 now (some (.publish 0))).published = [] ∧
      (s.scanNow uuid4 now (some (.publish 0))).runner.alertStore = s.alertStore := by
  have hcommit : (s.commit uuid4 now).1.alertStore = s.alertStore := by
    simp only [commit, pruned, expireStale]
  rw [scanNow, ← hcommit]
  exact deliver_publish_zero (s.commit uuid4 now).1 (s.commit uuid4 now).2

theorem alertStore_scanNow (s : ConformanceRunner) (uuid4 : ℕ → String) (now : Instant) :
    (s.scanNow uuid4 now none).runner.alertStore = s.alertStore.map (·.apply
      (s.manager.transitions uuid4 (s.pruned now).detections (s.vanished now) now).2) := by
  rw [scanNow]
  simp only [deliver, commit, pruned, expireStale]

/-- The emergency announced and stored, then its aircraft terminated. -/
def bereft : ConformanceRunner :=
  (alarmed.scanNow AlertManager.twoUuids 0 none).runner.absorb 0 none (distress 0 .terminated)

theorem transitions_bereft : bereft.manager.transitions AlertManager.twoUuids (bereft.pruned 0).detections
    (bereft.vanished 0) 0 = AlertManager.transitions AlertManager.twoUuids
      (AlertManager.transitions AlertManager.twoUuids {} [distressDetection] [] 0).1 [] ["trk-abc123"] 0 := by
  have hempty : bereft.Empty := empty_of_alarmed none
  have hterminated : bereft.terminated = {"trk-abc123"} := by
    rw [bereft, absorb_of_terminated rfl, terminated_scanNow]
    rfl
  have hgone : bereft.vanished 0 = ["trk-abc123"] := by
    rw [vanished, hempty.expireStale, hterminated, Finset.sort_singleton]
    rfl
  rw [hempty.detections, hgone, bereft, manager_absorb, manager_scanNow, transitions_alarmed]

/-- The emergency is announced, its aircraft terminated, and the scan that clears it fails to publish. -/
def unannounced : ConformanceRunner :=
  (bereft.scanNow AlertManager.twoUuids 0 (some (.publish 0))).runner

/-- An alert that stays open. The CLEARED of an emergency is withheld by one failing publish; the manager
    has dropped it, and however long nothing fails after that, the topic and the store show it. -/
theorem withheld_clear_leaves_alert_open : ∃ log,
    (machine AlertManager.twoUuids).Run (fun _ _ => True) storing unannounced log ∧
      distressDetection.key ∉ unannounced.manager.active.keys ∧
      ∀ s' later, (machine AlertManager.twoUuids).Run (Gone distressDetection.key) unannounced s' later →
        topicOf distressDetection.key (log ++ later) ≠ none ∧ s'.storeOf distressDetection.key ≠ none := by
  have hrun : (machine AlertManager.twoUuids).Run (fun _ _ => True) storing unannounced
      ([] ++ (alarmed.scanNow AlertManager.twoUuids 0 none).published ++ [] ++
        (bereft.scanNow AlertManager.twoUuids 0 (some (.publish 0))).published) :=
    (((alarmed_run.mono fun _ _ _ => trivial).step (a := .scanNow 0 none) trivial rfl).step
      (a := .absorb 0 none (distress 0 .terminated)) trivial rfl).step
      (a := .scanNow 0 (some (.publish 0))) trivial rfl
  have hmanager : unannounced.manager = (AlertManager.transitions AlertManager.twoUuids
      (AlertManager.transitions AlertManager.twoUuids {} [distressDetection] [] 0).1
        [] ["trk-abc123"] 0).1 := by
    rw [unannounced, manager_scanNow, transitions_bereft]
  have hnone : unannounced.manager.active.get? distressDetection.key = none := by
    rw [hmanager]
    rfl
  have hkeyed : unannounced.manager.Keyed := (attached_run fresh_storing hrun).keyed
  refine ⟨_, hrun, Dict.get?_eq_none_iff.mp hnone, fun s' later hlater => ?_⟩
  obtain ⟨-, -, hsaid, hstored⟩ := silent_run hkeyed hnone hlater
  have hpublished : (alarmed.scanNow AlertManager.twoUuids 0 none).published =
      (AlertManager.transitions AlertManager.twoUuids {} [distressDetection] [] 0).2 := by
    rw [published_scanNow, transitions_alarmed]
  have hbereft : bereft.alertStore = some (LiveAlertStore.apply {}
      (AlertManager.transitions AlertManager.twoUuids {} [distressDetection] [] 0).2) := by
    rw [bereft, alertStore_absorb, alertStore_scanNow, transitions_alarmed]
    rfl
  obtain ⟨hnothing, hkept⟩ := scanNow_publish_zero bereft AlertManager.twoUuids 0
  constructor
  · rw [topicOf_append, hsaid, hpublished, hnothing]
    decide
  · rw [hstored, storeOf, unannounced, hkept, hbereft, Option.bind_some]
    decide

end ConformanceRunner

end

end Airspace
