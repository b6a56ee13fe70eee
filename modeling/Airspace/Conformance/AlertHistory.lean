import Airspace.Conformance.AlertLifecycle
import Mathlib.Data.List.Induction

/-! Runs of the alert manager.

    A run is a list of `reconcile` and `forget` calls. Key by key it is a run of the machine of
    `AlertLifecycle`, and the window the hysteresis stands for is read off the calls themselves: the
    latest detection of the key, the scans since then, and whether a `forget` named one of its tracks. -/

namespace Airspace

namespace AlertManager

/-- The calls of the scan loop. -/
inductive Call where
  | reconcile (detections : List Detection) (now : Instant)
  | forget (trackIds : List String) (now : Instant)

/-- One call: the manager afterwards and the alerts it publishes. -/
def call (uuid4 : ℕ → String) (m : AlertManager) : Call → AlertManager × List Alert
  | .reconcile detections now => reconcile uuid4 m detections now
  | .forget trackIds now => forget m trackIds now

/-- A run of calls: the manager afterwards and everything published on the way. -/
def run (uuid4 : ℕ → String) (m : AlertManager) (calls : List Call) : AlertManager × List Alert :=
  calls.foldl (fun acc c =>
    let out := call uuid4 acc.1 c
    (out.1, acc.2 ++ out.2)) (m, [])

/-- One condition through one call. -/
def keyCall (m : AlertManager) (fresh : String) (key : String) :
    Call → Option Active → Option Active × List Alert
  | .reconcile detections now =>
    keyReconcile m.clearAfterScans m.sustainIntervalS fresh now (latestIn detections key)
  | .forget trackIds now => keyForget trackIds now

variable {uuid4 : ℕ → String} {m : AlertManager} {key : String} {k : ℕ} {sustainIntervalS : ℚ}

theorem run_concat (calls : List Call) (c : Call) :
    run uuid4 m (calls ++ [c]) =
      ((call uuid4 (run uuid4 m calls).1 c).1,
       (run uuid4 m calls).2 ++ (call uuid4 (run uuid4 m calls).1 c).2) := by
  rw [run, List.foldl_append, List.foldl_cons, List.foldl_nil, ← run]

theorem call_extends (uuid4 : ℕ → String) (hm : m.Keyed) (c : Call) : Extends m (call uuid4 m c) := by
  cases c with
  | reconcile detections now => exact reconcile_extends hm detections
  | forget trackIds now => exact forget_extends hm trackIds

/-- On every key a call runs the machine of that key; an identifier it uses is drawn in this call. -/
theorem keyView_call (uuid4 : ℕ → String) (hm : m.Keyed) (c : Call) (key : String) :
    ∃ i, m.drawn ≤ i ∧
      (m.active.get? key = none → (call uuid4 m c).1.active.get? key ≠ none →
        i < (call uuid4 m c).1.drawn) ∧
      keyView key (call uuid4 m c) = keyCall m (uuid4 i) key c (m.active.get? key) := by
  cases c with
  | reconcile detections now =>
    obtain ⟨i, hi, hdrawn, hview⟩ := keyView_reconcile uuid4 now hm detections key
    refine ⟨i, hi, fun hnone hsome => hdrawn hnone fun hlatest => hsome ?_, hview⟩
    have hrecord := congrArg Prod.fst hview
    rw [hlatest, hnone] at hrecord
    exact hrecord
  | forget trackIds now =>
    have hview := keyView_forget now hm trackIds key
    refine ⟨m.drawn, le_rfl, fun hnone hsome => absurd ?_ hsome, hview⟩
    have hrecord := congrArg Prod.fst hview
    rw [hnone] at hrecord
    exact hrecord

theorem keyed_empty : ({ clearAfterScans := k, sustainIntervalS } : AlertManager).Keyed := by
  intro key a h
  cases h

/-- A run keeps the filing, the tuning and never takes a drawn identifier back. -/
theorem run_extends (uuid4 : ℕ → String) (hm : m.Keyed) (calls : List Call) :
    Extends m (run uuid4 m calls) := by
  induction calls using List.reverseRecOn with
  | nil => exact ⟨hm, le_rfl, rfl, rfl⟩
  | append_singleton calls c ih =>
    have hc := call_extends uuid4 ih.keyed c
    rw [run_concat]
    exact ⟨hc.keyed, ih.drawn.trans hc.drawn, hc.clearAfterScans.trans ih.clearAfterScans,
      hc.sustainIntervalS.trans ih.sustainIntervalS⟩

/-! ### The window -/

/-- The scans among some calls. -/
def scans : List Call → ℕ
  | [] => 0
  | .reconcile _ _ :: calls => scans calls + 1
  | .forget _ _ :: calls => scans calls

theorem scans_append (l₁ l₂ : List Call) : scans (l₁ ++ l₂) = scans l₁ + scans l₂ := by
  induction l₁ with
  | nil => simp [scans]
  | cons c l₁ ih =>
    cases c with
    | reconcile _ _ => simp only [List.cons_append, scans, ih]; omega
    | forget _ _ => simp only [List.cons_append, scans, ih]

/-- A call that neither detects the key again nor forgets a track of the detection. -/
def Call.Quiet (key : String) (detection : Detection) : Call → Prop
  | .reconcile detections _ => ∀ d ∈ detections, d.key ≠ key
  | .forget trackIds _ => ∀ t ∈ detection.trackIds, t ∉ trackIds

/-- The latest detection of the key, with nothing since but quiet calls, `missed` of them scans. -/
def LastSeen (calls : List Call) (key : String) (detection : Detection) (missed : ℕ) : Prop :=
  ∃ before detections now after, calls = before ++ .reconcile detections now :: after ∧
    latestIn detections key = some detection ∧ scans after = missed ∧
    ∀ c ∈ after, c.Quiet key detection

theorem latestIn_eq_none_iff {detections : List Detection} :
    latestIn detections key = none ↔ ∀ d ∈ detections, d.key ≠ key := by
  simp [latestIn, List.find?_eq_none]

theorem not_lastSeen_nil {detection : Detection} {missed : ℕ} : ¬ LastSeen [] key detection missed := by
  rintro ⟨before, detections, now, after, h, -⟩
  simp at h

/-- How one more call moves the window. -/
theorem lastSeen_concat {calls : List Call} {c : Call} {detection : Detection} {missed : ℕ} :
    LastSeen (calls ++ [c]) key detection missed ↔
      (∃ detections now, c = .reconcile detections now ∧
        latestIn detections key = some detection ∧ missed = 0) ∨
      (c.Quiet key detection ∧ ∃ n, LastSeen calls key detection n ∧ missed = n + scans [c]) := by
  constructor
  · rintro ⟨before, detections, now, after, hcalls, hlatest, hmissed, hquiet⟩
    rcases List.eq_nil_or_concat after with rfl | ⟨after, c', rfl⟩
    · obtain ⟨-, h⟩ := List.append_inj' hcalls rfl
      exact .inl ⟨detections, now, (List.cons.inj h).1, hlatest, hmissed.symm⟩
    · rw [List.concat_eq_append] at hcalls hmissed hquiet
      rw [← List.cons_append, ← List.append_assoc] at hcalls
      obtain ⟨h₁, h₂⟩ := List.append_inj' hcalls rfl
      obtain rfl := (List.cons.inj h₂).1
      refine .inr ⟨hquiet c (by simp), scans after, ⟨before, detections, now, after, h₁, hlatest, rfl,
        fun d hd => hquiet d (List.mem_append_left _ hd)⟩, ?_⟩
      rw [← hmissed, scans_append]
  · rintro (⟨detections, now, rfl, hlatest, rfl⟩ | ⟨hc, n, ⟨before, detections, now, after, rfl, hlatest,
      rfl, hquiet⟩, rfl⟩)
    · exact ⟨calls, detections, now, [], rfl, hlatest, rfl, by simp⟩
    · refine ⟨before, detections, now, after ++ [c], by simp, hlatest, scans_append _ _, ?_⟩
      intro d hd
      rcases List.mem_append.mp hd with hd | hd
      · exact hquiet d hd
      · rw [List.mem_singleton.mp hd]; exact hc

/-- A detecting scan ends the window of every earlier detection. -/
theorem not_quiet_of_latestIn {detections : List Detection} {now : Instant} {d detection : Detection}
    (h : latestIn detections key = some d) : ¬ (Call.reconcile detections now).Quiet key detection := by
  intro hquiet
  rw [latestIn_eq_none_iff.mpr hquiet] at h
  cases h

/-- The calls determine the latest detection and how many scans missed it. -/
theorem LastSeen.unique {calls : List Call} : ∀ {d d' : Detection} {n n' : ℕ},
    LastSeen calls key d n → LastSeen calls key d' n' → d = d' ∧ n = n' := by
  induction calls using List.reverseRecOn with
  | nil => intro d d' n n' h; exact absurd h not_lastSeen_nil
  | append_singleton calls c ih =>
    intro d d' n n' h h'
    rcases lastSeen_concat.mp h with ⟨ds, t, rfl, hd, rfl⟩ | ⟨hq, m, hm, rfl⟩
    · rcases lastSeen_concat.mp h' with ⟨ds', t', heq, hd', rfl⟩ | ⟨hq, -⟩
      · obtain ⟨rfl, -⟩ := Call.reconcile.inj heq
        exact ⟨Option.some.inj (hd.symm.trans hd'), rfl⟩
      · exact absurd hq (not_quiet_of_latestIn hd)
    · rcases lastSeen_concat.mp h' with ⟨ds', t', rfl, hd', rfl⟩ | ⟨-, m', hm', rfl⟩
      · exact absurd hq (not_quiet_of_latestIn hd')
      · obtain ⟨rfl, rfl⟩ := ih hm hm'
        exact ⟨rfl, rfl⟩

/-- What a record says about the calls: it holds the latest detection and counts the scans since. -/
def RecordsWindow (k : ℕ) (calls : List Call) (key : String) : Option Active → Prop
  | some a => LastSeen calls key a.detection a.missedScans ∧ a.missedScans < k
  | none => ∀ detection missed, LastSeen calls key detection missed → k ≤ missed

/-- A scan that detects the key starts its window afresh. -/
theorem recordsWindow_detected (hm : 1 ≤ m.clearAfterScans) (fresh : String) {calls : List Call}
    {record : Option Active} {detections : List Detection} {now : Instant} {d : Detection}
    (hlatest : latestIn detections key = some d) :
    RecordsWindow m.clearAfterScans (calls ++ [.reconcile detections now]) key
      (keyCall m fresh key (.reconcile detections now) record).1 := by
  have hseen : LastSeen (calls ++ [.reconcile detections now]) key d 0 :=
    lastSeen_concat.mpr (.inl ⟨detections, now, rfl, hlatest, rfl⟩)
  cases record with
  | none => simp only [keyCall, hlatest, keyReconcile]; exact ⟨hseen, hm⟩
  | some a =>
    simp only [keyCall, hlatest, keyReconcile]
    split_ifs
    · exact ⟨hseen, hm⟩
    · exact ⟨hseen, hm⟩

/-- A scan that misses the key moves its window by one. -/
theorem recordsWindow_missed (fresh : String) {calls : List Call} {record : Option Active}
    (h : RecordsWindow m.clearAfterScans calls key record) {detections : List Detection} {now : Instant}
    (hlatest : latestIn detections key = none) :
    RecordsWindow m.clearAfterScans (calls ++ [.reconcile detections now]) key
      (keyCall m fresh key (.reconcile detections now) record).1 := by
  have hquiet : ∀ d, (Call.reconcile detections now).Quiet key d :=
    fun _ => latestIn_eq_none_iff.mp hlatest
  have hback : ∀ d n, LastSeen (calls ++ [.reconcile detections now]) key d n →
      ∃ n', LastSeen calls key d n' ∧ n = n' + 1 := by
    intro d n hn
    rcases lastSeen_concat.mp hn with ⟨ds, t, heq, hd, -⟩ | ⟨-, n', hn', rfl⟩
    · rw [(Call.reconcile.inj heq).1, hd] at hlatest; cases hlatest
    · exact ⟨n', hn', rfl⟩
  cases record with
  | none =>
    simp only [keyCall, hlatest, keyReconcile]
    intro d n hn
    obtain ⟨n', hn', rfl⟩ := hback d n hn
    exact (h d n' hn').trans (Nat.le_succ n')
  | some a =>
    simp only [keyCall, hlatest, keyReconcile]
    split_ifs with hgone
    · intro d n hn
      obtain ⟨n', hn', rfl⟩ := hback d n hn
      obtain ⟨-, rfl⟩ := hn'.unique h.1
      exact hgone
    · exact ⟨lastSeen_concat.mpr (.inr ⟨hquiet _, a.missedScans, h.1, rfl⟩), not_le.mp hgone⟩

/-- A `forget` closes the window when it names a track of the latest detection. -/
theorem recordsWindow_forget (fresh : String) {calls : List Call} {record : Option Active}
    (h : RecordsWindow k calls key record) (trackIds : List String) (now : Instant) :
    RecordsWindow k (calls ++ [.forget trackIds now]) key
      (keyCall m fresh key (.forget trackIds now) record).1 := by
  have hback : ∀ d n, LastSeen (calls ++ [.forget trackIds now]) key d n →
      (∀ t ∈ d.trackIds, t ∉ trackIds) ∧ LastSeen calls key d n := by
    intro d n hn
    rcases lastSeen_concat.mp hn with ⟨_, _, heq, -⟩ | ⟨hq, n', hn', rfl⟩
    · cases heq
    · exact ⟨hq, hn'⟩
  cases record with
  | none => exact fun d n hn => h d n (hback d n hn).2
  | some a =>
    simp only [keyCall, keyForget]
    split_ifs with hgone
    · intro d n hn
      obtain ⟨hquiet, hn'⟩ := hback d n hn
      obtain ⟨rfl, -⟩ := hn'.unique h.1
      obtain ⟨t, ht, hmem⟩ := List.any_eq_true.mp hgone
      exact absurd (of_decide_eq_true hmem) (hquiet t ht)
    · refine ⟨lastSeen_concat.mpr (.inr ⟨fun t ht hmem => hgone ?_, a.missedScans, h.1, rfl⟩), h.2⟩
      exact List.any_eq_true.mpr ⟨t, ht, decide_eq_true hmem⟩

/-- One call keeps the record in step with the window. -/
theorem recordsWindow_keyCall (hm : 1 ≤ m.clearAfterScans) (fresh : String) {calls : List Call}
    {record : Option Active} (h : RecordsWindow m.clearAfterScans calls key record) (c : Call) :
    RecordsWindow m.clearAfterScans (calls ++ [c]) key (keyCall m fresh key c record).1 := by
  cases c with
  | reconcile detections now =>
    cases hlatest : latestIn detections key with
    | some d => exact recordsWindow_detected hm fresh hlatest
    | none => exact recordsWindow_missed fresh h hlatest
  | forget trackIds now => exact recordsWindow_forget fresh h trackIds now

/-- Along a run every record is in step with its window. -/
theorem recordsWindow_run (hm : m.Keyed) (hk : 1 ≤ m.clearAfterScans) (hempty : m.active.get? key = none)
    (calls : List Call) :
    RecordsWindow m.clearAfterScans calls key ((run uuid4 m calls).1.active.get? key) := by
  induction calls using List.reverseRecOn with
  | nil =>
    rw [show (run uuid4 m []).1 = m from rfl, hempty]
    exact fun d n h => absurd h not_lastSeen_nil
  | append_singleton calls c ih =>
    have hrun := run_extends uuid4 hm calls
    obtain ⟨i, -, -, hview⟩ := keyView_call uuid4 hrun.keyed c key
    rw [run_concat, show (call uuid4 (run uuid4 m calls).1 c).1.active.get? key = _ from
      congrArg Prod.fst hview]
    rw [← hrun.clearAfterScans] at ih hk ⊢
    exact recordsWindow_keyCall hk _ ih c

/-! ### The CLEARED alerts -/

/-- All the machine can do in one call: stay away, raise, stay silent, sustain or clear. -/
theorem keyCall_cases (m : AlertManager) (fresh : String) (key : String) (c : Call)
    (record : Option Active) :
    (record = none ∧ keyCall m fresh key c record = (none, [])) ∨
    (∃ a now, record = none ∧ a.alertId = fresh ∧ a.raisedAt = now ∧
      keyCall m fresh key c record = (some a, [render a a.detection .new now])) ∨
    (∃ a a', record = some a ∧ a'.alertId = a.alertId ∧ a'.raisedAt = a.raisedAt ∧
      (keyCall m fresh key c record = (some a', []) ∨
        ∃ b now, b.alertId = a.alertId ∧ b.raisedAt = a.raisedAt ∧
          keyCall m fresh key c record = (some a', [render b b.detection .sustained now]))) ∨
    ∃ a now, record = some a ∧
      keyCall m fresh key c record = (none, [render a a.detection .cleared now]) := by
  cases record with
  | none =>
    cases c with
    | forget trackIds now => exact .inl ⟨rfl, rfl⟩
    | reconcile detections now =>
      cases h : latestIn detections key with
      | none => exact .inl ⟨rfl, by simp only [keyCall, h, keyReconcile]⟩
      | some d =>
        refine .inr (.inl ⟨⟨fresh, now, now, d, 0⟩, now, rfl, rfl, rfl, ?_⟩)
        simp only [keyCall, h, keyReconcile]
  | some a =>
    refine .inr (.inr ?_)
    cases c with
    | forget trackIds now =>
      by_cases hgone : (a.detection.trackIds.any (· ∈ trackIds)) = true
      · exact .inr ⟨a, now, rfl, by simp only [keyCall, keyForget, if_pos hgone]⟩
      · exact .inl ⟨a, a, rfl, rfl, rfl, .inl (by simp only [keyCall, keyForget, if_neg hgone])⟩
    | reconcile detections now =>
      cases h : latestIn detections key with
      | none =>
        by_cases hgone : a.missedScans + 1 ≥ m.clearAfterScans
        · exact .inr ⟨a, now, rfl, by simp only [keyCall, h, keyReconcile, if_pos hgone]⟩
        · exact .inl ⟨a, { a with missedScans := a.missedScans + 1 }, rfl, rfl, rfl, .inl (by
            simp only [keyCall, h, keyReconcile, if_neg hgone])⟩
      | some d =>
        by_cases hdue : totalSeconds (now - a.lastPublishedAt) ≥ m.sustainIntervalS
        · refine .inl ⟨a, { a with missedScans := 0, detection := d, lastPublishedAt := now }, rfl, rfl,
            rfl, .inr ⟨{ a with missedScans := 0, detection := d }, now, rfl, rfl, ?_⟩⟩
          simp only [keyCall, h, keyReconcile, if_pos hdue]
        · exact .inl ⟨a, { a with missedScans := 0, detection := d }, rfl, rfl, rfl, .inl (by
            simp only [keyCall, h, keyReconcile, if_neg hdue])⟩

/-- The machine publishes a CLEARED exactly when its record goes. -/
theorem cleared_keyCall (m : AlertManager) (fresh : String) (c : Call) (record : Option Active) :
    ((keyCall m fresh key c record).2.filter (fun a => a.state = .cleared)).length =
      if record ≠ none ∧ (keyCall m fresh key c record).1 = none then 1 else 0 := by
  rcases keyCall_cases m fresh key c record with ⟨rfl, h⟩ | ⟨a, now, rfl, -, -, h⟩ |
    ⟨a, a', rfl, -, -, h | ⟨b, now, -, -, h⟩⟩ | ⟨a, now, rfl, h⟩
  all_goals simp [h, render]

/-- Hysteresis. After any calls on a manager that started empty, a key is active exactly when one of
    the last `k` scans detected it and no `forget` has named a track of its latest detection since;
    and the next call publishes one CLEARED for every key that leaves the active set, and no other. -/
theorem active_iff_seen_in_window (uuid4 : ℕ → String) (k : ℕ) (hk : 1 ≤ k) (sustainIntervalS : ℚ)
    (calls : List Call) (key : String) :
    let m := (run uuid4 { clearAfterScans := k, sustainIntervalS } calls).1
    (key ∈ m.active.keys ↔ ∃ before detections now after detection,
      calls = before ++ .reconcile detections now :: after ∧
      latestIn detections key = some detection ∧ scans after < k ∧
      ∀ c ∈ after, c.Quiet key detection) ∧
    ∀ c, ((call uuid4 m c).2.filter (fun a => a.alertKey = key ∧ a.state = .cleared)).length =
      if key ∈ m.active.keys ∧ key ∉ (call uuid4 m c).1.active.keys then 1 else 0 := by
  intro m
  have hempty : ({ clearAfterScans := k, sustainIntervalS } : AlertManager).Keyed := keyed_empty
  have hkeyed : m.Keyed := (run_extends uuid4 hempty calls).keyed
  refine ⟨?_, fun c => ?_⟩
  · have hwindow : RecordsWindow k calls key (m.active.get? key) :=
      recordsWindow_run hempty hk rfl calls
    cases hget : m.active.get? key with
    | some a =>
      rw [hget] at hwindow
      obtain ⟨⟨before, detections, now, after, hcalls, hlatest, hmissed, hquiet⟩, hlt⟩ := hwindow
      refine iff_of_true (Dict.mem_keys_iff.mpr ⟨a, hget⟩) ⟨before, detections, now, after, a.detection,
        hcalls, hlatest, hmissed ▸ hlt, hquiet⟩
    | none =>
      rw [hget] at hwindow
      refine iff_of_false (Dict.get?_eq_none_iff.mp hget) ?_
      rintro ⟨before, detections, now, after, detection, hcalls, hlatest, hlt, hquiet⟩
      have := hwindow detection _ ⟨before, detections, now, after, hcalls, hlatest, rfl, hquiet⟩
      omega
  · obtain ⟨i, -, -, hview⟩ := keyView_call uuid4 hkeyed c key
    have hrecord : (call uuid4 m c).1.active.get? key = _ := congrArg Prod.fst hview
    have halerts : (call uuid4 m c).2.filter (fun a => a.alertKey = key) = _ := congrArg Prod.snd hview
    have hsplit : (call uuid4 m c).2.filter (fun a => a.alertKey = key ∧ a.state = .cleared) =
        ((call uuid4 m c).2.filter (fun a => a.alertKey = key)).filter (fun a => a.state = .cleared) := by
      rw [List.filter_filter]
      congr 1
      funext a
      rw [Bool.decide_and, Bool.and_comm]
    rw [hsplit, halerts, cleared_keyCall, ← hrecord]
    simp only [ne_eq, Dict.get?_eq_none_iff, not_not]

/-- A conflict between two tracks, as a scan would report it. -/
def pairDetection (first second : String) : Detection where
  key := "predicted_conflict:" ++ first ++ ":" ++ second
  kind := .predictedConflict
  severity := .advisory
  summary := "Predicted separation loss"
  reasonCodes := ["loss_of_separation_predicted"]
  trackIds := [first, second]

theorem latestIn_singleton (d : Detection) : latestIn [d] d.key = some d := by simp [latestIn]

/-- With two scans to clear, one empty scan does not clear a detected pair. -/
theorem active_iff_seen_in_window_two :
    1 ≤ 2 ∧ (pairDetection "A" "B").key ∈ (run toString { clearAfterScans := 2, sustainIntervalS := 10 }
      [.reconcile [pairDetection "A" "B"] 0, .reconcile [] 1]).1.active.keys :=
  ⟨by decide, (active_iff_seen_in_window toString 2 (by decide) 10
    [.reconcile [pairDetection "A" "B"] 0, .reconcile [] 1] (pairDetection "A" "B").key).1.mpr
    ⟨[], [pairDetection "A" "B"], 0, [.reconcile [] 1], pairDetection "A" "B", rfl,
      latestIn_singleton _, by decide, by simp [Call.Quiet]⟩⟩

end AlertManager

end Airspace
