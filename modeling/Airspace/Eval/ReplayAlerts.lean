import Airspace.Eval.Equator
import Airspace.Sim.Plan
import Mathlib.Data.Set.Card

/-! What a replay raises, and what its headline numbers count.

    The detector of a replay reports conflicts of two aircraft of the scenario, and nothing else it raises
    shares their keys. So a pair is raised when it is first reported and never again under that key, each
    pair has one alert, and the numbers that come out of the scoring count pairs and events: an event is
    detected if its pair was first reported no later than separation was lost, and a false alert is a pair
    that was reported and never lost separation. -/

namespace Airspace

noncomputable section

/-! ### What alerts render -/

section

variable {k : ℕ} {sustainIntervalS : ℚ} {fresh : String} {now : Instant} {latest : Option Detection}
  {gone : List String} {record : Option Active} {alert : Alert}

/-- The alert renders the scan's detection or the one the record held. -/
def Renders (now : Instant) (latest : Option Detection) (record : Option Active) (alert : Alert) : Prop :=
  ∃ active d state, alert = render active d state now ∧
    (latest = some d ∨ ∃ b, record = some b ∧ b.detection = d)

theorem renders_keyReconcile (h : alert ∈ (keyReconcile k sustainIntervalS fresh now latest record).2) :
    Renders now latest record alert := by
  cases latest with
  | some d =>
    cases record with
    | none => exact ⟨_, d, .new, List.mem_singleton.mp h, .inl rfl⟩
    | some b =>
      simp only [keyReconcile] at h
      split_ifs at h
      · exact ⟨_, d, .sustained, List.mem_singleton.mp h, .inl rfl⟩
      · cases h
  | none =>
    cases record with
    | none => cases h
    | some b =>
      simp only [keyReconcile] at h
      split_ifs at h
      · exact ⟨_, b.detection, .cleared, List.mem_singleton.mp h, .inr ⟨b, rfl, rfl⟩⟩
      · cases h

theorem renders_keyScan (h : alert ∈ (keyScan k sustainIntervalS fresh now latest gone record).2) :
    Renders now latest record alert := by
  rcases List.mem_append.mp h with h | h
  · exact renders_keyReconcile h
  · cases hafter : (keyReconcile k sustainIntervalS fresh now latest record).1 with
    | none =>
      rw [hafter] at h
      cases h
    | some a =>
      simp only [hafter, keyForget] at h
      split_ifs at h
      · refine ⟨a, a.detection, .cleared, List.mem_singleton.mp h, ?_⟩
        exact (keyReconcile_detection hafter).imp_right And.right
      · cases h

end

/-- What holds of every detection holds of every condition a manager keeps, and is rendered in every alert
    it publishes. -/
theorem AlertManager.renders_transitions {m : AlertManager} {P : Detection → Prop} (uuid4 : ℕ → String)
    (hk : m.Keyed) (now : Instant) {detections : List Detection} (gone : List String)
    (hnew : ∀ d ∈ detections, P d) (hkept : ∀ key a, m.active.get? key = some a → P a.detection) :
    (∀ key a, (m.transitions uuid4 detections gone now).1.active.get? key = some a → P a.detection) ∧
      ∀ alert ∈ (m.transitions uuid4 detections gone now).2,
        ∃ active d state, P d ∧ alert = render active d state now := by
  have hlatest : ∀ key d, latestIn detections key = some d → P d := fun key d h =>
    hnew d (List.mem_reverse.mp (List.mem_of_find?_eq_some h))
  constructor
  · intro key a ha
    obtain ⟨i, hrecord, -⟩ := get?_transitions uuid4 hk now detections gone key
    rw [hrecord] at ha
    rcases (keyScan_some ha).2 with hd | ⟨b, hb, hd⟩
    · exact hlatest key _ hd
    · exact hd ▸ hkept key b hb
  · intro alert halert
    obtain ⟨i, -, hpublished⟩ := get?_transitions uuid4 hk now detections gone alert.alertKey
    have hown : alert ∈ (m.transitions uuid4 detections gone now).2.filter fun a =>
        a.alertKey = alert.alertKey := List.mem_filter.mpr ⟨halert, decide_eq_true rfl⟩
    rw [hpublished] at hown
    obtain ⟨active, d, state, heq, hd | ⟨b, hb, hd⟩⟩ := renders_keyScan hown
    · exact ⟨active, d, state, hlatest _ d hd, heq⟩
    · exact ⟨active, d, state, hd ▸ hkept _ b hb, heq⟩

/-! ### The keys of conflicts -/

theorem trackIdFor_lt {a b : String} : trackIdFor a < trackIdFor b ↔ a < b := by
  rw [trackIdFor, trackIdFor, String.lt_iff_toList_lt, String.lt_iff_toList_lt, String.toList_append,
    String.toList_append]
  simp

/-- The key of a conflict of two aircraft, the lower address first. -/
def conflictKey (x y : String) : String := "predicted_conflict:" ++ trackIdFor x ++ ":" ++ trackIdFor y

theorem conflictKey_inj {x y x' y' : String} (hx : isIcao24 x) (hx' : isIcao24 x')
    (h : conflictKey x y = conflictKey x' y') : x = x' ∧ y = y' := by
  have hlength : ∀ s : String, isIcao24 s → s.toList.length = 6 := by
    intro s hs
    unfold isIcao24 at hs
    rw [String.length_toList]
    exact beq_iff_eq.mp (Bool.and_eq_true_iff.mp hs).1
  unfold conflictKey trackIdFor at h
  have hlists := congrArg String.toList h
  simp only [String.toList_append, List.append_assoc, List.append_cancel_left_eq] at hlists
  obtain ⟨hxs, hys⟩ := List.append_inj hlists ((hlength x hx).trans (hlength x' hx').symm)
  simp only [List.append_cancel_left_eq] at hys
  exact ⟨String.toList_inj.mp hxs, String.toList_inj.mp hys⟩

/-- The conflict is one of these two aircraft. -/
def Conflict.Concerns (c : Conflict) (x y : String) : Prop :=
  (c.firstTrackId = trackIdFor x ∧ c.secondTrackId = trackIdFor y) ∨
    (c.firstTrackId = trackIdFor y ∧ c.secondTrackId = trackIdFor x)

theorem Conflict.Concerns.key {c : Conflict} {x y : String} (h : c.Concerns x y) (hxy : x < y) :
    c.key = conflictKey x y := by
  have hlt := trackIdFor_lt.mpr hxy
  unfold Conflict.key conflictKey
  rcases h with ⟨hfirst, hsecond⟩ | ⟨hfirst, hsecond⟩
  · rw [hfirst, hsecond, min_eq_left hlt.le, max_eq_right hlt.le]
  · rw [hfirst, hsecond, min_eq_right hlt.le, max_eq_left hlt.le]

/-- The detection is a conflict of these two aircraft. -/
structure IsConflictOf (x y : String) (d : Detection) : Prop where
  kind : d.kind = .predictedConflict
  key : d.key = conflictKey x y
  trackIds : d.trackIds = [trackIdFor x, trackIdFor y] ∨ d.trackIds = [trackIdFor y, trackIdFor x]

theorem isConflictOf_asDetection {c : Conflict} {x y : String} (h : c.Concerns x y) (hxy : x < y) :
    IsConflictOf x y (asDetection c) where
  kind := rfl
  key := h.key hxy
  trackIds := by
    rcases h with ⟨hfirst, hsecond⟩ | ⟨hfirst, hsecond⟩
    · exact .inl (by rw [asDetection, hfirst, hsecond])
    · exact .inr (by rw [asDetection, hfirst, hsecond])

theorem kind_of_mem_checkRules {track : TrackUpdate} {f : RuleFinding} (h : f ∈ checkRules track) :
    f.kind = .emergencySquawk ∨ f.kind = .excessiveDescent := by
  rcases List.mem_append.mp h with h | h
  · rw [Option.mem_toList, squawkFinding] at h
    split at h
    · cases h
    · obtain ⟨entry, -, rfl⟩ := Option.map_eq_some_iff.mp h
      exact .inl rfl
  · rw [Option.mem_toList, descentFinding] at h
    split_ifs at h
    obtain rfl := Option.some.inj h
    exact .inr rfl

/-- No rule's key is the key of a conflict. -/
theorem key_ne_conflictKey {track : TrackUpdate} {f : RuleFinding} (h : f ∈ checkRules track) (x y : String) :
    f.key ≠ conflictKey x y := by
  intro heq
  unfold RuleFinding.key conflictKey at heq
  have hfirst := congrArg (fun s : String => s.toList.head?) heq
  rcases kind_of_mem_checkRules h with hkind | hkind <;>
    simp [hkind, AlertKind.value, String.toList_append] at hfirst

/-! ### What is kept of them -/

/-- The alert that is kept for a message. -/
def raisedBy (addressOf : Dict String String) (m : Alert) : RaisedAlert where
  key := m.alertKey
  pair := addressesOf addressOf m
  raisedAt := m.raisedAt

/-- The messages that are kept at all. -/
def opens (m : Alert) : Bool := m.kind = .predictedConflict ∧ m.state = .new

theorem kind_of_opens {m : Alert} (h : opens m = true) : m.kind = .predictedConflict :=
  (of_decide_eq_true h).1

theorem get?_record (addressOf : Dict String String) (raised : Dict String RaisedAlert) (m : Alert)
    (key : String) : (record addressOf raised m).get? key =
      (raised.get? key).or (if m.alertKey = key ∧ opens m then some (raisedBy addressOf m) else none) := by
  unfold record opens
  by_cases hkind : m.kind = .predictedConflict
  · by_cases hstate : m.state = .new
    · simp only [hkind, hstate, ne_eq, not_true_eq_false, if_false, and_self, decide_true, and_true]
      by_cases hown : m.alertKey = key
      · cases hget : raised.get? key with
        | some a =>
          rw [if_pos (hown ▸ Dict.mem_keys_iff.mpr ⟨a, hget⟩), hget]
          rfl
        | none =>
          rw [if_neg (hown ▸ Dict.get?_eq_none_iff.mp hget), Dict.get?_set, if_pos hown.symm, if_pos hown]
          rfl
      · rw [if_neg hown, Option.or_none]
        split_ifs
        · rfl
        · rw [Dict.get?_set, if_neg (Ne.symm hown)]
    · simp [hkind, hstate]
  · simp [hkind]

/-- Of each key the first message that opens an alert is kept. -/
theorem get?_foldl_record (addressOf : Dict String String) (messages : List Alert)
    (raised : Dict String RaisedAlert) (key : String) :
    (messages.foldl (record addressOf) raised).get? key = (raised.get? key).or
      (((messages.filter fun m => m.alertKey = key).find? opens).map (raisedBy addressOf)) := by
  induction messages generalizing raised with
  | nil => exact (Option.or_none).symm
  | cons m messages ih =>
    rw [List.foldl_cons, ih, get?_record, Option.or_assoc]
    by_cases hown : m.alertKey = key
    · rw [List.filter_cons_of_pos (by simpa using hown), List.find?_cons]
      cases hopens : opens m with
      | true => simp [hown]
      | false => simp
    · rw [List.filter_cons_of_neg (by simpa using hown), if_neg fun h => hown h.1, Option.none_or]

/-- The addresses of a conflict of two aircraft, in order. -/
theorem addressesOf_render {scenario : Scenario} {x y : String} {d : Detection} (hx : x ∈ scenario.addresses)
    (hy : y ∈ scenario.addresses) (hxy : x < y) (hd : IsConflictOf x y d) (active : Active)
    (state : AlertState) (now : Instant) :
    addressesOf (addressesByTrack scenario) (render active d state now) = [x, y] := by
  have hname : ∀ z ∈ scenario.addresses,
      ((addressesByTrack scenario).get? (trackIdFor z)).getD (trackIdFor z) = z := by
    intro z hz
    obtain ⟨spec, hspec, hicao⟩ := List.mem_map.mp hz
    have hmem : spec ∈ scenario.aircraft.filter fun spec => trackIdFor spec.icao24 = trackIdFor z :=
      List.mem_filter.mpr ⟨hspec, decide_eq_true (congrArg trackIdFor hicao)⟩
    have hlast := List.getLast?_eq_some_getLast (List.ne_nil_of_mem hmem)
    have hown := of_decide_eq_true (List.mem_filter.mp (List.mem_of_getLast? hlast)).2
    rw [addressesByTrack, Dict.get?_collect, hlast]
    exact trackIdFor_inj hown
  rcases hd.trackIds with hids | hids <;>
    simp only [addressesOf, render, hids, List.map_cons, List.map_nil, hname x hx, hname y hy, inKeyOrder,
      List.insertionSort_cons, List.insertionSort_nil, List.orderedInsert_nil, List.orderedInsert_cons, id,
      hxy.le, not_le.mpr hxy, if_true, if_false]

namespace Replay

open AlertManager

variable {γ : Type} {w : Surroundings γ} {scenario : Scenario} {settings : ReplaySettings} {r r' : Replay γ}
  {k : ℕ} {x y : String}

/-! ### When the detector reports a pair -/

/-- The turn's scan reports a conflict of the pair; the picture it leaves is the one it looked at. -/
def Detects (r : Replay γ) (x y : String) : Prop :=
  ∃ c ∈ r.runner.monitor.scan r.runner.picture.values, c.Concerns x y

/-- The scan of turn `k` reports the pair. -/
def DetectedIn (w : Surroundings γ) (scenario : Scenario) (settings : ReplaySettings) (x y : String)
    (k : ℕ) : Prop :=
  ∃ r, after w scenario settings k = .ok r ∧ r.Detects x y

/-- The scan of turn `k` is the first to report the pair. -/
def FirstDetectedIn (w : Surroundings γ) (scenario : Scenario) (settings : ReplaySettings) (x y : String)
    (k : ℕ) : Prop :=
  DetectedIn w scenario settings x y k ∧ ∀ j < k, ¬ DetectedIn w scenario settings x y j

theorem detectedIn_iff (hr : after w scenario settings k = .ok r) :
    DetectedIn w scenario settings x y k ↔ r.Detects x y := by
  constructor
  · rintro ⟨r', hr', h⟩
    exact Except.ok.inj (hr'.symm.trans hr) ▸ h
  · exact fun h => ⟨r, hr, h⟩

theorem filed_picture (h : Listening w scenario settings k r) : r.runner.Filed := by
  intro trackId u hu
  obtain ⟨icao24, rfl⟩ := h.mirrors.tracked trackId (Dict.mem_keys_iff.mpr ⟨u, hu⟩)
  rw [h.mirrors.shown, Option.bind_eq_some_iff] at hu
  obtain ⟨record, hrecord, hu⟩ := hu
  split_ifs at hu
  rw [← Option.some.inj hu]
  exact (TrackEstimator.isOf_toUpdate (h.mirrors.filed _ _ hrecord) record.lastReportAt).2.2

/-- The tracks of a conflict are in the picture. -/
theorem mem_picture_of_conflict (h : Listening w scenario settings k r) {c : Conflict}
    (hc : c ∈ r.runner.monitor.scan r.runner.picture.values) :
    ∀ t ∈ (asDetection c).trackIds, t ∈ r.runner.picture.keys := by
  intro t ht
  obtain ⟨u, hu, rfl⟩ := ConformanceRunner.trackIds_of_conflict hc t ht
  exact ConformanceRunner.mem_keys_of_mem_values (filed_picture h) hu

/-- A conflict is of two aircraft of the scenario. -/
theorem exists_concerns (h : Listening w scenario settings k r) {c : Conflict}
    (hc : c ∈ r.runner.monitor.scan r.runner.picture.values) :
    ∃ x ∈ scenario.addresses, ∃ y ∈ scenario.addresses, x < y ∧ c.Concerns x y := by
  have hown : ∀ t ∈ (asDetection c).trackIds, ∃ icao24 ∈ scenario.addresses, t = trackIdFor icao24 := by
    intro t ht
    have hmem := mem_picture_of_conflict h hc t ht
    obtain ⟨icao24, heq⟩ := h.mirrors.tracked _ hmem
    obtain ⟨j, -, -, hseen⟩ := (mem_picture_iff h).mp (heq ▸ hmem)
    exact ⟨icao24, hseen.addressed, heq⟩
  obtain ⟨a, ha, hfirst⟩ := hown c.firstTrackId (by simp [asDetection])
  obtain ⟨b, hb, hsecond⟩ := hown c.secondTrackId (by simp [asDetection])
  have hne : a ≠ b := by
    rintro rfl
    obtain ⟨p, hp, htest⟩ := mem_scan_iff.mp hc
    obtain ⟨hpfirst, hpsecond⟩ := testPair_ids htest
    obtain ⟨-, -, hdistinct, -⟩ := neighbours_of_mem_candidatePairs hp
    exact hdistinct (hpfirst.symm.trans (hfirst.trans (hsecond.symm.trans hpsecond)))
  rcases lt_or_gt_of_ne hne with hlt | hlt
  · exact ⟨a, ha, b, hb, hlt, .inl ⟨hfirst, hsecond⟩⟩
  · exact ⟨b, hb, a, ha, hlt, .inr ⟨hfirst, hsecond⟩⟩

/-! ### A turn's alerts -/

/-- What the rules find in the picture. -/
def ruleDetections (r : Replay γ) : List Detection :=
  r.runner.picture.values.flatMap fun track => (checkRules track).map (ConformanceRunner.ruleDetection track)

/-- What the turn's scan detected. -/
def detections (r : Replay γ) : List Detection :=
  (r.runner.monitor.scan r.runner.picture.values).map asDetection ++ r.ruleDetections

theorem foldl_hear_keeps {cutoff now : Instant} {e : TrackEstimator} {s : ConformanceRunner}
    {reports : List SurveillanceReport} (h : Mirrors cutoff now e s)
    (hreports : ∀ report ∈ reports, report.observedAt = now) (hcutoff : cutoff ≤ now) :
    (reports.foldl (hear w) (e, s)).2.manager = s.manager ∧
      (reports.foldl (hear w) (e, s)).2.monitor = s.monitor := by
  induction reports generalizing e s with
  | nil => exact ⟨rfl, rfl⟩
  | cons report reports ih =>
    obtain ⟨hreport, hrest⟩ := List.forall_mem_cons.mp hreports
    have hone := mirrors_hear (w := w) h hreport.ge (hreport ▸ hcutoff)
    rw [hreport] at hone
    obtain ⟨record, latestSeen, heq, -⟩ := hear_spec (w := w) h hreport.ge
    obtain ⟨hmanager, hmonitor⟩ := ih hone hrest
    rw [heq] at hmanager hmonitor
    rw [List.foldl_cons, heq]
    exact ⟨hmanager, hmonitor⟩

section

variable (sim : Simulation γ) (truth : List TruthState) {now : Instant} {reports : List SurveillanceReport}

theorem runner_heed : (heed w r sim truth now reports).runner =
    ((reports.foldl (hear w) (r.estimator, r.runner)).2.scanNow w.uuid4 now none).runner := rfl

theorem raised_heed : (heed w r sim truth now reports).raised =
    ((reports.foldl (hear w) (r.estimator, r.runner)).2.scanNow w.uuid4 now none).published.foldl
      (record (addressesByTrack sim.scenario)) r.raised := by
  simp only [heed]

/-- With no conformance check, a scan detects conflicts and what the rules find, in the picture it leaves. -/
theorem detections_heed
    (hpending : (reports.foldl (hear w) (r.estimator, r.runner)).2.pendingConformance = Dict.empty) :
    ((reports.foldl (hear w) (r.estimator, r.runner)).2.pruned now).detections =
      (heed w r sim truth now reports).detections := by
  have hnone : ((reports.foldl (hear w) (r.estimator, r.runner)).2.pruned now).pendingConformance.values = [] :=
    congrArg Dict.values hpending
  rw [detections, ruleDetections, runner_heed, ConformanceRunner.picture_scanNow, monitor_scanNow,
    ConformanceRunner.detections, hnone, List.map_nil, List.append_nil]
  rfl

end

/-- What a turn does to the conditions and to what is kept: it reconciles what its scan detected and forgets
    tracks that are not in its picture. -/
theorem exists_tick (hr : after w scenario settings k = .ok r) :
    ∃ r' gone, tick w r = .ok r' ∧ (∀ trackId ∈ gone, trackId ∉ r'.runner.picture.keys) ∧
      let out := r.runner.manager.transitions w.uuid4 r'.detections gone (instantAt (k + 1))
      r'.runner.manager = out.1 ∧
        r'.raised = out.2.foldl (record (addressesByTrack scenario)) r.raised := by
  obtain ⟨advanced, sim, reports, -, -, -, hflown, hheard, htick⟩ := tick_spec (w := w) (flown_after hr)
  have hlater : instantAt k ≤ instantAt (k + 1) := instantAt_le_instantAt.mpr (Nat.le_succ k)
  have hpast : instantAt k - seconds 15 ≤ instantAt (k + 1) :=
    (sub_le_self _ (by norm_num [seconds])).trans hlater
  have hbefore := (listening_after hr).mirrors.mono hlater
  obtain ⟨hmanager, -⟩ := foldl_hear_keeps (w := w) hbefore hheard.observedAt hpast
  have hmirrors := mirrors_foldl_hear (w := w) hbefore hheard.observedAt hpast
  refine ⟨_, (reports.foldl (hear w) (r.estimator, r.runner)).2.vanished (instantAt (k + 1)), htick,
    fun trackId hgone hmem => ?_, ?_, ?_⟩
  · obtain ⟨u, hu⟩ := Dict.mem_keys_iff.mp hmem
    rw [runner_heed, ConformanceRunner.picture_scanNow, ConformanceRunner.picture_pruned,
      Option.filter_eq_some_iff] at hu
    rw [ConformanceRunner.mem_vanished_iff, hmirrors.unchecked.2.2] at hgone
    obtain ⟨old, hold, hstale⟩ := hgone.resolve_right (Finset.notMem_empty trackId)
    obtain rfl := Option.some.inj (hu.1.symm.trans hold)
    simp [hstale] at hu
  · rw [runner_heed, ConformanceRunner.manager_scanNow, hmanager,
      detections_heed sim advanced.truth hmirrors.unchecked.2.1]
  · rw [raised_heed, ConformanceRunner.published_scanNow, hmanager, hflown.scenario,
      detections_heed sim advanced.truth hmirrors.unchecked.2.1]

/-! ### Each pair is raised once, when it is first reported -/

/-- A detection is a conflict that the scan reports, of two tracks of the picture. -/
structure ReportedAs (r : Replay γ) (x y : String) (d : Detection) : Prop extends IsConflictOf x y d where
  detects : r.Detects x y
  pictured : ∀ t ∈ d.trackIds, t ∈ r.runner.picture.keys

/-- A detection of a turn is a conflict its scan reports, or shares neither kind nor key with one. -/
theorem detection_cases (h : Listening w scenario settings k r) {d : Detection} (hd : d ∈ r.detections) :
    (∃ x ∈ scenario.addresses, ∃ y ∈ scenario.addresses, x < y ∧ r.ReportedAs x y d) ∨
      d.kind ≠ .predictedConflict ∧ ∀ x y, d.key ≠ conflictKey x y := by
  rcases List.mem_append.mp hd with hd | hd
  · obtain ⟨c, hc, rfl⟩ := List.mem_map.mp hd
    obtain ⟨x, hx, y, hy, hxy, hconcerns⟩ := exists_concerns h hc
    exact .inl ⟨x, hx, y, hy, hxy, isConflictOf_asDetection hconcerns hxy, ⟨c, hc, hconcerns⟩,
      mem_picture_of_conflict h hc⟩
  · obtain ⟨track, -, hd⟩ := List.mem_flatMap.mp hd
    obtain ⟨f, hf, rfl⟩ := List.mem_map.mp hd
    refine .inr ⟨fun hkind => ?_, key_ne_conflictKey hf⟩
    rcases kind_of_mem_checkRules hf with h | h
    · exact AlertKind.noConfusion (h.symm.trans hkind)
    · exact AlertKind.noConfusion (h.symm.trans hkind)

/-- If it is of the kind of conflicts, it is one of two aircraft of the scenario. -/
def ConflictInScenario (scenario : Scenario) (d : Detection) : Prop :=
  d.kind = .predictedConflict →
    ∃ x ∈ scenario.addresses, ∃ y ∈ scenario.addresses, x < y ∧ IsConflictOf x y d

/-- The alert that is kept for a pair first reported in turn `k`. -/
def raisedIn (x y : String) (k : ℕ) : RaisedAlert where
  key := conflictKey x y
  pair := [x, y]
  raisedAt := instantAt k

/-- A pair is not known before it is reported, and keeps its first alert from then on. -/
def RaisedOnce (w : Surroundings γ) (scenario : Scenario) (settings : ReplaySettings) (k : ℕ) (r : Replay γ)
    (x y : String) : Prop :=
  ((∀ j ≤ k, ¬ DetectedIn w scenario settings x y j) ∧
      r.runner.manager.active.get? (conflictKey x y) = none ∧ r.raised.get? (conflictKey x y) = none) ∨
    ∃ j ≤ k, FirstDetectedIn w scenario settings x y j ∧
      r.raised.get? (conflictKey x y) = some (raisedIn x y j)

/-- What the conditions and the alerts of a replay are like after some turns. -/
structure Raising (w : Surroundings γ) (scenario : Scenario) (settings : ReplaySettings) (k : ℕ)
    (r : Replay γ) : Prop where
  keyed : r.runner.manager.Keyed
  conflicts : ∀ key a, r.runner.manager.active.get? key = some a → ConflictInScenario scenario a.detection
  once : ∀ x ∈ scenario.addresses, ∀ y ∈ scenario.addresses, x < y → RaisedOnce w scenario settings k r x y
  only : ∀ key a, r.raised.get? key = some a →
    ∃ x ∈ scenario.addresses, ∃ y ∈ scenario.addresses, x < y ∧ key = conflictKey x y

theorem not_detects_init : ¬ (init w scenario settings).Detects x y := by
  rintro ⟨c, hc, -⟩
  have hnone : (init w scenario settings).runner.monitor.scan [] = [] := rfl
  rw [show (init w scenario settings).runner.picture.values = [] from rfl, hnone] at hc
  cases hc

theorem raising_init : Raising w scenario settings 0 (init w scenario settings) where
  keyed := AlertManager.keyed_empty
  conflicts _ _ h := nomatch h
  once x _ y _ _ := by
    refine .inl ⟨fun j hj hdetected => ?_, rfl, rfl⟩
    obtain rfl := Nat.le_zero.mp hj
    exact not_detects_init ((detectedIn_iff rfl).mp hdetected)
  only _ _ h := nomatch h

/-- The latest detection of a pair's key is a conflict of the pair, and there is one exactly if the pair is
    reported. -/
theorem latestIn_conflictKey (hadmitted : scenario.Admitted) (h : Listening w scenario settings k r)
    (hx : x ∈ scenario.addresses) (hxy : x < y) :
    (∀ d, latestIn r.detections (conflictKey x y) = some d → r.ReportedAs x y d) ∧
      (r.Detects x y → latestIn r.detections (conflictKey x y) ≠ none) := by
  have hicao : ∀ z ∈ scenario.addresses, isIcao24 z := by
    intro z hz
    obtain ⟨spec, hspec, rfl⟩ := List.mem_map.mp hz
    exact (hadmitted.aircraft spec hspec).icao24
  constructor
  · intro d hd
    have hmem : d ∈ r.detections := List.mem_reverse.mp (List.mem_of_find?_eq_some hd)
    have hkey := latestIn_key hd
    rcases detection_cases h hmem with ⟨x', hx', y', -, -, hreported⟩ | ⟨-, hother⟩
    · obtain ⟨rfl, rfl⟩ := conflictKey_inj (hicao x' hx') (hicao x hx) (hreported.key.symm.trans hkey)
      exact hreported
    · exact absurd hkey (hother x y)
  · rintro ⟨c, hc, hconcerns⟩
    have hmem : asDetection c ∈ r.detections := List.mem_append_left _ (List.mem_map_of_mem hc)
    rw [Option.ne_none_iff_isSome, latestIn, List.find?_isSome]
    exact ⟨_, List.mem_reverse.mpr hmem, decide_eq_true (isConflictOf_asDetection hconcerns hxy).key⟩

/-- A condition without a record opens an alert if it is detected with none of its tracks gone, and stays
    without a record if it is not. -/
theorem keyScan_none {gone : List String} {latest : Option Detection} (n : ℕ) (sustainIntervalS : ℚ)
    (fresh : String) (now : Instant) (hgone : ∀ d, latest = some d → ∀ t ∈ d.trackIds, t ∉ gone) :
    (keyScan n sustainIntervalS fresh now latest gone none).2 = (latest.map fun d =>
        render { alertId := fresh, raisedAt := now, lastPublishedAt := now, detection := d } d .new now).toList
        ∧
      (latest = none → (keyScan n sustainIntervalS fresh now latest gone none).1 = none) := by
  cases latest with
  | none => exact ⟨rfl, fun _ => rfl⟩
  | some d =>
    have hkept : ¬ d.trackIds.any (· ∈ gone) := by simpa using hgone d rfl
    refine ⟨?_, fun h => absurd h (Option.some_ne_none d)⟩
    simp only [keyScan, keyReconcile, keyForget, if_neg hkept]
    rfl

theorem raisedOnce_tick (hadmitted : scenario.Admitted)
    (hr' : after w scenario settings (k + 1) = .ok r') {gone : List String}
    (hgone : ∀ trackId ∈ gone, trackId ∉ r'.runner.picture.keys) (hkeyed : r.runner.manager.Keyed)
    (hmanager : r'.runner.manager =
      (r.runner.manager.transitions w.uuid4 r'.detections gone (instantAt (k + 1))).1)
    (hraised : r'.raised = (r.runner.manager.transitions w.uuid4 r'.detections gone
      (instantAt (k + 1))).2.foldl (record (addressesByTrack scenario)) r.raised)
    (hx : x ∈ scenario.addresses) (hy : y ∈ scenario.addresses) (hxy : x < y)
    (h : RaisedOnce w scenario settings k r x y) : RaisedOnce w scenario settings (k + 1) r' x y := by
  obtain ⟨i, hrecord, hpublished⟩ := get?_transitions w.uuid4 hkeyed (instantAt (k + 1)) r'.detections gone
    (conflictKey x y)
  rw [← hmanager] at hrecord
  have hkept := get?_foldl_record (addressesByTrack scenario) (r.runner.manager.transitions w.uuid4
    r'.detections gone (instantAt (k + 1))).2 r.raised (conflictKey x y)
  rw [← hraised, hpublished] at hkept
  obtain ⟨hreported, hdetects⟩ := latestIn_conflictKey hadmitted (listening_after hr') hx hxy
  rcases h with ⟨hnever, hnone, hunraised⟩ | ⟨j, hj, hfirst, hraisedIn⟩
  · rw [hnone] at hrecord hkept
    obtain ⟨hopened, hidle⟩ := keyScan_none r.runner.manager.clearAfterScans r.runner.manager.sustainIntervalS
      (w.uuid4 i) (instantAt (k + 1)) fun d hd t ht hmem => hgone t hmem ((hreported d hd).pictured t ht)
    rw [hopened, hunraised, Option.none_or] at hkept
    cases hlatest : latestIn r'.detections (conflictKey x y) with
    | none =>
      rw [hlatest] at hkept
      refine .inl ⟨fun j hj => ?_, hrecord.trans (hidle hlatest), hkept⟩
      rcases Nat.le_succ_iff.mp hj with hj | rfl
      · exact hnever j hj
      · rw [detectedIn_iff hr']
        exact fun h => hdetects h hlatest
    | some d =>
      have hd := hreported d hlatest
      have hfirst : FirstDetectedIn w scenario settings x y (k + 1) :=
        ⟨(detectedIn_iff hr').mpr hd.detects, fun j hj => hnever j (Nat.le_of_lt_succ hj)⟩
      refine .inr ⟨k + 1, le_rfl, hfirst, ?_⟩
      have hopens : ∀ active : Active, opens (render active d .new (instantAt (k + 1))) = true := fun _ =>
        decide_eq_true ⟨hd.kind, rfl⟩
      rw [hlatest, Option.map_some, Option.toList_some, List.find?_cons, hopens, Option.map_some, raisedBy,
        addressesOf_render hx hy hxy hd.toIsConflictOf] at hkept
      rw [hkept, raisedIn, ← hd.key]
      rfl
  · rw [hraisedIn, Option.some_or] at hkept
    exact .inr ⟨j, hj.trans (Nat.le_succ k), hfirst, hkept⟩

theorem raising_tick (hadmitted : scenario.Admitted) (hr : after w scenario settings k = .ok r)
    (h : Raising w scenario settings k r) :
    ∃ r', tick w r = .ok r' ∧ Raising w scenario settings (k + 1) r' := by
  obtain ⟨r', gone, htick, hgone, hmanager, hraised⟩ := exists_tick hr
  have hr' : after w scenario settings (k + 1) = .ok r' := (rounds_of_eq hr).trans htick
  have hnew : ∀ d ∈ r'.detections, ConflictInScenario scenario d := by
    intro d hd hkind
    rcases detection_cases (listening_after hr') hd with ⟨x, hx, y, hy, hxy, hreported⟩ | ⟨hother, -⟩
    · exact ⟨x, hx, y, hy, hxy, hreported.toIsConflictOf⟩
    · exact absurd hkind hother
  obtain ⟨hactive, hrendered⟩ := renders_transitions w.uuid4 h.keyed (instantAt (k + 1)) gone hnew h.conflicts
  refine ⟨r', htick, ⟨?_, ?_, fun x hx y hy hxy => ?_, ?_⟩⟩
  · rw [hmanager]
    exact (transitions_extends w.uuid4 h.keyed).keyed
  · rw [hmanager]
    exact hactive
  · exact raisedOnce_tick hadmitted hr' hgone h.keyed hmanager hraised hx hy hxy (h.once x hx y hy hxy)
  · intro key a ha
    rw [hraised, get?_foldl_record] at ha
    rcases Option.or_eq_some_iff.mp ha with ha | ⟨-, ha⟩
    · exact h.only key a ha
    · obtain ⟨m, hm, -⟩ := Option.map_eq_some_iff.mp ha
      have hmem := List.mem_filter.mp (List.mem_of_find?_eq_some hm)
      have hkind := kind_of_opens (List.find?_some hm)
      have hkey : m.alertKey = key := of_decide_eq_true hmem.2
      obtain ⟨active, d, state, hd, rfl⟩ := hrendered m hmem.1
      obtain ⟨x, hx, y, hy, hxy, hconflict⟩ := hd hkind
      exact ⟨x, hx, y, hy, hxy, hkey.symm.trans hconflict.key⟩

theorem raising_after (hadmitted : scenario.Admitted) (h : after w scenario settings k = .ok r) :
    Raising w scenario settings k r :=
  invariant_of_rounds (I := Raising w scenario settings) raising_init
    (fun _ _ hr hraising => raising_tick hadmitted hr hraising) h

theorem FirstDetectedIn.unique {i j : ℕ} (hi : FirstDetectedIn w scenario settings x y i)
    (hj : FirstDetectedIn w scenario settings x y j) : i = j := by
  rcases Nat.lt_trichotomy i j with h | h | h
  · exact absurd hi.1 (hj.2 i h)
  · exact h
  · exact absurd hj.1 (hi.2 j h)

/-- Where a pair is reported at all, there is a first turn it is reported in. -/
theorem DetectedIn.exists_first (h : DetectedIn w scenario settings x y k) :
    ∃ j ≤ k, FirstDetectedIn w scenario settings x y j := by
  classical
  refine ⟨Nat.find ⟨k, h⟩, Nat.find_min' ⟨k, h⟩ h, Nat.find_spec ⟨k, h⟩, fun j hj => ?_⟩
  exact Nat.find_min ⟨k, h⟩ hj

/-- A reported pair is of two aircraft of the scenario. -/
theorem DetectedIn.addressed (h : DetectedIn w scenario settings x y k) :
    x ∈ scenario.addresses ∧ y ∈ scenario.addresses ∧ x ≠ y := by
  obtain ⟨r, hr, c, hc, hconcerns⟩ := h
  obtain ⟨x', hx', y', hy', hxy', hconcerns'⟩ := exists_concerns (listening_after hr) hc
  rcases hconcerns with ⟨h₁, h₂⟩ | ⟨h₁, h₂⟩ <;> rcases hconcerns' with ⟨h₁', h₂'⟩ | ⟨h₁', h₂'⟩ <;>
    obtain rfl := trackIdFor_inj (h₁.symm.trans h₁') <;> obtain rfl := trackIdFor_inj (h₂.symm.trans h₂')
  · exact ⟨hx', hy', hxy'.ne⟩
  · exact ⟨hy', hx', hxy'.ne'⟩
  · exact ⟨hy', hx', hxy'.ne'⟩
  · exact ⟨hx', hy', hxy'.ne⟩

theorem exists_raisedIn (hadmitted : scenario.Admitted) (hr : after w scenario settings k = .ok r) {key : String}
    {a : RaisedAlert} (ha : r.raised.get? key = some a) : ∃ x y j, x < y ∧ j ≤ k ∧
      FirstDetectedIn w scenario settings x y j ∧ key = conflictKey x y ∧ a = raisedIn x y j := by
  have h := raising_after hadmitted hr
  obtain ⟨x, hx, y, hy, hxy, rfl⟩ := h.only key a ha
  rcases h.once x hx y hy hxy with ⟨-, -, hnone⟩ | ⟨j, hj, hfirst, hkept⟩
  · rw [hnone] at ha
    cases ha
  · exact ⟨x, y, j, hxy, hj, hfirst, rfl, Option.some.inj (ha.symm.trans hkept)⟩

/-- The alerts that are kept are those of the pairs reported so far, each from the turn that first reported
    it. -/
theorem mem_raised_iff (hadmitted : scenario.Admitted) (hr : after w scenario settings k = .ok r)
    {a : RaisedAlert} : a ∈ r.raised.values ↔
      ∃ x y j, x < y ∧ j ≤ k ∧ FirstDetectedIn w scenario settings x y j ∧ a = raisedIn x y j := by
  rw [Dict.mem_values_iff]
  constructor
  · rintro ⟨key, ha⟩
    obtain ⟨x, y, j, hxy, hj, hfirst, -, halert⟩ := exists_raisedIn hadmitted hr ha
    exact ⟨x, y, j, hxy, hj, hfirst, halert⟩
  · rintro ⟨x, y, j, hxy, hj, hfirst, rfl⟩
    obtain ⟨hx, hy, -⟩ := hfirst.1.addressed
    rcases (raising_after hadmitted hr).once x hx y hy hxy with ⟨hnever, -⟩ | ⟨i, -, hfirst', hkept⟩
    · exact absurd hfirst.1 (hnever j hj)
    · exact ⟨_, hfirst'.unique hfirst ▸ hkept⟩

theorem raisedIn_inj {x' y' : String} {j j' : ℕ} (h : (raisedIn x y j).pair = (raisedIn x' y' j').pair) :
    x = x' ∧ y = y' := by
  obtain ⟨rfl, htail⟩ := List.cons.inj (h : [x, y] = [x', y'])
  exact ⟨rfl, (List.cons.inj htail).1⟩

/-- Each pair has one alert. -/
theorem nodup_pairs_raised (hadmitted : scenario.Admitted) (hr : after w scenario settings k = .ok r) :
    (r.raised.values.map RaisedAlert.pair).Nodup := by
  rw [Dict.values, List.map_map]
  refine List.Nodup.map_on (fun e he e' he' hsame => ?_) (List.Nodup.of_map _ r.raised.nodup)
  obtain ⟨x, y, j, -, -, -, hkey, halert⟩ := exists_raisedIn hadmitted hr (Dict.get?_eq_some_iff.mpr he)
  obtain ⟨x', y', j', -, -, -, hkey', halert'⟩ := exists_raisedIn hadmitted hr (Dict.get?_eq_some_iff.mpr he')
  rw [Function.comp_apply, Function.comp_apply, halert, halert'] at hsame
  obtain ⟨rfl, rfl⟩ := raisedIn_inj hsame
  exact List.inj_on_of_nodup_map r.raised.nodup he he' (hkey.trans hkey'.symm)

/-- Scoring changes neither the pair of an alert nor when it was raised. -/
theorem mem_alerts_score_iff {outcome : ScenarioOutcome} (hn : (outcome.alerts.map RaisedAlert.pair).Nodup)
    (pair : List String) (raisedAt : Instant) :
    (∃ a ∈ (score outcome).alerts, a.pair = pair ∧ a.raisedAt = raisedAt) ↔
      ∃ a ∈ outcome.alerts, a.pair = pair ∧ a.raisedAt = raisedAt := by
  simp only [alerts_score hn, List.mem_map, exists_exists_and_eq_and]
  refine exists_congr fun a => and_congr_right fun _ => ?_
  obtain ⟨hpair, hraised⟩ := scoreAll_frame outcome.truthEvents a
  split_ifs <;> simp only [hpair, hraised]

/-- The alerts of a replay that comes back are the pairs its detector reported: one for each of them, raised
    in the turn whose scan was the first to report the pair. -/
theorem alerts_are_first_reports (w : Surroundings γ) (hadmitted : scenario.Admitted)
    (settings : ReplaySettings) {fuel : ℕ} {outcome : ScenarioOutcome}
    (hreturns : replayChecked w fuel scenario settings = some (.ok outcome)) :
    (outcome.alerts.map RaisedAlert.pair).Nodup ∧
      ∀ pair raisedAt, (∃ a ∈ outcome.alerts, a.pair = pair ∧ a.raisedAt = raisedAt) ↔
        ∃ x y j, x < y ∧ pair = [x, y] ∧ j ≤ ⌈scenario.durationS⌉₊ ∧
          FirstDetectedIn w scenario settings x y j ∧ raisedAt = instantAt j := by
  obtain ⟨r, hr, rfl⟩ := exists_after_of_checked hreturns
  have hn := nodup_pairs_raised hadmitted hr
  refine ⟨?_, fun pair raisedAt => ?_⟩
  · have hpairs : (score r.outcome).alerts.map RaisedAlert.pair = r.raised.values.map RaisedAlert.pair := by
      rw [alerts_score hn, List.map_map]
      refine List.map_congr_left fun a _ => ?_
      rw [Function.comp_apply]
      split_ifs <;> exact (scoreAll_frame _ a).1
    rw [hpairs]
    exact hn
  · rw [mem_alerts_score_iff hn]
    constructor
    · rintro ⟨a, ha, rfl, rfl⟩
      obtain ⟨x, y, j, hxy, hj, hfirst, rfl⟩ := (mem_raised_iff hadmitted hr).mp ha
      exact ⟨x, y, j, hxy, rfl, hj, hfirst, rfl⟩
    · rintro ⟨x, y, j, hxy, rfl, hj, hfirst, rfl⟩
      exact ⟨raisedIn x y j, (mem_raised_iff hadmitted hr).mpr ⟨x, y, j, hxy, hj, hfirst, rfl⟩, rfl, rfl⟩

/-- Two aircraft along the equator, for ten minutes. -/
theorem alerts_are_first_reports_east : ∃ outcome,
    replayChecked quiet 600 (eastScenario []) {} = some (.ok outcome) ∧
    (outcome.alerts.map RaisedAlert.pair).Nodup ∧
    ∀ pair raisedAt, (∃ a ∈ outcome.alerts, a.pair = pair ∧ a.raisedAt = raisedAt) ↔
      ∃ x y j, x < y ∧ pair = [x, y] ∧ j ≤ ⌈(eastScenario []).durationS⌉₊ ∧
        FirstDetectedIn quiet (eastScenario []) {} x y j ∧ raisedAt = instantAt j := by
  have hadmitted := eastScenario_admitted (List.forall_mem_nil Command.Admitted)
  have hfuel : ⌈(eastScenario []).durationS⌉₊ ≤ 600 := Nat.ceil_le.mpr (by norm_num [eastScenario])
  obtain ⟨outcome, houtcome⟩ := replayChecked_eastbound (w := quiet) noiseless_countingRandom hadmitted
    (eastScenario_eastbound (List.forall_mem_nil _)) positive_default
  exact ⟨outcome, houtcome 600 hfuel, alerts_are_first_reports quiet hadmitted {} (houtcome 600 hfuel)⟩

/-- Two aircraft that fly north together. -/
def formation : Scenario where
  scenarioId := "formation"
  seed := 1
  durationS := 600
  aircraft := [levelSpec "a1b2c3" "TEST01" [], levelSpec "d4e5f6" "TEST02" []]

theorem formation_admitted : formation.Admitted where
  scenarioId := (by decide : isScenarioId "formation" = true)
  durationS := by norm_num [formation]
  sensor := by constructor <;> norm_num [formation]
  aircraft := by
    have hlevel : ∀ icao24 callsign, isIcao24 icao24 → 1 ≤ callsign.length ∧ callsign.length ≤ 8 →
        (levelSpec icao24 callsign []).Admitted := by
      intro icao24 callsign hicao hcallsign
      refine ⟨hicao, hcallsign, ?_, by simp [levelSpec], by simp [levelSpec], by simp [levelSpec]⟩
      constructor <;> norm_num [levelSpec]
    exact List.forall_mem_cons.mpr ⟨hlevel "a1b2c3" "TEST01" (by decide) (by decide),
      List.forall_mem_singleton.mpr (hlevel "d4e5f6" "TEST02" (by decide) (by decide))⟩
  nonempty := List.cons_ne_nil _ _
  addresses := (by decide : ["a1b2c3", "d4e5f6"].Nodup)
  callsigns := (by decide : ["TEST01", "TEST02"].Nodup)
  entry := List.forall_mem_cons.mpr ⟨by norm_num [levelSpec, formation],
    List.forall_mem_singleton.mpr (by norm_num [levelSpec, formation])⟩

/-! ### The headline numbers -/

/-- The alerts of a replay, told by their pairs and turns. -/
theorem any_candidate_iff (hadmitted : scenario.Admitted) (hr : after w scenario settings k = .ok r)
    (e : ConflictEvent) : r.raised.values.any (candidate e) = true ↔
      ∃ j ≤ k, FirstDetectedIn w scenario settings e.pair.1 e.pair.2 j ∧ instantAt j ≤ e.startedAt := by
  rw [List.any_eq_true]
  constructor
  · rintro ⟨a, ha, hcandidate⟩
    obtain ⟨x, y, j, -, hj, hfirst, rfl⟩ := (mem_raised_iff hadmitted hr).mp ha
    obtain ⟨hpair, hstart⟩ := of_decide_eq_true hcandidate
    obtain ⟨hx, htail⟩ := List.cons.inj (hpair : [x, y] = [e.pair.1, e.pair.2])
    obtain rfl := hx
    obtain rfl := (List.cons.inj htail).1
    exact ⟨j, hj, hfirst, hstart⟩
  · rintro ⟨j, hj, hfirst, hstart⟩
    have hlt : e.pair.1 < e.pair.2 := lt_of_le_of_ne min_le_max hfirst.1.addressed.2.2
    exact ⟨raisedIn e.pair.1 e.pair.2 j, (mem_raised_iff hadmitted hr).mpr ⟨_, _, j, hlt, hj, hfirst, rfl⟩,
      decide_eq_true ⟨rfl, hstart⟩⟩

/-- The pair of an alert, as events name theirs. -/
def pairOf (a : RaisedAlert) : String × String := (a.pair.getD 0 "", a.pair.getD 1 "")

/-- Pairs that were reported and never lost separation, counted by their alerts. -/
theorem ncard_unmatched (hadmitted : scenario.Admitted) (hr : after w scenario settings k = .ok r)
    (events : List ConflictEvent) :
    {p : String × String | p.1 < p.2 ∧ (∃ j ≤ k, DetectedIn w scenario settings p.1 p.2 j) ∧
        ∀ e ∈ events, e.pair ≠ p}.ncard =
      (r.raised.values.filter fun a => a.pair ∉ events.map ConflictEvent.addresses).length := by
  set unmatched := r.raised.values.filter fun a => a.pair ∉ events.map ConflictEvent.addresses with hunmatched
  have hown : ∀ a ∈ unmatched, ∃ x y j, x < y ∧ j ≤ k ∧ FirstDetectedIn w scenario settings x y j ∧
      a = raisedIn x y j ∧ ∀ e ∈ events, e.pair ≠ (x, y) := by
    intro a ha
    obtain ⟨hmem, hother⟩ := List.mem_filter.mp ha
    obtain ⟨x, y, j, hxy, hj, hfirst, rfl⟩ := (mem_raised_iff hadmitted hr).mp hmem
    refine ⟨x, y, j, hxy, hj, hfirst, rfl, fun e he heq => of_decide_eq_true hother ?_⟩
    exact List.mem_map.mpr ⟨e, he, by rw [ConflictEvent.addresses, heq]; rfl⟩
  have hset : {p : String × String | p.1 < p.2 ∧ (∃ j ≤ k, DetectedIn w scenario settings p.1 p.2 j) ∧
      ∀ e ∈ events, e.pair ≠ p} = ((unmatched.map pairOf).toFinset : Set (String × String)) := by
    ext p
    rw [Set.mem_ofPred_eq, Finset.mem_coe, List.mem_toFinset, List.mem_map]
    constructor
    · rintro ⟨hlt, ⟨i, hi, hdetected⟩, hother⟩
      obtain ⟨j, hj, hfirst⟩ := hdetected.exists_first
      refine ⟨raisedIn p.1 p.2 j, List.mem_filter.mpr ⟨?_, decide_eq_true fun hmem => ?_⟩, rfl⟩
      · exact (mem_raised_iff hadmitted hr).mpr ⟨_, _, j, hlt, hj.trans hi, hfirst, rfl⟩
      · obtain ⟨e, he, heq⟩ := List.mem_map.mp hmem
        obtain ⟨h₁, htail⟩ := List.cons.inj (heq : [e.pair.1, e.pair.2] = [p.1, p.2])
        exact hother e he (Prod.ext h₁ (List.cons.inj htail).1)
    · rintro ⟨a, ha, rfl⟩
      obtain ⟨x, y, j, hxy, hj, hfirst, rfl, hother⟩ := hown a ha
      exact ⟨hxy, ⟨j, hj, hfirst.1⟩, hother⟩
  have hnodup : (unmatched.map pairOf).Nodup := by
    refine List.Nodup.map_on (fun a ha b hb hsame => ?_)
      ((List.Nodup.of_map _ (nodup_pairs_raised hadmitted hr)).filter _)
    obtain ⟨x, y, j, -, -, -, rfl, -⟩ := hown a ha
    obtain ⟨x', y', j', -, -, -, rfl, -⟩ := hown b hb
    obtain ⟨rfl, rfl⟩ := Prod.mk.inj (hsame : (x, y) = (x', y'))
    exact List.inj_on_of_nodup_map (nodup_pairs_raised hadmitted hr) (List.mem_filter.mp ha).1
      (List.mem_filter.mp hb).1 rfl
  rw [hset, Set.ncard_coe_finset, List.toFinset_card_of_nodup hnodup, List.length_map]

open Classical in
/-- What the headline numbers of a replay count. An event is detected if its pair was first reported in a
    turn no later than separation was lost; the false alerts are the pairs that were reported in some turn
    and never lost separation. -/
theorem headline_counts (w : Surroundings γ) (hadmitted : scenario.Admitted) (settings : ReplaySettings) :
    ∃ outcome,
      (∀ fuel ≥ ⌈scenario.durationS⌉₊, replay w fuel scenario settings = some (.ok outcome)) ∧
      outcome.detected = (outcome.truthEvents.filter fun e => ∃ j ≤ ⌈scenario.durationS⌉₊,
        FirstDetectedIn w scenario settings e.pair.1 e.pair.2 j ∧ instantAt j ≤ e.startedAt).length ∧
      outcome.falseAlerts = {p : String × String | p.1 < p.2 ∧
        (∃ j ≤ ⌈scenario.durationS⌉₊, DetectedIn w scenario settings p.1 p.2 j) ∧
          ∀ e ∈ outcome.truthEvents, e.pair ≠ p}.ncard := by
  obtain ⟨r, hr, hreplay⟩ := replay_eq w scenario settings
  have hn := nodup_pairs_raised hadmitted hr
  refine ⟨_, hreplay, ?_, ?_⟩
  · rw [detected_score hn, ScenarioOutcome.detected]
    refine congrArg List.length (List.filter_congr fun e _ => ?_)
    rw [Bool.eq_iff_iff, decide_eq_true_iff]
    exact any_candidate_iff hadmitted hr e
  · have hfresh : ∀ a ∈ r.outcome.alerts, a.matched = false := by
      intro a ha
      obtain ⟨x, y, j, -, -, -, rfl⟩ := (mem_raised_iff hadmitted hr).mp ha
      rfl
    rw [falseAlerts_score hn hfresh]
    exact (ncard_unmatched hadmitted hr r.truthFinder.events).symm

open Classical in
theorem headline_counts_formation : ∃ outcome,
    (∀ fuel ≥ ⌈formation.durationS⌉₊, replay quiet fuel formation {} = some (.ok outcome)) ∧
    outcome.detected = (outcome.truthEvents.filter fun e => ∃ j ≤ ⌈formation.durationS⌉₊,
      FirstDetectedIn quiet formation {} e.pair.1 e.pair.2 j ∧ instantAt j ≤ e.startedAt).length ∧
    outcome.falseAlerts = {p : String × String | p.1 < p.2 ∧
      (∃ j ≤ ⌈formation.durationS⌉₊, DetectedIn quiet formation {} p.1 p.2 j) ∧
        ∀ e ∈ outcome.truthEvents, e.pair ≠ p}.ncard :=
  headline_counts quiet formation_admitted {}

end Replay

end

end Airspace
