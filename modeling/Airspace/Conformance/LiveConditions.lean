import Airspace.Conformance.AlertProtocol
import Airspace.Conformance.Attachment

/-! Conditions that still hold.

    A scan first reconciles what it detects and then forgets the tracks that ended since the last scan. A
    track that was terminated and is back in the picture is among those: its conditions are raised or
    sustained and cleared in one scan. A detected condition survives its scan exactly when the detection
    the manager keeps for it names no vanished track. -/

namespace Airspace

noncomputable section

/-! ### A detected condition through a scan -/

section

variable (k : ℕ) (sustainIntervalS : ℚ) (fresh : String) (now : Instant) (d : Detection)
  (gone : List String) (record : Option Active)

/-- A detected condition is held with that detection, and nothing is cleared. -/
theorem keyReconcile_detected : ∃ a, a.detection = d ∧
    (keyReconcile k sustainIntervalS fresh now (some d) record).1 = some a ∧
    ∀ alert ∈ (keyReconcile k sustainIntervalS fresh now (some d) record).2, alert.state ≠ .cleared := by
  cases record with
  | none => exact ⟨_, rfl, rfl, by simp [keyReconcile, render]⟩
  | some b =>
    simp only [keyReconcile]
    split_ifs
    · exact ⟨_, rfl, rfl, by simp [render]⟩
    · exact ⟨_, rfl, rfl, by simp⟩

/-- It is still held, and not cleared, exactly when its detection names no track that is gone. -/
theorem keyScan_detected_iff :
    ((keyScan k sustainIntervalS fresh now (some d) gone record).1 ≠ none ∧
      ∀ alert ∈ (keyScan k sustainIntervalS fresh now (some d) gone record).2, alert.state ≠ .cleared) ↔
      ∀ t ∈ d.trackIds, t ∉ gone := by
  obtain ⟨a, rfl, hrecord, halerts⟩ := keyReconcile_detected k sustainIntervalS fresh now d record
  simp only [keyScan, hrecord, keyForget]
  by_cases hgone : (a.detection.trackIds.any (· ∈ gone)) = true
  · rw [if_pos hgone]
    refine iff_of_false (fun h => h.1 rfl) ?_
    obtain ⟨t, ht, hmem⟩ := List.any_eq_true.mp hgone
    exact fun h => h t ht (of_decide_eq_true hmem)
  · rw [if_neg hgone]
    refine iff_of_true ⟨by simp, by simpa using halerts⟩ ?_
    simpa using hgone

end

namespace AlertManager

variable {m : AlertManager} {detections : List Detection} {gone : List String} {now : Instant} {d : Detection}

theorem latestIn_of_mem (h : d ∈ detections) : ∃ last ∈ detections, latestIn detections d.key = some last := by
  cases hlatest : latestIn detections d.key with
  | none => exact absurd rfl (latestIn_eq_none_iff.mp hlatest d h)
  | some last => exact ⟨last, List.mem_reverse.mp (List.mem_of_find?_eq_some hlatest), rfl⟩

/-- What the scan detects stays active, and is not cleared, exactly when the last detection of its key
    names no vanished track. -/
theorem transitions_keep_iff (uuid4 : ℕ → String) (hk : m.Keyed) (hd : d ∈ detections) :
    (d.key ∈ (m.transitions uuid4 detections gone now).1.active.keys ∧
      ∀ a ∈ (m.transitions uuid4 detections gone now).2, a.alertKey = d.key → a.state ≠ .cleared) ↔
      ∀ last, latestIn detections d.key = some last → ∀ t ∈ last.trackIds, t ∉ gone := by
  obtain ⟨last, -, hlatest⟩ := latestIn_of_mem hd
  obtain ⟨i, hrecord, halerts⟩ := get?_transitions uuid4 hk now detections gone d.key
  rw [hlatest] at hrecord halerts
  have hactive : d.key ∈ (m.transitions uuid4 detections gone now).1.active.keys ↔
      (m.transitions uuid4 detections gone now).1.active.get? d.key ≠ none := by
    rw [ne_eq, Dict.get?_eq_none_iff, not_not]
  have hcleared : (∀ a ∈ (m.transitions uuid4 detections gone now).2, a.alertKey = d.key →
      a.state ≠ .cleared) ↔ ∀ a ∈ (m.transitions uuid4 detections gone now).2.filter
        (fun a => a.alertKey = d.key), a.state ≠ .cleared := by
    simp only [List.mem_filter, decide_eq_true_eq, and_imp]
  rw [hactive, hcleared, hrecord, halerts, keyScan_detected_iff, hlatest]
  constructor
  · rintro h _ ⟨⟩
    exact h
  · exact fun h => h last rfl

end AlertManager

namespace ConformanceRunner

variable {s : ConformanceRunner} {uuid4 : ℕ → String}

/-! ### The law -/

/-- A scan keeps what it detects. In every run a scan that raises nothing keeps every detected condition
    whose tracks are all in the picture active and clears none of them exactly when the last detection of
    each such condition names no track that ended since the scan before. -/
theorem scan_keeps_live_conditions_iff {allowed : ConformanceRunner → ConformanceCall → Prop}
    {start : ConformanceRunner} {log : List Alert} (hfresh : start.Fresh)
    (hrun : (machine uuid4).Run allowed start s log) (now : Instant) :
    let detected := fun d => d ∈ (s.pruned now).detections ∧
      ∀ t ∈ d.trackIds, t ∈ (s.pruned now).picture.keys
    let out := s.scanNow uuid4 now none
    (∀ d, detected d → d.key ∈ out.runner.manager.active.keys ∧
      ∀ a ∈ out.published, a.alertKey = d.key → a.state ≠ .cleared) ↔
      ∀ d, detected d → ∀ last, AlertManager.latestIn (s.pruned now).detections d.key = some last →
        ∀ t ∈ last.trackIds, t ∉ s.vanished now := by
  intro detected out
  have hkeyed : s.manager.Keyed := (attached_run hfresh hrun).keyed
  have hmanager : out.runner.manager = _ := manager_scanNow s uuid4 now none
  have hpublished : out.published = _ := published_scanNow s uuid4 now
  rw [hmanager, hpublished]
  refine forall_congr' fun d => ?_
  constructor
  · intro h hd
    exact (AlertManager.transitions_keep_iff uuid4 hkeyed hd.1).mp (h hd)
  · intro h hd
    exact (AlertManager.transitions_keep_iff uuid4 hkeyed hd.1).mpr (h hd)

/-! ### One emergency -/

/-- An aircraft in distress, as its tracker reports it. -/
def distress (reportedAt : Instant) (state : TrackState) : TrackUpdate :=
  { equatorTrack "trk-abc123" 0 35000 450 90 0 with
    updatedAt := reportedAt, state := state, squawk := some "7700" }

/-- What the rules say of it. -/
def distressDetection : Detection where
  key := "emergency_squawk:trk-abc123"
  kind := .emergencySquawk
  severity := .warning
  summary := "a1b2c3 squawking 7700 (general emergency)"
  reasonCodes := ["squawk_7700_emergency"]
  trackIds := ["trk-abc123"]

/-- With the one aircraft in the picture the scan detects the emergency and nothing else. -/
theorem detections_distress {reportedAt : Instant} {state : TrackState} (s : ConformanceRunner)
    (hpicture : s.picture.items = [("trk-abc123", distress reportedAt state)])
    (hpending : s.pendingConformance = Dict.empty) : s.detections = [distressDetection] := by
  have hvalues : s.picture.values = [distress reportedAt state] := by
    rw [Dict.values, hpicture]
    rfl
  have hscan : s.monitor.scan [distress reportedAt state] = [] := by
    refine if_pos ((List.length_filter_le _ _).trans_lt ?_)
    exact Nat.lt_succ_self 1
  have hrules : checkRules (distress reportedAt state) =
      [{ trackId := "trk-abc123", kind := .emergencySquawk, severity := .warning
         summary := "a1b2c3 squawking 7700 (general emergency)",
         reasonCodes := ["squawk_7700_emergency"] }] := by
    simp [checkRules, squawkFinding, emergencySquawks, descentFinding, distress, equatorTrack, displayName]
  rw [detections, hvalues, hscan, hpending, List.flatMap_cons, hrules]
  rfl

/-- The service after the reports of one aircraft, in turn. -/
def heard (states : List TrackState) : ConformanceRunner :=
  initial.absorbAll (states.map fun state => { wall := 0, update := distress 0 state })

/-- A scan of the aircraft alone detects its emergency. -/
theorem detected_distress (h : s.picture.items = [("trk-abc123", distress 0 .confirmed)])
    (hpending : s.pendingConformance = Dict.empty) (hstale : s.staleAfterS = 15) :
    s.expireStale 0 = (s, []) ∧ (s.pruned 0).detections = [distressDetection] := by
  have hrecent : s.expireStale 0 = (s, []) := by
    refine expireStale_of_recent fun u hu => ?_
    rw [Dict.values, h, List.map_singleton, List.mem_singleton] at hu
    rw [hu, hstale]
    simp [distress, seconds]
  refine ⟨hrecent, ?_⟩
  rw [pruned, hrecent]
  exact detections_distress s h hpending

/-- The emergency of an aircraft heard once is active after the scan. -/
theorem scan_keeps_live_conditions_heard :
    (heard [.confirmed]).vanished 0 = [] ∧
      distressDetection.key ∈ ((heard [.confirmed]).scanNow AlertManager.twoUuids 0
        none).runner.manager.active.keys := by
  have hpicture : (heard [.confirmed]).picture.items =
      [("trk-abc123", distress 0 .confirmed)] := rfl
  obtain ⟨hrecent, hdetections⟩ := detected_distress hpicture rfl rfl
  have hnone : (heard [.confirmed]).vanished 0 = [] := by
    rw [vanished, hrecent]
    exact Finset.sort_empty _
  refine ⟨hnone, ?_⟩
  have hrun : (machine AlertManager.twoUuids).Run Quiet initial (heard [.confirmed]) [] := run_absorbAll ..
  have hlaw := scan_keeps_live_conditions_iff fresh_initial hrun 0
  refine (hlaw.mpr ?_ distressDetection ⟨?_, ?_⟩).1
  · intro d _ last _ t _
    rw [hnone]
    exact List.not_mem_nil
  · rw [hdetections]
    exact List.mem_singleton_self _
  · rw [pruned, hrecent]
    intro t ht
    obtain rfl := List.mem_singleton.mp ht
    exact List.mem_singleton_self _

/-- An emergency withdrawn while it lasts. An aircraft in distress is terminated and heard again before
    the scan: it is in the picture, its emergency is detected, and the scan clears it. -/
theorem reinitiated_emergency_is_cleared :
    let s := heard [.confirmed, .terminated, .confirmed]
    (machine AlertManager.twoUuids).Run Quiet initial s [] ∧ distressDetection ∈ (s.pruned 0).detections ∧
      (∀ t ∈ distressDetection.trackIds, t ∈ (s.pruned 0).picture.keys) ∧
      ¬ (distressDetection.key ∈ (s.scanNow AlertManager.twoUuids 0 none).runner.manager.active.keys ∧
        ∀ a ∈ (s.scanNow AlertManager.twoUuids 0 none).published, a.alertKey = distressDetection.key →
          a.state ≠ .cleared) := by
  intro s
  have hrun : (machine AlertManager.twoUuids).Run Quiet initial s [] := run_absorbAll ..
  have hpicture : s.picture.items = [("trk-abc123", distress 0 .confirmed)] := rfl
  obtain ⟨hrecent, hdetections⟩ := detected_distress hpicture rfl rfl
  have hmem : distressDetection ∈ (s.pruned 0).detections := hdetections ▸ List.mem_singleton_self _
  refine ⟨hrun, hmem, ?_, ?_⟩
  · rw [pruned, hrecent]
    intro t ht
    obtain rfl := List.mem_singleton.mp ht
    exact List.mem_singleton_self _
  · have hkeyed : s.manager.Keyed := (attached_run fresh_initial hrun).keyed
    rw [manager_scanNow, published_scanNow, AlertManager.transitions_keep_iff AlertManager.twoUuids hkeyed hmem]
    intro hnone
    have hgone : "trk-abc123" ∈ s.vanished 0 := by
      rw [mem_vanished_iff]
      right
      exact Finset.mem_insert_self _ _
    refine hnone distressDetection ?_ "trk-abc123" (List.mem_singleton_self _) hgone
    rw [hdetections]
    rfl

end ConformanceRunner

end

end Airspace
