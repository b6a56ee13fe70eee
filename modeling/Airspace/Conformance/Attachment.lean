import Airspace.Conformance.Picture

/-! State and the track it is about.

    Alerts, prediction windows and trace contexts are kept per track, in three objects. Between two scans
    each of them belongs to a track that is in the picture or has been terminated since the last scan; a
    scan releases what belongs to the tracks that are gone. So after every scan all of them belong to
    tracks of the picture. -/

namespace Airspace

noncomputable section

theorem ConformanceMonitor.trackId_of_finding {m : ConformanceMonitor} {update : TrackUpdate}
    {f : NonConformance} (h : (m.observe update).2 = some f) : f.trackId = update.trackId := by
  rw [finding_observe] at h
  have hfold := List.foldlRecOn ((m.queueOf update.trackId).items.takeWhile (due update)) (m.judge update)
    (b := none) (motive := fun finding => ∀ f ∈ finding, f.trackId = update.trackId) (by simp)
    (by
      intro finding hfinding candidate _ f hf
      simp only [judge] at hf
      split_ifs at hf
      · exact hfinding f hf
      · obtain rfl := Option.some.inj hf
        rfl
      · exact hfinding f hf)
  exact hfold f h

/-! ### One condition through a scan -/

section

variable {k : ℕ} {sustainIntervalS : ℚ} {fresh : String} {now : Instant} {latest : Option Detection}
  {gone : List String} {record : Option Active} {a : Active}

/-- A record holds the scan's detection, or the one it held if the scan has none. -/
theorem keyReconcile_detection
    (h : (keyReconcile k sustainIntervalS fresh now latest record).1 = some a) :
    latest = some a.detection ∨ latest = none ∧ ∃ b, record = some b ∧ b.detection = a.detection := by
  cases latest with
  | some d =>
    left
    cases record with
    | none =>
      obtain rfl := Option.some.inj h
      rfl
    | some b =>
      simp only [keyReconcile] at h
      split_ifs at h <;> obtain rfl := Option.some.inj h <;> rfl
  | none =>
    right
    cases record with
    | none => cases h
    | some b =>
      simp only [keyReconcile] at h
      split_ifs at h
      obtain rfl := Option.some.inj h
      exact ⟨rfl, b, rfl, rfl⟩

theorem keyForget_some (h : (keyForget gone now record).1 = some a) :
    record = some a ∧ ∀ t ∈ a.detection.trackIds, t ∉ gone := by
  cases record with
  | none => cases h
  | some b =>
    simp only [keyForget] at h
    split_ifs at h with hgone
    obtain rfl := Option.some.inj h
    exact ⟨rfl, by simpa using hgone⟩

/-- A record left by a scan names no track that is gone. -/
theorem keyScan_some (h : (keyScan k sustainIntervalS fresh now latest gone record).1 = some a) :
    (∀ t ∈ a.detection.trackIds, t ∉ gone) ∧
      (latest = some a.detection ∨ ∃ b, record = some b ∧ b.detection = a.detection) := by
  obtain ⟨hreconciled, hgone⟩ := keyForget_some h
  refine ⟨hgone, ?_⟩
  rcases keyReconcile_detection hreconciled with hlatest | ⟨-, hrecord⟩
  · exact .inl hlatest
  · exact .inr hrecord

end

namespace ConformanceRunner

variable {s : ConformanceRunner} {wall now : Instant} {context : Option SpanContext} {update : TrackUpdate}
  {trackId : String} {uuid4 : ℕ → String}

/-! ### What a scan detects -/

/-- Every update is filed under its track. -/
def Filed (s : ConformanceRunner) : Prop :=
  ∀ trackId u, s.picture.get? trackId = some u → u.trackId = trackId

theorem mem_keys_of_mem_values (hs : s.Filed) {u : TrackUpdate} (h : u ∈ s.picture.values) :
    u.trackId ∈ s.picture.keys := by
  obtain ⟨trackId, hget⟩ := Dict.mem_values_iff.mp h
  rw [hs trackId u hget]
  exact Dict.mem_keys_iff.mpr ⟨u, hget⟩

/-- The tracks of a conflict are tracks of the scan. -/
theorem trackIds_of_conflict {m : SeparationMonitor} {tracks : List TrackUpdate} {c : Conflict}
    (h : c ∈ m.scan tracks) : ∀ t ∈ (asDetection c).trackIds, ∃ u ∈ tracks, u.trackId = t := by
  obtain ⟨⟨first, second⟩, hp, hc⟩ := mem_scan_iff.mp h
  obtain ⟨hfirst, hsecond⟩ := testPair_ids hc
  obtain ⟨hf, hs, -⟩ := neighbours_of_mem_candidatePairs hp
  intro t ht
  simp only [asDetection, List.mem_cons, List.not_mem_nil, or_false] at ht
  rcases ht with rfl | rfl
  · exact ⟨first.track, track_of_mem_states hf, hfirst.symm⟩
  · exact ⟨second.track, track_of_mem_states hs, hsecond.symm⟩

/-- A detection is about tracks of the picture, or stands for a pending finding. -/
theorem detections_cases (hs : s.Filed) {d : Detection} (h : d ∈ s.detections) :
    (∀ t ∈ d.trackIds, t ∈ s.picture.keys) ∨
      ∃ f ∈ s.pendingConformance.values, d = s.findingDetection f := by
  rw [detections, List.mem_append, List.mem_append] at h
  rcases h with (h | h) | h
  · obtain ⟨c, hc, rfl⟩ := List.mem_map.mp h
    left
    intro t ht
    obtain ⟨u, hu, rfl⟩ := trackIds_of_conflict hc t ht
    exact mem_keys_of_mem_values hs hu
  · obtain ⟨u, hu, hd⟩ := List.mem_flatMap.mp h
    obtain ⟨f, hf, rfl⟩ := List.mem_map.mp hd
    left
    intro t ht
    rw [ruleDetection, List.mem_singleton, (trackId_of_mem_checkRules hf).1] at ht
    exact ht ▸ mem_keys_of_mem_values hs hu
  · obtain ⟨f, hf, rfl⟩ := List.mem_map.mp h
    exact .inr ⟨f, hf, rfl⟩

/-! ### The invariant -/

/-- In the picture, or terminated since the last scan. -/
def Known (s : ConformanceRunner) (trackId : String) : Prop :=
  trackId ∈ s.picture.keys ∨ trackId ∈ s.terminated

/-- Everything kept for a track is kept for a known one. -/
structure Attached (s : ConformanceRunner) : Prop where
  keyed : s.manager.Keyed
  filed : s.Filed
  alerts : ∀ key a, s.manager.active.get? key = some a → ∀ t ∈ a.detection.trackIds, s.Known t
  windows : ∀ monitor ∈ s.conformance, ∀ t, t ∈ monitor.windows.keys ∨ t ∈ monitor.pending.keys → s.Known t
  findings : ∀ key f, s.pendingConformance.get? key = some f → s.Known f.trackId
  traces : ∀ t ∈ s.traceOf.keys, t ∈ s.picture.keys

theorem attached_fresh (h : s.Fresh) : s.Attached := by
  refine ⟨?_, ?_, ?_, ?_, ?_, ?_⟩
  · intro key a hget
    rw [h.active] at hget
    cases hget
  · intro trackId u hget
    rw [h.picture] at hget
    cases hget
  · intro key a hget
    rw [h.active] at hget
    cases hget
  · intro monitor hmonitor t ht
    obtain ⟨hwindows, hpending⟩ := h.windows monitor hmonitor
    rw [hwindows, hpending] at ht
    rcases ht with ht | ht <;> exact absurd ht List.not_mem_nil
  · intro key f hget
    rw [h.pendingConformance] at hget
    cases hget
  · intro t ht
    rw [h.traceOf] at ht
    exact absurd ht List.not_mem_nil

theorem terminated_absorb (s : ConformanceRunner) (wall : Instant) (context : Option SpanContext)
    (update : TrackUpdate) : (s.absorb wall context update).terminated =
    if update.state = .terminated then insert update.trackId s.terminated else s.terminated := by
  by_cases hstate : update.state = .terminated
  · rw [absorb_of_terminated hstate, if_pos hstate]
  · rw [if_neg hstate]
    cases ho : s.overtaken update with
    | true => rw [absorb_of_overtaken hstate ho]
    | false => rw [absorb_of_accepted hstate ho, observe_eq]

/-- A track leaves the picture for the terminated ones. -/
theorem known_absorb (h : s.Known trackId ∨ trackId = update.trackId) :
    (s.absorb wall context update).Known trackId := by
  have hpicture := picture_absorb s wall context update trackId
  have hterminated := terminated_absorb s wall context update
  by_cases hid : trackId = update.trackId
  · subst hid
    by_cases hstate : update.state = .terminated
    · right
      rw [hterminated, if_pos hstate]
      exact Finset.mem_insert_self _ _
    · left
      rw [if_pos rfl, if_neg hstate] at hpicture
      split_ifs at hpicture with ho
      · obtain ⟨u, hu, -⟩ := Option.any_eq_true _ _ |>.mp ho
        exact Dict.mem_keys_iff.mpr ⟨u, hpicture.trans hu⟩
      · exact Dict.mem_keys_iff.mpr ⟨update, hpicture⟩
  · rw [if_neg hid] at hpicture
    rcases h.resolve_right hid with h | h
    · obtain ⟨u, hu⟩ := Dict.mem_keys_iff.mp h
      exact .inl (Dict.mem_keys_iff.mpr ⟨u, hpicture.trans hu⟩)
    · right
      rw [hterminated]
      split_ifs
      · exact Finset.mem_insert_of_mem h
      · exact h

/-- What was known before an update stays known, and the update's track becomes known. -/
theorem attached_absorb (h : s.Attached) (wall : Instant) (context : Option SpanContext)
    (update : TrackUpdate) : (s.absorb wall context update).Attached := by
  have hfiled : (s.absorb wall context update).Filed := by
    intro trackId u hget
    rw [picture_absorb] at hget
    split_ifs at hget with hid
    · exact h.filed trackId u hget
    · rw [hid, Option.some.inj hget]
    · exact h.filed trackId u hget
  have hown : (s.absorb wall context update).Known update.trackId := known_absorb (.inr rfl)
  have hkeep : ∀ t, s.Known t → (s.absorb wall context update).Known t := fun t ht => known_absorb (.inl ht)
  by_cases hstate : update.state = .terminated
  · rw [absorb_of_terminated hstate] at hfiled hkeep ⊢
    refine ⟨h.keyed, hfiled, fun key a ha t ht => hkeep t (h.alerts key a ha t ht),
      fun monitor hm t ht => hkeep t (h.windows monitor hm t ht),
      fun key f hf => hkeep _ (h.findings key f hf), fun t ht => ?_⟩
    obtain ⟨hne, ht⟩ := Dict.mem_keys_erase.mp ht
    exact Dict.mem_keys_erase.mpr ⟨hne, h.traces t ht⟩
  cases ho : s.overtaken update with
  | true =>
    rw [absorb_of_overtaken hstate ho] at hfiled hkeep ⊢
    exact ⟨h.keyed, hfiled, fun key a ha t ht => hkeep t (h.alerts key a ha t ht),
      fun monitor hm t ht => hkeep t (h.windows monitor hm t ht),
      fun key f hf => hkeep _ (h.findings key f hf), h.traces⟩
  | false =>
    rw [absorb_of_accepted hstate ho] at hfiled hown hkeep ⊢
    refine ⟨?_, hfiled, ?_, ?_, ?_, ?_⟩
    · rw [observe_eq]
      exact h.keyed
    · intro key a ha t ht
      rw [observe_eq] at ha
      exact hkeep t (h.alerts key a ha t ht)
    · intro monitor hmonitor t ht
      rw [conformance_observe] at hmonitor
      obtain ⟨before, hbefore, rfl⟩ := Option.map_eq_some_iff.mp hmonitor
      rw [ConformanceMonitor.observe_eq, Dict.mem_keys_set, Dict.mem_keys_set] at ht
      rcases ht with (rfl | ht) | (rfl | ht)
      · exact hown
      · exact hkeep t (h.windows before hbefore t (.inl ht))
      · exact hown
      · exact hkeep t (h.windows before hbefore t (.inr ht))
    · intro key f hf
      rcases finding_observe_cases hf with hf | ⟨monitor, -, hf⟩
      · exact hkeep _ (h.findings key f hf)
      · rw [ConformanceMonitor.trackId_of_finding hf]
        exact hown
    · intro t ht
      rw [observe_eq] at ht ⊢
      rcases Dict.mem_keys_set.mp ht with rfl | ht
      · exact Dict.mem_keys_set.mpr (.inl rfl)
      · exact Dict.mem_keys_set.mpr (.inr (h.traces t ht))

/-- What a scan detects is about tracks it looks at or releases. -/
theorem known_of_detections (h : s.Attached) {d : Detection} (hd : d ∈ (s.pruned now).detections) :
    ∀ t ∈ d.trackIds, t ∈ (s.pruned now).picture.keys ∨ t ∈ s.vanished now := by
  have hfiled : (s.pruned now).Filed := by
    intro trackId u hget
    rw [picture_pruned, Option.filter_eq_some_iff] at hget
    exact h.filed trackId u hget.1
  rcases detections_cases hfiled hd with hd | ⟨f, hf, rfl⟩
  · exact fun t ht => .inl (hd t ht)
  · intro t ht
    obtain rfl := List.mem_singleton.mp ht
    obtain ⟨key, hkey⟩ := Dict.mem_values_iff.mp hf
    exact mem_picture_or_vanished (h.findings key f hkey)

/-- A scan releases everything that is not of the picture. -/
theorem attached_scanNow (h : s.Attached) (uuid4 : ℕ → String) (now : Instant) (fault : Option SinkFault) :
    (s.scanNow uuid4 now fault).runner.Attached ∧ (s.scanNow uuid4 now fault).runner.terminated = ∅ := by
  have hkept : ∀ t, s.Known t → t ∉ s.vanished now → t ∈ (s.pruned now).picture.keys :=
    fun t ht hgone => (mem_picture_or_vanished ht).resolve_right hgone
  refine ⟨⟨?_, ?_, ?_, ?_, ?_, ?_⟩, terminated_scanNow ..⟩
  · rw [manager_scanNow]
    exact (AlertManager.transitions_extends uuid4 h.keyed).keyed
  · intro trackId u hget
    rw [picture_scanNow, picture_pruned, Option.filter_eq_some_iff] at hget
    exact h.filed trackId u hget.1
  · intro key a ha t ht
    left
    rw [manager_scanNow] at ha
    rw [picture_scanNow]
    obtain ⟨i, hrecord, -⟩ := AlertManager.get?_transitions uuid4 h.keyed now (s.pruned now).detections
      (s.vanished now) key
    rw [hrecord] at ha
    obtain ⟨hgone, hfrom⟩ := keyScan_some ha
    rcases hfrom with hlatest | ⟨b, hb, hdetection⟩
    · have hmem : a.detection ∈ (s.pruned now).detections :=
        List.mem_reverse.mp (List.mem_of_find?_eq_some hlatest)
      exact (known_of_detections h hmem t ht).resolve_right (hgone t ht)
    · exact hkept t (h.alerts key b hb t (hdetection ▸ ht)) (hgone t ht)
  · intro monitor hmonitor t ht
    left
    rw [conformance_scanNow] at hmonitor
    rw [picture_scanNow]
    obtain ⟨before, hbefore, rfl⟩ := Option.map_eq_some_iff.mp hmonitor
    simp only [ConformanceMonitor.forget, Dict.mem_keys_iff, Dict.get?_foldl_erase] at ht
    have hgone : t ∉ s.vanished now := by
      rintro hmem
      simp [hmem] at ht
    rw [if_neg hgone, if_neg hgone, ← Dict.mem_keys_iff, ← Dict.mem_keys_iff] at ht
    exact hkept t (h.windows before hbefore t ht) hgone
  · intro key f hf
    rw [pendingConformance_scanNow] at hf
    cases hf
  · intro t ht
    rw [traceOf_scanNow] at ht
    rw [picture_scanNow]
    obtain ⟨context, hcontext⟩ := Dict.mem_keys_iff.mp ht
    replace hcontext : ((s.expireStale now).2.foldl Dict.erase s.traceOf).get? t = some context := hcontext
    rw [Dict.get?_foldl_erase] at hcontext
    split_ifs at hcontext with hstale
    obtain ⟨u, hu⟩ := Dict.mem_keys_iff.mp (h.traces t (Dict.mem_keys_iff.mpr ⟨context, hcontext⟩))
    refine Dict.mem_keys_iff.mpr ⟨u, ?_⟩
    change ((s.expireStale now).2.foldl Dict.erase s.picture).get? t = some u
    rw [Dict.get?_foldl_erase, if_neg hstale, hu]

theorem attached_run {allowed : ConformanceRunner → ConformanceCall → Prop} {start : ConformanceRunner}
    {log : List Alert} (hfresh : start.Fresh) (hrun : (machine uuid4).Run allowed start s log) :
    s.Attached := by
  refine hrun.invariant (I := fun s _ => s.Attached) (attached_fresh hfresh) ?_
  rintro s log call s' shown h - hstep
  cases call with
  | absorb wall context update =>
    cases hstep
    exact attached_absorb h wall context update
  | scanNow now fault =>
    cases hstep
    exact (attached_scanNow h uuid4 now fault).1

/-- No state outlives its track. After every scan of a run, the tracks of every active alert, of every
    window and queue of the monitor and of every trace context are in the picture. -/
theorem no_state_outlives_its_track {allowed : ConformanceRunner → ConformanceCall → Prop}
    {start : ConformanceRunner} {log : List Alert} (hfresh : start.Fresh)
    (hrun : (machine uuid4).Run allowed start s log) (now : Instant) (fault : Option SinkFault) :
    let after := (s.scanNow uuid4 now fault).runner
    (∀ key a, after.manager.active.get? key = some a → ∀ t ∈ a.detection.trackIds, t ∈ after.picture.keys) ∧
      (∀ monitor ∈ after.conformance, (∀ t ∈ monitor.windows.keys, t ∈ after.picture.keys) ∧
        ∀ t ∈ monitor.pending.keys, t ∈ after.picture.keys) ∧
      ∀ t ∈ after.traceOf.keys, t ∈ after.picture.keys := by
  intro after
  obtain ⟨h, hnone⟩ := attached_scanNow (attached_run hfresh hrun) uuid4 now fault
  have hknown : ∀ t, after.Known t → t ∈ after.picture.keys := by
    rintro t (ht | ht)
    · exact ht
    · rw [hnone] at ht
      exact absurd ht (Finset.notMem_empty t)
  refine ⟨fun key a ha t ht => hknown t (h.alerts key a ha t ht),
    fun monitor hm => ⟨fun t ht => ?_, fun t ht => ?_⟩,
    h.traces⟩
  · exact hknown t (h.windows monitor hm t (.inl ht))
  · exact hknown t (h.windows monitor hm t (.inr ht))

/-- A service with a monitor that predicts by physics alone. -/
def physicsOnly : ConformanceRunner :=
  { initial with conformance := some { predictor := physicsPredictor 60 } }

theorem fresh_physicsOnly : physicsOnly.Fresh := by
  refine ⟨rfl, rfl, rfl, rfl, rfl, rfl, ?_, ?_⟩
  · rintro monitor ⟨⟩
    exact ⟨rfl, rfl⟩
  · rintro store ⟨⟩

/-- An aircraft heard once, then a scan: its window is that of a track in the picture. -/
theorem no_state_outlives_its_track_heard :
    let update := equatorTrack "trk-abc123" 0 35000 450 90 0
    let after := ((physicsOnly.absorb 0 none update).scanNow (fun _ => "alert") 0 none).runner
    ∀ monitor ∈ after.conformance, ∀ t ∈ monitor.windows.keys, t ∈ after.picture.keys := by
  intro update after monitor hmonitor
  have hrun : (machine fun _ => "alert").Run Quiet physicsOnly (physicsOnly.absorb 0 none update) [] :=
    run_absorbAll _ physicsOnly [{ wall := 0, update := update }]
  exact ((no_state_outlives_its_track fresh_physicsOnly hrun 0 none).2.1 monitor hmonitor).1

end ConformanceRunner

end

end Airspace
