import Airspace.Conformance.Alerts
import Airspace.Lib.KeyedFold
import Mathlib.Data.Rat.Defs
import Mathlib.Algebra.Order.Ring.Rat

/-! The alert manager, one condition at a time.

    What `reconcile` and `forget` do to one key depends on that key alone: its record, its latest
    detection in the scan, and the identifier drawn if it has to be raised. `keyReconcile` and
    `keyForget` are that machine, and the loops of the manager are shown to run it on every key.

        none ──detected / NEW──▶ open ──detected (heartbeat due) / SUSTAINED──▶ open
                                  │ missed clear_after times, or a track forgotten / CLEARED
                                  ▼
                                 none -/

namespace Airspace

/-- One condition through one scan: its record afterwards and the alerts published for it. -/
def keyReconcile (clearAfterScans : ℕ) (sustainIntervalS : ℚ) (fresh : String) (now : Instant) :
    Option Detection → Option Active → Option Active × List Alert
  | some detection, none =>
    let active : Active :=
      { alertId := fresh, raisedAt := now, lastPublishedAt := now, detection := detection }
    (some active, [render active detection .new now])
  | some detection, some active =>
    let active := { active with missedScans := 0, detection := detection }
    if totalSeconds (now - active.lastPublishedAt) ≥ sustainIntervalS then
      (some { active with lastPublishedAt := now }, [render active detection .sustained now])
    else (some active, [])
  | none, none => (none, [])
  | none, some active =>
    if active.missedScans + 1 ≥ clearAfterScans then
      (none, [render active active.detection .cleared now])
    else (some { active with missedScans := active.missedScans + 1 }, [])

/-- One condition through one `forget`. -/
def keyForget (gone : List String) (now : Instant) : Option Active → Option Active × List Alert
  | none => (none, [])
  | some active =>
    if active.detection.trackIds.any (· ∈ gone) then
      (none, [render active active.detection .cleared now])
    else (some active, [])

namespace AlertManager

/-- The record of a key and the alerts published for it so far. -/
def keyView (key : String) (acc : AlertManager × List Alert) : Option Active × List Alert :=
  (acc.1.active.get? key, acc.2.filter (fun a => a.alertKey = key))

/-- Every record is filed under the key of its latest detection. -/
def Keyed (m : AlertManager) : Prop := ∀ key a, m.active.get? key = some a → a.detection.key = key

/-- What the loops keep about the manager they started from. -/
structure Extends (m : AlertManager) (acc : AlertManager × List Alert) : Prop where
  keyed : acc.1.Keyed
  drawn : m.drawn ≤ acc.1.drawn
  clearAfterScans : acc.1.clearAfterScans = m.clearAfterScans
  sustainIntervalS : acc.1.sustainIntervalS = m.sustainIntervalS

variable {uuid4 : ℕ → String} {now : Instant} {m : AlertManager} {key : String}

theorem Keyed.set (h : m.Keyed) {a : Active} {n : ℕ} (ha : a.detection.key = key) :
    ({ m with active := m.active.set key a, drawn := n } : AlertManager).Keyed := by
  intro k b hb
  rw [Dict.get?_set] at hb
  by_cases hk : k = key
  · rw [if_pos hk] at hb; cases hb; rw [ha, hk]
  · rw [if_neg hk] at hb; exact h k b hb

theorem Keyed.erase (h : m.Keyed) :
    ({ m with active := m.active.erase key } : AlertManager).Keyed := by
  intro k b hb
  rw [Dict.get?_erase] at hb
  by_cases hk : k = key
  · rw [if_pos hk] at hb; cases hb
  · rw [if_neg hk] at hb; exact h k b hb

@[simp] theorem alertKey_render (a : Active) (d : Detection) (s : AlertState) (t : Instant) :
    (render a d s t).alertKey = d.key := rfl

/-! ### The loop over the detections -/

theorem raiseOrSustain_touches (uuid4 : ℕ → String) (now : Instant) {entry : String × Detection}
    (he : entry.2.key = entry.1) :
    TouchesOnlyOwnKey (Extends m) keyView (raiseOrSustain uuid4 now) Prod.fst entry := by
  obtain ⟨key, detection⟩ := entry
  simp only at he
  rintro ⟨m', published⟩ ⟨hk, hd, hc, hs⟩
  simp only [raiseOrSustain]
  cases hget : m'.active.get? key with
  | none =>
    refine ⟨⟨hk.set he, Nat.le_succ_of_le hd, hc, hs⟩, fun k hne => ?_⟩
    have hne' : ¬ key = k := fun h => hne h.symm
    simp [keyView, hne, hne', he, List.filter_append]
  | some existing =>
    by_cases hdue : totalSeconds (now - existing.lastPublishedAt) ≥ m'.sustainIntervalS
    · simp only [if_pos hdue]
      refine ⟨⟨hk.set he, hd, hc, hs⟩, fun k hne => ?_⟩
      have hne' : ¬ key = k := fun h => hne h.symm
      simp [keyView, hne, hne', he, List.filter_append]
    · simp only [if_neg hdue]
      refine ⟨⟨hk.set he, hd, hc, hs⟩, fun k hne => ?_⟩
      simp [keyView, hne]

/-- One iteration runs the machine of its own key. -/
theorem keyView_raiseOrSustain {acc : AlertManager × List Alert} {detection : Detection}
    (he : detection.key = key) :
    keyView key (raiseOrSustain uuid4 now acc (key, detection)) =
      ((keyReconcile acc.1.clearAfterScans acc.1.sustainIntervalS (uuid4 acc.1.drawn) now
        (some detection) (acc.1.active.get? key)).1,
       (keyView key acc).2 ++ (keyReconcile acc.1.clearAfterScans acc.1.sustainIntervalS
        (uuid4 acc.1.drawn) now (some detection) (acc.1.active.get? key)).2) := by
  obtain ⟨m', published⟩ := acc
  simp only [raiseOrSustain]
  cases hget : m'.active.get? key with
  | none => simp [keyView, keyReconcile, he, List.filter_append]
  | some existing =>
    by_cases hdue : totalSeconds (now - existing.lastPublishedAt) ≥ m'.sustainIntervalS
    · simp only [if_pos hdue, keyReconcile]
      simp [keyView, he, List.filter_append, render]
    · simp only [if_neg hdue, keyReconcile]
      simp [keyView]

/-! ### The loops over the active keys -/

theorem missOrClear_touches (current : Dict String Detection) (now : Instant) (keys : List String) :
    ∀ key ∈ keys, TouchesOnlyOwnKey (Extends m) keyView (missOrClear current now) id key := by
  rintro key - ⟨m', published⟩ ⟨hk, hd, hc, hs⟩
  simp only [missOrClear, id]
  by_cases hcur : key ∈ current.keys
  · simp only [if_pos hcur]; exact ⟨⟨hk, hd, hc, hs⟩, fun _ _ => trivial⟩
  simp only [if_neg hcur]
  cases hget : m'.active.get? key with
  | none => exact ⟨⟨hk, hd, hc, hs⟩, fun k _ => rfl⟩
  | some active =>
    have he := hk key active hget
    by_cases hgone : active.missedScans + 1 ≥ m'.clearAfterScans
    · simp only [if_pos hgone]
      refine ⟨⟨hk.erase, hd, hc, hs⟩, fun k hne => ?_⟩
      have hne' : ¬ key = k := fun h => hne h.symm
      simp [keyView, hne, hne', he, List.filter_append]
    · simp only [if_neg hgone]
      refine ⟨⟨hk.set he, hd, hc, hs⟩, fun k hne => ?_⟩
      simp [keyView, hne]

/-- One iteration on an undetected key runs the machine of that key. -/
theorem keyView_missOrClear {current : Dict String Detection} {acc : AlertManager × List Alert}
    (hk : acc.1.Keyed) (hmiss : key ∉ current.keys) (fresh : String) :
    keyView key (missOrClear current now acc key) =
      ((keyReconcile acc.1.clearAfterScans acc.1.sustainIntervalS fresh now none
        (acc.1.active.get? key)).1,
       (keyView key acc).2 ++ (keyReconcile acc.1.clearAfterScans acc.1.sustainIntervalS fresh now none
        (acc.1.active.get? key)).2) := by
  obtain ⟨m', published⟩ := acc
  simp only [missOrClear, if_neg hmiss]
  cases hget : m'.active.get? key with
  | none => simp [keyView, keyReconcile, hget]
  | some active =>
    have he := hk key active hget
    by_cases hgone : active.missedScans + 1 ≥ m'.clearAfterScans
    · simp only [if_pos hgone, keyReconcile]
      simp [keyView, he, List.filter_append, render]
    · simp only [if_neg hgone, keyReconcile]
      simp [keyView]

theorem missOrClear_detected {current : Dict String Detection} (h : key ∈ current.keys)
    (acc : AlertManager × List Alert) : missOrClear current now acc key = acc := by
  simp only [missOrClear, if_pos h]

theorem forgetKey_touches (gone : List String) (now : Instant) (keys : List String) :
    ∀ key ∈ keys, TouchesOnlyOwnKey (Extends m) keyView (forgetKey gone now) id key := by
  rintro key - ⟨m', cleared⟩ ⟨hk, hd, hc, hs⟩
  simp only [forgetKey, id]
  cases hget : m'.active.get? key with
  | none => exact ⟨⟨hk, hd, hc, hs⟩, fun k _ => rfl⟩
  | some active =>
    have he := hk key active hget
    by_cases hgone : (active.detection.trackIds.any (· ∈ gone)) = true
    · simp only [if_pos hgone]
      refine ⟨⟨hk.erase, hd, hc, hs⟩, fun k hne => ?_⟩
      have hne' : ¬ key = k := fun h => hne h.symm
      simp [keyView, hne, hne', he, List.filter_append]
    · simp only [if_neg hgone]
      exact ⟨⟨hk, hd, hc, hs⟩, fun _ _ => trivial⟩

theorem keyView_forgetKey {gone : List String} {acc : AlertManager × List Alert} (hk : acc.1.Keyed) :
    keyView key (forgetKey gone now acc key) =
      ((keyForget gone now (acc.1.active.get? key)).1,
       (keyView key acc).2 ++ (keyForget gone now (acc.1.active.get? key)).2) := by
  obtain ⟨m', cleared⟩ := acc
  simp only [forgetKey]
  cases hget : m'.active.get? key with
  | none => simp [keyView, keyForget, hget]
  | some active =>
    have he := hk key active hget
    by_cases hgone : (active.detection.trackIds.any (· ∈ gone)) = true
    · simp only [if_pos hgone, keyForget]
      simp [keyView, he, List.filter_append]
    · simp only [if_neg hgone, keyForget]
      simp [keyView, hget]

/-! ### The current detections -/

/-- The latest detection of a key in one scan: the last one in the list. -/
def latestIn (detections : List Detection) (key : String) : Option Detection :=
  detections.reverse.find? (fun d => d.key = key)

theorem latestIn_key {detections : List Detection} {d : Detection}
    (h : latestIn detections key = some d) : d.key = key := by
  simpa using List.find?_some h

theorem get?_currentByKey (detections : List Detection) (key : String) :
    (currentByKey detections).get? key = latestIn detections key := by
  suffices h : ∀ (l : List Detection) (d : Dict String Detection),
      (l.foldl (fun d x => d.set x.key x) d).get? key = (latestIn l key).or (d.get? key) by
    rw [currentByKey, h, Dict.get?_empty, Option.or_none]
  intro l
  induction l with
  | nil => intro d; rfl
  | cons x l ih =>
    intro d
    rw [List.foldl_cons, ih, latestIn, latestIn, List.reverse_cons, List.find?_append, Option.or_assoc,
      Dict.get?_set]
    congr 1
    by_cases hx : key = x.key
    · simp [hx]
    · have hx' : ¬ x.key = key := fun h => hx h.symm
      simp [hx, hx']

/-! ### The two calls, key by key -/

theorem key_of_mem_currentByKey {detections : List Detection} {entry : String × Detection}
    (he : entry ∈ (currentByKey detections).items) : entry.2.key = entry.1 := by
  have hget : (currentByKey detections).get? entry.1 = some entry.2 := Dict.get?_eq_some_iff.mpr he
  rw [get?_currentByKey] at hget
  exact latestIn_key hget

theorem current_touches (uuid4 : ℕ → String) (now : Instant) (detections : List Detection) :
    ∀ entry ∈ (currentByKey detections).items,
      TouchesOnlyOwnKey (Extends m) keyView (raiseOrSustain uuid4 now) Prod.fst entry :=
  fun _ he => raiseOrSustain_touches uuid4 now (key_of_mem_currentByKey he)

theorem reconcile_extends (hk : m.Keyed) (detections : List Detection) :
    Extends m (reconcile uuid4 m detections now) :=
  inv_foldl (missOrClear_touches _ now _) (inv_foldl (current_touches uuid4 now detections)
    ⟨hk, le_rfl, rfl, rfl⟩)

theorem forget_extends (hk : m.Keyed) (gone : List String) : Extends m (forget m gone now) :=
  inv_foldl (forgetKey_touches gone now _) ⟨hk, le_rfl, rfl, rfl⟩

/-- The loop over the detections runs the machine of every detected key. -/
theorem keyView_raised (uuid4 : ℕ → String) (now : Instant) {d : Detection} (hk : m.Keyed)
    {detections : List Detection} (h : latestIn detections key = some d) :
    ∃ i, m.drawn ≤ i ∧
      (m.active.get? key = none →
        i < ((currentByKey detections).items.foldl (raiseOrSustain uuid4 now) (m, [])).1.drawn) ∧
      keyView key ((currentByKey detections).items.foldl (raiseOrSustain uuid4 now) (m, [])) =
        keyReconcile m.clearAfterScans m.sustainIntervalS (uuid4 i) now (some d)
          (m.active.get? key) := by
  have hget : (currentByKey detections).get? key = some d := by rw [get?_currentByKey, h]
  obtain ⟨l₁, l₂, hl, hinv, hbefore, hafter⟩ := view_foldl_of_mem (current_touches uuid4 now detections)
    (⟨hk, le_rfl, rfl, rfl⟩ : Extends m (m, [])) (currentByKey detections).nodup
    (Dict.get?_eq_some_iff.mp hget)
  set s₁ := l₁.foldl (raiseOrSustain uuid4 now) (m, []) with hs₁
  have hrecord : s₁.1.active.get? key = m.active.get? key := congrArg Prod.fst hbefore
  have hsilent : (keyView key s₁).2 = [] := congrArg Prod.snd hbefore
  refine ⟨s₁.1.drawn, hinv.drawn, fun hnone => ?_, ?_⟩
  · have hstep : (raiseOrSustain uuid4 now s₁ (key, d)).1.drawn = s₁.1.drawn + 1 := by
      simp only [raiseOrSustain, hrecord, hnone]
    have hmem : (key, d) ∈ (currentByKey detections).items := by rw [hl]; simp
    have hkeyed := (current_touches uuid4 now detections _ hmem s₁ hinv).1.keyed
    have hrest : Extends (raiseOrSustain uuid4 now s₁ (key, d)).1
        (l₂.foldl (raiseOrSustain uuid4 now) (raiseOrSustain uuid4 now s₁ (key, d))) :=
      inv_foldl (fun e he => current_touches uuid4 now detections e (by rw [hl]; simp [he]))
        ⟨hkeyed, le_rfl, rfl, rfl⟩
    rw [hl, List.foldl_append, List.foldl_cons, ← hs₁]
    exact lt_of_lt_of_le (by rw [hstep]; exact Nat.lt_succ_self _) hrest.drawn
  · rw [hafter]
    simp only
    rw [keyView_raiseOrSustain (latestIn_key h), hsilent, hrecord, hinv.clearAfterScans,
      hinv.sustainIntervalS, List.nil_append]

/-- The loop over the active keys leaves a detected key alone. -/
theorem keyView_missLoop_detected {current : Dict String Detection} (h : key ∈ current.keys)
    {acc : AlertManager × List Alert} (hk : acc.1.Keyed) :
    keyView key (acc.1.active.keys.foldl (missOrClear current now) acc) = keyView key acc := by
  have hinv : Extends acc.1 acc := ⟨hk, le_rfl, rfl, rfl⟩
  by_cases hmem : key ∈ acc.1.active.keys
  · obtain ⟨l₁, l₂, -, -, hbefore, hafter⟩ := view_foldl_of_mem
      (missOrClear_touches current now acc.1.active.keys) hinv
      (by rw [List.map_id]; exact acc.1.active.nodup) hmem
    simp only [id] at hbefore hafter
    rw [hafter, missOrClear_detected h]
    exact hbefore
  · exact view_foldl_of_notMem (missOrClear_touches current now acc.1.active.keys) hinv
      (by simpa using hmem)

/-- The loop over the active keys runs the machine of every undetected key. -/
theorem keyView_missLoop_missed {current : Dict String Detection} (h : key ∉ current.keys)
    {acc : AlertManager × List Alert} (hk : acc.1.Keyed) (fresh : String) :
    keyView key (acc.1.active.keys.foldl (missOrClear current now) acc) =
      ((keyReconcile acc.1.clearAfterScans acc.1.sustainIntervalS fresh now none
        (acc.1.active.get? key)).1,
       (keyView key acc).2 ++ (keyReconcile acc.1.clearAfterScans acc.1.sustainIntervalS fresh now none
        (acc.1.active.get? key)).2) := by
  have hinv : Extends acc.1 acc := ⟨hk, le_rfl, rfl, rfl⟩
  by_cases hmem : key ∈ acc.1.active.keys
  · obtain ⟨l₁, l₂, -, hinv₁, hbefore, hafter⟩ := view_foldl_of_mem
      (missOrClear_touches current now acc.1.active.keys) hinv
      (by rw [List.map_id]; exact acc.1.active.nodup) hmem
    have hrecord := congrArg Prod.fst hbefore
    simp only [keyView, id] at hrecord
    simp only [id] at hbefore hafter
    rw [hafter, keyView_missOrClear hinv₁.keyed h fresh, hbefore, hrecord, hinv₁.clearAfterScans,
      hinv₁.sustainIntervalS]
  · rw [view_foldl_of_notMem (missOrClear_touches current now acc.1.active.keys) hinv
      (by simpa using hmem)]
    simp [keyView, keyReconcile, Dict.get?_eq_none_iff.mpr hmem]

/-- On every key `reconcile` runs the machine of that key; the identifier it may use is one drawn in
    this call. -/
theorem keyView_reconcile (uuid4 : ℕ → String) (now : Instant) (hk : m.Keyed)
    (detections : List Detection) (key : String) :
    ∃ i, m.drawn ≤ i ∧
      (m.active.get? key = none → latestIn detections key ≠ none →
        i < (reconcile uuid4 m detections now).1.drawn) ∧
      keyView key (reconcile uuid4 m detections now) =
        keyReconcile m.clearAfterScans m.sustainIntervalS (uuid4 i) now (latestIn detections key)
          (m.active.get? key) := by
  set raised := (currentByKey detections).items.foldl (raiseOrSustain uuid4 now) (m, []) with hraised
  have hr : Extends m raised :=
    inv_foldl (current_touches uuid4 now detections) (⟨hk, le_rfl, rfl, rfl⟩ : Extends m (m, []))
  have hrec : reconcile uuid4 m detections now =
      raised.1.active.keys.foldl (missOrClear (currentByKey detections) now) raised := rfl
  cases hlatest : latestIn detections key with
  | some d =>
    have hmem : key ∈ (currentByKey detections).keys :=
      Dict.mem_keys_iff.mpr ⟨d, by rw [get?_currentByKey, hlatest]⟩
    obtain ⟨i, hi, hdrawn, hview⟩ := keyView_raised uuid4 now hk hlatest
    have hmissed : Extends raised.1
        (raised.1.active.keys.foldl (missOrClear (currentByKey detections) now) raised) :=
      inv_foldl (missOrClear_touches _ now _) ⟨hr.keyed, le_rfl, rfl, rfl⟩
    refine ⟨i, hi, fun hnone _ => (hdrawn hnone).trans_le hmissed.drawn, ?_⟩
    rw [hrec, keyView_missLoop_detected hmem hr.keyed, hview]
  | none =>
    have hmem : key ∉ (currentByKey detections).keys := by
      rw [← Dict.get?_eq_none_iff, get?_currentByKey, hlatest]
    have hview : keyView key raised = (m.active.get? key, []) :=
      view_foldl_of_notMem (current_touches uuid4 now detections) (⟨hk, le_rfl, rfl, rfl⟩ : Extends m (m, []))
        hmem
    refine ⟨m.drawn, le_rfl, fun _ h => absurd rfl h, ?_⟩
    rw [hrec, keyView_missLoop_missed hmem hr.keyed (uuid4 m.drawn), congrArg Prod.snd hview,
      show raised.1.active.get? key = m.active.get? key from congrArg Prod.fst hview,
      hr.clearAfterScans, hr.sustainIntervalS, List.nil_append]

/-- On every key `forget` runs the machine of that key. -/
theorem keyView_forget (now : Instant) (hk : m.Keyed) (gone : List String) (key : String) :
    keyView key (forget m gone now) = keyForget gone now (m.active.get? key) := by
  have hinv : Extends m (m, []) := ⟨hk, le_rfl, rfl, rfl⟩
  by_cases hmem : key ∈ m.active.keys
  · obtain ⟨l₁, l₂, -, hinv₁, hbefore, hafter⟩ := view_foldl_of_mem
      (forgetKey_touches gone now m.active.keys) hinv
      (by rw [List.map_id]; exact m.active.nodup) hmem
    have hrecord := congrArg Prod.fst hbefore
    simp only [keyView, id] at hrecord
    simp only [id] at hbefore hafter
    rw [forget, hafter, keyView_forgetKey hinv₁.keyed, hbefore, hrecord]
    simp [keyView]
  · rw [forget, view_foldl_of_notMem (forgetKey_touches gone now m.active.keys) hinv
      (by simpa using hmem)]
    simp [keyView, keyForget, Dict.get?_eq_none_iff.mpr hmem]

end AlertManager

end Airspace
