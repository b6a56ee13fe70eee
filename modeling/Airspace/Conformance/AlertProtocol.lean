import Airspace.Conformance.AlertHistory
import Airspace.Storage.LiveAlerts
import Mathlib.Data.Set.Function
import Mathlib.Tactic.IntervalCases

/-! The published alert stream as a protocol.

    The alerts of one key are a sequence of episodes, each a NEW, any number of SUSTAINED and, unless it
    is the one still open, a CLEARED, under one identifier. The store that folds the stream holds the
    open episode of every key and nothing else. -/

namespace Airspace

/-- The alerts of one life of a condition, under one identifier and one raise time. -/
structure Episode where
  alertId : String
  raisedAt : Instant
  sustained : ℕ
  finished : Bool
  messages : List Alert
  states : messages.map Alert.state =
    .new :: List.replicate sustained .sustained ++ if finished then [.cleared] else []
  ids : ∀ a ∈ messages, a.alertId = alertId
  raised : ∀ a ∈ messages, a.raisedAt = raisedAt

namespace Episode

/-- What a consumer that keeps the last alert holds of an episode. -/
def live (e : Episode) : Option (String × Instant) :=
  if e.finished then none else some (e.alertId, e.raisedAt)

/-- An episode opens with its NEW. -/
def opened (a : Alert) (h : a.state = .new) : Episode where
  alertId := a.alertId
  raisedAt := a.raisedAt
  sustained := 0
  finished := false
  messages := [a]
  states := by simp [h]
  ids := by simp
  raised := by simp

/-- A heartbeat under the same identifier continues an open episode. -/
def sustain (e : Episode) (ho : e.finished = false) (a : Alert) (hs : a.state = .sustained)
    (hi : a.alertId = e.alertId) (hr : a.raisedAt = e.raisedAt) : Episode where
  alertId := e.alertId
  raisedAt := e.raisedAt
  sustained := e.sustained + 1
  finished := false
  messages := e.messages ++ [a]
  states := by
    rw [List.map_append, e.states, ho]
    simp [hs, List.replicate_succ']
  ids := by simpa [or_imp, forall_and, hi] using e.ids
  raised := by simpa [or_imp, forall_and, hr] using e.raised

/-- A CLEARED under the same identifier ends an open episode. -/
def close (e : Episode) (ho : e.finished = false) (a : Alert) (hs : a.state = .cleared)
    (hi : a.alertId = e.alertId) (hr : a.raisedAt = e.raisedAt) : Episode where
  alertId := e.alertId
  raisedAt := e.raisedAt
  sustained := e.sustained
  finished := true
  messages := e.messages ++ [a]
  states := by
    rw [List.map_append, e.states, ho]
    simp [hs]
  ids := by simpa [or_imp, forall_and, hi] using e.ids
  raised := by simpa [or_imp, forall_and, hr] using e.raised

/-- The alert a consumer keeps after an episode is the last one of it. -/
theorem foldl_keyApply (e : Episode) (before : Option Alert) :
    (e.messages.foldl LiveAlertStore.keyApply before).map (fun a => (a.alertId, a.raisedAt)) =
      e.live := by
  rcases List.eq_nil_or_concat e.messages with hnil | ⟨l, a, hl⟩
  · have h := e.states
    rw [hnil] at h
    simp at h
  rw [List.concat_eq_append] at hl
  have hlast : (e.messages.map Alert.state).getLast? = some a.state := by
    rw [hl, List.map_append, List.map_singleton, List.getLast?_concat]
  rw [hl, List.foldl_append, List.foldl_cons, List.foldl_nil, LiveAlertStore.keyApply, live]
  rw [e.states] at hlast
  cases ho : e.finished with
  | true =>
    rw [ho, if_pos rfl, List.getLast?_concat] at hlast
    rw [← Option.some.inj hlast]
    rfl
  | false =>
    have hstate : a.state ≠ .cleared := by
      have hmem := List.mem_of_getLast? hlast
      simp only [ho, Bool.false_eq_true, if_false, List.append_nil, List.mem_cons,
        List.mem_replicate] at hmem
      rcases hmem with h | ⟨-, h⟩ <;> rw [h] <;> simp
    have hmem : a ∈ e.messages := by rw [hl]; simp
    rw [if_neg hstate, Option.map_some, e.ids a hmem, e.raised a hmem]
    rfl

/-- The alerts of several episodes leave what the last of them leaves. -/
theorem foldl_keyApply_flatten (episodes : List Episode) (e : Episode) (before : Option Alert) :
    ((((episodes ++ [e]).map messages).flatten).foldl LiveAlertStore.keyApply before).map
      (fun a => (a.alertId, a.raisedAt)) = e.live := by
  rw [List.map_append, List.flatten_append, List.foldl_append, List.map_singleton, List.flatten_singleton]
  exact e.foldl_keyApply _

end Episode

namespace AlertManager

variable {uuid4 : ℕ → String} {m : AlertManager} {key : String}

/-- What the stream of a key looks like beside the key's record: closed episodes under identifiers
    drawn one after the other, then the open episode of the record if there is one. -/
def StreamOf (uuid4 : ℕ → String) (drawn : ℕ) (stream : List Alert) (record : Option Active) : Prop :=
  ∃ (closed : List Episode) (ids : List ℕ), (∀ e ∈ closed, e.finished = true) ∧
    closed.map Episode.alertId = ids.map uuid4 ∧ ids.Nodup ∧ (∀ i ∈ ids, i < drawn) ∧
    match record with
    | none => stream = (closed.map Episode.messages).flatten
    | some a => ∃ (e : Episode) (i : ℕ), e.finished = false ∧ e.alertId = a.alertId ∧
        e.raisedAt = a.raisedAt ∧ e.alertId = uuid4 i ∧ i < drawn ∧ i ∉ ids ∧
        stream = ((closed ++ [e]).map Episode.messages).flatten

/-- One call appends to the stream what keeps it in step with the record. -/
theorem streamOf_keyCall {drawn drawn' i : ℕ} {stream : List Alert} {record : Option Active} (c : Call)
    (h : StreamOf uuid4 drawn stream record) (hdrawn : drawn ≤ drawn') (hi : drawn ≤ i)
    (hfresh : record = none → (keyCall m (uuid4 i) key c record).1 ≠ none → i < drawn') :
    StreamOf uuid4 drawn' (stream ++ (keyCall m (uuid4 i) key c record).2)
      (keyCall m (uuid4 i) key c record).1 := by
  obtain ⟨closed, ids, hover, hids, hnodup, hlt, hstream⟩ := h
  have hlt' : ∀ j ∈ ids, j < drawn' := fun j hj => (hlt j hj).trans_le hdrawn
  rcases keyCall_cases m (uuid4 i) key c record with ⟨rfl, hcall⟩ | ⟨a, now, rfl, haid, har, hcall⟩ |
    ⟨a, a', rfl, haid, har, hcall | ⟨b, now, hbid, hbr, hcall⟩⟩ | ⟨a, now, rfl, hcall⟩
  · rw [hcall]
    exact ⟨closed, ids, hover, hids, hnodup, hlt', by simpa using hstream⟩
  · rw [hcall] at hfresh ⊢
    refine ⟨closed, ids, hover, hids, hnodup, hlt', Episode.opened (render a a.detection .new now) rfl, i,
      rfl, rfl, rfl, haid, hfresh rfl (by simp), fun hmem => absurd (hlt i hmem) (not_lt.mpr hi), ?_⟩
    simp [hstream, Episode.opened]
  · rw [hcall]
    obtain ⟨e, j, ho, heid, her, huuid, hj, hnot, rfl⟩ := hstream
    exact ⟨closed, ids, hover, hids, hnodup, hlt', e, j, ho, heid.trans haid.symm, her.trans har.symm,
      huuid, hj.trans_le hdrawn, hnot, by simp⟩
  · rw [hcall]
    obtain ⟨e, j, ho, heid, her, huuid, hj, hnot, rfl⟩ := hstream
    refine ⟨closed, ids, hover, hids, hnodup, hlt',
      e.sustain ho (render b b.detection .sustained now) rfl (hbid.trans heid.symm) (hbr.trans her.symm),
      j, rfl, heid.trans haid.symm, her.trans har.symm, huuid, hj.trans_le hdrawn, hnot, ?_⟩
    simp [Episode.sustain]
  · rw [hcall]
    obtain ⟨e, j, ho, heid, her, huuid, hj, hnot, rfl⟩ := hstream
    refine ⟨closed ++ [e.close ho (render a a.detection .cleared now) rfl heid.symm her.symm],
      ids ++ [j], ?_, ?_, ?_, ?_, ?_⟩
    · intro e' he'
      rcases List.mem_append.mp he' with he' | he'
      · exact hover e' he'
      · rw [List.mem_singleton.mp he']; rfl
    · rw [List.map_append, List.map_append, hids]
      simp [Episode.close, huuid]
    · exact List.nodup_append.mpr ⟨hnodup, List.nodup_singleton j, by
        rintro x hx y hy rfl; exact hnot (List.mem_singleton.mp hy ▸ hx)⟩
    · intro x hx
      rcases List.mem_append.mp hx with hx | hx
      · exact hlt' x hx
      · rw [List.mem_singleton.mp hx]; exact hj.trans_le hdrawn
    · simp [Episode.close]

/-- Along a run every key's stream is in step with its record. -/
theorem streamOf_run (hm : m.Keyed) (hempty : m.active.get? key = none) (calls : List Call) :
    StreamOf uuid4 (run uuid4 m calls).1.drawn
      ((run uuid4 m calls).2.filter fun a => a.alertKey = key) ((run uuid4 m calls).1.active.get? key) := by
  induction calls using List.reverseRecOn with
  | nil =>
    rw [show (run uuid4 m []).1 = m from rfl, hempty]
    exact ⟨[], [], by simp, rfl, List.nodup_nil, by simp, rfl⟩
  | append_singleton calls c ih =>
    have hkeyed := (run_extends uuid4 hm calls).keyed
    obtain ⟨i, hi, hdrawn, hview⟩ := keyView_call uuid4 hkeyed c key
    have hrecord : (call uuid4 (run uuid4 m calls).1 c).1.active.get? key = _ := congrArg Prod.fst hview
    have halerts : (call uuid4 (run uuid4 m calls).1 c).2.filter (fun a => a.alertKey = key) = _ :=
      congrArg Prod.snd hview
    rw [hrecord] at hdrawn
    rw [run_concat, List.filter_append, hrecord, halerts]
    exact streamOf_keyCall c ih (call_extends uuid4 hkeyed c).drawn hi hdrawn

/-! ### Identifiers across keys -/

/-- Every identifier in use was drawn for one key, which its records and its alerts carry. -/
def Owned (uuid4 : ℕ → String) (m : AlertManager) (stream : List Alert) : Prop :=
  ∃ owner : ℕ → String,
    (∀ key a, m.active.get? key = some a → ∃ i < m.drawn, a.alertId = uuid4 i ∧ owner i = key) ∧
    ∀ a ∈ stream, ∃ i < m.drawn, a.alertId = uuid4 i ∧ owner i = a.alertKey

variable {stream : List Alert} {a a' : Active} {alert : Alert}

theorem Owned.publish (h : Owned uuid4 m stream) (hget : m.active.get? key = some a) (alert : Alert)
    (hid : alert.alertId = a.alertId) (hkey : alert.alertKey = key) :
    Owned uuid4 m (stream ++ [alert]) := by
  obtain ⟨owner, hactive, hstream⟩ := h
  refine ⟨owner, hactive, fun b hb => ?_⟩
  rcases List.mem_append.mp hb with hb | hb
  · exact hstream b hb
  · rw [List.mem_singleton.mp hb, hid, hkey]
    exact hactive key a hget

theorem Owned.replace (h : Owned uuid4 m stream) (hget : m.active.get? key = some a)
    (hid : a'.alertId = a.alertId) :
    Owned uuid4 { m with active := m.active.set key a' } stream := by
  obtain ⟨owner, hactive, hstream⟩ := h
  refine ⟨owner, fun k b hb => ?_, hstream⟩
  rw [Dict.get?_set] at hb
  split_ifs at hb with hk
  · cases hb
    rw [hid, hk]
    exact hactive key a hget
  · exact hactive k b hb

theorem Owned.drop (h : Owned uuid4 m stream) :
    Owned uuid4 { m with active := m.active.erase key } stream := by
  obtain ⟨owner, hactive, hstream⟩ := h
  refine ⟨owner, fun k b hb => ?_, hstream⟩
  rw [Dict.get?_erase] at hb
  split_ifs at hb
  exact hactive k b hb

theorem Owned.draw (h : Owned uuid4 m stream) (hid : a.alertId = uuid4 m.drawn)
    (haid : alert.alertId = a.alertId) (hkey : alert.alertKey = key) :
    Owned uuid4 { m with active := m.active.set key a, drawn := m.drawn + 1 } (stream ++ [alert]) := by
  obtain ⟨owner, hactive, hstream⟩ := h
  have hkeep : ∀ i < m.drawn, Function.update owner m.drawn key i = owner i :=
    fun i hi => Function.update_of_ne hi.ne _ _
  refine ⟨Function.update owner m.drawn key, fun k b hb => ?_, fun b hb => ?_⟩
  · rw [Dict.get?_set] at hb
    split_ifs at hb with hk
    · cases hb
      exact ⟨m.drawn, Nat.lt_succ_self _, hid, by rw [Function.update_self, hk]⟩
    · obtain ⟨i, hi, hb, ho⟩ := hactive k b hb
      exact ⟨i, Nat.lt_succ_of_lt hi, hb, by rw [hkeep i hi, ho]⟩
  · rcases List.mem_append.mp hb with hb | hb
    · obtain ⟨i, hi, hb, ho⟩ := hstream b hb
      exact ⟨i, Nat.lt_succ_of_lt hi, hb, by rw [hkeep i hi, ho]⟩
    · rw [List.mem_singleton.mp hb]
      exact ⟨m.drawn, Nat.lt_succ_self _, by rw [haid, hid], by rw [Function.update_self, hkey]⟩

theorem owned_raiseOrSustain {now : Instant} {acc : AlertManager × List Alert}
    {entry : String × Detection} (he : entry.2.key = entry.1) (h : Owned uuid4 acc.1 (stream ++ acc.2)) :
    Owned uuid4 (raiseOrSustain uuid4 now acc entry).1
      (stream ++ (raiseOrSustain uuid4 now acc entry).2) := by
  obtain ⟨m, published⟩ := acc
  obtain ⟨key, detection⟩ := entry
  simp only [raiseOrSustain]
  cases hget : m.active.get? key with
  | none =>
    rw [← List.append_assoc]
    exact h.draw rfl rfl he
  | some a =>
    simp only
    split_ifs
    · rw [← List.append_assoc]
      exact (h.publish hget (render _ detection .sustained now) rfl he).replace hget rfl
    · exact h.replace hget rfl

theorem owned_missOrClear {now : Instant} {acc : AlertManager × List Alert}
    {current : Dict String Detection} (hk : acc.1.Keyed) (h : Owned uuid4 acc.1 (stream ++ acc.2)) :
    Owned uuid4 (missOrClear current now acc key).1
      (stream ++ (missOrClear current now acc key).2) := by
  obtain ⟨m, published⟩ := acc
  simp only [missOrClear]
  by_cases hcur : key ∈ current.keys
  · rw [if_pos hcur]; exact h
  rw [if_neg hcur]
  cases hget : m.active.get? key with
  | none => exact h
  | some a =>
    simp only
    split_ifs
    · rw [← List.append_assoc]
      exact (h.publish hget (render _ a.detection .cleared now) rfl (hk key a hget)).drop
    · exact h.replace hget rfl

theorem owned_forgetKey {now : Instant} {acc : AlertManager × List Alert} {gone : List String}
    (hk : acc.1.Keyed) (h : Owned uuid4 acc.1 (stream ++ acc.2)) :
    Owned uuid4 (forgetKey gone now acc key).1 (stream ++ (forgetKey gone now acc key).2) := by
  obtain ⟨m, published⟩ := acc
  simp only [forgetKey]
  cases hget : m.active.get? key with
  | none => exact h
  | some a =>
    simp only
    split_ifs
    · rw [← List.append_assoc]
      exact (h.publish hget (render _ a.detection .cleared now) rfl (hk key a hget)).drop
    · exact h

theorem owned_call (hm : m.Keyed) (h : Owned uuid4 m stream) (c : Call) :
    Owned uuid4 (call uuid4 m c).1 (stream ++ (call uuid4 m c).2) := by
  have hstart : m.Keyed ∧ Owned uuid4 m (stream ++ ([] : List Alert)) := ⟨hm, by rwa [List.append_nil]⟩
  cases c with
  | reconcile detections now =>
    have hraised := List.foldlRecOn (currentByKey detections).items (raiseOrSustain uuid4 now)
      (b := (m, [])) (motive := fun acc => acc.1.Keyed ∧ Owned uuid4 acc.1 (stream ++ acc.2)) hstart
      fun acc hacc e he => ⟨(current_touches uuid4 now detections e he acc
        ⟨hacc.1, le_rfl, rfl, rfl⟩).1.keyed, owned_raiseOrSustain (key_of_mem_currentByKey he) hacc.2⟩
    exact (List.foldlRecOn _ (missOrClear (currentByKey detections) now)
      (motive := fun acc => acc.1.Keyed ∧ Owned uuid4 acc.1 (stream ++ acc.2)) hraised
      fun acc hacc key hkey => ⟨(missOrClear_touches _ now _ key hkey acc
        ⟨hacc.1, le_rfl, rfl, rfl⟩).1.keyed, owned_missOrClear hacc.1 hacc.2⟩).2
  | forget trackIds now =>
    exact (List.foldlRecOn _ (forgetKey trackIds now) (b := (m, []))
      (motive := fun acc => acc.1.Keyed ∧ Owned uuid4 acc.1 (stream ++ acc.2)) hstart
      fun acc hacc key hkey => ⟨(forgetKey_touches trackIds now _ key hkey acc
        ⟨hacc.1, le_rfl, rfl, rfl⟩).1.keyed, owned_forgetKey hacc.1 hacc.2⟩).2

theorem owned_run (uuid4 : ℕ → String) (hm : m.Keyed) (hempty : m.active = Dict.empty) (calls : List Call) :
    Owned uuid4 (run uuid4 m calls).1 (run uuid4 m calls).2 := by
  induction calls using List.reverseRecOn with
  | nil =>
    refine ⟨fun _ => "", fun key a h => ?_, fun a h => by cases h⟩
    rw [show (run uuid4 m []).1 = m from rfl, hempty, Dict.get?_empty] at h
    cases h
  | append_singleton calls c ih =>
    rw [run_concat]
    exact owned_call (run_extends uuid4 hm calls).keyed ih c

/-! ### The stream and its consumer -/

/-- The episodes of a stream and what they leave in the store. -/
theorem StreamOf.episodes {drawn : ℕ} {record : Option Active} (h : StreamOf uuid4 drawn stream record)
    (hfresh : Set.InjOn uuid4 (Set.Iio drawn)) :
    ∃ episodes : List Episode, stream = (episodes.map Episode.messages).flatten ∧
      (∀ e ∈ episodes.dropLast, e.finished = true) ∧ (episodes.map Episode.alertId).Nodup ∧
      (stream.foldl LiveAlertStore.keyApply none).map (fun a => (a.alertId, a.raisedAt)) =
        record.map fun a => (a.alertId, a.raisedAt) := by
  obtain ⟨closed, ids, hover, hids, hnodup, hlt, hstream⟩ := h
  have hclosed : (closed.map Episode.alertId).Nodup := by
    rw [hids]
    exact List.Nodup.map_on (fun x hx y hy => hfresh (hlt x hx) (hlt y hy)) hnodup
  cases record with
  | none =>
    subst hstream
    refine ⟨closed, rfl, fun e he => hover e (List.dropLast_subset _ he), hclosed, ?_⟩
    rcases List.eq_nil_or_concat closed with rfl | ⟨l, e, rfl⟩
    · rfl
    · rw [List.concat_eq_append, Episode.foldl_keyApply_flatten, Episode.live,
        if_pos (hover e (by simp))]
      rfl
  | some a =>
    obtain ⟨e, i, ho, heid, her, huuid, hi, hnot, rfl⟩ := hstream
    refine ⟨closed ++ [e], rfl, ?_, ?_, ?_⟩
    · rw [List.dropLast_concat]; exact hover
    · rw [List.map_append, List.map_singleton]
      refine List.nodup_append.mpr ⟨hclosed, List.nodup_singleton _, ?_⟩
      rintro x hx y hy rfl
      rw [hids] at hx
      obtain ⟨j, hj, hx⟩ := List.mem_map.mp hx
      rw [List.mem_singleton.mp hy, huuid] at hx
      exact hnot (hfresh (hlt j hj) hi hx ▸ hj)
    · rw [Episode.foldl_keyApply_flatten, Episode.live, ho, heid, her]
      rfl

/-- The published stream is a protocol and carries the active set. While the identifiers drawn are
    distinct, the alerts of a key are episodes under distinct identifiers of which only the last may be
    open, no identifier serves two keys, and the store that folds the stream holds for every key the
    identifier and raise time of its record and lists exactly those entries. -/
theorem stream_is_protocol (uuid4 : ℕ → String) (k : ℕ) (sustainIntervalS : ℚ) (calls : List Call)
    (hfresh : Set.InjOn uuid4
      (Set.Iio (run uuid4 { clearAfterScans := k, sustainIntervalS } calls).1.drawn)) :
    let out := run uuid4 { clearAfterScans := k, sustainIntervalS } calls
    let store := LiveAlertStore.apply {} out.2
    (∀ key, ∃ episodes : List Episode,
      out.2.filter (fun a => a.alertKey = key) = (episodes.map Episode.messages).flatten ∧
      (∀ e ∈ episodes.dropLast, e.finished = true) ∧ (episodes.map Episode.alertId).Nodup) ∧
    (∀ a ∈ out.2, ∀ b ∈ out.2, a.alertId = b.alertId → a.alertKey = b.alertKey) ∧
    (∀ key, (store.entries.get? (LiveAlertStore.entryKey key)).map (fun a => (a.alertId, a.raisedAt)) =
      (out.1.active.get? key).map fun a => (a.alertId, a.raisedAt)) ∧
    ∀ a, a ∈ store.active.1 ↔ store.entries.get? (LiveAlertStore.entryKey a.alertKey) = some a := by
  intro out store
  have hstream : ∀ key, StreamOf uuid4 out.1.drawn (out.2.filter fun a => a.alertKey = key)
      (out.1.active.get? key) := fun key => streamOf_run keyed_empty rfl calls
  refine ⟨fun key => ?_, ?_, fun key => ?_, fun a => ?_⟩
  · obtain ⟨episodes, h, hover, hnodup, -⟩ := (hstream key).episodes hfresh
    exact ⟨episodes, h, hover, hnodup⟩
  · obtain ⟨owner, -, howner⟩ := owned_run uuid4 keyed_empty rfl calls
    intro a ha b hb hid
    obtain ⟨i, hi, hai, hia⟩ := howner a ha
    obtain ⟨j, hj, hbj, hjb⟩ := howner b hb
    rw [← hia, ← hjb, hfresh hi hj (by rw [← hai, ← hbj, hid])]
  · obtain ⟨-, -, -, -, hlive⟩ := (hstream key).episodes hfresh
    rw [LiveAlertStore.get?_apply]
    exact hlive
  · exact LiveAlertStore.mem_active_iff (LiveAlertStore.indexed_empty.apply out.2)

/-- Two identifiers as the process draws them. -/
def twoUuids : ℕ → String
  | 0 => "6f1c2d0a-3b9e-4d57-9a41-0c8e5b7f2d13"
  | _ => "c2a94e71-58d0-4f3b-8e26-91b7d4a05f6c"

/-- A pair that is raised, missed and raised again. -/
def raisedTwice : List Call :=
  [.reconcile [pairDetection "A" "B"] 0, .reconcile [] 1, .reconcile [pairDetection "A" "B"] 2]

theorem drawn_raisedTwice :
    (run twoUuids { clearAfterScans := 1, sustainIntervalS := 10 } raisedTwice).1.drawn = 2 := by
  decide +kernel

theorem twoUuids_injOn : Set.InjOn twoUuids (Set.Iio 2) := by
  intro i hi j hj h
  simp only [Set.mem_Iio] at hi hj
  interval_cases i <;> interval_cases j <;> simp_all [twoUuids]

/-- The pair's alerts are two episodes under two identifiers. -/
theorem stream_is_protocol_raisedTwice :
    Set.InjOn twoUuids (Set.Iio 2) ∧ ∃ episodes : List Episode,
      (run twoUuids { clearAfterScans := 1, sustainIntervalS := 10 } raisedTwice).2.filter
        (fun a => a.alertKey = (pairDetection "A" "B").key) = (episodes.map Episode.messages).flatten ∧
      (∀ e ∈ episodes.dropLast, e.finished = true) ∧ (episodes.map Episode.alertId).Nodup :=
  ⟨twoUuids_injOn, (stream_is_protocol twoUuids 1 10 raisedTwice (by
    rw [drawn_raisedTwice]; exact twoUuids_injOn)).1 (pairDetection "A" "B").key⟩

end AlertManager

end Airspace
