import Airspace.Lib.IndexedStore
import Airspace.Storage.LiveAlerts
import Airspace.Storage.LiveTracks
import Mathlib.Data.List.Sort

/-! The live stores, shared (`acp.storage.stores.LiveTrackStore`, `LiveAlertStore`).

    Writers and readers of the picture and of the alerts are clients of one Redis. Their pipelines are not
    transactions, so their commands interleave, and a reader tidies the index from a lookup it made two
    commands earlier: what it takes out may have been written again since. -/

namespace Airspace

noncomputable section

open IndexedStore

namespace LiveTrackStore

/-- `ZRANGEBYSCORE`: the lowest score first, equal scores by member. -/
def zrange (index : Dict String Instant) : List String :=
  (index.items.insertionSort fun a b => a.2 < b.2 ∨ (a.2 = b.2 ∧ a.1 ≤ b.1)).map Prod.fst

/-- The store and its clients. -/
def shared (ttlS : ℤ := 120) : IndexedStore String String TrackUpdate where
  keyOf := entryKey
  keyOf_injective := fun _ _ => entryKey_inj.mp
  idOf := TrackUpdate.trackId
  stampOf := TrackUpdate.updatedAt
  ttl := seconds ttlS
  listing := zrange
  listing_perm := fun index => (List.perm_insertionSort _ index.items).map Prod.fst
  ranged := true
  tidiesValue := true

def publishCall (updates : List TrackUpdate) : Call String TrackUpdate := .write (updates.map .put)

def forgetCall (trackIds : List String) : Call String TrackUpdate := .write (trackIds.map .drop)

def liveCall (since : Option Instant) : Call String TrackUpdate := .read since

/-- The picture in memory, without its deadlines. -/
def picture (m : Memory String String TrackUpdate) : LiveTrackStore where
  entries := m.values.mapValues Prod.fst
  index := m.index

/-- Only the calls of the store are begun. -/
def IsCall : Action String TrackUpdate → Prop
  | .begin _ call => (∃ updates, call = publishCall updates) ∨ (∃ trackIds, call = forgetCall trackIds) ∨
    ∃ since, call = liveCall since
  | _ => True

/-- A pipeline of `publish` leaves the picture `publish` leaves. -/
theorem picture_publish (ttlS : ℤ) (client : ℕ) (updates : List TrackUpdate)
    (m : Memory String String TrackUpdate) :
    picture ((updates.map .put).foldl ((shared ttlS).writeOne client) m) = (picture m).publish updates := by
  induction updates generalizing m with
  | nil => rfl
  | cons u updates ih =>
    rw [List.map_cons, List.foldl_cons, ih]
    refine congrArg (fun store : LiveTrackStore => store.publish updates) ?_
    simp only [picture, publishOne, writeOne, fileValue, setValue, LiveTrackStore.mk.injEq]
    exact ⟨(Dict.set_mapValues m.values Prod.fst _ _).symm, rfl⟩

/-- `publish` when nothing interrupts it. -/
theorem exec_publish (ttlS : ℤ) (c : ℕ) (updates : List TrackUpdate) (m : Memory String String TrackUpdate)
    (clients : ℕ → Phase String TrackUpdate) : ∃ s,
      (shared ttlS).machine.exec ⟨m, Function.update clients c (.writing (updates.map .put))⟩
        (List.replicate (2 * updates.length) (.run c)) = some (s, []) ∧
      picture s.memory = (picture m).publish updates := by
  have hexec := exec_writes (p := shared ttlS) (c := c) (updates.map .put) m clients
  rw [List.length_map] at hexec
  exact ⟨_, hexec, picture_publish ttlS c updates m⟩

end LiveTrackStore

namespace LiveAlertStore

/-- The store and its clients. -/
def shared (ttlS : ℤ := 300) : IndexedStore String String Alert where
  keyOf := entryKey
  keyOf_injective := fun _ _ => entryKey_inj.mp
  idOf := Alert.alertKey
  stampOf := Alert.updatedAt
  ttl := seconds ttlS
  listing := zrevrange
  listing_perm := fun index => (List.mergeSort_perm index.items _).map Prod.fst
  ranged := false
  tidiesValue := false

def writeOf (alert : Alert) : Write String Alert :=
  if alert.state = .cleared then .drop alert.alertKey else .put alert

def applyCall (alerts : List Alert) : Call String Alert := .write (alerts.map writeOf)

def activeCall : Call String Alert := .read none

/-- Only the calls of the store are begun. -/
def IsCall : Action String Alert → Prop
  | .begin _ call => (∃ alerts, call = applyCall alerts) ∨ call = activeCall
  | _ => True

/-- The active set in memory, without its deadlines. -/
def picture (m : Memory String String Alert) : LiveAlertStore where
  entries := m.values.mapValues Prod.fst
  index := m.index

/-- A pipeline of `apply` leaves the active set `apply` leaves. -/
theorem picture_apply (ttlS : ℤ) (client : ℕ) (alerts : List Alert) (m : Memory String String Alert) :
    picture ((alerts.map writeOf).foldl ((shared ttlS).writeOne client) m) = (picture m).apply alerts := by
  induction alerts generalizing m with
  | nil => rfl
  | cons a alerts ih =>
    rw [List.map_cons, List.foldl_cons, ih]
    refine congrArg (fun store : LiveAlertStore => store.apply alerts) ?_
    unfold writeOf applyOne
    split_ifs
    · simp only [picture, writeOne, forgotten, unfile, delete, LiveAlertStore.mk.injEq, and_true]
      exact (Dict.erase_mapValues m.values Prod.fst _).symm
    · simp only [picture, writeOne, fileValue, setValue, LiveAlertStore.mk.injEq]
      exact ⟨(Dict.set_mapValues m.values Prod.fst _ _).symm, rfl⟩

/-- `apply` when nothing interrupts it. -/
theorem exec_apply (ttlS : ℤ) (c : ℕ) (alerts : List Alert) (m : Memory String String Alert)
    (clients : ℕ → Phase String Alert) : ∃ s,
      (shared ttlS).machine.exec ⟨m, Function.update clients c (.writing (alerts.map writeOf))⟩
        (List.replicate (2 * alerts.length) (.run c)) = some (s, []) ∧
      picture s.memory = (picture m).apply alerts := by
  have hexec := exec_writes (p := shared ttlS) (c := c) (alerts.map writeOf) m clients
  rw [List.length_map] at hexec
  exact ⟨_, hexec, picture_apply ttlS c alerts m⟩

end LiveAlertStore

/-! ### Reads beside writes -/

/-- An update of the one track of the runs below. -/
def liveUpdate (instant : Instant) : TrackUpdate where
  trackId := "trk-abc123"
  icao24 := "abc123"
  updatedAt := instant
  lastReportAt := instant
  state := .confirmed
  lat := 0
  lon := 0
  altitudeFt := 0
  groundSpeedKt := 0
  trackDeg := 0
  verticalRateFpm := 0
  turnRateDegS := 0
  positionUncertaintyM := 0
  updateCount := 3

/-- While every step is careful, every read of the picture and of the alerts returns the entries that stand. -/
theorem reads_return_what_stands (trackTtlS alertTtlS : ℤ) :
    (∀ s log, (LiveTrackStore.shared trackTtlS).machine.Run
      (fun s a => LiveTrackStore.IsCall a ∧ (LiveTrackStore.shared trackTtlS).Careful s a) {} s log →
        ∀ r ∈ log, r.Complete) ∧
    ∀ s log, (LiveAlertStore.shared alertTtlS).machine.Run
      (fun s a => LiveAlertStore.IsCall a ∧ (LiveAlertStore.shared alertTtlS).Careful s a) {} s log →
        ∀ r ∈ log, r.Complete :=
  ⟨fun _ _ h => reads_complete (h.mono fun _ _ hallowed => hallowed.2),
    fun _ _ h => reads_complete (h.mono fun _ _ hallowed => hallowed.2)⟩

theorem reads_return_what_stands_published : ∃ s r, (LiveTrackStore.shared 120).machine.Run
    (fun s a => LiveTrackStore.IsCall a ∧ (LiveTrackStore.shared 120).Careful s a) {} s [r] ∧
    r.found = [liveUpdate 0] ∧ r.Complete := by
  have hrun : ∃ s r, (LiveTrackStore.shared 120).machine.Run
      (fun s a => LiveTrackStore.IsCall a ∧ (LiveTrackStore.shared 120).Careful s a) {} s [r] ∧
      r.found = [liveUpdate 0] := by
    have hstart : (LiveTrackStore.shared 120).machine.Run
        (fun s a => LiveTrackStore.IsCall a ∧ (LiveTrackStore.shared 120).Careful s a) {} {} [] := .start
    have hpublish := hstart.step (a := Action.begin 0 (LiveTrackStore.publishCall [liveUpdate 0]))
      ⟨Or.inl ⟨_, rfl⟩, trivial⟩ rfl
    have hset := hpublish.step (a := Action.run 0) ⟨trivial, trivial⟩ rfl
    have hfile := hset.step (a := Action.run 0)
      ⟨trivial, fun _ stamp hstamp => (Option.some.inj hstamp).ge⟩ rfl
    have hlive := hfile.step (a := Action.begin 1 (LiveTrackStore.liveCall none))
      ⟨Or.inr (.inr ⟨_, rfl⟩), trivial⟩ rfl
    have hrange := hlive.step (a := Action.run 1) ⟨trivial, trivial⟩ rfl
    exact ⟨_, _, hrange.step (a := Action.run 1) ⟨trivial, trivial⟩ rfl, rfl⟩
  obtain ⟨s, r, hrun, hfound⟩ := hrun
  exact ⟨s, r, hrun, hfound, (reads_return_what_stands 120 300).1 s [r] hrun r (List.mem_singleton_self r)⟩

/-- A read finds an entry expired, the track is published again, and the read tidies the new entry away. -/
def tidyRace : List (Action String TrackUpdate) :=
  [.begin 0 (LiveTrackStore.publishCall [liveUpdate 0]), .run 0, .run 0, .run 0, .pass 120000000,
    .begin 1 (LiveTrackStore.liveCall none), .run 1, .run 1,
    .begin 0 (LiveTrackStore.publishCall [liveUpdate (seconds 120)]), .run 0, .run 0, .run 1, .run 1,
    .begin 2 (LiveTrackStore.liveCall none), .run 2]

theorem tidied_entry_is_missed : ¬ ∀ s log, (LiveTrackStore.shared 120).machine.Run
    (fun _ a => LiveTrackStore.IsCall a) {} s log → ∀ r ∈ log, r.Complete := by
  intro h
  obtain ⟨s, log, hexec, r, hr, howed, hfound⟩ : ∃ s log,
      (LiveTrackStore.shared 120).machine.exec {} tidyRace = some (s, log) ∧ ∃ r ∈ log,
      r.owed (liveUpdate (seconds 120)) ∧ r.found = [] := by
    refine ⟨_, _, rfl, _, List.mem_cons_of_mem _ (List.mem_singleton_self _), ?_, rfl⟩
    have hstanding : (120000000 : ℤ) < 240000000 := by norm_num
    exact ⟨⟨seconds 120, ⟨rfl, hstanding⟩, fun _ t ht => by cases ht⟩, ⟨seconds 120, rfl, hstanding⟩, rfl⟩
  have hcalls : ∀ a ∈ tidyRace, LiveTrackStore.IsCall a := by simp [tidyRace, LiveTrackStore.IsCall]
  have hrun := Machine.Run.start.execAllowed (fun _ => hcalls) hexec
  have hmissed := h s log hrun r hr (liveUpdate (seconds 120)) howed
  rw [hfound] at hmissed
  cases hmissed

end

end Airspace
