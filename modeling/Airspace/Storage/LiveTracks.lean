import Airspace.Storage.Batching
import Mathlib.Data.String.Basic

/-! The live picture (`acp.storage.stores.LiveTrackStore`).

    The entries are the Redis values under `acp:track:<track_id>`, the index is the sorted set that ranks the
    ids by update time. The last write wins, so the entry of a track is its last update. The time to live of
    an entry is not modelled: nothing here expires. -/

namespace Airspace

noncomputable section

structure LiveTrackStore where
  entries : Dict String TrackUpdate := Dict.empty
  index : Dict String Instant := Dict.empty

namespace LiveTrackStore

open TrackHistoryStore

def keyPrefix : String := "acp:track:"

/-- The Redis key of a track. -/
def entryKey (trackId : String) : String := keyPrefix ++ trackId

/-- The pipeline commands of one update. -/
def publishOne (store : LiveTrackStore) (update : TrackUpdate) : LiveTrackStore where
  entries := store.entries.set (entryKey update.trackId) update
  index := store.index.set update.trackId update.updatedAt

/-- Overwrite the live entry for each track. -/
def publish (store : LiveTrackStore) (updates : List TrackUpdate) : LiveTrackStore :=
  updates.foldl publishOne store

/-- The entries and ranks are the same, whatever the order of insertion. -/
structure SamePicture (a b : LiveTrackStore) : Prop where
  entries : ∀ trackId, a.entries.get? (entryKey trackId) = b.entries.get? (entryKey trackId)
  index : ∀ trackId, a.index.get? trackId = b.index.get? trackId

variable {store : LiveTrackStore} {updates : List TrackUpdate} {trackId : String}

theorem entryKey_inj {a b : String} : entryKey a = entryKey b ↔ a = b := String.append_right_inj keyPrefix

theorem publish_append (store : LiveTrackStore) (updates later : List TrackUpdate) :
    store.publish (updates ++ later) = (store.publish updates).publish later := List.foldl_append ..

/-- Publishing batches in turn is publishing their updates. -/
theorem foldl_publish (cut : List (List TrackUpdate)) (store : LiveTrackStore) :
    cut.foldl publish store = store.publish cut.flatten := by
  induction cut generalizing store with
  | nil => rfl
  | cons batch cut ih => rw [List.foldl_cons, ih, List.flatten_cons, publish_append]

theorem get?_entries_publish (store : LiveTrackStore) (updates : List TrackUpdate) (trackId : String) :
    (store.publish updates).entries.get? (entryKey trackId) =
      (ofTrack trackId updates).getLast?.or (store.entries.get? (entryKey trackId)) :=
  (view_foldl_filter (fun id (s : LiveTrackStore) => s.entries.get? (entryKey id)) TrackUpdate.trackId
    (fun _ u => some u)
    (fun s u id => by simp [publishOne, entryKey_inj, eq_comm]) updates store trackId).trans
    (foldl_overwrite ..)

theorem get?_index_publish (store : LiveTrackStore) (updates : List TrackUpdate) (trackId : String) :
    (store.publish updates).index.get? trackId =
      ((ofTrack trackId updates).map TrackUpdate.updatedAt).getLast?.or (store.index.get? trackId) := by
  rw [← foldl_overwrite, List.foldl_map]
  exact view_foldl_filter (fun id (s : LiveTrackStore) => s.index.get? id) TrackUpdate.trackId
    (fun _ u => some u.updatedAt)
    (fun s u id => by simp [publishOne, eq_comm]) updates store trackId

end LiveTrackStore

end

end Airspace
