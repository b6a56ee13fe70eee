import Airspace.Common.Contracts
import Airspace.Lib.Dict
import Airspace.Lib.KeyedFold
import Mathlib.Data.String.Basic

/-! The live alert store (`acp.storage.stores.LiveAlertStore`).

    The entries are the Redis values under `acp:alert:<alert_key>`, the index is the sorted set that
    ranks the keys. A CLEARED alert deletes its entry and its rank, any other overwrites them. The time
    to live of an entry is not modelled: nothing here expires. -/

namespace Airspace

structure LiveAlertStore where
  entries : Dict String Alert := Dict.empty
  index : Dict String Instant := Dict.empty

namespace LiveAlertStore

def keyPrefix : String := "acp:alert:"

/-- The Redis key of an alert key. -/
def entryKey (alertKey : String) : String := keyPrefix ++ alertKey

/-- The pipeline commands of one alert. -/
def applyOne (store : LiveAlertStore) (alert : Alert) : LiveAlertStore :=
  let key := entryKey alert.alertKey
  if alert.state = .cleared then
    { entries := store.entries.erase key, index := store.index.erase alert.alertKey }
  else
    { entries := store.entries.set key alert,
      index := store.index.set alert.alertKey alert.updatedAt }

/-- Fold a batch of alert state changes into the active set. -/
def apply (store : LiveAlertStore) (alerts : List Alert) : LiveAlertStore :=
  alerts.foldl applyOne store

/-- `ZREVRANGE 0 -1`: the highest score first, equal scores by member, last first. -/
def zrevrange (index : Dict String Instant) : List String :=
  (index.items.mergeSort fun a b => b.2 < a.2 ∨ (a.2 = b.2 ∧ b.1 ≤ a.1)).map Prod.fst

/-- Every alert currently believed to be live; keys without a value leave the index. -/
def active (store : LiveAlertStore) : List Alert × LiveAlertStore :=
  let keys := zrevrange store.index
  let alerts := keys.filterMap fun k => store.entries.get? (entryKey k)
  let expired := keys.filter fun k => (store.entries.get? (entryKey k)).isNone
  (alerts, { store with index := expired.foldl Dict.erase store.index })

/-- The entry of one key after one of its alerts. -/
def keyApply (_ : Option Alert) (alert : Alert) : Option Alert :=
  if alert.state = .cleared then none else some alert

/-- Entries lie under the key of their alert, and the index ranks exactly the keys with an entry. -/
structure Indexed (store : LiveAlertStore) : Prop where
  filed : ∀ key a, store.entries.get? (entryKey key) = some a → a.alertKey = key
  ranked : ∀ key, key ∈ store.index.keys ↔ store.entries.get? (entryKey key) ≠ none

variable {store : LiveAlertStore} {key : String}

theorem entryKey_inj {a b : String} : entryKey a = entryKey b ↔ a = b := by
  refine ⟨fun h => ?_, fun h => by rw [h]⟩
  have h' := congrArg String.toList h
  rw [entryKey, entryKey, String.toList_append, String.toList_append] at h'
  exact String.toList_injective (List.append_cancel_left h')

theorem get?_applyOne (alert : Alert) (key : String) :
    (store.applyOne alert).entries.get? (entryKey key) =
      if alert.alertKey = key then keyApply (store.entries.get? (entryKey key)) alert
      else store.entries.get? (entryKey key) := by
  by_cases hcleared : alert.state = .cleared
  · simp only [applyOne, keyApply, if_pos hcleared, Dict.get?_erase, entryKey_inj, @eq_comm _ key]
  · simp only [applyOne, keyApply, if_neg hcleared, Dict.get?_set, entryKey_inj, @eq_comm _ key]

/-- What the store holds for a key is what the alerts of that key leave. -/
theorem get?_apply (alerts : List Alert) (store : LiveAlertStore) (key : String) :
    (store.apply alerts).entries.get? (entryKey key) =
      (alerts.filter fun a => a.alertKey = key).foldl keyApply (store.entries.get? (entryKey key)) :=
  view_foldl_filter (fun key (store : LiveAlertStore) => store.entries.get? (entryKey key)) _ _
    (fun _ alert key => get?_applyOne alert key) alerts store key

theorem indexed_empty : Indexed {} :=
  ⟨fun _ _ h => (Option.some_ne_none _ h.symm).elim,
    fun _ => iff_of_false List.not_mem_nil fun h => h rfl⟩

theorem Indexed.applyOne (h : store.Indexed) (alert : Alert) : (store.applyOne alert).Indexed := by
  refine ⟨fun key a hget => ?_, fun key => ?_⟩
  · rw [get?_applyOne] at hget
    by_cases hk : alert.alertKey = key
    · rw [if_pos hk, keyApply] at hget
      split_ifs at hget
      cases hget
      exact hk
    · rw [if_neg hk] at hget
      exact h.filed key a hget
  · rw [get?_applyOne, keyApply]
    by_cases hcleared : alert.state = .cleared
    · rw [LiveAlertStore.applyOne, if_pos hcleared, Dict.mem_keys_erase, if_pos hcleared]
      split_ifs with hk
      · exact iff_of_false (fun hmem => hmem.1 hk.symm) fun hne => hne rfl
      · exact (and_iff_right (Ne.symm hk)).trans (h.ranked key)
    · rw [LiveAlertStore.applyOne, if_neg hcleared, Dict.mem_keys_set, if_neg hcleared]
      split_ifs with hk
      · exact iff_of_true (.inl hk.symm) (Option.some_ne_none alert)
      · exact (or_iff_right (Ne.symm hk)).trans (h.ranked key)

theorem Indexed.apply (h : store.Indexed) (alerts : List Alert) : (store.apply alerts).Indexed := by
  induction alerts generalizing store with
  | nil => exact h
  | cons a alerts ih => exact ih (h.applyOne a)

theorem mem_zrevrange {index : Dict String Instant} : key ∈ zrevrange index ↔ key ∈ index.keys := by
  simp only [zrevrange, Dict.keys, List.mem_map, List.mem_mergeSort]

/-- On an indexed store the list of live alerts is the list of its entries. -/
theorem mem_active_iff (h : store.Indexed) {a : Alert} :
    a ∈ store.active.1 ↔ store.entries.get? (entryKey a.alertKey) = some a := by
  simp only [active, List.mem_filterMap, mem_zrevrange]
  refine ⟨?_, fun ha => ⟨a.alertKey, (h.ranked _).mpr (by simp [ha]), ha⟩⟩
  rintro ⟨key, -, hget⟩
  rwa [h.filed key a hget]

end LiveAlertStore

end Airspace
