import Airspace.Lib.Dict
import Airspace.Lib.Run
import Mathlib.Data.Int.Order.Basic
import Mathlib.Logic.Function.Basic

/-! An index over values that expire, shared by clients.

    A value lies under the key of its id until its deadline, and the index ranks the ids. A write is two
    commands, and so is its removal; a read lists the ids of a range, looks their values up, and takes those
    it found without one out of the index again. Each command is atomic, and the commands of the clients
    interleave freely.

        write   set, then file         remove   delete, then unfile
        read    list, then look up, then for each id without a value: (delete and) unfile

    Beside the store runs a ledger of what has been done to each id. It says which entries a read owes; no
    command looks at it. -/

namespace Airspace

/-- What a store of this kind is made of. -/
structure IndexedStore (κ ρ ν : Type*) where
  keyOf : κ → ρ
  keyOf_injective : Function.Injective keyOf
  idOf : ν → κ
  stampOf : ν → ℤ
  ttl : ℤ
  /-- The ids of the index, in the order a read returns them. -/
  listing : Dict κ ℤ → List κ
  listing_perm : ∀ index, (listing index).Perm index.keys
  /-- Reads ask for the entries from a stamp on. -/
  ranged : Bool
  /-- The clean-up of a read deletes the value of an id as well as its rank. -/
  tidiesValue : Bool

namespace IndexedStore

/-! ### The ledger of an id -/

/-- A value that was set: by which client, with which stamp, and whether it has been filed since. -/
structure Written where
  client : ℕ
  stamp : ℤ
  filed : Bool

/-- The writes of an id since it last expired, latest first, and the last value set with its deadline. -/
structure Ledger (ν : Type*) where
  latest : Option ν := none
  deadline : ℤ := 0
  writes : List Written := []

namespace Ledger

variable {ν : Type*}

/-- The stamp of the entry: of the last value set whose write is complete. -/
def rank (l : Ledger ν) : Option ℤ := (l.writes.find? Written.filed).map Written.stamp

/-- A client sets a value; an entry past its deadline is gone. -/
def set (l : Ledger ν) (clock ttl : ℤ) (client : ℕ) (v : ν) (stamp : ℤ) : Ledger ν where
  latest := some v
  deadline := clock + ttl
  writes := ⟨client, stamp, false⟩ :: if clock < l.deadline then l.writes else []

/-- The last write of a client is complete. -/
def complete (client : ℕ) : List Written → List Written
  | [] => []
  | w :: ws => if w.client = client then { w with filed := true } :: ws else w :: complete client ws

def file (l : Ledger ν) (client : ℕ) : Ledger ν := { l with writes := complete client l.writes }

/-- Every complete write is removed. -/
def forget (l : Ledger ν) : Ledger ν := { l with writes := l.writes.filter fun w => !w.filed }

theorem rank_forget (l : Ledger ν) : l.forget.rank = none := by
  simp only [rank, forget, Option.map_eq_none_iff, List.find?_eq_none, List.mem_filter]
  rintro w ⟨-, hw⟩
  simpa using hw

theorem rank_set {l : Ledger ν} {clock ttl stamp t : ℤ} {client : ℕ} {v : ν}
    (h : (l.set clock ttl client v stamp).rank = some t) : clock < l.deadline ∧ l.rank = some t := by
  simp only [rank, set] at h
  rw [List.find?_cons_of_neg (by simp)] at h
  split_ifs at h with hlive
  · exact ⟨hlive, h⟩
  · simp at h

end Ledger

/-! ### Memory -/

/-- The values with their deadlines, the index, the clock, and the ledgers beside them. -/
structure Memory (κ ρ ν : Type*) where
  values : Dict ρ (ν × ℤ) := Dict.empty
  index : Dict κ ℤ := Dict.empty
  clock : ℤ := 0
  ledgers : κ → Ledger ν := fun _ => {}

variable {κ ρ ν : Type*} [DecidableEq κ] [DecidableEq ρ] (p : IndexedStore κ ρ ν)

/-- The value of an id, unless it has expired. -/
def lookup (m : Memory κ ρ ν) (id : κ) : Option ν :=
  ((m.values.get? (p.keyOf id)).filter fun e => m.clock < e.2).map Prod.fst

/-- `SET` with a time to live. -/
def setValue (m : Memory κ ρ ν) (client : ℕ) (v : ν) : Memory κ ρ ν :=
  { m with
    values := m.values.set (p.keyOf (p.idOf v)) (v, m.clock + p.ttl)
    ledgers := Function.update m.ledgers (p.idOf v)
      ((m.ledgers (p.idOf v)).set m.clock p.ttl client v (p.stampOf v)) }

/-- `ZADD`: the write of the value is complete. -/
def fileValue (m : Memory κ ρ ν) (client : ℕ) (v : ν) : Memory κ ρ ν :=
  { m with
    index := m.index.set (p.idOf v) (p.stampOf v)
    ledgers := Function.update m.ledgers (p.idOf v) ((m.ledgers (p.idOf v)).file client) }

/-- `DEL`. -/
def delete (m : Memory κ ρ ν) (id : κ) : Memory κ ρ ν := { m with values := m.values.erase (p.keyOf id) }

/-- `ZREM`. -/
def unfile (m : Memory κ ρ ν) (id : κ) : Memory κ ρ ν := { m with index := m.index.erase id }

/-- A writer has taken the entry away. -/
def forgotten (m : Memory κ ρ ν) (id : κ) : Memory κ ρ ν :=
  { m with ledgers := Function.update m.ledgers id (m.ledgers id).forget }

/-- A write of the id is complete, none has removed it since, and it has not expired. -/
def Standing (m : Memory κ ρ ν) (id : κ) (stamp : ℤ) : Prop :=
  (m.ledgers id).rank = some stamp ∧ m.clock < (m.ledgers id).deadline

def Stands (m : Memory κ ρ ν) (id : κ) : Prop := ∃ stamp, Standing m id stamp

/-- The value of every entry that stands, or is about to be filed, is there, and the index ranks every entry
    that stands, at its stamp or later where reads ask for stamps. -/
structure Sound (pending : κ → Prop) (m : Memory κ ρ ν) : Prop where
  kept : ∀ id, m.clock < (m.ledgers id).deadline → (m.ledgers id).rank ≠ none ∨ pending id →
    ∃ v, (m.ledgers id).latest = some v ∧ m.values.get? (p.keyOf id) = some (v, (m.ledgers id).deadline)
  ranked : ∀ id stamp, Standing m id stamp → ∃ score, m.index.get? id = some score ∧
    (p.ranged → stamp ≤ score)

variable {p} {m : Memory κ ρ ν} {pending pending' : κ → Prop} {id : κ} {v : ν} {client : ℕ}

theorem Sound.lookup (h : p.Sound pending m) (hlive : m.clock < (m.ledgers id).deadline)
    (hid : (m.ledgers id).rank ≠ none ∨ pending id) :
    ∃ v, (m.ledgers id).latest = some v ∧ p.lookup m id = some v := by
  obtain ⟨v, hlatest, hget⟩ := h.kept id hlive hid
  refine ⟨v, hlatest, ?_⟩
  simp [IndexedStore.lookup, hget, hlive]

theorem Sound.mono (h : p.Sound pending m) (hsub : ∀ id, pending' id → pending id) : p.Sound pending' m :=
  ⟨fun id hlive hid => h.kept id hlive (hid.imp_right (hsub id)), h.ranked⟩

theorem sound_empty : p.Sound (fun _ => False) {} := by
  refine ⟨fun id _ hid => ?_, fun id stamp hstands => ?_⟩
  · simp [Ledger.rank] at hid
  · cases hstands.1

theorem Sound.pass (h : p.Sound pending m) (d : ℕ) : p.Sound pending { m with clock := m.clock + d } := by
  have hle : m.clock ≤ m.clock + d := by omega
  exact ⟨fun id hlive hid => h.kept id (lt_of_le_of_lt hle hlive) hid,
    fun id stamp hstands => h.ranked id stamp ⟨hstands.1, lt_of_le_of_lt hle hstands.2⟩⟩

/-- Setting a value makes its id pending. -/
theorem Sound.setValue (h : p.Sound pending m) (client : ℕ) (v : ν) :
    p.Sound (fun id => pending id ∨ id = p.idOf v) (p.setValue m client v) := by
  refine ⟨fun id hlive hid => ?_, fun id stamp hstands => ?_⟩
  · by_cases heq : id = p.idOf v
    · subst heq
      exact ⟨v, by simp [IndexedStore.setValue, Ledger.set], by simp [IndexedStore.setValue, Ledger.set]⟩
    · have hkey : p.keyOf id ≠ p.keyOf (p.idOf v) := fun hk => heq (p.keyOf_injective hk)
      simp only [IndexedStore.setValue, Function.update_of_ne heq, Dict.get?_set, if_neg hkey] at hlive hid ⊢
      exact h.kept id hlive (hid.imp_right fun hp => hp.resolve_right heq)
  · by_cases heq : id = p.idOf v
    · subst heq
      simp only [Standing, IndexedStore.setValue, Function.update_self] at hstands ⊢
      obtain ⟨hlive, hrank⟩ := Ledger.rank_set hstands.1
      exact h.ranked _ stamp ⟨hrank, hlive⟩
    · simp only [Standing, IndexedStore.setValue, Function.update_of_ne heq] at hstands ⊢
      exact h.ranked id stamp hstands

/-- Filing the value of a pending id keeps the memory sound, unless it ranks the entry below its stamp. -/
theorem Sound.fileValue (h : p.Sound pending m) (hpending : pending (p.idOf v))
    (hrank : p.ranged → ∀ stamp ∈ ((m.ledgers (p.idOf v)).file client).rank, stamp ≤ p.stampOf v) :
    p.Sound pending (p.fileValue m client v) := by
  refine ⟨fun id hlive hid => ?_, fun id stamp hstands => ?_⟩
  · by_cases heq : id = p.idOf v
    · subst heq
      simp only [IndexedStore.fileValue, Function.update_self] at hlive ⊢
      exact h.kept _ hlive (.inr hpending)
    · simp only [IndexedStore.fileValue, Function.update_of_ne heq] at hlive hid ⊢
      exact h.kept id hlive hid
  · by_cases heq : id = p.idOf v
    · subst heq
      simp only [Standing, IndexedStore.fileValue, Function.update_self] at hstands ⊢
      exact ⟨p.stampOf v, by simp, fun hranged => hrank hranged stamp hstands.1⟩
    · simp only [Standing, IndexedStore.fileValue, Function.update_of_ne heq, Dict.get?_set,
        if_neg heq] at hstands ⊢
      exact h.ranked id stamp hstands

/-- The ledger forgets an id. -/
theorem Sound.forgotten (h : p.Sound pending m) (id : κ) : p.Sound pending (forgotten m id) := by
  have hnone : ∀ stamp, ¬ Standing (IndexedStore.forgotten m id) id stamp := by
    rintro stamp ⟨hrank, -⟩
    simp only [IndexedStore.forgotten, Function.update_self, Ledger.rank_forget] at hrank
    cases hrank
  refine ⟨fun id' hlive hid => ?_, fun id' stamp hstands => ?_⟩
  · by_cases heq : id' = id
    · subst heq
      simp only [IndexedStore.forgotten, Function.update_self, Ledger.rank_forget] at hlive hid ⊢
      exact h.kept id' hlive (.inr (hid.resolve_left fun hne => hne rfl))
    · simp only [IndexedStore.forgotten, Function.update_of_ne heq] at hlive hid ⊢
      exact h.kept id' hlive hid
  · by_cases heq : id' = id
    · subst heq
      exact absurd hstands (hnone stamp)
    · simp only [Standing, IndexedStore.forgotten, Function.update_of_ne heq] at hstands ⊢
      exact h.ranked id' stamp hstands

/-- Deleting the value of an id that neither stands nor is pending, or that has none. -/
theorem Sound.delete (h : p.Sound pending m) (hid : p.lookup m id = none ∨ ¬ Stands m id ∧ ¬ pending id) :
    p.Sound pending (p.delete m id) := by
  refine ⟨fun id' hlive hid' => ?_, h.ranked⟩
  by_cases heq : id' = id
  · subst heq
    exfalso
    obtain ⟨v, -, hlookup⟩ := h.lookup hlive hid'
    rcases hid with hnone | ⟨hstands, hpending⟩
    · rw [hnone] at hlookup
      cases hlookup
    · rcases hid' with hrank | hp
      · obtain ⟨stamp, hstamp⟩ := Option.ne_none_iff_exists'.mp hrank
        exact hstands ⟨stamp, hstamp, hlive⟩
      · exact hpending hp
  · have hkey : p.keyOf id' ≠ p.keyOf id := fun hk => heq (p.keyOf_injective hk)
    simp only [IndexedStore.delete, Dict.get?_erase, if_neg hkey]
    exact h.kept id' hlive hid'

/-- Taking an id that does not stand out of the index. -/
theorem Sound.unfile (h : p.Sound pending m) (hid : ¬ Stands m id) : p.Sound pending (unfile m id) := by
  refine ⟨h.kept, fun id' stamp hstands => ?_⟩
  by_cases heq : id' = id
  · subst heq
    exact absurd ⟨stamp, hstands⟩ hid
  · simp only [IndexedStore.unfile, Dict.get?_erase, if_neg heq]
    exact h.ranked id' stamp hstands

omit [DecidableEq ρ] in
/-- What the ledger forgets does not stand. -/
theorem not_stands_forgotten (m : Memory κ ρ ν) (id : κ) : ¬ Stands (forgotten m id) id := by
  rintro ⟨stamp, hrank, -⟩
  simp only [forgotten, Function.update_self, Ledger.rank_forget] at hrank
  cases hrank

/-! ### Clients -/

/-- One part of a writer's pipeline. -/
inductive Write (κ ν : Type*) where
  | put (v : ν)
  | drop (id : κ)

/-- A call on the store: a pipeline of writes, or a read of the entries from a stamp on. -/
inductive Call (κ ν : Type*) where
  | write (ws : List (Write κ ν))
  | read (since : Option ℤ)

/-- Where a client stands in its call, by the command it sends next. -/
inductive Phase (κ ν : Type*) where
  | idle
  | writing (ws : List (Write κ ν))
  | filing (v : ν) (ws : List (Write κ ν))
  | dropping (id : κ) (ws : List (Write κ ν))
  | ranging (since : Option ℤ)
  /-- `asked` are the entries that stood in the range when it was listed; no command looks at it. -/
  | looking (ids : List κ) (asked : κ → Prop)
  | tidying (ids : List κ)
  | unfiling (id : κ) (ids : List κ)

structure State (κ ρ ν : Type*) where
  memory : Memory κ ρ ν := {}
  clients : ℕ → Phase κ ν := fun _ => .idle

/-- What a read returned, and the values it owed: of the entries that stood in its range when it listed them
    and stand when it looks them up. -/
structure Read (ν : Type*) where
  owed : ν → Prop
  found : List ν

def Read.Complete (r : Read ν) : Prop := ∀ v, r.owed v → v ∈ r.found

/-- A client begins a call or sends its next command, or time passes. -/
inductive Action (κ ν : Type*) where
  | begin (client : ℕ) (call : Call κ ν)
  | run (client : ℕ)
  | pass (d : ℕ)

/-- A client moves on, with the memory it leaves. -/
def State.move (s : State κ ρ ν) (client : ℕ) (memory : Memory κ ρ ν) (phase : Phase κ ν) : State κ ρ ν where
  memory := memory
  clients := Function.update s.clients client phase

/-- `ZRANGEBYSCORE since +inf`, or the whole index. -/
def range (p : IndexedStore κ ρ ν) (index : Dict κ ℤ) (since : Option ℤ) : List κ :=
  (p.listing index).filter fun id =>
    !p.ranged || (index.get? id).any fun score => since.all fun t => decide (t ≤ score)

/-- The entry stands in the range. -/
def InRange (p : IndexedStore κ ρ ν) (m : Memory κ ρ ν) (since : Option ℤ) (id : κ) : Prop :=
  ∃ stamp, Standing m id stamp ∧ (p.ranged → ∀ t ∈ since, t ≤ stamp)

/-- The value is the one last set of an entry that was asked for and stands. -/
def Owed (p : IndexedStore κ ρ ν) (m : Memory κ ρ ν) (asked : κ → Prop) (v : ν) : Prop :=
  asked (p.idOf v) ∧ Stands m (p.idOf v) ∧ (m.ledgers (p.idOf v)).latest = some v

/-- The next command of a client. -/
def runNext (p : IndexedStore κ ρ ν) (s : State κ ρ ν) (c : ℕ) : Option (State κ ρ ν × List (Read ν)) :=
  let m := s.memory
  match s.clients c with
  | .idle => none
  | .writing [] => some (s.move c m .idle, [])
  | .writing (.put v :: ws) => some (s.move c (p.setValue m c v) (.filing v ws), [])
  | .filing v ws => some (s.move c (p.fileValue m c v) (.writing ws), [])
  | .writing (.drop id :: ws) => some (s.move c (forgotten (p.delete m id) id) (.dropping id ws), [])
  | .dropping id ws => some (s.move c (forgotten (unfile m id) id) (.writing ws), [])
  | .ranging since =>
    match p.range m.index since with
    | [] => some (s.move c m .idle, [{ owed := p.Owed m (p.InRange m since), found := [] }])
    | ids => some (s.move c m (.looking ids (p.InRange m since)), [])
  | .looking ids asked =>
    some (s.move c m (.tidying (ids.filter fun id => (p.lookup m id).isNone)),
      [{ owed := p.Owed m asked, found := ids.filterMap (p.lookup m) }])
  | .tidying [] => some (s.move c m .idle, [])
  | .tidying (id :: ids) =>
    if p.tidiesValue then some (s.move c (p.delete m id) (.unfiling id ids), [])
    else some (s.move c (unfile m id) (.tidying ids), [])
  | .unfiling id ids => some (s.move c (unfile m id) (.tidying ids), [])

def step (p : IndexedStore κ ρ ν) (s : State κ ρ ν) : Action κ ν → Option (State κ ρ ν × List (Read ν))
  | .begin c call => match s.clients c, call with
    | .idle, .write ws => some (s.move c s.memory (.writing ws), [])
    | .idle, .read since => some (s.move c s.memory (.ranging since), [])
    | _, _ => none
  | .run c => p.runNext s c
  | .pass d => some ({ s with memory := { s.memory with clock := s.memory.clock + d } }, [])

def machine (p : IndexedStore κ ρ ν) : Machine (State κ ρ ν) (Action κ ν) (Read ν) := ⟨p.step⟩

/-- Some client has set a value of the id and files it next. -/
def Pending (p : IndexedStore κ ρ ν) (s : State κ ρ ν) (id : κ) : Prop :=
  ∃ c v ws, s.clients c = .filing v ws ∧ p.idOf v = id

/-- What a step must not do. A write is not filed below the stamp of an entry set after it; a value that is
    there is not deleted by another client between the two commands of its write; and the clean-up of a read
    hits no entry that has been written since. -/
def Careful (p : IndexedStore κ ρ ν) (s : State κ ρ ν) : Action κ ν → Prop
  | .run c => match s.clients c with
    | .filing v _ => p.ranged → ∀ stamp ∈ ((s.memory.ledgers (p.idOf v)).file c).rank, stamp ≤ p.stampOf v
    | .writing (.drop id :: _) => p.lookup s.memory id = none ∨ ¬ p.Pending s id
    | .tidying (id :: _) => if p.tidiesValue
      then p.lookup s.memory id = none ∨ ¬ Stands s.memory id ∧ ¬ p.Pending s id
      else ¬ Stands s.memory id
    | .unfiling id _ => ¬ Stands s.memory id
    | _ => True
  | _ => True

/-- The memory is sound, and a read holds the ids it was asked for. -/
structure Inv (p : IndexedStore κ ρ ν) (s : State κ ρ ν) : Prop where
  sound : p.Sound (p.Pending s) s.memory
  listed : ∀ c ids asked, s.clients c = .looking ids asked → ∀ id, asked id → id ∈ ids

variable {s s' : State κ ρ ν} {phase : Phase κ ν} {c : ℕ} {shown : List (Read ν)} {log : List (Read ν)}

omit [DecidableEq κ] [DecidableEq ρ] in
theorem pending_move (h : p.Pending (s.move c m phase) id) :
    p.Pending s id ∨ ∃ v ws, phase = .filing v ws ∧ p.idOf v = id := by
  obtain ⟨c', v, ws, hphase, hid⟩ := h
  simp only [State.move] at hphase
  by_cases hc : c' = c
  · subst hc
    rw [Function.update_self] at hphase
    exact .inr ⟨v, ws, hphase, hid⟩
  · rw [Function.update_of_ne hc] at hphase
    exact .inl ⟨c', v, ws, hphase, hid⟩

/-- A client moves on over a memory that is sound. -/
theorem Inv.move (h : p.Inv s)
    (hsound : p.Sound (fun id => p.Pending s id ∨ ∃ v ws, phase = .filing v ws ∧ p.idOf v = id) m)
    (hlooking : ∀ ids asked, phase = .looking ids asked → ∀ id, asked id → id ∈ ids) :
    p.Inv (s.move c m phase) := by
  refine ⟨hsound.mono fun id => pending_move, fun c' ids asked hphase => ?_⟩
  simp only [State.move] at hphase
  by_cases hc : c' = c
  · subst hc
    rw [Function.update_self] at hphase
    exact hlooking ids asked hphase
  · rw [Function.update_of_ne hc] at hphase
    exact h.listed c' ids asked hphase

/-- A client that does not file next. -/
theorem Inv.moveOn (h : p.Inv s) (hsound : p.Sound (p.Pending s) m)
    (hfiling : ∀ v ws, phase ≠ .filing v ws)
    (hlooking : ∀ ids asked, phase = .looking ids asked → ∀ id, asked id → id ∈ ids) :
    p.Inv (s.move c m phase) :=
  h.move (hsound.mono fun _ hp => hp.resolve_right fun ⟨v, ws, hphase, _⟩ => hfiling v ws hphase) hlooking

/-- An entry that stands in the range is listed. -/
theorem Sound.mem_range (h : p.Sound pending m) {since : Option ℤ} (hid : p.InRange m since id) :
    id ∈ p.range m.index since := by
  obtain ⟨stamp, hstands, hsince⟩ := hid
  obtain ⟨score, hget, hle⟩ := h.ranked id stamp hstands
  refine List.mem_filter.mpr ⟨(p.listing_perm _).mem_iff.mpr (Dict.mem_keys_iff.mpr ⟨score, hget⟩), ?_⟩
  by_cases hranged : p.ranged
  · cases since with
    | none => simp [hget]
    | some t => simpa [hget, hranged] using le_trans (hsince hranged t rfl) (hle hranged)
  · simp [hranged]

/-- An entry that stands is found under the value last set. -/
theorem Sound.found (h : p.Sound pending m) {ids : List κ} {asked : κ → Prop}
    (hlisted : ∀ id, asked id → id ∈ ids) (hv : p.Owed m asked v) : v ∈ ids.filterMap (p.lookup m) := by
  obtain ⟨hasked, ⟨stamp, hrank, hlive⟩, hlatest⟩ := hv
  obtain ⟨v', hlatest', hlookup⟩ := h.lookup hlive (.inl (by simp [hrank]))
  obtain rfl : v' = v := Option.some.inj (hlatest'.symm.trans hlatest)
  exact List.mem_filterMap.mpr ⟨_, hlisted _ hasked, hlookup⟩

/-- A careful command keeps the invariant, and a read that returns is complete. -/
theorem Inv.runNext (h : p.Inv s) (hcareful : p.Careful s (.run c))
    (hstep : p.runNext s c = some (s', shown)) : p.Inv s' ∧ ∀ r ∈ shown, r.Complete := by
  have hsound := h.sound
  simp only [Careful] at hcareful
  simp only [IndexedStore.runNext] at hstep
  cases hphase : s.clients c with
  | idle => simp [hphase] at hstep
  | writing ws =>
    cases ws with
    | nil =>
      obtain ⟨rfl, rfl⟩ : _ ∧ _ := by simpa [hphase, eq_comm] using hstep
      exact ⟨h.moveOn hsound (by simp) (by simp), by simp⟩
    | cons w ws =>
      cases w with
      | put v =>
        obtain ⟨rfl, rfl⟩ : _ ∧ _ := by simpa [hphase, eq_comm] using hstep
        refine ⟨h.move ((hsound.setValue c v).mono fun id hp => hp.imp_right ?_) (by simp), by simp⟩
        rintro ⟨v', ws', heq, rfl⟩
        cases heq
        rfl
      | drop id =>
        obtain ⟨rfl, rfl⟩ : _ ∧ _ := by simpa [hphase, eq_comm] using hstep
        simp only [hphase] at hcareful
        have hdelete := (hsound.forgotten id).delete
          (hcareful.imp_right fun hnot => ⟨not_stands_forgotten s.memory id, hnot⟩)
        exact ⟨h.moveOn hdelete (by simp) (by simp), by simp⟩
  | filing v ws =>
    obtain ⟨rfl, rfl⟩ : _ ∧ _ := by simpa [hphase, eq_comm] using hstep
    simp only [hphase] at hcareful
    exact ⟨h.moveOn (hsound.fileValue ⟨c, v, ws, hphase, rfl⟩ hcareful) (by simp) (by simp), by simp⟩
  | dropping id ws =>
    obtain ⟨rfl, rfl⟩ : _ ∧ _ := by simpa [hphase, eq_comm] using hstep
    have hunfile := (hsound.forgotten id).unfile (not_stands_forgotten s.memory id)
    exact ⟨h.moveOn hunfile (by simp) (by simp), by simp⟩
  | ranging since =>
    have hlisted : ∀ id, p.InRange s.memory since id → id ∈ p.range s.memory.index since :=
      fun id => hsound.mem_range
    cases hrange : p.range s.memory.index since with
    | nil =>
      obtain ⟨rfl, rfl⟩ : _ ∧ _ := by simpa [hphase, hrange, eq_comm] using hstep
      refine ⟨h.moveOn hsound (by simp) (by simp), ?_⟩
      rintro r hr v hv
      obtain rfl := List.mem_singleton.mp hr
      have hmem := hlisted _ hv.1
      rw [hrange] at hmem
      cases hmem
    | cons id ids =>
      obtain ⟨rfl, rfl⟩ : _ ∧ _ := by simpa [hphase, hrange, eq_comm] using hstep
      refine ⟨h.moveOn hsound (by simp) ?_, by simp⟩
      rintro _ _ ⟨⟩
      rwa [hrange] at hlisted
  | looking ids asked =>
    obtain ⟨rfl, rfl⟩ : _ ∧ _ := by simpa [hphase, eq_comm] using hstep
    refine ⟨h.moveOn hsound (by simp) (by simp), ?_⟩
    rintro r hr v hv
    obtain rfl := List.mem_singleton.mp hr
    exact hsound.found (h.listed c ids asked hphase) hv
  | tidying ids =>
    cases ids with
    | nil =>
      obtain ⟨rfl, rfl⟩ : _ ∧ _ := by simpa [hphase, eq_comm] using hstep
      exact ⟨h.moveOn hsound (by simp) (by simp), by simp⟩
    | cons id ids =>
      simp only [hphase] at hcareful
      by_cases htidies : p.tidiesValue
      · obtain ⟨rfl, rfl⟩ : _ ∧ _ := by simpa [hphase, htidies, eq_comm] using hstep
        rw [if_pos htidies] at hcareful
        exact ⟨h.moveOn (hsound.delete hcareful) (by simp) (by simp), by simp⟩
      · obtain ⟨rfl, rfl⟩ : _ ∧ _ := by simpa [hphase, htidies, eq_comm] using hstep
        rw [if_neg htidies] at hcareful
        exact ⟨h.moveOn (hsound.unfile hcareful) (by simp) (by simp), by simp⟩
  | unfiling id ids =>
    obtain ⟨rfl, rfl⟩ : _ ∧ _ := by simpa [hphase, eq_comm] using hstep
    simp only [hphase] at hcareful
    exact ⟨h.moveOn (hsound.unfile hcareful) (by simp) (by simp), by simp⟩

theorem Inv.step {a : Action κ ν} (h : p.Inv s) (hcareful : p.Careful s a)
    (hstep : p.step s a = some (s', shown)) : p.Inv s' ∧ ∀ r ∈ shown, r.Complete := by
  cases a with
  | begin c call =>
    cases hphase : s.clients c <;> cases call <;> simp [IndexedStore.step, hphase] at hstep
    all_goals
      obtain ⟨rfl, rfl⟩ := hstep
      exact ⟨h.moveOn h.sound (by simp) (by simp), by simp⟩
  | run c => exact h.runNext hcareful hstep
  | pass d =>
    obtain ⟨rfl, rfl⟩ : _ ∧ _ := by simpa [IndexedStore.step, eq_comm] using hstep
    exact ⟨⟨h.sound.pass d, h.listed⟩, by simp⟩

theorem inv_empty : p.Inv {} := by
  refine ⟨sound_empty.mono fun id hp => ?_, fun c ids asked hphase => ?_⟩
  · obtain ⟨c, v, ws, hphase, -⟩ := hp
    cases hphase
  · cases hphase

/-- In a run of careful steps every read is complete. -/
theorem reads_complete (h : p.machine.Run p.Careful {} s log) : ∀ r ∈ log, r.Complete := by
  have hinv : p.Inv s ∧ ∀ r ∈ log, r.Complete := by
    refine h.invariant (I := fun s log => p.Inv s ∧ ∀ r ∈ log, r.Complete) ⟨inv_empty, by simp⟩ ?_
    rintro s log a s' shown ⟨hinv, hlog⟩ hcareful hstep
    obtain ⟨hinv', hshown⟩ := hinv.step hcareful hstep
    refine ⟨hinv', fun r hr => ?_⟩
    rcases List.mem_append.mp hr with hr | hr
    · exact hlog r hr
    · exact hshown r hr
  exact hinv.2

/-! ### A writer alone -/

/-- Both commands of one part of a pipeline. -/
def writeOne (p : IndexedStore κ ρ ν) (c : ℕ) (m : Memory κ ρ ν) : Write κ ν → Memory κ ρ ν
  | .put v => p.fileValue (p.setValue m c v) c v
  | .drop id => forgotten (unfile (forgotten (p.delete m id) id) id) id

/-- A pipeline that nothing interrupts. -/
theorem exec_writes (ws : List (Write κ ν)) (m : Memory κ ρ ν) (clients : ℕ → Phase κ ν) :
    p.machine.exec ⟨m, Function.update clients c (.writing ws)⟩ (List.replicate (2 * ws.length) (.run c)) =
      some (⟨ws.foldl (p.writeOne c) m, Function.update clients c (.writing [])⟩, []) := by
  induction ws generalizing m with
  | nil => rfl
  | cons w ws ih =>
    have htwo : List.replicate (2 * (w :: ws).length) (Action.run c : Action κ ν) =
        .run c :: .run c :: List.replicate (2 * ws.length) (.run c) := rfl
    rw [htwo, List.foldl_cons]
    cases w with
    | put v =>
      have hset : p.machine.step ⟨m, Function.update clients c (.writing (.put v :: ws))⟩ (.run c) =
          some (⟨p.setValue m c v, Function.update clients c (.filing v ws)⟩, []) := by
        simp [machine, IndexedStore.step, runNext, State.move]
      have hfile : p.machine.step ⟨p.setValue m c v, Function.update clients c (.filing v ws)⟩ (.run c) =
          some (⟨p.writeOne c m (.put v), Function.update clients c (.writing ws)⟩, []) := by
        simp [machine, IndexedStore.step, runNext, State.move, writeOne]
      exact Machine.exec_cons hset (Machine.exec_cons hfile (ih _))
    | drop id =>
      have hdelete : p.machine.step ⟨m, Function.update clients c (.writing (.drop id :: ws))⟩ (.run c) =
          some (⟨forgotten (p.delete m id) id, Function.update clients c (.dropping id ws)⟩, []) := by
        simp [machine, IndexedStore.step, runNext, State.move]
      have hunfile : p.machine.step ⟨forgotten (p.delete m id) id, Function.update clients c (.dropping id ws)⟩
          (.run c) = some (⟨p.writeOne c m (.drop id), Function.update clients c (.writing ws)⟩, []) := by
        simp [machine, IndexedStore.step, runNext, State.move, writeOne]
      exact Machine.exec_cons hdelete (Machine.exec_cons hunfile (ih _))

end IndexedStore

end Airspace
