import Airspace.Lib.Run
import Mathlib.Data.List.Pairwise
import Mathlib.Logic.Function.Basic

/-! The consuming loop (`acp.common.messaging.MessageSubscriber.stream`).

    The consumer hands out the records of its partitions one at a time, each partition in the order of its
    offsets. A record that decodes is yielded to the loop body and committed when the loop asks for the
    next one; a malformed one is committed at once. A commit covers everything handed out so far. The loop
    may stop wherever it waits: in the body, for a record, or for a commit, which may have been applied.

        fetching ──▶ handling ──▶ committing ──▶ fetching        (decodable)
                 ──▶ skipping ──▶ fetching                       (malformed) -/

namespace Airspace

/-- A record as the consumer hands it out. -/
structure ConsumerRecord (ν : Type*) where
  partition : ℕ
  offset : ℕ
  key : Option String
  value : ν

/-- A decoded message plus the delivery metadata. -/
structure Envelope (μ : Type*) where
  message : μ
  key : Option String
  partition : ℕ
  offset : ℕ

/-- Where the loop over the stream waits; a stopped loop may have a record in hand. -/
inductive StreamPhase (ν : Type*) where
  | fetching
  | handling (record : ConsumerRecord ν)
  | committing (record : ConsumerRecord ν)
  | skipping (record : ConsumerRecord ν)
  | stopped (inHand : Option (ConsumerRecord ν))

/-- The record handed out last, if a commit has not returned since. -/
def StreamPhase.inHand {ν : Type*} : StreamPhase ν → Option (ConsumerRecord ν)
  | .fetching => none
  | .handling record | .committing record | .skipping record => some record
  | .stopped inHand => inHand

/-- The consumer with the loop over it: what the broker still has for it and the positions handed out and
    committed, by partition. -/
structure Subscription (ν : Type*) where
  remaining : ℕ → List (ConsumerRecord ν)
  position : ℕ → ℕ
  committed : ℕ → ℕ
  phase : StreamPhase ν := .fetching

/-- What happens next to the one consumer of a fixed assignment: no rebalance takes a partition away or
    starts one again from what was committed. -/
inductive StreamTurn where
  | handOut (partition : ℕ)
  | bodyDone
  | commitReturns
  | commitRaises (applied : Bool)
  | leave

inductive StreamEvent (ν μ : Type*) where
  | handed (record : ConsumerRecord ν)
  | yielded (record : ConsumerRecord ν) (envelope : Envelope μ)
  | completed (record : ConsumerRecord ν)
  | discarded (record : ConsumerRecord ν)

namespace Subscription

variable {ν μ : Type*} (validate : ν → Option μ)

/-- `commit()`: everything handed out, on every partition. -/
def commit (s : Subscription ν) : Subscription ν := { s with committed := s.position }

/-- The next record of a partition leaves the consumer. -/
def taken (s : Subscription ν) (record : ConsumerRecord ν) (rest : List (ConsumerRecord ν)) : Subscription ν :=
  { s with
    remaining := Function.update s.remaining record.partition rest
    position := Function.update s.position record.partition (record.offset + 1) }

def step (s : Subscription ν) : StreamTurn → Option (Subscription ν × List (StreamEvent ν μ))
  | .handOut partition =>
    match s.phase, s.remaining partition with
    | .fetching, record :: rest =>
      match validate record.value with
      | some message =>
        some ({ s.taken record rest with phase := .handling record },
          [.handed record, .yielded record ⟨message, record.key, record.partition, record.offset⟩])
      | none =>
        some ({ s.taken record rest with phase := .skipping record }, [.handed record, .discarded record])
    | _, _ => none
  | .bodyDone =>
    match s.phase with
    | .handling record => some ({ s with phase := .committing record }, [.completed record])
    | _ => none
  | .commitReturns =>
    match s.phase with
    | .committing _ | .skipping _ => some ({ s.commit with phase := .fetching }, [])
    | _ => none
  | .commitRaises applied =>
    match s.phase with
    | .committing record | .skipping record =>
      some ({ (if applied then s.commit else s) with phase := .stopped (some record) }, [])
    | _ => none
  | .leave =>
    match s.phase with
    | .fetching => some ({ s with phase := .stopped none }, [])
    | .handling record => some ({ s with phase := .stopped (some record) }, [])
    | _ => none

def machine : Machine (Subscription ν) StreamTurn (StreamEvent ν μ) where
  step := step validate

/-- A consumer that has handed nothing out: each partition in order from its position on, which is not
    behind the committed one. -/
structure Fresh (s : Subscription ν) : Prop where
  phase : s.phase = .fetching
  partition : ∀ p, ∀ r ∈ s.remaining p, r.partition = p
  sorted : ∀ p, (s.remaining p).Pairwise fun a b => a.offset < b.offset
  ahead : ∀ p, ∀ r ∈ s.remaining p, s.position p ≤ r.offset
  behind : ∀ p, s.committed p ≤ s.position p

/-- A record is covered when the committed offset of its partition has passed it. -/
def Covers (s : Subscription ν) (r : ConsumerRecord ν) : Prop := r.offset < s.committed r.partition

/-- What has been handed out is covered or in hand, and completed, malformed, or in hand uncovered. -/
structure Delivers (start s : Subscription ν) (log : List (StreamEvent ν μ)) : Prop where
  partition : ∀ p, ∀ r ∈ s.remaining p, r.partition = p
  sorted : ∀ p, (s.remaining p).Pairwise fun a b => a.offset < b.offset
  ahead : ∀ p, ∀ r ∈ s.remaining p, s.position p ≤ r.offset
  behind : ∀ p, s.committed p ≤ s.position p
  accounted : ∀ p, ∀ r ∈ start.remaining p, r ∈ s.remaining p ∨ .handed r ∈ log
  passed : ∀ r, .handed r ∈ log → r.offset < s.position r.partition
  covered : ∀ r, .handed r ∈ log → s.Covers r ∨ s.phase.inHand = some r
  done : ∀ r, .handed r ∈ log → validate r.value ≠ none → .completed r ∈ log ∨
    (s.phase = .handling r ∨ s.phase = .stopped (some r)) ∧ ¬ s.Covers r
  started : ∀ r envelope, .yielded r envelope ∈ log → .handed r ∈ log

variable {validate} {start s s' : Subscription ν} {log shown : List (StreamEvent ν μ)} {turn : StreamTurn}

/-- What a turn does. -/
inductive Moves (validate : ν → Option μ) (s : Subscription ν) : Subscription ν → List (StreamEvent ν μ) →
    Prop where
  | yields (record : ConsumerRecord ν) (rest : List (ConsumerRecord ν)) (partition : ℕ) (message : μ) :
      s.phase = .fetching → s.remaining partition = record :: rest → validate record.value = some message →
      Moves validate s { s.taken record rest with phase := .handling record }
        [.handed record, .yielded record ⟨message, record.key, record.partition, record.offset⟩]
  | skips (record : ConsumerRecord ν) (rest : List (ConsumerRecord ν)) (partition : ℕ) :
      s.phase = .fetching → s.remaining partition = record :: rest → validate record.value = none →
      Moves validate s { s.taken record rest with phase := .skipping record }
        [.handed record, .discarded record]
  | completes (record : ConsumerRecord ν) : s.phase = .handling record →
      Moves validate s { s with phase := .committing record } [.completed record]
  | commits (record : ConsumerRecord ν) : s.phase = .committing record ∨ s.phase = .skipping record →
      Moves validate s { s.commit with phase := .fetching } []
  | failsToCommit (record : ConsumerRecord ν) (applied : Bool) :
      s.phase = .committing record ∨ s.phase = .skipping record →
      Moves validate s { (if applied then s.commit else s) with phase := .stopped (some record) } []
  | leaves (inHand : Option (ConsumerRecord ν)) :
      s.phase = .fetching ∧ inHand = none ∨ (∃ record, s.phase = .handling record ∧ inHand = some record) →
      Moves validate s { s with phase := .stopped inHand } []

theorem moves (h : s.step validate turn = some (s', shown)) : Moves validate s s' shown := by
  cases turn with
  | handOut partition =>
    simp only [step] at h
    split at h
    · next record rest hphase hremaining =>
      split at h
      · next message hvalid =>
        cases h
        exact .yields record rest partition message hphase hremaining hvalid
      · next hvalid =>
        cases h
        exact .skips record rest partition hphase hremaining hvalid
    · cases h
  | bodyDone =>
    simp only [step] at h
    split at h
    · next record hphase =>
      cases h
      exact .completes record hphase
    · cases h
  | commitReturns =>
    simp only [step] at h
    split at h
    · next record hphase =>
      cases h
      exact .commits record (.inl hphase)
    · next record hphase =>
      cases h
      exact .commits record (.inr hphase)
    · cases h
  | commitRaises applied =>
    simp only [step] at h
    split at h
    · next record hphase =>
      cases h
      exact .failsToCommit record applied (.inl hphase)
    · next record hphase =>
      cases h
      exact .failsToCommit record applied (.inr hphase)
    · cases h
  | leave =>
    simp only [step] at h
    split at h
    · next hphase =>
      cases h
      exact .leaves none (.inl ⟨hphase, rfl⟩)
    · next record hphase =>
      cases h
      exact .leaves (some record) (.inr ⟨record, hphase, rfl⟩)
    · cases h

/-- A turn that only moves the loop on, in the state and the log. -/
theorem Delivers.phase (h : Delivers validate start s log) {phase : StreamPhase ν}
    (hquiet : ∀ event ∈ shown, ∃ r, event = .completed r) (hhand : s.phase.inHand = phase.inHand)
    (hdone : ∀ r, s.phase = .handling r ∨ s.phase = .stopped (some r) →
      .completed r ∈ shown ∨ phase = .handling r ∨ phase = .stopped (some r)) :
    Delivers validate start { s with phase := phase } (log ++ shown) := by
  have hold : ∀ event ∈ log ++ shown, (∀ r, event ≠ .completed r) → event ∈ log := by
    intro event hevent hnot
    refine (List.mem_append.mp hevent).resolve_right fun hshown => ?_
    obtain ⟨r, hr⟩ := hquiet event hshown
    exact hnot r hr
  refine ⟨h.partition, h.sorted, h.ahead, h.behind, ?_, ?_, ?_, ?_, ?_⟩
  · exact fun p r hr => (h.accounted p r hr).imp_right (List.mem_append_left shown)
  · exact fun r hr => h.passed r (hold _ hr (by simp))
  · exact fun r hr => hhand ▸ h.covered r (hold _ hr (by simp))
  · intro r hr hvalid
    rcases h.done r (hold _ hr (by simp)) hvalid with hcompleted | ⟨hphase, hopen⟩
    · exact .inl (List.mem_append_left shown hcompleted)
    · rcases hdone r hphase with hshown | hphase
      · exact .inl (List.mem_append_right log hshown)
      · exact .inr ⟨hphase, hopen⟩
  · exact fun r envelope hr => List.mem_append_left shown (h.started r envelope (hold _ hr (by simp)))

/-- While nothing is being handled a commit covers everything handed out. -/
theorem Delivers.commit (h : Delivers validate start s log)
    (hidle : ∀ r, s.phase ≠ .handling r ∧ s.phase ≠ .stopped (some r)) (phase : StreamPhase ν) :
    Delivers validate start { s.commit with phase := phase } log := by
  refine ⟨h.partition, h.sorted, h.ahead, fun p => Nat.le_refl _, h.accounted, h.passed, ?_, ?_, h.started⟩
  · exact fun r hr => .inl (h.passed r hr)
  · intro r hr hvalid
    refine .inl ((h.done r hr hvalid).resolve_right fun hopen => ?_)
    rcases hopen.1 with hphase | hphase
    · exact (hidle r).1 hphase
    · exact (hidle r).2 hphase

theorem mem_remaining_taken {record r : ConsumerRecord ν} {rest : List (ConsumerRecord ν)} {p : ℕ}
    (hnext : s.remaining record.partition = record :: rest) :
    r ∈ s.remaining p ↔ (p = record.partition ∧ r = record) ∨ r ∈ (s.taken record rest).remaining p := by
  by_cases hp : p = record.partition
  · subst hp
    simp [taken, hnext]
  · simp only [taken, Function.update_of_ne hp, hp, false_and, false_or]

theorem sublist_remaining_taken {record : ConsumerRecord ν} {rest : List (ConsumerRecord ν)}
    (hnext : s.remaining record.partition = record :: rest) (p : ℕ) :
    ((s.taken record rest).remaining p).Sublist (s.remaining p) := by
  by_cases hp : p = record.partition
  · subst hp
    simp only [taken, Function.update_self, hnext, List.sublist_cons_self]
  · simp only [taken, Function.update_of_ne hp, List.Sublist.refl]

theorem position_taken_self (s : Subscription ν) (record : ConsumerRecord ν) (rest : List (ConsumerRecord ν)) :
    (s.taken record rest).position record.partition = record.offset + 1 := Function.update_self ..

/-- Taking a record that is not behind its position moves no position back. -/
theorem position_le_taken {record : ConsumerRecord ν} (rest : List (ConsumerRecord ν))
    (hahead : s.position record.partition ≤ record.offset) (p : ℕ) :
    s.position p ≤ (s.taken record rest).position p := by
  by_cases hp : p = record.partition
  · subst hp
    rw [position_taken_self]
    omega
  · simp only [taken, Function.update_of_ne hp, Nat.le_refl]

/-- What is left of the partitions is still ahead of their positions. -/
theorem Delivers.ahead_taken (h : Delivers validate start s log) {record : ConsumerRecord ν}
    {rest : List (ConsumerRecord ν)} (hnext : s.remaining record.partition = record :: rest) :
    ∀ p, ∀ r ∈ (s.taken record rest).remaining p, (s.taken record rest).position p ≤ r.offset := by
  intro p r hr
  by_cases hp : p = record.partition
  · subst hp
    have hsorted := h.sorted record.partition
    rw [hnext, List.pairwise_cons] at hsorted
    simp only [taken, Function.update_self] at hr ⊢
    exact hsorted.1 r hr
  · simp only [taken, Function.update_of_ne hp] at hr ⊢
    exact h.ahead p r hr

/-- The next record comes into hand while nothing else is. -/
theorem Delivers.handOut (h : Delivers validate start s log) {record : ConsumerRecord ν}
    {rest : List (ConsumerRecord ν)} {partition : ℕ} (hphase : s.phase = .fetching)
    (hnext : s.remaining partition = record :: rest) {phase : StreamPhase ν}
    (hhand : phase.inHand = some record) (hbody : validate record.value ≠ none → phase = .handling record)
    (hshown : ∀ event ∈ shown, event = .handed record ∨ (∃ envelope, event = .yielded record envelope) ∨
      event = .discarded record) (hhanded : .handed record ∈ shown) :
    Delivers validate start { s.taken record rest with phase := phase } (log ++ shown) := by
  have hmem : record ∈ s.remaining partition := hnext ▸ List.mem_cons_self ..
  obtain rfl := h.partition partition record hmem
  have hahead : s.position record.partition ≤ record.offset := h.ahead _ record hmem
  have hopen : ¬ s.Covers record := Nat.not_lt.mpr (Nat.le_trans (h.behind _) hahead)
  have hposition := position_le_taken rest hahead
  have hsub := sublist_remaining_taken hnext
  have hold : ∀ r, .handed r ∈ log ++ shown → .handed r ∈ log ∨ r = record := by
    intro r hr
    refine (List.mem_append.mp hr).imp_right fun hr => ?_
    rcases hshown _ hr with heq | ⟨envelope, heq⟩ | heq
    · cases heq
      rfl
    · cases heq
    · cases heq
  refine ⟨fun p r hr => h.partition p r ((hsub p).subset hr), fun p => (h.sorted p).sublist (hsub p),
    h.ahead_taken hnext, fun p => Nat.le_trans (h.behind p) (hposition p), ?_, ?_, ?_, ?_, ?_⟩
  · intro p r hr
    rcases h.accounted p r hr with hr | hr
    · rcases (mem_remaining_taken hnext).mp hr with ⟨-, rfl⟩ | hr
      · exact .inr (List.mem_append_right log hhanded)
      · exact .inl hr
    · exact .inr (List.mem_append_left shown hr)
  · intro r hr
    rcases hold r hr with hr | rfl
    · exact Nat.lt_of_lt_of_le (h.passed r hr) (hposition _)
    · exact (position_taken_self s r rest).symm ▸ Nat.lt_succ_self _
  · intro r hr
    rcases hold r hr with hr | rfl
    · refine .inl ((h.covered r hr).resolve_right ?_)
      rw [hphase]
      exact fun hnone => by cases hnone
    · exact .inr hhand
  · intro r hr hvalid
    rcases hold r hr with hr | rfl
    · refine .inl (List.mem_append_left shown ((h.done r hr hvalid).resolve_right ?_))
      rw [hphase]
      rintro ⟨heq | heq, -⟩ <;> cases heq
    · exact .inr ⟨.inl (hbody hvalid), hopen⟩
  · intro r envelope hr
    rcases List.mem_append.mp hr with hr | hr
    · exact List.mem_append_left shown (h.started r envelope hr)
    · rcases hshown _ hr with heq | ⟨envelope', heq⟩ | heq
      · cases heq
      · cases heq
        exact List.mem_append_right log hhanded
      · cases heq

/-- What one turn keeps. -/
theorem Delivers.step (h : Delivers validate start s log) (hstep : s.step validate turn = some (s', shown)) :
    Delivers validate start s' (log ++ shown) := by
  cases moves hstep with
  | yields record rest partition message hphase hnext hvalid =>
    exact h.handOut hphase hnext rfl (fun _ => rfl) (by simp) (List.mem_cons_self ..)
  | skips record rest partition hphase hnext hvalid =>
    exact h.handOut hphase hnext rfl (fun hnot => absurd hvalid hnot) (by simp) (List.mem_cons_self ..)
  | completes record hphase =>
    refine h.phase (by simp) (by rw [hphase]; rfl) fun r hr => .inl ?_
    rw [hphase] at hr
    rcases hr with hr | hr <;> cases hr
    exact List.mem_singleton_self _
  | commits record hphase =>
    rw [List.append_nil]
    refine h.commit (fun r => ?_) _
    rcases hphase with hphase | hphase <;> rw [hphase] <;> exact ⟨by simp, by simp⟩
  | failsToCommit record applied hphase =>
    have hidle : ∀ r, s.phase ≠ .handling r ∧ s.phase ≠ .stopped (some r) := by
      intro r
      rcases hphase with hphase | hphase <;> rw [hphase] <;> exact ⟨by simp, by simp⟩
    cases applied with
    | true =>
      rw [List.append_nil]
      exact h.commit hidle _
    | false =>
      refine h.phase (by simp) ?_ fun r hr => ?_
      · rcases hphase with hphase | hphase <;> rw [hphase] <;> rfl
      · rcases hr with hr | hr
        · exact absurd hr (hidle r).1
        · exact absurd hr (hidle r).2
  | leaves inHand hphase =>
    refine h.phase (by simp) ?_ fun r hr => .inr (.inr ?_)
    · rcases hphase with ⟨hphase, rfl⟩ | ⟨record, hphase, rfl⟩ <;> rw [hphase] <;> rfl
    · rcases hphase with ⟨hphase, rfl⟩ | ⟨record, hphase, rfl⟩
      · rw [hphase] at hr
        rcases hr with hr | hr <;> cases hr
      · rw [hphase] at hr
        rcases hr with hr | hr <;> cases hr
        rfl

theorem delivers_run (hfresh : start.Fresh)
    (hrun : (machine validate).Run (fun _ _ => True) start s log) : Delivers validate start s log := by
  refine hrun.invariant ?_ fun _ _ _ _ _ h _ hstep => h.step hstep
  exact ⟨hfresh.partition, hfresh.sorted, hfresh.ahead, hfresh.behind, fun _ _ hr => .inl hr, by simp, by simp,
    by simp, by simp⟩

/-- In every state of every run the committed offset of a partition has passed a record that decodes only if
    the loop body has completed on it, and of the records the body has been started on at most one is not
    covered by a commit. -/
theorem consumption_is_at_least_once (hfresh : start.Fresh)
    (hrun : (machine validate).Run (fun _ _ => True) start s log) :
    (∀ p, ∀ r ∈ start.remaining p, validate r.value ≠ none → r.offset < s.committed p →
      .completed r ∈ log) ∧
    ∀ r r' envelope envelope', .yielded r envelope ∈ log → .yielded r' envelope' ∈ log →
      ¬ s.Covers r → ¬ s.Covers r' → r = r' := by
  have h := delivers_run hfresh hrun
  refine ⟨?_, ?_⟩
  · intro p r hr hvalid hpassed
    obtain rfl := hfresh.partition p r hr
    rcases h.accounted _ r hr with hremaining | hhanded
    · have := h.ahead _ r hremaining
      have := h.behind r.partition
      omega
    · exact (h.done r hhanded hvalid).resolve_right fun hopen => hopen.2 hpassed
  · intro r r' envelope envelope' hr hr' hopen hopen'
    have hhand := (h.covered r (h.started r envelope hr)).resolve_left hopen
    have hhand' := (h.covered r' (h.started r' envelope' hr')).resolve_left hopen'
    exact Option.some.inj (hhand.symm.trans hhand')

/-- Two partitions, the second with a malformed record first, and a stop inside the second body. -/
def twoPartitions : Subscription (Option ℕ) where
  remaining p := if p = 0 then [⟨0, 0, none, some 7⟩, ⟨0, 1, none, some 8⟩]
    else if p = 1 then [⟨1, 4, none, none⟩] else []
  position p := if p = 1 then 4 else 0
  committed _ := 0

theorem fresh_twoPartitions : twoPartitions.Fresh := by
  refine ⟨rfl, fun p => ?_, fun p => ?_, fun p => ?_, fun p => Nat.zero_le _⟩
  all_goals
    match p with
    | 0 => decide
    | 1 => decide
    | n + 2 => simp [twoPartitions]

theorem consumption_is_at_least_once_stopped : ∃ (s : Subscription (Option ℕ))
    (log : List (StreamEvent (Option ℕ) ℕ)), s.phase = .stopped (some ⟨0, 1, none, some 8⟩) ∧
      s.committed 0 = 1 ∧ s.committed 1 = 5 ∧ .completed ⟨0, 0, none, some 7⟩ ∈ log := by
  obtain ⟨s, log, hexec, hphase, hfirst, hsecond⟩ : ∃ s log,
      (machine (μ := ℕ) id).exec twoPartitions
        [.handOut 0, .bodyDone, .commitReturns, .handOut 1, .commitReturns, .handOut 0, .leave] = some (s, log) ∧
      s.phase = .stopped (some ⟨0, 1, none, some 8⟩) ∧
      s.committed 0 = 1 ∧ s.committed 1 = 5 := ⟨_, _, rfl, rfl, rfl, rfl⟩
  have hcompleted := (consumption_is_at_least_once fresh_twoPartitions (Machine.Run.start.exec hexec)).1 0
    ⟨0, 0, none, some 7⟩ (List.mem_cons_self ..) (Option.some_ne_none _) (hfirst ▸ Nat.zero_lt_one)
  exact ⟨s, log, hphase, hfirst, hsecond, hcompleted⟩

end Subscription

end Airspace
