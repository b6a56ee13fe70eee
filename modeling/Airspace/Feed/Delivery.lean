import Airspace.Common.Subscriber
import Airspace.Common.Wire
import Airspace.Feed.Runner

/-! From the feed to a consumer.

    The broker keeps the messages of a topic by the partition of their key, each partition in the order of
    sending. A consumer of the reports reads every one of them as the feed wrote it: it discards none, and
    sees of every aircraft what the feed published of it, in that order, up to where it has come. -/

namespace Airspace

noncomputable section

/-! ### Consuming what decodes -/

namespace Subscription

variable {ν μ : Type*} {validate : ν → Option μ} {start s s' : Subscription ν}
  {log shown : List (StreamEvent ν μ)}
  {turn : StreamTurn}

/-- The messages yielded from a partition. -/
def yieldedFrom (p : ℕ) (log : List (StreamEvent ν μ)) : List μ :=
  log.filterMap fun event => match event with
    | .yielded _ envelope => if envelope.partition = p then some envelope.message else none
    | _ => none

theorem yieldedFrom_append (p : ℕ) (log log' : List (StreamEvent ν μ)) :
    yieldedFrom p (log ++ log') = yieldedFrom p log ++ yieldedFrom p log' := List.filterMap_append

/-- Every record decodes, and those of a partition are yielded in their order. -/
structure InOrder (validate : ν → Option μ) (start s : Subscription ν) (log : List (StreamEvent ν μ)) :
    Prop where
  partition : ∀ p, ∀ r ∈ s.remaining p, r.partition = p
  decodes : ∀ p, ∀ r ∈ s.remaining p, validate r.value ≠ none
  kept : ∀ r, .discarded r ∉ log
  ordered : ∀ p, (yieldedFrom p log).map some ++ (s.remaining p).map (fun r => validate r.value) =
    (start.remaining p).map fun r => validate r.value

/-- Turns that hand nothing out show no message. -/
theorem InOrder.quiet (h : InOrder validate start s log) (hremaining : s'.remaining = s.remaining)
    (hshown : ∀ event ∈ shown, ∃ r, event = .completed r) : InOrder validate start s' (log ++ shown) := by
  have hnone : ∀ p, yieldedFrom p shown = [] := by
    intro p
    refine List.filterMap_eq_nil_iff.mpr fun event hevent => ?_
    obtain ⟨r, rfl⟩ := hshown event hevent
    rfl
  refine ⟨?_, ?_, fun r hr => ?_, fun p => ?_⟩
  · rw [hremaining]
    exact h.partition
  · rw [hremaining]
    exact h.decodes
  · rcases List.mem_append.mp hr with hr | hr
    · exact h.kept r hr
    · obtain ⟨r', heq⟩ := hshown _ hr
      cases heq
  · rw [yieldedFrom_append, hnone, List.append_nil, hremaining]
    exact h.ordered p

theorem InOrder.step (h : InOrder validate start s log) (hstep : s.step validate turn = some (s', shown)) :
    InOrder validate start s' (log ++ shown) := by
  cases moves hstep with
  | yields record rest partition message hphase hnext hvalid =>
    have hmem : record ∈ s.remaining partition := hnext ▸ List.mem_cons_self
    obtain rfl := h.partition partition record hmem
    have hsub := sublist_remaining_taken hnext
    refine ⟨fun p r hr => h.partition p r ((hsub p).subset hr), fun p r hr => h.decodes p r ((hsub p).subset hr),
      fun r hr => h.kept r (by simpa using hr), fun p => ?_⟩
    rw [yieldedFrom_append, ← h.ordered p]
    by_cases hp : p = record.partition
    · subst hp
      simp [yieldedFrom, taken, hnext, hvalid]
    · have hp' : ¬ record.partition = p := fun heq => hp heq.symm
      simp [yieldedFrom, taken, Function.update_of_ne hp, hp']
  | skips record rest partition hphase hnext hvalid =>
    exact absurd hvalid (h.decodes partition record (hnext ▸ List.mem_cons_self))
  | completes record hphase => exact h.quiet rfl (by simp)
  | commits record hphase => exact h.quiet rfl (by simp)
  | failsToCommit record applied hphase => exact h.quiet (by cases applied <;> rfl) (by simp)
  | leaves inHand hphase => exact h.quiet rfl (by simp)

/-- A consumer whose records all decode discards none of them, and yields those of a partition in their order,
    up to what remains. -/
theorem inOrder_run (hpartition : ∀ p, ∀ r ∈ start.remaining p, r.partition = p)
    (hdecodes : ∀ p, ∀ r ∈ start.remaining p, validate r.value ≠ none)
    (hrun : (machine validate).Run (fun _ _ => True) start s log) : InOrder validate start s log := by
  refine hrun.invariant ?_ fun _ _ _ _ _ h _ hstep => h.step hstep
  exact ⟨hpartition, hdecodes, by simp, fun p => by simp [yieldedFrom]⟩

end Subscription

/-! ### The broker -/

/-- A message as the feed writes it. -/
def Published.document (lax : Lax) (m : Published) : Json ℝ :=
  match m.message with
  | .report report => (Topic.codec lax .surveillanceReports).write report
  | .truth state => (Topic.codec lax .simTruth).write state

/-- The messages of a topic that the broker keeps in a partition. -/
def partitionLog (partitionOf : String → ℕ) (topic : String) (p : ℕ) (log : List Published) : List Published :=
  log.filter fun m => m.topic = topic ∧ partitionOf m.key = p

/-- A consumer of the reports that has read nothing yet. -/
def reportConsumer (lax : Lax) (partitionOf : String → ℕ) (log : List Published) : Subscription (Json ℝ) where
  remaining p := (partitionLog partitionOf topicSurveillanceReports p log).zipIdx.map fun entry =>
    ⟨p, entry.2, some entry.1.key, entry.1.document lax⟩
  position _ := 0
  committed _ := 0

/-- `SurveillanceReport.model_validate_json`, the errors left out. -/
def validateReport (lax : Lax) (j : Json ℝ) : Option SurveillanceReport :=
  ((Topic.codec lax .surveillanceReports).read j).toOption

/-- What a consumer has been given of one aircraft. -/
def seenOf (icao24 : String) (events : List (StreamEvent (Json ℝ) SurveillanceReport)) : List SurveillanceReport :=
  events.filterMap fun event => match event with
    | .yielded _ envelope => if envelope.message.icao24 = icao24 then some envelope.message else none
    | _ => none

/-- Messages the consumers can read: sound, at instants a `datetime` can hold, and in order. -/
structure Readable (log : List Published) : Prop where
  sound : ∀ m ∈ log, m.Sound
  datetime : ∀ m ∈ log, IsDatetime m.at
  before : log.Pairwise Published.Before

section

variable {lax : Lax} {partitionOf : String → ℕ} {log : List Published} {s : Subscription (Json ℝ)}
  {events : List (StreamEvent (Json ℝ) SurveillanceReport)} {p : ℕ} {m : Published}

/-- A message of the reports' topic is a report, read as it was written. -/
theorem validateReport_document (lax : Lax) (h : Readable log)
    (hm : m ∈ partitionLog partitionOf topicSurveillanceReports p log) :
    ∃ r, m.message = .report r ∧ partitionOf r.icao24 = p ∧ validateReport lax (m.document lax) = some r := by
  obtain ⟨hmem, htopic, hpartition⟩ : m ∈ log ∧ m.topic = topicSurveillanceReports ∧ partitionOf m.key = p := by
    simpa [partitionLog] using hm
  have hsound := h.sound m hmem
  have hdatetime := h.datetime m hmem
  obtain ⟨topic, key, message⟩ := m
  cases message with
  | report r =>
    obtain ⟨-, hkey, hadmitted⟩ := hsound
    refine ⟨r, rfl, (congrArg partitionOf hkey).symm.trans hpartition, ?_⟩
    have hread : (Topic.codec lax .surveillanceReports).read
        ((Topic.codec lax .surveillanceReports).write r) = .ok r :=
      (Topic.codec lax .surveillanceReports).read_write r (lax.valid_surveillanceReport_iff r |>.mpr
        ⟨hadmitted, hdatetime⟩)
    simp only [validateReport, Published.document, hread]
    rfl
  | truth t =>
    have hsame : topicSimTruth = topicSurveillanceReports := hsound.1.symm.trans htopic
    exact absurd hsame (by decide)

theorem validate_remaining (h : Readable log) (p : ℕ) :
    ((reportConsumer lax partitionOf log).remaining p).map (fun r => validateReport lax r.value) =
      (reportsIn (partitionLog partitionOf topicSurveillanceReports p log)).map some := by
  have hone : ∀ messages : List Published, (∀ m ∈ messages, ∃ r, m.message = .report r ∧
      validateReport lax (m.document lax) = some r) →
        messages.map (fun m => validateReport lax (m.document lax)) = (reportsIn messages).map some := by
    intro messages
    induction messages with
    | nil => simp
    | cons m messages ih =>
      intro hall
      obtain ⟨⟨r, hmessage, hread⟩, hrest⟩ := List.forall_mem_cons.mp hall
      have hcons : reportsIn (m :: messages) = r :: reportsIn messages := by simp [reportsIn, hmessage]
      rw [List.map_cons, hread, ih hrest, hcons, List.map_cons]
  have hvalues := hone (partitionLog partitionOf topicSurveillanceReports p log) fun m hm => by
    obtain ⟨r, hmessage, -, hread⟩ := validateReport_document lax h hm
    exact ⟨r, hmessage, hread⟩
  rw [← hvalues, reportConsumer, List.map_map]
  conv_rhs =>
    rw [← List.zipIdx_map_fst 0 (partitionLog partitionOf topicSurveillanceReports p log), List.map_map]
  rfl

/-- The reports of one aircraft are all in its partition. -/
theorem filter_partitionLog (h : Readable log) (icao24 : String) :
    (reportsIn (partitionLog partitionOf topicSurveillanceReports (partitionOf icao24) log)).filter
        (fun r => r.icao24 = icao24) = (reportsIn log).filter fun r => r.icao24 = icao24 := by
  have hsound := h.sound
  clear h
  induction log with
  | nil => rfl
  | cons m log ih =>
    obtain ⟨hm, hrest⟩ := List.forall_mem_cons.mp hsound
    have hstep := ih hrest
    obtain ⟨topic, key, message⟩ := m
    cases message with
    | report r =>
      obtain ⟨rfl, rfl, -⟩ := hm
      by_cases hpartition : partitionOf r.icao24 = partitionOf icao24
      · by_cases hown : r.icao24 = icao24 <;>
          simpa [partitionLog, reportsIn, hpartition, List.filter_cons, hown] using hstep
      · have hother : r.icao24 ≠ icao24 := fun heq => hpartition (congrArg partitionOf heq)
        simpa [partitionLog, reportsIn, hpartition, hother] using hstep
    | truth t =>
      obtain ⟨rfl, rfl, -⟩ := hm
      have hdiff : topicSimTruth ≠ topicSurveillanceReports := by decide
      simpa [partitionLog, reportsIn, hdiff] using hstep

/-- What has been yielded of an aircraft came from its partition. -/
theorem seenOf_eq (hown : ∀ p, ∀ r ∈ Subscription.yieldedFrom p events, partitionOf r.icao24 = p)
    (icao24 : String) :
    seenOf icao24 events =
      (Subscription.yieldedFrom (partitionOf icao24) events).filter fun r => r.icao24 = icao24 := by
  rw [Subscription.yieldedFrom, List.filter_filterMap, seenOf]
  refine List.filterMap_congr fun event hevent => ?_
  cases event with
  | yielded record envelope =>
    have hmem : envelope.message ∈ Subscription.yieldedFrom envelope.partition events :=
      List.mem_filterMap.mpr ⟨.yielded record envelope, hevent, by simp⟩
    have hpartition := hown envelope.partition envelope.message hmem
    by_cases hsame : envelope.message.icao24 = icao24
    · have hhere : envelope.partition = partitionOf icao24 := by rw [← hpartition, hsame]
      simp [hsame, hhere, Option.filter_some]
    · by_cases hhere : envelope.partition = partitionOf icao24 <;> simp [hsame, hhere, Option.filter_some]
  | _ => rfl

/-- A consumer of readable messages discards none, and has been given of every aircraft the first so many of
    its reports. -/
theorem seen_of_readable (h : Readable log)
    (hrun : (Subscription.machine (validateReport lax)).Run (fun _ _ => True)
      (reportConsumer lax partitionOf log) s
      events) :
    (∀ r, .discarded r ∉ events) ∧
      ∀ icao24, seenOf icao24 events <+: (reportsIn log).filter fun r => r.icao24 = icao24 := by
  have hpartition : ∀ p, ∀ r ∈ (reportConsumer lax partitionOf log).remaining p, r.partition = p := by
    intro p r hr
    obtain ⟨entry, -, rfl⟩ := List.mem_map.mp hr
    rfl
  have hdecodes : ∀ p, ∀ r ∈ (reportConsumer lax partitionOf log).remaining p,
      validateReport lax r.value ≠ none := by
    intro p r hr hnone
    have hmem := List.mem_map_of_mem (f := fun r => validateReport lax r.value) hr
    rw [validate_remaining h, hnone] at hmem
    obtain ⟨_, -, heq⟩ := List.mem_map.mp hmem
    cases heq
  have horder := Subscription.inOrder_run hpartition hdecodes hrun
  have hfirst : ∀ p, Subscription.yieldedFrom p events <+:
      reportsIn (partitionLog partitionOf topicSurveillanceReports p log) := by
    intro p
    have hall := horder.ordered p
    rw [validate_remaining h] at hall
    obtain ⟨given, rest, hsplit, hgiven, -⟩ := List.map_eq_append_iff.mp hall.symm
    obtain rfl : given = Subscription.yieldedFrom p events :=
      (List.map_injective_iff.mpr (Option.some_injective _)) hgiven
    exact ⟨rest, hsplit.symm⟩
  have hown : ∀ p, ∀ r ∈ Subscription.yieldedFrom p events, partitionOf r.icao24 = p := by
    intro p r hr
    obtain ⟨m, hm, hmessage⟩ := List.mem_filterMap.mp ((hfirst p).subset hr)
    obtain ⟨r', hreport, hpartition', -⟩ := validateReport_document lax h hm
    simp only [hreport, Option.some.injEq] at hmessage
    exact hmessage ▸ hpartition'
  refine ⟨horder.kept, fun icao24 => ?_⟩
  rw [seenOf_eq hown, ← filter_partitionLog h]
  exact (hfirst (partitionOf icao24)).filter _

/-- The reports of an aircraft in a readable log are about later and later instants. -/
theorem pairwise_reportsIn (h : Readable log) (icao24 : String) :
    ((reportsIn log).filter fun r => r.icao24 = icao24).Pairwise fun r r' => r.observedAt < r'.observedAt := by
  have hall : (reportsIn log).Pairwise fun r r' => r.icao24 = r'.icao24 → r.observedAt < r'.observedAt := by
    refine List.pairwise_filterMap.mpr (h.before.imp_of_mem ?_)
    intro m m' hm hm' hbefore r hr r' hr' hsame
    have hsound := h.sound m hm
    have hsound' := h.sound m' hm'
    obtain ⟨topic, key, message⟩ := m
    obtain ⟨topic', key', message'⟩ := m'
    cases message with
    | truth t => cases hr
    | report r₁ =>
      cases message' with
      | truth t => cases hr'
      | report r₂ =>
        obtain rfl := Option.some_inj.mp hr
        obtain rfl := Option.some_inj.mp hr'
        obtain ⟨rfl, rfl, -⟩ := hsound
        obtain ⟨rfl, rfl, -⟩ := hsound'
        exact hbefore rfl hsame
  refine (hall.filter _).imp_of_mem fun hr hr' hlt => hlt ?_
  exact (of_decide_eq_true (List.mem_filter.mp hr).2).trans (of_decide_eq_true (List.mem_filter.mp hr').2).symm

end

/-! ### From end to end -/

namespace FeedRunner

variable {γ : Type}

theorem readable_run (edge : Edge γ) (runner : FeedRunner) (startTime : Option Instant)
    (hinterval : 1 / 1000000 < runner.reportIntervalS) (hstart : IsDatetime (startOf startTime {}))
    (hend : IsDatetime (startOf startTime {} + timedelta (runner.turns * runner.reportIntervalS))) :
    ∃ result, (∀ fuel ≥ runner.turns, run edge runner fuel startTime {} = some result) ∧
      Readable (logOf result) := by
  obtain ⟨result, sim, messages, n, hrun, hscript, hlog⟩ := run_takes edge runner startTime {}
  have hscripted := scripted_script hscript
  have hmem : ∀ m ∈ logOf result, m ∈ messages := fun m hm => List.mem_of_mem_take (hlog ▸ hm)
  refine ⟨result, hrun, fun m hm => hscripted.sound m (hmem m hm), fun m hm => ?_, ?_⟩
  · obtain ⟨j, -, hj, hat⟩ := hscripted.timed m (hmem m hm)
    have hnone : timedelta 0 = 0 := by simp [timedelta, roundHalfEven]
    have hlow : timedelta 0 ≤ timedelta (j * runner.reportIntervalS) := by
      simpa using (timedelta_strictMono hinterval).monotone (Nat.zero_le j)
    have hhigh : timedelta (j * runner.reportIntervalS) ≤ timedelta (runner.turns * runner.reportIntervalS) :=
      (timedelta_strictMono hinterval).monotone hj
    rw [hat]
    exact ⟨by linarith [hstart.1], by linarith [hend.2]⟩
  · rw [hlog]
    exact (pairwise_script hinterval hscript).sublist (List.take_sublist n messages)

end FeedRunner

end

end Airspace
