import Airspace.Common.Contracts
import Airspace.Common.Geodesy
import Airspace.Lib.Streaks
import Mathlib.Data.String.Basic

/-! Ground truth for conflict detection, computed from the simulator (`eval.conflict_truth`).

    A violation is an instant at which two aircraft are closer than both standards. The violations of one
    pair are merged into events: as long as the next one follows within the bridging time, it belongs to the
    same event. -/

namespace Airspace

noncomputable section

/-- Violations separated by no more than this are one event. -/
def eventBridgeS : ℚ := 30

/-- A real loss of separation, as it actually happened. -/
structure ConflictEvent where
  firstIcao24 : String
  secondIcao24 : String
  startedAt : Instant
  endedAt : Instant
  minHorizontalNm : ℝ
  minVerticalFt : ℝ

/-- `tuple(sorted((first_icao24, second_icao24)))`. -/
def ConflictEvent.pair (e : ConflictEvent) : String × String :=
  (min e.firstIcao24 e.secondIcao24, max e.firstIcao24 e.secondIcao24)

structure Violation where
  pair : String × String
  at_ : Instant
  horizontalNm : ℝ
  verticalFt : ℝ

/-- Accumulates truth samples and extracts the conflict events in them. -/
structure TruthConflictFinder where
  horizontalNm : ℝ := 5
  verticalFt : ℝ := 1000
  violations : List Violation := []

/-- The pairs two nested loops visit: every element with every later one. -/
def laterPairs {α : Type*} : List α → List (α × α)
  | [] => []
  | a :: l => l.map (fun b => (a, b)) ++ laterPairs l

/-- The event of a run of violations. -/
def eventFrom (pair : String × String) (run : Streak Violation) : ConflictEvent where
  firstIcao24 := pair.1
  secondIcao24 := pair.2
  startedAt := run.first.at_
  endedAt := run.last.at_
  minHorizontalNm := run.least Violation.horizontalNm
  minVerticalFt := run.least Violation.verticalFt

/-- The next violation follows closely enough to belong to the same event. -/
def bridged (v w : Violation) : Bool := totalSeconds (w.at_ - v.at_) ≤ eventBridgeS

namespace TruthConflictFinder

variable (f : TruthConflictFinder)

/-- The loop body: the violation of two aircraft at an instant, if they violate separation. -/
def violationOf (at_ : Instant) (first second : TruthState) : Option Violation :=
  let horizontal := haversineNm first.lat first.lon second.lat second.lon
  if horizontal ≥ f.horizontalNm then none
  else
    let vertical := |first.altitudeFt - second.altitudeFt|
    if vertical ≥ f.verticalFt then none
    else some ⟨(first.icao24, second.icao24), at_, horizontal, vertical⟩

/-- Record any pairs violating separation at this instant. -/
def observe (states : List TruthState) (at_ : Instant) : TruthConflictFinder :=
  let ordered := inKeyOrder TruthState.icao24 states
  { f with violations := f.violations ++ (laterPairs ordered).filterMap fun p => f.violationOf at_ p.1 p.2 }

/-- Merge instantaneous violations into discrete events, per pair. -/
def events : List ConflictEvent :=
  let byPair := Streak.group f.violations Violation.pair
  let merged := byPair.items.foldl (fun merged entry =>
    Streak.closeAll bridged (eventFrom entry.1) merged (entry.2.inOrder Violation.at_)) []
  inKeyOrder ConflictEvent.startedAt merged

/-- A run of observations. -/
def observeAll (calls : List (List TruthState × Instant)) : TruthConflictFinder :=
  calls.foldl (fun f call => f.observe call.1 call.2) f

end TruthConflictFinder

/-- The event lasts over a violation of its pair. -/
def ConflictEvent.Contains (e : ConflictEvent) (v : Violation) : Prop :=
  e.pair = v.pair ∧ e.startedAt ≤ v.at_ ∧ v.at_ ≤ e.endedAt

instance (e : ConflictEvent) (v : Violation) : Decidable (e.Contains v) := by
  unfold ConflictEvent.Contains
  infer_instance

/-- The violations within an event, in the order of time. -/
def TruthConflictFinder.contents (f : TruthConflictFinder) (e : ConflictEvent) : List Violation :=
  inKeyOrder Violation.at_ (f.violations.filter fun v => e.Contains v)

variable {f : TruthConflictFinder} {calls : List (List TruthState × Instant)}

/-! ### What is observed -/

section LaterPairs

variable {α β : Type*} {a b : α} {l : List α}

theorem mem_of_mem_laterPairs (h : (a, b) ∈ laterPairs l) : a ∈ l ∧ b ∈ l := by
  induction l with
  | nil => exact absurd h List.not_mem_nil
  | cons c l ih =>
    rcases List.mem_append.mp h with h | h
    · obtain ⟨d, hd, heq⟩ := List.mem_map.mp h
      obtain ⟨rfl, rfl⟩ := Prod.mk.inj heq
      exact ⟨List.mem_cons_self, List.mem_cons_of_mem _ hd⟩
    · exact ⟨List.mem_cons_of_mem _ (ih h).1, List.mem_cons_of_mem _ (ih h).2⟩

variable [LinearOrder β] {key : α → β}

theorem le_of_mem_laterPairs (hl : l.Pairwise fun x y => key x ≤ key y) (h : (a, b) ∈ laterPairs l) :
    key a ≤ key b := by
  induction l with
  | nil => exact absurd h List.not_mem_nil
  | cons c l ih =>
    obtain ⟨hc, hl⟩ := List.pairwise_cons.mp hl
    rcases List.mem_append.mp h with h | h
    · obtain ⟨d, hd, heq⟩ := List.mem_map.mp h
      obtain ⟨rfl, rfl⟩ := Prod.mk.inj heq
      exact hc _ hd
    · exact ih hl h

theorem mem_laterPairs (hl : l.Pairwise fun x y => key x ≤ key y) (ha : a ∈ l) (hb : b ∈ l)
    (hab : key a < key b) : (a, b) ∈ laterPairs l := by
  induction l with
  | nil => exact absurd ha List.not_mem_nil
  | cons c l ih =>
    obtain ⟨hc, hl⟩ := List.pairwise_cons.mp hl
    rcases List.mem_cons.mp ha with rfl | ha'
    · rcases List.mem_cons.mp hb with rfl | hb'
      · exact absurd hab (lt_irrefl _)
      · exact List.mem_append_left _ (List.mem_map_of_mem hb')
    · rcases List.mem_cons.mp hb with rfl | hb'
      · exact absurd (hc a ha') (not_le.mpr hab)
      · exact List.mem_append_right _ (ih hl ha' hb')

end LaterPairs

theorem violationOf_eq_some_iff {at_ : Instant} {first second : TruthState} {v : Violation} :
    f.violationOf at_ first second = some v ↔
      (haversineNm first.lat first.lon second.lat second.lon < f.horizontalNm ∧
        |first.altitudeFt - second.altitudeFt| < f.verticalFt) ∧
      v = ⟨(first.icao24, second.icao24), at_, haversineNm first.lat first.lon second.lat second.lon,
        |first.altitudeFt - second.altitudeFt|⟩ := by
  simp only [TruthConflictFinder.violationOf, ge_iff_le]
  split_ifs with hh hv
  · exact ⟨nofun, fun h => absurd h.1.1 (not_lt.mpr hh)⟩
  · exact ⟨nofun, fun h => absurd h.1.2 (not_lt.mpr hv)⟩
  · rw [Option.some_inj]
    exact ⟨fun h => ⟨⟨not_le.mp hh, not_le.mp hv⟩, h.symm⟩, fun h => h.2.symm⟩

theorem observeAll_concat (calls : List (List TruthState × Instant)) (call : List TruthState × Instant) :
    f.observeAll (calls ++ [call]) = (f.observeAll calls).observe call.1 call.2 := List.foldl_concat ..

/-- Observing changes no standard. -/
theorem violationOf_observeAll (at_ : Instant) (first second : TruthState) :
    (f.observeAll calls).violationOf at_ first second = f.violationOf at_ first second := by
  induction calls using List.reverseRecOn with
  | nil => rfl
  | append_singleton calls call ih =>
    rw [observeAll_concat, ← ih]
    rfl

/-- Every violation of two later aircraft in the order of addresses is recorded, and nothing else. -/
theorem mem_violations_observeAll (hnew : f.violations = []) {v : Violation} :
    v ∈ (f.observeAll calls).violations ↔ ∃ call ∈ calls,
      ∃ p ∈ laterPairs (inKeyOrder TruthState.icao24 call.1), f.violationOf call.2 p.1 p.2 = some v := by
  induction calls using List.reverseRecOn with
  | nil => simp [TruthConflictFinder.observeAll, hnew]
  | append_singleton calls call ih =>
    have hobserve : ((f.observeAll calls).observe call.1 call.2).violations =
        (f.observeAll calls).violations ++ (laterPairs (inKeyOrder TruthState.icao24 call.1)).filterMap
          fun p => (f.observeAll calls).violationOf call.2 p.1 p.2 := rfl
    rw [observeAll_concat, hobserve, List.mem_append, ih, List.mem_filterMap]
    simp only [violationOf_observeAll, List.mem_append, List.mem_singleton, or_and_right, exists_or,
      exists_eq_left]

/-- The pair of a violation is in the order of addresses. -/
theorem pair_le_of_mem_violations (hnew : f.violations = []) {v : Violation}
    (h : v ∈ (f.observeAll calls).violations) : v.pair.1 ≤ v.pair.2 := by
  obtain ⟨call, -, p, hp, hv⟩ := (mem_violations_observeAll hnew).mp h
  rw [(violationOf_eq_some_iff.mp hv).2]
  exact le_of_mem_laterPairs (pairwise_inKeyOrder _) hp

/-! ### What is merged -/

theorem pair_eventFrom {pair : String × String} (h : pair.1 ≤ pair.2) (run : Streak Violation) :
    (eventFrom pair run).pair = pair := by
  simp only [ConflictEvent.pair, eventFrom, min_eq_left h, max_eq_right h]

theorem bridged_of_at_eq (v w : Violation) (h : v.at_ = w.at_) : bridged v w := by
  simp [bridged, h, totalSeconds, eventBridgeS]

/-- The runs of one pair. -/
def runsOf (violations : List Violation) (pair : String × String) : List (Streak Violation) :=
  Streak.split bridged (inKeyOrder Violation.at_ (violations.filter fun v => v.pair = pair))

theorem pairwise_at (violations : List Violation) :
    (inKeyOrder Violation.at_ violations).Pairwise fun v w => v.at_ ≤ w.at_ := pairwise_inKeyOrder _

theorem within_iff {pair : String × String} (h : pair.1 ≤ pair.2) {run : Streak Violation} {v : Violation} :
    (eventFrom pair run).Contains v ↔ v.pair = pair ∧ run.Within Violation.at_ v := by
  rw [ConflictEvent.Contains, pair_eventFrom h, eq_comm]
  rfl

theorem pairwise_startedAt (violations : List Violation) (pair : String × String) :
    ((runsOf violations pair).map (eventFrom pair)).Pairwise fun d e => d.startedAt ≤ e.startedAt := by
  rw [List.pairwise_map]
  have hsorted := pairwise_at (violations.filter fun v => v.pair = pair)
  obtain ⟨hwithin, hbetween⟩ := Streak.pairwise_split_le bridged hsorted
  exact hbetween.imp fun h => h _ (Streak.first_mem _) _ (Streak.first_mem _)

/-- The events of one pair are its runs, in turn. -/
theorem filter_events (hpairs : ∀ v ∈ f.violations, v.pair.1 ≤ v.pair.2) (pair : String × String) :
    f.events.filter (fun e => e.pair = pair) = (runsOf f.violations pair).map (eventFrom pair) := by
  have hmerged : f.events = inKeyOrder ConflictEvent.startedAt
      ((Streak.group f.violations Violation.pair).items.flatMap fun entry =>
        (Streak.split bridged (inKeyOrder Violation.at_ entry.2.elements)).map (eventFrom entry.1)) := by
    simp only [TruthConflictFinder.events, Streak.closeAll_eq, Streak.inOrder, List.flatMap_eq_foldl]
  have hgroup := Streak.get?_group f.violations Violation.pair
  have hkey : ∀ entry ∈ (Streak.group f.violations Violation.pair).items, ∀ e ∈
      (Streak.split bridged (inKeyOrder Violation.at_ entry.2.elements)).map (eventFrom entry.1),
      e.pair = entry.1 := by
    intro entry hentry e he
    obtain ⟨run, -, rfl⟩ := List.mem_map.mp he
    have hget := hgroup entry.1
    rw [Dict.get?_eq_some_iff.mpr hentry] at hget
    have hfirst : entry.2.first ∈ f.violations.filter fun v => v.pair = entry.1 := hget ▸ entry.2.first_mem
    obtain ⟨hmem, hpair⟩ := List.mem_filter.mp hfirst
    exact pair_eventFrom (of_decide_eq_true hpair ▸ hpairs _ hmem) run
  have helim : ((Streak.group f.violations Violation.pair).get? pair).elim [] (fun run =>
      (Streak.split bridged (inKeyOrder Violation.at_ run.elements)).map (eventFrom pair)) =
        (runsOf f.violations pair).map (eventFrom pair) := by
    rw [runsOf, ← hgroup pair]
    cases (Streak.group f.violations Violation.pair).get? pair <;> rfl
  rw [hmerged, filter_inKeyOrder, Dict.filter_flatMap_items ConflictEvent.pair hkey, helim]
  exact List.Pairwise.insertionSort_eq (pairwise_startedAt f.violations pair)

theorem ConflictEvent.pair_le (e : ConflictEvent) : e.pair.1 ≤ e.pair.2 := by
  simp only [pair]
  exact min_le_max

/-- An event is made of one of its pair's runs. -/
theorem exists_run (hpairs : ∀ v ∈ f.violations, v.pair.1 ≤ v.pair.2) {e : ConflictEvent} (he : e ∈ f.events) :
    ∃ run ∈ runsOf f.violations e.pair, e = eventFrom e.pair run := by
  have hmem : e ∈ f.events.filter fun d => d.pair = e.pair := List.mem_filter.mpr ⟨he, decide_eq_true rfl⟩
  rw [filter_events hpairs] at hmem
  obtain ⟨run, hrun, heq⟩ := List.mem_map.mp hmem
  exact ⟨run, hrun, heq.symm⟩

/-- The violations within the event of a run are the run. -/
theorem contents_eq {pair : String × String} (h : pair.1 ≤ pair.2) {run : Streak Violation}
    (hrun : run ∈ runsOf f.violations pair) : f.contents (eventFrom pair run) = run.elements := by
  have hsorted := pairwise_at (f.violations.filter fun v => v.pair = pair)
  have hwithin := Streak.filter_within hsorted bridged_of_at_eq hrun
  rw [filter_inKeyOrder, List.filter_filter] at hwithin
  rw [TruthConflictFinder.contents, ← hwithin]
  congr 1
  refine List.filter_congr fun v _ => ?_
  rw [← Bool.decide_and, decide_eq_decide, within_iff h, and_comm]

/-- A violation is within exactly one event. -/
theorem exists_filter_contains (hpairs : ∀ v ∈ f.violations, v.pair.1 ≤ v.pair.2) {v : Violation}
    (hv : v ∈ f.violations) : ∃ e, f.events.filter (fun e => e.Contains v) = [e] := by
  have hsorted := pairwise_at (f.violations.filter fun w => w.pair = v.pair)
  have hmem : v ∈ inKeyOrder Violation.at_ (f.violations.filter fun w => w.pair = v.pair) :=
    (inKeyOrder_perm _).mem_iff.mpr (List.mem_filter.mpr ⟨hv, decide_eq_true rfl⟩)
  obtain ⟨run, hrun⟩ := Streak.exists_filter_within bridged hsorted bridged_of_at_eq hmem
  have hpair : ∀ e : ConflictEvent, e.Contains v ↔ e.Contains v ∧ e.pair = v.pair :=
    fun e => ⟨fun h => ⟨h, h.1⟩, And.left⟩
  refine ⟨eventFrom v.pair run, ?_⟩
  calc f.events.filter (fun e => e.Contains v)
      = (f.events.filter fun e => e.pair = v.pair).filter fun e => e.Contains v := by
        rw [List.filter_filter]
        refine List.filter_congr fun e _ => ?_
        rw [← Bool.decide_and, decide_eq_decide]
        exact hpair e
    _ = ((runsOf f.violations v.pair).filter fun run => run.Within Violation.at_ v).map
          (eventFrom v.pair) := by
        rw [filter_events hpairs, List.filter_map]
        congr 1
        refine List.filter_congr fun run _ => ?_
        rw [Function.comp_apply, decide_eq_decide, within_iff (hpairs v hv)]
        exact and_iff_right rfl
    _ = [eventFrom v.pair run] := by rw [runsOf, hrun, List.map_singleton]

/-- What an event says of its violations: when they start and end, how close they come, and that each follows
    the one before within the bridging time. -/
structure ConflictEvent.Spans (e : ConflictEvent) (contents : List Violation) : Prop where
  started : IsLeast {t | ∃ v ∈ contents, v.at_ = t} e.startedAt
  ended : IsGreatest {t | ∃ v ∈ contents, v.at_ = t} e.endedAt
  horizontal : IsLeast {d | ∃ v ∈ contents, v.horizontalNm = d} e.minHorizontalNm
  vertical : IsLeast {d | ∃ v ∈ contents, v.verticalFt = d} e.minVerticalFt
  bridged : contents.IsChain fun v w => totalSeconds (w.at_ - v.at_) ≤ eventBridgeS

theorem spans_contents (hpairs : ∀ v ∈ f.violations, v.pair.1 ≤ v.pair.2) {e : ConflictEvent}
    (he : e ∈ f.events) : e.Spans (f.contents e) := by
  obtain ⟨run, hrun, heq⟩ := exists_run hpairs he
  have hsorted := pairwise_at (f.violations.filter fun v => v.pair = e.pair)
  have hrows := (Streak.pairwise_split_le bridged hsorted).1 run hrun
  have hcontents : f.contents e = run.elements := by
    rw [heq]
    exact contents_eq e.pair_le hrun
  rw [hcontents, heq]
  constructor
  · exact ⟨⟨_, run.first_mem, rfl⟩, fun t ⟨v, hv, hvt⟩ => hvt ▸ (Streak.mem_between hrows hv).1⟩
  · exact ⟨⟨_, run.last_mem, rfl⟩, fun t ⟨v, hv, hvt⟩ => hvt ▸ (Streak.mem_between hrows hv).2⟩
  · exact run.isLeast_least Violation.horizontalNm
  · exact run.isLeast_least Violation.verticalFt
  · exact (Streak.isChain_of_mem_split hrun).imp fun v w h => of_decide_eq_true h

/-- The next event of a pair starts more than the bridging time after the one before has ended. -/
theorem isChain_events (hpairs : ∀ v ∈ f.violations, v.pair.1 ≤ v.pair.2) (pair : String × String) :
    (f.events.filter fun e => e.pair = pair).IsChain
      fun d e => eventBridgeS < totalSeconds (e.startedAt - d.endedAt) := by
  rw [filter_events hpairs, List.isChain_map]
  exact (Streak.isChain_split bridged _).imp fun _ _ h => not_le.mp (of_decide_eq_false h)

/-- The events of a run of observations partition the violations observed. A violation is recorded for every
    two aircraft within both standards at an instant, and for nothing else; it is within exactly one event of
    its pair; an event starts, ends and comes as close as the violations within it, which follow one another
    within the bridging time; the events of one pair are more than the bridging time apart; and all are in the
    order of their starts. The instants need not even increase. -/
theorem events_partition (horizontalNm verticalFt : ℝ) (calls : List (List TruthState × Instant)) :
    let f := ({ horizontalNm, verticalFt } : TruthConflictFinder).observeAll calls
    (∀ v ∈ f.violations, ∃ call ∈ calls, ∃ first ∈ call.1, ∃ second ∈ call.1,
      first.icao24 ≤ second.icao24 ∧ (haversineNm first.lat first.lon second.lat second.lon < horizontalNm ∧
        |first.altitudeFt - second.altitudeFt| < verticalFt) ∧
      v = ⟨(first.icao24, second.icao24), call.2, haversineNm first.lat first.lon second.lat second.lon,
        |first.altitudeFt - second.altitudeFt|⟩) ∧
    (∀ call ∈ calls, ∀ first ∈ call.1, ∀ second ∈ call.1, first.icao24 < second.icao24 →
      haversineNm first.lat first.lon second.lat second.lon < horizontalNm →
      |first.altitudeFt - second.altitudeFt| < verticalFt →
      ⟨(first.icao24, second.icao24), call.2, haversineNm first.lat first.lon second.lat second.lon,
        |first.altitudeFt - second.altitudeFt|⟩ ∈ f.violations) ∧
    (∀ v ∈ f.violations, ∃ e, f.events.filter (fun e => e.Contains v) = [e]) ∧
    (∀ e ∈ f.events, e.Spans (f.contents e)) ∧
    (∀ pair, (f.events.filter fun e => e.pair = pair).IsChain
      fun d e => eventBridgeS < totalSeconds (e.startedAt - d.endedAt)) ∧
    f.events.Pairwise fun d e => d.startedAt ≤ e.startedAt := by
  intro f
  have hpairs : ∀ v ∈ f.violations, v.pair.1 ≤ v.pair.2 := fun v hv => pair_le_of_mem_violations rfl hv
  have hmem : ∀ v, v ∈ f.violations ↔ _ := fun v => mem_violations_observeAll rfl
  refine ⟨fun v hv => ?_, fun call hcall first hfirst second hsecond hlt hh hv => ?_,
    fun v hv => exists_filter_contains hpairs hv, fun e he => spans_contents hpairs he,
    isChain_events hpairs, pairwise_inKeyOrder _⟩
  · obtain ⟨call, hcall, p, hp, hviolation⟩ := (hmem v).mp hv
    obtain ⟨hinside, heq⟩ := violationOf_eq_some_iff.mp hviolation
    obtain ⟨hfirst, hsecond⟩ := mem_of_mem_laterPairs hp
    exact ⟨call, hcall, p.1, (inKeyOrder_perm _).mem_iff.mp hfirst, p.2, (inKeyOrder_perm _).mem_iff.mp hsecond,
      le_of_mem_laterPairs (pairwise_inKeyOrder _) hp, hinside, heq⟩
  · refine (hmem _).mpr ⟨call, hcall, (first, second), ?_, violationOf_eq_some_iff.mpr ⟨⟨hh, hv⟩, rfl⟩⟩
    exact mem_laterPairs (pairwise_inKeyOrder _) ((inKeyOrder_perm _).mem_iff.mpr hfirst)
      ((inKeyOrder_perm _).mem_iff.mpr hsecond) hlt

end

end Airspace
