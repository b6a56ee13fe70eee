import Airspace.Eval.CheckedReplay
import Airspace.Ml.Predictor

/-! Training data from scenarios run through the real pipeline (`acp.ml.dataset`).

    A sample is twenty seconds of filtered updates as features, and the residual of where the aircraft truly
    was some horizon later as its label.

        simulation ──truth──▶ by aircraft and second ────────────▶ labels
             └──reports──▶ estimator ──confirmed updates──▶ windows ──▶ features -/

namespace Airspace

noncomputable section

/-! ### Lists filed under keys -/

/-- `d.get(key, [])`. -/
def listed {α : Type} (d : Dict String (List α)) (key : String) : List α := (d.get? key).getD []

/-- `d.setdefault(key, []).append(a)`. -/
def appendTo {α : Type} (d : Dict String (List α)) (key : String) (a : α) : Dict String (List α) :=
  d.set key (listed d key ++ [a])

theorem listed_appendTo {α : Type} (d : Dict String (List α)) (key k : String) (a : α) :
    listed (appendTo d key a) k = listed d k ++ if k = key then [a] else [] := by
  rw [listed, appendTo, Dict.get?_set]
  split_ifs with hk
  · rw [hk, Option.getD_some]
  · rw [List.append_nil, listed]

/-! ### Gathering -/

/-- Where an aircraft truly is, and what it is doing. -/
structure TruthPoint where
  lat : ℝ
  lon : ℝ
  altitudeFt : ℝ
  phase : String

def TruthPoint.of (state : TruthState) : TruthPoint where
  lat := state.lat
  lon := state.lon
  altitudeFt := state.altitudeFt
  phase := state.phase

/-- What is gathered of a scenario, between two turns of the loop: the updates of each aircraft, and where
    it truly was at each whole second. -/
structure Gathering (γ : Type) where
  simulation : Simulation γ
  estimator : TrackEstimator := {}
  history : Dict String (List TrackUpdate) := Dict.empty
  truth : Dict String (Dict ℤ TruthPoint) := Dict.empty

/-- `truth.get(icao24, {}).get(second)`. -/
def truthAt (truth : Dict String (Dict ℤ TruthPoint)) (icao24 : String) (second : ℤ) : Option TruthPoint :=
  (truth.get? icao24).bind fun d => d.get? second

namespace Gathering

variable {γ : Type} (rng : Random γ)

/-- `truth.setdefault(state.icao24, {})[second] = ...`. -/
def note (second : ℤ) (truth : Dict String (Dict ℤ TruthPoint)) (state : TruthState) :
    Dict String (Dict ℤ TruthPoint) :=
  truth.set state.icao24 (((truth.get? state.icao24).getD Dict.empty).set second (.of state))

/-- Only confirmed tracks: an initiating track's velocity is still dominated by its first guess. -/
def collect (history : Dict String (List TrackUpdate)) (update : TrackUpdate) : Dict String (List TrackUpdate) :=
  if update.state = .confirmed then appendTo history update.icao24 update else history

def hear (acc : TrackEstimator × Dict String (List TrackUpdate)) (report : SurveillanceReport) :
    TrackEstimator × Dict String (List TrackUpdate) :=
  let out := acc.1.onReport report
  (out.1, collect acc.2 out.2)

/-- One turn of the loop. -/
def tick (g : Gathering γ) : Except SimError (Gathering γ) := do
  let simulation ← g.simulation.advance 1
  let truth := simulation.truth.foldl (note (roundHalfEven simulation.elapsedS)) g.truth
  let (simulation, reports) ← simulation.observe rng
  let heard := reports.foldl hear (g.estimator, g.history)
  return { simulation := simulation, estimator := heard.1, history := heard.2, truth := truth }

/-- The same with an estimator that raises. -/
def tickChecked (g : Gathering γ) : Except RunError (Gathering γ) := do
  let simulation ← lookup (g.simulation.advance 1)
  let truth := simulation.truth.foldl (note (roundHalfEven simulation.elapsedS)) g.truth
  let (simulation, reports) ← lookup (simulation.observe rng)
  let heard ← reports.foldlM (answeringChecked collect) (g.estimator, g.history)
  return { simulation := simulation, estimator := heard.1, history := heard.2, truth := truth }

def init (sha256 : ByteArray → List UInt8) (scenario : Scenario) : Gathering γ where
  simulation := Simulation.init sha256 rng scenario replayStart

end Gathering

/-- `_run_scenario` where nothing is refused: replay one scenario, collecting filtered tracks and truth side
    by side. -/
def runScenario {γ : Type} (sha256 : ByteArray → List UInt8) (rng : Random γ) (fuel : ℕ) (scenario : Scenario) :
    Option (Except SimError (Gathering γ)) :=
  whileNot (fun g => g.simulation.finished) (Gathering.tick rng) fuel (Gathering.init rng sha256 scenario)

/-- `_run_scenario`, or what it raises. -/
def runScenarioChecked {γ : Type} (sha256 : ByteArray → List UInt8) (rng : Random γ) (fuel : ℕ)
    (scenario : Scenario) : Option (Except RunError (Gathering γ)) :=
  whileNot (fun g => g.simulation.finished) (Gathering.tickChecked rng) fuel (Gathering.init rng sha256 scenario)

/-! ### Samples -/

structure Sample where
  features : List ℝ
  target : Residual
  baselineErrorNm : ℝ
  scenarioId : String
  phase : String

/-- A sample: the residual of the answer from dead reckoning, for the features of the window. -/
def sampleOf (scenarioId : String) (horizonS : ℚ) (features : List ℝ) (current : TrackUpdate)
    (answer atPredictionTime : TruthPoint) : Sample :=
  let baseline := Baselines.deadReckon (Baselines.stateFrom current) horizonS
  let residual := Baselines.alongCrossTrackError baseline answer.lat answer.lon current.trackDeg
  { features := features
    target :=
      { alongTrackNm := residual.1
        crossTrackNm := residual.2
        altitudeFt := answer.altitudeFt - baseline.altitudeFt }
    baselineErrorNm := Baselines.hypot residual.1 residual.2
    scenarioId := scenarioId
    phase := atPredictionTime.phase }

/-- The windows of a history: twenty updates, one after the other. -/
def windowsOf (updates : List TrackUpdate) : List (List TrackUpdate) :=
  (List.range' (windowLength - 1) (updates.length - (windowLength - 1))).map fun index =>
    (updates.take (index + 1)).drop (index + 1 - windowLength)

/-- Seconds since the epoch, recovered from the update's own timestamp. -/
def secondOf (update : TrackUpdate) : ℤ := roundHalfEven (totalSeconds (update.updatedAt - replayStart))

/-- The sample of a window; none if the aircraft left, or the run ended before the horizon. -/
def sampleAt (scenarioId : String) (horizonS : ℚ) (truth : ℤ → Option TruthPoint) (window : List TrackUpdate) :
    Option Sample :=
  match window.getLast?, extract window with
  | some current, .ok features =>
    match truth (secondOf current + roundHalfEven horizonS), truth (secondOf current) with
    | some answer, some atPredictionTime =>
      some (sampleOf scenarioId horizonS features current answer atPredictionTime)
    | _, _ => none
  -- a window has a last update and features
  | _, _ => none

/-- `_samples_from`, once the scenario is run. -/
def samplesFrom {γ : Type} (g : Gathering γ) (horizonS : ℚ) : List Sample :=
  g.history.items.flatMap fun entry =>
    (windowsOf entry.2).filterMap (sampleAt g.simulation.scenario.scenarioId horizonS (truthAt g.truth entry.1))

/-- Features, residual targets, and enough context to audit a sample; never without a sample. -/
structure Dataset where
  samples : List Sample
  horizonS : ℚ
  nonempty : samples ≠ []

/-- `build`: a dataset from scenarios run in turn; without a sample it is an error. -/
def build (gathered : List (List Sample)) (horizonS : ℚ) : Except String Dataset :=
  if h : gathered.flatten = [] then .error "no samples produced; scenarios may be shorter than the horizon"
  else .ok { samples := gathered.flatten, horizonS := horizonS, nonempty := h }

/-! ### The exact states -/

/-- The exact state of an aircraft at a whole second of a run. -/
def exactAt (spec : AircraftSpec) : ℕ → AircraftTruth
  | 0 => initialTruth spec
  | k + 1 => stepped spec k (k + 1) 1 (exactAt spec k)

/-- Where an aircraft truly is in a state, and what it is doing. -/
def pointOf (s : AircraftTruth) : TruthPoint where
  lat := s.lat
  lon := s.lon
  altitudeFt := s.altitudeFt
  phase := s.phase

theorem airborne_exactAt (spec : AircraftSpec) (k : ℕ) :
    (exactAt spec (k + 1)).airborne = decide (spec.entryTimeS ≤ k + 1) := by
  rw [exactAt, stepped, advanceAircraft]
  by_cases h : spec.entryTimeS ≤ (k : ℚ) + 1
  · simp [h]
  · simp [h]

/-- The exact position of an aircraft at a second of a run of `n` seconds: known from its entry on. -/
def exactPoint (spec : AircraftSpec) (n : ℕ) (second : ℤ) : Option TruthPoint :=
  if 1 ≤ second ∧ second ≤ n ∧ spec.entryTimeS ≤ second then some (pointOf (exactAt spec second.toNat)) else none

namespace Gathering

open Replay (Flown instantAt)

variable {γ : Type} {rng : Random γ} {sha256 : ByteArray → List UInt8} {scenario : Scenario} {g : Gathering γ}
  {k : ℕ} {icao24 : String}

/-! ### The truth table -/

/-- Noting states at a second changes the table at that second, for the aircraft noted. -/
theorem truthAt_foldl_note (second : ℤ) (truth : Dict String (Dict ℤ TruthPoint)) (states : List TruthState)
    (icao24 : String) (n : ℤ) : truthAt (states.foldl (note second) truth) icao24 n =
      if n = second then
        ((states.filter fun t => t.icao24 = icao24).getLast?.map TruthPoint.of).or (truthAt truth icao24 n)
      else truthAt truth icao24 n := by
  induction states using List.reverseRecOn with
  | nil => simp
  | append_singleton states t ih =>
    rw [List.foldl_concat, List.filter_append, truthAt, note, Dict.get?_set]
    by_cases hkey : icao24 = t.icao24
    · subst hkey
      simp only [if_true, Option.bind_some, Dict.get?_set, List.filter_singleton, decide_true, cond_true,
        List.getLast?_concat, Option.map_some, Option.some_or]
      by_cases hn : n = second
      · rw [if_pos hn, if_pos hn]
      · rw [if_neg hn] at ih ⊢
        rw [if_neg hn, ← ih, truthAt]
        cases (states.foldl (note second) truth).get? t.icao24 <;> rfl
    · rw [if_neg hkey, List.filter_singleton, decide_eq_false (Ne.symm hkey), Bool.cond_false, List.append_nil]
      exact ih

/-! ### The updates heard -/

theorem updatedAt_onReport (e : TrackEstimator) (r : SurveillanceReport) :
    (e.onReport r).2.updatedAt = r.observedAt := by
  rw [TrackEstimator.onReport, TrackEstimator.toUpdate]

/-- What reports add to the updates of one aircraft. -/
structure Added (now : Instant) (icao24 : String) (reports : List SurveillanceReport)
    (new : List TrackUpdate) : Prop where
  length : new.length ≤ (reports.filter fun r => r.icao24 = icao24).length
  updates : ∀ u ∈ new, u.icao24 = icao24 ∧ u.updatedAt = now ∧ u.state = .confirmed

theorem added_hear {e : TrackEstimator} (history : Dict String (List TrackUpdate)) (hfiled : e.Filed)
    (r : SurveillanceReport) (icao24 : String) : ∃ new,
      listed (hear (e, history) r).2 icao24 = listed history icao24 ++ new ∧
        Added r.observedAt icao24 [r] new := by
  have hicao := (TrackEstimator.filed_onReport hfiled r).2.1
  have hupdated := updatedAt_onReport e r
  change ∃ new, listed (collect history (e.onReport r).2) icao24 = _ ∧ _
  generalize (e.onReport r).2 = u at hicao hupdated
  rw [collect]
  split_ifs with hconfirmed
  · refine ⟨_, listed_appendTo history u.icao24 icao24 u, ?_⟩
    rw [hicao]
    split_ifs with hkey
    · subst hkey
      refine ⟨by simp, fun u' hu' => ?_⟩
      rw [List.mem_singleton.mp hu']
      exact ⟨hicao, hupdated, hconfirmed⟩
    · exact ⟨Nat.zero_le _, List.forall_mem_nil _⟩
  · exact ⟨[], (List.append_nil _).symm, ⟨Nat.zero_le _, List.forall_mem_nil _⟩⟩

theorem added_foldl_hear {now : Instant} {reports : List SurveillanceReport} {e : TrackEstimator}
    (history : Dict String (List TrackUpdate)) (hfiled : e.Filed) (hnow : ∀ r ∈ reports, r.observedAt = now) :
    (reports.foldl hear (e, history)).1.Filed ∧ ∀ icao24, ∃ new,
      listed (reports.foldl hear (e, history)).2 icao24 = listed history icao24 ++ new ∧
        Added now icao24 reports new := by
  induction reports generalizing e history with
  | nil => exact ⟨hfiled, fun icao24 => ⟨[], (List.append_nil _).symm, ⟨le_rfl, List.forall_mem_nil _⟩⟩⟩
  | cons r reports ih =>
    obtain ⟨hfirst, hrest⟩ := List.forall_mem_cons.mp hnow
    obtain ⟨hend, hnew⟩ := ih (hear (e, history) r).2
      (TrackEstimator.filed_onReport hfiled r).1 hrest
    refine ⟨hend, fun icao24 => ?_⟩
    obtain ⟨one, hone, hadded'⟩ := added_hear history hfiled r icao24
    obtain ⟨new, hlisted, hadded⟩ := hnew icao24
    refine ⟨one ++ new, ?_, ?_, fun u hu => ?_⟩
    · rw [List.foldl_cons, ← List.append_assoc, ← hone]
      exact hlisted
    · rw [List.length_append, ← List.singleton_append, List.filter_append, List.length_append]
      exact Nat.add_le_add hadded'.length hadded.length
    · rcases List.mem_append.mp hu with hu | hu
      · exact hfirst ▸ hadded'.updates u hu
      · exact hadded.updates u hu

/-- A reported aircraft is airborne. -/
theorem airborne_of_report {sim sim' : Simulation γ} {reports : List SurveillanceReport} {r : SurveillanceReport}
    (h : sim.WellFormed) (hstep : sim.observe rng = .ok (sim', reports)) (hr : r ∈ reports) :
    ∃ s, sim.state.get? r.icao24 = some s ∧ s.airborne = true := by
  obtain ⟨d, sequence, new, hd, hget, -⟩ := Simulation.observe_spec rng h
  obtain ⟨-, rfl⟩ := Prod.mk.inj (Except.ok.inj (hd.symm.trans hstep))
  obtain ⟨s, -, hs, -⟩ := Simulation.exists_observeOne rng h hstep hr
  obtain ⟨noise, hnoise⟩ := h.noisy _ s hs
  refine ⟨s, hs, Bool.of_not_eq_false fun hair => ?_⟩
  have hmem : Simulation.unnumbered r ∈ Simulation.ownReports r.icao24 new :=
    List.mem_map_of_mem (List.mem_filter.mpr ⟨hr, decide_eq_true rfl⟩)
  rw [(hget _ s noise hs hnoise).2, Simulation.observed, hair] at hmem
  cases hmem

/-! ### What is gathered -/

/-- A simulation `k` seconds on, with the exact state of every aircraft. -/
structure Exact (scenario : Scenario) (k : ℕ) (sim : Simulation γ) : Prop where
  flown : Flown scenario k sim
  specs : ∀ spec ∈ scenario.aircraft, sim.specs.get? spec.icao24 = some spec
  exact : ∀ spec ∈ scenario.aircraft, sim.state.get? spec.icao24 = some (exactAt spec k)

theorem Exact.advance {sim : Simulation γ} (h : Exact scenario k sim) :
    ∃ sim', sim.advance 1 = .ok sim' ∧ Exact scenario (k + 1) sim' := by
  obtain ⟨d, hadvance, hget⟩ := Simulation.advance_spec h.flown.wellFormed (zero_lt_one (α := ℚ))
  refine ⟨_, hadvance, ?_, h.specs, fun spec hspec => ?_⟩
  · exact {
      wellFormed := Simulation.advance_wellFormed h.flown.wellFormed hadvance
      scenario := h.flown.scenario
      startTime := h.flown.startTime
      elapsedS := by
        rw [h.flown.elapsedS]
        exact (Nat.cast_succ k).symm
      addressed := fun icao24 s hs => by
        obtain ⟨s', hs', -⟩ := Option.bind_eq_some_iff.mp ((hget icao24).symm.trans hs)
        exact h.flown.addressed icao24 s' hs' }
  · rw [hget, h.exact spec hspec, h.specs spec hspec, h.flown.elapsedS]
    rfl

theorem Exact.observe (rng : Random γ) {sim : Simulation γ} (h : Exact scenario k sim) :
    ∃ sim' reports, sim.observe rng = .ok (sim', reports) ∧ Exact scenario k sim' := by
  obtain ⟨noise, sequence, reports, hobserve, -, -⟩ := Simulation.observe_spec rng h.flown.wellFormed
  refine ⟨_, reports, hobserve, ?_, h.specs, h.exact⟩
  exact { h.flown with wellFormed := Simulation.observe_wellFormed rng h.flown.wellFormed hobserve }

/-- A confirmed update of an aircraft of the scenario, at a second at which it is there. -/
def Belongs (scenario : Scenario) (k : ℕ) (icao24 : String) (u : TrackUpdate) : Prop :=
  u.icao24 = icao24 ∧ u.state = .confirmed ∧ ∃ spec ∈ scenario.aircraft, spec.icao24 = icao24 ∧
    ∃ j : ℕ, 1 ≤ j ∧ j ≤ k ∧ u.updatedAt = instantAt j ∧ spec.entryTimeS ≤ j

/-- What is gathered after some turns. -/
structure Gathered (scenario : Scenario) (k : ℕ) (g : Gathering γ) : Prop where
  sim : Exact scenario k g.simulation
  filed : g.estimator.Filed
  truth : ∀ spec ∈ scenario.aircraft, ∀ n, truthAt g.truth spec.icao24 n = exactPoint spec k n
  updates : ∀ icao24, ∀ u ∈ listed g.history icao24, Belongs scenario k icao24 u
  ordered : ∀ icao24, (listed g.history icao24).Pairwise fun u v => u.updatedAt < v.updatedAt

theorem gathered_init (hdistinct : scenario.addresses.Nodup) : Gathered scenario 0 (init rng sha256 scenario) where
  sim :=
    { flown :=
        { wellFormed := Simulation.init_wellFormed ..
          scenario := rfl
          startTime := rfl
          elapsedS := Nat.cast_zero.symm
          addressed := (Replay.flown_init (w := ⟨sha256, rng, fun _ => "", fun _ => 0⟩) scenario {}).addressed }
      specs := fun _ hspec => Simulation.get?_collect_of_mem hdistinct hspec id
      exact := fun _ hspec => Simulation.get?_collect_of_mem hdistinct hspec initialTruth }
  filed _ _ h := nomatch h
  truth spec _ n := by
    rw [exactPoint, if_neg (by omega)]
    rfl
  updates _ _ h := nomatch h
  ordered _ := List.Pairwise.nil

/-- A second later the table also knows where the aircraft is then. -/
theorem exactPoint_succ (spec : AircraftSpec) (k : ℕ) (n : ℤ) : exactPoint spec (k + 1) n =
    if n = k + 1 then if spec.entryTimeS ≤ k + 1 then some (pointOf (exactAt spec (k + 1))) else none
    else exactPoint spec k n := by
  unfold exactPoint
  by_cases hn : n = k + 1
  · subst hn
    have hrange : (1 : ℤ) ≤ (k : ℤ) + 1 ∧ (k : ℤ) + 1 ≤ (k + 1 : ℕ) := by omega
    have hnat : ((k : ℤ) + 1).toNat = k + 1 := by omega
    simp only [if_true, hrange, true_and, hnat]
    push_cast
    rfl
  · have hrange : n ≤ (k + 1 : ℕ) ↔ n ≤ k := by omega
    simp only [if_neg hn, hrange]

theorem truth_tick {sim : Simulation γ} {truth : Dict String (Dict ℤ TruthPoint)} {spec : AircraftSpec}
    (h : Exact scenario (k + 1) sim) (hspec : spec ∈ scenario.aircraft)
    (htruth : ∀ n, truthAt truth spec.icao24 n = exactPoint spec k n) (n : ℤ) :
    truthAt (sim.truth.foldl (note (roundHalfEven sim.elapsedS)) truth) spec.icao24 n =
      exactPoint spec (k + 1) n := by
  have hsecond : roundHalfEven sim.elapsedS = k + 1 := by
    have hclock : sim.elapsedS = (((k + 1 : ℕ) : ℤ) : ℚ) := by rw [h.flown.elapsedS, Int.cast_natCast]
    rw [hclock, roundHalfEven_intCast, Nat.cast_succ]
  have hair := airborne_exactAt spec k
  rw [truthAt_foldl_note, Simulation.truth_filter h.flown.wellFormed, h.exact spec hspec, hsecond,
    exactPoint_succ, htruth]
  by_cases hn : n = k + 1
  · have hnone : exactPoint spec k n = none := if_neg (by omega)
    rw [if_pos hn, if_pos hn, hnone]
    by_cases hentry : spec.entryTimeS ≤ k + 1
    · rw [if_pos hentry, Option.toList_some, List.filter_singleton, hair, decide_eq_true hentry]
      rfl
    · rw [if_neg hentry, Option.toList_some, List.filter_singleton, hair, decide_eq_false hentry]
      rfl
  · rw [if_neg hn, if_neg hn]

theorem Belongs.succ {u : TrackUpdate} (h : Belongs scenario k icao24 u) : Belongs scenario (k + 1) icao24 u := by
  obtain ⟨hicao, hstate, spec, hspec, haddress, j, h1, hj, hat, hentry⟩ := h
  exact ⟨hicao, hstate, spec, hspec, haddress, j, h1, Nat.le_succ_of_le hj, hat, hentry⟩

/-- What a turn's reports add belongs there. -/
theorem belongs_of_added {sim sim' : Simulation γ} {reports : List SurveillanceReport} {new : List TrackUpdate}
    (h : Exact scenario (k + 1) sim)
    (hobserve : sim.observe rng = .ok (sim', reports)) (hadded : Added (instantAt (k + 1)) icao24 reports new) :
    ∀ u ∈ new, Belongs scenario (k + 1) icao24 u := by
  intro u hu
  obtain ⟨hicao, hat, hstate⟩ := hadded.updates u hu
  obtain ⟨r, hr⟩ := List.exists_mem_of_length_pos ((List.length_pos_of_mem hu).trans_le hadded.length)
  obtain ⟨hr, haddress⟩ := List.mem_filter.mp hr
  obtain ⟨s, hs, hair⟩ := airborne_of_report h.flown.wellFormed hobserve hr
  obtain ⟨spec, hspec, hsame⟩ := List.mem_map.mp (h.flown.addressed _ s hs)
  have hstate' : sim.state.get? r.icao24 = some (exactAt spec (k + 1)) := hsame ▸ h.exact spec hspec
  rw [Option.some.inj (hs.symm.trans hstate'), airborne_exactAt, decide_eq_true_eq] at hair
  refine ⟨hicao, hstate, spec, hspec, hsame.trans (of_decide_eq_true haddress), k + 1, Nat.succ_pos k, le_rfl,
    hat, ?_⟩
  push_cast
  exact hair

/-- At most one update a second keeps a history in order. -/
theorem ordered_append {old new : List TrackUpdate} (hold : ∀ u ∈ old, Belongs scenario k icao24 u)
    (hordered : old.Pairwise fun u v => u.updatedAt < v.updatedAt) (hlength : new.length ≤ 1)
    (hnew : ∀ u ∈ new, u.updatedAt = instantAt (k + 1)) :
    (old ++ new).Pairwise fun u v => u.updatedAt < v.updatedAt := by
  refine List.pairwise_append.mpr ⟨hordered, ?_, fun u hu v hv => ?_⟩
  · rcases new with _ | ⟨u, _ | ⟨v, rest⟩⟩
    · exact List.Pairwise.nil
    · exact List.pairwise_singleton _ u
    · rw [List.length_cons, List.length_cons] at hlength
      omega
  · obtain ⟨-, -, -, -, -, j, -, hj, hat, -⟩ := hold u hu
    rw [hat, hnew v hv]
    refine lt_of_le_of_ne (Replay.instantAt_le_instantAt.mpr (Nat.le_succ_of_le hj)) fun heq => ?_
    exact absurd (Replay.instantAt_inj heq) (Nat.ne_of_lt (Nat.lt_succ_of_le hj))

/-- A turn never raises, and gathers one second more. -/
theorem gathered_tick (rng : Random γ) (h : Gathered scenario k g) :
    ∃ g', tick rng g = .ok g' ∧ Gathered scenario (k + 1) g' ∧
      ∀ icao24, ∃ new, listed g'.history icao24 = listed g.history icao24 ++ new ∧
        ∀ u ∈ new, u.updatedAt = instantAt (k + 1) := by
  obtain ⟨sim, hadvance, hsim⟩ := h.sim.advance
  obtain ⟨sim', reports, hobserve, hsim'⟩ := hsim.observe rng
  obtain ⟨honce, hnow⟩ := Simulation.observe_once hsim.flown.wellFormed hobserve
  obtain ⟨hfiled, hheard⟩ := added_foldl_hear g.history h.filed fun r hr =>
    (hnow r hr).trans hsim.flown.now
  have hturn : tick rng g = .ok
      { simulation := sim'
        estimator := (reports.foldl hear (g.estimator, g.history)).1
        history := (reports.foldl hear (g.estimator, g.history)).2
        truth := sim.truth.foldl (note (roundHalfEven sim.elapsedS)) g.truth } := by
    simp only [tick, hadvance, hobserve, bind, Except.bind, pure, Except.pure]
  refine ⟨_, hturn, ?_, fun icao24 => ?_⟩
  · exact {
      sim := hsim'
      filed := hfiled
      truth := fun spec hspec => truth_tick hsim hspec (h.truth spec hspec)
      updates := fun icao24 u hu => by
        obtain ⟨new, hlisted, hadded⟩ := hheard icao24
        rw [hlisted, List.mem_append] at hu
        rcases hu with hu | hu
        · exact (h.updates icao24 u hu).succ
        · exact belongs_of_added hsim hobserve hadded u hu
      ordered := fun icao24 => by
        obtain ⟨new, hlisted, hadded⟩ := hheard icao24
        rw [hlisted]
        exact ordered_append (h.updates icao24) (h.ordered icao24) (hadded.length.trans (honce icao24))
          fun u hu => (hadded.updates u hu).2.1 }
  · obtain ⟨new, hlisted, hadded⟩ := hheard icao24
    exact ⟨new, hlisted, fun u hu => (hadded.updates u hu).2.1⟩

theorem gathered_next (h : Gathered scenario k g) : ∃ g', tick rng g = .ok g' ∧ Gathered scenario (k + 1) g' := by
  obtain ⟨g', hturn, hgathered, -⟩ := gathered_tick rng h
  exact ⟨g', hturn, hgathered⟩

theorem exists_rounds (sha256 : ByteArray → List UInt8) (rng : Random γ) (hdistinct : scenario.addresses.Nodup)
    (k : ℕ) : ∃ g, rounds (tick rng) k (init rng sha256 scenario) = .ok g ∧ Gathered scenario k g :=
  rounds_invariant (gathered_init hdistinct) fun _ _ _ _ => gathered_next

theorem gathered_of_rounds (hdistinct : scenario.addresses.Nodup)
    (h : rounds (tick rng) k (init rng sha256 scenario) = .ok g) : Gathered scenario k g := by
  obtain ⟨g', hg', hgathered⟩ := exists_rounds sha256 rng hdistinct k
  exact Except.ok.inj (hg'.symm.trans h) ▸ hgathered

/-- The loop ends with the scenario, and has gathered all of it. -/
theorem runScenario_eq (sha256 : ByteArray → List UInt8) (rng : Random γ) (hdistinct : scenario.addresses.Nodup) :
    ∃ g, rounds (tick rng) ⌈scenario.durationS⌉₊ (init rng sha256 scenario) = .ok g ∧
      Gathered scenario ⌈scenario.durationS⌉₊ g ∧
      ∀ fuel ≥ ⌈scenario.durationS⌉₊, runScenario sha256 rng fuel scenario = some (.ok g) := by
  refine whileNot_of_invariant (I := fun k (g : Gathering γ) => Gathered scenario k g)
    (gathered_init hdistinct) (fun _ _ => gathered_next) (fun k hk g h => ?_) fun g h => ?_
  · refine Bool.eq_false_of_not_eq_true fun hdone => ?_
    exact absurd ((Replay.finished_iff h.sim.flown).mp hdone) (Nat.not_le.mpr hk)
  · exact (Replay.finished_iff h.sim.flown).mpr le_rfl

theorem hear_eq : hear = answering collect := rfl

/-- A turn whose reports are answered. -/
theorem tickChecked_eq {advanced sim : Simulation γ} {reports : List SurveillanceReport}
    {heard : TrackEstimator × Dict String (List TrackUpdate)} (hadvance : g.simulation.advance 1 = .ok advanced)
    (hobserve : advanced.observe rng = .ok (sim, reports))
    (hheard : reports.foldlM (answeringChecked collect) (g.estimator, g.history) = .ok heard) :
    ∃ g', tickChecked rng g = .ok g' ∧ g'.simulation = sim ∧ g'.estimator = heard.1 := by
  simp only [tickChecked, hadvance, hobserve, lookup, bind, Except.bind, hheard]
  exact ⟨_, rfl, rfl, rfl⟩

/-- A turn that does not raise is the turn of a run in which nothing is refused. -/
theorem tick_of_checked {g' : Gathering γ} (h : tickChecked rng g = .ok g') : tick rng g = .ok g' := by
  unfold tickChecked at h
  unfold tick
  cases hadvance : lookup (g.simulation.advance 1) with
  | error e =>
    rw [hadvance] at h
    cases h
  | ok advanced =>
    rw [hadvance] at h
    rw [lookup_eq_ok hadvance]
    cases hobserve : lookup (advanced.observe rng) with
    | error e =>
      simp only [bind, Except.bind, hobserve] at h
      cases h
    | ok out =>
      cases hreports : out.2.foldlM (answeringChecked collect) (g.estimator, g.history) with
      | error e =>
        simp only [bind, Except.bind, hobserve, hreports] at h
        cases h
      | ok heard =>
        simp only [bind, Except.bind, hobserve, hreports] at h
        simp only [bind, Except.bind, lookup_eq_ok hobserve, hear_eq, foldlM_answeringChecked hreports]
        exact congrArg Except.ok (Except.ok.inj h)

/-- A run that comes back has gathered all of its scenario. -/
theorem gathered_of_checked (hdistinct : scenario.addresses.Nodup) {fuel : ℕ}
    (h : runScenarioChecked sha256 rng fuel scenario = some (.ok g)) :
    rounds (tick rng) ⌈scenario.durationS⌉₊ (init rng sha256 scenario) = .ok g ∧
      Gathered scenario ⌈scenario.durationS⌉₊ g := by
  obtain ⟨g', hrounds, hgathered, hrun⟩ := runScenario_eq sha256 rng hdistinct
  have hlater := hrun _ (le_max_right fuel _)
  rw [runScenario, whileNot_mono (whileNot_of_rounds_eq (fun _ _ => tick_of_checked) h)
    (le_max_left fuel _)] at hlater
  obtain rfl := Except.ok.inj (Option.some.inj hlater)
  exact ⟨hrounds, hgathered⟩

/-! ### Windows -/

/-- The windows of a history are its stretches of twenty updates. -/
theorem mem_windowsOf {updates window : List TrackUpdate} :
    window ∈ windowsOf updates ↔ window <:+: updates ∧ window.length = windowLength := by
  have htwenty : windowLength = 20 := rfl
  simp only [windowsOf, List.mem_map, List.mem_range'_1]
  constructor
  · rintro ⟨index, hindex, rfl⟩
    refine ⟨(List.drop_suffix _ _).isInfix.trans (List.take_prefix _ _).isInfix, ?_⟩
    rw [List.length_drop, List.length_take]
    omega
  · rintro ⟨⟨before, after, rfl⟩, hlength⟩
    refine ⟨before.length + (windowLength - 1), ?_, ?_⟩
    · rw [List.length_append, List.length_append]
      omega
    · have htake : before.length + (windowLength - 1) + 1 = (before ++ window).length := by
        rw [List.length_append]
        omega
      have hdrop : (before ++ window).length - windowLength = before.length := by
        rw [List.length_append]
        omega
      rw [htake, List.take_left, hdrop, List.drop_left]

end Gathering

end

end Airspace
