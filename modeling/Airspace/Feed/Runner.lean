import Airspace.Lib.Sending
import Airspace.Lib.While
import Airspace.Sim.Plan
import Airspace.Sim.Reports
import Airspace.Track.Runner
import Mathlib.Algebra.BigOperators.Group.Finset.Basic
import Mathlib.Data.NNRat.Defs

/-! The feed: playing a scenario and publishing what the sensor saw (`acp.services.feed.runner`).

    A turn moves the simulation on by the report interval, publishes the reports and then the exact states,
    each under its own topic, and sleeps for what is left of the interval. A message the broker does not
    acknowledge ends the run; nothing is sent twice and nothing is taken back. What a run would publish is
    its script, which reads neither the broker nor the clock: a run publishes its script up to the first
    refusal. -/

namespace Airspace

noncomputable section

/-- `TOPIC_SIM_TRUTH`. -/
def topicSimTruth : String := "sim.truth.v1"

/-- The models the feed publishes. -/
inductive FeedMessage where
  | report (report : SurveillanceReport)
  | truth (state : TruthState)

/-- What is sent to the broker. -/
structure Published where
  topic : String
  key : String
  message : FeedMessage

/-- `publish(TOPIC_SURVEILLANCE_REPORTS, key=report.icao24, message=report)`. -/
def reportMessage (report : SurveillanceReport) : Published :=
  ⟨topicSurveillanceReports, report.icao24, .report report⟩

/-- `publish(TOPIC_SIM_TRUTH, key=state.icao24, message=state)`. -/
def truthMessage (state : TruthState) : Published := ⟨topicSimTruth, state.icao24, .truth state⟩

/-- What one run produced. -/
structure FeedStats where
  steps : ℕ := 0
  reportsPublished : ℕ := 0
  truthPublished : ℕ := 0

/-- What ends a run early. -/
inductive FeedError where
  | simulation (error : SimError)
  | kafka

/-- A run that raised, and what the broker had acknowledged by then. -/
structure Stopped where
  error : FeedError
  log : List Published

/-- What a feed meets: the digest and the generator behind the noise, whether the broker acknowledges a
    message after so many, and for every turn the seconds it works and oversleeps. -/
structure Edge (γ : Type) where
  sha256 : ByteArray → List UInt8
  rng : Random γ
  accepts : ℕ → Bool
  work : ℕ → ℚ≥0
  overshoot : ℕ → ℚ≥0

/-- `report_interval_s` is the sensor's, which the engine does not read. -/
structure FeedRunner where
  scenario : Scenario
  admitted : scenario.Admitted
  reportIntervalS : ℚ := 1
  reportIntervalS_pos : 0 < reportIntervalS := by norm_num
  realtime : Bool := true
  publishTruth : Bool := true

/-- What outlives a run: the messages acknowledged, the seconds on the clock and the turns of all runs. -/
structure Feed where
  log : List Published := []
  clock : ℚ := 0
  ticks : ℕ := 0

/-- `datetime.now(UTC)`, in whole microseconds. -/
def wallTime (clock : ℚ) : Instant := ⌊clock * 1000000⌋

/-- A run between two turns of its loop. -/
structure Play (γ : Type) where
  simulation : Simulation γ
  feed : Feed
  stats : FeedStats := {}

/-- `await publisher.publish(..)` and `count += 1`; the call raises if the broker does not acknowledge. -/
def publishOne (accepts : ℕ → Bool) (acc : List Published × ℕ) (message : Published) :
    Except Stopped (List Published × ℕ) :=
  if accepts acc.1.length then .ok (acc.1 ++ [message], acc.2 + 1) else .error ⟨.kafka, acc.1⟩

/-- The loop of `_publish_reports` and of `_publish_truth_states`. -/
def publishEach (accepts : ℕ → Bool) (log : List Published) (messages : List Published) :
    Except Stopped (List Published × ℕ) := messages.foldlM (publishOne accepts) (log, 0)

namespace FeedRunner

variable {γ : Type} (edge : Edge γ) (runner : FeedRunner)

def publishReports (simulation : Simulation γ) (log : List Published) :
    Except Stopped (Simulation γ × List Published × ℕ) :=
  match simulation.observe edge.rng with
  | .error e => .error ⟨.simulation e, log⟩
  | .ok (observed, reports) => do
    let sent ← publishEach edge.accepts log (reports.map reportMessage)
    return (observed, sent.1, sent.2)

def publishTruthStates (simulation : Simulation γ) (log : List Published) :
    Except Stopped (List Published × ℕ) :=
  publishEach edge.accepts log (simulation.truth.map truthMessage)

/-- The seconds a turn takes: the work, and in real time a sleep for what is left of the interval. -/
def turnS (tick : ℕ) : ℚ :=
  let elapsed : ℚ := edge.work tick
  if runner.realtime then elapsed + (max 0 (runner.reportIntervalS - elapsed) + edge.overshoot tick) else elapsed

/-- One turn of the loop of `run`. -/
def tick (play : Play γ) : Except Stopped (Play γ) :=
  match play.simulation.advance runner.reportIntervalS with
  | .error e => .error ⟨.simulation e, play.feed.log⟩
  | .ok advanced => do
    let (simulation, log, reports) ← publishReports edge advanced play.feed.log
    let (log, truths) ← if runner.publishTruth then publishTruthStates edge simulation log else .ok (log, 0)
    return {
      simulation := simulation
      feed :=
        { log := log
          clock := play.feed.clock + turnS edge runner play.feed.ticks
          ticks := play.feed.ticks + 1 }
      stats :=
        { steps := play.stats.steps + 1
          reportsPublished := play.stats.reportsPublished + reports
          truthPublished := play.stats.truthPublished + truths } }

/-- `start_time or datetime.now(UTC)`. -/
def startOf (startTime : Option Instant) (feed : Feed) : Instant := startTime.getD (wallTime feed.clock)

def opening (start : Instant) (feed : Feed) : Play γ where
  simulation := Simulation.init edge.sha256 edge.rng runner.scenario start
  feed := feed

/-- Play the scenario to completion; nothing if the loop is still running after so many turns. -/
def run (fuel : ℕ) (startTime : Option Instant) (feed : Feed) : Option (Except Stopped (Feed × FeedStats)) :=
  (whileNot (fun play => play.simulation.finished) (tick edge runner) fuel
      (opening edge runner (startOf startTime feed) feed)).map
    fun result => result.map fun play => (play.feed, play.stats)

/-! ### The script -/

/-- What a turn sends. -/
def shows (reports : List SurveillanceReport) (truth : List TruthState) : List Published :=
  reports.map reportMessage ++ if runner.publishTruth then truth.map truthMessage else []

/-- A turn without a broker and without a clock. -/
def rehearse (rng : Random γ) (acc : Simulation γ × List Published) :
    Except SimError (Simulation γ × List Published) := do
  let advanced ← acc.1.advance runner.reportIntervalS
  let (simulation, reports) ← advanced.observe rng
  return (simulation, acc.2 ++ runner.shows reports simulation.truth)

/-- The simulation after a number of turns, and what they send. -/
def script (sha256 : ByteArray → List UInt8) (rng : Random γ) (start : Instant) (k : ℕ) :
    Except SimError (Simulation γ × List Published) :=
  rounds (runner.rehearse rng) k (Simulation.init sha256 rng runner.scenario start, [])

/-- The engine's clock after so many turns: a sum of intervals, one turn at a time. -/
def clockAfter : ℕ → ℚ
  | 0 => 0
  | k + 1 => clockAfter k + runner.reportIntervalS

theorem clockAfter_eq (k : ℕ) : runner.clockAfter k = k * runner.reportIntervalS := by
  induction k with
  | zero => rw [clockAfter, Nat.cast_zero, zero_mul]
  | succ k ih =>
    rw [clockAfter, ih]
    push_cast
    ring

theorem exists_clockAfter : ∃ k, runner.scenario.durationS ≤ runner.clockAfter k := by
  obtain ⟨k, hk⟩ := exists_nat_ge (runner.scenario.durationS / runner.reportIntervalS)
  exact ⟨k, runner.clockAfter_eq k ▸ (div_le_iff₀ runner.reportIntervalS_pos).mp hk⟩

/-- The turns of a run: those until the engine's clock has reached the duration. The source adds floats, whose
    sum may need a turn more than the quotient: a second at a tenth of a second takes it eleven. -/
def turns : ℕ := Nat.find runner.exists_clockAfter

theorem turns_le_iff {k : ℕ} : runner.turns ≤ k ↔ runner.scenario.durationS ≤ runner.clockAfter k := by
  constructor
  · intro h
    have hmono : runner.clockAfter runner.turns ≤ runner.clockAfter k := by
      rw [clockAfter_eq, clockAfter_eq]
      exact mul_le_mul_of_nonneg_right (Nat.cast_le.mpr h) runner.reportIntervalS_pos.le
    exact (Nat.find_spec runner.exists_clockAfter).trans hmono
  · exact Nat.find_min' runner.exists_clockAfter

end FeedRunner

/-- The reports of a log, in their order. -/
def reportsIn (log : List Published) : List SurveillanceReport :=
  log.filterMap fun m => match m.message with
    | .report report => some report
    | .truth _ => none

/-- The exact states of a log, in their order. -/
def truthsIn (log : List Published) : List TruthState :=
  log.filterMap fun m => match m.message with
    | .report _ => none
    | .truth state => some state

/-- The instant a message is about. -/
def Published.at (m : Published) : Instant :=
  match m.message with
  | .report report => report.observedAt
  | .truth state => state.validAt

/-- A message is on the topic of its kind, keyed by its aircraft, and its validators accept it. -/
def Published.Sound (m : Published) : Prop :=
  match m.message with
  | .report report => m.topic = topicSurveillanceReports ∧ m.key = report.icao24 ∧ report.Admitted
  | .truth state => m.topic = topicSimTruth ∧ m.key = state.icao24 ∧ state.Admitted

/-- Two messages that the broker keeps in order are in the order of their instants. -/
def Published.Before (m m' : Published) : Prop := m.topic = m'.topic → m.key = m'.key → m.at < m'.at

theorem roundHalfEven_mem (x : ℚ) : x - 1 / 2 ≤ roundHalfEven x ∧ (roundHalfEven x : ℚ) ≤ x + 1 / 2 := by
  have hfloor := Int.floor_le x
  have hlt := Int.lt_floor_add_one x
  unfold roundHalfEven
  split_ifs <;> push_cast <;> constructor <;> linarith

/-! ### A run and its script -/

/-- The loop sends as a log that may refuse takes the messages, and counts them. -/
theorem publishEach_eq (accepts : ℕ → Bool) (log messages : List Published) :
    publishEach accepts log messages = match deliver accepts log messages with
      | .ok after => .ok (after, messages.length)
      | .error after => .error ⟨.kafka, after⟩ := by
  have hloop : ∀ (messages log : List Published) (count : ℕ),
      messages.foldlM (publishOne accepts) (log, count) = match deliver accepts log messages with
        | .ok after => .ok (after, count + messages.length)
        | .error after => .error ⟨.kafka, after⟩ := by
    intro messages
    induction messages with
    | nil =>
      intro log count
      simp [pure, Except.pure]
    | cons m messages ih =>
      intro log count
      simp only [List.foldlM_cons, publishOne, deliver]
      split_ifs
      · have hrest := ih (log ++ [m]) (count + 1)
        rw [List.length_cons, add_comm messages.length 1, ← add_assoc]
        exact hrest
      · rfl
  rw [publishEach, hloop]
  simp

@[simp] theorem reportsIn_nil : reportsIn [] = [] := rfl

@[simp] theorem truthsIn_nil : truthsIn [] = [] := rfl

@[simp] theorem reportsIn_append (log log' : List Published) :
    reportsIn (log ++ log') = reportsIn log ++ reportsIn log' := List.filterMap_append

@[simp] theorem truthsIn_append (log log' : List Published) :
    truthsIn (log ++ log') = truthsIn log ++ truthsIn log' := List.filterMap_append

@[simp] theorem reportsIn_map_reportMessage (reports : List SurveillanceReport) :
    reportsIn (reports.map reportMessage) = reports := by
  simp [reportsIn, List.filterMap_map, Function.comp_def, reportMessage]

@[simp] theorem reportsIn_map_truthMessage (truth : List TruthState) :
    reportsIn (truth.map truthMessage) = [] := by
  simp [reportsIn, truthMessage]

@[simp] theorem truthsIn_map_reportMessage (reports : List SurveillanceReport) :
    truthsIn (reports.map reportMessage) = [] := by
  simp [truthsIn, reportMessage]

@[simp] theorem truthsIn_map_truthMessage (truth : List TruthState) :
    truthsIn (truth.map truthMessage) = truth := by
  simp [truthsIn, List.filterMap_map, Function.comp_def, truthMessage]

namespace FeedRunner

variable {γ : Type} {edge : Edge γ} {runner : FeedRunner} {play : Play γ} {advanced sim : Simulation γ}
  {reports : List SurveillanceReport} {after : List Published} {k : ℕ}

@[simp] theorem reportsIn_shows (runner : FeedRunner) (reports : List SurveillanceReport)
    (truth : List TruthState) : reportsIn (runner.shows reports truth) = reports := by
  rw [shows]
  split_ifs <;> simp

/-- What a turn comes to whose messages the broker takes as it does. -/
def settle (edge : Edge γ) (runner : FeedRunner) (play : Play γ) (sim : Simulation γ)
    (messages : List Published) : Except (List Published) (List Published) → Except Stopped (Play γ)
  | .ok log =>
    .ok {
      simulation := sim
      feed :=
        { log := log
          clock := play.feed.clock + turnS edge runner play.feed.ticks
          ticks := play.feed.ticks + 1 }
      stats :=
        { steps := play.stats.steps + 1
          reportsPublished := play.stats.reportsPublished + (reportsIn messages).length
          truthPublished := play.stats.truthPublished + (truthsIn messages).length } }
  | .error log => .error ⟨.kafka, log⟩

/-- A turn sends what its reports and its states show. -/
theorem tick_eq (hadvance : play.simulation.advance runner.reportIntervalS = .ok advanced)
    (hobserve : advanced.observe edge.rng = .ok (sim, reports)) :
    tick edge runner play = settle edge runner play sim (runner.shows reports sim.truth)
      (deliver edge.accepts play.feed.log (runner.shows reports sim.truth)) := by
  simp only [tick, hadvance, publishReports, hobserve]
  rw [shows, deliver_append, publishEach_eq]
  cases hsent : deliver edge.accepts play.feed.log (reports.map reportMessage) with
  | error log => rfl
  | ok log =>
    cases htruth : runner.publishTruth with
    | false => simp [bind, Except.bind, pure, Except.pure, settle]
    | true =>
      simp only [bind, Except.bind, pure, Except.pure, if_true, publishTruthStates, publishEach_eq]
      cases deliver edge.accepts log (sim.truth.map truthMessage) with
      | error log => rfl
      | ok log => simp [settle]

/-- What the simulation of a run is like after some turns, and what they sent. -/
structure Scripted (runner : FeedRunner) (start : Instant) (k : ℕ) (acc : Simulation γ × List Published) :
    Prop where
  valid : acc.1.Valid
  scenario : acc.1.scenario = runner.scenario
  startTime : acc.1.startTime = start
  elapsedS : acc.1.elapsedS = k * runner.reportIntervalS
  sequence : acc.1.reportSequence = (reportsIn acc.2).length
  ids : (reportsIn acc.2).map SurveillanceReport.reportId =
    reportIdsFrom runner.scenario.scenarioId 0 (reportsIn acc.2).length
  sound : ∀ m ∈ acc.2, m.Sound
  timed : ∀ m ∈ acc.2, ∃ j, 1 ≤ j ∧ j ≤ k ∧ m.at = start + timedelta (j * runner.reportIntervalS)

theorem scripted_init (edge : Edge γ) (runner : FeedRunner) (start : Instant) :
    Scripted runner start 0 (Simulation.init edge.sha256 edge.rng runner.scenario start, []) where
  valid := Simulation.init_valid edge.rng edge.sha256 runner.admitted start
  scenario := rfl
  startTime := rfl
  elapsedS := by
    rw [Nat.cast_zero, zero_mul]
    rfl
  sequence := rfl
  ids := rfl
  sound := by simp
  timed := by simp

/-- What a turn shows is sound, at the turn's instant, and in an order the broker keeps. -/
theorem mem_shows {truth : List TruthState} {m : Published} (h : m ∈ runner.shows reports truth) :
    (∃ r ∈ reports, m = reportMessage r) ∨ ∃ t ∈ truth, m = truthMessage t := by
  rcases List.mem_append.mp h with h | h
  · obtain ⟨r, hr, rfl⟩ := List.mem_map.mp h
    exact .inl ⟨r, hr, rfl⟩
  · split_ifs at h with htruth
    · obtain ⟨t, ht, rfl⟩ := List.mem_map.mp h
      exact .inr ⟨t, ht, rfl⟩
    · cases h

theorem pairwise_shows {truth : List TruthState} (hreports : (reports.map SurveillanceReport.icao24).Nodup)
    (htruth : (truth.map TruthState.icao24).Nodup) : (runner.shows reports truth).Pairwise Published.Before := by
  have hsent : (reports.map reportMessage).Pairwise Published.Before := by
    rw [List.pairwise_map]
    exact (List.pairwise_map.mp hreports).imp fun hne _ hkey => absurd hkey hne
  rw [shows]
  split_ifs
  · refine List.pairwise_append.mpr ⟨hsent, ?_, fun m hm m' hm' htopic => ?_⟩
    · rw [List.pairwise_map]
      exact (List.pairwise_map.mp htruth).imp fun hne _ hkey => absurd hkey hne
    · obtain ⟨r, -, rfl⟩ := List.mem_map.mp hm
      obtain ⟨t, -, rfl⟩ := List.mem_map.mp hm'
      have hsame : topicSurveillanceReports = topicSimTruth := htopic
      exact absurd hsame (by decide)
  · rwa [List.append_nil]

/-- No turn of a run raises by itself. -/
theorem scripted_tick (edge : Edge γ) {start : Instant} {acc : Simulation γ × List Published}
    (h : Scripted runner start k acc) :
    ∃ advanced sim reports, acc.1.advance runner.reportIntervalS = .ok advanced ∧
      advanced.observe edge.rng = .ok (sim, reports) ∧
      runner.rehearse edge.rng acc = .ok (sim, acc.2 ++ runner.shows reports sim.truth) ∧
      (∀ m ∈ runner.shows reports sim.truth, m.at = start + timedelta ((k + 1 : ℕ) * runner.reportIntervalS)) ∧
      (runner.shows reports sim.truth).Pairwise Published.Before ∧
      Scripted runner start (k + 1) (sim, acc.2 ++ runner.shows reports sim.truth) := by
  obtain ⟨advanced, hadvance⟩ : ∃ advanced, acc.1.advance runner.reportIntervalS = .ok advanced :=
    have ⟨_, hadvance, _⟩ := Simulation.advance_spec h.valid.toWellFormed runner.reportIntervalS_pos
    ⟨_, hadvance⟩
  have hvalid := h.valid.advance edge.rng hadvance
  obtain ⟨⟨sim, reports⟩, hobserve⟩ : ∃ observed, advanced.observe edge.rng = .ok observed :=
    have ⟨_, _, _, hobserve, _⟩ := Simulation.observe_spec edge.rng hvalid.toWellFormed
    ⟨_, hobserve⟩
  obtain ⟨hscenario, hstart, helapsed, hsequence⟩ := Simulation.advance_frame h.valid.toWellFormed hadvance
  obtain ⟨hscenario', hstart', helapsed', hstate'⟩ := Simulation.observe_frame hvalid.toWellFormed hobserve
  obtain ⟨hvalid', hreports⟩ := hvalid.observe hobserve
  have hnumbered := Simulation.numbered_observe hobserve
  have hseconds : sim.elapsedS = (k + 1 : ℕ) * runner.reportIntervalS := by
    rw [helapsed', helapsed, h.elapsedS]
    push_cast
    ring
  have hnow : sim.now = start + timedelta ((k + 1 : ℕ) * runner.reportIntervalS) := by
    rw [Simulation.now, hseconds, hstart', hstart, h.startTime]
  have hsame : advanced.now = sim.now := by
    rw [Simulation.now, Simulation.now, hstart', helapsed']
  have htimed : ∀ m ∈ runner.shows reports sim.truth, m.at = sim.now := by
    intro m hm
    rcases mem_shows hm with ⟨r, hr, rfl⟩ | ⟨t, ht, rfl⟩
    · exact ((Simulation.observe_once hvalid.toWellFormed hobserve).2 r hr).trans hsame
    · obtain ⟨s, -, rfl⟩ := List.mem_map.mp ht
      rfl
  refine ⟨advanced, sim, reports, hadvance, hobserve, ?_, fun m hm => (htimed m hm).trans hnow, ?_, ?_⟩
  · simp only [rehearse, hadvance, hobserve, bind, Except.bind, pure, Except.pure]
  · exact pairwise_shows (Simulation.nodup_observe hvalid.toWellFormed hobserve)
      (Simulation.nodup_truth hvalid'.toWellFormed)
  · refine ⟨hvalid', ?_, ?_, hseconds, ?_, ?_, fun m hm => ?_, fun m hm => ?_⟩
    · exact hscenario'.trans (hscenario.trans h.scenario)
    · exact hstart'.trans (hstart.trans h.startTime)
    · rw [hnumbered.sequence, hsequence, h.sequence, reportsIn_append, reportsIn_shows, List.length_append]
    · have hids := hnumbered.ids
      rw [hsequence, h.sequence, hscenario, h.scenario] at hids
      rw [reportsIn_append, reportsIn_shows, List.map_append, h.ids, hids, List.length_append,
        ← reportIdsFrom_append, zero_add]
    · rcases List.mem_append.mp hm with hm | hm
      · exact h.sound m hm
      · rcases mem_shows hm with ⟨r, hr, rfl⟩ | ⟨t, ht, rfl⟩
        · exact ⟨rfl, rfl, hreports r hr⟩
        · exact ⟨rfl, rfl, hvalid'.truth t ht⟩
    · rcases List.mem_append.mp hm with hm | hm
      · obtain ⟨j, hj, hjk, hat⟩ := h.timed m hm
        exact ⟨j, hj, Nat.le_succ_of_le hjk, hat⟩
      · exact ⟨k + 1, Nat.le_add_left 1 k, le_rfl, (htimed m hm).trans hnow⟩

theorem scripted_script {start : Instant} {acc : Simulation γ × List Published}
    (h : runner.script edge.sha256 edge.rng start k = .ok acc) : Scripted runner start k acc :=
  invariant_of_rounds (I := Scripted runner start) (scripted_init edge runner start)
    (fun _ _ _ hacc => by
      obtain ⟨_, _, _, _, _, hstep, _, _, hnext⟩ := scripted_tick edge hacc
      exact ⟨_, hstep, hnext⟩) h

theorem exists_script (edge : Edge γ) (runner : FeedRunner) (start : Instant) (k : ℕ) :
    ∃ sim messages, runner.script edge.sha256 edge.rng start k = .ok (sim, messages) := by
  have hstep : ∀ j < k, ∀ acc, runner.script edge.sha256 edge.rng start j = .ok acc →
      Scripted runner start j acc →
        ∃ acc', runner.rehearse edge.rng acc = .ok acc' ∧ Scripted runner start (j + 1) acc' := by
    intro j _ acc _ hacc
    obtain ⟨_, _, _, _, _, hstep, _, _, hnext⟩ := scripted_tick edge hacc
    exact ⟨_, hstep, hnext⟩
  obtain ⟨⟨sim, messages⟩, hscript, -⟩ := rounds_invariant (scripted_init edge runner start) hstep
  exact ⟨sim, messages, hscript⟩

/-- One more turn adds what it shows to the script. -/
theorem script_succ {start : Instant} {sim : Simulation γ} {messages : List Published}
    (h : runner.script edge.sha256 edge.rng start k = .ok (sim, messages)) :
    ∃ advanced next reports, sim.advance runner.reportIntervalS = .ok advanced ∧
      advanced.observe edge.rng = .ok (next, reports) ∧
      runner.script edge.sha256 edge.rng start (k + 1) = .ok (next, messages ++ runner.shows reports next.truth) ∧
      (∀ m ∈ runner.shows reports next.truth, m.at = start + timedelta ((k + 1 : ℕ) * runner.reportIntervalS)) ∧
      (runner.shows reports next.truth).Pairwise Published.Before := by
  obtain ⟨advanced, next, reports, hadvance, hobserve, hstep, hat, hbefore, -⟩ :=
    scripted_tick edge (scripted_script h)
  exact ⟨advanced, next, reports, hadvance, hobserve, (rounds_of_eq h).trans hstep, hat, hbefore⟩

/-- A longer script begins with the shorter one. -/
theorem script_prefix {start : Instant} {j : ℕ} {a b : Simulation γ × List Published} (hjk : j ≤ k)
    (ha : runner.script edge.sha256 edge.rng start j = .ok a)
    (hb : runner.script edge.sha256 edge.rng start k = .ok b) : a.2 <+: b.2 := by
  induction k, hjk using Nat.le_induction generalizing b with
  | base => exact Except.ok.inj (ha.symm.trans hb) ▸ List.prefix_refl _
  | succ k _ ih =>
    obtain ⟨sim, messages, hscript⟩ := exists_script edge runner start k
    obtain ⟨_, _, _, _, _, hnext, -⟩ := script_succ hscript
    obtain rfl := Except.ok.inj (hnext.symm.trans hb)
    exact (ih hscript).trans (List.prefix_append _ _)

/-- What a run comes to, by what the broker makes of the messages. -/
def outcome (edge : Edge γ) (runner : FeedRunner) (feed : Feed) (messages : List Published) :
    Except Stopped (Feed × FeedStats) :=
  match deliver edge.accepts feed.log messages with
  | .ok log =>
    .ok ({ log := log
           clock := feed.clock + ∑ i ∈ Finset.range runner.turns, turnS edge runner (feed.ticks + i)
           ticks := feed.ticks + runner.turns },
         { steps := runner.turns
           reportsPublished := (reportsIn messages).length
           truthPublished := (truthsIn messages).length })
  | .error log => .error ⟨.kafka, log⟩

/-- A run after some turns has sent as much of the script. -/
structure Played (edge : Edge γ) (runner : FeedRunner) (start : Instant) (feed : Feed) (k : ℕ) (play : Play γ)
    (messages : List Published) : Prop where
  script : runner.script edge.sha256 edge.rng start k = .ok (play.simulation, messages)
  log : deliver edge.accepts feed.log messages = .ok play.feed.log
  clock : play.feed.clock = feed.clock + ∑ i ∈ Finset.range k, turnS edge runner (feed.ticks + i)
  ticks : play.feed.ticks = feed.ticks + k
  stats : play.stats = ⟨k, (reportsIn messages).length, (truthsIn messages).length⟩

/-- The broker refused a message of turn `k + 1`. -/
structure Refused (edge : Edge γ) (runner : FeedRunner) (start : Instant) (feed : Feed) (k : ℕ)
    (stopped : Stopped) : Prop where
  error : stopped.error = .kafka
  script : ∃ acc, runner.script edge.sha256 edge.rng start (k + 1) = .ok acc ∧
    deliver edge.accepts feed.log acc.2 = .error stopped.log

theorem tick_played {start : Instant} {feed : Feed} {messages : List Published}
    (h : Played edge runner start feed k play messages) :
    (∃ play', tick edge runner play = .ok play' ∧
        ∃ messages', Played edge runner start feed (k + 1) play' messages') ∨
      ∃ stopped, tick edge runner play = .error stopped ∧ Refused edge runner start feed k stopped := by
  obtain ⟨advanced, sim, reports, hadvance, hobserve, hnext, -⟩ := script_succ h.script
  rw [tick_eq hadvance hobserve]
  have hdeliver := deliver_append_of_ok (runner.shows reports sim.truth) h.log
  cases hsent : deliver edge.accepts play.feed.log (runner.shows reports sim.truth) with
  | ok log =>
    refine .inl ⟨_, rfl, messages ++ runner.shows reports sim.truth, ?_⟩
    refine ⟨hnext, hdeliver.trans hsent, ?_, ?_, ?_⟩
    · rw [h.clock, h.ticks, Finset.sum_range_succ, add_assoc]
    · rw [h.ticks, add_assoc]
    · simp [h.stats]
  | error log => exact .inr ⟨_, rfl, rfl, _, hnext, hdeliver.trans hsent⟩

theorem finished_iff {start : Instant} {acc : Simulation γ × List Published} (h : Scripted runner start k acc) :
    acc.1.finished = true ↔ runner.turns ≤ k := by
  rw [Simulation.finished, decide_eq_true_eq, h.scenario, h.elapsedS, turns_le_iff, clockAfter_eq]

theorem played_opening (edge : Edge γ) (runner : FeedRunner) (start : Instant) (feed : Feed) :
    Played edge runner start feed 0 (opening edge runner start feed) [] :=
  ⟨rfl, by simp [opening], by simp [opening], rfl, rfl⟩

/-- The loop of a run ends with its script sent, or with one of the messages refused. -/
theorem loop_played {start : Instant} {feed : Feed} {fuel : ℕ} (hfuel : runner.turns ≤ fuel) :
    (∃ play, whileNot (fun play => play.simulation.finished) (tick edge runner) fuel
        (opening edge runner start feed) = some (.ok play) ∧
      ∃ messages, Played edge runner start feed runner.turns play messages) ∨
    ∃ k < runner.turns, ∃ stopped, whileNot (fun play => play.simulation.finished) (tick edge runner) fuel
        (opening edge runner start feed) = some (.error stopped) ∧ Refused edge runner start feed k stopped := by
  refine whileNot_cases (I := fun k play => ∃ messages, Played edge runner start feed k play messages)
    ⟨[], played_opening edge runner start feed⟩ (fun k _ play play' ⟨messages, hplayed⟩ hstep => ?_)
    (fun k _ play stopped ⟨messages, hplayed⟩ hstep => ?_) (fun k hk play ⟨messages, hplayed⟩ => ?_)
    (fun play ⟨messages, hplayed⟩ => (finished_iff (scripted_script hplayed.script)).mpr le_rfl) hfuel
  · rcases tick_played hplayed with ⟨next, hnext, hthere⟩ | ⟨stopped, hnext, -⟩
    · exact Except.ok.inj (hnext.symm.trans hstep) ▸ hthere
    · rw [hnext] at hstep
      cases hstep
  · rcases tick_played hplayed with ⟨next, hnext, -⟩ | ⟨stopped', hnext, hthere⟩
    · rw [hnext] at hstep
      cases hstep
    · exact Except.error.inj (hnext.symm.trans hstep) ▸ hthere
  · refine Bool.eq_false_of_not_eq_true fun hdone => ?_
    exact absurd ((finished_iff (scripted_script hplayed.script)).mp hdone) (Nat.not_le.mpr hk)

/-- A run comes to what the broker makes of its script. -/
theorem run_scripted (edge : Edge γ) (runner : FeedRunner) (startTime : Option Instant) (feed : Feed) :
    ∃ result sim messages,
      runner.script edge.sha256 edge.rng (startOf startTime feed) runner.turns = .ok (sim, messages) ∧
      (∀ fuel ≥ runner.turns, run edge runner fuel startTime feed = some result) ∧
      result = outcome edge runner feed messages := by
  obtain ⟨sim, messages, hscript⟩ := exists_script edge runner (startOf startTime feed) runner.turns
  refine ⟨_, sim, messages, hscript, fun fuel hfuel => ?_, rfl⟩
  rw [run]
  rcases loop_played hfuel with ⟨play, hrun, messages', hplayed⟩ | ⟨k, hk, stopped, hrun, hrefused⟩
  · obtain ⟨-, rfl⟩ := Prod.mk.inj (Except.ok.inj (hscript.symm.trans hplayed.script))
    rw [hrun, outcome, hplayed.log, ← hplayed.clock, ← hplayed.ticks]
    simp only [Option.map_some, Except.map, hplayed.stats]
  · obtain ⟨acc, hshort, hdeliver⟩ := hrefused.script
    obtain ⟨rest, hrest⟩ : acc.2 <+: messages := script_prefix hk hshort hscript
    have hall : deliver edge.accepts feed.log messages = .error stopped.log := by
      rw [← hrest]
      exact deliver_append_of_error hdeliver
    rw [hrun, outcome, hall, ← hrefused.error]
    rfl

/-- A run publishes its script up to the first message the broker refuses. Without a refusal it ends with the
    first turn after which the engine's clock has reached the duration, and its numbers are those of the
    script; neither the pace nor the work changes what is sent. -/
theorem run_publishes_the_script (edge : Edge γ) (runner : FeedRunner) (startTime : Option Instant) (feed : Feed) :
    (∀ k sim messages, runner.script edge.sha256 edge.rng (startOf startTime feed) k = .ok (sim, messages) →
      sim.elapsedS = runner.clockAfter k ∧ (runner.turns ≤ k ↔ runner.scenario.durationS ≤ sim.elapsedS)) ∧
    ∃ sim messages,
      runner.script edge.sha256 edge.rng (startOf startTime feed) runner.turns = .ok (sim, messages) ∧
      ∀ fuel ≥ runner.turns, run edge runner fuel startTime feed = some (outcome edge runner feed messages) := by
  constructor
  · intro k sim messages hscript
    have hclock : sim.elapsedS = runner.clockAfter k :=
      (scripted_script hscript).elapsedS.trans (runner.clockAfter_eq k).symm
    exact ⟨hclock, by rw [hclock, turns_le_iff]⟩
  · obtain ⟨_, sim, messages, hscript, hrun, rfl⟩ := run_scripted edge runner startTime feed
    exact ⟨sim, messages, hscript, hrun⟩

/-! ### What consumers are promised -/

/-- The messages acknowledged by the end of a run. -/
def logOf : Except Stopped (Feed × FeedStats) → List Published
  | .ok result => result.1.log
  | .error stopped => stopped.log

theorem exists_take_of_outcome (edge : Edge γ) (runner : FeedRunner) (feed : Feed) (messages : List Published) :
    ∃ n, logOf (outcome edge runner feed messages) = feed.log ++ messages.take n := by
  unfold outcome
  cases hsent : deliver edge.accepts feed.log messages with
  | ok log => exact exists_take_of_deliver (.inl hsent)
  | error log => exact exists_take_of_deliver (.inr hsent)

/-- Different numbers of intervals are different spans. -/
theorem timedelta_strictMono {intervalS : ℚ} (hinterval : 1 / 1000000 < intervalS) :
    StrictMono fun n : ℕ => timedelta (n * intervalS) := by
  intro i j hij
  have hi := (roundHalfEven_mem (i * intervalS * 1000000)).2
  have hj := (roundHalfEven_mem (j * intervalS * 1000000)).1
  have hstep : ((i : ℚ) + 1) * (intervalS * 1000000) ≤ j * (intervalS * 1000000) := by
    refine mul_le_mul_of_nonneg_right ?_ (by linarith)
    exact_mod_cast hij
  have hlt : ((timedelta (i * intervalS) : ℤ) : ℚ) < timedelta (j * intervalS) := by
    rw [timedelta, timedelta]
    linarith
  exact_mod_cast hlt

/-- The messages of a script are in an order the broker keeps. -/
theorem pairwise_script {start : Instant} {sim : Simulation γ} {messages : List Published}
    (hinterval : 1 / 1000000 < runner.reportIntervalS)
    (h : runner.script edge.sha256 edge.rng start k = .ok (sim, messages)) :
    messages.Pairwise Published.Before := by
  induction k generalizing sim messages with
  | zero =>
    obtain ⟨-, rfl⟩ := Prod.mk.inj (Except.ok.inj h)
    exact List.Pairwise.nil
  | succ k ih =>
    obtain ⟨sim', messages', hscript⟩ := exists_script edge runner start k
    obtain ⟨_, next, reports, _, _, hnext, hat, hbefore⟩ := script_succ hscript
    obtain ⟨-, rfl⟩ := Prod.mk.inj (Except.ok.inj (hnext.symm.trans h))
    refine List.pairwise_append.mpr ⟨ih hscript, hbefore, fun m hm m' hm' _ _ => ?_⟩
    obtain ⟨j, -, hj, hmat⟩ := (scripted_script hscript).timed m hm
    rw [hmat, hat m' hm']
    exact add_lt_add_right (timedelta_strictMono hinterval (Nat.lt_succ_of_le hj)) start

/-- Whatever the broker refuses, a run adds the first so many messages of its script. -/
theorem run_takes (edge : Edge γ) (runner : FeedRunner) (startTime : Option Instant) (feed : Feed) :
    ∃ result sim messages n, (∀ fuel ≥ runner.turns, run edge runner fuel startTime feed = some result) ∧
      runner.script edge.sha256 edge.rng (startOf startTime feed) runner.turns = .ok (sim, messages) ∧
      logOf result = feed.log ++ messages.take n := by
  obtain ⟨result, sim, messages, hscript, hrun, hresult⟩ := run_scripted edge runner startTime feed
  obtain ⟨n, hlog⟩ := exists_take_of_outcome edge runner feed messages
  exact ⟨result, sim, messages, n, hrun, hscript, hresult ▸ hlog⟩

/-- What consumers are promised of every run, whether it ends or raises: the messages it adds are sound, the
    reports among them are numbered from one without a gap, and under one topic and key each is about a later
    instant than the one before. -/
theorem run_keeps_its_promises (edge : Edge γ) (runner : FeedRunner) (startTime : Option Instant) (feed : Feed)
    (hinterval : 1 / 1000000 < runner.reportIntervalS) :
    ∃ result added, (∀ fuel ≥ runner.turns, run edge runner fuel startTime feed = some result) ∧
      logOf result = feed.log ++ added ∧ (∀ m ∈ added, m.Sound) ∧ added.Pairwise Published.Before ∧
      (reportsIn added).map SurveillanceReport.reportId =
        reportIdsFrom runner.scenario.scenarioId 0 (reportsIn added).length := by
  obtain ⟨result, sim, messages, n, hrun, hscript, hlog⟩ := run_takes edge runner startTime feed
  have hscripted := scripted_script hscript
  refine ⟨_, messages.take n, hrun, hlog, fun m hm => hscripted.sound m (List.mem_of_mem_take hm), ?_, ?_⟩
  · exact (pairwise_script hinterval hscript).sublist (List.take_sublist n messages)
  · obtain ⟨m, hm⟩ : ∃ m, reportsIn messages = reportsIn (messages.take n) ++ m :=
      ⟨reportsIn (messages.drop n), by rw [← reportsIn_append, List.take_append_drop]⟩
    have hids := hscripted.ids
    rw [hm, List.map_append, List.length_append, ← reportIdsFrom_append] at hids
    exact (List.append_inj hids (by simp [reportIdsFrom])).1

/-- One aircraft that flies straight and level. -/
def levelRunner : FeedRunner where
  scenario := levelScenario []
  admitted := levelScenario_admitted (by simp)

/-- A generator that draws means, and a broker that takes two messages. -/
def refusing : Edge ℕ := ⟨fun _ => [], countingRandom, fun n => n < 2, fun _ => 0, fun _ => 0⟩

theorem run_keeps_its_promises_refused :
    ∃ result added, (∀ fuel ≥ levelRunner.turns, run refusing levelRunner fuel none {} = some result) ∧
      logOf result = [] ++ added ∧ (∀ m ∈ added, m.Sound) ∧ added.Pairwise Published.Before ∧
      (reportsIn added).map SurveillanceReport.reportId =
        reportIdsFrom levelRunner.scenario.scenarioId 0 (reportsIn added).length :=
  run_keeps_its_promises refusing levelRunner none {} (by norm_num [levelRunner])

end FeedRunner

end

end Airspace
