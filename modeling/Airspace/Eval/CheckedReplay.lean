import Airspace.Common.Wire
import Airspace.Eval.Replay
import Airspace.Track.Checked

/-! A replay as it raises.

    A replay ends early where the estimator builds an update that is refused, where the scan divides a
    position by a cell of no size, and where the evidence of a conflict is refused. One that comes back has
    taken the turns of a replay in which nothing is refused, and comes to the same outcome. -/

namespace Airspace

noncomputable section

/-- What ends a run through the pipeline early. -/
inductive RunError where
  | lookup (e : SimError)
  | validation
  | zeroDivision
  deriving DecidableEq

/-- A lookup of the simulation, in a run that may also end otherwise. -/
def lookup {α : Type} : Except SimError α → Except RunError α
  | .ok a => .ok a
  | .error e => .error (.lookup e)

theorem lookup_eq_ok {α : Type} {a : α} {x : Except SimError α} (h : lookup x = .ok a) : x = .ok a := by
  cases x with
  | ok b => exact congrArg Except.ok (Except.ok.inj h)
  | error e => cases h

/-! ### Reports one after the other -/

/-- One report given to the estimator, its answer to a listener. -/
def answering {α : Type} (listen : α → TrackUpdate → α) (acc : TrackEstimator × α)
    (report : SurveillanceReport) : TrackEstimator × α :=
  let out := acc.1.onReport report
  (out.1, listen acc.2 out.2)

/-- The same with an estimator that raises. -/
def answeringChecked {α : Type} (listen : α → TrackUpdate → α) (acc : TrackEstimator × α)
    (report : SurveillanceReport) : Except RunError (TrackEstimator × α) :=
  match acc.1.onReportChecked report with
  | (estimator, some update) => .ok (estimator, listen acc.2 update)
  | (_, none) => .error .validation

section

variable {α : Type} {listen : α → TrackUpdate → α} {acc acc' : TrackEstimator × α} {report : SurveillanceReport}
  {reports : List SurveillanceReport}

theorem answeringChecked_of_admitted (h : (acc.1.onReport report).2.Admitted) :
    answeringChecked listen acc report = .ok (answering listen acc report) := by
  rw [answeringChecked, TrackEstimator.onReportChecked_of_admitted h]
  rfl

theorem answeringChecked_eq_ok (h : answeringChecked listen acc report = .ok acc') :
    answering listen acc report = acc' := by
  by_cases hadmitted : (acc.1.onReport report).2.Admitted
  · rw [answeringChecked_of_admitted hadmitted] at h
    exact Except.ok.inj h
  · rw [answeringChecked, TrackEstimator.onReportChecked_of_refused hadmitted] at h
    cases h

/-- Reports that are all answered have been given to the estimator one after the other. -/
theorem foldlM_answeringChecked (h : reports.foldlM (answeringChecked listen) acc = .ok acc') :
    reports.foldl (answering listen) acc = acc' := by
  induction reports generalizing acc with
  | nil => exact Except.ok.inj h
  | cons report reports ih =>
    rw [List.foldlM_cons] at h
    cases hone : answeringChecked listen acc report with
    | error e =>
      rw [hone] at h
      cases h
    | ok next =>
      rw [hone] at h
      rw [List.foldl_cons, answeringChecked_eq_ok hone]
      exact ih h

/-- An invariant of the estimator under which reports are answered carries them to the last one. -/
theorem foldlM_answeringChecked_of_invariant {I : TrackEstimator → Prop} {P : SurveillanceReport → Prop}
    (hanswer : ∀ e r, I e → P r → (e.onReport r).2.Admitted ∧ I (e.onReport r).1) (hstart : I acc.1)
    (hreports : ∀ r ∈ reports, P r) :
    reports.foldlM (answeringChecked listen) acc = .ok (reports.foldl (answering listen) acc) ∧
      I (reports.foldl (answering listen) acc).1 := by
  induction reports generalizing acc with
  | nil => exact ⟨rfl, hstart⟩
  | cons report reports ih =>
    obtain ⟨hreport, hrest⟩ := List.forall_mem_cons.mp hreports
    obtain ⟨hadmitted, hnext⟩ := hanswer acc.1 report hstart hreport
    rw [List.foldlM_cons, answeringChecked_of_admitted hadmitted]
    have hstart : I (answering listen acc report).1 := hnext
    exact ih hstart hrest

end

namespace Replay

variable {γ : Type} (w : Surroundings γ)

/-- `runner.absorb(...)`. -/
def absorbing (runner : ConformanceRunner) (update : TrackUpdate) : ConformanceRunner :=
  runner.absorb (w.wall runner.updates) none update

theorem hear_eq : hear w = answering (absorbing w) := rfl

theorem monitor_scanNow (s : ConformanceRunner) (uuid4 : ℕ → String) (now : Instant) :
    (s.scanNow uuid4 now none).runner.monitor = s.monitor := by
  rw [ConformanceRunner.scanNow, ConformanceRunner.deliver_eq]
  rfl

theorem monitor_observe (s : ConformanceRunner) (update : TrackUpdate) :
    (s.observe update).monitor = s.monitor := by
  unfold ConformanceRunner.observe
  split
  · rfl
  · simp only
    split <;> rfl

/-- What is heard leaves the detector's settings alone. -/
theorem monitor_foldl_absorbing (reports : List SurveillanceReport) (acc : TrackEstimator × ConformanceRunner) :
    (reports.foldl (answering (absorbing w)) acc).2.monitor = acc.2.monitor := by
  induction reports generalizing acc with
  | nil => rfl
  | cons report reports ih =>
    rw [List.foldl_cons, ih]
    simp only [answering, absorbing, ConformanceRunner.absorb]
    split_ifs
    · rfl
    · rfl
    · exact monitor_observe ..

open Classical in
/-- What a scan of these tracks raises, if it does: it divides by the cell's size where there are two tracks to
    compare, and validates the evidence of every conflict. -/
def scanFault (m : SeparationMonitor) (tracks : List TrackUpdate) : Option RunError :=
  if 2 ≤ (m.eligible tracks).length ∧ m.interactionRadiusNm = 0 then some .zeroDivision
  else if ∀ c ∈ m.scan tracks, ∀ e ∈ (asDetection c).conflict, e.Admitted then none
  else some .validation

/-- One turn of the loop. -/
def tickChecked (r : Replay γ) : Except RunError (Replay γ) := do
  let simulation ← lookup (r.simulation.advance stepS)
  let now := simulation.now
  let truthFinder := r.truthFinder.observe simulation.truth now
  let (simulation, reports) ← lookup (simulation.observe w.rng)
  let (estimator, runner) ← reports.foldlM (answeringChecked (absorbing w)) (r.estimator, r.runner)
  let before := r.published.length
  -- the scan raises before anything is published
  match scanFault runner.monitor (runner.pruned now).picture.values with
  | some e => throw e
  | none =>
    let scan := runner.scanNow w.uuid4 now none
    let published := r.published ++ scan.published
    return {
      simulation := simulation
      estimator := estimator
      runner := scan.runner
      published := published
      truthFinder := truthFinder
      raised := (published.drop before).foldl (record (addressesByTrack simulation.scenario)) r.raised }

end Replay

/-- Run one scenario through the real pipeline and score it, or raise; nothing if the loop is still running
    after so many turns. -/
def replayChecked {γ : Type} (w : Surroundings γ) (fuel : ℕ) (scenario : Scenario) (settings : ReplaySettings) :
    Option (Except RunError ScenarioOutcome) :=
  (whileNot (fun r => r.simulation.finished) (Replay.tickChecked w) fuel (Replay.init w scenario settings)).map
    fun result => result.map fun r => score r.outcome

namespace Replay

variable {γ : Type} {w : Surroundings γ} {scenario : Scenario} {settings : ReplaySettings} {r r' : Replay γ}
  {k fuel : ℕ}

/-- The evidence of a conflict is refused for nothing but the detector's own settings. -/
theorem admitted_evidence {m : SeparationMonitor} (hlookahead : 0 < m.lookaheadS) (hhorizontal : 0 < m.horizontalNm)
    (hvertical : 0 < m.verticalFt) {tracks : List TrackUpdate} {c : Conflict} (hc : c ∈ m.scan tracks) :
    ∀ e ∈ (asDetection c).conflict, e.Admitted := by
  obtain ⟨p, -, htest⟩ := mem_scan_iff.mp hc
  obtain ⟨probability, rfl⟩ := exists_conflictFor htest
  intro e he
  obtain rfl := Option.some.inj he
  have hreport : 0 ≤ (m.report (relative p.1 p.2)).2.1 ∧ 0 ≤ (m.report (relative p.1 p.2)).2.2 := by
    simp only [SeparationMonitor.report]
    split
    · exact ⟨Real.sqrt_nonneg _, abs_nonneg _⟩
    · exact ⟨Real.sqrt_nonneg _, le_min (abs_nonneg _) (abs_nonneg _)⟩
  exact ⟨hreport.1, hreport.2, hlookahead, hhorizontal, hvertical⟩

/-- A detector that looks ahead, with positive standards, scans without raising. -/
theorem scanFault_eq_none {m : SeparationMonitor} (hlookahead : 0 < m.lookaheadS) (hhorizontal : 0 < m.horizontalNm)
    (hvertical : 0 < m.verticalFt) (tracks : List TrackUpdate) : scanFault m tracks = none := by
  have hcell : 0 < m.interactionRadiusNm := by
    rw [interactionRadiusNm_eq]
    positivity
  rw [scanFault, if_neg fun h => hcell.ne' h.2,
    if_pos fun c hc => admitted_evidence hlookahead hhorizontal hvertical hc]

/-- A turn whose reports are answered and whose scan does not raise. -/
theorem tickChecked_eq {advanced sim : Simulation γ} {reports : List SurveillanceReport}
    {heard : TrackEstimator × ConformanceRunner} (hadvance : r.simulation.advance stepS = .ok advanced)
    (hobserve : advanced.observe w.rng = .ok (sim, reports))
    (hheard : reports.foldlM (answeringChecked (absorbing w)) (r.estimator, r.runner) = .ok heard)
    (hscan : scanFault heard.2.monitor (heard.2.pruned advanced.now).picture.values = none) :
    ∃ r', tickChecked w r = .ok r' ∧ r'.simulation = sim ∧ r'.estimator = heard.1 ∧
      r'.runner.monitor = heard.2.monitor := by
  simp only [tickChecked, hadvance, hobserve, lookup, bind, Except.bind, hheard, hscan]
  refine ⟨_, rfl, rfl, rfl, ?_⟩
  exact monitor_scanNow ..

/-- A turn that does not raise is the turn of a replay in which nothing is refused. -/
theorem tick_of_checked (h : tickChecked w r = .ok r') : tick w r = .ok r' := by
  unfold tickChecked at h
  unfold tick
  cases hadvance : lookup (r.simulation.advance stepS) with
  | error e =>
    rw [hadvance] at h
    cases h
  | ok advanced =>
    rw [hadvance] at h
    rw [lookup_eq_ok hadvance]
    cases hobserve : lookup (advanced.observe w.rng) with
    | error e =>
      simp only [bind, Except.bind, hobserve] at h
      cases h
    | ok out =>
      cases hreports : out.2.foldlM (answeringChecked (absorbing w)) (r.estimator, r.runner) with
      | error e =>
        simp only [bind, Except.bind, hobserve, hreports] at h
        cases h
      | ok heard =>
        simp only [bind, Except.bind, hobserve, hreports] at h
        simp only [bind, Except.bind, lookup_eq_ok hobserve, hear_eq, foldlM_answeringChecked hreports]
        cases hfault : scanFault heard.2.monitor (heard.2.pruned advanced.now).picture.values with
        | some e =>
          simp only [hfault] at h
          cases h
        | none =>
          simp only [hfault] at h
          exact congrArg Except.ok (Except.ok.inj h)

/-- A replay that comes back has come to what it comes to with nothing refused, after as many turns as the
    scenario has begun seconds. -/
theorem exists_after_of_checked {outcome : ScenarioOutcome}
    (h : replayChecked w fuel scenario settings = some (.ok outcome)) :
    ∃ r, after w scenario settings ⌈scenario.durationS⌉₊ = .ok r ∧ outcome = score r.outcome := by
  obtain ⟨out, hloop, hout⟩ := Option.map_eq_some_iff.mp h
  cases out with
  | error e => cases hout
  | ok last =>
    obtain ⟨r, hr, hreplay⟩ := replay_eq w scenario settings
    have hsame := whileNot_of_rounds_eq (fun _ _ => tick_of_checked) hloop
    have hlater := hreplay _ (le_max_right fuel _)
    rw [replay, whileNot_mono hsame (le_max_left fuel _)] at hlater
    refine ⟨r, hr, ?_⟩
    rw [← Except.ok.inj hout]
    exact Except.ok.inj (Option.some.inj hlater)

end Replay

end

end Airspace
