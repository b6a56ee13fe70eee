import Airspace.Sim.Validity

/-! The reports of one observation.

    An observation reports every aircraft at most once, at the simulation's instant, and numbers its reports
    on from the ones before. -/

namespace Airspace

noncomputable section

/-- The simulation is past the scenario's end. -/
def Simulation.finished {γ : Type} (sim : Simulation γ) : Bool := sim.scenario.durationS ≤ sim.elapsedS

/-- `f"{scenario_id}-{sequence:09d}"`. -/
def reportIdOf (scenarioId : String) (n : ℕ) : String := scenarioId ++ "-" ++ Simulation.nineDigits n

/-- The identifiers of so many reports, after the first `first`. -/
def reportIdsFrom (scenarioId : String) (first count : ℕ) : List String :=
  (List.range' (first + 1) count).map (reportIdOf scenarioId)

theorem reportIdsFrom_append (scenarioId : String) (first m n : ℕ) :
    reportIdsFrom scenarioId first m ++ reportIdsFrom scenarioId (first + m) n =
      reportIdsFrom scenarioId first (m + n) := by
  rw [reportIdsFrom, reportIdsFrom, reportIdsFrom, ← List.map_append, add_right_comm, List.range'_append_1]

namespace Simulation

variable {γ : Type} {rng : Random γ} {sim sim' : Simulation γ} {reports : List SurveillanceReport}

/-- The reports so far are numbered on from where the observation started. -/
structure Numbered (start : Simulation γ) (acc : Simulation γ × List SurveillanceReport) : Prop where
  scenario : acc.1.scenario = start.scenario
  sequence : acc.1.reportSequence = start.reportSequence + acc.2.length
  ids : acc.2.map SurveillanceReport.reportId =
    reportIdsFrom start.scenario.scenarioId start.reportSequence acc.2.length

theorem numbered_observeEntry {acc acc' : Simulation γ × List SurveillanceReport} {s : AircraftTruth}
    (h : Numbered sim acc) (hstep : observeEntry rng acc s = .ok acc') : Numbered sim acc' := by
  unfold observeEntry at hstep
  split_ifs at hstep
  · exact Except.ok.inj hstep ▸ h
  · cases hget : getItem acc.1.noise s.icao24 with
    | error e =>
      rw [hget] at hstep
      cases hstep
    | ok noise =>
      simp only [hget, bind, Except.bind, pure, Except.pure] at hstep
      split_ifs at hstep
      · rw [← Except.ok.inj hstep]
        exact ⟨h.scenario, h.sequence, h.ids⟩
      · rw [← Except.ok.inj hstep]
        have hid : (observeOne rng acc.1 s (rng.random noise).2).1.reportId =
            reportIdOf acc.1.scenario.scenarioId (acc.1.reportSequence + 1) := rfl
        refine ⟨h.scenario, ?_, ?_⟩
        · change acc.1.reportSequence + 1 = _
          rw [h.sequence, List.length_append, List.length_singleton, add_assoc]
        · rw [List.map_append, h.ids, List.map_singleton, hid, h.scenario, h.sequence, List.length_append,
            List.length_singleton, ← reportIdsFrom_append]
          rfl

/-- An observation numbers its reports on from the ones before. -/
theorem numbered_observe (hstep : sim.observe rng = .ok (sim', reports)) : Numbered sim (sim', reports) := by
  have hloop : ∀ (states : List AircraftTruth) (acc acc' : Simulation γ × List SurveillanceReport),
      Numbered sim acc → states.foldlM (observeEntry rng) acc = .ok acc' → Numbered sim acc' := by
    intro states
    induction states with
    | nil =>
      intro acc acc' h hrun
      exact Except.ok.inj hrun ▸ h
    | cons s states ih =>
      intro acc acc' h hrun
      rw [List.foldlM_cons] at hrun
      cases hentry : observeEntry rng acc s with
      | error e =>
        rw [hentry] at hrun
        cases hrun
      | ok mid =>
        rw [hentry] at hrun
        exact ih mid acc' (numbered_observeEntry h hentry) hrun
  exact hloop sim.state.values _ _ ⟨rfl, rfl, rfl⟩ hstep

/-- An observation reports an aircraft at most once, and everything it reports is seen at its instant. -/
theorem observe_once (h : sim.WellFormed) (hstep : sim.observe rng = .ok (sim', reports)) :
    (∀ icao24, (reports.filter fun r => r.icao24 = icao24).length ≤ 1) ∧
      ∀ r ∈ reports, r.observedAt = sim.now := by
  obtain ⟨d, sequence, new, hd, hget, hnone⟩ := observe_spec rng h
  obtain ⟨-, rfl⟩ := Prod.mk.inj (Except.ok.inj (hstep.symm.trans hd))
  constructor
  · intro icao24
    have hlength : (reports.filter fun r => r.icao24 = icao24).length = (ownReports icao24 reports).length :=
      (List.length_map _).symm
    rw [hlength]
    cases hs : sim.state.get? icao24 with
    | none =>
      rw [hnone icao24 hs]
      exact Nat.zero_le 1
    | some s =>
      obtain ⟨noise, hnoise⟩ := h.noisy icao24 s hs
      rw [(hget icao24 s noise hs hnoise).2]
      exact Option.length_toList_le
  · intro r hr
    obtain ⟨s, noise, -, hsame⟩ := exists_observeOne rng h hstep hr
    exact congrArg SurveillanceReport.observedAt hsame

/-- What an advance does to the simulation besides its states. -/
theorem advance_frame {dtS : ℚ} (h : sim.WellFormed) (hstep : sim.advance dtS = .ok sim') :
    sim'.scenario = sim.scenario ∧ sim'.startTime = sim.startTime ∧ sim'.elapsedS = sim.elapsedS + dtS ∧
      sim'.reportSequence = sim.reportSequence := by
  by_cases hdt : 0 < dtS
  · obtain ⟨d, hd, -⟩ := advance_spec h hdt
    obtain rfl := Except.ok.inj (hd.symm.trans hstep)
    exact ⟨rfl, rfl, rfl, rfl⟩
  · rw [advance_of_not_pos hdt] at hstep
    cases hstep

/-- What an observation leaves alone. -/
theorem observe_frame (h : sim.WellFormed) (hstep : sim.observe rng = .ok (sim', reports)) :
    sim'.scenario = sim.scenario ∧ sim'.startTime = sim.startTime ∧ sim'.elapsedS = sim.elapsedS ∧
      sim'.state = sim.state := by
  obtain ⟨d, sequence, new, hd, -⟩ := observe_spec rng h
  obtain ⟨rfl, -⟩ := Prod.mk.inj (Except.ok.inj (hd.symm.trans hstep))
  exact ⟨rfl, rfl, rfl, rfl⟩

theorem Valid.advance {dtS : ℚ} (rng : Random γ) (h : sim.Valid) (hstep : sim.advance dtS = .ok sim') :
    sim'.Valid := by
  have hcall := (call_valid rng h (.advance dtS)).1
  rwa [call_advance hstep] at hcall

theorem Valid.observe (h : sim.Valid) (hstep : sim.observe rng = .ok (sim', reports)) :
    sim'.Valid ∧ ∀ r ∈ reports, r.Admitted := by
  have hcall := call_valid rng h .observe
  rw [call_observe hstep] at hcall
  exact ⟨hcall.1, hcall.2 reports rfl⟩

theorem Valid.truth (h : sim.Valid) : ∀ t ∈ sim.truth, t.Admitted := by
  intro t ht
  obtain ⟨s, hs, rfl⟩ := List.mem_map.mp ht
  obtain ⟨k, hk⟩ := Dict.mem_values_iff.mp (List.mem_filter.mp hs).1
  exact truthOf_admitted (h.states k s hk)

/-- The exact states name an aircraft at most once. -/
theorem nodup_truth (h : sim.WellFormed) : (sim.truth.map TruthState.icao24).Nodup := by
  have hkeys : (sim.state.values.map AircraftTruth.icao24).Nodup := h.map_icao24 ▸ sim.state.nodup
  rw [truth, List.map_map]
  exact hkeys.sublist ((List.filter_sublist (p := AircraftTruth.airborne)).map _)

/-- The reports of an observation name an aircraft at most once. -/
theorem nodup_observe (h : sim.WellFormed) (hstep : sim.observe rng = .ok (sim', reports)) :
    (reports.map SurveillanceReport.icao24).Nodup := by
  rw [List.nodup_iff_count_le_one]
  intro icao24
  have honce := (observe_once h hstep).1 icao24
  rwa [List.count, List.countP_map, List.countP_eq_length_filter]

end Simulation

end

end Airspace
