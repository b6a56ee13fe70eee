import Airspace.Ml.Labels
import Airspace.Sim.Intent

/-! Features do not leak what is going to happen.

    Two scenarios that differ only in commands meant for later than a second give, up to that second, the
    same history of updates. So every sample whose prediction is made by then has the same features in both:
    they differ in their labels, if at all. -/

namespace Airspace

noncomputable section

open Replay (instantAt)

namespace Gathering

variable {γ : Type} {rng : Random γ} {sha256 : ByteArray → List UInt8} {scenario other : Scenario}
  {g : Gathering γ} {k m t : ℕ}

/-! ### Turns of a cut scenario -/

/-- What is gathered, with the plans of the scenario cut. -/
def upTo (t : ℚ) (g : Gathering γ) : Gathering γ := { g with simulation := g.simulation.upTo t }

/-- A turn up to `t` does not read the commands meant for later. -/
theorem tick_upTo {t : ℚ} (h : g.simulation.elapsedS + 1 ≤ t) :
    tick rng (g.upTo t) = (tick rng g).map (upTo t) := by
  have hadvance : (g.upTo t).simulation.advance 1 = (g.simulation.advance 1).map (Simulation.upTo t) :=
    Simulation.advance_upTo h
  rw [tick, tick, hadvance]
  cases g.simulation.advance 1 with
  | error e => rfl
  | ok sim =>
    simp only [Except.map, bind, Except.bind, Simulation.observe_upTo, Simulation.truth_upTo]
    cases sim.observe rng <;> rfl

theorem rounds_upTo (sha256 : ByteArray → List UInt8) (rng : Random γ) (hdistinct : scenario.addresses.Nodup)
    (hk : k ≤ t) :
    rounds (tick rng) k (init rng sha256 (scenario.upTo t)) =
      (rounds (tick rng) k (init rng sha256 scenario)).map (upTo t) := by
  have hstart : init rng sha256 (scenario.upTo t) = (init rng sha256 scenario).upTo t :=
    congrArg (fun sim : Simulation γ => ({ simulation := sim } : Gathering γ)) (Simulation.init_upTo ..)
  induction k with
  | zero => rw [rounds, rounds, hstart]; rfl
  | succ k ih =>
    obtain ⟨g, hg, hflown⟩ := exists_rounds sha256 rng hdistinct k
    have hclock : g.simulation.elapsedS + 1 ≤ (t : ℚ) := by
      rw [hflown.sim.flown.elapsedS]
      exact_mod_cast hk
    have hcut : rounds (tick rng) k (init rng sha256 (scenario.upTo t)) = .ok (g.upTo t) := by
      rw [ih (Nat.le_of_succ_le hk), hg]
      rfl
    rw [rounds_of_eq hcut, rounds_of_eq hg, tick_upTo hclock]

/-- Scenarios that are the same up to a second have gathered the same updates by then. -/
theorem history_eq (hdistinct : scenario.addresses.Nodup) (hdistinct' : other.addresses.Nodup)
    (hsame : scenario.upTo t = other.upTo t) (hk : k ≤ t) {g' : Gathering γ}
    (hg : rounds (tick rng) k (init rng sha256 scenario) = .ok g)
    (hg' : rounds (tick rng) k (init rng sha256 other) = .ok g') : g.history = g'.history := by
  have hcut := rounds_upTo sha256 rng hdistinct hk
  have hcut' := rounds_upTo sha256 rng hdistinct' hk
  rw [hg] at hcut
  rw [hg', ← hsame, hcut] at hcut'
  have hcuts : g.upTo t = g'.upTo t := Except.ok.inj hcut'
  have hhistory := congrArg history hcuts
  exact hhistory

/-! ### What comes later -/

/-- Turns after `m` only add updates made after it. -/
theorem history_append (hdistinct : scenario.addresses.Nodup) {early : Gathering γ}
    (hearly : rounds (tick rng) m (init rng sha256 scenario) = .ok early) (hm : m ≤ k)
    (hg : rounds (tick rng) k (init rng sha256 scenario) = .ok g) (icao24 : String) :
    ∃ later, listed g.history icao24 = listed early.history icao24 ++ later ∧
      ∀ u ∈ later, instantAt m < u.updatedAt := by
  have hrun : Gathered scenario k g ∧ (m ≤ k → ∃ later,
      listed g.history icao24 = listed early.history icao24 ++ later ∧
        ∀ u ∈ later, instantAt m < u.updatedAt) := by
    refine invariant_of_rounds (I := fun k (g : Gathering γ) => Gathered scenario k g ∧ (m ≤ k → ∃ later,
      listed g.history icao24 = listed early.history icao24 ++ later ∧
        ∀ u ∈ later, instantAt m < u.updatedAt)) ⟨gathered_init hdistinct, fun hm => ?_⟩ ?_ hg
    · obtain rfl := Nat.le_zero.mp hm
      obtain rfl := Except.ok.inj hearly
      exact ⟨[], (List.append_nil _).symm, List.forall_mem_nil _⟩
    · rintro k g hrounds ⟨hgathered, hsplit⟩
      obtain ⟨g', hturn, hgathered', hnew⟩ := gathered_tick rng hgathered
      refine ⟨g', hturn, hgathered', fun hm => ?_⟩
      rcases Nat.lt_or_ge k m with hlt | hle
      · obtain rfl : m = k + 1 := by omega
        obtain rfl := Except.ok.inj (hearly.symm.trans ((rounds_of_eq hrounds).trans hturn))
        exact ⟨[], (List.append_nil _).symm, List.forall_mem_nil _⟩
      · obtain ⟨later, hlater, hafter⟩ := hsplit hle
        obtain ⟨new, hlisted, hat⟩ := hnew icao24
        refine ⟨later ++ new, by rw [hlisted, hlater, List.append_assoc], fun u hu => ?_⟩
        rcases List.mem_append.mp hu with hu | hu
        · exact hafter u hu
        · rw [hat u hu]
          refine lt_of_le_of_ne (Replay.instantAt_le_instantAt.mpr (Nat.le_succ_of_le hle)) fun heq => ?_
          exact absurd (Replay.instantAt_inj heq) (Nat.ne_of_lt (Nat.lt_succ_of_le hle))
  exact hrun.2 hm

/-- A history is what was known at a second, or at the end, and what was added after it. -/
theorem split_listed (hdistinct : scenario.addresses.Nodup) {early : Gathering γ}
    (hearly : rounds (tick rng) (min t k) (init rng sha256 scenario) = .ok early)
    (hg : rounds (tick rng) k (init rng sha256 scenario) = .ok g) (icao24 : String) :
    ∃ later, listed g.history icao24 = listed early.history icao24 ++ later ∧
      (∀ u ∈ listed early.history icao24, u.updatedAt ≤ instantAt t) ∧ ∀ u ∈ later, instantAt t < u.updatedAt := by
  have hknown : ∀ u ∈ listed early.history icao24, u.updatedAt ≤ instantAt t := by
    intro u hu
    obtain ⟨-, -, -, -, -, j, -, hj, hat, -⟩ := (gathered_of_rounds hdistinct hearly).updates icao24 u hu
    rw [hat]
    exact Replay.instantAt_le_instantAt.mpr (hj.trans (min_le_left t k))
  rcases le_total t k with hle | hle
  · rw [min_eq_left hle] at hearly
    obtain ⟨later, hlater, hafter⟩ := history_append hdistinct hearly hle hg icao24
    exact ⟨later, hlater, hknown, hafter⟩
  · rw [min_eq_right hle] at hearly
    obtain rfl := Except.ok.inj (hearly.symm.trans hg)
    exact ⟨[], (List.append_nil _).symm, hknown, List.forall_mem_nil _⟩

/-- A stretch that ends before the later part begins lies in the earlier one. -/
theorem infix_append_iff {α : Type} {P : α → Prop} {before after window : List α} {last : α}
    (hafter : ∀ a ∈ after, ¬ P a) (hlast : window.getLast? = some last) (hP : P last) :
    window <:+: before ++ after ↔ window <:+: before := by
  constructor
  · rintro ⟨front, back, heq⟩
    rcases List.append_eq_append_iff.mp heq with ⟨rest, hbefore, -⟩ | ⟨rest, hfront, hrest⟩
    · exact ⟨front, rest, hbefore.symm⟩
    · rcases List.eq_nil_or_concat rest with rfl | ⟨rest, a, rfl⟩
      · exact ⟨front, [], by rw [hfront, List.append_nil, List.append_nil]⟩
      · have hend : (front ++ window).getLast? = some last := by
          rw [List.getLast?_append, hlast, Option.some_or]
        rw [hfront, List.concat_eq_append, ← List.append_assoc, List.getLast?_concat] at hend
        obtain rfl := Option.some.inj hend
        refine absurd hP (hafter a ?_)
        rw [hrest, List.concat_eq_append]
        simp
  · rintro ⟨front, back, heq⟩
    exact ⟨front, back ++ after, by rw [← List.append_assoc, heq]⟩

/-- What is gathered of scenarios that are the same up to a second, in runs that come back: the same updates up
    to it, and so the same stretches of twenty of them, with the same features, before it. -/
theorem intent_does_not_leak (sha256 : ByteArray → List UInt8) (rng : Random γ) {scenario other : Scenario}
    (hdistinct : scenario.addresses.Nodup) {t : ℕ} (hsame : scenario.upTo t = other.upTo t) {fuel fuel' : ℕ}
    {g g' : Gathering γ} (hreturns : runScenarioChecked sha256 rng fuel scenario = some (.ok g))
    (hreturns' : runScenarioChecked sha256 rng fuel' other = some (.ok g')) :
    ∀ icao24,
      (listed g.history icao24).filter (fun u => u.updatedAt ≤ instantAt t) =
        (listed g'.history icao24).filter (fun u => u.updatedAt ≤ instantAt t) ∧
      ∀ horizonS window current features, ∀ j ≤ t,
        LabelledStretch (listed g.history icao24) horizonS ⌈scenario.durationS⌉₊ j window current features ↔
          LabelledStretch (listed g'.history icao24) horizonS ⌈other.durationS⌉₊ j window current features := by
  have haddresses : other.addresses = scenario.addresses := by
    have hmap : ∀ scenario : Scenario, (scenario.upTo t).addresses = scenario.addresses := by
      intro scenario
      rw [Scenario.addresses, Scenario.upTo, List.map_map]
      rfl
    rw [← hmap other, ← hsame, hmap]
  have hduration : other.durationS = scenario.durationS := (congrArg Scenario.durationS hsame).symm
  have hdistinct' : other.addresses.Nodup := haddresses ▸ hdistinct
  obtain ⟨hrounds, -⟩ := gathered_of_checked hdistinct hreturns
  obtain ⟨hrounds', -⟩ := gathered_of_checked hdistinct' hreturns'
  rw [hduration] at hrounds' ⊢
  obtain ⟨early, hearly, -⟩ := exists_rounds sha256 rng hdistinct
    (min t ⌈scenario.durationS⌉₊)
  obtain ⟨early', hearly', -⟩ := exists_rounds sha256 rng hdistinct'
    (min t ⌈scenario.durationS⌉₊)
  have hhistory := history_eq hdistinct hdistinct' hsame (min_le_left _ _) hearly hearly'
  intro icao24
  obtain ⟨later, hlisted, hknown, hafter⟩ := split_listed hdistinct hearly hrounds icao24
  obtain ⟨later', hlisted', hknown', hafter'⟩ := split_listed hdistinct' hearly' hrounds' icao24
  rw [← hhistory] at hlisted' hknown'
  constructor
  · have hdrop : ∀ later : List TrackUpdate, (∀ u ∈ later, instantAt t < u.updatedAt) →
        later.filter (fun u => u.updatedAt ≤ instantAt t) = [] := fun later hafter =>
      List.filter_eq_nil_iff.mpr fun u hu => by simpa using hafter u hu
    rw [hlisted, hlisted', List.filter_append, List.filter_append, hdrop later hafter, hdrop later' hafter']
  · intro horizonS window current features j hj
    have hpart : window.getLast? = some current → current.updatedAt = instantAt j →
        (window <:+: listed g.history icao24 ↔ window <:+: listed g'.history icao24) := by
      intro hlast hat
      have hby : current.updatedAt ≤ instantAt t := by
        rw [hat]
        exact Replay.instantAt_le_instantAt.mpr hj
      rw [hlisted, hlisted', infix_append_iff (fun u hu => not_le.mpr (hafter u hu)) hlast hby,
        infix_append_iff (fun u hu => not_le.mpr (hafter' u hu)) hlast hby]
    constructor
    · intro h
      exact { h with part := (hpart h.last h.updatedAt).mp h.part }
    · intro h
      exact { h with part := (hpart h.last h.updatedAt).mpr h.part }

/-- A climb planned for the second minute does not leak into the samples of the first. -/
theorem intent_does_not_leak_before_a_climb :
    ∃ g g', runScenarioChecked ByteArray.toList countingRandom 600 (eastScenario [⟨60, .climbTo 12000⟩]) =
        some (.ok g) ∧
      runScenarioChecked ByteArray.toList countingRandom 600 (eastScenario []) = some (.ok g') ∧ ∀ icao24,
        (listed g.history icao24).filter (fun u => u.updatedAt ≤ instantAt 59) =
          (listed g'.history icao24).filter (fun u => u.updatedAt ≤ instantAt 59) ∧
        ∀ horizonS window current features, ∀ j ≤ 59,
          LabelledStretch (listed g.history icao24) horizonS ⌈(eastScenario [⟨60, .climbTo 12000⟩]).durationS⌉₊ j
              window current features ↔
            LabelledStretch (listed g'.history icao24) horizonS ⌈(eastScenario []).durationS⌉₊ j window current
              features := by
  have hlater : due [⟨60, .climbTo 12000⟩] ((59 : ℕ) : ℚ) = [] := by
    rw [due, List.filter_cons_of_neg (by norm_num), List.filter_nil]
  have hsame : (eastScenario [⟨60, .climbTo 12000⟩]).upTo ((59 : ℕ) : ℚ) =
      (eastScenario []).upTo ((59 : ℕ) : ℚ) := by
    simp only [Scenario.upTo, eastScenario, List.map_cons, AircraftSpec.upTo, eastSpec, hlater]
    rfl
  have hadmitted := eastScenario_admitted (List.forall_mem_nil Command.Admitted)
  have hclimb : (eastScenario [⟨60, .climbTo 12000⟩]).Admitted := eastScenario_admitted
    (List.forall_mem_singleton.mpr ⟨by norm_num, by norm_num [CommandAction.Admitted]⟩)
  obtain ⟨g, hg⟩ := runScenarioChecked_eastbound ByteArray.toList noiseless_countingRandom hclimb
    (eastScenario_eastbound (List.forall_mem_singleton.mpr (by decide)))
  obtain ⟨g', hg'⟩ := runScenarioChecked_eastbound ByteArray.toList noiseless_countingRandom hadmitted
    (eastScenario_eastbound (List.forall_mem_nil _))
  have hfuel : ∀ plan, ⌈(eastScenario plan).durationS⌉₊ ≤ 600 := fun plan =>
    Nat.ceil_le.mpr (by norm_num [eastScenario])
  exact ⟨g, g', hg 600 (hfuel _), hg' 600 (hfuel _), intent_does_not_leak ByteArray.toList countingRandom
    hclimb.addresses hsame (hg 600 (hfuel _)) (hg' 600 (hfuel _))⟩

end Gathering

end

end Airspace
