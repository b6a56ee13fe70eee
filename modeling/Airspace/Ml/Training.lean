import Airspace.Ml.Labels
import Airspace.Sim.Family

/-! Training and what it leaves behind (`acp.ml.train`).

    The scenarios are split before anything is built from them, so a held-out sample is never a near-copy of a
    training one. The winner of each horizon is chosen on the validation split, where aircraft turn, and its
    artifact is the only one left for the horizon. -/

namespace Airspace

noncomputable section

/-! ### The splits -/

/-- `splits`, of so many scenarios for training and for validation. -/
def splitsOf (trainN valN : ℕ) (training shifted : List ScenarioDocument) :
    List (String × List ScenarioDocument) :=
  [("train", training.take trainN),
    ("validation", (training.take (trainN + valN)).drop trainN),
    ("test_same_family", training.drop (trainN + valN)),
    ("test_shifted", shifted)]

/-- `{s.scenario_id for s in scenarios}`. -/
def scenarioIds (scenarios : List ScenarioDocument) : Finset String :=
  (scenarios.map fun doc => doc.scenario.scenarioId).toFinset

/-- One turn of the check that no split reuses scenarios of another: the ids seen so far, or the split and
    the ids it reuses. -/
def rejectOverlap (seen : Finset String) (split : String × List ScenarioDocument) :
    Except (String × Finset String) (Finset String) :=
  let overlap := scenarioIds split.2 ∩ seen
  if overlap.Nonempty then .error (split.1, overlap) else .ok (seen ∪ scenarioIds split.2)

/-- The check passes exactly if the splits share no id with each other, nor with what was seen before. -/
theorem rejectOverlap_iff {splits : List (String × List ScenarioDocument)} (seen : Finset String) :
    (∃ all, splits.foldlM rejectOverlap seen = .ok all) ↔
      (∀ split ∈ splits, Disjoint (scenarioIds split.2) seen) ∧
        splits.Pairwise fun a b => Disjoint (scenarioIds a.2) (scenarioIds b.2) := by
  induction splits generalizing seen with
  | nil => simp [pure, Except.pure]
  | cons split splits ih =>
    rw [List.foldlM_cons, List.pairwise_cons, List.forall_mem_cons, rejectOverlap]
    by_cases hfree : Disjoint (scenarioIds split.2) seen
    · have hempty : ¬ (scenarioIds split.2 ∩ seen).Nonempty := by
        rw [Finset.not_nonempty_iff_eq_empty]
        exact Finset.disjoint_iff_inter_eq_empty.mp hfree
      simp only [if_neg hempty, bind, Except.bind, ih, Finset.disjoint_union_right]
      constructor
      · rintro ⟨hrest, hpairs⟩
        exact ⟨⟨hfree, fun s hs => (hrest s hs).1⟩, fun s hs => (hrest s hs).2.symm, hpairs⟩
      · rintro ⟨⟨-, hseen⟩, hfirst, hpairs⟩
        exact ⟨fun s hs => ⟨hseen s hs, (hfirst s hs).symm⟩, hpairs⟩
    · have hshared : (scenarioIds split.2 ∩ seen).Nonempty := by
        rwa [← Finset.not_disjoint_iff_nonempty_inter]
      simp only [if_pos hshared, bind, Except.bind]
      constructor
      · rintro ⟨all, hall⟩
        cases hall
      · rintro ⟨⟨hfree', -⟩, -⟩
        exact absurd hfree' hfree

/-! ### The families -/

namespace FamilyParameters

variable {γ : Type} (rng : Source γ) {params : FamilyParameters} {count fuel : ℕ} {seed : ℤ}
  {family : List ScenarioDocument}

/-- The scenarios of a family: told apart by their ids, named after the family, and admitted. -/
theorem ids_of_generateFamily (h : params.Proper) (hfuel : count * 10 ≤ fuel)
    (hfamily : generateFamily rng params count seed fuel = some (.ok family)) :
    (family.map fun doc => doc.scenario.scenarioId).Nodup ∧ ∀ doc ∈ family, doc.Admitted ∧
      ∃ index, doc.scenario.scenarioId = "gen-" ++ params.name ++ "-enc-" ++ padded 10 4 index := by
  obtain ⟨-, rfl⟩ := eq_take_of_generateFamily rng h hfuel hfamily
  constructor
  · rw [List.map_map]
    refine List.Nodup.map (fun i j hij => ?_) ((List.nodup_range.filter _).sublist (List.take_sublist _ _))
    simp only [Function.comp_apply, (staged_drawn rng h seed _).scenarioId] at hij
    exact padded_inj ((String.append_right_inj _).mp hij)
  · intro doc hdoc
    obtain ⟨index, hindex, rfl⟩ := List.mem_map.mp hdoc
    have hstaged := staged_drawn rng h seed index
    have husable := of_decide_eq_true (List.mem_filter.mp (List.mem_of_mem_take hindex)).2
    exact ⟨(hstaged.admitted_iff h).mpr husable, index, hstaged.scenarioId⟩

end FamilyParameters

/-- Stretches of a list that share no element's id. -/
theorem disjoint_scenarioIds {a b : List ScenarioDocument}
    (h : ((a ++ b).map fun doc => doc.scenario.scenarioId).Nodup) :
    Disjoint (scenarioIds a) (scenarioIds b) := by
  rw [List.map_append, List.nodup_append] at h
  rw [Finset.disjoint_left]
  intro id ha hb
  exact h.2.2 id (List.mem_toFinset.mp ha) id (List.mem_toFinset.mp hb) rfl

/-- A name does not begin as another does. -/
theorem append_ne {a b : String} (h : ¬ a.toList <+: b.toList) (x : String) : a ++ x ≠ b := by
  rintro rfl
  rw [String.toList_append] at h
  exact h (List.prefix_append a.toList x.toList)

/-- Names that begin differently. -/
theorem append_ne_append {a b : String} (hleft : ¬ a.toList <+: b.toList) (hright : ¬ b.toList <+: a.toList)
    (x y : String) : a ++ x ≠ b ++ y := by
  intro h
  have hletters := congrArg String.toList h
  rw [String.toList_append, String.toList_append] at hletters
  rcases List.prefix_or_prefix_of_prefix (List.prefix_append a.toList x.toList)
    (hletters ▸ List.prefix_append b.toList y.toList) with hprefix | hprefix
  · exact hleft hprefix
  · exact hright hprefix

/-- Scenarios of the two families never share an id. -/
theorem disjoint_families {a b : List ScenarioDocument}
    (ha : ∀ doc ∈ a, ∃ index, doc.scenario.scenarioId = "gen-" ++ training.name ++ "-enc-" ++ padded 10 4 index)
    (hb : ∀ doc ∈ b, ∃ index, doc.scenario.scenarioId = "gen-" ++ shifted.name ++ "-enc-" ++ padded 10 4 index) :
    Disjoint (scenarioIds a) (scenarioIds b) := by
  rw [Finset.disjoint_left]
  intro id hid hid'
  obtain ⟨doc, hdoc, rfl⟩ := List.mem_map.mp (List.mem_toFinset.mp hid)
  obtain ⟨doc', hdoc', hsame⟩ := List.mem_map.mp (List.mem_toFinset.mp hid')
  obtain ⟨i, hi⟩ := ha doc hdoc
  obtain ⟨j, hj⟩ := hb doc' hdoc'
  exact append_ne_append (by decide) (by decide) _ _ (hj.symm.trans (hsame.trans hi))

/-- The samples of a run carry the id of its scenario. -/
theorem scenarioId_of_mem {γ : Type} {sha256 : ByteArray → List UInt8} {rng : Random γ} {doc : ScenarioDocument}
    (hadmitted : doc.Admitted) {fuel : ℕ} (hfuel : ⌈doc.scenario.durationS⌉₊ ≤ fuel) {g : Gathering γ}
    (hrun : runScenario sha256 rng fuel doc.scenario = some (.ok g)) {horizonS : ℚ} {sample : Sample}
    (hsample : sample ∈ samplesFrom g horizonS) : sample.scenarioId = doc.scenario.scenarioId := by
  obtain ⟨g', -, hgathered, hrun'⟩ := Gathering.runScenario_eq sha256 rng hadmitted.scenario.addresses
  obtain rfl : g = g' := Except.ok.inj (Option.some.inj (hrun.symm.trans (hrun' fuel hfuel)))
  obtain ⟨entry, -, hwindows⟩ := List.mem_flatMap.mp hsample
  obtain ⟨window, -, hsample⟩ := List.mem_filterMap.mp hwindows
  rw [sampleAt, hgathered.sim.flown.scenario] at hsample
  split at hsample
  · split at hsample
    · rw [← Option.some.inj hsample]
      rfl
    · cases hsample
  · cases hsample

/-- The splits of a training run share nothing: whatever the families drawn, the check for reused scenarios
    passes, the first three splits are the training family cut in three, and no two samples built from
    different splits are of one scenario. -/
theorem splits_share_nothing {γ δ : Type} (source : Source γ) (total : ℕ) (seed : ℤ) (trainN valN fuel : ℕ)
    (hfuel : max total (max 20 (total / 3)) * 10 ≤ fuel) (family other : List ScenarioDocument)
    (hfamily : training.generateFamily source total seed fuel = some (.ok family))
    (hother : shifted.generateFamily source (max 20 (total / 3)) (seed + 7777) fuel = some (.ok other)) :
    (∃ all, (splitsOf trainN valN family other).foldlM rejectOverlap ∅ = .ok all) ∧
      ((splitsOf trainN valN family other).take 3).flatMap (·.2) = family ∧
      (splitsOf trainN valN family other).Pairwise fun a b => ∀ doc ∈ a.2, ∀ doc' ∈ b.2,
        ∀ (sha256 : ByteArray → List UInt8) (rng : Random δ) (horizonS : ℚ),
        ∀ turns ≥ max ⌈doc.scenario.durationS⌉₊ ⌈doc'.scenario.durationS⌉₊, ∀ g g',
          runScenario sha256 rng turns doc.scenario = some (.ok g) →
          runScenario sha256 rng turns doc'.scenario = some (.ok g') →
            ∀ sample ∈ samplesFrom g horizonS, ∀ sample' ∈ samplesFrom g' horizonS,
              sample.scenarioId ≠ sample'.scenarioId := by
  obtain ⟨hids, hnamed⟩ := FamilyParameters.ids_of_generateFamily source FamilyParameters.training_proper
    ((Nat.mul_le_mul_right 10 (le_max_left _ _)).trans hfuel) hfamily
  obtain ⟨-, hnamed'⟩ := FamilyParameters.ids_of_generateFamily source FamilyParameters.shifted_proper
    ((Nat.mul_le_mul_right 10 (le_max_right _ _)).trans hfuel) hother
  have hthree : family.take trainN ++ (family.take (trainN + valN)).drop trainN ++
      family.drop (trainN + valN) = family := by
    have hfirst : family.take trainN = (family.take (trainN + valN)).take trainN := by
      rw [List.take_take, min_eq_left (Nat.le_add_right trainN valN)]
    rw [hfirst, List.take_append_drop, List.take_append_drop]
  have hpairs : (splitsOf trainN valN family other).Pairwise fun a b =>
      Disjoint (scenarioIds a.2) (scenarioIds b.2) := by
    rw [← hthree] at hids
    have hheld := disjoint_scenarioIds hids
    have hchosen := disjoint_scenarioIds (List.Nodup.sublist ((List.sublist_append_left _ _).map _) hids)
    have hsub : ∀ part : List ScenarioDocument, part ⊆ family → Disjoint (scenarioIds part) (scenarioIds other) :=
      fun part hpart => disjoint_families (fun doc hdoc => (hnamed doc (hpart hdoc)).2)
        fun doc hdoc => (hnamed' doc hdoc).2
    have hunion : scenarioIds (family.take trainN ++ (family.take (trainN + valN)).drop trainN) =
        scenarioIds (family.take trainN) ∪ scenarioIds ((family.take (trainN + valN)).drop trainN) := by
      rw [scenarioIds, List.map_append, List.toFinset_append]
      rfl
    rw [hunion, Finset.disjoint_union_left] at hheld
    simp only [splitsOf, List.pairwise_cons, List.mem_cons, List.not_mem_nil, or_false, forall_eq_or_imp,
      forall_eq, List.Pairwise.nil, and_true, IsEmpty.forall_iff, implies_true]
    exact ⟨⟨hchosen, hheld.1, hsub _ (List.take_subset _ _)⟩,
      ⟨hheld.2, hsub _ (List.Subset.trans (List.drop_subset _ _) (List.take_subset _ _))⟩,
      hsub _ (List.drop_subset _ _)⟩
  have hadmitted : ∀ split ∈ splitsOf trainN valN family other, ∀ doc ∈ split.2, doc.Admitted := by
    intro split hsplit doc hdoc
    simp only [splitsOf, List.mem_cons, List.not_mem_nil, or_false] at hsplit
    rcases hsplit with rfl | rfl | rfl | rfl
    · exact (hnamed doc (List.mem_of_mem_take hdoc)).1
    · exact (hnamed doc (List.mem_of_mem_take (List.mem_of_mem_drop hdoc))).1
    · exact (hnamed doc (List.mem_of_mem_drop hdoc)).1
    · exact (hnamed' doc hdoc).1
  refine ⟨(rejectOverlap_iff ∅).mpr ⟨fun _ _ => Finset.disjoint_empty_right _, hpairs⟩, ?_, ?_⟩
  · rw [splitsOf]
    simpa using hthree
  · refine hpairs.imp_of_mem fun ha hb hdisjoint doc hdoc doc' hdoc' sha256 rng horizonS turns hturns g g' hrun
      hrun' sample hsample sample' hsample' hsame => ?_
    obtain ⟨hlong, hlong'⟩ := max_le_iff.mp hturns
    rw [scenarioId_of_mem (hadmitted _ ha doc hdoc) hlong hrun hsample,
      scenarioId_of_mem (hadmitted _ hb doc' hdoc') hlong' hrun' hsample'] at hsame
    refine Finset.disjoint_left.mp hdisjoint (List.mem_toFinset.mpr (List.mem_map_of_mem hdoc)) ?_
    rw [hsame]
    exact List.mem_toFinset.mpr (List.mem_map_of_mem hdoc')

/-- The first indices a family uses are among those a longer search uses. -/
theorem FamilyParameters.exists_family {γ : Type} (source : Source γ) {params : FamilyParameters}
    (h : params.Proper) {seed : ℤ} {count fuel : ℕ} (hfuel : count * 10 ≤ fuel)
    (husable : (usable source params seed count).length = count) :
    ∃ family, generateFamily source params count seed fuel = some (.ok family) := by
  have hmore : usable source params seed count <+: usable source params seed (count * 10) := by
    have hcut : count * 10 = count + count * 9 := by omega
    rw [usable, usable, hcut, List.range_add, List.filter_append]
    exact List.prefix_append _ _
  have henough : ¬ (usable source params seed (count * 10)).length < count :=
    not_lt.mpr (husable.symm.trans_le hmore.length_le)
  rw [generateFamily_usable source h seed hfuel, if_neg henough]
  exact ⟨_, rfl⟩

/-- A family of three, one for each split, drawn from the middle of every range. -/
theorem splits_share_nothing_middling : ∃ family other,
    (∃ all, (splitsOf 1 1 family other).foldlM rejectOverlap ∅ = .ok all) ∧
      ((splitsOf 1 1 family other).take 3).flatMap (·.2) = family ∧
      (splitsOf 1 1 family other).Pairwise fun a b => ∀ doc ∈ a.2, ∀ doc' ∈ b.2,
        ∀ (sha256 : ByteArray → List UInt8) (rng : Random ℕ) (horizonS : ℚ),
        ∀ turns ≥ max ⌈doc.scenario.durationS⌉₊ ⌈doc'.scenario.durationS⌉₊, ∀ g g',
          runScenario sha256 rng turns doc.scenario = some (.ok g) →
          runScenario sha256 rng turns doc'.scenario = some (.ok g') →
            ∀ sample ∈ samplesFrom g horizonS, ∀ sample' ∈ samplesFrom g' horizonS,
              sample.scenarioId ≠ sample'.scenarioId := by
  have husable : (FamilyParameters.usable FamilyParameters.middling training 7 3).length = 3 := by decide +kernel
  have husable' : (FamilyParameters.usable FamilyParameters.middling shifted 7784 20).length = 20 := by
    decide +kernel
  obtain ⟨family, hfamily⟩ := FamilyParameters.exists_family FamilyParameters.middling
    FamilyParameters.training_proper (by decide : 3 * 10 ≤ 200) husable
  obtain ⟨other, hother⟩ := FamilyParameters.exists_family FamilyParameters.middling
    FamilyParameters.shifted_proper (by decide : 20 * 10 ≤ 200) husable'
  exact ⟨family, other, splits_share_nothing FamilyParameters.middling 3 7 1 1 200 (by decide) family other
    hfamily hother⟩

/-! ### The winner -/

open Classical in
/-- `np.median`, of errors that are all numbers; an error may be infinite. -/
def median (xs : List EReal) : EReal :=
  let sorted := xs.insertionSort (· ≤ ·)
  if xs.length % 2 = 1 then sorted.getD (xs.length / 2) 0
  else (sorted.getD (xs.length / 2 - 1) 0 + sorted.getD (xs.length / 2) 0) / 2

/-- `_errors_nm`: the distance between the residual a model gave and the one it should have given. -/
def errorNm (sample : Sample) (row : Output) : Float64 :=
  .hypot (.sub (.of sample.target.alongTrackNm) row.alongTrackNm)
    (.sub (.of sample.target.crossTrackNm) row.crossTrackNm)

/-- `score(...).median_nm`, over the samples of one phase: nothing where there are none, and not a number if
    an error is not. -/
def medianNm (samples : List Sample) (rows : List Output) (phase : String) : Float64 :=
  let selected := (samples.zip rows).filter fun pair => pair.1.phase = phase
  if selected = [] then .of 0
  else (selected.mapM fun (sample, row) => errorNm sample row).map median

theorem mem_of_mapM {α : Type} {f : α → Float64} {xs : List α} {ys : List EReal} (h : xs.mapM f = some ys)
    {y : EReal} (hy : y ∈ ys) : ∃ x ∈ xs, y ∈ f x := by
  induction xs generalizing ys with
  | nil =>
    rw [List.mapM_nil] at h
    cases Option.some.inj h
    cases hy
  | cons x xs ih =>
    rw [List.mapM_cons] at h
    obtain ⟨first, hfirst, hrest⟩ := Option.bind_eq_some_iff.mp h
    obtain ⟨rest, hmap, hys⟩ := Option.bind_eq_some_iff.mp hrest
    obtain rfl := Option.some.inj hys
    rcases List.mem_cons.mp hy with rfl | hmem
    · exact ⟨x, List.mem_cons_self, hfirst⟩
    · obtain ⟨x', hx', hvalue⟩ := ih hmap hmem
      exact ⟨x', List.mem_cons_of_mem x hx', hvalue⟩

theorem median_nonneg {xs : List EReal} (h : ∀ x ∈ xs, 0 ≤ x) : 0 ≤ median xs := by
  have hsorted : ∀ i, 0 ≤ (xs.insertionSort (· ≤ ·)).getD i 0 := by
    intro i
    rw [List.getD_eq_getElem?_getD]
    rcases hi : (xs.insertionSort (· ≤ ·))[i]? with _ | x
    · exact le_rfl
    · exact h x ((List.mem_insertionSort _).mp (List.mem_of_getElem? hi))
  rw [median]
  split_ifs
  · exact hsorted _
  · exact EReal.div_nonneg (add_nonneg (hsorted _) (hsorted _)) (by norm_num)

/-- A median error is not negative. -/
theorem medianNm_nonneg {samples : List Sample} {rows : List Output} {phase : String} {x : EReal}
    (h : x ∈ medianNm samples rows phase) : 0 ≤ x := by
  rw [medianNm] at h
  split_ifs at h with hnone
  · obtain rfl := Option.some.inj h
    exact le_rfl
  · obtain ⟨errors, herrors, rfl⟩ := Option.map_eq_some_iff.mp h
    refine median_nonneg fun e he => ?_
    obtain ⟨pair, -, hpair⟩ := mem_of_mapM herrors he
    exact Float64.hypot_nonneg hpair

/-- `MATERIAL_IMPROVEMENT`: what a network must remove of the linear model's error to be worth it. -/
def materialImprovement : ℝ := 0.03

open Classical in
/-- The share of the linear model's error a network removes. -/
def improvement (ridgeError neuralError : Float64) : Float64 :=
  if Float64.Compare (· < ·) (.of 0) ridgeError then .div (.sub ridgeError neuralError) ridgeError else .of 0

/-- Whether a share is worth a network; what is not a number is not. -/
def Material (share : Float64) : Prop := Float64.Compare (· ≤ ·) (.of materialImprovement) share

/-- The network is worth it if and only if both errors are finite and it removes the material improvement. -/
theorem material_improvement_iff {ridgeError neuralError : Float64} (hneural : ∀ x ∈ neuralError, 0 ≤ x) :
    Material (improvement ridgeError neuralError) ↔ ∃ ridge neural : ℝ, ridgeError = .of ridge ∧
      neuralError = .of neural ∧ 0 < ridge ∧ neural ≤ (1 - materialImprovement) * ridge := by
  have hmaterial : 0 < materialImprovement := by norm_num [materialImprovement]
  rw [improvement]
  split_ifs with hpos
  · obtain ⟨zero, hzero, ridge, rfl, hlt⟩ := hpos
    obtain rfl := Option.some.inj hzero
    induction ridge with
    | bot => exact absurd hlt not_lt_bot
    | top =>
      rw [Float64.div_sub_top]
      exact iff_of_false Float64.not_compare_none (by rintro ⟨ridge, -, hridge, -⟩; cases hridge)
    | coe ridge =>
      have hridge : 0 < ridge := EReal.coe_pos.mp hlt
      rcases neuralError with _ | neural
      · exact iff_of_false Float64.not_compare_none (by rintro ⟨-, neural, -, hneural, -⟩; cases hneural)
      induction neural with
      | bot => exact absurd (hneural ⊥ rfl) (not_le.mpr EReal.bot_lt_zero)
      | top =>
        change Material (.div (.sub (.of ridge) (some ⊤)) (.of ridge)) ↔ _
        rw [Float64.sub_top, Float64.bot_div hridge]
        exact iff_of_false Float64.not_le_bot (by rintro ⟨-, neural, -, hneural, -⟩; cases hneural)
      | coe neural =>
        change Material (.div (.sub (.of ridge) (.of neural)) (.of ridge)) ↔ _
        rw [Float64.sub_of, Float64.div_of hridge.ne', Material, Float64.compare_of, EReal.coe_le_coe_iff,
          le_div_iff₀ hridge]
        constructor
        · intro h
          exact ⟨ridge, neural, rfl, rfl, hridge, by linarith⟩
        · rintro ⟨r, n, hr, hn, -, hle⟩
          rw [← Float64.of_inj.mp hr, ← Float64.of_inj.mp hn] at hle
          linarith
  · refine iff_of_false ?_ ?_
    · rw [Material, Float64.compare_of, EReal.coe_le_coe_iff]
      exact not_le.mpr hmaterial
    · rintro ⟨ridge, neural, rfl, -, hridge, -⟩
      exact hpos (Float64.compare_of.mpr (EReal.coe_lt_coe hridge))

variable {ν : Type}

/-- What was trained for one horizon: the two models, and the samples they are compared on. -/
structure Trained (libs : Libraries ν) where
  ridge : RidgeResidualModel
  neural : NeuralResidualModel ν
  /-- What torch saves it restores. -/
  restored : libs.loadStateDict neural.net.stateDict = some neural.net
  validation : Dataset

namespace Trained

variable {libs : Libraries ν} (t : Trained libs)

def model : ArtifactKind → ResidualModel
  | .ridge => t.ridge.toModel libs
  | .neural => t.neural.toModel

/-- What a model is saved as. -/
def artifact : ArtifactKind → Artifact ν
  | .ridge => .ridge t.ridge.save
  | .neural => .neural t.neural.save

/-- The error of a model on the validation samples of turning aircraft. -/
def errorOf (kind : ArtifactKind) : Except String Float64 := do
  let rows ← (t.model kind).predict (t.validation.samples.map (·.features))
  return medianNm t.validation.samples rows "turn"

open Classical in
def winner : Except String ArtifactKind := do
  let ridgeError ← t.errorOf .ridge
  let neuralError ← t.errorOf .neural
  return if Material (improvement ridgeError neuralError) then .neural else .ridge

theorem errorOf_nonneg {kind : ArtifactKind} {error : Float64} (h : t.errorOf kind = .ok error) :
    ∀ x ∈ error, 0 ≤ x := by
  rw [errorOf] at h
  rcases hrows : (t.model kind).predict (t.validation.samples.map (·.features)) with _ | rows
  · rw [hrows] at h
    cases h
  · rw [hrows] at h
    obtain rfl := Except.ok.inj h
    exact fun x hx => medianNm_nonneg hx

open Classical in
/-- The network wins by the material improvement, and only by it. -/
theorem eq_neural_iff {kind : ArtifactKind} (h : t.winner = .ok kind) :
    kind = .neural ↔ ∃ ridge neural : ℝ, t.errorOf .ridge = .ok (.of ridge) ∧
      t.errorOf .neural = .ok (.of neural) ∧ 0 < ridge ∧ neural ≤ (1 - materialImprovement) * ridge := by
  rw [winner] at h
  rcases hridge : t.errorOf .ridge with _ | ridgeError
  · rw [hridge] at h
    cases h
  rcases hneural : t.errorOf .neural with _ | neuralError
  · rw [hridge, hneural] at h
    cases h
  rw [hridge, hneural] at h
  have hkind : (if Material (improvement ridgeError neuralError) then ArtifactKind.neural else .ridge) = kind :=
    Except.ok.inj h
  simp only [Except.ok.injEq, ← material_improvement_iff (t.errorOf_nonneg hneural), ← hkind]
  split_ifs with hmaterial
  · exact iff_of_true rfl hmaterial
  · exact iff_of_false nofun hmaterial

/-- A winner is loaded as it was trained, if what it is loaded with is installed. -/
theorem loadAs_artifact (kind : ArtifactKind) :
    (loadAs libs (t.artifact kind) kind).toOption = if libs.has kind then some (t.model kind) else none := by
  cases kind with
  | ridge =>
    rw [artifact, loadAs, RidgeResidualModel.load_save]
    cases libs.has .ridge <;> rfl
  | neural =>
    rw [artifact, loadAs, NeuralResidualModel.load_save libs t.neural t.restored]
    cases libs.has .neural <;> rfl

end Trained

/-! ### The artifacts -/

/-- The file of a horizon's model, by its kind. -/
def artifactFile (horizonS : ℚ) : ArtifactKind → String
  | .ridge => ridgeFile horizonS
  | .neural => neuralFile horizonS

/-- One turn of the loop over the horizons: remove what a previous run left, and save the winner. -/
def ship {libs : Libraries ν} (trained : ℚ → Trained libs) (dir : ModelsDir ν) (horizonS : ℚ) :
    Except String (ModelsDir ν) := do
  let winner ← (trained horizonS).winner
  let dir := (dir.erase (ridgeFile horizonS)).erase (neuralFile horizonS)
  return dir.set (artifactFile horizonS winner) ((trained horizonS).artifact winner)

/-- `HORIZONS`. -/
def horizons : List ℚ := [30, 60, 120]

/-- What `train_and_evaluate` leaves in the models directory, the calibration last. -/
def shipAll {libs : Libraries ν} (dir : ModelsDir ν) (trained : ℚ → Trained libs) :
    Except String (ModelsDir ν) := do
  let dir ← horizons.foldlM (ship trained) dir
  return dir.set "calibration.json" .other

theorem neuralFile_eq (horizonS : ℚ) :
    neuralFile horizonS = "residual_neural_" ++ (toString (wholeSeconds horizonS) ++ "s.pt") := String.append_assoc

theorem ridgeFile_eq (horizonS : ℚ) :
    ridgeFile horizonS = "residual_ridge_" ++ (toString (wholeSeconds horizonS) ++ "s.json") := String.append_assoc

theorem ridgeFile_ne_neuralFile (horizonS : ℚ) : ridgeFile horizonS ≠ neuralFile horizonS := by
  rw [ridgeFile_eq, neuralFile_eq]
  exact append_ne_append (by decide) (by decide) _ _

theorem artifactFile_ne_calibration (horizonS : ℚ) (kind : ArtifactKind) :
    artifactFile horizonS kind ≠ "calibration.json" := by
  cases kind with
  | ridge =>
    rw [artifactFile, ridgeFile_eq]
    exact append_ne (by decide) _
  | neural =>
    rw [artifactFile, neuralFile_eq]
    exact append_ne (by decide) _

theorem horizons_files : ∀ a ∈ horizons, ∀ b ∈ horizons, a ≠ b →
    ∀ kind kind', artifactFile a kind ≠ artifactFile b kind' := by
  have hnodup : (horizons.flatMap fun a => [neuralFile a, ridgeFile a]).Nodup := by decide +kernel
  intro a ha b hb hne kind kind' heq
  have hsymm : Std.Symm (Function.onFun List.Disjoint fun a => [neuralFile a, ridgeFile a]) :=
    ⟨fun _ _ h => List.Disjoint.symm h⟩
  have hdisjoint := (List.nodup_flatMap.mp hnodup).2.forall ha hb hne
  have hfile : ∀ horizonS kind, artifactFile horizonS kind ∈ [neuralFile horizonS, ridgeFile horizonS] := by
    intro horizonS kind
    cases kind <;> simp [artifactFile]
  exact hdisjoint (hfile a kind) (heq ▸ hfile b kind')

section Ship

variable {libs : Libraries ν} {trained : ℚ → Trained libs} {dir dir' : ModelsDir ν} {horizonS : ℚ}

/-- What one turn leaves: the winner of its horizon and no other model of it, and every other file. -/
theorem get?_ship (h : ship trained dir horizonS = .ok dir') :
    ∃ winner, (trained horizonS).winner = .ok winner ∧
      (∀ kind, dir'.get? (artifactFile horizonS kind) =
        if kind = winner then some ((trained horizonS).artifact winner) else none) ∧
      ∀ name, (∀ kind, name ≠ artifactFile horizonS kind) → dir'.get? name = dir.get? name := by
  rw [ship] at h
  rcases hwinner : (trained horizonS).winner with _ | winner
  · rw [hwinner] at h
    cases h
  rw [hwinner] at h
  obtain rfl := Except.ok.inj h
  have hkinds := ridgeFile_ne_neuralFile horizonS
  refine ⟨winner, rfl, fun kind => ?_, fun name hname => ?_⟩
  · rw [Dict.get?_set, Dict.get?_erase, Dict.get?_erase]
    cases kind <;> cases winner <;> simp [artifactFile, hkinds, hkinds.symm]
  · have hneural : name ≠ neuralFile horizonS := hname .neural
    have hridge : name ≠ ridgeFile horizonS := hname .ridge
    rw [Dict.get?_set, if_neg (hname winner), Dict.get?_erase, if_neg hneural, Dict.get?_erase, if_neg hridge]

/-- Horizons with files of their own each keep the winner, and nothing else. -/
theorem get?_foldlM_ship {hs : List ℚ}
    (hnames : ∀ a ∈ hs, ∀ b ∈ hs, a ≠ b → ∀ kind kind', artifactFile a kind ≠ artifactFile b kind')
    (hshipped : hs.foldlM (ship trained) dir = .ok dir') (h : horizonS ∈ hs) :
    ∃ winner, (trained horizonS).winner = .ok winner ∧ ∀ kind, dir'.get? (artifactFile horizonS kind) =
      if kind = winner then some ((trained horizonS).artifact winner) else none := by
  induction hs using List.reverseRecOn generalizing dir' with
  | nil => cases h
  | append_singleton hs last ih =>
    rw [List.foldlM_append] at hshipped
    rcases hbefore : hs.foldlM (ship trained) dir with _ | before
    · rw [hbefore] at hshipped
      cases hshipped
    rw [hbefore] at hshipped
    have hlast : ship trained before last = .ok dir' := by
      rw [← bind_pure (ship trained before last)]
      exact hshipped
    obtain ⟨winner, hwinner, hself, hothers⟩ := get?_ship hlast
    by_cases hsame : horizonS = last
    · rw [hsame]
      exact ⟨winner, hwinner, hself⟩
    · have hmem : horizonS ∈ hs := (List.mem_append.mp h).resolve_right fun hin =>
        hsame (List.mem_singleton.mp hin)
      obtain ⟨winner', hwinner', hkept⟩ := ih
        (fun a ha b hb => hnames a (List.mem_append_left _ ha) b (List.mem_append_left _ hb)) hbefore hmem
      refine ⟨winner', hwinner', fun kind => ?_⟩
      rw [hothers _ (hnames horizonS h last (List.mem_append_right hs (List.mem_singleton.mpr rfl)) hsame kind),
        hkept]

/-- Whatever a previous run left in the models directory, after training the predictor of each horizon serves
    the winner and nothing else: as it was trained, or physics where what it is loaded with (torch for a
    network, scikit-learn for a linear model) is missing. The network won by removing three percent of the
    linear model's error where aircraft turn, and only so. -/
theorem training_serves_the_winner (hshipped : shipAll dir trained = .ok dir') (h : horizonS ∈ horizons) :
    ∃ winner, artifactFor dir' horizonS = some ((trained horizonS).artifact winner, winner) ∧
      (TrajectoryPredictor.init libs horizonS none dir').model =
        (if libs.has winner then some ((trained horizonS).model winner) else none) ∧
      (winner = .neural ↔ ∃ ridge neural : ℝ, (trained horizonS).errorOf .ridge = .ok (.of ridge) ∧
        (trained horizonS).errorOf .neural = .ok (.of neural) ∧ 0 < ridge ∧
          neural ≤ (1 - materialImprovement) * ridge) := by
  rw [shipAll] at hshipped
  rcases hloop : horizons.foldlM (ship trained) dir with _ | shipped
  · rw [hloop] at hshipped
    cases hshipped
  rw [hloop] at hshipped
  obtain rfl := Except.ok.inj hshipped
  obtain ⟨winner, hwinner, hkept⟩ := get?_foldlM_ship horizons_files hloop h
  have hfiles : ∀ kind, (shipped.set "calibration.json" .other).get? (artifactFile horizonS kind) =
      if kind = winner then some ((trained horizonS).artifact winner) else none := by
    intro kind
    rw [Dict.get?_set, if_neg (artifactFile_ne_calibration horizonS kind), hkept]
  have hneural : (shipped.set "calibration.json" .other).get? (neuralFile horizonS) = _ := hfiles .neural
  have hridge : (shipped.set "calibration.json" .other).get? (ridgeFile horizonS) = _ := hfiles .ridge
  have hfound : artifactFor (shipped.set "calibration.json" .other) horizonS =
      some ((trained horizonS).artifact winner, winner) := by
    rw [artifactFor, hneural, hridge]
    cases winner <;> simp
  refine ⟨winner, hfound, ?_, (trained horizonS).eq_neural_iff hwinner⟩
  rw [TrajectoryPredictor.init, Option.none_or, loadModel, hfound, Option.bind_some]
  exact (trained horizonS).loadAs_artifact winner

/-! ### A network that wins -/

/-- Standardised rows of which the linear model makes a mile too much, and the network nothing. -/
def offByAMile : Libraries Unit where
  torch := true
  sklearn := true
  linear _ _ rows := .ok (rows.map fun _ => Residual.row ⟨1, 0, 0⟩)
  loadStateDict _ := some { stateDict := (), forward := fun rows => rows.map fun _ => Residual.row ⟨0, 0, 0⟩ }

/-- An aircraft that turns and is where dead reckoning has it. -/
def turningSample : Sample where
  features := List.replicate nFeatures 0
  target := ⟨0, 0, 0⟩
  baselineErrorNm := 0
  scenarioId := "gen-training-enc-0000"
  phase := "turn"

def trainedOnATurn : Trained offByAMile where
  ridge :=
    { standardiser := Standardiser.fit []
      coef := List.replicate nTargets (List.replicate nFeatures 0)
      intercept := [0, 0, 0]
      shape := ⟨List.length_replicate .., fun _ hrow =>
        (List.eq_of_mem_replicate hrow) ▸ List.length_replicate ..⟩ }
  neural :=
    { standardiser := Standardiser.fit []
      net := { stateDict := (), forward := fun rows => rows.map fun _ => Residual.row ⟨0, 0, 0⟩ }
      targetScale := [1, 1, 1]
      epochsTrained := 1 }
  restored := rfl
  validation := { samples := [turningSample], horizonS := 60, nonempty := List.cons_ne_nil _ _ }

/-- Of one sample the median error is its error. -/
theorem medianNm_singleton {sample : Sample} {row : Output} :
    medianNm [sample] [row] sample.phase = errorNm sample row := by
  have hmedian : ∀ x, median [x] = x := fun x => by simp [median]
  rw [medianNm]
  rcases h : errorNm sample row with _ | error <;> simp [h, hmedian]

theorem errorNm_row (sample : Sample) (residual : Residual) :
    errorNm sample residual.row = .of √((sample.target.alongTrackNm - residual.alongTrackNm) ^ 2 +
      (sample.target.crossTrackNm - residual.crossTrackNm) ^ 2) := by
  simp only [errorNm, Residual.row, Float64.sub_of, Float64.hypot_of]

/-- The error of a model that answers the turn with a residual. -/
theorem errorOf_trainedOnATurn {kind : ArtifactKind} {residual : Residual}
    (h : (trainedOnATurn.model kind).predict [turningSample.features] = .ok [residual.row]) :
    trainedOnATurn.errorOf kind = .ok (errorNm turningSample residual.row) := by
  rw [← medianNm_singleton]
  exact congrArg (Except.map fun rows => medianNm [turningSample] rows "turn") h

theorem errorOf_ridge_trainedOnATurn : trainedOnATurn.errorOf .ridge = .ok (.of 1) := by
  obtain ⟨rows, hrows, hlength⟩ := Standardiser.exists_transform_fit [] [turningSample.features]
  have hanswer : (trainedOnATurn.model .ridge).predict [turningSample.features] =
      .ok [Residual.row ⟨1, 0, 0⟩] := by
    simp only [Trained.model, RidgeResidualModel.toModel, RidgeResidualModel.predict, trainedOnATurn, hrows,
      bind, Except.bind, offByAMile, List.map_const', hlength]
    rfl
  rw [errorOf_trainedOnATurn hanswer, errorNm_row]
  norm_num [turningSample]

theorem errorOf_neural_trainedOnATurn : trainedOnATurn.errorOf .neural = .ok (.of 0) := by
  obtain ⟨rows, hrows, hlength⟩ := Standardiser.exists_transform_fit [] [turningSample.features]
  have hscaled : (Residual.row ⟨0, 0, 0⟩).scaled [1, 1, 1] = Residual.row ⟨0, 0, 0⟩ := by
    simp [Output.scaled, Residual.row, Float64.mul_of]
  have hscale : broadcast nTargets [1, 1, 1] = .ok [1, 1, 1] := broadcast_self rfl
  have hanswer : (trainedOnATurn.model .neural).predict [turningSample.features] =
      .ok [Residual.row ⟨0, 0, 0⟩] := by
    simp only [Trained.model, NeuralResidualModel.toModel, NeuralResidualModel.predict, trainedOnATurn, hrows,
      bind, Except.bind, hscale, List.map_const', hlength, List.map_replicate, hscaled]
    rfl
  rw [errorOf_trainedOnATurn hanswer, errorNm_row]
  norm_num [turningSample]

/-- A network of an older version in the directory, which the linear model won; then the network wins. -/
theorem training_serves_the_winner_over_an_older :
    let older : NeuralPayload Unit := { trainedOnATurn.neural.save with modelVersion := some "older" }
    let dir : ModelsDir Unit := Dict.empty.set (neuralFile 60) (.neural older)
    build [[turningSample]] 60 = .ok trainedOnATurn.validation ∧
      ∃ dir', shipAll dir (fun _ => trainedOnATurn) = .ok dir' ∧
      artifactFor dir' 60 = some (trainedOnATurn.artifact .neural, .neural) ∧
      (TrajectoryPredictor.init offByAMile 60 none dir').model = some (trainedOnATurn.model .neural) := by
  intro older dir
  obtain ⟨dir', hshipped⟩ : ∃ dir', shipAll dir (fun _ => trainedOnATurn) = .ok dir' := by
    have hwinner : ∃ winner, trainedOnATurn.winner = .ok winner := by
      rw [Trained.winner, errorOf_ridge_trainedOnATurn, errorOf_neural_trainedOnATurn]
      exact ⟨_, rfl⟩
    obtain ⟨winner, hwinner⟩ := hwinner
    simp only [shipAll, horizons, List.foldlM_cons, List.foldlM_nil, ship, hwinner]
    exact ⟨_, rfl⟩
  obtain ⟨winner, hfound, hmodel, hwon⟩ := training_serves_the_winner hshipped (by decide : 60 ∈ horizons)
  obtain rfl : winner = .neural := hwon.mpr ⟨1, 0, errorOf_ridge_trainedOnATurn, errorOf_neural_trainedOnATurn,
    one_pos, by norm_num [materialImprovement]⟩
  exact ⟨dif_neg (List.cons_ne_nil _ _), dir', hshipped, hfound, hmodel⟩

end Ship

end

end Airspace
