import Airspace.Sim.Steps
import Airspace.Lib.KeyOrder
import Airspace.Lib.KeyedFold
import Mathlib.Algebra.BigOperators.Group.List.Lemmas
import Mathlib.Algebra.Order.BigOperators.Group.List

/-! Whether the steps show in what a plan does.

    A step fires the commands of its half-open interval in the order the plan lists them, so over a run they
    are applied step by step, and inside a step as listed. The autopilot keeps, for each kind of command,
    what the last one left. Commands meant for the start of the run lie in no step; and where a step holds
    several commands of a kind, the last listed one wins and not the latest. -/

namespace Airspace

noncomputable section

variable {plan : List Command} {elapsedS dtS : ℚ} {dts : List ℚ}

/-! ### What commands leave on the autopilot -/

/-- The autopilot's targets with their rates, and the code. -/
structure Targets where
  targetTrackDeg : ℝ
  turnRateDegS : ℝ
  targetAltitudeFt : ℝ
  climbRateFpm : ℝ
  targetSpeedKt : ℝ
  accelerationKtS : ℝ
  squawk : Option String

def AircraftTruth.targets (s : AircraftTruth) : Targets where
  targetTrackDeg := s.targetTrackDeg
  turnRateDegS := s.turnRateDegS
  targetAltitudeFt := s.targetAltitudeFt
  climbRateFpm := s.climbRateFpm
  targetSpeedKt := s.targetSpeedKt
  accelerationKtS := s.accelerationKtS
  squawk := s.squawk

/-- The targets one kind of command sets, written as the command that sets them. -/
def AircraftTruth.setting (s : AircraftTruth) : CommandKind → Option CommandAction
  | .turnTo => some (.turnTo s.targetTrackDeg s.turnRateDegS)
  | .climbTo => some (.climbTo s.targetAltitudeFt s.climbRateFpm)
  | .changeSpeed => some (.changeSpeed s.targetSpeedKt s.accelerationKtS)
  | .setSquawk => s.squawk.map .setSquawk

theorem targets_eq_iff {s s' : AircraftTruth} :
    s.targets = s'.targets ↔ ∀ kind, s.setting kind = s'.setting kind := by
  constructor
  · intro h kind
    simp only [AircraftTruth.targets, Targets.mk.injEq] at h
    obtain ⟨h1, h2, h3, h4, h5, h6, h7⟩ := h
    cases kind <;> simp [AircraftTruth.setting, h1, h2, h3, h4, h5, h6, h7]
  · intro h
    have hturn := h .turnTo
    have hclimb := h .climbTo
    have hspeed := h .changeSpeed
    have hcode := h .setSquawk
    simp only [AircraftTruth.setting, Option.some.injEq, CommandAction.turnTo.injEq,
      CommandAction.climbTo.injEq, CommandAction.changeSpeed.injEq] at hturn hclimb hspeed hcode
    have hsquawk := Option.map_injective (fun _ _ => CommandAction.setSquawk.inj) hcode
    simp only [AircraftTruth.targets, Targets.mk.injEq]
    exact ⟨hturn.1, hturn.2, hclimb.1, hclimb.2, hspeed.1, hspeed.2, hsquawk⟩

/-- A command sets what its kind sets and nothing else. -/
theorem setting_applyCommand (kind : CommandKind) (s : AircraftTruth) (c : Command) :
    (applyCommand s c).setting kind = if c.kind = kind then some c.action else s.setting kind := by
  obtain ⟨atS, action⟩ := c
  cases action <;> cases kind <;> rfl

/-- The commands of one kind, in order. -/
def ofKind (kind : CommandKind) (commands : List Command) : List Command :=
  commands.filter fun c => c.kind = kind

/-- Commands leave, of each kind, what the last one of the kind sets. -/
theorem setting_foldl_applyCommand (s : AircraftTruth) (commands : List Command) (kind : CommandKind) :
    (commands.foldl applyCommand s).setting kind =
      ((ofKind kind commands).getLast?.map Command.action).or (s.setting kind) := by
  have hview := view_foldl_filter (fun kind (s : AircraftTruth) => s.setting kind) Command.kind
    (fun _ c => some c.action) (fun s c kind => setting_applyCommand kind s c) commands s kind
  rw [hview, ← List.getLast?_map, ← foldl_overwrite, List.foldl_map]
  rfl

theorem targets_advanceAircraft (s : AircraftTruth) (dt : ℝ) (airborne : Bool) :
    (advanceAircraft s dt airborne).targets = s.targets := by
  obtain ⟨-, h1, h2, h3, h4, h5, h6, h7⟩ := advanceAircraft_frame s dt airborne
  simp only [AircraftTruth.targets, h1, h2, h3, h4, h5, h6, h7]

/-! ### The commands of a run -/

/-- The commands the steps fire, in the order they are applied. -/
def appliedOver (plan : List Command) : ℚ → List ℚ → List Command
  | _, [] => []
  | elapsedS, dtS :: dts => fired plan elapsedS (elapsedS + dtS) ++ appliedOver plan (elapsedS + dtS) dts

/-- Flying leaves the targets that the commands of its steps leave. -/
theorem setting_flown (spec : AircraftSpec) (elapsedS : ℚ) (dts : List ℚ) (s : AircraftTruth)
    (kind : CommandKind) : (flown spec elapsedS dts s).setting kind =
      ((appliedOver spec.plan elapsedS dts).foldl applyCommand s).setting kind := by
  induction dts generalizing elapsedS s with
  | nil => rfl
  | cons dt dts ih =>
    have hstep : (stepped spec elapsedS (elapsedS + dt) dt s).setting kind =
        ((fired spec.plan elapsedS (elapsedS + dt)).foldl applyCommand s).setting kind := by
      rw [stepped, targets_eq_iff.mp (targets_advanceAircraft _ _ _), applyCommands_eq_foldl]
    rw [flown, ih, appliedOver, List.foldl_append, setting_foldl_applyCommand, hstep,
      ← setting_foldl_applyCommand]

/-- The commands due within `totalS` seconds. -/
def due (plan : List Command) (totalS : ℚ) : List Command := plan.filter fun c => c.atS ≤ totalS

theorem ofKind_fired (kind : CommandKind) (plan : List Command) (fromS toS : ℚ) :
    ofKind kind (fired plan fromS toS) = fired (ofKind kind plan) fromS toS := List.filter_comm ..

theorem ofKind_inKeyOrder (kind : CommandKind) (commands : List Command) :
    ofKind kind (inKeyOrder Command.atS commands) = inKeyOrder Command.atS (ofKind kind commands) :=
  filter_inKeyOrder _ _

theorem ofKind_appliedOver (kind : CommandKind) (plan : List Command) (elapsedS : ℚ) (dts : List ℚ) :
    ofKind kind (appliedOver plan elapsedS dts) = appliedOver (ofKind kind plan) elapsedS dts := by
  induction dts generalizing elapsedS with
  | nil => rfl
  | cons dt dts ih => rw [appliedOver, ofKind, List.filter_append, appliedOver, ← ih, ← ofKind_fired]; rfl

theorem fired_filter_le {fromS midS toS : ℚ} (h : midS ≤ toS) (plan : List Command) :
    (fired plan fromS toS).filter (fun c => c.atS ≤ midS) = fired plan fromS midS := by
  unfold fired
  rw [List.filter_filter]
  refine List.filter_congr fun c _ => ?_
  rw [Bool.eq_iff_iff, Bool.and_eq_true, decide_eq_true_eq, decide_eq_true_eq, decide_eq_true_eq]
  exact ⟨fun ⟨h1, h2, _⟩ => ⟨h2, h1⟩, fun ⟨h1, h2⟩ => ⟨h2, h1, h2.trans h⟩⟩

theorem fired_filter_lt {fromS midS toS : ℚ} (h : fromS ≤ midS) (plan : List Command) :
    (fired plan fromS toS).filter (fun c => midS < c.atS) = fired plan midS toS := by
  unfold fired
  rw [List.filter_filter]
  refine List.filter_congr fun c _ => ?_
  rw [Bool.eq_iff_iff, Bool.and_eq_true, decide_eq_true_eq, decide_eq_true_eq, decide_eq_true_eq]
  exact ⟨fun ⟨h1, _, h3⟩ => ⟨h1, h3⟩, fun ⟨h1, h2⟩ => ⟨h1, h.trans_lt h1, h2⟩⟩

theorem sum_nonneg_of_pos (h : ∀ dt ∈ dts, 0 < dt) : 0 ≤ dts.sum := List.sum_nonneg fun dt hdt => (h dt hdt).le

/-- Over a run each command between its ends is fired once. -/
theorem appliedOver_perm (plan : List Command) (elapsedS : ℚ) (h : ∀ dt ∈ dts, 0 < dt) :
    (appliedOver plan elapsedS dts).Perm (fired plan elapsedS (elapsedS + dts.sum)) := by
  induction dts generalizing elapsedS with
  | nil =>
    rw [List.sum_nil, add_zero, fired, List.filter_eq_nil_iff.mpr]
    · exact List.Perm.refl _
    · intro c _ hc
      have hc := of_decide_eq_true hc
      exact absurd (hc.1.trans_le hc.2) (lt_irrefl _)
  | cons dt dts ih =>
    obtain ⟨hdt, hrest⟩ := List.forall_mem_cons.mp h
    have hsum := sum_nonneg_of_pos hrest
    rw [List.sum_cons, ← add_assoc, appliedOver]
    have hsplit := List.filter_append_perm (fun c : Command => c.atS ≤ elapsedS + dt)
      (fired plan elapsedS (elapsedS + dt + dts.sum))
    simp only [← decide_not, not_le] at hsplit
    rw [fired_filter_le (by linarith), fired_filter_lt (by linarith)] at hsplit
    exact ((ih (elapsedS + dt) hrest).append_left _).trans hsplit

/-- The commands of the last step that fires any, as the plan lists them. -/
def latestBatch (plan : List Command) : ℚ → List ℚ → List Command
  | _, [] => []
  | elapsedS, dtS :: dts =>
    let later := latestBatch plan (elapsedS + dtS) dts
    if later.isEmpty then fired plan elapsedS (elapsedS + dtS) else later

/-- The last command applied is the last listed one of the last step that fires any. -/
theorem getLast?_appliedOver (plan : List Command) (elapsedS : ℚ) (dts : List ℚ) :
    (appliedOver plan elapsedS dts).getLast? = (latestBatch plan elapsedS dts).getLast? := by
  induction dts generalizing elapsedS with
  | nil => rfl
  | cons dt dts ih =>
    rw [appliedOver, List.getLast?_append, ih, latestBatch]
    cases hlater : latestBatch plan (elapsedS + dt) dts with
    | nil => rfl
    | cons c later => exact Option.or_of_isSome (List.getLast?_isSome.mpr (List.cons_ne_nil c later))

/-- Where there is a command there is a latest one. -/
theorem exists_latest {commands : List Command} (h : commands ≠ []) :
    ∃ c, (inKeyOrder Command.atS commands).getLast? = some c := by
  rw [← Option.isSome_iff_exists, List.getLast?_isSome]
  exact fun hnil => h (hnil ▸ inKeyOrder_perm commands).nil_eq.symm

/-- The latest command in time is the latest one of the last step that fires any. -/
theorem getLast?_inKeyOrder_fired (plan : List Command) (elapsedS : ℚ) (h : ∀ dt ∈ dts, 0 < dt) :
    (inKeyOrder Command.atS (fired plan elapsedS (elapsedS + dts.sum))).getLast? =
      (inKeyOrder Command.atS (latestBatch plan elapsedS dts)).getLast? := by
  induction dts generalizing elapsedS with
  | nil =>
    have hnone : fired plan elapsedS (elapsedS + List.sum []) = [] :=
      List.Perm.nil_eq (appliedOver_perm plan elapsedS h) |>.symm
    rw [hnone]
    rfl
  | cons dt dts ih =>
    obtain ⟨hdt, hrest⟩ := List.forall_mem_cons.mp h
    have hsum := sum_nonneg_of_pos hrest
    rw [List.sum_cons, ← add_assoc, inKeyOrder_split (elapsedS + dt), fired_filter_le (by linarith),
      fired_filter_lt (by linarith), List.getLast?_append, ih (elapsedS + dt) hrest, latestBatch]
    cases hlater : latestBatch plan (elapsedS + dt) dts with
    | nil => rfl
    | cons c later =>
      obtain ⟨latest, hlatest⟩ := exists_latest (List.cons_ne_nil c later)
      rw [hlatest, Option.some_or, if_neg (by simp), hlatest]

/-! ### When the steps do not show -/

/-- What a plan is for: every command due has been applied once, and the targets are those its commands
    leave when they are applied in the order of their instants. -/
structure AppliesPlan (spec : AircraftSpec) (dts : List ℚ) (s : AircraftTruth) : Prop where
  once : (appliedOver spec.plan 0 dts).Perm (due spec.plan dts.sum)
  targets : s.targets =
    ((inKeyOrder Command.atS (due spec.plan dts.sum)).foldl applyCommand (initialTruth spec)).targets

/-- No command is meant for the start. And of every kind, in the last step that fires any of the kind, the
    last listed one sets what the latest in time sets. -/
structure KeepsOrder (plan : List Command) (dts : List ℚ) : Prop where
  noneAtStart : ∀ c ∈ plan, c.atS ≠ 0
  lastIsLatest : ∀ kind, (latestBatch (ofKind kind plan) 0 dts).getLast?.map Command.action =
    (inKeyOrder Command.atS (latestBatch (ofKind kind plan) 0 dts)).getLast?.map Command.action

/-- Without a command at the start, what is due is what the steps fire. -/
theorem due_eq_fired (hat : ∀ c ∈ plan, 0 ≤ c.atS) (hstart : ∀ c ∈ plan, c.atS ≠ 0) (totalS : ℚ) :
    due plan totalS = fired plan 0 totalS := by
  refine List.filter_congr fun c hc => ?_
  have hpos : 0 < c.atS := lt_of_le_of_ne (hat c hc) (hstart c hc).symm
  simp [hpos]

theorem or_last_iff (commands : List Command) (held : Option CommandAction) :
    (commands.getLast?.map Command.action).or held =
        ((inKeyOrder Command.atS commands).getLast?.map Command.action).or held ↔
      commands.getLast?.map Command.action =
        (inKeyOrder Command.atS commands).getLast?.map Command.action := by
  rcases eq_or_ne commands [] with rfl | hne
  · exact ⟨fun _ => rfl, fun _ => rfl⟩
  · obtain ⟨last, hlast⟩ := Option.isSome_iff_exists.mp (List.getLast?_isSome.mpr hne)
    obtain ⟨latest, hlatest⟩ := exists_latest hne
    rw [hlast, hlatest]
    exact Iff.rfl

/-- One kind of target is right exactly when the last listed command of the last step is the latest. -/
theorem setting_flown_iff (spec : AircraftSpec) (hdts : ∀ dt ∈ dts, 0 < dt)
    (hdue : due spec.plan dts.sum = fired spec.plan 0 dts.sum) (kind : CommandKind) :
    (flown spec 0 dts (initialTruth spec)).setting kind =
        ((inKeyOrder Command.atS (due spec.plan dts.sum)).foldl applyCommand (initialTruth spec)).setting kind ↔
      (latestBatch (ofKind kind spec.plan) 0 dts).getLast?.map Command.action =
        (inKeyOrder Command.atS (latestBatch (ofKind kind spec.plan) 0 dts)).getLast?.map Command.action := by
  have hsorted := getLast?_inKeyOrder_fired (ofKind kind spec.plan) 0 hdts
  rw [zero_add] at hsorted
  rw [setting_flown, setting_foldl_applyCommand, setting_foldl_applyCommand, ofKind_appliedOver,
    getLast?_appliedOver, ofKind_inKeyOrder, hdue, ofKind_fired, hsorted]
  exact or_last_iff _ _

theorem appliesPlan_flown_iff (spec : AircraftSpec) (hat : ∀ c ∈ spec.plan, 0 ≤ c.atS)
    (hdts : ∀ dt ∈ dts, 0 < dt) :
    AppliesPlan spec dts (flown spec 0 dts (initialTruth spec)) ↔ KeepsOrder spec.plan dts := by
  have hperm := appliedOver_perm spec.plan 0 hdts
  rw [zero_add] at hperm
  constructor
  · intro h
    have hstart : ∀ c ∈ spec.plan, c.atS ≠ 0 := by
      intro c hc hzero
      have hdue : c ∈ due spec.plan dts.sum :=
        List.mem_filter.mpr ⟨hc, by simpa [hzero] using sum_nonneg_of_pos hdts⟩
      have hfired := hperm.mem_iff.mp (h.once.mem_iff.mpr hdue)
      exact (of_decide_eq_true (List.mem_filter.mp hfired).2).1.ne' hzero
    refine ⟨hstart, fun kind => ?_⟩
    exact (setting_flown_iff spec hdts (due_eq_fired hat hstart _) kind).mp (targets_eq_iff.mp h.targets kind)
  · intro h
    have hdue := due_eq_fired hat h.noneAtStart dts.sum
    refine ⟨?_, targets_eq_iff.mpr fun kind => ?_⟩
    · rw [hdue]
      exact hperm
    · exact (setting_flown_iff spec hdts hdue kind).mpr (h.lastIsLatest kind)

theorem latestBatch_sublist (plan : List Command) (elapsedS : ℚ) (dts : List ℚ) :
    (latestBatch plan elapsedS dts).Sublist plan := by
  induction dts generalizing elapsedS with
  | nil => exact List.nil_sublist _
  | cons dt dts ih =>
    rw [latestBatch]
    split_ifs
    · exact List.filter_sublist
    · exact ih _

/-- A plan listed in the order of its instants keeps it under every sequence of steps. -/
theorem keepsOrder_of_pairwise (hstart : ∀ c ∈ plan, c.atS ≠ 0)
    (hsorted : plan.Pairwise fun c c' => c.atS ≤ c'.atS) (dts : List ℚ) : KeepsOrder plan dts := by
  refine ⟨hstart, fun kind => ?_⟩
  have hbatch : (latestBatch (ofKind kind plan) 0 dts).Pairwise fun c c' => c.atS ≤ c'.atS :=
    hsorted.sublist ((latestBatch_sublist ..).trans List.filter_sublist)
  rw [inKeyOrder, hbatch.insertionSort_eq]

/-- A scenario of one aircraft with a plan. -/
def levelScenario (plan : List Command) : Scenario where
  scenarioId := "level"
  seed := 1
  durationS := 600
  aircraft := [levelSpec "a1b2c3" "TEST01" plan]

theorem levelScenario_admitted {plan : List Command} (h : ∀ c ∈ plan, c.Admitted) :
    (levelScenario plan).Admitted where
  scenarioId := (by decide : isScenarioId "level" = true)
  durationS := by norm_num [levelScenario]
  sensor := by constructor <;> norm_num [levelScenario]
  aircraft := by
    intro spec hspec
    rw [List.mem_singleton.mp hspec]
    refine ⟨(by decide : isIcao24 "a1b2c3" = true), (by decide : 1 ≤ "TEST01".length ∧ "TEST01".length ≤ 8),
      ?_, by simp [levelSpec], by simp [levelSpec], h⟩
    constructor <;> norm_num [levelSpec]
  nonempty := List.cons_ne_nil _ _
  addresses := List.nodup_singleton _
  callsigns := List.nodup_singleton _
  entry := by
    intro spec hspec
    rw [List.mem_singleton.mp hspec]
    norm_num [levelSpec, levelScenario]

namespace Simulation

/-- A scenario's aircraft is left with the targets of the commands its steps fired, and it has applied its
    plan exactly when the steps keep the plan's order. -/
theorem plan_applied_iff {γ : Type} (sha256 : ByteArray → List UInt8) (rng : Random γ) {scenario : Scenario}
    (hadmitted : scenario.Admitted) {spec : AircraftSpec} (hspec : spec ∈ scenario.aircraft)
    (startTime : Instant) (hdts : ∀ dt ∈ dts, 0 < dt) :
    ∃ sim s, dts.foldlM advance (init sha256 rng scenario startTime) = .ok sim ∧
      sim.state.get? spec.icao24 = some s ∧
      s.targets = ((appliedOver spec.plan 0 dts).foldl applyCommand (initialTruth spec)).targets ∧
      (AppliesPlan spec dts s ↔ KeepsOrder spec.plan dts) := by
  have hstate : (init sha256 rng scenario startTime).state.get? spec.icao24 = some (initialTruth spec) :=
    get?_collect_of_mem hadmitted.addresses hspec _
  have hown : (init sha256 rng scenario startTime).specs.get? spec.icao24 = some spec :=
    get?_collect_of_mem hadmitted.addresses hspec _
  obtain ⟨sim, hrun, -, hs⟩ := foldlM_advance (init_wellFormed sha256 rng scenario startTime) hdts hstate hown
  have hat : ∀ c ∈ spec.plan, 0 ≤ c.atS := fun c hc => ((hadmitted.aircraft spec hspec).plan c hc).atS
  exact ⟨sim, _, hrun, hs, targets_eq_iff.mpr (setting_flown spec 0 dts _), appliesPlan_flown_iff spec hat hdts⟩

/-- A climb and a turn, in order, flown in two steps. -/
theorem plan_applied_in_order :
    let plan : List Command := [⟨10, .climbTo 12000⟩, ⟨60, .turnTo 90⟩]
    let spec := levelSpec "a1b2c3" "TEST01" plan
    ∃ sim s, [50, 50].foldlM advance (init ByteArray.toList countingRandom (levelScenario plan) 0) = .ok sim ∧
      sim.state.get? "a1b2c3" = some s ∧ AppliesPlan spec [50, 50] s := by
  intro plan spec
  have hadmitted : ∀ c ∈ plan, c.Admitted := by
    intro c hc
    rcases List.mem_pair.mp hc with rfl | rfl <;> constructor <;> norm_num [CommandAction.Admitted]
  have hspec : spec ∈ (levelScenario plan).aircraft := List.mem_singleton.mpr rfl
  have hdts : ∀ dt ∈ ([50, 50] : List ℚ), 0 < dt := by norm_num
  obtain ⟨sim, s, hrun, hs, -, happlied⟩ := plan_applied_iff ByteArray.toList countingRandom
    (levelScenario_admitted hadmitted) hspec 0 hdts
  exact ⟨sim, s, hrun, hs, happlied.mpr (keepsOrder_of_pairwise (by simp [spec, plan, levelSpec])
    (by norm_num [spec, plan, levelSpec]) _)⟩

/-- A code for the start, and two turns listed against their order, flown in one step: the code is never
    set, and the aircraft is left turning where the earlier turn sends it. -/
theorem plan_applied_out_of_order :
    let plan : List Command := [⟨0, .setSquawk "7700"⟩, ⟨20, .turnTo 90⟩, ⟨10, .turnTo 180⟩]
    let spec := levelSpec "a1b2c3" "TEST01" plan
    (levelScenario plan).Admitted ∧
      ∃ sim s, [30].foldlM advance (init ByteArray.toList countingRandom (levelScenario plan) 0) = .ok sim ∧
        sim.state.get? "a1b2c3" = some s ∧ s.squawk = none ∧ s.targetTrackDeg = 180 ∧
        ¬ AppliesPlan spec [30] s := by
  intro plan spec
  have hadmitted : (levelScenario plan).Admitted := by
    refine levelScenario_admitted fun c hc => ?_
    simp only [plan, List.mem_cons, List.not_mem_nil, or_false] at hc
    rcases hc with rfl | rfl | rfl
    · exact ⟨le_refl _, (by decide : isSquawk "7700" = true)⟩
    · constructor <;> norm_num [CommandAction.Admitted]
    · constructor <;> norm_num [CommandAction.Admitted]
  have hspec : spec ∈ (levelScenario plan).aircraft := List.mem_singleton.mpr rfl
  have hdts : ∀ dt ∈ ([30] : List ℚ), 0 < dt := by norm_num
  have hat : ∀ c ∈ plan, 0 ≤ c.atS := fun c hc => ((hadmitted.aircraft _ hspec).plan c hc).atS
  obtain ⟨sim, hrun, -, hs⟩ := foldlM_advance (init_wellFormed ByteArray.toList countingRandom _ 0) hdts
    (get?_collect_of_mem hadmitted.addresses hspec _) (get?_collect_of_mem hadmitted.addresses hspec _)
  have hfired : appliedOver plan 0 [30] = [⟨20, .turnTo 90⟩, ⟨10, .turnTo 180⟩] := by
    norm_num [appliedOver, fired, plan]
  have hsetting : ∀ kind, (flown spec 0 [30] (initialTruth spec)).setting kind =
      ([⟨20, .turnTo 90⟩, ⟨10, .turnTo 180⟩].foldl applyCommand (initialTruth spec)).setting kind := by
    intro kind
    rw [setting_flown, show spec.plan = plan from rfl, hfired]
  have hcode := Option.map_eq_none_iff.mp (hsetting .setSquawk)
  have hturn := (CommandAction.turnTo.inj (Option.some_inj.mp (hsetting .turnTo))).1
  refine ⟨hadmitted, sim, _, hrun, hs, hcode, hturn, fun happlied => ?_⟩
  have horder := (appliesPlan_flown_iff _ hat hdts).mp happlied
  exact horder.noneAtStart ⟨0, .setSquawk "7700"⟩ List.mem_cons_self rfl

end Simulation

end

end Airspace
