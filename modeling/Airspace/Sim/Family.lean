import Airspace.Sim.Generator

/-! What a generated family promises.

    Whatever the draws, an aircraft is drawn within the bounds of the models, so an encounter is rejected for
    one of two reasons: two of its aircraft were given one address, or its index has five digits and the
    callsigns of its pair nine characters. A family is therefore the first encounters of either kind left
    out, and no family has more than ten thousand. -/

namespace Airspace

noncomputable section

/-! ### Texts of numbers -/

section

variable {base width n m k : ℕ}

theorem toList_padded : (padded base width n).toList =
    List.replicate (width - (Nat.toDigits base n).length) '0' ++ Nat.toDigits base n := by
  simp [padded]

theorem length_padded : (padded base width n).length = max width (Nat.toDigits base n).length := by
  rw [← String.length_toList, toList_padded, List.length_append, List.length_replicate]
  omega

/-- A number is as wide as it is asked to be, or as its digits are. -/
theorem length_padded_le_iff (hwidth : width ≤ k) (hk : 0 < k) :
    (padded 10 width n).length ≤ k ↔ n < 10 ^ k := by
  rw [length_padded, max_le_iff, and_iff_right hwidth]
  exact Nat.length_toDigits_le_iff (by decide) hk

theorem padded_inj (h : padded 10 width n = padded 10 width m) : n = m := by
  have hvalue : ∀ j, Nat.ofDigitChars 10 (padded 10 width j).toList 0 = j := by
    intro j
    rw [toList_padded, Nat.ofDigitChars_append, Nat.ofDigitChars_replicate_zero, mul_zero,
      Nat.ofDigitChars_ten_toDigits]
  rw [← hvalue n, h, hvalue m]

/-- The digits of a base up to sixteen. -/
theorem mem_toDigits {c : Char} (h1 : 1 < base) (h16 : base ≤ 16) (hc : c ∈ Nat.toDigits base n) :
    ∃ d < 16, c = Nat.digitChar d := by
  induction n using Nat.strongRecOn with
  | ind n ih =>
    rw [Nat.toDigits_eq_if h1] at hc
    split_ifs at hc with hlt
    · exact ⟨n, by omega, List.mem_singleton.mp hc⟩
    · rcases List.mem_append.mp hc with hc | hc
      · exact ih (n / base) (Nat.div_lt_self (by omega) h1) hc
      · exact ⟨n % base, (Nat.mod_lt n (by omega)).trans_le h16, List.mem_singleton.mp hc⟩

theorem isIcao24_padded (h : n < 2 ^ 24) : isIcao24 (padded 16 6 n) = true := by
  have hlength : (padded 16 6 n).length = 6 := by
    have hdigits := (Nat.length_toDigits_le_iff (b := 16) (k := 6) (by decide) (by decide)).mpr h
    rw [length_padded]
    omega
  have hdigit : ∀ d < 16, (fun c : Char => c.isDigit || ('a' ≤ c && c ≤ 'f')) (Nat.digitChar d) = true := by
    decide
  simp only [isIcao24, hlength, BEq.rfl, Bool.true_and, List.all_eq_true, toList_padded]
  intro c hc
  rcases List.mem_append.mp hc with hc | hc
  · rw [List.eq_of_mem_replicate hc]
    rfl
  · obtain ⟨d, hd, rfl⟩ := mem_toDigits (by decide) le_rfl hc
    exact hdigit d hd

end

namespace FamilyParameters

variable {γ : Type} {params : FamilyParameters}

/-! ### The draws are within the bounds of the models -/

/-- Families whose aircraft fly within the bounds of the models. -/
structure Proper (params : FamilyParameters) : Prop where
  name : params.name.length ≤ 40 ∧ params.name.toList.all fun c => c.isDigit || ('a' ≤ c && c ≤ 'z') || c == '-'
  background : params.backgroundAircraft.1 ≤ params.backgroundAircraft.2 ∧ params.backgroundAircraft.2 < 99999
  speedKt : 0 ≤ params.speedKt.1 ∧ params.speedKt.1 ≤ params.speedKt.2 ∧ params.speedKt.2 ≤ 640
  verticalOffsetFt : 0 ≤ params.verticalOffsetFt.1 ∧ params.verticalOffsetFt.1 ≤ params.verticalOffsetFt.2
  levels : ∀ level ∈ params.flightLevels, level * 100 + params.verticalOffsetFt.2 ≤ 60000
  durationS : 0 < params.durationS

theorem nominal_proper : nominal.Proper where
  name := by decide
  background := by decide
  speedKt := by norm_num [nominal]
  verticalOffsetFt := by norm_num [nominal]
  levels := by norm_num [nominal]
  durationS := by norm_num [nominal]

theorem training_proper : training.Proper where
  name := by decide
  background := by decide
  speedKt := by norm_num [training]
  verticalOffsetFt := by norm_num [training]
  levels := by norm_num [training]
  durationS := by norm_num [training]

theorem shifted_proper : shifted.Proper where
  name := by decide
  background := by decide
  speedKt := by norm_num [shifted]
  verticalOffsetFt := by norm_num [shifted]
  levels := by norm_num [shifted]
  durationS := by norm_num [shifted]

/-- The latest a manoeuvre is listed for. -/
def lastManoeuvreS (params : FamilyParameters) : ℚ :=
  max 240 (60 + 260 * (params.manoeuvresPerAircraft - 1 : ℕ))

/-- A plan as it is drawn. -/
structure DrawnPlan (params : FamilyParameters) (plan : List Command) : Prop where
  admitted : ∀ c ∈ plan, c.Admitted
  timed : ∀ c ∈ plan, 60 ≤ c.atS ∧ c.atS ≤ params.lastManoeuvreS
  length : plan.length ≤ max 1 params.manoeuvresPerAircraft

/-- An aircraft as it is drawn. -/
structure DrawnSpec (params : FamilyParameters) (spec : AircraftSpec) : Prop where
  icao24 : isIcao24 spec.icao24
  initial : spec.initial.Admitted
  squawk : spec.squawk = none
  entryTimeS : spec.entryTimeS = 0
  plan : DrawnPlan params spec.plan

variable (rng : Source γ)

theorem address_spec : Always (address rng) fun icao24 => isIcao24 icao24 :=
  (rng.getrandbits_lt 24).bind fun _ hn => .pure (isIcao24_padded hn)

theorem oneManoeuvre_spec {atS : ℚ} (hat : 0 ≤ atS) (trackDeg levelFt : ℝ) {speedKt : ℝ} (hspeed : speedKt ≤ 640) :
    Always (oneManoeuvre rng atS trackDeg levelFt speedKt) fun c => c.Admitted ∧ c.atS = atS := by
  refine rng.random_mem.bind fun choice _ => .ite (fun _ => ?_) fun _ => .ite (fun _ => ?_) fun _ => ?_
  · refine (rng.uniform_mem (by norm_num)).bind fun offset _ => ?_
    refine (rng.uniform_mem (by norm_num)).bind fun rate ⟨hlow, hhigh⟩ => .pure ⟨⟨hat, ?_⟩, rfl⟩
    have hrate : (1 : ℝ) ≤ rate ∧ (rate : ℝ) ≤ 3 := ⟨by exact_mod_cast hlow, by exact_mod_cast hhigh⟩
    exact ⟨normalizeBearing_mem _, by linarith, by linarith⟩
  · refine (rng.choice_mem _ _).bind fun step _ => ?_
    refine (rng.uniform_mem (by norm_num)).bind fun rate ⟨hlow, hhigh⟩ => .pure ⟨⟨hat, ?_⟩, rfl⟩
    have hrate : (800 : ℝ) ≤ rate ∧ (rate : ℝ) ≤ 2200 := ⟨by exact_mod_cast hlow, by exact_mod_cast hhigh⟩
    have hlevel : max 1000 (min 45000 (levelFt + step)) ≤ 45000 := max_le (by norm_num) (min_le_left _ _)
    exact ⟨⟨le_max_of_le_left (by norm_num), by linarith⟩, by linarith, by linarith⟩
  · refine (rng.uniform_mem (by norm_num)).bind fun offset ⟨_, hoffset⟩ => ?_
    refine (rng.uniform_mem (by norm_num)).bind fun acceleration ⟨hlow, hhigh⟩ => .pure ⟨⟨hat, ?_⟩, rfl⟩
    have hoffset' : (offset : ℝ) ≤ 60 := by exact_mod_cast hoffset
    have hacceleration : (1 / 2 : ℝ) ≤ acceleration ∧ (acceleration : ℝ) ≤ 2 := by
      constructor
      · have h : ((0.5 : ℚ) : ℝ) ≤ acceleration := by exact_mod_cast hlow
        norm_num at h
        linarith
      · exact_mod_cast hhigh
    exact ⟨⟨le_max_of_le_left (by norm_num), max_le (by norm_num) (by linarith)⟩, by linarith, by linarith⟩

/-- The manoeuvres after the first are listed for a minute and so many spreads. -/
theorem laterManoeuvres_spec (levelFt : ℝ) {speedKt : ℝ} (hspeed : speedKt ≤ 640) (last n index : ℕ)
    (heading : ℝ) (hlast : index + n ≤ last + 1) :
    Always (laterManoeuvres rng levelFt speedKt n index heading) fun commands =>
      commands.length = n ∧ ∀ c ∈ commands, c.Admitted ∧ 60 ≤ c.atS ∧ c.atS ≤ 60 + 260 * last := by
  induction n generalizing index heading with
  | zero => exact .pure ⟨rfl, List.forall_mem_nil _⟩
  | succ n ih =>
    refine (rng.uniform_mem (by norm_num)).bind fun spread ⟨hlow, hhigh⟩ => ?_
    have hindex : (index : ℚ) ≤ last := by exact_mod_cast (by omega : index ≤ last)
    have hnonneg : 0 ≤ (index : ℚ) * spread := mul_nonneg (Nat.cast_nonneg _) (by linarith)
    have hspread : (index : ℚ) * spread ≤ last * 260 :=
      mul_le_mul hindex hhigh (by linarith) (Nat.cast_nonneg _)
    refine (oneManoeuvre_spec rng (by linarith) heading levelFt hspeed).bind fun c ⟨hc, hat⟩ => ?_
    refine (ih (index + 1) (headingAfter heading c) (by omega)).bind fun rest ⟨hlength, hrest⟩ => .pure ?_
    refine ⟨by rw [List.length_cons, hlength], List.forall_mem_cons.mpr ⟨⟨hc, ?_, ?_⟩, hrest⟩⟩ <;>
    · rw [hat]
      linarith

theorem maybeManoeuvre_spec (trackDeg levelFt : ℝ) {speedKt : ℝ} (hspeed : speedKt ≤ 640)
    (probability : Option ℚ) :
    Always (maybeManoeuvre rng params trackDeg levelFt speedKt probability) (DrawnPlan params) := by
  refine rng.random_mem.bind fun luck _ => .ite (fun _ => .pure ?_) fun _ => ?_
  · exact ⟨List.forall_mem_nil _, List.forall_mem_nil _, Nat.zero_le _⟩
  · refine (rng.uniform_mem (by norm_num)).bind fun atS ⟨hlow, hhigh⟩ => ?_
    refine (oneManoeuvre_spec rng (by linarith) trackDeg levelFt hspeed).bind fun first ⟨hfirst, hat⟩ => ?_
    refine (laterManoeuvres_spec rng levelFt hspeed (params.manoeuvresPerAircraft - 1)
      (params.manoeuvresPerAircraft - 1) 1 trackDeg (by omega)).bind fun later ⟨hlength, hlater⟩ =>
        .pure ⟨?_, ?_, ?_⟩
    · exact List.forall_mem_cons.mpr ⟨hfirst, fun c hc => (hlater c hc).1⟩
    · refine List.forall_mem_cons.mpr ⟨?_, fun c hc => ⟨(hlater c hc).2.1, ?_⟩⟩
      · rw [hat]
        exact ⟨hlow, le_max_of_le_left hhigh⟩
      · exact le_max_of_le_right (hlater c hc).2.2
    · rw [List.length_cons, hlength]
      omega

/-- A flight level with an offset is an altitude of the models. -/
theorem Proper.altitude (h : params.Proper) {level : ℕ} (hlevel : level ∈ params.flightLevels) {offset : ℚ}
    (h0 : 0 ≤ offset) (hoffset : offset ≤ params.verticalOffsetFt.2) :
    0 ≤ (level * 100 + offset : ℝ) ∧ (level * 100 + offset : ℝ) ≤ 60000 := by
  have hbound : (level * 100 + offset : ℚ) ≤ 60000 := by linarith [h.levels level hlevel]
  exact ⟨by positivity, by exact_mod_cast hbound⟩

theorem Proper.speed (h : params.Proper) {speed : ℚ}
    (hspeed : params.speedKt.1 ≤ speed ∧ speed ≤ params.speedKt.2) :
    0 ≤ (speed : ℝ) ∧ (speed : ℝ) ≤ 640 := by
  obtain ⟨hlow, -, hhigh⟩ := h.speedKt
  exact ⟨by exact_mod_cast hlow.trans hspeed.1, by exact_mod_cast hspeed.2.trans hhigh⟩

/-- Drawn where it is, at an altitude, a speed and a track of the models. -/
theorem initial_admitted {lat lon bearing distance altitude speed track : ℝ}
    (haltitude : 0 ≤ altitude ∧ altitude ≤ 60000) (hspeed : 0 ≤ speed ∧ speed ≤ 640) :
    InitialState.Admitted {
      lat := (destinationPoint lat lon bearing distance).1
      lon := (destinationPoint lat lon bearing distance).2
      altitudeFt := altitude
      groundSpeedKt := speed
      trackDeg := normalizeBearing track } := by
  obtain ⟨hlat, hlon⟩ := destinationPoint_mem lat lon bearing distance
  exact ⟨hlat, ⟨hlon.1, hlon.2.le⟩, haltitude, ⟨hspeed.1, by linarith [hspeed.2]⟩, normalizeBearing_mem _,
    by norm_num⟩

theorem backgroundOne_spec (h : params.Proper) (number : ℕ) :
    Always (backgroundOne rng params number) fun spec =>
      (DrawnSpec params spec ∧ (params.backgroundManoeuvreProbability ≤ 0 → spec.plan = [])) ∧
        spec.callsign = "BKG" ++ padded 10 3 number := by
  refine (rng.uniform_mem (by norm_num)).bind fun bearing _ => ?_
  refine (rng.uniform_mem (by norm_num)).bind fun distance _ => ?_
  refine (address_spec rng).bind fun icao24 hicao24 => ?_
  refine (rng.choice_mem _ _).bind fun level hlevel => ?_
  refine (rng.uniform_mem h.speedKt.2.1).bind fun speed hspeed => ?_
  refine (rng.uniform_mem (by norm_num)).bind fun turn _ => ?_
  have haltitude := h.altitude hlevel le_rfl (h.verticalOffsetFt.1.trans h.verticalOffsetFt.2)
  rw [Rat.cast_zero, add_zero] at haltitude
  have hplan (track level speed : ℝ) (hspeed : speed ≤ 640) :
      Always (backgroundPlan rng params track level speed) fun plan => DrawnPlan params plan ∧
        (params.backgroundManoeuvreProbability ≤ 0 → plan = []) := by
    refine .ite (fun hpos => ?_) fun _ => .pure ?_
    · exact (maybeManoeuvre_spec rng _ _ hspeed _).mono fun plan hplan =>
        ⟨hplan, fun hnone => absurd hpos (not_lt.mpr hnone)⟩
    · exact ⟨⟨List.forall_mem_nil _, List.forall_mem_nil _, Nat.zero_le _⟩, fun _ => rfl⟩
  refine (hplan _ _ _ (h.speed hspeed).2).bind fun plan ⟨hdrawn, hnone⟩ =>
    .pure ⟨⟨⟨hicao24, ?_, rfl, rfl, hdrawn⟩, hnone⟩, rfl⟩
  exact initial_admitted haltitude (h.speed hspeed)

/-- The callsigns of an encounter with so many aircraft in the background. -/
def stagedCallsigns (index count : ℕ) : List String :=
  ("ENC" ++ padded 10 3 index ++ "A") :: ("ENC" ++ padded 10 3 index ++ "B") ::
    (List.range count).map fun i => "BKG" ++ padded 10 3 (2 + i)

theorem background_spec (h : params.Proper) : Always (background rng params 2) fun others =>
    (params.backgroundAircraft.1 ≤ others.length ∧ others.length ≤ params.backgroundAircraft.2) ∧
      (others.map AircraftSpec.callsign = (List.range others.length).map fun i => "BKG" ++ padded 10 3 (2 + i)) ∧
      ∀ spec ∈ others, DrawnSpec params spec ∧ (params.backgroundManoeuvreProbability ≤ 0 → spec.plan = []) := by
  refine (rng.randint_mem h.background.1).bind fun count hcount => ?_
  refine (Always.mapM fun i _ => backgroundOne_spec rng h (2 + i)).mono fun others ⟨hdrawn, hcallsigns⟩ => ?_
  have hlength : others.length = count := by simpa using congrArg List.length hcallsigns
  rw [hlength]
  exact ⟨hcount, hcallsigns, hdrawn⟩

/-- An encounter as it is drawn. -/
structure Staged (params : FamilyParameters) (index : ℕ) (seed : ℤ) (doc : ScenarioDocument) : Prop where
  scenarioId : doc.scenario.scenarioId = "gen-" ++ params.name ++ "-enc-" ++ padded 10 4 index
  seed : doc.scenario.seed = seed * 1000 + index
  durationS : doc.scenario.durationS = params.durationS
  sensor : doc.scenario.sensor = {}
  reference : doc.reference = (centreLat, centreLon)
  reportIntervalS : doc.reportIntervalS = 1
  count : params.backgroundAircraft.1 + 2 ≤ doc.scenario.aircraft.length ∧
    doc.scenario.aircraft.length ≤ params.backgroundAircraft.2 + 2
  callsigns : doc.callsigns = stagedCallsigns index (doc.scenario.aircraft.length - 2)
  drawn : ∀ spec ∈ doc.scenario.aircraft, DrawnSpec params spec
  background : params.backgroundManoeuvreProbability ≤ 0 → ∀ spec ∈ doc.scenario.aircraft.drop 2, spec.plan = []

theorem drawEncounter_spec (h : params.Proper) (index : ℕ) (seed : ℤ) :
    Always (drawEncounter rng params index seed) (Staged params index seed) := by
  refine (rng.uniform_mem h.speedKt.2.1).bind fun speedA hspeedA => ?_
  refine (rng.uniform_mem h.speedKt.2.1).bind fun speedB hspeedB => ?_
  refine (rng.choice_mem _ _).bind fun level hlevel => ?_
  refine (rng.uniform_mem h.verticalOffsetFt.2).bind fun offset hoffset => ?_
  have hno : ∀ a b, Always (rng.uniform a b) fun _ => True := fun _ _ _ => trivial
  refine (hno _ _).bind fun missNm _ => (hno _ _).bind fun crossing _ => (hno _ _).bind fun timeToMeetS _ => ?_
  refine (hno _ _).bind fun trackA _ => (address_spec rng).bind fun icaoA hicaoA => ?_
  refine (maybeManoeuvre_spec rng _ _ (h.speed hspeedA).2 _).bind fun planA hplanA => ?_
  refine (address_spec rng).bind fun icaoB hicaoB => ?_
  refine (maybeManoeuvre_spec rng _ _ (h.speed hspeedB).2 _).bind fun planB hplanB => ?_
  refine (background_spec rng h).bind fun others ⟨hcount, hcallsigns, hdrawn⟩ => .pure ?_
  have hlow := h.altitude hlevel le_rfl (h.verticalOffsetFt.1.trans h.verticalOffsetFt.2)
  rw [Rat.cast_zero, add_zero] at hlow
  have hhigh := h.altitude hlevel (h.verticalOffsetFt.1.trans hoffset.1) hoffset.2
  constructor
  case count => exact ⟨Nat.add_le_add_right hcount.1 2, Nat.add_le_add_right hcount.2 2⟩
  case callsigns => exact congrArg (List.cons _ <| List.cons _ ·) hcallsigns
  case drawn =>
    refine List.forall_mem_cons.mpr ⟨?_, List.forall_mem_cons.mpr ⟨?_, fun spec hspec => (hdrawn spec hspec).1⟩⟩
    · exact ⟨hicaoA, initial_admitted hlow (h.speed hspeedA), rfl, rfl, hplanA⟩
    · exact ⟨hicaoB, initial_admitted hhigh (h.speed hspeedB), rfl, rfl, hplanB⟩
  case background => exact fun hnone spec hspec => (hdrawn spec hspec).2 hnone
  all_goals rfl

/-! ### What the validators make of a drawn encounter -/

theorem isScenarioId_staged (h : params.Proper) {index : ℕ} (hindex : index < 10000) :
    isScenarioId ("gen-" ++ params.name ++ "-enc-" ++ padded 10 4 index) = true := by
  have hdigits : (padded 10 4 index).length ≤ 4 := (length_padded_le_iff le_rfl (by decide)).mpr hindex
  have hchars : (padded 10 4 index).toList.all (fun c => c.isDigit || ('a' ≤ c && c ≤ 'z') || c == '-') = true := by
    rw [List.all_eq_true]
    intro c hc
    rw [toList_padded] at hc
    have hdigit : c.isDigit = true := by
      rcases List.mem_append.mp hc with hc | hc
      · rw [List.eq_of_mem_replicate hc]
        rfl
      · exact Nat.isDigit_of_mem_toDigits (by decide) (by decide) hc
    simp [hdigit]
  obtain ⟨hlength, hname⟩ := h.name
  have hwhole : ("gen-" ++ params.name ++ "-enc-" ++ padded 10 4 index).length ≤ 64 := by
    have hgen : "gen-".length = 4 := rfl
    have henc : "-enc-".length = 5 := rfl
    simp only [String.length_append]
    omega
  have htext : ("gen-" ++ params.name ++ "-enc-" ++ padded 10 4 index).toList =
      ['g', 'e', 'n', '-'] ++ params.name.toList ++ ['-', 'e', 'n', 'c', '-'] ++ (padded 10 4 index).toList := by
    simp
  simp only [isScenarioId, hwhole, decide_true, Bool.true_and, htext, List.all_append, hname, hchars]
  rfl

theorem nodup_stagedCallsigns (index count : ℕ) : (stagedCallsigns index count).Nodup := by
  have hbackground : ((List.range count).map fun i => "BKG" ++ padded 10 3 (2 + i)).Nodup := by
    refine List.nodup_range.map fun i j h => ?_
    have hinj := padded_inj (String.append_right_inj _ |>.mp h)
    omega
  have hother (tail : String) : "ENC" ++ padded 10 3 index ++ tail ∉
      (List.range count).map fun i => "BKG" ++ padded 10 3 (2 + i) := by
    intro hmem
    obtain ⟨i, -, heq⟩ := List.mem_map.mp hmem
    have hfirst := congrArg (fun s => s.toList.head?) heq
    simp at hfirst
  refine List.nodup_cons.mpr ⟨fun hmem => ?_, List.nodup_cons.mpr ⟨hother "B", hbackground⟩⟩
  rcases List.mem_cons.mp hmem with heq | hmem
  · exact absurd ((String.append_right_inj _).mp heq) (by decide)
  · exact hother "A" hmem

/-- A drawn encounter is admitted unless its index has five digits or two of its aircraft were given one
    address. -/
theorem Staged.admitted_iff {index : ℕ} {seed : ℤ} {doc : ScenarioDocument} (hproper : params.Proper)
    (h : Staged params index seed doc) : doc.Admitted ↔ index < 10000 ∧ doc.scenario.addresses.Nodup := by
  have henc : "ENC".length = 3 := rfl
  have hbkg : "BKG".length = 3 := rfl
  have hpair (side : String) (hside : side.length = 1) : 1 ≤ ("ENC" ++ padded 10 3 index ++ side).length ∧
      (("ENC" ++ padded 10 3 index ++ side).length ≤ 8 ↔ index < 10000) := by
    have hwidth : (padded 10 3 index).length ≤ 4 ↔ index < 10000 := length_padded_le_iff (by decide) (by decide)
    rw [← hwidth]
    simp only [String.length_append]
    omega
  constructor
  · intro hadmitted
    refine ⟨(hpair "A" rfl).2.mp ?_, hadmitted.scenario.addresses⟩
    have hmem : "ENC" ++ padded 10 3 index ++ "A" ∈ doc.callsigns := h.callsigns ▸ List.mem_cons_self
    obtain ⟨spec, hspec, hcallsign⟩ := List.mem_map.mp hmem
    exact hcallsign ▸ (hadmitted.scenario.aircraft spec hspec).callsign.2
  · rintro ⟨hindex, haddresses⟩
    have hcallsign : ∀ callsign ∈ doc.callsigns, 1 ≤ callsign.length ∧ callsign.length ≤ 8 := by
      rw [h.callsigns]
      refine List.forall_mem_cons.mpr ⟨(hpair "A" rfl).imp_right fun hiff => hiff.mpr hindex,
        List.forall_mem_cons.mpr ⟨(hpair "B" rfl).imp_right fun hiff => hiff.mpr hindex, fun callsign hmem => ?_⟩⟩
      obtain ⟨i, hi, rfl⟩ := List.mem_map.mp hmem
      have hcount := h.count.2
      have hmost := hproper.background.2
      have hwidth : (padded 10 3 (2 + i)).length ≤ 5 := by
        refine (length_padded_le_iff (by decide) (by decide)).mpr ?_
        rw [List.mem_range] at hi
        omega
      rw [String.length_append]
      omega
    have hcallsigns : doc.callsigns.Nodup := h.callsigns ▸ nodup_stagedCallsigns _ _
    refine ⟨⟨?_, ?_, ?_, fun spec hspec => ?_, ?_, haddresses, ?_, fun spec hspec => ?_⟩, ?_, ?_, ?_⟩
    · rw [h.scenarioId]
      exact isScenarioId_staged hproper hindex
    · rw [h.durationS]
      exact hproper.durationS
    · rw [h.sensor]
      constructor <;> norm_num
    · have hdrawn := h.drawn spec hspec
      exact {
        icao24 := hdrawn.icao24
        callsign := hcallsign _ (List.mem_map_of_mem hspec)
        initial := hdrawn.initial
        squawk := by simp [hdrawn.squawk]
        entryTimeS := hdrawn.entryTimeS.ge
        plan := hdrawn.plan.admitted }
    · intro hnone
      have hcount := h.count.1
      rw [hnone] at hcount
      exact absurd hcount (by simp)
    · exact hcallsigns
    · rw [(h.drawn spec hspec).entryTimeS, h.durationS]
      exact hproper.durationS
    · rw [h.reference]
      norm_num [centreLat]
    · rw [h.reference]
      norm_num [centreLon]
    · rw [h.reportIntervalS]
      norm_num

/-! ### The loop -/

/-- The encounters of the first so many indices that are not rejected. -/
def accepted (rng : Source γ) (params : FamilyParameters) (seed : ℤ) (k : ℕ) : List ScenarioDocument :=
  (List.range k).filterMap fun index => generateEncounter rng params index seed

/-- Of the first so many indices those with up to four digits whose aircraft have addresses of their own. -/
def usable (rng : Source γ) (params : FamilyParameters) (seed : ℤ) (k : ℕ) : List ℕ :=
  (List.range k).filter fun index => index < 10000 ∧ (drawn rng params seed index).scenario.addresses.Nodup

variable {seed : ℤ} {count fuel m n : ℕ}

theorem accepted_succ (rng : Source γ) (params : FamilyParameters) (seed : ℤ) (k : ℕ) :
    accepted rng params seed (k + 1) =
      accepted rng params seed k ++ (generateEncounter rng params k seed).toList := by
  rw [accepted, accepted, List.range_succ, List.filterMap_append]
  cases h : generateEncounter rng params k seed <;> simp [h]

theorem accepted_isPrefix (rng : Source γ) (params : FamilyParameters) (seed : ℤ) (h : m ≤ n) :
    accepted rng params seed m <+: accepted rng params seed n := by
  obtain ⟨k, rfl⟩ := Nat.exists_eq_add_of_le h
  rw [accepted, accepted, List.range_add, List.filterMap_append]
  exact List.prefix_append _ _

/-- Where the loop ends: with enough scenarios, or with no attempt left. -/
theorem exists_end (rng : Source γ) (params : FamilyParameters) (seed : ℤ) (count : ℕ) : ∃ n ≤ count * 10,
    (∀ k < n, (accepted rng params seed k).length < count ∧ k < count * 10) ∧
      (accepted rng params seed n = (accepted rng params seed (count * 10)).take count ∧
          (accepted rng params seed n).length = count ∨
        n = count * 10 ∧ (accepted rng params seed n).length < count) := by
  have hends : ∃ k, ¬ ((accepted rng params seed k).length < count ∧ k < count * 10) :=
    ⟨count * 10, fun h => lt_irrefl _ h.2⟩
  classical
  have hspec := Nat.find_spec hends
  have hbefore : ∀ k < Nat.find hends, (accepted rng params seed k).length < count ∧ k < count * 10 :=
    fun k hk => not_not.mp (Nat.find_min hends hk)
  generalize Nat.find hends = n at hspec hbefore
  have hn : n ≤ count * 10 := by
    by_contra hlt
    exact lt_irrefl _ (hbefore (count * 10) (not_le.mp hlt)).2
  refine ⟨n, hn, hbefore, ?_⟩
  -- One more attempt adds one scenario at most, so there are never too many.
  have hmost : (accepted rng params seed n).length ≤ count := by
    cases n with
    | zero => exact Nat.zero_le count
    | succ k =>
      have hlast := (hbefore k (Nat.lt_succ_self k)).1
      have hone : (generateEncounter rng params k seed).toList.length ≤ 1 := Option.length_toList_le
      rw [accepted_succ, List.length_append]
      omega
  rcases hmost.lt_or_eq with hlt | heq
  · exact .inr ⟨by omega, hlt⟩
  · have htake := List.prefix_iff_eq_take.mp (accepted_isPrefix rng params seed hn)
    exact .inl ⟨heq ▸ htake, heq⟩

/-- The loop after so many attempts. -/
structure Attempted (rng : Source γ) (params : FamilyParameters) (seed : ℤ) (k : ℕ) (f : Family) : Prop where
  scenarios : f.scenarios = accepted rng params seed k
  index : f.index = k
  attempts : f.attempts = k

/-- A family is the first encounters that are not rejected, if there are enough of them in time. -/
theorem generateFamily_eq (seed : ℤ) (hfuel : count * 10 ≤ fuel) :
    generateFamily rng params count seed fuel = some (
      if (accepted rng params seed (count * 10)).length < count then
        .error ("only generated " ++ toString (accepted rng params seed (count * 10)).length ++ " of " ++
          toString count ++ " scenarios")
      else .ok ((accepted rng params seed (count * 10)).take count)) := by
  obtain ⟨n, hn, hbefore, hend⟩ := exists_end rng params seed count
  have hstart : Attempted rng params seed 0 {} := ⟨rfl, rfl, rfl⟩
  have hstep : ∀ k f, Attempted rng params seed k f →
      ∃ f', attempt rng params seed f = .ok f' ∧ Attempted rng params seed (k + 1) f' := by
    rintro k f ⟨hscenarios, hindex, hattempts⟩
    refine ⟨_, rfl, ?_, congrArg (· + 1) hindex, congrArg (· + 1) hattempts⟩
    rw [accepted_succ, ← hscenarios, ← hindex]
  have hgoing : ∀ k < n, ∀ f, Attempted rng params seed k f → f.done count = false := by
    rintro k hk f ⟨hscenarios, -, hattempts⟩
    simp [Family.done, hscenarios, hattempts, hbefore k hk]
  have hdone : ∀ f, Attempted rng params seed n f → f.done count = true := by
    rintro f ⟨hscenarios, -, hattempts⟩
    rcases hend with ⟨-, henough⟩ | ⟨hlast, -⟩
    · simp [Family.done, hscenarios, henough]
    · simp [Family.done, hattempts, hlast]
  obtain ⟨f, -, ⟨hscenarios, -⟩, hloop⟩ := whileNot_of_invariant hstart hstep hgoing hdone
  rw [generateFamily, hloop fuel (hn.trans hfuel), Option.map_some]
  simp only [hscenarios]
  rcases hend with ⟨htake, henough⟩ | ⟨hlast, hfew⟩
  · have hall : count ≤ (accepted rng params seed (count * 10)).length := by
      rw [htake, List.length_take] at henough
      omega
    rw [if_neg (not_lt.mpr henough.ge), if_neg (not_lt.mpr hall), htake]
  · rw [← hlast, if_pos hfew, if_pos hfew]

/-! ### What a family is -/

theorem staged_drawn (h : params.Proper) (seed : ℤ) (index : ℕ) :
    Staged params index seed (drawn rng params seed index) := drawEncounter_spec rng h index seed _

theorem generateEncounter_eq (h : params.Proper) (seed : ℤ) (index : ℕ) :
    generateEncounter rng params index seed =
      if index < 10000 ∧ (drawn rng params seed index).scenario.addresses.Nodup then
        some (drawn rng params seed index)
      else none := by
  have hiff := (staged_drawn rng h seed index).admitted_iff h
  rw [generateEncounter]
  split_ifs <;> simp_all

theorem accepted_eq (h : params.Proper) (seed : ℤ) (k : ℕ) :
    accepted rng params seed k = (usable rng params seed k).map (drawn rng params seed) := by
  rw [accepted, usable, ← List.filterMap_eq_map, List.filterMap_filter]
  refine List.filterMap_congr fun index _ => ?_
  rw [generateEncounter_eq rng h]
  simp

theorem length_usable_le (seed : ℤ) (k : ℕ) : (usable rng params seed k).length ≤ 10000 := by
  have hsub : usable rng params seed k ⊆ List.range 10000 := fun index hindex =>
    List.mem_range.mpr (of_decide_eq_true (List.mem_filter.mp hindex).2).1
  have hle := ((List.nodup_range.filter _).subperm hsub).length_le
  rwa [List.length_range] at hle

/-- The loop in terms of the usable indices. -/
theorem generateFamily_usable (h : params.Proper) (seed : ℤ) (hfuel : count * 10 ≤ fuel) :
    generateFamily rng params count seed fuel = some (
      if (usable rng params seed (count * 10)).length < count then
        .error ("only generated " ++ toString (usable rng params seed (count * 10)).length ++ " of " ++
          toString count ++ " scenarios")
      else .ok (((usable rng params seed (count * 10)).take count).map (drawn rng params seed))) := by
  rw [generateFamily_eq rng seed hfuel, accepted_eq rng h, List.length_map, ← List.map_take]

/-- A family is the encounters of the first indices, of four digits at most, whose aircraft were all given
    addresses of their own. If there are too few of them among ten times as many indices there is no family,
    so there is none of more than ten thousand scenarios. -/
theorem family_is_the_first_usable (rng : Source γ) (params : FamilyParameters) (h : params.Proper)
    (count : ℕ) (seed : ℤ) (fuel : ℕ) (hfuel : count * 10 ≤ fuel) :
    generateFamily rng params count seed fuel = some (
      if (usable rng params seed (count * 10)).length < count then
        .error ("only generated " ++ toString (usable rng params seed (count * 10)).length ++ " of " ++
          toString count ++ " scenarios")
      else .ok (((usable rng params seed (count * 10)).take count).map (drawn rng params seed))) ∧
    (10000 < count → ∃ message, generateFamily rng params count seed fuel = some (.error message)) := by
  have heq := generateFamily_usable rng h seed hfuel
  refine ⟨heq, fun hmany => ?_⟩
  rw [if_pos ((length_usable_le rng seed (count * 10)).trans_lt hmany)] at heq
  exact ⟨_, heq⟩

/-- A source whose numbers are in the middle of their range. -/
def middling : Source ℕ where
  seeded _ := 0
  random drawn := (1 / 2, drawn + 1)
  randbelow n drawn := (n / 2, drawn + 1)
  getrandbits k drawn := (drawn % 2 ^ k, drawn + 1)
  random_mem _ := by
    change (0 : ℚ) ≤ 1 / 2 ∧ (1 / 2 : ℚ) < 1
    norm_num
  randbelow_lt n h _ := Nat.div_lt_self h (by decide)
  getrandbits_lt _ _ := Nat.mod_lt _ (by positivity)

theorem family_is_the_first_usable_nominal :
    generateFamily middling nominal 5 7 50 = some (
      if (usable middling nominal 7 50).length < 5 then
        .error ("only generated " ++ toString (usable middling nominal 7 50).length ++ " of " ++
          toString 5 ++ " scenarios")
      else .ok (((usable middling nominal 7 50).take 5).map (drawn middling nominal 7))) ∧
    (10000 < 5 → ∃ message, generateFamily middling nominal 5 7 50 = some (.error message)) :=
  family_is_the_first_usable middling nominal nominal_proper 5 7 50 le_rfl

/-- A family that is there is the first so many accepted encounters, and there are so many. -/
theorem eq_take_of_generateFamily {family : List ScenarioDocument} (h : params.Proper) (hfuel : count * 10 ≤ fuel)
    (hfamily : generateFamily rng params count seed fuel = some (.ok family)) :
    count ≤ (usable rng params seed (count * 10)).length ∧
      family = ((usable rng params seed (count * 10)).take count).map (drawn rng params seed) := by
  have heq := (generateFamily_usable rng h seed hfuel).symm.trans hfamily
  split_ifs at heq with hfew
  · exact absurd (Option.some_inj.mp heq) nofun
  · exact ⟨not_lt.mp hfew, (Except.ok.inj (Option.some_inj.mp heq)).symm⟩

/-- Steps that cover the run fire every manoeuvre a drawn aircraft lists, each once. -/
theorem DrawnPlan.flown {plan : List Command} (h : DrawnPlan params plan)
    (hlast : params.lastManoeuvreS ≤ params.durationS) {dts : List ℚ} (hdts : ∀ dt ∈ dts, 0 < dt)
    (hrun : params.durationS ≤ dts.sum) : (appliedOver plan 0 dts).Perm plan := by
  have hall : fired plan 0 (0 + dts.sum) = plan := by
    refine List.filter_eq_self.mpr fun c hc => ?_
    obtain ⟨hfirst, hend⟩ := h.timed c hc
    simp only [decide_eq_true_eq]
    constructor <;> linarith
  have hperm := appliedOver_perm plan 0 hdts
  rwa [hall] at hperm

/-- What a family promises. It has as many scenarios as were asked for; a larger family of the seed begins
    with it; its scenarios are told apart by their ids and admitted; steps that cover a run fire every
    manoeuvre of every plan, each once; and a family that leaves its background alone does. -/
theorem family_keeps_its_promises (rng : Source γ) (params : FamilyParameters) (h : params.Proper)
    (hlast : params.lastManoeuvreS ≤ params.durationS) (seed : ℤ) (m n fuel : ℕ) (hmn : m ≤ n)
    (hfuel : n * 10 ≤ fuel) (family larger : List ScenarioDocument)
    (hfamily : generateFamily rng params m seed fuel = some (.ok family))
    (hlarger : generateFamily rng params n seed fuel = some (.ok larger)) :
    family.length = m ∧ family <+: larger ∧ (larger.map fun doc => doc.scenario.scenarioId).Nodup ∧
      ∀ doc ∈ larger, doc.Admitted ∧
        (∀ spec ∈ doc.scenario.aircraft, ∀ dts : List ℚ, (∀ dt ∈ dts, 0 < dt) → doc.scenario.durationS ≤ dts.sum →
          (appliedOver spec.plan 0 dts).Perm spec.plan) ∧
        (params.backgroundManoeuvreProbability ≤ 0 → ∀ spec ∈ doc.scenario.aircraft.drop 2, spec.plan = []) := by
  obtain ⟨henough, rfl⟩ := eq_take_of_generateFamily rng h (by omega) hfamily
  obtain ⟨-, rfl⟩ := eq_take_of_generateFamily rng h hfuel hlarger
  have hmore : usable rng params seed (m * 10) <+: usable rng params seed (n * 10) := by
    obtain ⟨k, hk⟩ := Nat.exists_eq_add_of_le (Nat.mul_le_mul_right 10 hmn)
    rw [usable, usable, hk, List.range_add, List.filter_append]
    exact List.prefix_append _ _
  have hids : (larger : List ℕ) → larger.Nodup → (larger.map fun index =>
      (drawn rng params seed index).scenario.scenarioId).Nodup := by
    intro larger hnodup
    refine hnodup.map fun i j hij => ?_
    simp only [(staged_drawn rng h seed _).scenarioId] at hij
    exact padded_inj ((String.append_right_inj _).mp hij)
  refine ⟨?_, ?_, ?_, fun doc hdoc => ?_⟩
  · rw [List.length_map, List.length_take, min_eq_left henough]
  · have hfirst : (usable rng params seed (m * 10)).take m = (usable rng params seed (n * 10)).take m := by
      obtain ⟨rest, hrest⟩ := hmore
      rw [← hrest, List.take_append_of_le_length henough]
    rw [hfirst]
    exact (List.take_prefix_take_left hmn).map _
  · rw [List.map_map]
    exact hids _ ((List.nodup_range.filter _).sublist (List.take_sublist _ _))
  · obtain ⟨index, hindex, rfl⟩ := List.mem_map.mp hdoc
    have hstaged := staged_drawn rng h seed index
    have husable := of_decide_eq_true (List.mem_filter.mp (List.mem_of_mem_take hindex)).2
    refine ⟨(hstaged.admitted_iff h).mpr husable, fun spec hspec dts hdts hrun => ?_, hstaged.background⟩
    exact (hstaged.drawn spec hspec).plan.flown hlast hdts (hstaged.durationS ▸ hrun)

theorem family_keeps_its_promises_nominal :
    let family := [0].map (drawn middling nominal 7)
    let larger := [0, 1].map (drawn middling nominal 7)
    family.length = 1 ∧ family <+: larger ∧ (larger.map fun doc => doc.scenario.scenarioId).Nodup ∧
      ∀ doc ∈ larger, doc.Admitted ∧
        (∀ spec ∈ doc.scenario.aircraft, ∀ dts : List ℚ, (∀ dt ∈ dts, 0 < dt) → doc.scenario.durationS ≤ dts.sum →
          (appliedOver spec.plan 0 dts).Perm spec.plan) ∧
        (nominal.backgroundManoeuvreProbability ≤ 0 →
          ∀ spec ∈ doc.scenario.aircraft.drop 2, spec.plan = []) := by
  have hsmall : usable middling nominal 7 10 = List.range 10 := by decide +kernel
  have hlarge : usable middling nominal 7 20 = List.range 20 := by decide +kernel
  refine family_keeps_its_promises middling nominal nominal_proper (by norm_num [lastManoeuvreS, nominal]) 7 1 2 20
    (by decide) le_rfl _ _ ?_ ?_
  · rw [generateFamily_usable middling nominal_proper 7 (by decide), hsmall]
    rfl
  · rw [generateFamily_usable middling nominal_proper 7 le_rfl, hlarge]
    rfl

end FamilyParameters

end

end Airspace
