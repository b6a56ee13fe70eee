import Airspace.Common.Wire
import Airspace.Sim.Plan
import Mathlib.Data.List.Sort
import Mathlib.Data.String.Basic

/-! Scenario files (`acp.sim.scenario.load_scenario`).

    A file is read as a document and validated field by field; then two validators of the whole scenario
    reject aircraft that share an address or a callsign, and aircraft that never appear. What is accepted is
    what the simulator is promised. A float of a file is a rational, so the seconds of a scenario are read
    exactly. -/

namespace Airspace

noncomputable section

/-- A centre of the display, and the sensor's report interval, beside what the engine reads. -/
structure ScenarioDocument where
  scenario : Scenario
  description : String := ""
  reference : ℝ × ℝ
  reportIntervalS : ℚ := 1

/-- The rational a real number is, if it is one. -/
def rationalOf (x : ℝ) : Option ℚ :=
  open Classical in if h : ∃ q : ℚ, (q : ℝ) = x then some h.choose else none

@[simp] theorem rationalOf_cast (q : ℚ) : rationalOf q = some q := by
  have h : ∃ q' : ℚ, (q' : ℝ) = q := ⟨q, rfl⟩
  rw [rationalOf, dif_pos h]
  exact congrArg some (Rat.cast_injective h.choose_spec)

def CommandKind.value : CommandKind → String
  | .turnTo => "turn_to"
  | .climbTo => "climb_to"
  | .changeSpeed => "change_speed"
  | .setSquawk => "set_squawk"

namespace Lax

variable (lax : Lax)

/-- `float`, of an instant of the scenario. -/
def secondsCodec : Codec ℝ ℚ :=
  .ofReader (fun j => match j with | .num x => rationalOf x | j => (lax.float j).bind rationalOf) "float_type"
    (fun q => .num q) (fun _ => True) (fun q _ => rationalOf_cast q) fun _ _ _ => trivial

/-- `Annotated[float, Field(ge=0.0)]`, of an instant of the scenario. -/
def secondsFromZero : Codec ℝ ℚ := lax.secondsCodec.check (0 ≤ ·) "greater_than_equal"

/-- `Annotated[float, Field(gt=0.0)]`, of a span of the scenario. -/
def secondsAboveZero : Codec ℝ ℚ := lax.secondsCodec.check (0 < ·) "greater_than"

/-- `Annotated[float, Field(gt=0.0, le=hi)]`. -/
def positiveUpTo (hi : ℝ) : Codec ℝ ℝ := lax.positive.check (· ≤ hi) "less_than_equal"

@[simp] theorem valid_secondsFromZero (q : ℚ) : lax.secondsFromZero.Valid q ↔ 0 ≤ q := by
  simp [secondsFromZero, secondsCodec, Codec.ofReader]

@[simp] theorem valid_secondsAboveZero (q : ℚ) : lax.secondsAboveZero.Valid q ↔ 0 < q := by
  simp [secondsAboveZero, secondsCodec, Codec.ofReader]

@[simp] theorem valid_positiveUpTo (hi x : ℝ) : (lax.positiveUpTo hi).Valid x ↔ 0 < x ∧ x ≤ hi := by
  simp [positiveUpTo]

@[simp] theorem valid_intCodec (n : ℤ) : lax.intCodec.Valid n := trivial

/-! ### The parts of a scenario -/

def geoPointFields : Fields ℝ (ℝ × ℝ) :=
  (Fields.req "lat" lax.latitude <|
    Fields.req "lon" lax.longitude
    Fields.nil).via
  { toFun := fun (lat, lon, _) => (lat, lon)
    invFun := fun p => (p.1, p.2, ())
    left_inv := fun _ => rfl
    right_inv := fun _ => rfl }

def sensorModelFields : Fields ℝ (ℚ × SensorModel) :=
  (Fields.opt "report_interval_s" lax.secondsAboveZero 1 <|
    Fields.opt "position_sigma_m" (lax.atLeast 0) 30 <|
    Fields.opt "altitude_sigma_ft" (lax.atLeast 0) 25 <|
    Fields.opt "speed_sigma_kt" (lax.atLeast 0) 2 <|
    Fields.opt "track_sigma_deg" (lax.atLeast 0) 0.5
      (Fields.opt "dropout_probability" (lax.between 0 1) 0.02 Fields.nil (by norm_num)) (by norm_num)).via
  { toFun := fun (reportIntervalS, positionSigmaM, altitudeSigmaFt, speedSigmaKt, trackSigmaDeg,
        dropoutProbability, _) =>
      (reportIntervalS, { positionSigmaM, altitudeSigmaFt, speedSigmaKt, trackSigmaDeg, dropoutProbability })
    invFun := fun p => (p.1, p.2.positionSigmaM, p.2.altitudeSigmaFt, p.2.speedSigmaKt, p.2.trackSigmaDeg,
      p.2.dropoutProbability, ())
    left_inv := fun _ => rfl
    right_inv := fun _ => rfl }

def initialStateFields : Fields ℝ InitialState :=
  (Fields.req "lat" lax.latitude <|
    Fields.req "lon" lax.longitude <|
    Fields.req "altitude_ft" (lax.between 0 60000) <|
    Fields.req "ground_speed_kt" (lax.between 0 700) <|
    Fields.req "track_deg" lax.bearing <|
    Fields.opt "vertical_rate_fpm" (lax.between (-8000) 8000) 0
    Fields.nil).via
  { toFun := fun (lat, lon, altitudeFt, groundSpeedKt, trackDeg, verticalRateFpm, _) =>
      { lat, lon, altitudeFt, groundSpeedKt, trackDeg, verticalRateFpm }
    invFun := fun s => (s.lat, s.lon, s.altitudeFt, s.groundSpeedKt, s.trackDeg, s.verticalRateFpm, ())
    left_inv := fun _ => rfl
    right_inv := fun _ => rfl }

/-- The instant and the two numbers of a manoeuvre. -/
def manoeuvreFields (kind : CommandKind) (target rate : String) (targets rates : Codec ℝ ℝ) (usual : ℝ)
    (husual : rates.Valid usual) (htarget : target ∉ [rate]) (hat : "at_s" ∉ [target, rate])
    (hkind : "kind" ∉ ["at_s", target, rate]) : Fields ℝ (Unit × ℚ × ℝ × ℝ × Unit) :=
  Fields.opt "kind" (.literal kind.value) ()
    (Fields.req "at_s" lax.secondsFromZero
      (Fields.req target targets (Fields.opt rate rates usual Fields.nil husual) htarget) hat) (by simp) hkind

/-- `TurnTo`, `ClimbTo`, `ChangeSpeed` and `SetSquawk`. -/
def commandOfKind : CommandKind → Codec ℝ Command
  | .turnTo => (Codec.model (lax.manoeuvreFields .turnTo "heading_deg" "rate_deg_s" lax.bearing
      (lax.positiveUpTo 10) 3 (by norm_num) (by simp) (by simp) (by simp))).embed
        (fun p => ⟨p.2.1, .turnTo p.2.2.1 p.2.2.2.1⟩)
        (fun c => match c.action with
          | .turnTo heading rate => ((), c.atS, heading, rate, ())
          | _ => ((), 0, 0, 0, ()))
        fun _ _ => rfl
  | .climbTo => (Codec.model (lax.manoeuvreFields .climbTo "altitude_ft" "rate_fpm" (lax.between 0 60000)
      (lax.positiveUpTo 8000) 1800 (by norm_num) (by simp) (by simp) (by simp))).embed
        (fun p => ⟨p.2.1, .climbTo p.2.2.1 p.2.2.2.1⟩)
        (fun c => match c.action with
          | .climbTo altitude rate => ((), c.atS, altitude, rate, ())
          | _ => ((), 0, 0, 0, ()))
        fun _ _ => rfl
  | .changeSpeed => (Codec.model (lax.manoeuvreFields .changeSpeed "ground_speed_kt" "acceleration_kt_s"
      (lax.between 0 700) (lax.positiveUpTo 10) 1 (by norm_num) (by simp) (by simp) (by simp))).embed
        (fun p => ⟨p.2.1, .changeSpeed p.2.2.1 p.2.2.2.1⟩)
        (fun c => match c.action with
          | .changeSpeed speed acceleration => ((), c.atS, speed, acceleration, ())
          | _ => ((), 0, 0, 0, ()))
        fun _ _ => rfl
  | .setSquawk => (Codec.model (Fields.opt "kind" (.literal CommandKind.setSquawk.value) () <|
      Fields.req "at_s" lax.secondsFromZero <|
      Fields.req "squawk" squawkCodec
      Fields.nil)).embed
        (fun p => ⟨p.2.1, .setSquawk p.2.2.1⟩)
        (fun c => match c.action with | .setSquawk code => ((), c.atS, code, ()) | _ => ((), 0, "", ()))
        fun _ _ => rfl

theorem valid_manoeuvreFields {kind : CommandKind} {target rate : String} {targets rates : Codec ℝ ℝ} {usual : ℝ}
    {husual : rates.Valid usual} {htarget : target ∉ [rate]} {hat : "at_s" ∉ [target, rate]}
    {hkind : "kind" ∉ ["at_s", target, rate]} (p : Unit × ℚ × ℝ × ℝ × Unit) :
    (lax.manoeuvreFields kind target rate targets rates usual husual htarget hat hkind).Valid p ↔
      0 ≤ p.2.1 ∧ targets.Valid p.2.2.1 ∧ rates.Valid p.2.2.2.1 := by
  rw [← lax.valid_secondsFromZero]
  constructor
  · rintro ⟨_, hat, htarget, hrate, _⟩
    exact ⟨hat, htarget, hrate⟩
  · rintro ⟨hat, htarget, hrate⟩
    exact ⟨trivial, hat, htarget, hrate, trivial⟩

/-- A command of a kind is one of that kind within its bounds. -/
theorem valid_commandOfKind (kind : CommandKind) (c : Command) :
    (lax.commandOfKind kind).Valid c ↔ c.kind = kind ∧ c.Admitted := by
  have hadmitted : c.Admitted ↔ 0 ≤ c.atS ∧ c.action.Admitted :=
    ⟨fun h => ⟨h.atS, h.action⟩, fun h => ⟨h.1, h.2⟩⟩
  rw [hadmitted]
  obtain ⟨atS, action⟩ := c
  cases kind <;> cases action <;>
    simp [commandOfKind, Codec.embed, valid_manoeuvreFields, Command.kind, CommandAction.kind,
      CommandAction.Admitted]

/-- What is written of a command says its kind. -/
theorem write_commandOfKind (c : Command) : ∃ o, (lax.commandOfKind c.kind).write c = .obj o ∧
    o.lookup "kind" = some (.str c.kind.value) := by
  obtain ⟨atS, action⟩ := c
  cases action <;> exact ⟨_, rfl, rfl⟩

/-- `Annotated[TurnTo | ClimbTo | ChangeSpeed | SetSquawk, Field(discriminator="kind")]`. -/
def command : Codec ℝ Command :=
  .tagged "kind" [.turnTo, .climbTo, .changeSpeed, .setSquawk] CommandKind.value Command.kind lax.commandOfKind
    (fun k => by cases k <;> rfl) lax.write_commandOfKind fun k c h => ((lax.valid_commandOfKind k c).mp h).1

@[simp] theorem valid_command (c : Command) : lax.command.Valid c ↔ c.Admitted := by
  change (lax.commandOfKind c.kind).Valid c ↔ c.Admitted
  rw [valid_commandOfKind, and_iff_right rfl]

def aircraftSpecFields : Fields ℝ AircraftSpec :=
  (Fields.req "icao24" icao24Codec <|
    Fields.req "callsign" ((Codec.string.check (fun s => 1 ≤ s.length) "string_too_short").check
      (fun s => s.length ≤ 8) "string_too_long") <|
    Fields.req "initial" (.model lax.initialStateFields) <|
    Fields.nullable "squawk" squawkCodec
      (Fields.opt "entry_time_s" lax.secondsFromZero 0 <|
        Fields.opt "plan" lax.command.list []
        Fields.nil) present_squawkCodec).via
  { toFun := fun (icao24, callsign, initial, squawk, entryTimeS, plan, _) =>
      { icao24, callsign, initial, squawk, entryTimeS, plan }
    invFun := fun s => (s.icao24, s.callsign, s.initial, s.squawk, s.entryTimeS, s.plan, ())
    left_inv := fun _ => rfl
    right_inv := fun _ => rfl }

theorem valid_initialState_iff (s : InitialState) : lax.initialStateFields.Valid s ↔ s.Admitted := by
  simp only [initialStateFields, Fields.valid_via, Equiv.coe_fn_symm_mk, Fields.valid_req, Fields.valid_opt,
    Fields.valid_nil, valid_latitude, valid_longitude, valid_between, valid_bearing, and_true]
  constructor
  · rintro ⟨hlat, hlon, ha, hs, ht, hv⟩
    exact ⟨hlat, hlon, ha, hs, ht, hv⟩
  · rintro ⟨hlat, hlon, ha, hs, ht, hv⟩
    exact ⟨hlat, hlon, ha, hs, ht, hv⟩

theorem valid_aircraftSpec_iff (s : AircraftSpec) : lax.aircraftSpecFields.Valid s ↔ s.Admitted := by
  simp only [aircraftSpecFields, Fields.valid_via, Equiv.coe_fn_symm_mk, Fields.valid_req, Fields.valid_opt,
    Fields.valid_nullable, Fields.valid_nil, valid_icao24Codec, Codec.valid_check, Codec.valid_string,
    Codec.valid_model, valid_initialState_iff, valid_squawkCodec, valid_secondsFromZero, Codec.valid_list,
    valid_command, true_and, and_true]
  constructor
  · rintro ⟨hi, hc, hs, hq, he, hp⟩
    exact ⟨hi, hc, hs, hq, he, hp⟩
  · rintro ⟨hi, hc, hs, hq, he, hp⟩
    exact ⟨hi, hc, hs, hq, he, hp⟩

theorem valid_sensorModel_iff (p : ℚ × SensorModel) : lax.sensorModelFields.Valid p ↔ 0 < p.1 ∧ p.2.Admitted := by
  simp only [sensorModelFields, Fields.valid_via, Equiv.coe_fn_symm_mk, Fields.valid_opt, Fields.valid_nil,
    valid_secondsAboveZero, valid_atLeast, valid_between, and_true]
  constructor
  · rintro ⟨hi, hp, ha, hs, ht, hd⟩
    exact ⟨hi, hp, ha, hs, ht, hd⟩
  · rintro ⟨hi, hp, ha, hs, ht, hd⟩
    exact ⟨hi, hp, ha, hs, ht, hd⟩

/-- `^[a-z0-9][a-z0-9-]*$`, of one to 64 characters. -/
def scenarioIdCodec : Codec ℝ String :=
  ((Codec.string.check (fun s => 1 ≤ s.length) "string_too_short").check
    (fun s => s.length ≤ 64) "string_too_long").check (isScenarioId ·) "string_pattern_mismatch"

theorem valid_scenarioIdCodec (s : String) : scenarioIdCodec.Valid s ↔ isScenarioId s = true := by
  have hlength (h : isScenarioId s = true) : 1 ≤ s.length ∧ s.length ≤ 64 := by
    simp only [isScenarioId, Bool.and_eq_true, decide_eq_true_eq] at h
    refine ⟨?_, h.1.1⟩
    by_contra hempty
    have hnil : s.toList = [] := List.eq_nil_of_length_eq_zero (by rw [String.length_toList]; omega)
    simp [hnil] at h
  simp only [scenarioIdCodec, Codec.valid_check, Codec.valid_string, true_and]
  exact ⟨And.right, fun h => ⟨hlength h, h⟩⟩

/-- `tuple[AircraftSpec, ...] = Field(min_length=1)`. -/
def aircraftCodec : Codec ℝ (List AircraftSpec) :=
  (Codec.model lax.aircraftSpecFields).list.check (fun aircraft => aircraft ≠ []) "too_short"

theorem valid_aircraftCodec (aircraft : List AircraftSpec) :
    lax.aircraftCodec.Valid aircraft ↔ (∀ spec ∈ aircraft, spec.Admitted) ∧ aircraft ≠ [] := by
  simp only [aircraftCodec, Codec.valid_check, Codec.valid_list, Codec.valid_model, valid_aircraftSpec_iff]

/-- The default sensor is one the validators accept. -/
theorem valid_usualSensor : (Codec.model lax.sensorModelFields).Valid ((1, {}) : ℚ × SensorModel) := by
  rw [Codec.valid_model, valid_sensorModel_iff]
  exact ⟨by norm_num, by constructor <;> norm_num⟩

def scenarioFields : Fields ℝ ScenarioDocument :=
  (Fields.req "scenario_id" scenarioIdCodec <|
    Fields.opt "description" .string "" <|
    Fields.req "seed" lax.intCodec <|
    Fields.req "duration_s" lax.secondsAboveZero <|
    Fields.req "reference" (.model lax.geoPointFields) <|
    Fields.opt "sensor" (.model lax.sensorModelFields) ((1, {}) : ℚ × SensorModel)
      (Fields.req "aircraft" lax.aircraftCodec Fields.nil) lax.valid_usualSensor).via
  { toFun := fun (scenarioId, description, seed, durationS, reference, (reportIntervalS, sensor), aircraft, _) =>
      { scenario := { scenarioId, seed, durationS, sensor, aircraft }, description, reference, reportIntervalS }
    invFun := fun doc => (doc.scenario.scenarioId, doc.description, doc.scenario.seed, doc.scenario.durationS,
      doc.reference, (doc.reportIntervalS, doc.scenario.sensor), doc.scenario.aircraft, ())
    left_inv := fun _ => rfl
    right_inv := fun _ => rfl }

end Lax

/-! ### The validators of the whole scenario -/

/-- How Python shows a string and a float. -/
structure Shown where
  str : String → String
  float : ℚ → String

/-- A list of strings, as Python shows it. -/
def Shown.list (shown : Shown) (names : List String) : String :=
  "[" ++ ", ".intercalate (names.map shown.str) ++ "]"

/-- `sorted({a for a in names if names.count(a) > 1})`. -/
def repeated (names : List String) : List String :=
  ((names.filter fun name => 1 < names.count name).dedup).mergeSort (· ≤ ·)

/-- A sorted list of distinct strings. -/
theorem pairwise_lt_mergeSort {names : List String} (h : names.Nodup) :
    (names.mergeSort (· ≤ ·)).Pairwise (· < ·) := by
  have hnodup := (List.mergeSort_perm names (· ≤ ·)).nodup_iff.mpr h
  exact (List.pairwise_mergeSort' (· ≤ ·) names).imp₂ (fun _ _ hle hne => lt_of_le_of_ne hle hne) hnodup

theorem pairwise_repeated (names : List String) : (repeated names).Pairwise (· < ·) :=
  pairwise_lt_mergeSort (List.nodup_dedup _)

theorem mem_repeated_iff {names : List String} {name : String} : name ∈ repeated names ↔ 1 < names.count name := by
  rw [repeated, (List.mergeSort_perm _ _).mem_iff, List.mem_dedup, List.mem_filter, decide_eq_true_eq,
    and_iff_right_iff_imp]
  exact fun h => List.count_pos_iff.mp (by omega)

theorem repeated_eq_nil_iff {names : List String} : repeated names = [] ↔ names.Nodup := by
  rw [List.eq_nil_iff_forall_not_mem, List.nodup_iff_count_le_one]
  exact forall_congr' fun name => by rw [mem_repeated_iff, not_lt]

namespace ScenarioDocument

def callsigns (doc : ScenarioDocument) : List String := doc.scenario.aircraft.map AircraftSpec.callsign

/-- `_reject_duplicate_aircraft`: the text of its `ValueError`. -/
def rejectDuplicateAircraft (shown : Shown) (doc : ScenarioDocument) : Option String :=
  if repeated doc.scenario.addresses ≠ [] then
    some ("duplicate icao24 in scenario: " ++ shown.list (repeated doc.scenario.addresses))
  else if repeated doc.callsigns ≠ [] then
    some ("duplicate callsign in scenario: " ++ shown.list (repeated doc.callsigns))
  else none

/-- The callsigns of the aircraft that never appear. -/
def late (doc : ScenarioDocument) : List String :=
  ((doc.scenario.aircraft.filter fun spec => doc.scenario.durationS ≤ spec.entryTimeS).map
    AircraftSpec.callsign).mergeSort (· ≤ ·)

/-- `_reject_aircraft_that_never_appear`: the text of its `ValueError`. -/
def rejectAircraftThatNeverAppear (shown : Shown) (doc : ScenarioDocument) : Option String :=
  if doc.late ≠ [] then
    some ("aircraft enter at or after the end of the scenario: " ++ shown.list doc.late ++ "; duration_s is " ++
      shown.float doc.scenario.durationS)
  else none

/-- What a `ValueError` of a model's own validator becomes. -/
def valueError (message : String) : SchemaError := ⟨[], "value_error", some message⟩

/-- `Scenario.model_validate`. -/
def codec (lax : Lax) (shown : Shown) : Codec ℝ ScenarioDocument :=
  ((Codec.model lax.scenarioFields).validate fun doc =>
    (doc.rejectDuplicateAircraft shown).map valueError).validate fun doc =>
      (doc.rejectAircraftThatNeverAppear shown).map valueError

/-- Why a scenario is not loaded. -/
inductive LoadError where
  | notAMapping (message : String)
  | invalid (errors : List SchemaError)

/-- `load_scenario`, of what the YAML reader makes of the file. -/
def load (lax : Lax) (shown : Shown) (path : String) (raw : Json ℝ) : Except LoadError ScenarioDocument :=
  match raw with
  | .obj _ => ((codec lax shown).read raw).mapError .invalid
  | _ => .error (.notAMapping (path ++ ": expected a YAML mapping at the top level"))

/-- What a loaded scenario promises: everything the engine is promised, a display that has a centre, and a
    sensor that reports. -/
structure Admitted (doc : ScenarioDocument) : Prop where
  scenario : doc.scenario.Admitted
  lat : -90 ≤ doc.reference.1 ∧ doc.reference.1 ≤ 90
  lon : -180 ≤ doc.reference.2 ∧ doc.reference.2 ≤ 180
  reportIntervalS : 0 < doc.reportIntervalS

variable {lax : Lax} {shown : Shown} {doc : ScenarioDocument}

theorem rejectDuplicateAircraft_eq_none_iff :
    doc.rejectDuplicateAircraft shown = none ↔ doc.scenario.addresses.Nodup ∧ doc.callsigns.Nodup := by
  rw [rejectDuplicateAircraft, ← repeated_eq_nil_iff, ← repeated_eq_nil_iff]
  split_ifs with haddresses hcallsigns <;> simp_all

theorem late_eq_nil_iff :
    doc.late = [] ↔ ∀ spec ∈ doc.scenario.aircraft, spec.entryTimeS < doc.scenario.durationS := by
  have hperm := List.mergeSort_perm ((doc.scenario.aircraft.filter fun spec =>
    doc.scenario.durationS ≤ spec.entryTimeS).map AircraftSpec.callsign) (· ≤ ·)
  rw [late, ← List.perm_nil, hperm.congr_left, List.perm_nil, List.map_eq_nil_iff, List.filter_eq_nil_iff]
  simp

theorem rejectAircraftThatNeverAppear_eq_none_iff : doc.rejectAircraftThatNeverAppear shown = none ↔
    ∀ spec ∈ doc.scenario.aircraft, spec.entryTimeS < doc.scenario.durationS := by
  rw [rejectAircraftThatNeverAppear, ← late_eq_nil_iff]
  split_ifs with hlate <;> simp_all

/-- What the field checks of a scenario accept. -/
structure FieldsAdmitted (doc : ScenarioDocument) : Prop where
  scenarioId : isScenarioId doc.scenario.scenarioId
  durationS : 0 < doc.scenario.durationS
  reference : (-90 ≤ doc.reference.1 ∧ doc.reference.1 ≤ 90) ∧ -180 ≤ doc.reference.2 ∧ doc.reference.2 ≤ 180
  sensor : 0 < doc.reportIntervalS ∧ doc.scenario.sensor.Admitted
  aircraft : (∀ spec ∈ doc.scenario.aircraft, spec.Admitted) ∧ doc.scenario.aircraft ≠ []

theorem valid_scenarioFields_iff : lax.scenarioFields.Valid doc ↔ doc.FieldsAdmitted := by
  simp only [Lax.scenarioFields, Lax.geoPointFields, Fields.valid_via, Equiv.coe_fn_symm_mk, Fields.valid_req,
    Fields.valid_opt, Fields.valid_nil, Codec.valid_model, Lax.valid_scenarioIdCodec, Codec.valid_string,
    Lax.valid_intCodec, Lax.valid_secondsAboveZero, Lax.valid_latitude, Lax.valid_longitude,
    Lax.valid_sensorModel_iff, Lax.valid_aircraftCodec, true_and, and_true]
  constructor
  · rintro ⟨hid, hduration, hreference, hsensor, haircraft⟩
    exact ⟨hid, hduration, hreference, hsensor, haircraft⟩
  · rintro ⟨hid, hduration, hreference, hsensor, haircraft⟩
    exact ⟨hid, hduration, hreference, hsensor, haircraft⟩

/-- A scenario is admitted if its fields are, no two aircraft share an address or a callsign, and every one
    appears. -/
theorem admitted_iff : doc.Admitted ↔ doc.FieldsAdmitted ∧ (doc.scenario.addresses.Nodup ∧ doc.callsigns.Nodup) ∧
    ∀ spec ∈ doc.scenario.aircraft, spec.entryTimeS < doc.scenario.durationS := by
  constructor
  · rintro ⟨hscenario, hlat, hlon, hinterval⟩
    exact ⟨⟨hscenario.scenarioId, hscenario.durationS, ⟨hlat, hlon⟩, ⟨hinterval, hscenario.sensor⟩,
      hscenario.aircraft, hscenario.nonempty⟩, ⟨hscenario.addresses, hscenario.callsigns⟩, hscenario.entry⟩
  · rintro ⟨⟨hid, hduration, ⟨hlat, hlon⟩, ⟨hinterval, hsensor⟩, haircraft, hsome⟩, ⟨haddresses, hcallsigns⟩,
      hentry⟩
    exact ⟨⟨hid, hduration, hsensor, haircraft, hsome, haddresses, hcallsigns, hentry⟩, hlat, hlon, hinterval⟩

theorem valid_codec_iff : (codec lax shown).Valid doc ↔ doc.Admitted := by
  have hvalid : (codec lax shown).Valid doc ↔ (lax.scenarioFields.Valid doc ∧
      (doc.rejectDuplicateAircraft shown).map valueError = none) ∧
        (doc.rejectAircraftThatNeverAppear shown).map valueError = none := Iff.rfl
  rw [hvalid, Option.map_eq_none_iff, Option.map_eq_none_iff, valid_scenarioFields_iff,
    rejectDuplicateAircraft_eq_none_iff, rejectAircraftThatNeverAppear_eq_none_iff, admitted_iff, and_assoc]

/-- A scenario as its document. -/
def dump (lax : Lax) (doc : ScenarioDocument) : Json ℝ := (Codec.model lax.scenarioFields).write doc

theorem load_eq_ok_iff {path : String} {raw : Json ℝ} :
    load lax shown path raw = .ok doc ↔ (codec lax shown).read raw = .ok doc := by
  cases raw with
  | obj o =>
    simp only [load]
    cases (codec lax shown).read (.obj o) <;> simp [Except.mapError]
  | _ => simp [load, codec, Codec.validate, Codec.model]

/-- Loading a scenario's document gives the scenario back exactly if it is admitted, and whatever is loaded
    from any document is admitted. -/
theorem loads_exactly_the_admitted (lax : Lax) (shown : Shown) (path : String) :
    (∀ doc, load lax shown path (dump lax doc) = .ok doc ↔ doc.Admitted) ∧
      ∀ raw doc, load lax shown path raw = .ok doc → doc.Admitted := by
  have hadmitted : ∀ raw doc, load lax shown path raw = .ok doc → doc.Admitted := fun raw doc h =>
    valid_codec_iff.mp ((codec lax shown).valid_of_read raw doc (load_eq_ok_iff.mp h))
  refine ⟨fun doc => ⟨hadmitted _ doc, fun h => ?_⟩, hadmitted⟩
  exact load_eq_ok_iff.mpr ((codec lax shown).read_write doc (valid_codec_iff.mpr h))

/-- What can be wrong with the scenario as a whole, in the order it is looked for. -/
inductive Fault where | icao24 | callsign | neverAppears

namespace Fault

def rank : Fault → ℕ
  | icao24 => 0
  | callsign => 1
  | neverAppears => 2

/-- The addresses or callsigns at fault. -/
def Concerns (doc : ScenarioDocument) : Fault → String → Prop
  | icao24, name => 1 < doc.scenario.addresses.count name
  | callsign, name => 1 < doc.callsigns.count name
  | neverAppears, name =>
    ∃ spec ∈ doc.scenario.aircraft, spec.callsign = name ∧ doc.scenario.durationS ≤ spec.entryTimeS

/-- What is said of the names at fault. -/
def text (shown : Shown) (doc : ScenarioDocument) (names : List String) : Fault → String
  | icao24 => "duplicate icao24 in scenario: " ++ shown.list names
  | callsign => "duplicate callsign in scenario: " ++ shown.list names
  | neverAppears => "aircraft enter at or after the end of the scenario: " ++ shown.list names ++
      "; duration_s is " ++ shown.float doc.scenario.durationS

end Fault

theorem mem_late_iff {name : String} : name ∈ doc.late ↔ Fault.neverAppears.Concerns doc name := by
  rw [late, List.mem_mergeSort, List.mem_map]
  simp only [List.mem_filter, decide_eq_true_eq, Fault.Concerns]
  constructor
  · rintro ⟨spec, ⟨hmem, hlate⟩, hname⟩
    exact ⟨spec, hmem, hname, hlate⟩
  · rintro ⟨spec, hmem, hname, hlate⟩
    exact ⟨spec, ⟨hmem, hlate⟩, hname⟩

theorem pairwise_late (h : doc.callsigns.Nodup) : doc.late.Pairwise (· < ·) :=
  pairwise_lt_mergeSort (h.sublist (List.filter_sublist.map _))

/-- What the validators of the whole scenario say of a document whose fields are right. -/
theorem load_of_fields {path message : String} (h : doc.FieldsAdmitted)
    (hmessage : (doc.rejectDuplicateAircraft shown).or (doc.rejectAircraftThatNeverAppear shown) =
      some message) :
    load lax shown path (dump lax doc) = .error (.invalid [valueError message]) := by
  have hfields : (Codec.model lax.scenarioFields).read (dump lax doc) = .ok doc :=
    (Codec.model lax.scenarioFields).read_write doc (valid_scenarioFields_iff.mpr h)
  have hread : (codec lax shown).read (dump lax doc) = .error [valueError message] := by
    simp only [codec, Codec.validate, hfields]
    cases hduplicate : doc.rejectDuplicateAircraft shown with
    | some m => simp_all
    | none => simp_all
  have hload : load lax shown path (dump lax doc) =
      ((codec lax shown).read (dump lax doc)).mapError .invalid := rfl
  rw [hload, hread]
  rfl

/-- A scenario whose fields are right and that is not loaded is rejected for the first fault of the whole,
    with every name at fault once and in order. -/
theorem load_names_the_first_fault (lax : Lax) (shown : Shown) (path : String) (doc : ScenarioDocument)
    (h : doc.FieldsAdmitted) (hrejected : ¬ doc.Admitted) :
    ∃ (fault : Fault) (names : List String), names ≠ [] ∧ names.Pairwise (· < ·) ∧
      (∀ name, name ∈ names ↔ fault.Concerns doc name) ∧
      (∀ earlier : Fault, earlier.rank < fault.rank → ∀ name, ¬ earlier.Concerns doc name) ∧
      load lax shown path (dump lax doc) = .error (.invalid [valueError (fault.text shown doc names)]) := by
  have hunique {names : List String} (hnone : repeated names = []) (name : String) : ¬ 1 < names.count name := by
    rw [← mem_repeated_iff, hnone]
    exact List.not_mem_nil
  by_cases haddresses : repeated doc.scenario.addresses = []
  · by_cases hcallsigns : repeated doc.callsigns = []
    · have hlate : doc.late ≠ [] := fun hnone => hrejected (admitted_iff.mpr
        ⟨h, ⟨repeated_eq_nil_iff.mp haddresses, repeated_eq_nil_iff.mp hcallsigns⟩, late_eq_nil_iff.mp hnone⟩)
      refine ⟨.neverAppears, doc.late, hlate, pairwise_late (repeated_eq_nil_iff.mp hcallsigns),
        fun _ => mem_late_iff, ?_, load_of_fields h ?_⟩
      · rintro (_ | _ | _) hrank
        · exact hunique haddresses
        · exact hunique hcallsigns
        · exact absurd hrank (lt_irrefl _)
      · rw [rejectDuplicateAircraft, if_neg (not_not.mpr haddresses), if_neg (not_not.mpr hcallsigns),
          Option.none_or, rejectAircraftThatNeverAppear, if_pos hlate]
        rfl
    · refine ⟨.callsign, repeated doc.callsigns, hcallsigns, pairwise_repeated _, fun _ => mem_repeated_iff, ?_,
        load_of_fields h ?_⟩
      · rintro (_ | _ | _) hrank
        · exact hunique haddresses
        · exact absurd hrank (lt_irrefl _)
        · exact absurd hrank (by decide)
      · rw [rejectDuplicateAircraft, if_neg (not_not.mpr haddresses), if_pos hcallsigns, Option.some_or]
        rfl
  · refine ⟨.icao24, repeated doc.scenario.addresses, haddresses, pairwise_repeated _, fun _ => mem_repeated_iff,
      fun _ hrank => absurd hrank (Nat.not_lt_zero _), load_of_fields h ?_⟩
    rw [rejectDuplicateAircraft, if_pos haddresses, Option.some_or]
    rfl

/-- Two aircraft under one address. -/
def twins : ScenarioDocument where
  scenario := { levelScenario [] with aircraft := [levelSpec "a1b2c3" "ONE" [], levelSpec "a1b2c3" "TWO" []] }
  reference := (0, 0)

theorem load_names_the_first_fault_twins :
    ∃ (fault : Fault) (names : List String), names ≠ [] ∧ names.Pairwise (· < ·) ∧
      (∀ name, name ∈ names ↔ fault.Concerns twins name) ∧
      (∀ earlier : Fault, earlier.rank < fault.rank → ∀ name, ¬ earlier.Concerns twins name) ∧
      load strictly ⟨id, fun _ => "600.0"⟩ "twins.yaml" (dump strictly twins) =
        .error (.invalid [valueError (fault.text ⟨id, fun _ => "600.0"⟩ twins names)]) := by
  have hlevel : (levelScenario []).Admitted := levelScenario_admitted (by simp)
  have hspec : (levelSpec "a1b2c3" "TEST01" []).Admitted := hlevel.aircraft _ (List.mem_singleton_self _)
  have hnamed (callsign : String) (h : 1 ≤ callsign.length ∧ callsign.length ≤ 8) :
      (levelSpec "a1b2c3" callsign []).Admitted := { hspec with callsign := h }
  refine load_names_the_first_fault _ _ _ twins ⟨hlevel.scenarioId, hlevel.durationS, by norm_num [twins],
    ⟨by norm_num [twins], hlevel.sensor⟩, List.forall_mem_cons.mpr ⟨hnamed "ONE" (by decide), ?_⟩,
    List.cons_ne_nil _ _⟩ fun h => ?_
  · exact List.forall_mem_singleton.mpr (hnamed "TWO" (by decide))
  · have hnodup := h.scenario.addresses
    simp [Scenario.addresses, twins, levelSpec] at hnodup

end ScenarioDocument

end

end Airspace
