import Airspace.Common.Contracts
import Airspace.Common.PyFloat
import Airspace.Lib.Calendar
import Airspace.Lib.Schema
import Airspace.Storage.TrackHistory

/-! The wire contracts as documents (`acp.common.contracts`).

    Every model is frozen and forbids unknown fields. A value of the native type of a field is read as it
    is; what the lax mode makes of a value of another type is a parameter. An instant is written as its ISO
    text and a number as itself. Numbers are finite: an infinity and NaN, which the fields without bounds take
    and which are written as null, are not among the documents and values here. -/

namespace Airspace

noncomputable section

/-- What the lax mode makes of a value that is not of a field's own type. -/
structure Lax where
  float : Json ℝ → Option ℝ
  int : Json ℝ → Option ℤ
  bool : Json ℝ → Option Bool
  datetime : Json ℝ → Option { t : Instant // IsDatetime t }

namespace Lax

variable (lax : Lax)

/-- `float`, of a finite number. -/
def floatCodec : Codec ℝ ℝ :=
  .ofReader (fun j => match j with | .num x => some x | j => lax.float j) "float_type" .num (fun _ => True)
    (fun _ _ => rfl) fun _ _ _ => trivial

/-- `int`; a number with a fraction is none. -/
def intCodec : Codec ℝ ℤ :=
  .ofReader (fun j => match j with
      | .num x => if (⌊x⌋ : ℝ) = x then some ⌊x⌋ else none
      | j => lax.int j)
    "int_type" (fun n => .num n) (fun _ => True) (fun n _ => by simp) fun _ _ _ => trivial

/-- `bool`. -/
def boolCodec : Codec ℝ Bool :=
  .ofReader (fun j => match j with | .bool b => some b | j => lax.bool j) "bool_type" .bool (fun _ => True)
    (fun _ _ => rfl) fun _ _ _ => trivial

/-- `datetime`. -/
def datetimeCodec : Codec ℝ Instant :=
  .ofReader (fun j => match j with
      | .str s => match readIso s with
        | some t => some t
        | none => (lax.datetime (.str s)).map Subtype.val
      | j => (lax.datetime j).map Subtype.val)
    "datetime_type" (fun t => .str (isoformat t)) IsDatetime (fun t ht => by simp only [readIso_isoformat ht])
    fun j t h => by
      have hlax : ∀ j, (lax.datetime j).map Subtype.val = some t → IsDatetime t := by
        intro j h
        obtain ⟨⟨t', ht'⟩, -, rfl⟩ := Option.map_eq_some_iff.mp h
        exact ht'
      cases j with
      | str s =>
        cases hs : readIso s with
        | some t' =>
          simp only [hs, Option.some.injEq] at h
          exact h ▸ (readIso_eq_some_iff.mp hs).1
        | none =>
          simp only [hs] at h
          exact hlax _ h
      | _ => exact hlax _ h

/-- `Annotated[float, Field(ge=lo)]`. -/
def atLeast (lo : ℝ) : Codec ℝ ℝ := lax.floatCodec.check (lo ≤ ·) "greater_than_equal"

/-- `Annotated[float, Field(gt=0.0)]`. -/
def positive : Codec ℝ ℝ := lax.floatCodec.check (0 < ·) "greater_than"

/-- `Annotated[float, Field(ge=lo, le=hi)]`. -/
def between (lo hi : ℝ) : Codec ℝ ℝ := (lax.atLeast lo).check (· ≤ hi) "less_than_equal"

/-- `Latitude`. -/
def latitude : Codec ℝ ℝ := lax.between (-90) 90

/-- `Longitude`. -/
def longitude : Codec ℝ ℝ := lax.between (-180) 180

/-- `Bearing`. -/
def bearing : Codec ℝ ℝ := (lax.atLeast 0).check (· < 360) "less_than"

/-- `Annotated[int, Field(ge=0)]`. -/
def natCodec : Codec ℝ ℕ :=
  (lax.intCodec.check (0 ≤ ·) "greater_than_equal").embed Int.toNat (fun n => n) fun _ h =>
    Int.toNat_of_nonneg h.2

section

variable (x : ℝ)

@[simp] theorem present_floatCodec : lax.floatCodec.Present := fun _ h => by cases h

@[simp] theorem valid_floatCodec : lax.floatCodec.Valid x := trivial

@[simp] theorem valid_boolCodec (b : Bool) : lax.boolCodec.Valid b := trivial

@[simp] theorem valid_datetimeCodec (t : Instant) : lax.datetimeCodec.Valid t ↔ IsDatetime t := Iff.rfl

@[simp] theorem present_atLeast (lo : ℝ) : (lax.atLeast lo).Present := by simp [atLeast]

@[simp] theorem valid_atLeast (lo : ℝ) : (lax.atLeast lo).Valid x ↔ lo ≤ x := by simp [atLeast]

@[simp] theorem valid_positive : lax.positive.Valid x ↔ 0 < x := by simp [positive]

@[simp] theorem valid_between (lo hi : ℝ) : (lax.between lo hi).Valid x ↔ lo ≤ x ∧ x ≤ hi := by simp [between]

@[simp] theorem valid_latitude : lax.latitude.Valid x ↔ -90 ≤ x ∧ x ≤ 90 := by simp [latitude]

@[simp] theorem valid_longitude : lax.longitude.Valid x ↔ -180 ≤ x ∧ x ≤ 180 := by simp [longitude]

@[simp] theorem present_bearing : lax.bearing.Present := by simp [bearing]

@[simp] theorem valid_bearing : lax.bearing.Valid x ↔ 0 ≤ x ∧ x < 360 := by simp [bearing]

@[simp] theorem valid_natCodec (n : ℕ) : lax.natCodec.Valid n := by
  simp [natCodec, Codec.embed, intCodec, Codec.ofReader]

end

end Lax

/-! ### The fields' own types -/

/-- `schema_version: Literal["1"] = "1"`. -/
def schemaVersion : Codec ℝ Unit := .literal "1"

/-- `Icao24`. -/
def icao24Codec : Codec ℝ String := Codec.string.check (isIcao24 ·) "string_pattern_mismatch"

/-- `Squawk`. -/
def squawkCodec : Codec ℝ String := Codec.string.check (isSquawk ·) "string_pattern_mismatch"

@[simp] theorem present_squawkCodec : squawkCodec.Present := by simp [squawkCodec]

@[simp] theorem valid_squawkCodec (s : String) : squawkCodec.Valid s ↔ isSquawk s = true := by simp [squawkCodec]

@[simp] theorem valid_icao24Codec (s : String) : icao24Codec.Valid s ↔ isIcao24 s = true := by simp [icao24Codec]

def DataSource.value : DataSource → String
  | .simulator => "simulator"

def dataSourceCodec : Codec ℝ DataSource :=
  .enum [.simulator] DataSource.value "enum" fun a => by cases a; rfl

def trackStateCodec : Codec ℝ TrackState :=
  .enum [.initiating, .confirmed, .coasting, .terminated] TrackState.value "enum" fun a => by cases a <;> rfl

def alertKindCodec : Codec ℝ AlertKind :=
  .enum [.predictedConflict, .nonConformance, .emergencySquawk, .excessiveDescent] AlertKind.value "enum"
    fun a => by cases a <;> rfl

def Severity.value : Severity → String
  | .info => "info"
  | .advisory => "advisory"
  | .caution => "caution"
  | .warning => "warning"

def severityCodec : Codec ℝ Severity :=
  .enum [.info, .advisory, .caution, .warning] Severity.value "enum" fun a => by cases a <;> rfl

def AlertState.value : AlertState → String
  | .new => "new"
  | .sustained => "sustained"
  | .cleared => "cleared"

def alertStateCodec : Codec ℝ AlertState :=
  .enum [.new, .sustained, .cleared] AlertState.value "enum" fun a => by cases a <;> rfl

section

@[simp] theorem valid_schemaVersion (u : Unit) : schemaVersion.Valid u := trivial

@[simp] theorem valid_dataSourceCodec (a : DataSource) : dataSourceCodec.Valid a := trivial

@[simp] theorem valid_trackStateCodec (a : TrackState) : trackStateCodec.Valid a := trivial

@[simp] theorem valid_alertKindCodec (a : AlertKind) : alertKindCodec.Valid a := trivial

@[simp] theorem valid_severityCodec (a : Severity) : severityCodec.Valid a := trivial

@[simp] theorem valid_alertStateCodec (a : AlertState) : alertStateCodec.Valid a := trivial

end

/-! ### The models -/

/-- What the validators of a conflict's evidence accept. -/
structure ConflictEvidence.Admitted (e : ConflictEvidence) : Prop where
  minHorizontalSepNm : 0 ≤ e.minHorizontalSepNm
  minVerticalSepFt : 0 ≤ e.minVerticalSepFt
  lookaheadS : 0 < e.lookaheadS
  horizontalStandardNm : 0 < e.horizontalStandardNm
  verticalStandardFt : 0 < e.verticalStandardFt

/-- What the validators of a conformance alert's evidence accept. -/
structure ConformanceEvidence.Admitted (e : ConformanceEvidence) : Prop where
  predictedAt : IsDatetime e.predictedAt
  horizonS : 0 < e.horizonS
  errorNm : 0 ≤ e.errorNm
  baselineErrorNm : 0 ≤ e.baselineErrorNm
  thresholdNm : 0 < e.thresholdNm

/-- What the validators of an alert accept. -/
structure Alert.Admitted (a : Alert) : Prop where
  raisedAt : IsDatetime a.raisedAt
  updatedAt : IsDatetime a.updatedAt
  conflict : ∀ e ∈ a.conflict, e.Admitted
  conformance : ∀ e ∈ a.conformance, e.Admitted

namespace Lax

variable (lax : Lax)

def surveillanceReportFields : Fields ℝ SurveillanceReport :=
  (Fields.opt "schema_version" schemaVersion () <|
    Fields.req "report_id" .string <|
    Fields.req "icao24" icao24Codec <|
    Fields.nullable "callsign" .string <|
    Fields.req "observed_at" lax.datetimeCodec <|
    Fields.req "lat" lax.latitude <|
    Fields.req "lon" lax.longitude <|
    Fields.nullable "altitude_baro_ft" lax.floatCodec <|
    Fields.nullable "ground_speed_kt" (lax.atLeast 0) <|
    Fields.nullable "track_deg" lax.bearing <|
    Fields.nullable "vertical_rate_fpm" lax.floatCodec <|
    Fields.nullable "squawk" squawkCodec <|
    Fields.opt "on_ground" lax.boolCodec false <|
    Fields.opt "source" dataSourceCodec .simulator <|
    Fields.nullable "scenario_id" .string
    Fields.nil).via
  { toFun := fun (_, reportId, icao24, callsign, observedAt, lat, lon, altitudeBaroFt, groundSpeedKt, trackDeg,
        verticalRateFpm, squawk, onGround, source, scenarioId, _) =>
      { reportId, icao24, callsign, observedAt, lat, lon, altitudeBaroFt, groundSpeedKt, trackDeg, verticalRateFpm,
        squawk, onGround, source, scenarioId }
    invFun := fun r => ((), r.reportId, r.icao24, r.callsign, r.observedAt, r.lat, r.lon, r.altitudeBaroFt,
      r.groundSpeedKt, r.trackDeg, r.verticalRateFpm, r.squawk, r.onGround, r.source, r.scenarioId, ())
    left_inv := fun _ => rfl
    right_inv := fun _ => rfl }

def trackUpdateFields : Fields ℝ TrackUpdate :=
  (Fields.opt "schema_version" schemaVersion () <|
    Fields.req "track_id" .string <|
    Fields.req "icao24" icao24Codec <|
    Fields.nullable "callsign" .string <|
    Fields.req "updated_at" lax.datetimeCodec <|
    Fields.req "last_report_at" lax.datetimeCodec <|
    Fields.req "state" trackStateCodec <|
    Fields.req "lat" lax.latitude <|
    Fields.req "lon" lax.longitude <|
    Fields.req "altitude_ft" lax.floatCodec <|
    Fields.req "ground_speed_kt" (lax.atLeast 0) <|
    Fields.req "track_deg" lax.bearing <|
    Fields.req "vertical_rate_fpm" lax.floatCodec <|
    Fields.req "turn_rate_deg_s" lax.floatCodec <|
    Fields.req "position_uncertainty_m" (lax.atLeast 0) <|
    Fields.req "update_count" lax.natCodec <|
    Fields.nullable "innovation_nm" (lax.atLeast 0) <|
    Fields.nullable "velocity_uncertainty_kt" (lax.atLeast 0) <|
    Fields.nullable "altitude_uncertainty_ft" (lax.atLeast 0) <|
    Fields.nullable "vertical_rate_uncertainty_fpm" (lax.atLeast 0) <|
    Fields.nullable "squawk" squawkCodec <|
    Fields.opt "source" dataSourceCodec .simulator <|
    Fields.nullable "scenario_id" .string
    Fields.nil).via
  { toFun := fun (_, trackId, icao24, callsign, updatedAt, lastReportAt, state, lat, lon, altitudeFt, groundSpeedKt,
        trackDeg, verticalRateFpm, turnRateDegS, positionUncertaintyM, updateCount, innovationNm,
        velocityUncertaintyKt, altitudeUncertaintyFt, verticalRateUncertaintyFpm, squawk, source, scenarioId, _) =>
      { trackId, icao24, callsign, updatedAt, lastReportAt, state, lat, lon, altitudeFt, groundSpeedKt, trackDeg,
        verticalRateFpm, turnRateDegS, positionUncertaintyM, updateCount, innovationNm, velocityUncertaintyKt,
        altitudeUncertaintyFt, verticalRateUncertaintyFpm, squawk, source, scenarioId }
    invFun := fun u => ((), u.trackId, u.icao24, u.callsign, u.updatedAt, u.lastReportAt, u.state, u.lat, u.lon,
      u.altitudeFt, u.groundSpeedKt, u.trackDeg, u.verticalRateFpm, u.turnRateDegS, u.positionUncertaintyM,
      u.updateCount, u.innovationNm, u.velocityUncertaintyKt, u.altitudeUncertaintyFt,
      u.verticalRateUncertaintyFpm, u.squawk, u.source, u.scenarioId, ())
    left_inv := fun _ => rfl
    right_inv := fun _ => rfl }

def conflictEvidenceFields : Fields ℝ ConflictEvidence :=
  (Fields.req "time_to_cpa_s" lax.floatCodec <|
    Fields.req "min_horizontal_sep_nm" (lax.atLeast 0) <|
    Fields.req "min_vertical_sep_ft" (lax.atLeast 0) <|
    Fields.req "lookahead_s" lax.positive <|
    Fields.req "horizontal_standard_nm" lax.positive <|
    Fields.req "vertical_standard_ft" lax.positive
    Fields.nil).via
  { toFun := fun (timeToCpaS, minHorizontalSepNm, minVerticalSepFt, lookaheadS, horizontalStandardNm,
        verticalStandardFt, _) =>
      { timeToCpaS, minHorizontalSepNm, minVerticalSepFt, lookaheadS, horizontalStandardNm, verticalStandardFt }
    invFun := fun e => (e.timeToCpaS, e.minHorizontalSepNm, e.minVerticalSepFt, e.lookaheadS,
      e.horizontalStandardNm, e.verticalStandardFt, ())
    left_inv := fun _ => rfl
    right_inv := fun _ => rfl }

def conformanceEvidenceFields : Fields ℝ ConformanceEvidence :=
  (Fields.req "predicted_at" lax.datetimeCodec <|
    Fields.req "horizon_s" lax.positive <|
    Fields.req "error_nm" (lax.atLeast 0) <|
    Fields.req "baseline_error_nm" (lax.atLeast 0) <|
    Fields.req "threshold_nm" lax.positive <|
    Fields.req "predictor_version" .string
    Fields.nil).via
  { toFun := fun (predictedAt, horizonS, errorNm, baselineErrorNm, thresholdNm, predictorVersion, _) =>
      { predictedAt, horizonS, errorNm, baselineErrorNm, thresholdNm, predictorVersion }
    invFun := fun e => (e.predictedAt, e.horizonS, e.errorNm, e.baselineErrorNm, e.thresholdNm,
      e.predictorVersion, ())
    left_inv := fun _ => rfl
    right_inv := fun _ => rfl }

def alertFields : Fields ℝ Alert :=
  (Fields.opt "schema_version" schemaVersion () <|
    Fields.req "alert_id" .string <|
    Fields.req "alert_key" .string <|
    Fields.req "kind" alertKindCodec <|
    Fields.req "severity" severityCodec <|
    Fields.req "state" alertStateCodec <|
    Fields.req "raised_at" lax.datetimeCodec <|
    Fields.req "updated_at" lax.datetimeCodec <|
    Fields.req "track_ids" (.list .string) <|
    Fields.req "reason_codes" (.list .string) <|
    Fields.req "summary" .string <|
    Fields.nullable "conflict" (.model lax.conflictEvidenceFields) <|
    Fields.nullable "conformance" (.model lax.conformanceEvidenceFields) <|
    Fields.opt "source" dataSourceCodec .simulator <|
    Fields.nullable "scenario_id" .string
    Fields.nil).via
  { toFun := fun (_, alertId, alertKey, kind, severity, state, raisedAt, updatedAt, trackIds, reasonCodes, summary,
        conflict, conformance, source, scenarioId, _) =>
      { alertId, alertKey, kind, severity, state, raisedAt, updatedAt, trackIds, reasonCodes, summary, conflict,
        conformance, source, scenarioId }
    invFun := fun a => ((), a.alertId, a.alertKey, a.kind, a.severity, a.state, a.raisedAt, a.updatedAt, a.trackIds,
      a.reasonCodes, a.summary, a.conflict, a.conformance, a.source, a.scenarioId, ())
    left_inv := fun _ => rfl
    right_inv := fun _ => rfl }

def truthStateFields : Fields ℝ TruthState :=
  (Fields.opt "schema_version" schemaVersion () <|
    Fields.req "icao24" icao24Codec <|
    Fields.req "scenario_id" .string <|
    Fields.req "sim_version" .string <|
    Fields.req "valid_at" lax.datetimeCodec <|
    Fields.req "lat" lax.latitude <|
    Fields.req "lon" lax.longitude <|
    Fields.req "altitude_ft" lax.floatCodec <|
    Fields.req "ground_speed_kt" (lax.atLeast 0) <|
    Fields.req "track_deg" lax.bearing <|
    Fields.req "vertical_rate_fpm" lax.floatCodec <|
    Fields.req "phase" .string
    Fields.nil).via
  { toFun := fun (_, icao24, scenarioId, simVersion, validAt, lat, lon, altitudeFt, groundSpeedKt, trackDeg,
        verticalRateFpm, phase, _) =>
      { icao24, scenarioId, simVersion, validAt, lat, lon, altitudeFt, groundSpeedKt, trackDeg, verticalRateFpm,
        phase }
    invFun := fun t => ((), t.icao24, t.scenarioId, t.simVersion, t.validAt, t.lat, t.lon, t.altitudeFt,
      t.groundSpeedKt, t.trackDeg, t.verticalRateFpm, t.phase, ())
    left_inv := fun _ => rfl
    right_inv := fun _ => rfl }

/-! ### What the models accept -/

theorem valid_surveillanceReport_iff (r : SurveillanceReport) :
    lax.surveillanceReportFields.Valid r ↔ r.Admitted ∧ IsDatetime r.observedAt := by
  simp only [surveillanceReportFields, Fields.valid_via, Equiv.coe_fn_symm_mk, Fields.valid_opt, Fields.valid_req,
    Fields.valid_nullable, Fields.valid_nil, valid_schemaVersion, Codec.valid_string, valid_icao24Codec,
    valid_datetimeCodec, valid_latitude, valid_longitude, valid_floatCodec, valid_atLeast, valid_bearing,
    valid_squawkCodec, valid_boolCodec, valid_dataSourceCodec]
  constructor
  · rintro ⟨-, -, hicao, -, hat, hlat, hlon, -, hspeed, htrack, -, hsquawk, -⟩
    exact ⟨⟨hicao, hlat, hlon, hspeed, htrack, hsquawk⟩, hat⟩
  · rintro ⟨h, hat⟩
    simp only [h.icao24, hat, h.lat, h.lon, true_and, and_true, implies_true]
    exact ⟨h.groundSpeedKt, h.trackDeg, h.squawk⟩

theorem valid_trackUpdate_iff (u : TrackUpdate) : lax.trackUpdateFields.Valid u ↔
    u.Admitted ∧ IsDatetime u.updatedAt ∧ IsDatetime u.lastReportAt := by
  simp only [trackUpdateFields, Fields.valid_via, Equiv.coe_fn_symm_mk, Fields.valid_opt, Fields.valid_req,
    Fields.valid_nullable, Fields.valid_nil, valid_schemaVersion, Codec.valid_string, valid_icao24Codec,
    valid_datetimeCodec, valid_trackStateCodec, valid_latitude, valid_longitude, valid_floatCodec, valid_atLeast,
    valid_bearing, valid_natCodec, valid_squawkCodec, valid_dataSourceCodec]
  constructor
  · rintro ⟨-, -, hicao, -, hat, hlast, -, hlat, hlon, -, hspeed, htrack, -, -, hposition, -, hinnovation,
      hvelocity, haltitude, hrate, hsquawk, -⟩
    exact ⟨⟨hicao, hlat, hlon, hspeed, htrack, hposition, hinnovation, hvelocity, haltitude, hrate, hsquawk⟩,
      hat, hlast⟩
  · rintro ⟨h, hat, hlast⟩
    simp only [h.icao24, hat, hlast, h.lat, h.lon, h.groundSpeedKt, h.trackDeg, h.positionUncertaintyM, true_and,
      and_true, implies_true]
    exact ⟨h.innovationNm, h.velocityUncertaintyKt, h.altitudeUncertaintyFt, h.verticalRateUncertaintyFpm,
      h.squawk⟩

theorem valid_conflictEvidence_iff (e : ConflictEvidence) : lax.conflictEvidenceFields.Valid e ↔ e.Admitted := by
  simp only [conflictEvidenceFields, Fields.valid_via, Equiv.coe_fn_symm_mk, Fields.valid_req, Fields.valid_nil,
    valid_floatCodec, valid_atLeast, valid_positive, true_and, and_true]
  constructor
  · rintro ⟨hh, hv, hl, hhs, hvs⟩
    exact ⟨hh, hv, hl, hhs, hvs⟩
  · rintro ⟨hh, hv, hl, hhs, hvs⟩
    exact ⟨hh, hv, hl, hhs, hvs⟩

theorem valid_conformanceEvidence_iff (e : ConformanceEvidence) :
    lax.conformanceEvidenceFields.Valid e ↔ e.Admitted := by
  simp only [conformanceEvidenceFields, Fields.valid_via, Equiv.coe_fn_symm_mk, Fields.valid_req, Fields.valid_nil,
    valid_datetimeCodec, Codec.valid_string, valid_atLeast, valid_positive, and_true]
  constructor
  · rintro ⟨hp, hh, he, hb, ht⟩
    exact ⟨hp, hh, he, hb, ht⟩
  · rintro ⟨hp, hh, he, hb, ht⟩
    exact ⟨hp, hh, he, hb, ht⟩

theorem valid_alert_iff (a : Alert) : lax.alertFields.Valid a ↔ a.Admitted := by
  simp only [alertFields, Fields.valid_via, Equiv.coe_fn_symm_mk, Fields.valid_opt, Fields.valid_req,
    Fields.valid_nullable, Fields.valid_nil, valid_schemaVersion, Codec.valid_string, Codec.valid_list,
    Codec.valid_model, valid_alertKindCodec, valid_severityCodec, valid_alertStateCodec, valid_datetimeCodec,
    valid_conflictEvidence_iff, valid_conformanceEvidence_iff, valid_dataSourceCodec, implies_true, true_and,
    and_true]
  constructor
  · rintro ⟨hr, hu, hc, hf⟩
    exact ⟨hr, hu, hc, hf⟩
  · rintro ⟨hr, hu, hc, hf⟩
    exact ⟨hr, hu, hc, hf⟩

theorem valid_truthState_iff (t : TruthState) :
    lax.truthStateFields.Valid t ↔ t.Admitted ∧ IsDatetime t.validAt := by
  simp only [truthStateFields, Fields.valid_via, Equiv.coe_fn_symm_mk, Fields.valid_opt, Fields.valid_req,
    Fields.valid_nil, valid_schemaVersion, Codec.valid_string, valid_icao24Codec, valid_datetimeCodec,
    valid_latitude, valid_longitude, valid_floatCodec, valid_atLeast, valid_bearing, true_and, and_true]
  constructor
  · rintro ⟨hi, hat, hlat, hlon, hs, ht⟩
    exact ⟨⟨hi, hlat, hlon, hs, ht⟩, hat⟩
  · rintro ⟨⟨hi, hlat, hlon, hs, ht⟩, hat⟩
    exact ⟨hi, hat, hlat, hlon, hs, ht⟩

end Lax

/-! ### The topics -/

/-- A lax mode that reads nothing but a field's own type. -/
def strictly : Lax := ⟨fun _ => none, fun _ => none, fun _ => none, fun _ => none⟩

/-- The topics of the system. -/
inductive Topic where | surveillanceReports | trackUpdates | alerts | simTruth
  deriving DecidableEq

namespace Topic

/-- `TOPIC_MODELS`. -/
def Model : Topic → Type
  | surveillanceReports => SurveillanceReport
  | trackUpdates => TrackUpdate
  | alerts => Alert
  | simTruth => TruthState

/-- The fields of a topic's model. -/
def fields (lax : Lax) : (topic : Topic) → Fields ℝ topic.Model
  | surveillanceReports => lax.surveillanceReportFields
  | trackUpdates => lax.trackUpdateFields
  | alerts => lax.alertFields
  | simTruth => lax.truthStateFields

/-- `model_validate_json` and `model_dump_json` of a topic's model. -/
def codec (lax : Lax) (topic : Topic) : Codec ℝ topic.Model := .model (topic.fields lax)

/-- What the validators of a topic's model accept; every instant is one a `datetime` can hold. -/
def Accepts : (topic : Topic) → topic.Model → Prop
  | surveillanceReports, r => r.Admitted ∧ IsDatetime r.observedAt
  | trackUpdates, u => u.Admitted ∧ IsDatetime u.updatedAt ∧ IsDatetime u.lastReportAt
  | alerts, a => a.Admitted
  | simTruth, t => t.Admitted ∧ IsDatetime t.validAt

variable {lax : Lax} {topic : Topic}

theorem valid_fields_iff (lax : Lax) : ∀ (topic : Topic) (m : topic.Model),
    (topic.fields lax).Valid m ↔ topic.Accepts m
  | surveillanceReports, r => lax.valid_surveillanceReport_iff r
  | trackUpdates, u => lax.valid_trackUpdate_iff u
  | alerts, a => lax.valid_alert_iff a
  | simTruth, t => lax.valid_truthState_iff t

/-- A message is read back as it was written exactly if the validators accept it. -/
theorem reads_back_iff (lax : Lax) (topic : Topic) (m : topic.Model) :
    (topic.codec lax).read ((topic.codec lax).write m) = .ok m ↔ topic.Accepts m := by
  rw [← valid_fields_iff lax]
  exact ⟨(topic.codec lax).valid_of_read _ m, (topic.codec lax).read_write m⟩

/-- What a consumer is told of an object it refuses. Each error is at a field of the model or at a name of the
    object; a field without a default that is missing is one of them, and so is a name that is no field. -/
theorem refusals_say_where (lax : Lax) (topic : Topic) (o : List (String × Json ℝ)) :
    (∀ es, (topic.codec lax).read (.obj o) = .error es → es ≠ [] ∧ ∀ e ∈ es,
      ∃ name, (name ∈ (topic.fields lax).names ∨ name ∈ o.map Prod.fst) ∧ ∃ rest, e.loc = .field name :: rest) ∧
    (∀ name ∈ (topic.fields lax).required, o.lookup name = none →
      ∃ es, (topic.codec lax).read (.obj o) = .error es ∧ ⟨[.field name], "missing", none⟩ ∈ es) ∧
    ∀ name ∈ o.map Prod.fst, name ∉ (topic.fields lax).names →
      ∃ es, (topic.codec lax).read (.obj o) = .error es ∧ ⟨[.field name], "extra_forbidden", none⟩ ∈ es := by
  refine ⟨fun es h => ⟨(topic.codec lax).failed _ es h, Codec.model_located h⟩, ?_, ?_⟩
  · exact fun name hname hlookup => Codec.model_missing hname hlookup
  · exact fun name hmem hname => Codec.model_unknown hmem hname

/-- A state of the exact truth. -/
def levelTruth : TruthState where
  icao24 := "a1b2c3"
  scenarioId := "level"
  simVersion := "acp-sim-v2"
  validAt := 0
  lat := 0
  lon := 0
  altitudeFt := 10000
  groundSpeedKt := 200
  trackDeg := 0
  verticalRateFpm := 0
  phase := "cruise"

theorem accepts_levelTruth : simTruth.Accepts levelTruth :=
  ⟨by constructor <;> norm_num [levelTruth]; decide, by decide⟩

/-- What a consumer reads, the validators accept, whatever was sent; and it stays what it is when it is sent
    on. -/
theorem reads_only_accepted (lax : Lax) (topic : Topic) (j : Json ℝ) (m : topic.Model)
    (h : (topic.codec lax).read j = .ok m) :
    topic.Accepts m ∧ (topic.codec lax).read ((topic.codec lax).write m) = .ok m := by
  have hvalid := (topic.codec lax).valid_of_read j m h
  exact ⟨(valid_fields_iff lax topic m).mp hvalid, (topic.codec lax).read_write m hvalid⟩

theorem reads_only_accepted_truth :
    simTruth.Accepts levelTruth ∧
      (simTruth.codec strictly).read ((simTruth.codec strictly).write levelTruth) = .ok levelTruth :=
  reads_only_accepted strictly simTruth ((simTruth.codec strictly).write levelTruth) levelTruth <|
    (simTruth.codec strictly).read_write _ ((valid_fields_iff strictly simTruth levelTruth).mpr accepts_levelTruth)

/-- Optional fields are a compatible addition for the consumers alone. A message of a producer that does not
    send some of the fields yet is read with their defaults; a message with a field the consumer does not
    know is rejected for that field, and for nothing else. -/
theorem additions_are_compatible_one_way (lax : Lax) (topic : Topic) (m : topic.Model) (h : topic.Accepts m) :
    (∀ keep : String → Bool,
      (∀ e ∈ (topic.fields lax).write m, keep e.1 = false → e ∈ (topic.fields lax).defaults) →
      (topic.codec lax).read (.obj (((topic.fields lax).write m).filter fun e => keep e.1)) = .ok m) ∧
    ∀ name ∉ (topic.fields lax).names, ∀ j,
      (topic.codec lax).read (.obj ((name, j) :: (topic.fields lax).write m)) =
        .error [⟨[.field name], "extra_forbidden", none⟩] := by
  have hvalid := (valid_fields_iff lax topic m).mpr h
  exact ⟨fun keep hkeep => Codec.model_sparse hvalid keep hkeep,
    fun name hname j => Codec.model_added hvalid hname j⟩

theorem additions_are_compatible_one_way_truth :
    (∀ keep : String → Bool,
      (∀ e ∈ (simTruth.fields strictly).write levelTruth,
        keep e.1 = false → e ∈ (simTruth.fields strictly).defaults) →
      (simTruth.codec strictly).read
        (.obj (((simTruth.fields strictly).write levelTruth).filter fun e => keep e.1)) = .ok levelTruth) ∧
    ∀ name ∉ (simTruth.fields strictly).names, ∀ j,
      (simTruth.codec strictly).read (.obj ((name, j) :: (simTruth.fields strictly).write levelTruth)) =
        .error [⟨[.field name], "extra_forbidden", none⟩] :=
  additions_are_compatible_one_way strictly simTruth levelTruth accepts_levelTruth

end Topic

end

end Airspace
