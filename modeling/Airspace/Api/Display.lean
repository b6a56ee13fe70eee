import Airspace.Common.Geodesy
import Mathlib.Analysis.SpecialFunctions.Trigonometric.Basic

/-! The projection of the browser display (`acp/services/api/static/app.js`).

    `toLocal` writes the formula of `to_local_enu` in JavaScript, whose remainder takes the sign of the
    dividend where Python's takes the sign of the divisor. A longitude difference below -180 leaves a
    negative dividend, and only there the display does not take the shortest way round. -/

namespace Airspace

noncomputable section

/-- The integral part of a quotient, towards zero. -/
def truncate (q : ℝ) : ℤ := if 0 ≤ q then ⌊q⌋ else ⌈q⌉

/-- `x % y` in JavaScript. -/
def jsRem (x y : ℝ) : ℝ := x - y * truncate (x / y)

/-- `EARTH_RADIUS_NM` of the display. -/
def displayEarthRadiusNm : ℝ := 3440.0695

/-- `toLocal`: the `(east, north)` of a point about the reference of the view. -/
def toLocal (refLat refLon lat lon : ℝ) : ℝ × ℝ :=
  let dLon := jsRem (lon - refLon + 180) 360 - 180
  let meanLat := (refLat + lat) / 2 * Real.pi / 180
  (dLon * Real.pi / 180 * Real.cos meanLat * displayEarthRadiusNm,
    (lat - refLat) * Real.pi / 180 * displayEarthRadiusNm)

variable {x y refLat refLon lat lon : ℝ}

/-- The two remainders agree on a dividend that is not negative. -/
theorem jsRem_eq_pyMod (hy : 0 < y) (hx : 0 ≤ x) : jsRem x y = pyMod x y := by
  rw [jsRem, pyMod, truncate, if_pos (div_nonneg hx hy.le)]

/-- A negative dividend above the negated divisor is its own remainder in JavaScript. -/
theorem jsRem_eq_self (hx : x < 0) (hxy : -y < x) : jsRem x y = x := by
  have hy : 0 < y := by linarith
  have hceil : ⌈x / y⌉ = 0 := by
    rw [Int.ceil_eq_zero_iff]
    refine ⟨?_, (div_neg_of_neg_of_pos hx hy).le⟩
    rw [lt_div_iff₀ hy]
    linarith
  rw [jsRem, truncate, if_neg (not_le.mpr (div_neg_of_neg_of_pos hx hy)), hceil]
  simp

/-- Python adds the divisor to it. -/
theorem pyMod_eq_add (hx : x < 0) (hxy : -y < x) : pyMod x y = x + y := by
  have hy : 0 < y := by linarith
  have hshift := pyMod_add_mul x hy 1
  rw [Int.cast_one, one_mul] at hshift
  rw [← hshift, pyMod_eq_self (by linarith) (by linarith)]

/-- The mean of two latitudes has no cosine exactly at the poles. -/
theorem cos_mean_eq_zero_iff (href : -90 ≤ refLat ∧ refLat ≤ 90) (hlat : -90 ≤ lat ∧ lat ≤ 90) :
    Real.cos (radians ((refLat + lat) / 2)) = 0 ↔ refLat = lat ∧ |lat| = 90 := by
  have hpi := Real.pi_pos
  constructor
  · intro hcos
    have hbound : |(refLat + lat) / 2| ≤ 90 := abs_le.mpr ⟨by linarith, by linarith⟩
    by_cases hinside : |(refLat + lat) / 2| < 90
    · refine absurd hcos (Real.cos_pos_of_mem_Ioo ⟨?_, ?_⟩).ne'
      · have := (abs_lt.mp hinside).1
        unfold radians
        rw [lt_div_iff₀ (by norm_num)]
        nlinarith
      · have := (abs_lt.mp hinside).2
        unfold radians
        rw [div_lt_iff₀ (by norm_num)]
        nlinarith
    · have hpole : |(refLat + lat) / 2| = 90 := le_antisymm hbound (not_lt.mp hinside)
      rcases (abs_eq (by norm_num)).mp hpole with h | h
      · obtain rfl : lat = 90 := by linarith
        exact ⟨by linarith, by norm_num⟩
      · obtain rfl : lat = -90 := by linarith
        exact ⟨by linarith, by norm_num⟩
  · rintro ⟨rfl, hpole⟩
    rcases (abs_eq (by norm_num)).mp hpole with rfl | rfl
    · rw [show radians ((90 + 90) / 2) = Real.pi / 2 by unfold radians; ring, Real.cos_pi_div_two]
    · rw [show radians ((-90 + -90) / 2) = -(Real.pi / 2) by unfold radians; ring, Real.cos_neg,
        Real.cos_pi_div_two]

/-- The display projects a point as the backend does exactly when its longitude is not more than 180
    degrees west of the reference's, or both are at one pole. -/
theorem display_projection_agrees_iff (hrefLat : -90 ≤ refLat ∧ refLat ≤ 90)
    (hrefLon : -180 ≤ refLon ∧ refLon ≤ 180) (hlat : -90 ≤ lat ∧ lat ≤ 90)
    (hlon : -180 ≤ lon ∧ lon ≤ 180) :
    toLocal refLat refLon lat lon = toLocalEnu refLat refLon lat lon ↔
      -180 ≤ lon - refLon ∨ refLat = lat ∧ |lat| = 90 := by
  have hnorth : (toLocal refLat refLon lat lon).2 = (toLocalEnu refLat refLon lat lon).2 := rfl
  rw [Prod.ext_iff, and_iff_left hnorth]
  by_cases hwest : -180 ≤ lon - refLon
  · refine iff_of_true ?_ (.inl hwest)
    change (jsRem _ _ - 180) * _ / _ * _ * _ = _
    rw [jsRem_eq_pyMod (by norm_num) (by linarith)]
    rfl
  · rw [or_iff_right hwest, ← cos_mean_eq_zero_iff hrefLat hlat]
    have hneg : lon - refLon + 180 < 0 := by linarith
    have hpos : -360 < lon - refLon + 180 := by linarith
    change (jsRem _ _ - 180) * Real.pi / 180 * Real.cos (radians ((refLat + lat) / 2)) * earthRadiusNm =
      (pyMod _ _ - 180) * Real.pi / 180 * _ * _ ↔ _
    rw [jsRem_eq_self hneg hpos, pyMod_eq_add hneg hpos]
    have hradius : earthRadiusNm ≠ 0 := by norm_num [earthRadiusNm]
    have hpi := Real.pi_ne_zero
    constructor
    · intro heq
      have hturn : 2 * Real.pi * Real.cos (radians ((refLat + lat) / 2)) * earthRadiusNm = 0 := by
        linear_combination -heq
      simpa [hradius, hpi] using hturn
    · intro hcos
      rw [hcos]
      ring

/-- A point two degrees west of a reference east of Greenwich. -/
theorem display_projection_agrees_iff_near : toLocal 40 2 41 0 = toLocalEnu 40 2 41 0 :=
  (display_projection_agrees_iff (by norm_num) (by norm_num) (by norm_num) (by norm_num)).mpr
    (.inl (by norm_num))

/-- Two degrees east across the antimeridian is drawn 358 degrees west. -/
theorem display_draws_antimeridian_neighbour_far_off :
    toLocal 0 179 0 (-179) ≠ toLocalEnu 0 179 0 (-179) ∧
    toLocal 0 179 0 (-179) = (-358 * Real.pi / 180 * displayEarthRadiusNm, 0) ∧
    toLocalEnu 0 179 0 (-179) = (2 * Real.pi / 180 * earthRadiusNm, 0) := by
  have hdisplay : toLocal 0 179 0 (-179) = (-358 * Real.pi / 180 * displayEarthRadiusNm, 0) := by
    simp only [toLocal]
    rw [jsRem_eq_self (by norm_num) (by norm_num)]
    norm_num
  have hbackend : toLocalEnu 0 179 0 (-179) = (2 * Real.pi / 180 * earthRadiusNm, 0) := by
    simp only [toLocalEnu, wrapLongitude, radians]
    rw [pyMod_eq_add (by norm_num) (by norm_num)]
    norm_num
  refine ⟨?_, hdisplay, hbackend⟩
  rw [hdisplay, hbackend, Ne, Prod.mk.injEq, not_and]
  intro heast
  have hpi := Real.pi_pos
  have hsame : displayEarthRadiusNm = earthRadiusNm := rfl
  have hradius : 0 < earthRadiusNm := by norm_num [earthRadiusNm]
  rw [hsame] at heast
  nlinarith [mul_pos hpi hradius]

end

end Airspace
