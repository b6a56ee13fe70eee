import Airspace.Lib.Numerals
import Mathlib.Analysis.SpecialFunctions.Sqrt
import Mathlib.Tactic.Linarith
import Mathlib.Tactic.FieldSimp

/-! Where a quadratic or an affine function of one real variable stays below a bound.

    The sign of a quadratic is read off the completed square, the sign of an affine function off its
    slope. Both are stated as equivalences with membership of an open interval, which is the form in
    which an interval intersection can be decided. Minima over a closed interval are taken at the
    vertex clamped to the interval. -/

namespace Airspace

/-- The completed square. -/
theorem four_mul_quadratic (a b c t : ℝ) :
    4 * a * (a * t ^ 2 + b * t + c) = (2 * a * t + b) ^ 2 - (b * b - 4 * a * c) := by ring

/-- A convex quadratic without two roots is nowhere negative. -/
theorem quadratic_nonneg {a b c : ℝ} (ha : 0 < a) (hd : b * b - 4 * a * c ≤ 0) (t : ℝ) :
    0 ≤ a * t ^ 2 + b * t + c := by
  have h : 0 ≤ 4 * a * (a * t ^ 2 + b * t + c) := by
    rw [four_mul_quadratic]; nlinarith [sq_nonneg (2 * a * t + b)]
  exact nonneg_of_mul_nonneg_right h (by linarith)

/-- A convex quadratic with two roots is negative exactly strictly between them. -/
theorem quadratic_neg_iff {a b c : ℝ} (ha : 0 < a) (hd : 0 < b * b - 4 * a * c) (t : ℝ) :
    a * t ^ 2 + b * t + c < 0 ↔
      (-b - √(b * b - 4 * a * c)) / (2 * a) < t ∧ t < (-b + √(b * b - 4 * a * c)) / (2 * a) := by
  have hsq : √(b * b - 4 * a * c) ^ 2 = b * b - 4 * a * c := Real.sq_sqrt hd.le
  have hneg : a * t ^ 2 + b * t + c < 0 ↔ (2 * a * t + b) ^ 2 < √(b * b - 4 * a * c) ^ 2 := by
    rw [hsq]
    have h4 := four_mul_quadratic a b c t
    constructor
    · intro h
      have := mul_neg_of_pos_of_neg (by linarith : 0 < 4 * a) h
      linarith
    · intro h
      by_contra hc
      have := mul_nonneg (by linarith : 0 ≤ 4 * a) (not_lt.mp hc)
      linarith
  rw [hneg, sq_lt_sq, abs_of_nonneg (Real.sqrt_nonneg _), abs_lt, div_lt_iff₀ (by linarith),
    lt_div_iff₀ (by linarith)]
  constructor
  · rintro ⟨h1, h2⟩; exact ⟨by linarith, by linarith⟩
  · rintro ⟨h1, h2⟩; exact ⟨by linarith, by linarith⟩

/-- An affine function of nonzero slope is within `±l` exactly between the two crossings. -/
theorem affine_within_iff {o r l : ℝ} (hr : r ≠ 0) (hl : 0 < l) (t : ℝ) :
    |o + r * t| < l ↔ min ((-l - o) / r) ((l - o) / r) < t ∧ t < max ((-l - o) / r) ((l - o) / r) := by
  rw [abs_lt]
  rcases lt_or_gt_of_ne hr with hneg | hpos
  · have hle : (l - o) / r ≤ (-l - o) / r := by
      rw [div_le_div_right_of_neg hneg]; linarith
    rw [min_eq_right hle, max_eq_left hle, div_lt_iff_of_neg hneg, lt_div_iff_of_neg hneg]
    constructor
    · rintro ⟨h1, h2⟩; exact ⟨by linarith, by linarith⟩
    · rintro ⟨h1, h2⟩; exact ⟨by linarith, by linarith⟩
  · have hle : (-l - o) / r ≤ (l - o) / r := by
      rw [div_le_div_iff_of_pos_right hpos]; linarith
    rw [min_eq_left hle, max_eq_right hle, div_lt_iff₀ hpos, lt_div_iff₀ hpos]
    constructor
    · rintro ⟨h1, h2⟩; exact ⟨by linarith, by linarith⟩
    · rintro ⟨h1, h2⟩; exact ⟨by linarith, by linarith⟩

/-- An affine function changes by at most its slope times the elapsed time. -/
theorem abs_affine_ge {o r t h : ℝ} (h0 : 0 ≤ t) (hh : t ≤ h) : |o| - |r| * h ≤ |o + r * t| := by
  have h1 : |o| ≤ |o + r * t| + |r * t| := by
    have := abs_sub (o + r * t) (r * t)
    simpa using this
  have h2 : |r * t| ≤ |r| * h := by
    rw [abs_mul, abs_of_nonneg h0]
    exact mul_le_mul_of_nonneg_left hh (abs_nonneg r)
  linarith

/-- Between two instants within `±l` an affine function stays within it. -/
theorem abs_affine_between {o r l x y z : ℝ} (hx : |o + r * x| < l) (hz : |o + r * z| < l)
    (hxy : x ≤ y) (hyz : y ≤ z) : |o + r * y| < l := by
  rw [abs_lt] at hx hz ⊢
  rcases le_total 0 r with hr | hr
  · have h1 := mul_le_mul_of_nonneg_left hxy hr
    have h2 := mul_le_mul_of_nonneg_left hyz hr
    constructor <;> linarith
  · have h1 := mul_le_mul_of_nonpos_left hxy hr
    have h2 := mul_le_mul_of_nonpos_left hyz hr
    constructor <;> linarith

/-- Where it does not vanish inside the interval, the absolute value of an affine function is least at
    one of the ends. -/
theorem abs_affine_ge_ends {o r lo hi t : ℝ} (hne : ∀ u, lo < u → u < hi → r = 0 ∨ o + r * u ≠ 0)
    (hlo : lo ≤ t) (hhi : t ≤ hi) : min |o + r * lo| |o + r * hi| ≤ |o + r * t| := by
  rcases eq_or_ne r 0 with rfl | hr
  · simp
  -- opposite signs at the ends would put a zero strictly inside
  have hsign : 0 ≤ (o + r * lo) * (o + r * hi) := by
    by_contra hneg
    have hz : o + r * (-o / r) = 0 := by field_simp; ring
    have h1 : o + r * lo = r * (lo - -o / r) := by linarith
    have h2 : o + r * hi = r * (hi - -o / r) := by linarith
    have h3 : (lo - -o / r) * (hi - -o / r) < 0 := by
      rw [h1, h2] at hneg
      have hrr : 0 < r * r := mul_self_pos.mpr hr
      nlinarith
    have hin : lo < -o / r ∧ -o / r < hi := by constructor <;> nlinarith
    rcases hne _ hin.1 hin.2 with h | h
    · exact hr h
    · exact h hz
  rcases mul_nonneg_iff.mp hsign with ⟨ha, hb⟩ | ⟨ha, hb⟩
  · rw [abs_of_nonneg ha, abs_of_nonneg hb]
    refine le_trans ?_ (le_abs_self _)
    rcases le_total 0 r with h | h
    · exact (min_le_left _ _).trans (by nlinarith)
    · exact (min_le_right _ _).trans (by nlinarith)
  · rw [abs_of_nonpos ha, abs_of_nonpos hb]
    refine le_trans ?_ (neg_le_abs _)
    rcases le_total 0 r with h | h
    · exact (min_le_right _ _).trans (by nlinarith)
    · exact (min_le_left _ _).trans (by nlinarith)

/-- Over a closed interval a convex quadratic is least at its vertex clamped to the interval. -/
theorem quadratic_clamp_le {a b c lo hi t : ℝ} (ha : 0 < a) (hlo : lo ≤ t) (hhi : t ≤ hi) :
    a * max lo (min hi (-b / (2 * a))) ^ 2 + b * max lo (min hi (-b / (2 * a))) + c ≤
      a * t ^ 2 + b * t + c := by
  set v := -b / (2 * a) with hv
  have hb : b = -(2 * a * v) := by rw [hv]; field_simp
  have hdist : (max lo (min hi v) - v) ^ 2 ≤ (t - v) ^ 2 := by
    rcases le_total hi v with h1 | h1
    · rw [min_eq_left h1, max_eq_right (hlo.trans hhi)]; nlinarith
    · rw [min_eq_right h1]
      rcases le_total lo v with h2 | h2
      · rw [max_eq_right h2]; nlinarith [sq_nonneg (t - v)]
      · rw [max_eq_left h2]; nlinarith
  have := mul_le_mul_of_nonneg_left hdist ha.le
  rw [hb]; nlinarith

/-- Clamping first to an outer interval and then to an inner one is clamping to the inner one. -/
theorem clamp_clamp {lo hi olo ohi x : ℝ} (h : lo ≤ hi) (hlo : olo ≤ lo) (hhi : hi ≤ ohi) :
    max lo (min hi (max olo (min ohi x))) = max lo (min hi x) := by
  rcases le_total x ohi with h1 | h1
  · rw [min_eq_right h1]
    rcases le_total olo x with h2 | h2
    · rw [max_eq_right h2]
    · rw [max_eq_left h2, min_eq_right (by linarith : olo ≤ hi), max_eq_left hlo,
        min_eq_right (by linarith), max_eq_left (by linarith)]
  · rw [min_eq_left h1, max_eq_right (by linarith : olo ≤ ohi), min_eq_left hhi,
      min_eq_left (by linarith)]

end Airspace
