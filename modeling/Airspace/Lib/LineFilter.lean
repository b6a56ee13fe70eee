import Mathlib.Data.Real.Basic
import Mathlib.Tactic.FieldSimp
import Mathlib.Tactic.Linarith
import Mathlib.Tactic.LinearCombination
import Mathlib.Tactic.Positivity
import Mathlib.Tactic.Ring

/-! A constant-velocity filter on a line.

    The state is a position and a velocity with their covariance. A prediction over a time in which a unit
    of velocity moves the position by `t`, and an unknown acceleration of variance `q` moves the two by `g`
    and `d`, stretches the covariance. A correction measures the position with variance `r`, and perhaps
    the velocity with variance `s`; its gains on the position solve the normal equations.

        a (pp + r) + b pv = pp        a pv + b (vv + s) = pv -/

namespace Airspace

noncomputable section

/-- A position and a velocity with their covariance. -/
structure LineFilter where
  position : ℝ
  velocity : ℝ
  pp : ℝ
  pv : ℝ
  vv : ℝ

namespace LineFilter

variable (f : LineFilter)

def predict (t g d q : ℝ) : LineFilter where
  position := f.position + t * f.velocity
  velocity := f.velocity
  pp := f.pp + 2 * t * f.pv + t ^ 2 * f.vv + g * g * q
  pv := f.pv + t * f.vv + g * d * q
  vv := f.vv + d * d * q

/-- The gain of a measured position alone. -/
def gain (r : ℝ) : ℝ := f.pp / (f.pp + r)

/-- The determinant of the innovation covariance of a measured position and velocity. -/
def innovationDet (r s : ℝ) : ℝ := (f.pp + r) * (f.vv + s) - f.pv ^ 2

/-- The gains of a measured position and velocity on the position. -/
def gains (r s : ℝ) : ℝ × ℝ :=
  ((f.pp * (f.vv + s) - f.pv ^ 2) / f.innovationDet r s, r * f.pv / f.innovationDet r s)

/-- The position a measured position corrects to. -/
def corrected (r z : ℝ) : ℝ := f.position + f.gain r * (z - f.position)

/-- The position a measured position and velocity correct to. -/
def correctedBoth (r s z w : ℝ) : ℝ :=
  f.position + ((f.gains r s).1 * (z - f.position) + (f.gains r s).2 * (w - f.velocity))

variable {f} {r s : ℝ}

theorem gain_solves (hp : 0 < f.pp) (hr : 0 < r) : f.gain r * (f.pp + r) = f.pp :=
  div_mul_cancel₀ _ (by positivity)

theorem innovationDet_pos (hp : 0 < f.pp) (hv : 0 < f.vv) (hdet : f.pv ^ 2 < f.pp * f.vv) (hr : 0 < r)
    (hs : 0 < s) : 0 < f.innovationDet r s := by
  have hps := mul_pos hp hs
  have hrv := mul_pos hr hv
  have hrs := mul_pos hr hs
  unfold innovationDet
  linarith

theorem gains_solve (h : 0 < f.innovationDet r s) :
    (f.gains r s).1 * (f.pp + r) + (f.gains r s).2 * f.pv = f.pp ∧
      (f.gains r s).1 * f.pv + (f.gains r s).2 * (f.vv + s) = f.pv := by
  have hne := h.ne'
  simp only [gains]
  constructor <;> field_simp <;> unfold innovationDet <;> ring

/-! ### Uncertainty

    A prediction can shrink the variance of the position only where position and velocity are
    anticorrelated. Neither a prediction nor a correction makes them so. -/

variable {t g d q : ℝ}

theorem predict_pv_nonneg (hpv : 0 ≤ f.pv) (hvv : 0 ≤ f.vv) (ht : 0 ≤ t) (hg : 0 ≤ g) (hd : 0 ≤ d)
    (hq : 0 ≤ q) : 0 ≤ (f.predict t g d q).pv := by
  unfold predict
  positivity

theorem pp_le_predict (hpv : 0 ≤ f.pv) (hvv : 0 ≤ f.vv) (ht : 0 ≤ t) (hq : 0 ≤ q) :
    f.pp ≤ (f.predict t g d q).pp := by
  have hcross : 0 ≤ 2 * t * f.pv := by positivity
  have hrate : 0 ≤ t ^ 2 * f.vv := by positivity
  have hnoise : 0 ≤ g * g * q := mul_nonneg (mul_self_nonneg g) hq
  unfold predict
  linarith

theorem vv_le_predict (hq : 0 ≤ q) : f.vv ≤ (f.predict t g d q).vv :=
  le_add_of_nonneg_right (mul_nonneg (mul_self_nonneg d) hq)

/-- Information `d` on the position and `e` on the velocity keeps the sign of their correlation. -/
theorem pv_nonneg_of_information {f' : LineFilter} {e : ℝ} (hpp : 0 ≤ f.pp) (hvv : 0 ≤ f.vv)
    (hdet : f.pv ^ 2 ≤ f.pp * f.vv) (hpv : 0 ≤ f.pv) (hd : 0 ≤ d) (he : 0 ≤ e)
    (hposition : f'.pp * (1 + d * f.pp) + f'.pv * (e * f.pv) = f.pp)
    (hvelocity : f'.pp * (d * f.pv) + f'.pv * (1 + e * f.vv) = f.pv) : 0 ≤ f'.pv := by
  have hfactor : 0 < 1 + d * f.pp + e * f.vv + d * e * (f.pp * f.vv - f.pv ^ 2) := by
    have hrest := sub_nonneg.mpr hdet
    positivity
  have hsolved : f'.pv * (1 + d * f.pp + e * f.vv + d * e * (f.pp * f.vv - f.pv ^ 2)) = f.pv := by
    linear_combination (1 + d * f.pp) * hvelocity - d * f.pv * hposition
  exact nonneg_of_mul_nonneg_left (hpv.trans hsolved.ge) hfactor

end LineFilter

end

end Airspace
