import Airspace.Lib.Quadratic
import Mathlib.Topology.Order.DenselyOrdered
import Mathlib.Topology.Instances.Real.Lemmas

/-! Straight-line relative motion of two bodies in the plane, with an independent vertical axis.

    The horizontal separation at time `t` is the norm of an affine function, so its square is a convex
    quadratic; the vertical separation is the absolute value of an affine function. The abstract
    question is which instants of a horizon breach both of two standards at once; the set of those
    instants is squeezed between an open interval and its closure, which fixes its closure and the
    minima over it. -/

namespace Airspace

/-- Position and velocity of one body relative to another. -/
structure RelativeMotion where
  east : ℝ
  north : ℝ
  vEast : ℝ
  vNorth : ℝ
  up : ℝ
  vUp : ℝ

namespace RelativeMotion

noncomputable section

variable (r : RelativeMotion)

/-- Horizontal distance at time `t`. -/
def horizontalAt (t : ℝ) : ℝ := √((r.east + r.vEast * t) ^ 2 + (r.north + r.vNorth * t) ^ 2)

/-- Vertical distance at time `t`. -/
def verticalAt (t : ℝ) : ℝ := |r.up + r.vUp * t|

/-- Square of the relative horizontal speed. -/
def speedSq : ℝ := r.vEast ^ 2 + r.vNorth ^ 2

/-- Inner product of relative position and velocity; negative while the bodies converge. -/
def opening : ℝ := r.east * r.vEast + r.north * r.vNorth

/-- Square of the present horizontal distance. -/
def rangeSq : ℝ := r.east ^ 2 + r.north ^ 2

/-- The instants of `[0, h]` at which both standards are breached at once. -/
def breach (s v h : ℝ) : Set ℝ := {t | 0 ≤ t ∧ t ≤ h ∧ r.horizontalAt t < s ∧ r.verticalAt t < v}

/-- The motion as the other body sees it. -/
def swap : RelativeMotion := ⟨-r.east, -r.north, -r.vEast, -r.vNorth, -r.up, -r.vUp⟩

variable {r}

theorem speedSq_nonneg : 0 ≤ r.speedSq := add_nonneg (sq_nonneg _) (sq_nonneg _)

theorem rangeSq_nonneg : 0 ≤ r.rangeSq := add_nonneg (sq_nonneg _) (sq_nonneg _)

theorem horizontalAt_nonneg (t : ℝ) : 0 ≤ r.horizontalAt t := Real.sqrt_nonneg _

theorem horizontalAt_sq (t : ℝ) :
    r.horizontalAt t ^ 2 = r.speedSq * t ^ 2 + 2 * r.opening * t + r.rangeSq := by
  rw [horizontalAt, Real.sq_sqrt (add_nonneg (sq_nonneg _) (sq_nonneg _)), speedSq, opening, rangeSq]
  ring

/-- The horizontal standard is breached where a quadratic is negative. -/
theorem horizontalAt_lt_iff {s : ℝ} (hs : 0 < s) (t : ℝ) :
    r.horizontalAt t < s ↔ r.speedSq * t ^ 2 + 2 * r.opening * t + (r.rangeSq - s ^ 2) < 0 := by
  rw [← abs_of_nonneg (horizontalAt_nonneg t), ← abs_of_nonneg hs.le, ← sq_lt_sq, horizontalAt_sq,
    abs_of_nonneg hs.le]
  constructor <;> intro h <;> linarith

/-- Without relative speed neither the opening rate nor the distance changes. -/
theorem opening_eq_zero (h : r.speedSq = 0) : r.opening = 0 := by
  have he : r.vEast = 0 := by unfold speedSq at h; nlinarith [sq_nonneg r.vEast, sq_nonneg r.vNorth]
  have hn : r.vNorth = 0 := by unfold speedSq at h; nlinarith [sq_nonneg r.vEast, sq_nonneg r.vNorth]
  rw [opening, he, hn]; ring

theorem opening_sq_le : r.opening ^ 2 ≤ r.rangeSq * r.speedSq := by
  unfold opening rangeSq speedSq
  nlinarith [sq_nonneg (r.east * r.vNorth - r.north * r.vEast)]

/-- The distance covered by the relative motion bounds the change of the horizontal distance. -/
theorem sqrt_rangeSq_le {t h : ℝ} (h0 : 0 ≤ t) (hh : t ≤ h) :
    √r.rangeSq ≤ r.horizontalAt t + √r.speedSq * h := by
  have hw : 0 ≤ √r.speedSq := Real.sqrt_nonneg _
  have hle : √r.rangeSq ≤ r.horizontalAt t + √r.speedSq * t := by
    refine Real.sqrt_le_iff.mpr ⟨add_nonneg (horizontalAt_nonneg t) (mul_nonneg hw h0), ?_⟩
    have hcs : |r.speedSq * t + r.opening| ≤ √r.speedSq * r.horizontalAt t := by
      refine abs_le_of_sq_le_sq ?_ (mul_nonneg hw (horizontalAt_nonneg t))
      rw [mul_pow, Real.sq_sqrt speedSq_nonneg, horizontalAt_sq]
      nlinarith [opening_sq_le (r := r)]
    have hsq := horizontalAt_sq (r := r) t
    have hspeed := Real.sq_sqrt (speedSq_nonneg (r := r))
    have := mul_le_mul_of_nonneg_right (abs_le.mp hcs).1 h0
    nlinarith
  exact hle.trans (by have := mul_le_mul_of_nonneg_left hh hw; linarith)

@[simp] theorem horizontalAt_swap (t : ℝ) : r.swap.horizontalAt t = r.horizontalAt t := by
  unfold horizontalAt swap; congr 1; ring

@[simp] theorem verticalAt_swap (t : ℝ) : r.swap.verticalAt t = r.verticalAt t := by
  unfold verticalAt swap
  rw [← abs_neg]; congr 1; ring

@[simp] theorem speedSq_swap : r.swap.speedSq = r.speedSq := by unfold speedSq swap; ring

@[simp] theorem opening_swap : r.swap.opening = r.opening := by unfold opening swap; ring

@[simp] theorem rangeSq_swap : r.swap.rangeSq = r.rangeSq := by unfold rangeSq swap; ring

/-! ### The breach set between an open interval and its closure -/

/-- A set squeezed between an open interval and its closure has the closed interval as closure. -/
theorem closure_of_squeezed {w : Set ℝ} {lo hi : ℝ} (h : lo < hi) (h1 : Set.Ioo lo hi ⊆ w)
    (h2 : w ⊆ Set.Icc lo hi) : closure w = Set.Icc lo hi := by
  refine Set.Subset.antisymm (closure_minimal h2 isClosed_Icc) ?_
  rw [← closure_Ioo h.ne]
  exact closure_mono h1

theorem continuous_verticalAt : Continuous r.verticalAt := by
  unfold verticalAt; fun_prop

/-- A minimum of a continuous function over the closed interval is its infimum over a squeezed set. -/
theorem isGLB_of_squeezed {w : Set ℝ} {lo hi m : ℝ} {f : ℝ → ℝ} (hf : Continuous f) (h : lo < hi)
    (h1 : Set.Ioo lo hi ⊆ w) (h2 : w ⊆ Set.Icc lo hi) (hm : IsLeast (f '' Set.Icc lo hi) m) :
    IsGLB (f '' w) m := by
  refine ⟨fun y hy => hm.2 (Set.image_mono h2 hy), fun b hb => ?_⟩
  have hclosed : IsClosed {t | b ≤ f t} := isClosed_le continuous_const hf
  have hsub : closure w ⊆ {t | b ≤ f t} :=
    closure_minimal (fun t ht => hb (Set.mem_image_of_mem f ht)) hclosed
  rw [closure_of_squeezed h h1 h2] at hsub
  obtain ⟨t, ht, rfl⟩ := hm.1
  exact hsub ht

end

end RelativeMotion

end Airspace
