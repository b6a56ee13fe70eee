import Airspace.Lib.Numerals
import Mathlib.Analysis.SpecialFunctions.Trigonometric.Angle
import Mathlib.Analysis.SpecialFunctions.Trigonometric.Inverse
import Mathlib.Tactic.LinearCombination

/-! Directions on the unit sphere.

    A direction is written in the frame of an observer at some latitude: how far it points up, north and
    east. It is given by the place one would reach, or by a bearing and a central angle travelled along it.
    Away from the poles each of the two determines the other. Angles are in radians. -/

namespace Airspace

noncomputable section

/-- A unit vector in an observer's frame. -/
@[ext] structure Direction where
  up : ℝ
  north : ℝ
  east : ℝ
  unit : up ^ 2 + north ^ 2 + east ^ 2 = 1

namespace Direction

variable {φ ψ ψ' l l' δ δ' θ θ' : ℝ}

/-- Where an observer at latitude `φ` sees the place at latitude `ψ` and `l` further east. -/
def seenFrom (φ ψ l : ℝ) : Direction where
  up := Real.sin φ * Real.sin ψ + Real.cos φ * Real.cos ψ * Real.cos l
  north := Real.cos φ * Real.sin ψ - Real.sin φ * Real.cos ψ * Real.cos l
  east := Real.sin l * Real.cos ψ
  unit := by
    linear_combination (Real.sin ψ ^ 2 + Real.cos ψ ^ 2 * Real.cos l ^ 2) * Real.sin_sq_add_cos_sq φ +
      Real.cos ψ ^ 2 * Real.sin_sq_add_cos_sq l + Real.sin_sq_add_cos_sq ψ

/-- The direction of the place a central angle `δ` away along the bearing `θ`. -/
def polar (δ θ : ℝ) : Direction where
  up := Real.cos δ
  north := Real.sin δ * Real.cos θ
  east := Real.sin θ * Real.sin δ
  unit := by
    linear_combination Real.sin δ ^ 2 * Real.sin_sq_add_cos_sq θ + Real.sin_sq_add_cos_sq δ

theorem polar_congr (δ : ℝ) (hcos : Real.cos θ = Real.cos θ') (hsin : Real.sin θ = Real.sin θ') :
    polar δ θ = polar δ θ' := by
  ext <;> simp only [polar, hcos, hsin]

theorem up_mem (d : Direction) : -1 ≤ d.up ∧ d.up ≤ 1 := by
  have hunit := d.unit
  constructor <;> nlinarith [sq_nonneg d.north, sq_nonneg d.east]

/-- The sine of the latitude of what is seen. -/
theorem sin_seenFrom (φ ψ l : ℝ) :
    Real.sin ψ = Real.sin φ * (seenFrom φ ψ l).up + Real.cos φ * (seenFrom φ ψ l).north := by
  simp only [seenFrom]
  linear_combination -Real.sin ψ * Real.sin_sq_add_cos_sq φ

/-- How far from the earth's axis it lies, towards the observer. -/
theorem cos_mul_cos_seenFrom (φ ψ l : ℝ) :
    Real.cos ψ * Real.cos l = Real.cos φ * (seenFrom φ ψ l).up - Real.sin φ * (seenFrom φ ψ l).north := by
  simp only [seenFrom]
  linear_combination -(Real.cos ψ * Real.cos l) * Real.sin_sq_add_cos_sq φ

/-- What is seen, by the sine of its latitude and by where it lies across the earth's axis. -/
theorem seenFrom_eq {d : Direction}
    (hsin : Real.sin ψ = Real.sin φ * d.up + Real.cos φ * d.north)
    (hcos : Real.cos ψ * Real.cos l = Real.cos φ * d.up - Real.sin φ * d.north)
    (heast : Real.cos ψ * Real.sin l = d.east) : seenFrom φ ψ l = d := by
  ext <;> simp only [seenFrom]
  · linear_combination Real.sin φ * hsin + Real.cos φ * hcos + d.up * Real.sin_sq_add_cos_sq φ
  · linear_combination Real.cos φ * hsin - Real.sin φ * hcos + d.north * Real.sin_sq_add_cos_sq φ
  · linear_combination heast

theorem seenFrom_add_turns (φ ψ l : ℝ) (n : ℤ) : seenFrom φ ψ (l + n * (2 * Real.pi)) = seenFrom φ ψ l := by
  ext <;> simp only [seenFrom, Real.cos_add_int_mul_two_pi, Real.sin_add_int_mul_two_pi]

/-- The sine of the latitude a direction leads to is a sine. -/
theorem sin_lat_mem (φ : ℝ) (d : Direction) :
    -1 ≤ Real.sin φ * d.up + Real.cos φ * d.north ∧ Real.sin φ * d.up + Real.cos φ * d.north ≤ 1 := by
  have hsq : (Real.sin φ * d.up + Real.cos φ * d.north) ^ 2 +
      (Real.cos φ * d.up - Real.sin φ * d.north) ^ 2 + d.east ^ 2 = 1 := by
    linear_combination (d.up ^ 2 + d.north ^ 2) * Real.sin_sq_add_cos_sq φ + d.unit
  constructor <;> nlinarith [sq_nonneg (Real.cos φ * d.up - Real.sin φ * d.north), sq_nonneg d.east]

/-- The place in a direction, off the poles: its latitude by the sine, its meridian by the angle of the two
    sides across the earth's axis. -/
theorem seenFrom_arcsin {d : Direction} {s x y : ℝ} (hφ : 0 < Real.cos φ)
    (hs : s = Real.sin φ * d.up + Real.cos φ * d.north) (hx : x = d.up - Real.sin φ * s)
    (hy : y = d.east * Real.cos φ) (hcos : √(x ^ 2 + y ^ 2) * Real.cos l = x)
    (hsin : √(x ^ 2 + y ^ 2) * Real.sin l = y) : seenFrom φ (Real.arcsin s) l = d := by
  obtain ⟨hlo, hhi⟩ := sin_lat_mem φ d
  rw [← hs] at hlo hhi
  have haxis : x = Real.cos φ * (Real.cos φ * d.up - Real.sin φ * d.north) := by
    rw [hx, hs]
    linear_combination -d.up * Real.sin_sq_add_cos_sq φ
  have hnorm : √(x ^ 2 + y ^ 2) = Real.cos φ * Real.cos (Real.arcsin s) := by
    have hsq : x ^ 2 + y ^ 2 = Real.cos φ ^ 2 * (1 - s ^ 2) := by
      rw [haxis, hy, hs]
      linear_combination Real.cos φ ^ 2 * (d.up ^ 2 + d.north ^ 2) * Real.sin_sq_add_cos_sq φ +
        Real.cos φ ^ 2 * d.unit
    rw [hsq, Real.sqrt_mul (sq_nonneg _), Real.sqrt_sq hφ.le, Real.cos_arcsin]
  rw [hnorm, mul_assoc] at hcos hsin
  refine seenFrom_eq ((Real.sin_arcsin hlo hhi).trans hs) ?_ ?_
  · exact mul_left_cancel₀ hφ.ne' (hcos.trans haxis)
  · exact mul_left_cancel₀ hφ.ne' ((hsin.trans hy).trans (mul_comm _ _))

/-- Angles with one cosine and one sine differ by whole turns. -/
theorem exists_turns (hcos : Real.cos θ = Real.cos θ') (hsin : Real.sin θ = Real.sin θ') :
    ∃ n : ℤ, θ = θ' + n * (2 * Real.pi) := by
  obtain ⟨n, hn⟩ := Real.Angle.angle_eq_iff_two_pi_dvd_sub.mp (Real.Angle.cos_sin_inj hcos hsin)
  exact ⟨n, by linear_combination hn⟩

/-- Two places in one direction are one place: the same latitude and, off the poles, the same meridian. -/
theorem seenFrom_inj (hψ : -(Real.pi / 2) < ψ ∧ ψ < Real.pi / 2)
    (hψ' : -(Real.pi / 2) ≤ ψ' ∧ ψ' ≤ Real.pi / 2) (h : seenFrom φ ψ l = seenFrom φ ψ' l') :
    ψ = ψ' ∧ ∃ n : ℤ, l = l' + n * (2 * Real.pi) := by
  have hsin : Real.sin ψ = Real.sin ψ' := by rw [sin_seenFrom φ ψ l, sin_seenFrom φ ψ' l', h]
  have hlat : ψ = ψ' := Real.injOn_sin ⟨hψ.1.le, hψ.2.le⟩ hψ' hsin
  have hpos : Real.cos ψ ≠ 0 := (Real.cos_pos_of_mem_Ioo hψ).ne'
  have hcos := (cos_mul_cos_seenFrom φ ψ l).trans (h ▸ (cos_mul_cos_seenFrom φ ψ' l').symm)
  have heast : Real.sin l * Real.cos ψ = Real.sin l' * Real.cos ψ' := congrArg Direction.east h
  rw [← hlat] at hcos heast
  exact ⟨hlat, exists_turns (mul_left_cancel₀ hpos hcos) (mul_right_cancel₀ hpos heast)⟩

/-- A direction short of the antipode determines the angle travelled and the bearing. -/
theorem polar_inj (hδ : 0 < δ ∧ δ < Real.pi) (hδ' : 0 ≤ δ' ∧ δ' ≤ Real.pi) (h : polar δ θ = polar δ' θ') :
    δ = δ' ∧ Real.cos θ = Real.cos θ' ∧ Real.sin θ = Real.sin θ' := by
  have hangle : δ = δ' := Real.injOn_cos ⟨hδ.1.le, hδ.2.le⟩ hδ' (congrArg Direction.up h)
  have hpos : Real.sin δ ≠ 0 := (Real.sin_pos_of_pos_of_lt_pi hδ.1 hδ.2).ne'
  have hnorth : Real.sin δ * Real.cos θ = Real.sin δ' * Real.cos θ' := congrArg Direction.north h
  have heast : Real.sin θ * Real.sin δ = Real.sin θ' * Real.sin δ' := congrArg Direction.east h
  rw [← hangle] at hnorth heast
  exact ⟨hangle, mul_left_cancel₀ hpos hnorth, mul_right_cancel₀ hpos heast⟩

/-- The haversine of the central angle to a place. -/
def hav (φ ψ l : ℝ) : ℝ :=
  Real.sin ((ψ - φ) / 2) ^ 2 + Real.cos φ * Real.cos ψ * Real.sin (l / 2) ^ 2

/-- The central angle to a place, between nothing and half a turn. -/
def centralAngle (φ ψ l : ℝ) : ℝ := 2 * Real.arcsin (min 1 √(hav φ ψ l))

theorem up_eq_one_sub_hav (φ ψ l : ℝ) : (seenFrom φ ψ l).up = 1 - 2 * hav φ ψ l := by
  have hhalf : ∀ x : ℝ, Real.sin (x / 2) ^ 2 = 1 / 2 - Real.cos x / 2 := by
    intro x
    rw [Real.sin_sq_eq_half_sub, mul_div_cancel₀ x two_ne_zero]
  simp only [hav, hhalf, Real.cos_sub, seenFrom]
  ring

theorem hav_mem (φ ψ l : ℝ) : 0 ≤ hav φ ψ l ∧ hav φ ψ l ≤ 1 := by
  obtain ⟨hlo, hhi⟩ := (seenFrom φ ψ l).up_mem
  rw [up_eq_one_sub_hav] at hlo hhi
  constructor <;> linarith

theorem centralAngle_mem (φ ψ l : ℝ) : 0 ≤ centralAngle φ ψ l ∧ centralAngle φ ψ l ≤ Real.pi := by
  have hlo : 0 ≤ Real.arcsin (min 1 √(hav φ ψ l)) :=
    Real.arcsin_nonneg.mpr (le_min zero_le_one (Real.sqrt_nonneg _))
  have hhi := Real.arcsin_le_pi_div_two (min 1 √(hav φ ψ l))
  unfold centralAngle
  constructor <;> linarith

theorem cos_centralAngle (φ ψ l : ℝ) : Real.cos (centralAngle φ ψ l) = (seenFrom φ ψ l).up := by
  obtain ⟨h0, h1⟩ := hav_mem φ ψ l
  have hroot : √(hav φ ψ l) ≤ 1 := Real.sqrt_le_one.mpr h1
  have hpos : -1 ≤ √(hav φ ψ l) := by linarith [Real.sqrt_nonneg (hav φ ψ l)]
  unfold centralAngle
  rw [min_eq_right hroot, Real.cos_two_mul, Real.cos_sq', Real.sin_arcsin hpos hroot, Real.sq_sqrt h0,
    up_eq_one_sub_hav]
  ring

/-- The sine of the central angle is how far aside of the observer's plumb line the place lies. -/
theorem sin_centralAngle (φ ψ l : ℝ) :
    Real.sin (centralAngle φ ψ l) = √((seenFrom φ ψ l).north ^ 2 + (seenFrom φ ψ l).east ^ 2) := by
  obtain ⟨h0, h1⟩ := centralAngle_mem φ ψ l
  rw [← Real.sqrt_sq (Real.sin_nonneg_of_nonneg_of_le_pi h0 h1), Real.sin_sq, cos_centralAngle]
  congr 1
  linear_combination -(seenFrom φ ψ l).unit

/-- A place is seen along the bearing that its north and east sides give, its central angle away. -/
theorem polar_centralAngle {φ ψ l θ : ℝ}
    (hnorth : Real.sin (centralAngle φ ψ l) * Real.cos θ = (seenFrom φ ψ l).north)
    (heast : Real.sin (centralAngle φ ψ l) * Real.sin θ = (seenFrom φ ψ l).east) :
    polar (centralAngle φ ψ l) θ = seenFrom φ ψ l := by
  ext
  · exact cos_centralAngle φ ψ l
  · exact hnorth
  · exact (mul_comm _ _).trans heast

end Direction

end

end Airspace
