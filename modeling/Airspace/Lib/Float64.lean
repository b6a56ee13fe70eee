import Mathlib.Analysis.SpecialFunctions.Sqrt
import Mathlib.Data.EReal.Inv

/-! Floating-point values without their rounding.

    A value is an exact number, one of the two infinities, or not a number. The operations give what IEEE 754
    gives for such values, the sign of a zero apart: an operation without an answer is not a number, and what
    is not a number stays so. -/

namespace Airspace

noncomputable section

open Classical

/-- An exact number or an infinity; nothing where it is not a number. -/
abbrev Float64 := Option EReal

namespace Float64

/-- A number as a float. -/
def of (x : ℝ) : Float64 := some (x : EReal)

/-- The number a float is, if it is finite. -/
def finite (x : Float64) : Option ℝ :=
  x.bind fun x => if x = ⊤ ∨ x = ⊥ then none else some x.toReal

/-- Nothing is left where an infinity is taken from itself. -/
def sub (x y : Float64) : Float64 :=
  if x = y ∧ (x = some ⊤ ∨ x = some ⊥) then none else x.bind fun x => y.map fun y => x - y

/-- An infinity has no multiple by zero. -/
def mul (x y : Float64) : Float64 :=
  x.bind fun x => y.bind fun y =>
    if (x = 0 ∧ (y = ⊤ ∨ y = ⊥)) ∨ ((x = ⊤ ∨ x = ⊥) ∧ y = 0) then none else some (x * y)

/-- An infinity does not divide an infinity, nor zero zero; zero divides the rest to an infinity. -/
def div (x y : Float64) : Float64 :=
  x.bind fun x => y.bind fun y =>
    if y = 0 then (if x = 0 then none else if 0 < x then some ⊤ else some ⊥)
    else if (x = ⊤ ∨ x = ⊥) ∧ (y = ⊤ ∨ y = ⊥) then none else some (x / y)

/-- `hypot`: infinite as soon as one side is, whatever the other is. -/
def hypot (x y : Float64) : Float64 :=
  if x = some ⊤ ∨ x = some ⊥ ∨ y = some ⊤ ∨ y = some ⊥ then some ⊤
  else x.bind fun x => y.map fun y => (√(x.toReal ^ 2 + y.toReal ^ 2) : EReal)

/-- A comparison, which nothing that is not a number passes. -/
def Compare (r : EReal → EReal → Prop) (x y : Float64) : Prop := ∃ a ∈ x, ∃ b ∈ y, r a b

variable {x y : ℝ}

@[simp] theorem of_inj : of x = of y ↔ x = y := by simp [of]

@[simp] theorem finite_of (x : ℝ) : finite (of x) = some x := by simp [finite, of]

theorem sub_of (x y : ℝ) : sub (of x) (of y) = of (x - y) := by simp [sub, of]

theorem mul_of (x y : ℝ) : mul (of x) (of y) = of (x * y) := by simp [mul, of]

theorem div_of (hy : y ≠ 0) : div (of x) (of y) = of (x / y) := by
  simp [div, of, hy, EReal.coe_div]

/-- An infinity keeps its sign over a positive number. -/
theorem bot_div (hy : 0 < y) : div (some ⊥) (of y) = some ⊥ := by
  simp [div, of, hy.ne', EReal.bot_div_of_pos_ne_top, hy]

theorem not_compare_none {r : EReal → EReal → Prop} {x : Float64} : ¬ Compare r x none := by simp [Compare]

theorem not_le_bot : ¬ Compare (· ≤ ·) (of x) (some ⊥) := by simp [Compare, of]

theorem sub_top (x : ℝ) : sub (of x) (some ⊤) = some ⊥ := by simp [sub, of]

theorem compare_of {r : EReal → EReal → Prop} : Compare r (of x) (of y) ↔ r x y := by simp [Compare, of]

/-- What is left of an infinity has no share of it. -/
theorem div_sub_top (x : Float64) : div (sub (some ⊤) x) (some ⊤) = none := by
  rcases x with _ | x
  · simp [sub, div]
  · by_cases hx : x = ⊤
    · simp [sub, div, hx]
    · simp [sub, div, Ne.symm hx, EReal.top_sub hx]

theorem hypot_of (x y : ℝ) : hypot (of x) (of y) = of √(x ^ 2 + y ^ 2) := by simp [hypot, of]

theorem hypot_nonneg {x y : Float64} {z : EReal} (h : z ∈ hypot x y) : 0 ≤ z := by
  rw [hypot] at h
  split_ifs at h with hinf
  · obtain rfl := Option.some.inj h
    exact le_top
  · obtain ⟨a, -, hz⟩ := Option.bind_eq_some_iff.mp h
    obtain ⟨b, -, rfl⟩ := Option.map_eq_some_iff.mp hz
    exact EReal.coe_nonneg.mpr (Real.sqrt_nonneg _)

end Float64

end

end Airspace
