import Airspace.Lib.Numerals
import Mathlib.Algebra.Order.Floor.Ring
import Mathlib.Algebra.Order.Archimedean.Real.Basic
import Mathlib.Tactic.Linarith
import Mathlib.Tactic.FieldSimp

/-! Python's arithmetic on floats, read as exact real arithmetic.

    `%` and `//` follow the sign of the divisor, `round` breaks ties to even, and `f"{x:.nf}"` prints
    the correctly rounded decimal. Instants are whole microseconds, as `datetime` keeps them, so
    comparing two of them is decidable; a span given in seconds is rounded to them. -/

namespace Airspace

/-- A `datetime`: microseconds since the epoch. -/
abbrev Instant := ℤ

/-- A `timedelta`: microseconds. -/
abbrev Span := ℤ

/-- `timedelta(seconds=s)` for a whole number of seconds. -/
def seconds (s : ℤ) : Span := s * 1000000

/-- `timedelta.total_seconds()`. -/
def totalSeconds (d : Span) : ℚ := d / 1000000

theorem totalSeconds_le_totalSeconds {d e : Span} (h : d ≤ e) : totalSeconds d ≤ totalSeconds e := by
  unfold totalSeconds
  have : (d : ℚ) ≤ e := by exact_mod_cast h
  linarith

theorem totalSeconds_pos {d : Span} : 0 < totalSeconds d ↔ 0 < d := by
  unfold totalSeconds
  rw [lt_div_iff₀ (by norm_num), zero_mul]
  exact_mod_cast Iff.rfl

/-- `round` of an exact value: the nearest integer, ties to even. -/
def roundHalfEven (x : ℚ) : ℤ :=
  if x - ⌊x⌋ < 1 / 2 then ⌊x⌋
  else if 1 / 2 < x - ⌊x⌋ then ⌊x⌋ + 1
  else if Even ⌊x⌋ then ⌊x⌋ else ⌊x⌋ + 1

/-- `timedelta(seconds=s)`, to the nearest microsecond. -/
def timedelta (s : ℚ) : Span := roundHalfEven (s * 1000000)

theorem roundHalfEven_intCast (n : ℤ) : roundHalfEven n = n := by
  unfold roundHalfEven
  rw [Int.floor_intCast, sub_self, if_pos (by norm_num)]

@[simp] theorem timedelta_intCast (n : ℤ) : timedelta n = seconds n := by
  unfold timedelta seconds
  exact_mod_cast roundHalfEven_intCast (n * 1000000)

@[simp] theorem timedelta_ofNat (n : ℕ) [n.AtLeastTwo] : timedelta ofNat(n) = seconds n :=
  timedelta_intCast n

/-- The digits of a number in groups of three. -/
def groupThousands (n : ℕ) : String :=
  if n < 1000 then toString n
  else
    let group := toString (n % 1000)
    groupThousands (n / 1000) ++ "," ++ "".pushn '0' (3 - group.length) ++ group
termination_by n
decreasing_by omega

/-- `f"{n:,.0f}"` of a whole number. -/
def formatThousands (n : ℤ) : String := (if n < 0 then "-" else "") ++ groupThousands n.natAbs

noncomputable section

/-- `x // y` on floats, as an integer. -/
def pyFloorDiv (x y : ℝ) : ℤ := ⌊x / y⌋

/-- `x % y` on floats. -/
def pyMod (x y : ℝ) : ℝ := x - y * ⌊x / y⌋

/-- `round(x)`: the nearest integer, ties to even. -/
def pyRound (x : ℝ) : ℤ :=
  if x - ⌊x⌋ < 1 / 2 then ⌊x⌋
  else if 1 / 2 < x - ⌊x⌋ then ⌊x⌋ + 1
  else if Even ⌊x⌋ then ⌊x⌋ else ⌊x⌋ + 1

/-- `f"{x:.{places}f}"`. -/
def formatFixed (places : ℕ) (x : ℝ) : String :=
  let n := (pyRound (|x| * 10 ^ places)).toNat
  let whole := toString (n / 10 ^ places)
  let fraction := toString (n % 10 ^ places)
  let sign := if x < 0 then "-" else ""
  if places = 0 then sign ++ whole
  else sign ++ whole ++ "." ++ "".pushn '0' (places - fraction.length) ++ fraction

/-- Whole multiples of the divisor leave the remainder. -/
theorem pyMod_add_mul (x : ℝ) {y : ℝ} (hy : 0 < y) (n : ℤ) : pyMod (x + n * y) y = pyMod x y := by
  have h : (x + n * y) / y = x / y + n := by field_simp
  unfold pyMod
  rw [h, Int.floor_add_intCast]; push_cast; ring

/-- A remainder lies in `[0, y)`. -/
theorem pyMod_mem (x : ℝ) {y : ℝ} (hy : 0 < y) : 0 ≤ pyMod x y ∧ pyMod x y < y := by
  have hle := mul_le_mul_of_nonneg_left (Int.floor_le (x / y)) hy.le
  have hlt := mul_lt_mul_of_pos_left (Int.lt_floor_add_one (x / y)) hy
  rw [mul_div_cancel₀ x hy.ne'] at hle hlt
  unfold pyMod
  constructor <;> linarith

/-- Rounding stays within whole bounds. -/
theorem pyRound_mem {x : ℝ} {a b : ℤ} (ha : (a : ℝ) ≤ x) (hb : x ≤ b) : a ≤ pyRound x ∧ pyRound x ≤ b := by
  have hfloor := Int.le_floor.mpr ha
  have hceil := Int.ceil_le.mpr hb
  have hup : x - ⌊x⌋ ≠ 0 → ⌊x⌋ + 1 ≤ ⌈x⌉ := by
    intro hne
    have hlt : (⌊x⌋ : ℝ) < x := lt_of_le_of_ne (Int.floor_le x) fun h => hne (by rw [← h]; simp)
    exact Int.lt_ceil.mpr hlt
  unfold pyRound
  split_ifs with hlow hhigh heven
  · exact ⟨hfloor, (Int.floor_le_ceil x).trans hceil⟩
  · exact ⟨by omega, (hup (by linarith)).trans hceil⟩
  · exact ⟨hfloor, (Int.floor_le_ceil x).trans hceil⟩
  · exact ⟨by omega, (hup (by linarith)).trans hceil⟩

/-- A dividend that already lies in `[0, y)` is its own remainder. -/
theorem pyMod_eq_self {x y : ℝ} (h0 : 0 ≤ x) (h1 : x < y) : pyMod x y = x := by
  have hy : 0 < y := lt_of_le_of_lt h0 h1
  have h : ⌊x / y⌋ = 0 := by
    rw [Int.floor_eq_zero_iff]
    exact ⟨div_nonneg h0 hy.le, (div_lt_one hy).mpr h1⟩
  rw [pyMod, h]; simp

end

end Airspace
