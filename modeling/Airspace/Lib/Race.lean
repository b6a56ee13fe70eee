import Airspace.Lib.Numerals
import Mathlib.MeasureTheory.Measure.Prod
import Mathlib.MeasureTheory.Measure.Real
import Mathlib.Tactic.Linarith

/-! A race between two independent counts.

    Two counts are drawn independently and the second wins if it exceeds the first. Summed over the counts
    below a bound, the chance that it does is a double sum over the pairs with the second ahead; what the sum
    misses is no more than the chance that the second count reaches the bound. -/

namespace Airspace

noncomputable section

open MeasureTheory Finset

variable (μ ν : Measure ℕ)

/-- The chance that the second count exceeds the first. -/
def race : ℝ := (μ.prod ν).real {p | p.1 < p.2}

/-- The chance that it does and stays below a bound. -/
def raceBelow (n : ℕ) : ℝ := (μ.prod ν).real {p | p.1 < p.2 ∧ p.2 < n}

theorem raceBelow_zero : raceBelow μ ν 0 = 0 := by simp [raceBelow]

variable [IsProbabilityMeasure μ] [IsProbabilityMeasure ν]

/-- One more count for the second, against all smaller ones of the first. -/
theorem raceBelow_succ (n : ℕ) :
    raceBelow μ ν (n + 1) = raceBelow μ ν n + ∑ j ∈ range n, μ.real {j} * ν.real {n} := by
  have hsplit : {p : ℕ × ℕ | p.1 < p.2 ∧ p.2 < n + 1} =
      {p | p.1 < p.2 ∧ p.2 < n} ∪ (range n : Set ℕ) ×ˢ {n} := by
    ext ⟨j, k⟩
    simp only [Set.mem_ofPred_eq, Set.mem_union, Set.mem_prod, coe_range, Set.mem_Iio, Set.mem_singleton_iff]
    omega
  have hdisjoint : Disjoint {p : ℕ × ℕ | p.1 < p.2 ∧ p.2 < n} ((range n : Set ℕ) ×ˢ {n}) := by
    refine Set.disjoint_left.mpr fun p hp hq => ?_
    exact absurd hq.2 hp.2.ne
  rw [raceBelow, hsplit, measureReal_union hdisjoint .of_discrete, measureReal_prod_prod,
    ← sum_measureReal_singleton, sum_mul]
  rfl

/-- The truncated chance is the double sum over the pairs with the second ahead. -/
theorem raceBelow_eq_sum (n : ℕ) :
    raceBelow μ ν n = ∑ k ∈ range n, ∑ j ∈ range k, μ.real {j} * ν.real {k} := by
  induction n with
  | zero => rw [raceBelow_zero, sum_range_zero]
  | succ n ih => rw [raceBelow_succ, sum_range_succ, ih]

theorem raceBelow_mem (n : ℕ) : 0 ≤ raceBelow μ ν n ∧ raceBelow μ ν n ≤ 1 :=
  ⟨measureReal_nonneg, measureReal_le_one⟩

theorem raceBelow_le (n : ℕ) : raceBelow μ ν n ≤ race μ ν :=
  measureReal_mono fun _ hp => hp.1

/-- What the truncation misses has a second count at the bound or beyond. -/
theorem race_le (n : ℕ) : race μ ν ≤ raceBelow μ ν n + ν.real (Set.Ici n) := by
  have hcover : {p : ℕ × ℕ | p.1 < p.2} ⊆ {p | p.1 < p.2 ∧ p.2 < n} ∪ Set.univ ×ˢ Set.Ici n := by
    intro p hp
    rcases lt_or_ge p.2 n with hlt | hge
    · exact .inl ⟨hp, hlt⟩
    · exact .inr ⟨trivial, hge⟩
  have hbeyond : (μ.prod ν).real (Set.univ ×ˢ Set.Ici n) = ν.real (Set.Ici n) := by
    rw [measureReal_prod_prod, probReal_univ, one_mul]
  calc race μ ν ≤ (μ.prod ν).real ({p | p.1 < p.2 ∧ p.2 < n} ∪ Set.univ ×ˢ Set.Ici n) :=
        measureReal_mono hcover
    _ ≤ raceBelow μ ν n + (μ.prod ν).real (Set.univ ×ˢ Set.Ici n) := measureReal_union_le _ _
    _ = raceBelow μ ν n + ν.real (Set.Ici n) := by rw [hbeyond]

end

end Airspace
