import Airspace.Conformance.Probability
import Airspace.Lib.Race
import Mathlib.Probability.Distributions.Poisson.Basic

/-! The disc probability as a race between two Poisson counts.

    The masses of both laws are computed in logs up to one last index, those of the second are summed from
    the top, and the sums, moved up by one, are multiplied with the masses of the first. That is the chance
    that the second count exceeds the first and stays within the index range. -/

namespace Airspace

noncomputable section

open Finset ProbabilityTheory

/-- `P(N = k)` for `N ~ Poisson(mean)`. -/
def poissonMass (mean : ℝ) (k : ℕ) : ℝ := Real.exp (-mean) * mean ^ k / k.factorial

theorem poissonMass_nonneg {mean : ℝ} (h : 0 ≤ mean) (k : ℕ) : 0 ≤ poissonMass mean k := by
  unfold poissonMass
  positivity

/-- The running sums from the top. -/
def suffixSums (xs : List ℝ) : List ℝ := (cumsum xs.reverse).reverse

theorem suffixSums_nil : suffixSums [] = [] := by simp [suffixSums, cumsum]

theorem suffixSums_cons (x : ℝ) (xs : List ℝ) : suffixSums (x :: xs) = (x :: xs).sum :: suffixSums xs := by
  rw [suffixSums, List.reverse_cons, cumsum_concat, List.reverse_append, List.sum_reverse, List.sum_cons,
    add_comm]
  rfl

/-! ### The masses -/

/-- An array of indices, as floats. -/
theorem indices_eq_map (l : List ℕ) : (l >>= fun i => pure (i : ℝ)) = l.map fun i : ℕ => (i : ℝ) := by
  induction l with
  | nil => rfl
  | cons i l ih => exact congrArg (List.cons (i : ℝ)) ih

theorem log_factorial_succ (n : ℕ) :
    Real.log (n + 1).factorial = Real.log n.factorial + Real.log (n + 1) := by
  have hfact : (n.factorial : ℝ) ≠ 0 := by exact_mod_cast n.factorial_ne_zero
  have hsucc : ((n : ℝ) + 1) ≠ 0 := by positivity
  rw [Nat.factorial_succ]
  push_cast
  rw [Real.log_mul hsucc hfact, add_comm]

theorem sum_log_eq (n : ℕ) : ((List.range n).map fun i : ℕ => Real.log (i + 1)).sum = Real.log n.factorial := by
  induction n with
  | zero => simp
  | succ n ih =>
    rw [List.range_succ, List.map_append, List.sum_append, ih, log_factorial_succ]
    simp

/-- The running sums of the logarithms are those of the factorials. -/
theorem logFactorial_eq (n : ℕ) : logFactorial n = (List.range (n + 1)).map fun k => Real.log k.factorial := by
  have hcounts : ∀ n : ℕ, logFactorial n = 0 :: cumsum ((List.range n).map fun i : ℕ => Real.log (i + 1)) := by
    intro n
    simp only [logFactorial, indices_eq_map, List.map_map]
    rfl
  induction n with
  | zero => simp [logFactorial, cumsum]
  | succ n ih =>
    rw [List.range_succ, List.map_append, ← ih, hcounts, hcounts, List.range_succ, List.map_append,
      List.map_singleton, cumsum_concat, sum_log_eq, ← List.cons_append, List.map_singleton]
    congr 2
    exact (log_factorial_succ n).symm

/-- The array of masses, the law of a certain zero included. -/
theorem poissonPmf_eq {mean : ℝ} (h : 0 ≤ mean) (n : ℕ) :
    (poissonLogPmf (List.range (n + 1)) (logFactorial n) mean).map npExp =
      (List.range (n + 1)).map (poissonMass mean) := by
  unfold poissonLogPmf
  split_ifs with hzero
  · have hmean : mean = 0 := le_antisymm hzero h
    rw [List.map_map]
    refine List.map_congr_left fun k _ => ?_
    rcases Nat.eq_zero_or_pos k with rfl | hk
    · simp [poissonMass, hmean, npExp]
    · simp [poissonMass, hmean, npExp, hk.ne']
  · have hpos : 0 < mean := not_le.mp hzero
    rw [logFactorial_eq, indices_eq_map, List.zipWith_map_right, List.zipWith_map_left, List.zipWith_self,
      List.map_map]
    refine List.map_congr_left fun k _ => ?_
    have hfact : (0 : ℝ) < k.factorial := by exact_mod_cast k.factorial_pos
    simp only [Function.comp_apply, npExp_coe, poissonMass]
    rw [Real.exp_sub, Real.exp_sub, Real.exp_log hfact, mul_comm, Real.exp_mul, Real.exp_log hpos,
      Real.rpow_natCast, Real.exp_neg]
    field_simp

/-! ### The dot product -/

/-- The masses of the first law against the sums from the top of the second's, moved up by one. -/
theorem sum_zipWith_suffixSums (f g : ℕ → ℝ) (n : ℕ) :
    (List.zipWith (· * ·) ((List.range (n + 1)).map f)
      (suffixSums ((List.range n).map g) ++ [0])).sum = ∑ k ∈ range n, (∑ j ∈ range (k + 1), f j) * g k := by
  induction n generalizing f g with
  | zero => simp [suffixSums_nil]
  | succ n ih =>
    have hshift : ∀ (h : ℕ → ℝ) (m : ℕ), (List.range (m + 1)).map h =
        h 0 :: (List.range m).map (fun i => h (i + 1)) := by
      intro h m
      rw [List.range_succ_eq_map, List.map_cons, List.map_map]
      rfl
    have hsum : ((List.range (n + 1)).map g).sum = ∑ k ∈ range (n + 1), g k := rfl
    have hhead : ∀ k, ∑ j ∈ range (k + 1), f j = (∑ j ∈ range k, f (j + 1)) + f 0 :=
      fun k => sum_range_succ' f k
    calc (List.zipWith (· * ·) ((List.range (n + 1 + 1)).map f)
          (suffixSums ((List.range (n + 1)).map g) ++ [0])).sum
        = f 0 * ((List.range (n + 1)).map g).sum + (List.zipWith (· * ·)
            ((List.range (n + 1)).map fun i => f (i + 1))
            (suffixSums ((List.range n).map fun i => g (i + 1)) ++ [0])).sum := by
          rw [hshift f (n + 1), hshift g n, suffixSums_cons, List.cons_append, List.zipWith_cons_cons,
            List.sum_cons]
      _ = f 0 * (∑ k ∈ range (n + 1), g k) + ∑ k ∈ range n, (∑ j ∈ range (k + 1), f (j + 1)) * g (k + 1) := by
          rw [ih, hsum]
      _ = ∑ k ∈ range (n + 1), (∑ j ∈ range (k + 1), f j) * g k := by
          simp only [hhead, add_mul, sum_add_distrib, mul_sum]
          rw [sum_range_succ' (fun k => (∑ j ∈ range k, f (j + 1)) * g k) n]
          simp [add_comm]

/-! ### The race -/

theorem poissonMass_eq {mean : ℝ} (h : 0 ≤ mean) (k : ℕ) :
    poissonMass mean k = (poissonMeasure mean.toNNReal).real {k} := by
  rw [poissonMeasure_real_singleton, Real.coe_toNNReal mean h, poissonMass]

/-- The series is the double sum over the pairs of counts within the index range, the second ahead. -/
theorem discSeries_eq_sum {meanA meanB : ℝ} (hA : 0 ≤ meanA) (hB : 0 ≤ meanB) :
    discSeries meanA meanB = ∑ k ∈ range (indexMax meanA meanB + 1), ∑ j ∈ range k,
      poissonMass meanA j * poissonMass meanB k := by
  have hsurvival : ∀ n : ℕ, (cumsum ((List.range (n + 1)).map (poissonMass meanB)).reverse).reverse.tail =
      suffixSums ((List.range n).map fun k => poissonMass meanB (k + 1)) := by
    intro n
    rw [← suffixSums, List.range_succ_eq_map, List.map_cons, suffixSums_cons, List.tail_cons, List.map_map]
    rfl
  simp only [discSeries, poissonPmf_eq hA, poissonPmf_eq hB, hsurvival, sum_zipWith_suffixSums]
  rw [sum_range_succ' (fun k => ∑ j ∈ range k, poissonMass meanA j * poissonMass meanB k), sum_range_zero,
    add_zero]
  simp only [sum_mul]

/-- It is the chance that the second count exceeds the first within the index range. -/
theorem discSeries_eq_raceBelow {meanA meanB : ℝ} (hA : 0 ≤ meanA) (hB : 0 ≤ meanB) :
    discSeries meanA meanB = raceBelow (poissonMeasure meanA.toNNReal) (poissonMeasure meanB.toNNReal)
      (indexMax meanA meanB + 1) := by
  simp only [discSeries_eq_sum hA hB, raceBelow_eq_sum, poissonMass_eq hA, poissonMass_eq hB]

/-- Between the cut-offs the disc probability, before it is clipped, is the double sum over the pairs of
    counts up to the last index with the second ahead. It is a probability, so that the clip changes nothing,
    and it falls short of the chance that the second count exceeds the first by no more than the masses of
    the two laws beyond the last index. -/
theorem discProbability_eq_race {missNm radiusNm sigmaNm : ℝ} (hradius : 0 < radiusNm) (hsigma : 0 < sigmaNm)
    (hout : missNm / sigmaNm - radiusNm / sigmaNm ≤ sigmaCutoff)
    (hin : radiusNm / sigmaNm - missNm / sigmaNm ≤ sigmaCutoff) :
    let a := missNm / sigmaNm
    let b := radiusNm / sigmaNm
    let series := discSeries (0.5 * a * a) (0.5 * b * b)
    let jMax := indexMax (0.5 * a * a) (0.5 * b * b)
    let lawA := poissonMeasure (a ^ 2 / 2).toNNReal
    let lawB := poissonMeasure (b ^ 2 / 2).toNNReal
    series = ∑ k ∈ range (jMax + 1), ∑ j ∈ range k, poissonMass (a ^ 2 / 2) j * poissonMass (b ^ 2 / 2) k ∧
      (0 ≤ series ∧ series ≤ 1) ∧
      discProbability missNm radiusNm sigmaNm = series ∧
      series ≤ race lawA lawB ∧
      race lawA lawB - series ≤ lawA.real (Set.Ioi jMax) + lawB.real (Set.Ioi jMax) := by
  intro a b series jMax lawA lawB
  have hmeanA : 0.5 * a * a = a ^ 2 / 2 := by ring
  have hmeanB : 0.5 * b * b = b ^ 2 / 2 := by ring
  have hA : 0 ≤ a ^ 2 / 2 := by positivity
  have hB : 0 ≤ b ^ 2 / 2 := by positivity
  have hseries : series = raceBelow lawA lawB (jMax + 1) := by
    simp only [series, jMax, hmeanA, hmeanB, lawA, lawB]
    exact discSeries_eq_raceBelow hA hB
  have hmem : 0 ≤ series ∧ series ≤ 1 := by
    rw [hseries]
    exact raceBelow_mem lawA lawB (jMax + 1)
  refine ⟨?_, hmem, ?_, ?_, ?_⟩
  · simp only [series, jMax, hmeanA, hmeanB]
    exact discSeries_eq_sum hA hB
  · simp only [discProbability]
    rw [if_neg (not_le.mpr hradius), if_neg (not_le.mpr hsigma), if_neg (not_lt.mpr hout),
      if_neg (not_lt.mpr hin), max_eq_left hmem.1, min_eq_left hmem.2]
  · rw [hseries]
    exact raceBelow_le lawA lawB (jMax + 1)
  · have hmiss := race_le lawA lawB (jMax + 1)
    have hbeyond : Set.Ici (jMax + 1) = Set.Ioi jMax := Set.ext fun _ => Nat.succ_le_iff
    have hfirst : 0 ≤ lawA.real (Set.Ioi jMax) := MeasureTheory.measureReal_nonneg
    rw [hbeyond] at hmiss
    rw [hseries]
    linarith

/-- Two aircraft expected in one place, with as much uncertainty as the standard. -/
theorem discProbability_eq_race_centre :
    discProbability 0 1 1 = ∑ k ∈ range (indexMax (0.5 * (0 / 1) * (0 / 1)) (0.5 * (1 / 1) * (1 / 1)) + 1),
      ∑ j ∈ range k, poissonMass ((0 / 1) ^ 2 / 2) j * poissonMass ((1 / 1) ^ 2 / 2) k := by
  obtain ⟨hsum, -, hclip, -, -⟩ := discProbability_eq_race (show (0 : ℝ) < 1 by norm_num)
    (show (0 : ℝ) < 1 by norm_num) (show (0 : ℝ) / 1 - 1 / 1 ≤ sigmaCutoff by norm_num [sigmaCutoff])
    (show (1 : ℝ) / 1 - 0 / 1 ≤ sigmaCutoff by norm_num [sigmaCutoff])
  exact hclip.trans hsum

end

end Airspace
