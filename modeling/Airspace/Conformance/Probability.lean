import Airspace.Lib.Numerals
import Mathlib.Analysis.SpecialFunctions.Log.Basic
import Mathlib.Data.EReal.Basic
import Mathlib.MeasureTheory.Integral.IntervalIntegral.Basic

/-! How likely two aircraft are to breach separation (`acp.services.conformance.probability`).

    The horizontal part is the mass a two-dimensional isotropic Gaussian puts on a disc, computed as a
    race between two Poisson variables over one truncated index range; the vertical part is the mass
    of a normal on a band; the two multiply. Arrays are lists and `-inf` is the bottom of the extended
    reals, whose exponential is zero. A filter that claims no uncertainty gets the deterministic test. -/

namespace Airspace

noncomputable section

/-- Beyond this many standard deviations the answer is 0 or 1. -/
def sigmaCutoff : ℝ := 9

/-- Poisson mass outside mean ± this many standard deviations is dropped. -/
def poissonSpan : ℝ := 12

/-- `math.erf`. -/
def erf (z : ℝ) : ℝ := 2 / √Real.pi * ∫ t in (0 : ℝ)..z, Real.exp (-t ^ 2)

def normalCdf (z : ℝ) : ℝ := 0.5 * (1 + erf (z / √2))

/-- `np.cumsum`. -/
def cumsum (xs : List ℝ) : List ℝ := (xs.scanl (· + ·) 0).tail

/-- `np.exp` at one entry of a log-probability array. -/
def npExp (x : EReal) : ℝ := if x = ⊥ then 0 else Real.exp x.toReal

/-- `[log 0!, log 1!, ... log n!]`. -/
def logFactorial (n : ℕ) : List ℝ :=
  let counts := (List.range n).map (fun i => (i : ℝ) + 1)
  0 :: cumsum (counts.map Real.log)

/-- Entrywise `log P(N = k)` for `N ~ Poisson(mean)`. -/
def poissonLogPmf (k : List ℕ) (logFact : List ℝ) (mean : ℝ) : List EReal :=
  if mean ≤ 0 then k.map (fun i => if i = 0 then 0 else ⊥)
  else List.zipWith (fun i lf => ((i * Real.log mean - mean - lf : ℝ) : EReal)) k logFact

/-- The last index of the range wide enough for both Poisson laws. -/
def indexMax (meanA meanB : ℝ) : ℕ :=
  let top := max meanA meanB
  ⌈top + poissonSpan * √(top + 1)⌉₊ + 10

/-- The value of the truncated series, before it is clipped to `[0, 1]`. -/
def discSeries (meanA meanB : ℝ) : ℝ :=
  let jMax := indexMax meanA meanB
  let j := List.range (jMax + 1)
  let logFact := logFactorial jMax
  let pmfB := (poissonLogPmf j logFact meanB).map npExp
  let survivalB := (cumsum pmfB.reverse).reverse.tail ++ [0]
  let pmfA := (poissonLogPmf j logFact meanA).map npExp
  (List.zipWith (· * ·) pmfA survivalB).sum

/-- P(a 2-D isotropic Gaussian centred `missNm` away lands within `radiusNm` of the origin). -/
def discProbability (missNm radiusNm sigmaNm : ℝ) : ℝ :=
  if radiusNm ≤ 0 then 0
  else if sigmaNm ≤ 0 then (if missNm < radiusNm then 1 else 0)
  else
    let a := missNm / sigmaNm
    let b := radiusNm / sigmaNm
    if a - b > sigmaCutoff then 0
    else if b - a > sigmaCutoff then 1
    else min (max (discSeries (0.5 * a * a) (0.5 * b * b)) 0) 1

/-- P(a 1-D Gaussian centred at `offsetFt` lands within ± `halfWidthFt`). -/
def bandProbability (offsetFt halfWidthFt sigmaFt : ℝ) : ℝ :=
  if halfWidthFt ≤ 0 then 0
  else if sigmaFt ≤ 0 then (if |offsetFt| < halfWidthFt then 1 else 0)
  else
    let upper := (halfWidthFt - offsetFt) / sigmaFt
    let lower := (-halfWidthFt - offsetFt) / sigmaFt
    max 0 (normalCdf upper - normalCdf lower)

/-- Uncertainty in a relative quantity after propagating `dtS` seconds. -/
def projectedSigma (sigmaNowA sigmaNowB rateSigmaA rateSigmaB dtS : ℝ) : ℝ :=
  let positional := sigmaNowA ^ 2 + sigmaNowB ^ 2
  let rate := (rateSigmaA ^ 2 + rateSigmaB ^ 2) * dtS * dtS
  √(max 0 (positional + rate))

/-- P(both standards are breached at closest approach). -/
def conflictProbability (minHorizontalNm minVerticalFt horizontalSigmaNm verticalSigmaFt
    horizontalStandardNm verticalStandardFt : ℝ) : ℝ :=
  let horizontal := discProbability minHorizontalNm horizontalStandardNm horizontalSigmaNm
  if horizontal ≤ 0 then 0
  else horizontal * bandProbability minVerticalFt verticalStandardFt verticalSigmaFt

theorem cumsum_concat (xs : List ℝ) (x : ℝ) : cumsum (xs ++ [x]) = cumsum xs ++ [xs.sum + x] := by
  have hne : xs.scanl (· + ·) (0 : ℝ) ≠ [] := by cases xs <;> simp
  rw [cumsum, List.scanl_append, List.tail_append_of_ne_nil hne, ← List.sum_eq_foldl]
  simp [cumsum]

@[simp] theorem npExp_coe (x : ℝ) : npExp x = Real.exp x := by
  rw [npExp, if_neg (EReal.coe_ne_bot x), EReal.toReal_coe]

/-- Two tracks without uncertainty have no relative uncertainty at any time. -/
@[simp] theorem projectedSigma_zero (dtS : ℝ) : projectedSigma 0 0 0 0 dtS = 0 := by
  simp [projectedSigma]

/-- Without uncertainty the probability is the indicator of the deterministic test. -/
theorem conflictProbability_zero_sigma {h v s w : ℝ} (hs : 0 < s) (hw : 0 < w) :
    conflictProbability h v 0 0 s w = if h < s ∧ |v| < w then 1 else 0 := by
  unfold conflictProbability discProbability bandProbability
  rw [if_neg (not_le.mpr hs), if_neg (not_le.mpr hw), if_pos le_rfl, if_pos le_rfl]
  by_cases hh : h < s <;> by_cases hv : |v| < w <;> simp [hh, hv]

end

end Airspace
