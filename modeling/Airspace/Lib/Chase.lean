import Mathlib.Algebra.Order.Field.Basic
import Mathlib.Algebra.Order.BigOperators.Group.List
import Mathlib.Tactic.Linarith

/-! Chasing a target at a bounded rate.

    A step of some length closes what remains to the target by what the rate allows in it, and no more than
    remains. Over any steps the remainder is then what a single step of their total length leaves: it falls
    to nothing once the rate has had time enough, and stays there. -/

namespace Airspace

variable {σ 𝕜 : Type*} [Field 𝕜] [LinearOrder 𝕜] [IsStrictOrderedRing 𝕜]

/-- From the states of the invariant, every positive step keeps the invariant and the rate, and takes from
    what remains what the rate allows. -/
structure Chases (inv : σ → Prop) (step : σ → 𝕜 → σ) (remaining rate : σ → 𝕜) : Prop where
  kept : ∀ s dt, inv s → 0 < dt → inv (step s dt)
  rate_step : ∀ s dt, inv s → 0 < dt → rate (step s dt) = rate s
  rate_pos : ∀ s, inv s → 0 < rate s
  nonneg : ∀ s, inv s → 0 ≤ remaining s
  falls : ∀ s dt, inv s → 0 < dt → remaining (step s dt) = remaining s - min (remaining s) (rate s * dt)

namespace Chases

variable {inv : σ → Prop} {step : σ → 𝕜 → σ} {remaining rate : σ → 𝕜} {s : σ} {dts : List 𝕜}

omit [IsStrictOrderedRing 𝕜] in
theorem inv_foldl (h : Chases inv step remaining rate) (hs : inv s) (hdts : ∀ dt ∈ dts, 0 < dt) :
    inv (dts.foldl step s) := by
  induction dts generalizing s with
  | nil => exact hs
  | cons dt dts ih =>
    obtain ⟨hdt, hrest⟩ := List.forall_mem_cons.mp hdts
    exact ih (h.kept s dt hs hdt) hrest

omit [IsStrictOrderedRing 𝕜] in
theorem rate_foldl (h : Chases inv step remaining rate) (hs : inv s) (hdts : ∀ dt ∈ dts, 0 < dt) :
    rate (dts.foldl step s) = rate s := by
  induction dts generalizing s with
  | nil => rfl
  | cons dt dts ih =>
    obtain ⟨hdt, hrest⟩ := List.forall_mem_cons.mp hdts
    rw [List.foldl_cons, ih (h.kept s dt hs hdt) hrest, h.rate_step s dt hs hdt]

/-- What a run leaves is what one step of its length would leave. -/
theorem remaining_foldl (h : Chases inv step remaining rate) (hs : inv s) (hdts : ∀ dt ∈ dts, 0 < dt) :
    remaining (dts.foldl step s) = max 0 (remaining s - rate s * dts.sum) := by
  induction dts generalizing s with
  | nil => rw [List.foldl_nil, List.sum_nil, mul_zero, sub_zero, max_eq_right (h.nonneg s hs)]
  | cons dt dts ih =>
    obtain ⟨hdt, hrest⟩ := List.forall_mem_cons.mp hdts
    have hsum : 0 ≤ rate s * dts.sum :=
      mul_nonneg (h.rate_pos s hs).le (List.sum_nonneg fun dt hdt => (hrest dt hdt).le)
    have hnonneg := h.nonneg s hs
    rw [List.foldl_cons, ih (h.kept s dt hs hdt) hrest, h.rate_step s dt hs hdt, h.falls s dt hs hdt,
      List.sum_cons, mul_add]
    rcases le_total (remaining s) (rate s * dt) with hreach | hreach
    · rw [min_eq_left hreach, max_eq_left (by linarith), max_eq_left (by linarith)]
    · rw [min_eq_right hreach, sub_sub]

/-- Enough time leaves nothing. -/
theorem remaining_foldl_eq_zero (h : Chases inv step remaining rate) (hs : inv s)
    (hdts : ∀ dt ∈ dts, 0 < dt) (htime : remaining s ≤ rate s * dts.sum) :
    remaining (dts.foldl step s) = 0 := by
  rw [h.remaining_foldl hs hdts, max_eq_left (by linarith)]

/-- Nothing stays nothing. -/
theorem remaining_step_eq_zero (h : Chases inv step remaining rate) (hs : inv s) {dt : 𝕜} (hdt : 0 < dt)
    (hzero : remaining s = 0) : remaining (step s dt) = 0 := by
  rw [h.falls s dt hs hdt, hzero, min_eq_left (mul_pos (h.rate_pos s hs) hdt).le, sub_zero]

end Chases

end Airspace
