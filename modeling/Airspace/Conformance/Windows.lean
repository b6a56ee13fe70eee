import Airspace.Conformance.Separation

/-! What the two breach windows and their overlap mean.

    A window is read as the set of instants strictly between its ends. Away from the code's epsilons
    `_quadratic_below` and `_linear_within` return exactly the instants at which their standard is
    breached, and `_overlap` is non-empty exactly when some instant of the lookahead lies in both. The
    last point needs no case on strictness: an instant of a closed window inside two open ones pulls
    the clipped ends strictly apart. -/

namespace Airspace

noncomputable section

open Classical

/-- `t` lies strictly inside a computed window. -/
def Inside (w : Option (EReal × EReal)) (t : ℝ) : Prop := ∃ i ∈ w, i.1 < t ∧ t < i.2

@[simp] theorem not_inside_none (t : ℝ) : ¬ Inside none t := by simp [Inside]

@[simp] theorem inside_some {i : EReal × EReal} {t : ℝ} :
    Inside (some i) t ↔ i.1 < t ∧ t < i.2 := by simp [Inside]

/-- Two windows with the same ends up to order of the reals bounding them. -/
theorem inside_ordered {lo hi t : ℝ} :
    Inside (if lo ≤ hi then some ((lo : EReal), (hi : EReal)) else some ((hi : EReal), (lo : EReal))) t ↔
      min lo hi < t ∧ t < max lo hi := by
  by_cases h : lo ≤ hi
  · rw [if_pos h, min_eq_left h, max_eq_right h, inside_some]
    simp only [EReal.coe_lt_coe_iff]
  · rw [if_neg h, min_eq_right (le_of_not_ge h), max_eq_left (le_of_not_ge h), inside_some]
    simp only [EReal.coe_lt_coe_iff]

/-- At a resolved leading coefficient the window is where the quadratic is negative. -/
theorem inside_quadraticBelow_of_ge {a b c : ℝ} (ha : 1e-12 ≤ a) (t : ℝ) :
    Inside (quadraticBelow a b c) t ↔ a * t ^ 2 + b * t + c < 0 := by
  have ha0 : 0 < a := lt_of_lt_of_le (by norm_num) ha
  unfold quadraticBelow
  rw [if_neg (by rw [abs_of_pos ha0]; exact not_lt.mpr ha)]
  by_cases hd : b * b - 4 * a * c ≤ 0
  · simp only [if_pos hd, not_inside_none, false_iff, not_lt]
    exact quadratic_nonneg ha0 hd t
  · simp only [if_neg hd, inside_some]
    rw [quadratic_neg_iff ha0 (not_le.mp hd), EReal.coe_lt_coe_iff, EReal.coe_lt_coe_iff]

/-- A constant is negative everywhere or nowhere. -/
theorem inside_quadraticBelow_const (c t : ℝ) : Inside (quadraticBelow 0 0 c) t ↔ c < 0 := by
  unfold quadraticBelow
  rw [if_pos (by norm_num), if_pos (by norm_num)]
  by_cases hc : c < 0 <;> simp [hc]

/-- At a resolved rate the window is where the affine function is within the limit. -/
theorem inside_linearWithin {offset rate limit : ℝ} (hl : 0 < limit)
    (hr : rate = 0 ∨ 1e-12 ≤ |rate|) (t : ℝ) :
    Inside (linearWithin offset rate limit) t ↔ |offset + rate * t| < limit := by
  unfold linearWithin
  rcases hr with rfl | hr
  · rw [if_pos (by norm_num)]
    by_cases ho : |offset| < limit <;> simp [ho]
  · have hne : rate ≠ 0 := by rintro rfl; norm_num at hr
    rw [if_neg (not_lt.mpr hr), affine_within_iff hne hl]
    exact inside_ordered

/-! ### The overlap -/

/-- A non-empty overlap lies in the lookahead, between the ends of both windows. -/
theorem overlap_eq_some {f s : Option (EReal × EReal)} {horizon lo hi : ℝ}
    (h : overlap f s horizon = some (lo, hi)) :
    ∃ i j, f = some i ∧ s = some j ∧ lo < hi ∧
      (lo : EReal) = max (max i.1 j.1) 0 ∧ (hi : EReal) = min (min i.2 j.2) horizon := by
  rcases f with _ | i
  · simp [overlap] at h
  rcases s with _ | j
  · simp [overlap] at h
  simp only [overlap] at h
  by_cases hlt : min (min i.2 j.2) (horizon : EReal) > max (max i.1 j.1) 0
  · rw [if_pos hlt] at h
    simp only [Option.some.injEq, Prod.mk.injEq] at h
    have hlo0 : (0 : EReal) ≤ max (max i.1 j.1) 0 := le_max_right _ _
    have hhi1 : min (min i.2 j.2) (horizon : EReal) ≤ horizon := min_le_right _ _
    have hlo : (lo : EReal) = max (max i.1 j.1) 0 := by
      rw [← h.1, EReal.coe_toReal]
      · exact ((hlt.trans_le hhi1).trans (EReal.coe_lt_top _)).ne
      · exact ((EReal.bot_lt_coe 0).trans_le hlo0).ne'
    have hhi : (hi : EReal) = min (min i.2 j.2) horizon := by
      rw [← h.2, EReal.coe_toReal]
      · exact (hhi1.trans_lt (EReal.coe_lt_top _)).ne
      · exact ((EReal.bot_lt_coe 0).trans_le (hlo0.trans hlt.le)).ne'
    refine ⟨i, j, rfl, rfl, ?_, hlo, hhi⟩
    rw [← EReal.coe_lt_coe_iff, hlo, hhi]
    exact hlt
  · rw [if_neg hlt] at h; cases h

theorem overlap_bounds {f s : Option (EReal × EReal)} {horizon lo hi : ℝ}
    (h : overlap f s horizon = some (lo, hi)) : 0 ≤ lo ∧ lo < hi ∧ hi ≤ horizon := by
  obtain ⟨i, j, -, -, hlt, hlo, hhi⟩ := overlap_eq_some h
  refine ⟨?_, hlt, ?_⟩
  · have : (0 : EReal) ≤ (lo : EReal) := hlo ▸ le_max_right _ _
    exact_mod_cast this
  · have : (hi : EReal) ≤ (horizon : EReal) := hhi ▸ min_le_right _ _
    exact_mod_cast this

/-- Every instant strictly inside the overlap is strictly inside both windows. -/
theorem inside_of_overlap {f s : Option (EReal × EReal)} {horizon lo hi t : ℝ}
    (h : overlap f s horizon = some (lo, hi)) (h1 : lo < t) (h2 : t < hi) : Inside f t ∧ Inside s t := by
  obtain ⟨i, j, rfl, rfl, -, hlo, hhi⟩ := overlap_eq_some h
  have hl : max (max i.1 j.1) 0 < (t : EReal) := by rw [← hlo]; exact_mod_cast h1
  have hr : (t : EReal) < min (min i.2 j.2) horizon := by rw [← hhi]; exact_mod_cast h2
  rw [max_lt_iff, max_lt_iff] at hl
  rw [lt_min_iff, lt_min_iff] at hr
  exact ⟨inside_some.mpr ⟨hl.1.1, hr.1.1⟩, inside_some.mpr ⟨hl.1.2, hr.1.2⟩⟩

/-- An instant strictly inside the lookahead and both windows is strictly inside the overlap. -/
theorem mem_Ioo_of_overlap {f s : Option (EReal × EReal)} {horizon lo hi t : ℝ}
    (h : overlap f s horizon = some (lo, hi)) (h0 : 0 < t) (h1 : t < horizon) (hf : Inside f t)
    (hs : Inside s t) : lo < t ∧ t < hi := by
  obtain ⟨i, j, rfl, rfl, -, hlo, hhi⟩ := overlap_eq_some h
  rw [inside_some] at hf hs
  rw [← EReal.coe_lt_coe_iff, ← EReal.coe_lt_coe_iff, hlo, hhi]
  exact ⟨max_lt (max_lt hf.1 hs.1) (by exact_mod_cast h0),
    lt_min (lt_min hf.2 hs.2) (by exact_mod_cast h1)⟩

/-- Every instant of the lookahead inside both windows makes the overlap non-empty and lies in it. -/
theorem overlap_of_inside {f s : Option (EReal × EReal)} {horizon t : ℝ} (hH : 0 < horizon)
    (h0 : 0 ≤ t) (h1 : t ≤ horizon) (hf : Inside f t) (hs : Inside s t) :
    ∃ lo hi, overlap f s horizon = some (lo, hi) ∧ lo ≤ t ∧ t ≤ hi := by
  rcases f with _ | i
  · simp at hf
  rcases s with _ | j
  · simp at hs
  rw [inside_some] at hf hs
  have ht0 : (0 : EReal) ≤ t := by exact_mod_cast h0
  have ht1 : (t : EReal) ≤ horizon := by exact_mod_cast h1
  have hij : max i.1 j.1 < (t : EReal) := max_lt hf.1 hs.1
  have hij' : (t : EReal) < min i.2 j.2 := lt_min hf.2 hs.2
  have hlt : max (max i.1 j.1) 0 < min (min i.2 j.2) (horizon : EReal) := by
    refine max_lt (lt_min (hij.trans hij') (hij.trans_le ht1)) (lt_min (ht0.trans_lt hij') ?_)
    exact_mod_cast hH
  refine ⟨(max (max i.1 j.1) 0).toReal, (min (min i.2 j.2) (horizon : EReal)).toReal, ?_, ?_, ?_⟩
  · simp only [overlap]; rw [if_pos hlt]
  · have hle : max (max i.1 j.1) 0 ≤ (t : EReal) := max_le hij.le ht0
    rw [← EReal.toReal_coe t]
    refine EReal.toReal_le_toReal hle ?_ (EReal.coe_ne_top t)
    exact ((EReal.bot_lt_coe 0).trans_le (le_max_right _ _)).ne'
  · have hle : (t : EReal) ≤ min (min i.2 j.2) horizon := le_min hij'.le ht1
    rw [← EReal.toReal_coe t]
    refine EReal.toReal_le_toReal hle (EReal.coe_ne_bot t) ?_
    exact ((min_le_right _ _).trans_lt (EReal.coe_lt_top _)).ne

/-- When the first standard is breached for all time and the second one within the lookahead, the
    overlap is the second window. -/
theorem overlap_all_left {lo hi horizon : ℝ} (h0 : 0 ≤ lo) (hlt : lo < hi) (h1 : hi ≤ horizon) :
    overlap (some (⊥, ⊤)) (some ((lo : EReal), (hi : EReal))) horizon = some (lo, hi) := by
  have hstart : max (max ⊥ (lo : EReal)) 0 = lo := by
    rw [max_eq_right bot_le]; exact max_eq_left (by exact_mod_cast h0)
  have hstop : min (min ⊤ (hi : EReal)) horizon = hi := by
    rw [min_eq_right le_top]; exact min_eq_left (by exact_mod_cast h1)
  simp only [overlap]
  rw [hstart, hstop, if_pos (by exact_mod_cast hlt), EReal.toReal_coe, EReal.toReal_coe]

end

end Airspace
