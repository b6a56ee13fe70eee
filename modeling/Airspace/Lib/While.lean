import Mathlib.Data.Nat.Basic
import Mathlib.Order.Basic

/-! Loops that run until a condition holds.

    The body of a loop may raise. A loop is run for a bounded number of rounds, and says so when the bound
    is not enough; what it comes to does not depend on the bound once it is. An invariant that counts the
    rounds gives the number of them, and a relation kept by the bodies of two loops carries them side by
    side. -/

namespace Airspace

variable {σ τ ε : Type*}

/-- `while not done: body`, for at most so many rounds; nothing if it is still running after them. -/
def whileNot (done : σ → Bool) (body : σ → Except ε σ) : ℕ → σ → Option (Except ε σ)
  | 0, s => if done s then some (.ok s) else none
  | fuel + 1, s =>
    if done s then some (.ok s)
    else
      match body s with
      | .ok s' => whileNot done body fuel s'
      | .error e => some (.error e)

/-- A number of rounds, whatever the condition says. -/
def rounds (body : σ → Except ε σ) : ℕ → σ → Except ε σ
  | 0, s => .ok s
  | n + 1, s => rounds body n s >>= body

variable {done : σ → Bool} {body : σ → Except ε σ} {s s' : σ} {n fuel : ℕ}

theorem rounds_succ (body : σ → Except ε σ) (n : ℕ) (s : σ) : rounds body (n + 1) s = rounds body n s >>= body :=
  rfl

/-- The first round split off. -/
theorem rounds_succ' (body : σ → Except ε σ) (n : ℕ) (s : σ) :
    rounds body (n + 1) s = body s >>= rounds body n := by
  induction n with
  | zero =>
    cases h : body s with
    | ok s' => exact h
    | error e => exact h
  | succ n ih =>
    rw [rounds_succ, ih]
    cases body s with
    | ok s' => rfl
    | error e => rfl

theorem rounds_of_eq (h : rounds body n s = .ok s') : rounds body (n + 1) s = body s' := by
  rw [rounds_succ, h]
  rfl

/-- A loop whose condition comes to hold after some rounds ends there. -/
theorem whileNot_of_rounds (hrun : rounds body n s = .ok s')
    (hgoing : ∀ k < n, ∀ t, rounds body k s = .ok t → done t = false) (hdone : done s' = true)
    (hfuel : n ≤ fuel) : whileNot done body fuel s = some (.ok s') := by
  induction n generalizing s fuel with
  | zero =>
    obtain rfl : s = s' := Except.ok.inj hrun
    cases fuel <;> simp only [whileNot, hdone, if_true]
  | succ n ih =>
    obtain ⟨fuel, rfl⟩ := Nat.exists_eq_add_of_le' (Nat.le_of_add_left_le hfuel)
    have hstart : done s = false := hgoing 0 (Nat.succ_pos n) s rfl
    rw [rounds_succ'] at hrun
    cases hbody : body s with
    | error e =>
      rw [hbody] at hrun
      cases hrun
    | ok mid =>
      rw [hbody] at hrun
      simp only [whileNot, hstart, hbody, Bool.false_eq_true, if_false]
      refine ih hrun (fun k hk t ht => ?_) (Nat.le_of_succ_le_succ hfuel)
      refine hgoing (k + 1) (Nat.succ_lt_succ hk) t ?_
      rw [rounds_succ', hbody]
      exact ht

/-- What a loop came to it comes to with more rounds to spare. -/
theorem whileNot_mono {out : Except ε σ} (hrun : whileNot done body fuel s = some out) (hfuel : fuel ≤ n) :
    whileNot done body n s = some out := by
  induction fuel generalizing s n with
  | zero =>
    simp only [whileNot] at hrun
    split_ifs at hrun with hdone
    rw [← hrun]
    cases n <;> simp only [whileNot, hdone, if_true]
  | succ fuel ih =>
    obtain ⟨n, rfl⟩ := Nat.exists_eq_add_of_le' (Nat.le_of_add_left_le hfuel)
    cases hdone : done s with
    | true =>
      simp only [whileNot, hdone, if_true] at hrun ⊢
      exact hrun
    | false =>
      simp only [whileNot, hdone, Bool.false_eq_true, if_false] at hrun ⊢
      cases hbody : body s with
      | error e =>
        rw [hbody] at hrun
        exact hrun
      | ok s' =>
        rw [hbody] at hrun
        exact ih hrun (Nat.le_of_succ_le_succ hfuel)

/-- A loop whose rounds, where they do not raise, are those of another comes to what the other comes to. -/
theorem whileNot_of_rounds_eq {ε' : Type*} {checked : σ → Except ε' σ}
    (hsame : ∀ s s', checked s = .ok s' → body s = .ok s')
    (hrun : whileNot done checked fuel s = some (.ok s')) : whileNot done body fuel s = some (.ok s') := by
  induction fuel generalizing s with
  | zero =>
    simp only [whileNot] at hrun ⊢
    split_ifs at hrun ⊢ with hdone
    rw [Except.ok.inj (Option.some.inj hrun)]
  | succ fuel ih =>
    cases hdone : done s with
    | true =>
      simp only [whileNot, hdone, if_true, Option.some.injEq, Except.ok.injEq] at hrun ⊢
      exact hrun
    | false =>
      simp only [whileNot, hdone, Bool.false_eq_true, if_false] at hrun ⊢
      cases hround : checked s with
      | error e =>
        rw [hround] at hrun
        cases hrun
      | ok mid =>
        rw [hround] at hrun
        rw [hsame s mid hround]
        exact ih hrun

/-- What holds at the start and is carried from round to round holds after any number of them, and none of
    them raises. -/
theorem rounds_invariant {I : ℕ → σ → Prop} (h0 : I 0 s)
    (hstep : ∀ k < n, ∀ t, rounds body k s = .ok t → I k t → ∃ t', body t = .ok t' ∧ I (k + 1) t') :
    ∃ s', rounds body n s = .ok s' ∧ I n s' := by
  induction n with
  | zero => exact ⟨s, rfl, h0⟩
  | succ n ih =>
    obtain ⟨t, ht, hI⟩ := ih fun k hk => hstep k (Nat.lt_succ_of_lt hk)
    obtain ⟨t', ht', hI'⟩ := hstep n (Nat.lt_succ_self n) t ht hI
    exact ⟨t', (rounds_of_eq ht).trans ht', hI'⟩

/-- So it holds of what any number of rounds came to. -/
theorem invariant_of_rounds {I : ℕ → σ → Prop} (h0 : I 0 s)
    (hstep : ∀ k t, rounds body k s = .ok t → I k t → ∃ t', body t = .ok t' ∧ I (k + 1) t')
    (hrun : rounds body n s = .ok s') : I n s' := by
  obtain ⟨t, ht, hI⟩ := rounds_invariant (n := n) h0 fun k _ => hstep k
  exact Except.ok.inj (ht.symm.trans hrun) ▸ hI

/-- A loop with an invariant that counts the rounds ends after the number of rounds at which the condition
    comes to hold. -/
theorem whileNot_of_invariant {I : ℕ → σ → Prop} (h0 : I 0 s)
    (hstep : ∀ k t, I k t → ∃ t', body t = .ok t' ∧ I (k + 1) t')
    (hgoing : ∀ k < n, ∀ t, I k t → done t = false) (hdone : ∀ t, I n t → done t = true) :
    ∃ s', rounds body n s = .ok s' ∧ I n s' ∧ ∀ fuel ≥ n, whileNot done body fuel s = some (.ok s') := by
  have hall : ∀ k, ∃ t, rounds body k s = .ok t ∧ I k t := fun k =>
    rounds_invariant h0 fun k _ t _ hI => hstep k t hI
  obtain ⟨s', hs', hI⟩ := hall n
  refine ⟨s', hs', hI, fun fuel hfuel => whileNot_of_rounds hs' (fun k hk t ht => ?_) (hdone s' hI) hfuel⟩
  obtain ⟨t', ht', hI'⟩ := hall k
  obtain rfl : t = t' := Except.ok.inj (ht.symm.trans ht')
  exact hgoing k hk t hI'

/-- A loop whose rounds keep a counted invariant or fail with something known ends with the one or the other,
    by the round at which the condition comes to hold. -/
theorem whileNot_cases {I : ℕ → σ → Prop} {F : ℕ → ε → Prop} (h0 : I 0 s)
    (hok : ∀ k < n, ∀ t t', I k t → body t = .ok t' → I (k + 1) t')
    (herror : ∀ k < n, ∀ t e, I k t → body t = .error e → F k e)
    (hgoing : ∀ k < n, ∀ t, I k t → done t = false) (hdone : ∀ t, I n t → done t = true) (hfuel : n ≤ fuel) :
    (∃ s', whileNot done body fuel s = some (.ok s') ∧ I n s') ∨
      ∃ k < n, ∃ e, whileNot done body fuel s = some (.error e) ∧ F k e := by
  induction n generalizing s fuel I F with
  | zero =>
    refine .inl ⟨s, ?_, h0⟩
    cases fuel <;> simp only [whileNot, hdone s h0, if_true]
  | succ n ih =>
    obtain ⟨fuel, rfl⟩ := Nat.exists_eq_add_of_le' (Nat.le_of_add_left_le hfuel)
    have hstart : done s = false := hgoing 0 (Nat.succ_pos n) s h0
    cases hbody : body s with
    | error e =>
      refine .inr ⟨0, Nat.succ_pos n, e, ?_, herror 0 (Nat.succ_pos n) s e h0 hbody⟩
      simp only [whileNot, hstart, hbody, Bool.false_eq_true, if_false]
    | ok mid =>
      simp only [whileNot, hstart, hbody, Bool.false_eq_true, if_false]
      have hrest := ih (I := fun k => I (k + 1)) (F := fun k => F (k + 1)) (hok 0 (Nat.succ_pos n) s mid h0 hbody)
        (fun k hk => hok (k + 1) (Nat.succ_lt_succ hk)) (fun k hk => herror (k + 1) (Nat.succ_lt_succ hk))
        (fun k hk => hgoing (k + 1) (Nat.succ_lt_succ hk)) hdone (Nat.le_of_succ_le_succ hfuel)
      rcases hrest with hrest | ⟨k, hk, e, hrest⟩
      · exact .inl hrest
      · exact .inr ⟨k + 1, Nat.succ_lt_succ hk, e, hrest⟩

/-- Two bodies that carry a relation from round to round carry it over any number of them. -/
theorem rounds_related {body' : τ → Except ε τ} {R : ℕ → σ → τ → Prop} {t : τ} (h0 : R 0 s t)
    (hstep : ∀ k s t, R k s t → ∃ s' t', body s = .ok s' ∧ body' t = .ok t' ∧ R (k + 1) s' t') (n : ℕ) :
    ∃ s' t', rounds body n s = .ok s' ∧ rounds body' n t = .ok t' ∧ R n s' t' := by
  induction n with
  | zero => exact ⟨s, t, rfl, rfl, h0⟩
  | succ n ih =>
    obtain ⟨s₁, t₁, hs, ht, hR⟩ := ih
    obtain ⟨s', t', hs', ht', hR'⟩ := hstep n s₁ t₁ hR
    exact ⟨s', t', (rounds_of_eq hs).trans hs', (rounds_of_eq ht).trans ht', hR'⟩

end Airspace
