import Mathlib.Algebra.Order.Field.Rat
import Mathlib.Data.List.Basic
import Mathlib.Tactic.Linarith

/-! Programs that draw random numbers.

    A source gives numbers and passes its state on. What is true of a value whatever the state it was drawn
    from is always true of it; the rules say how that follows along a program, one for each way to build
    one. The laws of a source are the ranges of its numbers and nothing else. -/

namespace Airspace

variable {γ α β : Type}

/-- Whatever the state of the source, the value drawn satisfies `P`. -/
def Always (m : StateM γ α) (P : α → Prop) : Prop := ∀ g, P (m.run g).1

namespace Always

variable {m : StateM γ α} {f : α → StateM γ β} {P P' : α → Prop} {Q : β → Prop}

theorem pure {a : α} (h : P a) : Always (Pure.pure a : StateM γ α) P := fun _ => h

theorem bind (h : Always m P) (hf : ∀ a, P a → Always (f a) Q) : Always (m >>= f) Q := fun g =>
  hf _ (h g) _

theorem mono (h : Always m P) (hP : ∀ a, P a → P' a) : Always m P' := fun g => hP _ (h g)

theorem ite {c : Prop} [Decidable c] {m' : StateM γ α} (h : c → Always m P) (h' : ¬ c → Always m' P) :
    Always (if c then m else m') P := by
  by_cases hc : c
  · rw [if_pos hc]
    exact h hc
  · rw [if_neg hc]
    exact h' hc

/-- One draw for each entry of a list, each value told by its entry. -/
theorem mapM {κ : Type} {key : β → κ} {told : α → κ} {l : List α}
    (h : ∀ a ∈ l, Always (f a) fun b => Q b ∧ key b = told a) :
    Always (l.mapM f) fun bs => (∀ b ∈ bs, Q b) ∧ bs.map key = l.map told := by
  induction l with
  | nil => exact fun _ => ⟨List.forall_mem_nil _, rfl⟩
  | cons a l ih =>
    obtain ⟨ha, hl⟩ := List.forall_mem_cons.mp h
    rw [List.mapM_cons]
    refine ha.bind fun b ⟨hb, hkey⟩ => (ih hl).bind fun bs ⟨hbs, hkeys⟩ => .pure ?_
    exact ⟨List.forall_mem_cons.mpr ⟨hb, hbs⟩, by rw [List.map_cons, List.map_cons, hkey, hkeys]⟩

end Always

/-- A source of random numbers, seeded by a text: a fraction of one, a number below another, and a number of
    so many bits. -/
structure Source (γ : Type) where
  seeded : String → γ
  random : StateM γ ℚ
  randbelow : ℕ → StateM γ ℕ
  getrandbits : ℕ → StateM γ ℕ
  random_mem : Always random fun u => 0 ≤ u ∧ u < 1
  randbelow_lt : ∀ n, 0 < n → Always (randbelow n) (· < n)
  getrandbits_lt : ∀ k, Always (getrandbits k) (· < 2 ^ k)

namespace Source

variable (rng : Source γ)

/-- A number between two others. -/
def uniform (a b : ℚ) : StateM γ ℚ := do
  return a + (b - a) * (← rng.random)

/-- An integer from `a` to `b`. -/
def randint (a b : ℕ) : StateM γ ℕ := do
  return a + (← rng.randbelow (b - a + 1))

/-- An entry of a list. -/
def choice (seq : List α) (h : seq ≠ []) : StateM γ α := do
  return seq.getD (← rng.randbelow seq.length) (seq.head h)

theorem uniform_mem {a b : ℚ} (h : a ≤ b) : Always (rng.uniform a b) fun x => a ≤ x ∧ x ≤ b := by
  refine rng.random_mem.bind fun u ⟨h0, h1⟩ => .pure ?_
  have hlow := mul_nonneg (sub_nonneg.mpr h) h0
  have hhigh := mul_le_mul_of_nonneg_left h1.le (sub_nonneg.mpr h)
  constructor <;> linarith

theorem randint_mem {a b : ℕ} (h : a ≤ b) : Always (rng.randint a b) fun n => a ≤ n ∧ n ≤ b := by
  refine (rng.randbelow_lt (b - a + 1) (Nat.succ_pos _)).bind fun k hk => .pure ?_
  omega

theorem choice_mem (seq : List α) (h : seq ≠ []) : Always (rng.choice seq h) (· ∈ seq) := by
  refine (rng.randbelow_lt seq.length (List.length_pos_iff.mpr h)).bind fun k hk => .pure ?_
  rw [List.getD_eq_getElem?_getD, List.getElem?_eq_getElem hk]
  exact List.getElem_mem hk

end Source

end Airspace
