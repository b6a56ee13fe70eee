import Mathlib.Data.List.Nodup
import Mathlib.Data.List.Basic

/-! Folds that touch one key at a time.

    A loop over distinct keys whose body changes only the entry of its own key can be read key by key:
    a key the loop does not visit keeps its entry, and the entry of a visited key is what its own
    iteration makes of the entry the loop started from. The body may rely on an invariant that every
    iteration keeps. Where keys repeat, the entry of a key is what the elements of the key make of it in
    turn. -/

namespace Airspace

variable {σ α κ β : Type*} {inv : σ → Prop} {view : κ → σ → β} {step : σ → α → σ} {key : α → κ}

/-- One iteration keeps the invariant and the entry of every other key. -/
def TouchesOnlyOwnKey (inv : σ → Prop) (view : κ → σ → β) (step : σ → α → σ) (key : α → κ)
    (a : α) : Prop :=
  ∀ s, inv s → inv (step s a) ∧ ∀ k, k ≠ key a → view k (step s a) = view k s

/-- What every iteration keeps, the fold keeps. -/
theorem inv_foldl : ∀ {l : List α} {s : σ}, (∀ a ∈ l, TouchesOnlyOwnKey inv view step key a) →
    inv s → inv (l.foldl step s)
  | [], _, _, hs => hs
  | a :: l, s, h, hs => by
      rw [List.foldl_cons]
      exact inv_foldl (fun b hb => h b (List.mem_cons_of_mem _ hb)) (h a List.mem_cons_self s hs).1

/-- A key the fold does not visit keeps its entry. -/
theorem view_foldl_of_notMem {k : κ} : ∀ {l : List α} {s : σ},
    (∀ a ∈ l, TouchesOnlyOwnKey inv view step key a) → inv s → k ∉ l.map key →
      view k (l.foldl step s) = view k s
  | [], _, _, _, _ => rfl
  | a :: l, s, h, hs, hk => by
      rw [List.map_cons, List.mem_cons, not_or] at hk
      obtain ⟨hinv, hframe⟩ := h a List.mem_cons_self s hs
      rw [List.foldl_cons, view_foldl_of_notMem (fun b hb => h b (List.mem_cons_of_mem _ hb)) hinv hk.2,
        hframe k hk.1]

/-- The entry of a visited key is fixed by its own iteration, from an entry equal to the first one. -/
theorem view_foldl_of_mem {a : α} {l : List α} {s : σ}
    (h : ∀ b ∈ l, TouchesOnlyOwnKey inv view step key b) (hs : inv s) (hn : (l.map key).Nodup)
    (ha : a ∈ l) :
    ∃ l₁ l₂, l = l₁ ++ a :: l₂ ∧ inv (l₁.foldl step s) ∧
      view (key a) (l₁.foldl step s) = view (key a) s ∧
      view (key a) (l.foldl step s) = view (key a) (step (l₁.foldl step s) a) := by
  obtain ⟨l₁, l₂, rfl⟩ := List.append_of_mem ha
  rw [List.map_append, List.map_cons, List.nodup_append] at hn
  obtain ⟨-, hn₂, hdis⟩ := hn
  have hk₁ : key a ∉ l₁.map key := fun hmem => hdis _ hmem _ List.mem_cons_self rfl
  have hk₂ : key a ∉ l₂.map key := (List.nodup_cons.mp hn₂).1
  have h₁ : ∀ b ∈ l₁, TouchesOnlyOwnKey inv view step key b :=
    fun b hb => h b (List.mem_append_left _ hb)
  have h₂ : ∀ b ∈ l₂, TouchesOnlyOwnKey inv view step key b :=
    fun b hb => h b (List.mem_append_right _ (List.mem_cons_of_mem _ hb))
  have hinv₁ := inv_foldl h₁ hs
  refine ⟨l₁, l₂, rfl, hinv₁, view_foldl_of_notMem h₁ hs hk₁, ?_⟩
  rw [List.foldl_append, List.foldl_cons, view_foldl_of_notMem h₂ (h a (by simp) _ hinv₁).1 hk₂]

/-- A fold whose body changes the entry of its own key as `keyStep` says is read at a key from the
    elements of that key. -/
theorem view_foldl_filter [DecidableEq κ] (view : κ → σ → β) (key : α → κ) (keyStep : β → α → β)
    (h : ∀ s a k, view k (step s a) = if key a = k then keyStep (view k s) a else view k s)
    (l : List α) (s : σ) (k : κ) :
    view k (l.foldl step s) = (l.filter fun a => key a = k).foldl keyStep (view k s) := by
  induction l generalizing s with
  | nil => rfl
  | cons a l ih =>
    rw [List.foldl_cons, ih, h]
    by_cases hk : key a = k
    · rw [if_pos hk, List.filter_cons_of_pos (by simpa using hk), List.foldl_cons]
    · rw [if_neg hk, List.filter_cons_of_neg (by simpa using hk)]

/-- Where every element overwrites, the last one stays. -/
theorem foldl_overwrite (l : List α) (held : Option α) :
    l.foldl (fun _ a => some a) held = l.getLast?.or held := by
  induction l generalizing held with
  | nil => rfl
  | cons a l ih =>
    rw [List.foldl_cons, ih, List.getLast?_cons]
    cases l.getLast? with
    | none => rfl
    | some b => rfl

end Airspace
