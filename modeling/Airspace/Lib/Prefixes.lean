import Mathlib.Data.List.Induction
import Mathlib.Order.Lattice

/-! Lists read from left to right.

    What an element may be can depend on the elements before it. Lists that each begin with their only marked
    element can be told apart in their concatenation. The running maxima of a list are the elements with a
    key above that of every element before them. -/

namespace Airspace

variable {α β : Type*}

/-- Every element is allowed after those before it. -/
def EachAfter (P : List α → α → Prop) (l : List α) : Prop :=
  ∀ before a later, l = before ++ a :: later → P before a

theorem eachAfter_nil {P : List α → α → Prop} : EachAfter P [] := by
  intro before a later h
  simp at h

theorem eachAfter_concat {P : List α → α → Prop} {l : List α} {a : α} :
    EachAfter P (l ++ [a]) ↔ EachAfter P l ∧ P l a := by
  constructor
  · intro h
    refine ⟨fun before b later hl => h before b (later ++ [a]) (by rw [hl]; simp), h l a [] rfl⟩
  · rintro ⟨hl, ha⟩ before b later h
    rcases List.eq_nil_or_concat later with rfl | ⟨later', c, rfl⟩
    · obtain ⟨rfl, rfl⟩ := List.append_inj' h rfl |>.imp id List.singleton_inj.mp
      exact ha
    · rw [List.concat_eq_append, ← List.cons_append, ← List.append_assoc] at h
      exact hl before b later' (List.append_inj' h rfl).1

/-- The list begins with a marked element and has no other. -/
def Headed (p : α → Prop) (l : List α) : Prop := ∃ a rest, l = a :: rest ∧ p a ∧ ∀ b ∈ rest, ¬ p b

/-- Lists that each begin with their only marked element can be told from their concatenation. -/
theorem flatten_inj_of_headed {p : α → Prop} : ∀ {L L' : List (List α)}, (∀ l ∈ L, Headed p l) →
    (∀ l ∈ L', Headed p l) → L.flatten = L'.flatten → L = L'
  | [], [], _, _, _ => rfl
  | [], l' :: L', _, hL', h => by
    obtain ⟨a, rest, rfl, -⟩ := hL' l' (List.mem_cons_self ..)
    cases h
  | l :: L, [], hL, _, h => by
    obtain ⟨a, rest, rfl, -⟩ := hL l (List.mem_cons_self ..)
    cases h
  | l :: L, l' :: L', hL, hL', h => by
    have htails : ∀ {M : List (List α)}, (∀ m ∈ M, Headed p m) →
        M.flatten = [] ∨ ∃ a rest, M.flatten = a :: rest ∧ p a := by
      intro M hM
      cases M with
      | nil => exact .inl rfl
      | cons m M =>
        obtain ⟨a, rest, rfl, ha, -⟩ := hM m (List.mem_cons_self ..)
        exact .inr ⟨a, rest ++ M.flatten, rfl, ha⟩
    have hL₂ := fun m hm => hL m (List.mem_cons_of_mem _ hm)
    have hL₂' := fun m hm => hL' m (List.mem_cons_of_mem _ hm)
    obtain ⟨a, rest, rfl, ha, hrest⟩ := hL l (List.mem_cons_self ..)
    obtain ⟨a', rest', rfl, ha', hrest'⟩ := hL' l' (List.mem_cons_self ..)
    rw [List.flatten_cons, List.flatten_cons, List.cons_append, List.cons_append, List.cons.injEq] at h
    obtain ⟨rfl, h⟩ := h
    -- the rests end where the next marked element stands
    have hsplit : rest = rest' ∧ L.flatten = L'.flatten := by
      rcases List.append_eq_append_iff.mp h with ⟨gap, rfl, hgap⟩ | ⟨gap, rfl, hgap⟩
      · cases gap with
        | nil => simpa using hgap
        | cons b gap =>
          rcases htails hL₂ with hnil | ⟨c, tail, hcons, hc⟩
          · rw [hnil] at hgap
            cases hgap
          · rw [hcons] at hgap
            cases hgap
            exact absurd hc (hrest' b (by simp))
      · cases gap with
        | nil => simpa using hgap.symm
        | cons b gap =>
          rcases htails hL₂' with hnil | ⟨c, tail, hcons, hc⟩
          · rw [hnil] at hgap
            cases hgap
          · rw [hcons] at hgap
            cases hgap
            exact absurd hc (hrest b (by simp))
    rw [hsplit.1, flatten_inj_of_headed hL₂ hL₂' hsplit.2]
/-- A list with a marked element has a first one. -/
theorem exists_first {p : α → Prop} {l : List α} (h : ∃ a ∈ l, p a) :
    ∃ before a later, l = before ++ a :: later ∧ (∀ b ∈ before, ¬ p b) ∧ p a := by
  classical
  obtain ⟨a, ha, hpa⟩ := h
  obtain ⟨first, hfirst⟩ := Option.isSome_iff_exists.mp
    (List.find?_isSome.mpr ⟨a, ha, decide_eq_true hpa⟩ : (l.find? fun a => decide (p a)).isSome = true)
  obtain ⟨hp, before, later, hl, hbefore⟩ := List.find?_eq_some_iff_append.mp hfirst
  exact ⟨before, first, later, hl, fun b hb => by simpa using hbefore b hb, of_decide_eq_true hp⟩

/-- The first marked element stands in one place. -/
theorem first_unique {p : α → Prop} : ∀ {before before' later later' : List α} {a a' : α},
    before ++ a :: later = before' ++ a' :: later' → (∀ b ∈ before, ¬ p b) → p a → (∀ b ∈ before', ¬ p b) →
      p a' → before = before' ∧ a = a' ∧ later = later'
  | [], [], _, _, _, _, h, _, _, _, _ => by
    obtain ⟨rfl, rfl⟩ := List.cons.inj h
    exact ⟨rfl, rfl, rfl⟩
  | [], b :: before', _, _, _, _, h, _, ha, hbefore', _ => by
    obtain ⟨rfl, -⟩ := List.cons.inj h
    exact absurd ha (hbefore' _ (List.mem_cons_self ..))
  | b :: before, [], _, _, _, _, h, hbefore, _, _, ha' => by
    obtain ⟨rfl, -⟩ := List.cons.inj h
    exact absurd ha' (hbefore _ (List.mem_cons_self ..))
  | b :: before, b' :: before', _, _, _, _, h, hbefore, ha, hbefore', ha' => by
    obtain ⟨rfl, hrest⟩ := List.cons.inj h
    obtain ⟨rfl, heq⟩ := first_unique hrest (fun c hc => hbefore c (List.mem_cons_of_mem _ hc)) ha
      (fun c hc => hbefore' c (List.mem_cons_of_mem _ hc)) ha'
    exact ⟨rfl, heq⟩

variable [LinearOrder β] {key : α → β} {l : List α} {a : α} {t : β}

/-- The running maxima of a list under a key. -/
def highs (key : α → β) (l : List α) : List α :=
  l.foldl (fun kept a => if ∀ x ∈ kept, key x < key a then kept ++ [a] else kept) []

theorem highs_concat : highs key (l ++ [a]) =
    if ∀ x ∈ highs key l, key x < key a then highs key l ++ [a] else highs key l := by
  rw [highs, List.foldl_append]
  rfl

theorem highs_sublist (l : List α) : (highs key l).Sublist l := by
  induction l using List.reverseRecOn with
  | nil => exact List.Sublist.refl _
  | append_singleton l a ih =>
    rw [highs_concat]
    split_ifs
    · exact ih.append (List.Sublist.refl _)
    · exact ih.trans (List.sublist_append_left _ _)

/-- The greatest key of a list, and a running maximum has it. -/
structure Tops (key : α → β) (l : List α) (t : β) : Prop where
  attained : ∃ x ∈ highs key l, key x = t
  bound : ∀ x ∈ l, key x ≤ t

theorem tops_singleton (a : α) : Tops key [a] (key a) :=
  ⟨⟨a, by simp [highs], rfl⟩, by simp⟩

/-- An element above the greatest key is a running maximum. -/
theorem Tops.concat_of_lt (h : Tops key l t) (hlt : t < key a) :
    highs key (l ++ [a]) = highs key l ++ [a] ∧ Tops key (l ++ [a]) (key a) := by
  have hhighs : highs key (l ++ [a]) = highs key l ++ [a] := by
    rw [highs_concat, if_pos fun x hx => (h.bound x ((highs_sublist l).subset hx)).trans_lt hlt]
  refine ⟨hhighs, ⟨a, hhighs ▸ List.mem_append_right _ (List.mem_singleton_self a), rfl⟩, fun x hx => ?_⟩
  rcases List.mem_append.mp hx with hx | hx
  · exact (h.bound x hx).trans hlt.le
  · exact (List.mem_singleton.mp hx ▸ le_refl _)

/-- Any other element is none. -/
theorem Tops.concat_of_le (h : Tops key l t) (hle : key a ≤ t) :
    highs key (l ++ [a]) = highs key l ∧ Tops key (l ++ [a]) t := by
  obtain ⟨top, htop, rfl⟩ := h.attained
  have hhighs : highs key (l ++ [a]) = highs key l := by
    rw [highs_concat, if_neg fun hall => not_lt.mpr hle (hall top htop)]
  refine ⟨hhighs, ⟨top, hhighs ▸ htop, rfl⟩, fun x hx => ?_⟩
  rcases List.mem_append.mp hx with hx | hx
  · exact h.bound x hx
  · exact List.mem_singleton.mp hx ▸ hle

end Airspace
