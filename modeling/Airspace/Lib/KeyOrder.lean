import Mathlib.Data.List.Sort
import Mathlib.Order.Basic

/-! Listing in the order of a key.

    Elements of one key stay in the order they are listed, so sorting commutes with selecting, and a list
    cut at a key sorts piece by piece. -/

namespace Airspace

variable {α β : Type*} [LinearOrder β] {key : α → β}

/-- The elements in the order of `key`, those of one key as they are listed. -/
def inKeyOrder (key : α → β) (l : List α) : List α := l.insertionSort fun a b => key a ≤ key b

theorem inKeyOrder_perm (l : List α) : (inKeyOrder key l).Perm l := List.perm_insertionSort _ l

theorem inKeyOrder_cons (a : α) (l : List α) :
    inKeyOrder key (a :: l) = (inKeyOrder key l).orderedInsert (fun a b => key a ≤ key b) a :=
  List.insertionSort_cons ..

theorem pairwise_inKeyOrder (l : List α) : (inKeyOrder key l).Pairwise fun a b => key a ≤ key b :=
  have : Std.Total fun a b => key a ≤ key b := ⟨fun a b => le_total (key a) (key b)⟩
  have : IsTrans α fun a b => key a ≤ key b := ⟨fun _ _ _ => le_trans⟩
  List.pairwise_insertionSort _ l

/-- Selecting from an ordered list, after an insertion. -/
theorem filter_orderedInsert (p : α → Bool) (a : α) {l : List α} (h : l.Pairwise fun a b => key a ≤ key b) :
    (l.orderedInsert (fun a b => key a ≤ key b) a).filter p =
      if p a then (l.filter p).orderedInsert (fun a b => key a ≤ key b) a else l.filter p := by
  induction l with
  | nil => by_cases ha : p a <;> simp [ha]
  | cons b l ih =>
    obtain ⟨hb, hl⟩ := List.pairwise_cons.mp h
    by_cases hab : key a ≤ key b
    · rw [List.orderedInsert_cons, if_pos hab, List.filter_cons]
      split_ifs with ha
      · have hfirst : ∀ c ∈ (b :: l).filter p, key a ≤ key c := by
          intro c hc
          rcases List.mem_cons.mp (List.mem_filter.mp hc).1 with rfl | hc
          · exact hab
          · exact hab.trans (hb c hc)
        cases hrest : (b :: l).filter p with
        | nil => rfl
        | cons c rest =>
          rw [List.orderedInsert_cons, if_pos (hfirst c (by rw [hrest]; exact List.mem_cons_self))]
      · rfl
    · rw [List.orderedInsert_cons, if_neg hab, List.filter_cons, List.filter_cons, ih hl]
      split_ifs with hpb ha
      · rw [List.orderedInsert_cons, if_neg hab]
      · rfl
      · rfl
      · rfl

/-- Sorting commutes with selecting. -/
theorem filter_inKeyOrder (p : α → Bool) (l : List α) :
    (inKeyOrder key l).filter p = inKeyOrder key (l.filter p) := by
  induction l with
  | nil => rfl
  | cons a l ih =>
    rw [inKeyOrder_cons, filter_orderedInsert p a (pairwise_inKeyOrder l), ih, List.filter_cons]
    split_ifs with ha
    · rw [inKeyOrder_cons]
    · rfl

/-- An ordered list is its part up to a key followed by the rest. -/
theorem append_of_pairwise (m : β) {l : List α} (h : l.Pairwise fun a b => key a ≤ key b) :
    l = l.filter (fun a => key a ≤ m) ++ l.filter (fun a => m < key a) := by
  induction l with
  | nil => rfl
  | cons a l ih =>
    obtain ⟨ha, hl⟩ := List.pairwise_cons.mp h
    by_cases hm : key a ≤ m
    · rw [List.filter_cons_of_pos (by simpa using hm), List.filter_cons_of_neg (by simpa using hm),
        List.cons_append, ← ih hl]
    · have hlate : ∀ b ∈ a :: l, m < key b := by
        intro b hb
        rcases List.mem_cons.mp hb with rfl | hb
        · exact not_le.mp hm
        · exact (not_le.mp hm).trans_le (ha b hb)
      rw [List.filter_eq_nil_iff.mpr fun b hb => by simpa using hlate b hb, List.nil_append,
        List.filter_eq_self.mpr fun b hb => by simpa using hlate b hb]

/-- A list cut at a key sorts piece by piece. -/
theorem inKeyOrder_split (m : β) (l : List α) : inKeyOrder key l =
    inKeyOrder key (l.filter fun a => key a ≤ m) ++ inKeyOrder key (l.filter fun a => m < key a) := by
  conv_lhs => rw [append_of_pairwise m (pairwise_inKeyOrder l)]
  rw [filter_inKeyOrder, filter_inKeyOrder]

end Airspace
