import Mathlib.Data.List.TakeWhile

/-! Bounded deques.

    A deque holds at most `maxlen` items, oldest first; the bound is a field. Appending to a full deque
    drops the oldest item. An append leaves a deque as it was only if it is full of that very item. -/

namespace Airspace

/-- A list of at most `maxlen` items, oldest first. -/
@[ext] structure Deque (α : Type*) (maxlen : ℕ) where
  items : List α
  bound : items.length ≤ maxlen

namespace Deque

variable {α : Type*} {maxlen : ℕ}

def empty : Deque α maxlen := ⟨[], Nat.zero_le _⟩

/-- The items after an append: a full deque loses its oldest. -/
def appendItems (maxlen : ℕ) (l : List α) (x : α) : List α :=
  if l.length < maxlen then l ++ [x] else (l ++ [x]).tail

def append (d : Deque α maxlen) (x : α) : Deque α maxlen :=
  ⟨appendItems maxlen d.items x, by
    have h := d.bound
    unfold appendItems
    split_ifs
    · rw [List.length_append, List.length_singleton]; omega
    · rw [List.length_tail, List.length_append, List.length_singleton]; omega⟩

/-- What is left after popping from the left while `p` holds. -/
def dropWhile (d : Deque α maxlen) (p : α → Bool) : Deque α maxlen :=
  ⟨d.items.dropWhile p, Nat.le_trans (List.dropWhile_sublist p).length_le d.bound⟩

@[simp] theorem items_empty : (empty : Deque α maxlen).items = [] := rfl

@[simp] theorem items_append (d : Deque α maxlen) (x : α) :
    (d.append x).items = appendItems maxlen d.items x := rfl

@[simp] theorem items_dropWhile (d : Deque α maxlen) (p : α → Bool) :
    (d.dropWhile p).items = d.items.dropWhile p := rfl

/-- Shifting an item in changes nothing exactly when all are that item. -/
theorem tail_concat_eq_self_iff {l : List α} {x : α} :
    (l ++ [x]).tail = l ↔ l = List.replicate l.length x := by
  induction l with
  | nil => simp
  | cons a l ih =>
    cases l with
    | nil => simp [eq_comm]
    | cons b l =>
      simp only [List.cons_append, List.tail_cons, List.cons.injEq, List.length_cons,
        List.replicate_succ] at ih ⊢
      constructor
      · rintro ⟨rfl, h⟩
        obtain ⟨hb, hl⟩ := ih.mp h
        exact ⟨hb, hb, hl⟩
      · rintro ⟨ha, hb, hl⟩
        exact ⟨hb.trans ha.symm, ih.mpr ⟨hb, hl⟩⟩

theorem append_eq_self_iff {d : Deque α maxlen} {x : α} :
    d.append x = d ↔ d.items = List.replicate maxlen x := by
  rw [Deque.ext_iff, items_append, appendItems]
  split_ifs with hroom
  · refine iff_of_false (fun h => ?_) fun h => ?_
    · have := congrArg List.length h
      simp at this
    · rw [h, List.length_replicate] at hroom
      omega
  · rw [tail_concat_eq_self_iff, Nat.le_antisymm d.bound (Nat.not_lt.mp hroom)]

/-- A deque is full of an item after its append exactly when it ended with that item before. -/
theorem append_eq_replicate_iff {n : ℕ} {d : Deque α (n + 1)} {x : α} :
    (d.append x).items = List.replicate (n + 1) x ↔ List.replicate n x <:+ d.items := by
  rw [items_append, appendItems, List.replicate_succ']
  split_ifs with hroom
  · rw [List.append_left_inj]
    refine ⟨fun h => h ▸ List.suffix_rfl, fun h => (h.eq_of_length_le ?_).symm⟩
    rw [List.length_replicate]
    omega
  · have hbound := d.bound
    cases hl : d.items with
    | nil =>
      rw [hl, List.length_nil] at hroom
      omega
    | cons a l =>
      rw [hl, List.length_cons] at hroom hbound
      rw [List.cons_append, List.tail_cons, List.append_left_inj, List.suffix_cons_iff]
      constructor
      · exact fun h => .inr (h ▸ List.suffix_rfl)
      · rintro (h | h)
        · have := congrArg List.length h
          rw [List.length_replicate, List.length_cons] at this
          omega
        · refine (h.eq_of_length_le ?_).symm
          rw [List.length_replicate]
          omega

/-- What `dropWhile` leaves unchanged does not start with an item that it drops. -/
theorem not_of_dropWhile_eq_self {p : α → Bool} {a : α} {l : List α} (h : (a :: l).dropWhile p = a :: l) :
    p a = false := by
  rw [List.dropWhile_cons] at h
  split_ifs at h with ha
  · have hlength := congrArg List.length h
    have hle := (List.dropWhile_sublist (l := l) p).length_le
    rw [List.length_cons] at hlength
    omega
  · exact Bool.not_eq_true _ ▸ ha

/-- Popping what `p` holds of and appending an item gives the deque back exactly when the item is not
    popped and fills it, or is popped and alone in it. -/
theorem refill_eq_self_iff {n : ℕ} {d : Deque α (n + 1)} {p : α → Bool} {x : α} :
    (d.dropWhile p).append x = d ↔
      (p x = false ∧ d.items = List.replicate (n + 1) x) ∨ (p x = true ∧ d.items = [x]) := by
  constructor
  · intro h
    by_cases hsame : d.dropWhile p = d
    · rw [hsame, append_eq_self_iff] at h
      have hitems := congrArg items hsame
      rw [items_dropWhile, h, List.replicate_succ] at hitems
      exact .inl ⟨not_of_dropWhile_eq_self hitems, h⟩
    · have hbound := d.bound
      rw [Deque.ext_iff, items_append, items_dropWhile] at h
      rw [Deque.ext_iff, items_dropWhile] at hsame
      cases hl : d.items with
      | nil => exact absurd (by rw [hl, List.dropWhile_nil]) hsame
      | cons a l =>
        rw [hl] at h hsame hbound
        rw [List.dropWhile_cons] at h hsame
        split_ifs at h hsame with ha
        · -- one item is popped and one appended, so nothing behind the first was popped
          have hle := (List.dropWhile_sublist (l := l) p).length_le
          rw [List.length_cons] at hbound
          rw [appendItems, if_pos (by omega)] at h
          have hlength := congrArg List.length h
          rw [List.length_append, List.length_singleton, List.length_cons] at hlength
          have hkept : l.dropWhile p = l := (List.dropWhile_sublist p).eq_of_length (by omega)
          rw [hkept] at h
          cases l with
          | nil =>
            obtain rfl := (List.cons.inj h).1
            exact .inr ⟨ha, rfl⟩
          | cons b l =>
            obtain rfl := (List.cons.inj h).1
            rw [not_of_dropWhile_eq_self hkept] at ha
            exact absurd ha Bool.false_ne_true
        · exact absurd rfl hsame
  · rintro (⟨hx, h⟩ | ⟨hx, h⟩)
    · have hsame : d.dropWhile p = d := by
        rw [Deque.ext_iff, items_dropWhile, h, List.replicate_succ, List.dropWhile_cons_of_neg (by simp [hx])]
      rw [hsame]
      exact append_eq_self_iff.mpr h
    · rw [Deque.ext_iff, items_append, items_dropWhile, h]
      simp [hx, appendItems]

/-- Items that are not dropped stay at the end. -/
theorem replicate_suffix_dropWhile_iff {n : ℕ} {p : α → Bool} {x : α} {l : List α} (hx : p x = false) :
    List.replicate n x <:+ l.dropWhile p ↔ List.replicate n x <:+ l := by
  refine ⟨fun h => h.trans (List.dropWhile_suffix p), ?_⟩
  rintro ⟨before, rfl⟩
  induction before with
  | nil =>
    cases n with
    | zero => exact List.nil_suffix
    | succ n =>
      have hsame : (x :: List.replicate n x).dropWhile p = x :: List.replicate n x :=
        List.dropWhile_cons_of_neg (by simp [hx])
      exact ⟨[], hsame.symm⟩
  | cons a before ih =>
    rw [List.cons_append, List.dropWhile_cons]
    split_ifs
    · exact ih
    · exact List.suffix_append (a :: before) _

/-- An item is alone after its append exactly when the deque was empty. -/
theorem append_eq_singleton_iff {n : ℕ} {d : Deque α (n + 2)} {x : α} :
    (d.append x).items = [x] ↔ d.items = [] := by
  rw [items_append, appendItems]
  split_ifs with hroom
  · simp
  · refine iff_of_false (fun h => ?_) fun h => ?_
    · have hlength := congrArg List.length h
      rw [List.length_tail, List.length_append, List.length_singleton] at hlength
      omega
    · rw [h, List.length_nil] at hroom
      omega

/-! ### Waiting

    An item that is not dropped keeps its place, with the items appended since behind it, until these fill
    the deque. -/

theorem appendItems_suffix (l : List α) (x : α) : appendItems maxlen l x <:+ l ++ [x] := by
  unfold appendItems
  split_ifs
  · exact List.suffix_rfl
  · exact List.tail_suffix _

theorem refill_suffix (d : Deque α maxlen) (p : α → Bool) (x : α) :
    ((d.dropWhile p).append x).items <:+ d.items ++ [x] := by
  obtain ⟨dropped, hdropped⟩ := List.dropWhile_suffix (l := d.items) p
  refine (appendItems_suffix _ x).trans ⟨dropped, ?_⟩
  rw [items_dropWhile, ← List.append_assoc, hdropped]

theorem dropWhile_append_cons {p : α → Bool} {x : α} (hx : p x = false) (front back : List α) :
    (front ++ x :: back).dropWhile p = front.dropWhile p ++ x :: back := by
  induction front with
  | nil => exact List.dropWhile_cons_of_neg (by simp [hx])
  | cons a front ih =>
    rw [List.cons_append, List.dropWhile_cons, List.dropWhile_cons]
    split_ifs
    · exact ih
    · rfl

theorem refill_of_waiting {d : Deque α maxlen} {p : α → Bool} {x : α} {front back : List α}
    (h : d.items = front ++ x :: back) (hx : p x = false) (hroom : back.length + 1 < maxlen) (y : α) :
    ∃ front', ((d.dropWhile p).append y).items = front' ++ x :: (back ++ [y]) := by
  rw [items_append, items_dropWhile, h, dropWhile_append_cons hx, appendItems]
  split_ifs with hlength
  · exact ⟨front.dropWhile p, by simp⟩
  · cases hfront : front.dropWhile p with
    | nil =>
      rw [hfront, List.nil_append, List.length_cons] at hlength
      exact absurd hroom hlength
    | cons a front' => exact ⟨front', by simp⟩

/-- In a list along which `p` only turns false, dropping from the left is filtering. -/
theorem dropWhile_eq_filter {p : α → Bool} {l : List α} (h : l.Pairwise fun a b => p b = true → p a = true) :
    l.dropWhile p = l.filter fun a => !p a := by
  induction l with
  | nil => rfl
  | cons a l ih =>
    obtain ⟨ha, hl⟩ := List.pairwise_cons.mp h
    by_cases hp : p a = true
    · rw [List.dropWhile_cons_of_pos hp, ih hl, List.filter_cons_of_neg (by simp [hp])]
    · have hrest : l.filter (fun b => !p b) = l :=
        List.filter_eq_self.mpr fun b hb => by simpa using fun hpb => hp (ha b hb hpb)
      rw [List.dropWhile_cons_of_neg hp, List.filter_cons_of_pos (by simp [hp]), hrest]

end Deque

end Airspace
