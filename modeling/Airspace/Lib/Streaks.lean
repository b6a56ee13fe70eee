import Airspace.Lib.Dict
import Airspace.Lib.KeyOrder
import Mathlib.Data.List.SplitBy
import Mathlib.Order.Bounds.Basic
import Mathlib.Order.MinMax

/-! Grouping a log by a key and splitting it into streaks.

    A streak is a list with at least one element. A loop holds the streak it is in, extends it by the next
    element while that is near its last one, and otherwise closes it and starts the next. Over a list in the
    order of a key, where elements of one key are near, the streaks cover separate stretches of the key: an
    element lies within exactly one, and each holds all elements that lie within it. -/

namespace Airspace

variable {α β γ κ : Type*}

/-- Elements in a row, at least one. -/
@[ext] structure Streak (α : Type*) where
  elements : List α
  nonempty : elements ≠ []

namespace Streak

def single (a : α) : Streak α := ⟨[a], List.cons_ne_nil a []⟩

def push (s : Streak α) (a : α) : Streak α := ⟨s.elements ++ [a], by simp⟩

def first (s : Streak α) : α := s.elements.head s.nonempty

def last (s : Streak α) : α := s.elements.getLast s.nonempty

/-- The smallest value its elements give. -/
def least [Min β] (s : Streak α) (f : α → β) : β :=
  s.elements.tail.foldl (fun smallest a => min smallest (f a)) (f s.first)

/-- The elements in the order of a key. -/
def inOrder [LinearOrder β] (key : α → β) (s : Streak α) : Streak α where
  elements := inKeyOrder key s.elements
  nonempty := by
    have hperm : (inKeyOrder key s.elements).Perm s.elements := inKeyOrder_perm _
    exact fun h => s.nonempty (h ▸ hperm).nil_eq.symm

theorem first_mem (s : Streak α) : s.first ∈ s.elements := List.head_mem s.nonempty

theorem last_mem (s : Streak α) : s.last ∈ s.elements := List.getLast_mem s.nonempty

theorem elements_eq (s : Streak α) : s.elements = s.first :: s.elements.tail :=
  (List.cons_head_tail s.nonempty).symm

/-- A loop that keeps the smaller of two ends with the smallest. -/
theorem isLeast_foldl_min [LinearOrder β] (f : α → β) (a : α) (l : List α) :
    IsLeast {b | ∃ c ∈ a :: l, f c = b} (l.foldl (fun smallest c => min smallest (f c)) (f a)) := by
  induction l using List.reverseRecOn with
  | nil => exact ⟨⟨a, by simp⟩, by rintro b ⟨c, hc, rfl⟩; rw [List.mem_singleton.mp hc]; rfl⟩
  | append_singleton l d ih =>
    obtain ⟨⟨c, hc, hleast⟩, hle⟩ := ih
    rw [List.foldl_concat]
    constructor
    · rcases min_choice (l.foldl (fun smallest c => min smallest (f c)) (f a)) (f d) with h | h
      · exact ⟨c, by rw [← List.cons_append]; exact List.mem_append_left _ hc, hleast.trans h.symm⟩
      · exact ⟨d, by simp, h.symm⟩
    · rintro b ⟨e, he, rfl⟩
      rw [← List.cons_append] at he
      rcases List.mem_append.mp he with he | he
      · exact (min_le_left _ _).trans (hle ⟨e, he, rfl⟩)
      · rw [List.mem_singleton.mp he]
        exact min_le_right _ _

theorem isLeast_least [LinearOrder β] (s : Streak α) (f : α → β) :
    IsLeast {b | ∃ a ∈ s.elements, f a = b} (s.least f) := by
  rw [s.elements_eq]
  exact isLeast_foldl_min f s.first s.elements.tail

section Split

variable (near : α → α → Bool) (close : Streak α → β)

/-- The loop body: extend the streak, or close it and start the next. -/
def extend (s : List β × Streak α) (a : α) : List β × Streak α :=
  if near s.2.last a then (s.1, s.2.push a) else (s.1 ++ [close s.2], single a)

/-- The loop over a list that is not empty, with what is closed already. -/
def closeAll (done : List β) (l : Streak α) : List β :=
  let s := l.elements.tail.foldl (extend near close) (done, single l.first)
  s.1 ++ [close s.2]

/-- The streaks of a list. -/
def split (l : List α) : List (Streak α) :=
  (l.splitBy near).pmap mk fun _ hm => List.ne_nil_of_mem_splitBy hm

theorem map_elements_split (l : List α) : (split near l).map elements = l.splitBy near := by
  rw [split, List.map_pmap, List.pmap_eq_map, List.map_id']

theorem flatMap_split (l : List α) : (split near l).flatMap elements = l := by
  rw [List.flatMap_def, map_elements_split, List.flatten_splitBy]

/-- The loop from a streak whose last element is `a`, in step with the splitting of the rest. -/
theorem foldl_extend (l : List α) (done : List β) (closed : List (Streak α)) (g : List α) (a : α)
    (s : Streak α) (hs : s.elements = (a :: g).reverse) :
    ∃ streaks : List (Streak α),
      (l.foldl (extend near close) (done ++ closed.map close, s)).1 ++
        [close (l.foldl (extend near close) (done ++ closed.map close, s)).2] = done ++ streaks.map close ∧
      streaks.map elements = List.splitBy.loop near l a g (closed.map elements).reverse := by
  induction l generalizing closed g a s with
  | nil => exact ⟨closed ++ [s], by simp, by simp [List.splitBy.loop, hs]⟩
  | cons b l ih =>
    have hlast : s.last = a := by simp [last, hs]
    rw [List.foldl_cons, extend, List.splitBy.loop]
    simp only [hlast]
    cases hnear : near a b with
    | true => exact ih closed (a :: g) b (s.push b) (by simp [push, hs])
    | false =>
      have hclosed : done ++ closed.map close ++ [close s] = done ++ (closed ++ [s]).map close := by simp
      have hacc : (a :: g).reverse :: (closed.map elements).reverse =
          ((closed ++ [s]).map elements).reverse := by simp [hs]
      simp only [Bool.false_eq_true, if_false, hclosed, hacc]
      exact ih (closed ++ [s]) [] b (single b) rfl

/-- The loop closes the streaks of its list in turn. -/
theorem closeAll_eq (done : List β) (l : Streak α) :
    closeAll near close done l = done ++ (split near l.elements).map close := by
  obtain ⟨elements, hne⟩ := l
  obtain ⟨a, rest, rfl⟩ := List.exists_cons_of_ne_nil hne
  obtain ⟨streaks, hresult, hsame⟩ := foldl_extend near close rest done [] [] a (single a) rfl
  have hsplit : streaks = split near (a :: rest) := by
    refine List.map_injective_iff.mpr (fun s t h => Streak.ext h) ?_
    rw [hsame, map_elements_split]
    rfl
  simp only [List.map_nil, List.append_nil] at hresult
  simp only [closeAll, first, List.head_cons, List.tail_cons]
  rw [hresult, hsplit]

variable {near} {l : List α}

theorem isChain_of_mem_split {s : Streak α} (h : s ∈ split near l) :
    s.elements.IsChain fun x y => near x y := by
  refine List.isChain_of_mem_splitBy (l := l) ?_
  rw [← map_elements_split]
  exact List.mem_map_of_mem h

variable (near) in
theorem isChain_split (l : List α) : (split near l).IsChain fun s t => near s.last t.first = false := by
  have h := List.isChain_getLast_head_splitBy near l
  rw [← map_elements_split, List.isChain_map] at h
  exact h.imp fun _ _ ⟨_, _, h⟩ => h

section Ordered

variable [LinearOrder γ] {key : α → γ} (hl : l.Pairwise fun x y => key x ≤ key y)

variable (near) in
include hl in
/-- An earlier streak of an ordered list has no later element than a later streak. -/
theorem pairwise_split_le :
    (∀ s ∈ split near l, s.elements.Pairwise fun x y => key x ≤ key y) ∧
      (split near l).Pairwise fun s t => ∀ x ∈ s.elements, ∀ y ∈ t.elements, key x ≤ key y := by
  rw [← flatMap_split near l, List.flatMap_def, List.pairwise_flatten, List.pairwise_map] at hl
  exact ⟨fun s hs => hl.1 _ (List.mem_map_of_mem hs), hl.2⟩

/-- The first and the last element bound an ordered streak. -/
theorem mem_between {s : Streak α} (hs : s.elements.Pairwise fun x y => key x ≤ key y) {a : α}
    (ha : a ∈ s.elements) : key s.first ≤ key a ∧ key a ≤ key s.last := by
  constructor
  · rw [s.elements_eq] at hs ha
    rcases List.mem_cons.mp ha with rfl | ha
    · exact le_rfl
    · exact (List.pairwise_cons.mp hs).1 a ha
  · rw [← List.dropLast_append_getLast s.nonempty] at hs ha
    rcases List.mem_append.mp ha with ha | ha
    · exact (List.pairwise_append.mp hs).2.2 a ha _ (by simp [last])
    · rw [List.mem_singleton.mp ha]
      exact le_rfl

include hl in
/-- Where elements of one key are near, the streaks keep apart. -/
theorem pairwise_split (hnear : ∀ x y, key x = key y → near x y) :
    (split near l).Pairwise fun s t => key s.last < key t.first := by
  obtain ⟨-, hle⟩ := pairwise_split_le near hl
  have hchain := isChain_split near l
  generalize split near l = streaks at hle hchain
  induction streaks with
  | nil => exact .nil
  | cons s streaks ih =>
    obtain ⟨hs, hrest⟩ := List.pairwise_cons.mp hle
    refine List.pairwise_cons.mpr ⟨fun t ht => ?_, ih hrest hchain.tail⟩
    cases streaks with
    | nil => exact absurd ht List.not_mem_nil
    | cons next streaks =>
      have hgap := (List.isChain_cons_cons.mp hchain).1
      have hnext : key s.last < key next.first := by
        refine lt_of_le_of_ne (hs next List.mem_cons_self _ s.last_mem _ next.first_mem) fun heq => ?_
        rw [hnear _ _ heq] at hgap
        exact Bool.noConfusion hgap
      rcases List.mem_cons.mp ht with rfl | ht
      · exact hnext
      · exact hnext.trans_le ((List.pairwise_cons.mp hrest).1 t ht _ next.first_mem _ t.first_mem)

/-- Within a stretch of the key. -/
def Within (key : α → γ) (s : Streak α) (a : α) : Prop := key s.first ≤ key a ∧ key a ≤ key s.last

instance (key : α → γ) (s : Streak α) (a : α) : Decidable (s.Within key a) := by
  unfold Within
  infer_instance

include hl in
/-- A streak holds all elements of the list that lie within it. -/
theorem filter_within (hnear : ∀ x y, key x = key y → near x y) {s : Streak α} (hs : s ∈ split near l) :
    l.filter (fun a => s.Within key a) = s.elements := by
  obtain ⟨hsorted, -⟩ := pairwise_split_le near hl
  have hapart := pairwise_split hl hnear
  conv_lhs => rw [← flatMap_split near l]
  obtain ⟨before, after, heq⟩ := List.append_of_mem hs
  rw [heq] at hapart hsorted ⊢
  obtain ⟨-, hafter, hbefore⟩ := List.pairwise_append.mp hapart
  rw [List.flatMap_append, List.flatMap_cons, List.filter_append, List.filter_append]
  have hnone : ∀ streaks : List (Streak α), (∀ t ∈ streaks, ∀ a ∈ t.elements, ¬ s.Within key a) →
      (streaks.flatMap elements).filter (fun a => s.Within key a) = [] := by
    intro streaks h
    refine List.filter_eq_nil_iff.mpr fun a ha => ?_
    obtain ⟨t, ht, hat⟩ := List.mem_flatMap.mp ha
    simpa using h t ht a hat
  rw [hnone before ?_, hnone after ?_, List.nil_append, List.append_nil, List.filter_eq_self.mpr ?_]
  · intro a ha
    exact decide_eq_true (mem_between (hsorted s (by simp)) ha)
  · intro t ht a ha hwithin
    have hlate := (List.pairwise_cons.mp hafter).1 t ht
    have hat := mem_between (hsorted t (by simp [ht])) ha
    exact absurd (hlate.trans_le hat.1) (not_lt.mpr hwithin.2)
  · intro t ht a ha hwithin
    have hearly := hbefore t ht s List.mem_cons_self
    have hat := mem_between (hsorted t (by simp [ht])) ha
    exact absurd (hat.2.trans_lt hearly) (not_lt.mpr hwithin.1)

variable (near) in
include hl in
/-- An element of the list lies within exactly one streak. -/
theorem exists_filter_within (hnear : ∀ x y, key x = key y → near x y) {a : α} (ha : a ∈ l) :
    ∃ s, (split near l).filter (fun s => s.Within key a) = [s] := by
  obtain ⟨hsorted, -⟩ := pairwise_split_le near hl
  have hapart := pairwise_split hl hnear
  rw [← flatMap_split near l] at ha
  obtain ⟨s, hs, ha⟩ := List.mem_flatMap.mp ha
  have hwithin : s.Within key a := mem_between (hsorted s hs) ha
  obtain ⟨before, after, heq⟩ := List.append_of_mem hs
  rw [heq] at hapart ⊢
  obtain ⟨-, hafter, hbefore⟩ := List.pairwise_append.mp hapart
  refine ⟨s, ?_⟩
  rw [List.filter_append, List.filter_cons_of_pos (by simpa using hwithin), List.filter_eq_nil_iff.mpr ?_,
    List.filter_eq_nil_iff.mpr ?_, List.nil_append]
  · intro t ht h
    have hlate := (List.pairwise_cons.mp hafter).1 t ht
    exact absurd (hwithin.2.trans_lt hlate) (not_lt.mpr (of_decide_eq_true h).1)
  · intro t ht h
    have hearly := hbefore t ht s List.mem_cons_self
    exact absurd (hearly.trans_le hwithin.1) (not_lt.mpr (of_decide_eq_true h).2)

end Ordered

end Split

section Group

variable [DecidableEq κ]

/-- `groups.setdefault(key(a), []).append(a)` for every element in turn. -/
def group (l : List α) (key : α → κ) : Dict κ (Streak α) :=
  l.foldl (fun groups a => groups.set (key a) ((groups.get? (key a)).elim (single a) fun s => s.push a))
    Dict.empty

/-- A group holds the elements of its key, in order; there is none where there are no elements. -/
theorem get?_group (l : List α) (key : α → κ) (k : κ) :
    ((group l key).get? k).elim [] elements = l.filter fun a => key a = k := by
  induction l using List.reverseRecOn with
  | nil => rfl
  | append_singleton l a ih =>
    have hstep : group (l ++ [a]) key = (group l key).set (key a)
        (((group l key).get? (key a)).elim (single a) fun s => s.push a) := List.foldl_concat ..
    rw [hstep, Dict.get?_set, List.filter_append, ← ih]
    by_cases hk : k = key a
    · subst hk
      rw [if_pos rfl]
      cases (group l key).get? (key a) <;> simp [single, push]
    · rw [if_neg hk, List.filter_cons_of_neg (by simpa using Ne.symm hk), List.filter_nil, List.append_nil]

end Group

end Streak

end Airspace
