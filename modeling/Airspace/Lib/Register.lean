import Mathlib.Data.List.MinMax
import Mathlib.Data.List.Nodup

/-! A register that keeps the newest value.

    Values carry a stamp. A value overwrites the one held unless it is older, and a value that ends the
    register empties it, whatever its stamp. An empty register has nothing to compare with, so the order
    of arrival decides whether the register ends up with the newest value or with nothing once that value
    is an end. -/

namespace Airspace

namespace Register

variable {α β : Type*} [LinearOrder β] (stamp : α → β) (ends : α → Bool)

/-- One value arriving at the register. -/
def put (held : Option α) (x : α) : Option α :=
  if ends x then none else if held.any fun e => decide (stamp x < stamp e) then held else some x

/-- The newest value of a list, or nothing if it is an end. -/
def newest (l : List α) : Option α := (l.argmax stamp).filter fun x => !ends x

/-- No end arrives after a newest value that lives, and after a newest value that ends an end arrives
    last. -/
def Settled (l : List α) : Prop :=
  ∀ u ∈ l.argmax stamp, if ends u then ∀ last ∈ l.getLast?, ends last
    else ∀ before after, l = before ++ u :: after → ∀ v ∈ after, ¬ ends v

variable {stamp ends} {l l' : List α} {u x : α} {held : Option α}

theorem put_ends (h : ends x) : put stamp ends held x = none := if_pos h

theorem put_older {e : α} (h : ¬ ends x) (hlt : stamp x < stamp e) :
    put stamp ends (some e) x = some e := by
  rw [put, if_neg h, if_pos (by simpa using hlt)]

/-- A value as new as all before it is kept. -/
theorem put_newest (h : ¬ ends x) (hle : ∀ e ∈ held, stamp e ≤ stamp x) :
    put stamp ends held x = some x := by
  rw [put, if_neg h, if_neg]
  intro hany
  obtain ⟨e, he, hlt⟩ := Option.any_eq_true _ _ |>.mp hany
  exact absurd (of_decide_eq_true hlt) (not_lt.mpr (hle e he))

theorem put_ne_none (h : ¬ ends x) : put stamp ends held x ≠ none := by
  rw [put, if_neg h]
  split_ifs with hany
  · rintro rfl
    exact absurd hany Bool.false_ne_true
  · exact Option.some_ne_none x

/-- What is held came in. -/
theorem mem_of_foldl_put (h : l.foldl (put stamp ends) held = some x) : x ∈ l ∨ held = some x := by
  induction l generalizing held with
  | nil => exact .inr h
  | cons a l ih =>
    rcases ih h with hmem | hput
    · exact .inl (List.mem_cons_of_mem a hmem)
    · unfold put at hput
      split_ifs at hput with hends hany
      · exact .inr hput
      · obtain rfl := Option.some.inj hput
        exact .inl List.mem_cons_self

/-- The register is empty exactly when an end arrived last. -/
theorem foldl_put_eq_none_iff : l.foldl (put stamp ends) none = none ↔ ∀ last ∈ l.getLast?, ends last := by
  induction l using List.reverseRecOn with
  | nil => simp
  | append_singleton l x _ =>
    rw [List.foldl_append, List.foldl_cons, List.foldl_nil, List.getLast?_concat]
    by_cases hends : ends x
    · rw [put_ends hends]
      refine iff_of_true rfl ?_
      rintro _ ⟨⟩
      exact hends
    · exact iff_of_false (put_ne_none hends) fun h => hends (h x rfl)

/-- A value newer than all that follow stays exactly when none of them is an end. -/
theorem foldl_put_some_iff (hlt : ∀ v ∈ l, stamp v < stamp u) :
    l.foldl (put stamp ends) (some u) = some u ↔ ∀ v ∈ l, ¬ ends v := by
  induction l with
  | nil => simp
  | cons v l ih =>
    rw [List.foldl_cons]
    have hrest : ∀ w ∈ l, stamp w < stamp u := fun w hw => hlt w (List.mem_cons_of_mem v hw)
    by_cases hends : ends v
    · -- what follows an end can only be older than `u`
      rw [put_ends hends]
      refine iff_of_false (fun h => ?_) fun h => h v List.mem_cons_self hends
      rcases mem_of_foldl_put h with hmem | hnone
      · exact lt_irrefl _ (hrest u hmem)
      · cases hnone
    · rw [put_older hends (hlt v List.mem_cons_self), ih hrest, List.forall_mem_cons]
      exact (and_iff_right hends).symm

/-- Arrivals that all live settle. -/
theorem settled_of_live (h : ∀ v ∈ l, ¬ ends v) : Settled stamp ends l := by
  intro u hu
  rw [if_neg (h u (List.argmax_mem hu))]
  rintro before after rfl v hv
  exact h v (by simp [hv])

/-- With distinct stamps the values around the newest one are older. -/
theorem lt_of_argmax {before after : List α} (hdistinct : (l.map stamp).Nodup) (hu : u ∈ l.argmax stamp)
    (hl : l = before ++ u :: after) : (∀ v ∈ before, stamp v < stamp u) ∧ ∀ v ∈ after, stamp v < stamp u := by
  have hle : ∀ v ∈ l, stamp v ≤ stamp u := fun v hv => List.le_of_mem_argmax hv hu
  subst hl
  rw [List.map_append, List.map_cons, List.nodup_append, List.nodup_cons] at hdistinct
  obtain ⟨-, ⟨hafter, -⟩, hbefore⟩ := hdistinct
  refine ⟨fun v hv => ?_, fun v hv => ?_⟩
  · refine lt_of_le_of_ne (hle v (by simp [hv])) ?_
    exact hbefore _ (List.mem_map_of_mem hv) _ List.mem_cons_self
  · refine lt_of_le_of_ne (hle v (by simp [hv])) fun heq => hafter ?_
    exact heq ▸ List.mem_map_of_mem hv

/-- With distinct stamps the register ends up with the newest value exactly when the arrivals settle. -/
theorem foldl_put_eq_newest_iff (hdistinct : (l.map stamp).Nodup) :
    l.foldl (put stamp ends) none = newest stamp ends l ↔ Settled stamp ends l := by
  unfold newest Settled
  cases hmax : l.argmax stamp with
  | none =>
    obtain rfl := List.argmax_eq_none.mp hmax
    simp
  | some u =>
    have hsome : (∀ w ∈ some u, if ends w then ∀ last ∈ l.getLast?, ends last
        else ∀ before after, l = before ++ w :: after → ∀ v ∈ after, ¬ ends v) ↔
        if ends u then ∀ last ∈ l.getLast?, ends last
        else ∀ before after, l = before ++ u :: after → ∀ v ∈ after, ¬ ends v := by
      simp
    rw [hsome, Option.filter_some]
    by_cases hends : ends u
    · simp only [hends, Bool.not_true, Bool.false_eq_true, if_false, if_true]
      exact foldl_put_eq_none_iff
    · have hkept : ∀ before after, l = before ++ u :: after →
          (l.foldl (put stamp ends) none = some u ↔ ∀ v ∈ after, ¬ ends v) := by
        intro before after hl
        obtain ⟨hbefore, hafter⟩ := lt_of_argmax hdistinct hmax hl
        have hput : put stamp ends (before.foldl (put stamp ends) none) u = some u := by
          refine put_newest hends fun e he => ?_
          rcases mem_of_foldl_put he with hmem | hnone
          · exact (hbefore e hmem).le
          · cases hnone
        rw [hl, List.foldl_append, List.foldl_cons, hput]
        exact foldl_put_some_iff hafter
      simp only [hends, Bool.not_false, if_true]
      obtain ⟨before, after, hl⟩ := List.append_of_mem (List.argmax_mem hmax)
      constructor
      · exact fun h before after hl => (hkept before after hl).mp h
      · exact fun h => (hkept before after hl).mpr (h before after hl)

/-- With distinct stamps the newest value does not depend on the order. -/
theorem newest_perm (hperm : l.Perm l') (hdistinct : (l.map stamp).Nodup) :
    newest stamp ends l = newest stamp ends l' := by
  unfold newest
  congr 1
  cases hmax : l.argmax stamp with
  | none =>
    obtain rfl := List.argmax_eq_none.mp hmax
    rw [List.nil_perm.mp hperm, List.argmax_nil]
  | some u =>
    cases hmax' : l'.argmax stamp with
    | none =>
      obtain rfl := List.argmax_eq_none.mp hmax'
      rw [List.perm_nil.mp hperm, List.argmax_nil] at hmax
      cases hmax
    | some u' =>
      have hu : u ∈ l := List.argmax_mem hmax
      have hu' : u' ∈ l := hperm.mem_iff.mpr (List.argmax_mem hmax')
      have hle : stamp u ≤ stamp u' := List.le_of_mem_argmax (hperm.mem_iff.mp hu) hmax'
      have hge : stamp u' ≤ stamp u := List.le_of_mem_argmax hu' hmax
      rw [List.inj_on_of_nodup_map hdistinct hu hu' (le_antisymm hle hge)]

end Register

end Airspace
