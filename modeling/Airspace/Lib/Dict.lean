import Mathlib.Data.List.Nodup
import Mathlib.Data.List.Basic
import Mathlib.Data.List.Induction

/-! Insertion-ordered dictionaries.

    A dictionary is an association list whose keys are pairwise distinct; the distinctness is a field,
    so a table with a repeated key cannot be built. Assignment to a present key overwrites in place,
    assignment to an absent key appends, deletion keeps the order of the rest. Every operation is
    characterised by what a later lookup finds, so proofs never look at the list itself. -/

namespace Airspace

/-- An association list with distinct keys, in insertion order. -/
structure Dict (κ ν : Type*) where
  items : List (κ × ν)
  nodup : (items.map Prod.fst).Nodup

namespace Dict

variable {κ ν μ : Type*}

/-- The dictionary with no entry. -/
def empty : Dict κ ν := ⟨[], List.nodup_nil⟩

/-- The keys, in insertion order. -/
def keys (d : Dict κ ν) : List κ := d.items.map Prod.fst

/-- The values, in insertion order. -/
def values (d : Dict κ ν) : List ν := d.items.map Prod.snd

/-- Keep the entries whose key satisfies `p`. -/
def filterKeys (d : Dict κ ν) (p : κ → Bool) : Dict κ ν :=
  ⟨d.items.filter (fun e => p e.1), d.nodup.sublist (List.Sublist.map _ List.filter_sublist)⟩

/-- Keep the entries whose value satisfies `p`. -/
def filterValues (d : Dict κ ν) (p : ν → Bool) : Dict κ ν :=
  ⟨d.items.filter (fun e => p e.2), d.nodup.sublist (List.Sublist.map _ List.filter_sublist)⟩

/-- Rewrite every value in place. -/
def mapValues (d : Dict κ ν) (f : ν → μ) : Dict κ μ :=
  ⟨d.items.map (fun e => (e.1, f e.2)), by
    have h := d.nodup
    rwa [List.map_map, show Prod.fst ∘ (fun e : κ × ν => (e.1, f e.2)) = Prod.fst from rfl]⟩

theorem items_mapValues (d : Dict κ ν) (f : ν → μ) :
    (d.mapValues f).items = d.items.map fun e => (e.1, f e.2) := rfl

@[simp] theorem keys_mapValues (d : Dict κ ν) (f : ν → μ) : (d.mapValues f).keys = d.keys := by
  simp [keys, mapValues]

/-- Rewriting values that stay as they are changes nothing. -/
theorem mapValues_eq_self {d : Dict κ ν} {f : ν → ν} (h : ∀ v ∈ d.values, f v = v) :
    d.mapValues f = d := by
  obtain ⟨items, nodup⟩ := d
  simp only [mapValues, mk.injEq]
  rw [List.map_congr_left (g := id), List.map_id]
  rintro ⟨k, v⟩ hkv
  rw [h v (List.mem_map.mpr ⟨_, hkv, rfl⟩)]
  rfl

variable [DecidableEq κ]

/-- The value under `k`, if any. -/
def get? (d : Dict κ ν) (k : κ) : Option ν := (d.items.find? (fun e => e.1 = k)).map Prod.snd

/-- Delete the entry under `k`, if any. -/
def erase (d : Dict κ ν) (k : κ) : Dict κ ν := d.filterKeys (fun k' => k' ≠ k)

/-- The list behind an assignment. -/
def setItems (l : List (κ × ν)) (k : κ) (v : ν) : List (κ × ν) :=
  if k ∈ l.map Prod.fst then l.map (fun e => if e.1 = k then (k, v) else e) else l ++ [(k, v)]

theorem map_fst_setItems (l : List (κ × ν)) (k : κ) (v : ν) :
    (setItems l k v).map Prod.fst =
      if k ∈ l.map Prod.fst then l.map Prod.fst else l.map Prod.fst ++ [k] := by
  unfold setItems
  split
  · rw [List.map_map]
    refine List.map_congr_left ?_
    intro e _
    by_cases he : e.1 = k <;> simp [he]
  · simp

/-- Assign `v` to `k`: overwrite in place when `k` is present, append otherwise. -/
def set (d : Dict κ ν) (k : κ) (v : ν) : Dict κ ν :=
  ⟨setItems d.items k v, by
    rw [map_fst_setItems]
    split
    · exact d.nodup
    · next h => exact List.Nodup.append d.nodup (List.nodup_singleton k) (by simpa using h)⟩

theorem get?_eq_some_iff {d : Dict κ ν} {k : κ} {v : ν} : d.get? k = some v ↔ (k, v) ∈ d.items := by
  unfold get?
  constructor
  · intro h
    obtain ⟨e, he, rfl⟩ := Option.map_eq_some_iff.mp h
    have hk : e.1 = k := by simpa using List.find?_some he
    exact hk ▸ List.mem_of_find?_eq_some he
  · intro h
    cases hf : d.items.find? (fun e => e.1 = k) with
    | none =>
      have hne : ¬ (k = k) := by simpa using List.find?_eq_none.mp hf (k, v) h
      exact absurd rfl hne
    | some e =>
      have hk : e.1 = k := by simpa using List.find?_some hf
      have := List.inj_on_of_nodup_map d.nodup (List.mem_of_find?_eq_some hf) h hk
      rw [this]; rfl

theorem get?_eq_none_iff {d : Dict κ ν} {k : κ} : d.get? k = none ↔ k ∉ d.keys := by
  simp only [get?, Option.map_eq_none_iff, List.find?_eq_none, keys, List.mem_map, not_exists,
    not_and, decide_eq_true_eq]

theorem mem_keys_iff {d : Dict κ ν} {k : κ} : k ∈ d.keys ↔ ∃ v, d.get? k = some v := by
  rw [← Option.isSome_iff_exists, ← not_iff_not, Bool.not_eq_true, Option.isSome_eq_false_iff,
    Option.isNone_iff_eq_none, get?_eq_none_iff]

theorem mem_values_iff {d : Dict κ ν} {v : ν} : v ∈ d.values ↔ ∃ k, d.get? k = some v := by
  simp only [values, List.mem_map, get?_eq_some_iff]
  constructor
  · rintro ⟨e, he, rfl⟩; exact ⟨e.1, he⟩
  · rintro ⟨k, hk⟩; exact ⟨(k, v), hk, rfl⟩

/-- What is listed for the entries, where each result tells the key it comes from: under one key there is what
    is listed for its entry. -/
theorem filter_flatMap_items {d : Dict κ ν} {f : κ × ν → List μ} (key : μ → κ)
    (h : ∀ e ∈ d.items, ∀ b ∈ f e, key b = e.1) (k : κ) :
    (d.items.flatMap f).filter (fun b => key b = k) = (d.get? k).elim [] fun v => f (k, v) := by
  obtain ⟨items, nodup⟩ := d
  simp only [get?] at h ⊢
  induction items with
  | nil => rfl
  | cons e items ih =>
    obtain ⟨hnot, hnodup⟩ := List.nodup_cons.mp nodup
    have hrest := ih hnodup fun e he => h e (List.mem_cons_of_mem _ he)
    have hhead := h e List.mem_cons_self
    rw [List.flatMap_cons, List.filter_append, hrest]
    by_cases he : e.1 = k
    · have hnone : items.find? (fun e => e.1 = k) = none := by
        rw [List.find?_eq_none]
        intro e' he' heq
        exact hnot (he ▸ of_decide_eq_true heq ▸ List.mem_map_of_mem he')
      rw [hnone, List.find?_cons_of_pos (by simp [he]), List.filter_eq_self.mpr ?_]
      · subst he
        simp
      · intro b hb
        exact decide_eq_true ((hhead b hb).trans he)
    · rw [List.find?_cons_of_neg (by simpa using he), List.filter_eq_nil_iff.mpr ?_, List.nil_append]
      intro b hb
      simpa [hhead b hb] using he

/-- What is made of the values, where each result tells the key it comes from: under one key there is what
    its value gives. -/
theorem filter_filterMap_values {d : Dict κ ν} {f : ν → Option μ} (key : μ → κ)
    (h : ∀ k v, d.get? k = some v → ∀ b ∈ f v, key b = k) (k : κ) :
    (d.values.filterMap f).filter (fun b => key b = k) = ((d.get? k).bind f).toList := by
  simp only [get?_eq_some_iff] at h
  obtain ⟨items, nodup⟩ := d
  simp only [values, get?] at h ⊢
  induction items with
  | nil => rfl
  | cons e items ih =>
    obtain ⟨hnot, hnodup⟩ := List.nodup_cons.mp nodup
    have hrest := ih hnodup fun k v hmem => h k v (List.mem_cons_of_mem _ hmem)
    have hhead : ∀ b ∈ f e.2, key b = e.1 := h e.1 e.2 (List.mem_cons_self ..)
    by_cases he : e.1 = k
    · have hnone : items.find? (fun e => e.1 = k) = none := by
        rw [List.find?_eq_none]
        intro e' he' heq
        exact hnot (he ▸ of_decide_eq_true heq ▸ List.mem_map_of_mem he')
      rw [hnone] at hrest
      rw [List.map_cons, List.filterMap_cons, List.find?_cons_of_pos (by simp [he])]
      cases hf : f e.2 with
      | none => simpa [hf] using hrest
      | some b =>
        have hb : key b = k := (hhead b hf).trans he
        rw [List.filter_cons_of_pos (by simp [hb]), hrest]
        simp [hf]
    · rw [List.map_cons, List.filterMap_cons, List.find?_cons_of_neg (by simp [he]), ← hrest]
      cases hf : f e.2 with
      | none => rfl
      | some b =>
        have hb : key b ≠ k := hhead b hf ▸ he
        exact List.filter_cons_of_neg (by simp [hb])

@[simp] theorem get?_empty (k : κ) : (empty : Dict κ ν).get? k = none := rfl

theorem get?_filterKeys (d : Dict κ ν) (p : κ → Bool) (k : κ) :
    (d.filterKeys p).get? k = if p k then d.get? k else none := by
  ext v
  by_cases hp : p k <;> simp [get?_eq_some_iff, filterKeys, hp]

theorem get?_filterValues (d : Dict κ ν) (p : ν → Bool) (k : κ) :
    (d.filterValues p).get? k = (d.get? k).filter p := by
  ext v
  simp [get?_eq_some_iff, filterValues, Option.filter_eq_some_iff]

theorem get?_mapValues (d : Dict κ ν) (f : ν → μ) (k : κ) :
    (d.mapValues f).get? k = (d.get? k).map f := by
  ext w
  simp only [get?_eq_some_iff, mapValues, List.mem_map, Prod.mk.injEq, Option.map_eq_some_iff]
  constructor
  · rintro ⟨e, he, rfl, rfl⟩; exact ⟨e.2, he, rfl⟩
  · rintro ⟨v, hv, rfl⟩; exact ⟨(k, v), hv, rfl, rfl⟩

@[simp] theorem get?_erase (d : Dict κ ν) (k k' : κ) :
    (d.erase k).get? k' = if k' = k then none else d.get? k' := by
  rw [erase, get?_filterKeys]
  by_cases h : k' = k <;> simp [h]

@[simp] theorem erase_erase (d : Dict κ ν) (k : κ) : (d.erase k).erase k = d.erase k := by
  simp [erase, filterKeys, List.filter_filter]

theorem mem_items_set {d : Dict κ ν} {k k' : κ} {v v' : ν} :
    (k', v') ∈ (d.set k v).items ↔ (k' = k ∧ v' = v) ∨ (k' ≠ k ∧ (k', v') ∈ d.items) := by
  unfold set setItems
  split
  · next hk =>
    simp only [List.mem_map] at hk ⊢
    constructor
    · rintro ⟨e, he, heq⟩
      by_cases h : e.1 = k
      · rw [if_pos h] at heq; cases heq; exact Or.inl ⟨rfl, rfl⟩
      · rw [if_neg h] at heq; subst heq; exact Or.inr ⟨h, he⟩
    · rintro (⟨rfl, rfl⟩ | ⟨hne, hmem⟩)
      · obtain ⟨e, he, hek⟩ := hk; exact ⟨e, he, if_pos hek⟩
      · exact ⟨(k', v'), hmem, if_neg hne⟩
  · next hk =>
    have hne : ∀ w, (k, w) ∈ d.items → False := fun w hw => hk (List.mem_map.mpr ⟨_, hw, rfl⟩)
    simp only [List.mem_append, List.mem_singleton, Prod.mk.injEq]
    constructor
    · rintro (h | h)
      · exact Or.inr ⟨fun he => hne v' (he ▸ h), h⟩
      · exact Or.inl h
    · rintro (h | ⟨_, h⟩)
      · exact Or.inr h
      · exact Or.inl h

/-- Assignment changes exactly one key. -/
@[simp] theorem get?_set (d : Dict κ ν) (k k' : κ) (v : ν) :
    (d.set k v).get? k' = if k' = k then some v else d.get? k' := by
  ext w
  rw [get?_eq_some_iff, mem_items_set]
  by_cases h : k' = k
  · simp [h, eq_comm]
  · simp [h, get?_eq_some_iff]

theorem setItems_of_mem {l : List (κ × ν)} {k : κ} (h : k ∈ l.map Prod.fst) (v : ν) :
    setItems l k v = l.map fun e => if e.1 = k then (k, v) else e := if_pos h

/-- A second assignment to a key replaces the first. -/
@[simp] theorem set_set (d : Dict κ ν) (k : κ) (v w : ν) : (d.set k v).set k w = d.set k w := by
  have hitems : setItems (setItems d.items k v) k w = setItems d.items k w := by
    have hmem : k ∈ (setItems d.items k v).map Prod.fst := by
      rw [map_fst_setItems]
      split_ifs with h
      · exact h
      · simp
    rw [setItems_of_mem hmem]
    unfold setItems
    split_ifs with h
    · rw [List.map_map]
      refine List.map_congr_left fun e _ => ?_
      by_cases he : e.1 = k <;> simp [he]
    · have hother : d.items.map (fun e => if e.1 = k then (k, w) else e) = d.items := by
        refine (List.map_congr_left (g := id) fun e he => if_neg ?_).trans (List.map_id _)
        rintro rfl
        exact h (List.mem_map_of_mem he)
      rw [List.map_append, hother, List.map_singleton, if_pos rfl]
  simp only [set, hitems]

/-- An assignment changes nothing exactly when the key holds that value. -/
theorem set_eq_self_iff {d : Dict κ ν} {k : κ} {v : ν} : d.set k v = d ↔ d.get? k = some v := by
  constructor
  · intro h
    rw [← h, get?_set, if_pos rfl]
  · intro h
    have hmem : (k, v) ∈ d.items := get?_eq_some_iff.mp h
    obtain ⟨items, nodup⟩ := d
    simp only [set, mk.injEq]
    rw [setItems_of_mem (List.mem_map_of_mem hmem)]
    refine (List.map_congr_left fun e he => ?_).trans (List.map_id _)
    by_cases hk : e.1 = k
    · have heq : e = (k, v) := List.inj_on_of_nodup_map nodup he hmem hk
      rw [if_pos hk, heq, id]
    · rw [if_neg hk, id]

/-- Rewriting the values commutes with assignment. -/
theorem set_mapValues (d : Dict κ ν) (f : ν → μ) (k : κ) (v : ν) :
    (d.mapValues f).set k (f v) = (d.set k v).mapValues f := by
  have hkeys : (d.items.map fun e => (e.1, f e.2)).map Prod.fst = d.items.map Prod.fst := by
    simp [List.map_map, Function.comp_def]
  simp only [set, mapValues, mk.injEq, setItems, hkeys]
  split_ifs with hk
  · rw [List.map_map, List.map_map]
    refine List.map_congr_left fun e _ => ?_
    by_cases h : e.1 = k <;> simp [h]
  · simp

/-- Rewriting the values commutes with deletion. -/
theorem erase_mapValues (d : Dict κ ν) (f : ν → μ) (k : κ) :
    (d.mapValues f).erase k = (d.erase k).mapValues f := by
  simp [erase, filterKeys, mapValues, List.filter_map, Function.comp_def]

@[simp] theorem mem_keys_set {d : Dict κ ν} {k k' : κ} {v : ν} :
    k' ∈ (d.set k v).keys ↔ k' = k ∨ k' ∈ d.keys := by
  simp only [mem_keys_iff, get?_set]
  by_cases h : k' = k <;> simp [h]

@[simp] theorem mem_keys_erase {d : Dict κ ν} {k k' : κ} :
    k' ∈ (d.erase k).keys ↔ k' ≠ k ∧ k' ∈ d.keys := by
  simp only [mem_keys_iff, get?_erase]
  by_cases h : k' = k <;> simp [h]

/-- `{key(a): value(a) for a in l}`. -/
def collect {α : Type*} (l : List α) (key : α → κ) (value : α → ν) : Dict κ ν :=
  l.foldl (fun d a => d.set (key a) (value a)) empty

/-- Rewriting the values of a comprehension is a comprehension. -/
theorem mapValues_collect {α : Type*} (l : List α) (key : α → κ) (value : α → ν) (f : ν → μ) :
    (collect l key value).mapValues f = collect l key fun a => f (value a) := by
  induction l using List.reverseRecOn with
  | nil => rfl
  | append_singleton l a ih =>
    rw [collect, collect, List.foldl_concat, List.foldl_concat, ← set_mapValues]
    exact congrArg (fun d => d.set (key a) (f (value a))) ih

/-- A comprehension keeps, under one key, what the last element of the key gives. -/
theorem get?_collect {α : Type*} (l : List α) (key : α → κ) (value : α → ν) (k : κ) :
    (collect l key value).get? k = ((l.filter fun a => key a = k).getLast?).map value := by
  induction l using List.reverseRecOn with
  | nil => rfl
  | append_singleton l a ih =>
    have hstep : collect (l ++ [a]) key value = (collect l key value).set (key a) (value a) :=
      List.foldl_concat ..
    rw [hstep, get?_set, ih, List.filter_append]
    by_cases hk : key a = k
    · rw [if_pos hk.symm, List.filter_cons_of_pos (by simpa using hk), List.filter_nil, List.getLast?_concat]
      rfl
    · rw [if_neg (Ne.symm hk), List.filter_cons_of_neg (by simpa using hk), List.filter_nil, List.append_nil]

/-- Deleting a list of keys in turn deletes exactly those keys. -/
theorem get?_foldl_erase (ks : List κ) (d : Dict κ ν) (k : κ) :
    (ks.foldl erase d).get? k = if k ∈ ks then none else d.get? k := by
  induction ks generalizing d with
  | nil => simp
  | cons a ks ih =>
    rw [List.foldl_cons, ih, get?_erase]
    by_cases h : k ∈ ks
    · simp [h]
    · by_cases ha : k = a <;> simp [h, ha]

end Dict

end Airspace
