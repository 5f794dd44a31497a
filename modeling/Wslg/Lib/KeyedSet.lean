import Mathlib.Data.List.Find
import Mathlib.Data.List.Lex
import Mathlib.Data.List.Nodup
import Mathlib.Order.Lattice
import Mathlib.Tactic.Common
/-!
# Sets ordered by a key

A `std::set` whose comparison looks at a key only: at most one element per key,
kept in key order. `insert` leaves an element that is already there.
-/

namespace Lib

/-- Elements in strictly increasing key order. -/
structure KeyedSet {α κ : Type} [LinearOrder κ] (key : α → κ) where
  elems : List α
  sorted : elems.Pairwise (fun a b => key a < key b)

namespace KeyedSet

variable {α κ : Type} [LinearOrder κ] {key : α → κ}

theorem ext' {s t : KeyedSet key} (h : s.elems = t.elems) : s = t := by
  cases s
  cases t
  cases h
  rfl

def empty : KeyedSet key := ⟨[], .nil⟩

@[simp] theorem elems_empty : (empty : KeyedSet key).elems = [] := rfl

def keys (s : KeyedSet key) : List κ := s.elems.map key

@[simp] theorem keys_empty : (empty : KeyedSet key).keys = [] := rfl

theorem keys_nodup (s : KeyedSet key) : s.keys.Nodup :=
  List.pairwise_map.2 (s.sorted.imp (fun h => ne_of_lt h))

/-- One element per key. -/
theorem eq_of_key {s : KeyedSet key} {x y : α} (hx : x ∈ s.elems) (hy : y ∈ s.elems) (h : key x = key y) : x = y :=
  List.inj_on_of_nodup_map s.keys_nodup hx hy h

/-! ## Lookup -/

def find (s : KeyedSet key) (k : κ) : Option α := s.elems.find? (fun x => key x = k)

theorem find_eq_some {s : KeyedSet key} {k : κ} {x : α} : s.find k = some x ↔ x ∈ s.elems ∧ key x = k := by
  constructor
  · intro h
    exact ⟨List.mem_of_find?_eq_some h, by simpa using List.find?_some h⟩
  · rintro ⟨hx, rfl⟩
    cases h : s.find (key x) with
    | none =>
      simp only [find, List.find?_eq_none, decide_eq_true_eq] at h
      exact absurd rfl (h x hx)
    | some y =>
      have hy := List.find?_some h
      simp only [decide_eq_true_eq] at hy
      rw [eq_of_key (List.mem_of_find?_eq_some h) hx hy]

theorem find_eq_none {s : KeyedSet key} {k : κ} : s.find k = none ↔ k ∉ s.keys := by
  simp [find, keys]

/-! ## Removal -/

def erase (s : KeyedSet key) (k : κ) : KeyedSet key :=
  ⟨s.elems.filter (fun x => key x ≠ k), s.sorted.filter _⟩

@[simp] theorem mem_erase {s : KeyedSet key} {k : κ} {x : α} :
    x ∈ (s.erase k).elems ↔ x ∈ s.elems ∧ key x ≠ k := by
  simp [erase]

theorem keys_erase (s : KeyedSet key) (k : κ) : (s.erase k).keys = s.keys.filter (· ≠ k) := by
  simp only [keys, erase, List.filter_map]
  rfl

theorem find_erase (s : KeyedSet key) (k k' : κ) : (s.erase k).find k' = if k' = k then none else s.find k' := by
  split
  · subst k'
    simp [find_eq_none, keys_erase]
  · rename_i hne
    apply Option.ext
    intro x
    simp only [find_eq_some, mem_erase]
    constructor
    · rintro ⟨⟨hx, -⟩, hk⟩
      exact ⟨hx, hk⟩
    · rintro ⟨hx, rfl⟩
      exact ⟨⟨hx, hne⟩, rfl⟩

/-- Erasing a key that is not there changes nothing. -/
theorem erase_of_not_mem {s : KeyedSet key} {k : κ} (h : k ∉ s.keys) : s.erase k = s := by
  apply ext'
  simp only [erase, List.filter_eq_self, decide_eq_true_eq]
  intro x hx hk
  exact h (hk ▸ List.mem_map_of_mem hx)

theorem elems_erase_last {s : KeyedSet key} {l : List α} {x : α} (h : s.elems = l ++ [x]) :
    (s.erase (key x)).elems = l := by
  have hsorted := h ▸ s.sorted
  have hbefore : ∀ y ∈ l, key y ≠ key x :=
    fun y hy => ne_of_lt ((List.pairwise_append.1 hsorted).2.2 y hy x (List.mem_singleton_self x))
  change s.elems.filter _ = l
  rw [h, List.filter_append, List.filter_eq_self.2 fun y hy => decide_eq_true (hbefore y hy)]
  simp

/-! ## Insertion -/

def insertList (key : α → κ) (x : α) : List α → List α
  | [] => [x]
  | y :: ys =>
    if key x < key y then x :: y :: ys
    else if key y < key x then y :: insertList key x ys
    else y :: ys

theorem mem_insertList {x y : α} {l : List α} (h : y ∈ insertList key x l) : y = x ∨ y ∈ l := by
  induction l with
  | nil => simpa [insertList] using h
  | cons z zs ih =>
    simp only [insertList] at h
    split at h
    · simpa using h
    split at h
    · rcases List.mem_cons.1 h with rfl | h
      · exact .inr (by simp)
      · exact (ih h).imp_right (List.mem_cons_of_mem z)
    · exact .inr h

theorem sorted_insertList {x : α} {l : List α} (h : l.Pairwise (fun a b => key a < key b)) :
    (insertList key x l).Pairwise (fun a b => key a < key b) := by
  induction l with
  | nil => simp [insertList]
  | cons z zs ih =>
    rw [List.pairwise_cons] at h
    simp only [insertList]
    split
    · rename_i hxz
      refine List.pairwise_cons.2 ⟨?_, List.pairwise_cons.2 h⟩
      intro y hy
      rcases List.mem_cons.1 hy with rfl | hy
      · exact hxz
      · exact hxz.trans (h.1 y hy)
    split
    · rename_i hzx
      refine List.pairwise_cons.2 ⟨?_, ih h.2⟩
      intro y hy
      rcases mem_insertList hy with rfl | hy
      · exact hzx
      · exact h.1 y hy
    · exact List.pairwise_cons.2 h

def insert (s : KeyedSet key) (x : α) : KeyedSet key := ⟨insertList key x s.elems, sorted_insertList s.sorted⟩

theorem mem_insertList_iff {x y : α} {l : List α} (h : l.Pairwise (fun a b => key a < key b)) :
    y ∈ insertList key x l ↔ y ∈ l ∨ (y = x ∧ key x ∉ l.map key) := by
  induction l with
  | nil => simp [insertList]
  | cons z zs ih =>
    rw [List.pairwise_cons] at h
    simp only [insertList]
    split
    · rename_i hxz
      -- smaller than all keys, so it is new
      have hn : key x ∉ (z :: zs).map key := by
        simp only [List.map_cons, List.mem_cons, List.mem_map, not_or, not_exists, not_and]
        refine ⟨ne_of_lt hxz, fun w hw e => ?_⟩
        exact absurd (e ▸ hxz.trans (h.1 w hw)) (lt_irrefl _)
      simp only [List.mem_cons, hn, not_false_eq_true, and_true]
      tauto
    split
    · rename_i hzx
      have hne : key x ≠ key z := ne_of_gt hzx
      simp only [List.mem_cons, ih h.2, List.map_cons, hne, false_or]
      tauto
    · rename_i h1 h2
      -- the key is there
      have e : key x = key z := le_antisymm (not_lt.1 h2) (not_lt.1 h1)
      simp [e]

/-- `insert` adds the element exactly if its key is new. -/
theorem mem_insert {s : KeyedSet key} {x y : α} :
    y ∈ (s.insert x).elems ↔ y ∈ s.elems ∨ (y = x ∧ s.find (key x) = none) := by
  rw [find_eq_none]
  exact mem_insertList_iff s.sorted

theorem insertList_of_mem {x : α} {l : List α} (h : l.Pairwise (fun a b => key a < key b)) (hx : key x ∈ l.map key) :
    insertList key x l = l := by
  induction l with
  | nil => simp at hx
  | cons z zs ih =>
    rw [List.pairwise_cons] at h
    rw [List.map_cons, List.mem_cons] at hx
    rcases hx with e | hx
    · simp [insertList, e]
    · obtain ⟨w, hw, hwx⟩ := List.mem_map.1 hx
      have hzx : key z < key x := hwx ▸ h.1 w hw
      rw [insertList, if_neg (not_lt_of_gt hzx), if_pos hzx, ih h.2 hx]

/-- Inserting a key that is there changes nothing. -/
theorem insert_of_find {s : KeyedSet key} {x y : α} (h : s.find (key x) = some y) : s.insert x = s := by
  obtain ⟨hy, hk⟩ := find_eq_some.1 h
  exact ext' (insertList_of_mem s.sorted (hk ▸ List.mem_map_of_mem hy))

theorem find_insert (s : KeyedSet key) (x : α) (k : κ) :
    (s.insert x).find k = if k = key x ∧ s.find k = none then some x else s.find k := by
  apply Option.ext
  intro y
  rw [find_eq_some, mem_insert]
  split
  · rename_i h
    obtain ⟨rfl, hn⟩ := h
    simp only [Option.some.injEq, hn, and_true]
    constructor
    · rintro ⟨hy | rfl, hk⟩
      · rw [find_eq_some.2 ⟨hy, hk⟩] at hn
        cases hn
      · rfl
    · rintro rfl
      exact ⟨.inr rfl, rfl⟩
  · rename_i h
    rw [find_eq_some]
    constructor
    · rintro ⟨hy | ⟨rfl, hn⟩, rfl⟩
      · exact ⟨hy, rfl⟩
      · exact absurd ⟨rfl, hn⟩ h
    · rintro ⟨hy, rfl⟩
      exact ⟨.inl hy, rfl⟩

/-! ## Replacing an element -/

/-- The element of the same key is replaced. -/
def update (s : KeyedSet key) (x : α) : KeyedSet key where
  elems := s.elems.map (fun y => if key y = key x then x else y)
  sorted := by
    have hkey : ∀ y, key (if key y = key x then x else y) = key y := by
      intro y
      split
      · rename_i h
        exact h.symm
      · rfl
    simpa only [List.pairwise_map, hkey] using s.sorted

theorem mem_update {s : KeyedSet key} {x y : α} :
    y ∈ (s.update x).elems ↔ (y = x ∧ key x ∈ s.keys) ∨ (y ∈ s.elems ∧ key y ≠ key x) := by
  simp only [update, keys, List.mem_map]
  constructor
  · rintro ⟨z, hz, rfl⟩
    split
    · rename_i h
      exact .inl ⟨rfl, z, hz, h⟩
    · rename_i h
      exact .inr ⟨hz, h⟩
  · rintro (⟨rfl, z, hz, h⟩ | ⟨hy, h⟩)
    · exact ⟨z, hz, if_pos h⟩
    · exact ⟨y, hy, if_neg h⟩

/-- A search that finds the old element finds the new one, as long as it tells neither from the other. -/
theorem find?_update {s : KeyedSet key} {x y : α} {p : α → Bool} (hy : s.elems.find? p = some y) (hkey : key y = key x)
    (hp : p y = p x) : (s.update x).elems.find? p = some x := by
  have hsame : ∀ z ∈ s.elems, p (if key z = key x then x else z) = p z := by
    intro z hz
    split
    · rename_i h
      rw [eq_of_key hz (List.mem_of_find?_eq_some hy) (h.trans hkey.symm), hp]
    · rfl
  have hfind : s.elems.find? (p ∘ fun z => if key z = key x then x else z) = some y := (List.find?_congr hsame).trans hy
  rw [update, List.find?_map, hfind, Option.map_some, if_pos hkey]

/-! ## As a map -/

section Update

variable [DecidableEq κ]

theorem find_insert_eq (s : KeyedSet key) (x : α) :
    (s.insert x).find = if s.find (key x) = none then Function.update s.find (key x) (some x) else s.find := by
  funext k
  rw [find_insert]
  by_cases hk : k = key x
  · subst hk
    by_cases hn : s.find (key x) = none
    · rw [if_pos ⟨rfl, hn⟩, if_pos hn, Function.update_self]
    · rw [if_neg fun h => hn h.2, if_neg hn]
  · rw [if_neg fun h => hk h.1]
    split
    · rw [Function.update_of_ne hk]
    · rfl

theorem find_erase_eq (s : KeyedSet key) (k : κ) : (s.erase k).find = Function.update s.find k none := by
  funext k'
  rw [find_erase]
  by_cases hk : k' = k
  · rw [if_pos hk, hk, Function.update_self]
  · rw [if_neg hk, Function.update_of_ne hk]

end Update

theorem mem_keys_insert {s : KeyedSet key} {x : α} {k : κ} :
    k ∈ (s.insert x).keys ↔ k ∈ s.keys ∨ k = key x := by
  simp only [keys, List.mem_map, mem_insert]
  constructor
  · rintro ⟨y, hy | ⟨rfl, -⟩, rfl⟩
    · exact .inl ⟨y, hy, rfl⟩
    · exact .inr rfl
  · rintro (⟨y, hy, rfl⟩ | rfl)
    · exact ⟨y, .inl hy, rfl⟩
    · cases h : s.find (key x) with
      | none => exact ⟨x, .inr ⟨rfl, rfl⟩, rfl⟩
      | some y =>
        obtain ⟨hy, hk⟩ := find_eq_some.1 h
        exact ⟨y, .inl hy, hk⟩

end KeyedSet

end Lib
