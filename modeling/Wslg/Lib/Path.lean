import Mathlib.Data.List.Infix
import Mathlib.Tactic.Common
/-!
# Paths as component lists

A path is a list of characters cut at separators. `resolve` drops empty and `.`
components and lets `..` take back the one before it.
-/

namespace Lib

variable {α : Type}

/-- The pieces between separators. -/
abbrev components (sep : α → Bool) (p : List α) : List (List α) := p.splitOnP sep

section Components
variable {sep : α → Bool}

theorem components_append {x y : List α} {c : α} (hc : sep c) :
    components sep (x ++ c :: y) = components sep x ++ components sep y :=
  List.splitOnP_append_cons x y hc

/-- Where a component stands: a separator or the end follows it. -/
theorem mem_components {p c : List α} (h : c ∈ components sep p) :
    ∃ u v, p = u ++ c ++ v ∧ (v = [] ∨ ∃ x v', v = x :: v' ∧ sep x) := by
  -- the first component starts the path, the others stand behind a separator
  suffices key : ∃ hd tl, components sep p = hd :: tl ∧
      (∃ v, p = hd ++ v ∧ (v = [] ∨ ∃ x v', v = x :: v' ∧ sep x)) ∧
      ∀ c ∈ tl, ∃ u v, p = u ++ c ++ v ∧ (v = [] ∨ ∃ x v', v = x :: v' ∧ sep x) by
    obtain ⟨hd, tl, hp, ⟨v, hv, hb⟩, ht⟩ := key
    rw [hp] at h
    rcases List.mem_cons.1 h with rfl | h
    · exact ⟨[], v, by simpa using hv, hb⟩
    · exact ht c h
  clear h c
  induction p with
  | nil => exact ⟨[], [], rfl, ⟨[], rfl, .inl rfl⟩, by simp⟩
  | cons a p ih =>
    obtain ⟨hd, tl, hp, ⟨v, hv, hb⟩, ht⟩ := ih
    by_cases ha : sep a
    · refine ⟨[], hd :: tl, ?_, ⟨a :: p, rfl, .inr ⟨a, p, rfl, ha⟩⟩, fun c hc => ?_⟩
      · simp [components, List.splitOnP_cons_eq_if_modifyHead, ha, hp]
      · rcases List.mem_cons.1 hc with rfl | hc
        · exact ⟨[a], v, by simp [hv], hb⟩
        · obtain ⟨u, v', hu, hb'⟩ := ht c hc
          exact ⟨a :: u, v', by simp [hu], hb'⟩
    · refine ⟨a :: hd, tl, ?_, ⟨v, by simp [hv], hb⟩, fun c hc => ?_⟩
      · simp [components, List.splitOnP_cons_eq_if_modifyHead, ha, hp]
      · obtain ⟨u, v', hu, hb'⟩ := ht c hc
        exact ⟨a :: u, v', by simp [hu], hb'⟩

theorem not_mem_components {p c : List α} (h : ¬ c <:+: p) : c ∉ components sep p := by
  intro hc
  obtain ⟨u, v, hp, -⟩ := mem_components hc
  exact h ⟨u, v, hp.symm⟩

/-- A component that does not end the way `t` does cannot arise by putting the
separator-free, non-empty `t` behind `s`. -/
theorem not_mem_components_append {s t c : List α} (hs : ¬ c <:+: s) (ht : ∀ x ∈ t, sep x = false)
    (hc : c ≠ []) (hl : t.getLast? ≠ none) (he : t.getLast? ≠ c.getLast?) : c ∉ components sep (s ++ t) := by
  intro hm
  obtain ⟨u, v, hp, rfl | ⟨x, v', rfl, hx⟩⟩ := mem_components hm
  · apply he
    have e := congrArg List.getLast? hp
    rw [List.append_nil, List.getLast?_append, List.getLast?_append] at e
    cases h1 : t.getLast? with
    | none => exact absurd h1 hl
    | some a =>
      cases h2 : c.getLast? with
      | none => exact absurd (List.getLast?_eq_none_iff.1 h2) hc
      | some b => simpa [h1, h2] using e
  · -- the separator after `c` lies in `s`, so `c` does too
    rcases List.append_eq_append_iff.1 hp with ⟨w, hw, hw'⟩ | ⟨w, hw, hw'⟩
    · have hmem : x ∈ t := by rw [hw']; simp
      exact absurd hx (by simp [ht x hmem])
    · cases w with
      | nil =>
        have hmem : x ∈ t := by rw [show t = x :: v' from hw'.symm]; simp
        exact absurd hx (by simp [ht x hmem])
      | cons y w => exact hs ⟨u, y :: w, hw.symm⟩

end Components

/-! ## Resolution -/

section Resolve
variable [DecidableEq α]

def resolveStep (dot : α) (stack : List (List α)) (c : List α) : List (List α) :=
  if c = [] ∨ c = [dot] then stack
  else if c = [dot, dot] then stack.dropLast
  else stack ++ [c]

/-- The components of a path after `.`, `..` and empty ones are worked off. -/
def resolve (sep : α → Bool) (dot : α) (p : List α) : List (List α) :=
  (components sep p).foldl (resolveStep dot) []

/-- `q` lies below `p`, and is not `p` itself. -/
def StrictlyBelow (sep : α → Bool) (dot : α) (p q : List α) : Prop :=
  ∃ cs, cs ≠ [] ∧ resolve sep dot q = resolve sep dot p ++ cs

variable {sep : α → Bool} {dot : α}

theorem strictlyBelow_iff {p q : List α} :
    StrictlyBelow sep dot p q ↔ resolve sep dot p <+: resolve sep dot q ∧ resolve sep dot q ≠ resolve sep dot p := by
  constructor
  · rintro ⟨cs, hne, he⟩
    rw [he]
    exact ⟨List.prefix_append _ _, by simpa using hne⟩
  · rintro ⟨⟨cs, he⟩, hne⟩
    refine ⟨cs, ?_, he.symm⟩
    rintro rfl
    exact hne (by rw [← he, List.append_nil])

instance (p q : List α) : Decidable (StrictlyBelow sep dot p q) := decidable_of_iff' _ strictlyBelow_iff

/-- A component that names something. -/
def Named (dot : α) (c : List α) : Prop := c ≠ [] ∧ c ≠ [dot]

instance (dot : α) : DecidablePred (Named dot) := fun _ => inferInstanceAs (Decidable (_ ∧ _))

theorem foldl_resolveStep {cs : List (List α)} (h : [dot, dot] ∉ cs) (stack : List (List α)) :
    cs.foldl (resolveStep dot) stack = stack ++ cs.filter (Named dot) := by
  induction cs generalizing stack with
  | nil => simp
  | cons c cs ih =>
    simp only [List.mem_cons, not_or] at h
    rw [List.foldl_cons, ih h.2]
    by_cases hn : Named dot c
    · simp [resolveStep, hn, hn.1, hn.2, Ne.symm h.1]
    · have hd : c = [] ∨ c = [dot] := by
        simp only [Named] at hn
        tauto
      simp [resolveStep, hn, hd]

theorem resolve_append {p q : List α} {c : α} (hc : sep c) (h : [dot, dot] ∉ components sep q) :
    resolve sep dot (p ++ c :: q) = resolve sep dot p ++ (components sep q).filter (Named dot) := by
  rw [resolve, components_append hc, List.foldl_append, foldl_resolveStep h]
  rfl

/-- Below `p`, a `..`-free relative path leads strictly down exactly if it names something. -/
theorem strictlyBelow_append {p q : List α} {c : α} (hc : sep c) (h : [dot, dot] ∉ components sep q) :
    StrictlyBelow sep dot p (p ++ c :: q) ↔ ∃ n ∈ components sep q, Named dot n := by
  rw [StrictlyBelow, resolve_append hc h]
  constructor
  · rintro ⟨cs, hne, he⟩
    rw [List.append_cancel_left_eq] at he
    obtain ⟨n, hn⟩ := List.exists_mem_of_ne_nil cs hne
    rw [← he] at hn
    exact ⟨n, (List.mem_filter.1 hn).1, by simpa using (List.mem_filter.1 hn).2⟩
  · rintro ⟨n, hn, hd⟩
    exact ⟨_, List.ne_nil_of_mem (List.mem_filter.2 ⟨hn, by simpa using hd⟩), rfl⟩

/-- What is added to a resolved path is made of components of what is added to the path. -/
theorem mem_foldl_resolveStep {cs : List (List α)} {stack added : List (List α)} {n : List α} {k : ℕ}
    (h : cs.foldl (resolveStep dot) stack = added) (hn : n ∈ added.drop k) : n ∈ stack.drop k ∨ n ∈ cs := by
  induction cs generalizing stack with
  | nil => exact .inl (by rwa [← h] at hn)
  | cons c cs ih =>
    rcases ih h with hmem | hmem
    · unfold resolveStep at hmem
      split at hmem
      · exact .inl hmem
      · split at hmem
        · rw [List.dropLast_eq_take, List.drop_take] at hmem
          -- `..` only takes away
          exact .inl (List.mem_of_mem_take hmem)
        · rw [List.drop_append] at hmem
          rcases List.mem_append.1 hmem with hmem | hmem
          · exact .inl hmem
          · obtain rfl := List.mem_singleton.1 (List.mem_of_mem_drop hmem)
            exact .inr List.mem_cons_self
    · exact .inr (List.mem_cons_of_mem c hmem)

/-- A resolved path has no empty components, no `.` and no `..`. -/
theorem named_of_mem_resolve {p n : List α} (h : n ∈ resolve sep dot p) : Named dot n ∧ n ≠ [dot, dot] := by
  have hfold : ∀ (cs stack : List (List α)), (∀ m ∈ stack, Named dot m ∧ m ≠ [dot, dot]) →
      ∀ m ∈ cs.foldl (resolveStep dot) stack, Named dot m ∧ m ≠ [dot, dot] := by
    intro cs
    induction cs with
    | nil => exact fun stack hs => hs
    | cons c cs ih =>
      intro stack hs
      refine ih _ fun m hm => ?_
      unfold resolveStep at hm
      split at hm
      · exact hs m hm
      · rename_i hc
        split at hm
        · exact hs m (List.mem_of_mem_dropLast hm)
        · rename_i hdots
          rcases List.mem_append.1 hm with hm | hm
          · exact hs m hm
          · obtain rfl := List.mem_singleton.1 hm
            exact ⟨not_or.1 hc, hdots⟩
  exact hfold _ [] (by simp) n h

end Resolve

/-! ## Below a folder -/

/-- `q` is `p`, a separator and something more. -/
def Beneath (c : α) (p q : List α) : Prop := ∃ r, q = p ++ c :: r

section Beneath

variable {c : α} {p q r n n' : List α}

theorem beneath_child (c : α) (p n : List α) : Beneath c p (p ++ c :: n) := ⟨n, rfl⟩

theorem Beneath.trans (h : Beneath c p q) (h' : Beneath c q r) : Beneath c p r := by
  obtain ⟨x, rfl⟩ := h
  obtain ⟨y, rfl⟩ := h'
  exact ⟨x ++ c :: y, by simp⟩

theorem Beneath.length_lt (h : Beneath c p q) : p.length < q.length := by
  obtain ⟨x, rfl⟩ := h
  simp

theorem Beneath.ne (h : Beneath c p q) : q ≠ p := by
  rintro rfl
  exact lt_irrefl _ h.length_lt

/-- What ends at the first separator is the same in both. -/
theorem name_unique {x y : List α} (hn : c ∉ n) (hn' : c ∉ n') (hx : x = [] ∨ ∃ z, x = c :: z)
    (hy : y = [] ∨ ∃ z, y = c :: z) (h : n ++ x = n' ++ y) : n = n' := by
  induction n generalizing n' with
  | nil =>
    cases n' with
    | nil => rfl
    | cons a n' =>
      rcases hx with rfl | ⟨z, rfl⟩
      · cases h
      · exact absurd (List.cons.inj h).1 fun e => hn' (e ▸ List.mem_cons_self)
  | cons a n ih =>
    cases n' with
    | nil =>
      rcases hy with rfl | ⟨z, rfl⟩
      · cases h
      · exact absurd (List.cons.inj h).1 fun e => hn (e ▸ List.mem_cons_self)
    | cons b n' =>
      obtain ⟨rfl, ht⟩ := List.cons.inj h
      rw [ih (fun hc => hn (List.mem_cons_of_mem a hc)) (fun hc => hn' (List.mem_cons_of_mem a hc)) ht]

/-- Entries of one folder have nothing below them in common. -/
theorem beneath_disjoint (hn : c ∉ n) (hn' : c ∉ n') (h : q = p ++ c :: n ∨ Beneath c (p ++ c :: n) q)
    (h' : q = p ++ c :: n' ∨ Beneath c (p ++ c :: n') q) : n = n' := by
  have hsplit : ∀ m : List α, q = p ++ c :: m ∨ Beneath c (p ++ c :: m) q →
      ∃ x, (x = [] ∨ ∃ z, x = c :: z) ∧ q = p ++ c :: (m ++ x) := by
    rintro m (rfl | ⟨z, rfl⟩)
    · exact ⟨[], .inl rfl, by simp⟩
    · exact ⟨c :: z, .inr ⟨z, rfl⟩, by simp⟩
  obtain ⟨x, hx, rfl⟩ := hsplit n h
  obtain ⟨y, hy, he⟩ := hsplit n' h'
  exact name_unique hn hn' hx hy (List.cons.inj (List.append_cancel_left he)).2

/-- A list from its last separator on. -/
theorem split_last (c : α) (r : List α) : c ∉ r ∨ ∃ d n, c ∉ n ∧ r = d ++ c :: n := by
  induction r with
  | nil => exact .inl List.not_mem_nil
  | cons a r ih =>
    rcases ih with hr | ⟨d, n, hn, rfl⟩
    · by_cases ha : a = c
      · exact .inr ⟨[], r, hr, by rw [ha]; rfl⟩
      · exact .inl (by simp [hr, Ne.symm ha])
    · exact .inr ⟨a :: d, n, hn, rfl⟩

/-- What is below a folder is in a folder that is it or below it. -/
theorem Beneath.parent (h : Beneath c p q) : ∃ d n, c ∉ n ∧ q = d ++ c :: n ∧ (d = p ∨ Beneath c p d) := by
  obtain ⟨r, rfl⟩ := h
  rcases split_last c r with hr | ⟨d, n, hn, rfl⟩
  · exact ⟨p, r, hr, rfl, .inl rfl⟩
  · exact ⟨p ++ c :: d, n, hn, by simp, .inr ⟨d, rfl⟩⟩

end Beneath

/-! ## A name in a group -/

/-- `name`, behind a group and the separator `c` if it is in one. -/
def joined (c : α) : Option (List α) → List α → List α
  | none, name => name
  | some group, name => group ++ c :: name

/-- The second pair is the first with the start of the name, up to a separator in it, moved to the group. -/
def Resplits (c : α) (group : Option (List α)) (name : List α) (group' : Option (List α)) (name' : List α) : Prop :=
  match group with
  | none => ∃ x, group' = some x ∧ name = x ++ c :: name'
  | some y => ∃ x, group' = some (y ++ c :: x) ∧ name = x ++ c :: name'

section Joined

variable {c : α} {group group' : Option (List α)} {name name' : List α}

/-- Two groups joined with names meet at the end of the shorter one. -/
theorem append_cons_eq_iff {a a' b b' : List α} : a ++ c :: b = a' ++ c :: b' ↔
    (a = a' ∧ b = b') ∨ (∃ x, a' = a ++ c :: x ∧ b = x ++ c :: b') ∨ ∃ x, a = a' ++ c :: x ∧ b' = x ++ c :: b := by
  constructor
  · intro h
    rcases List.append_eq_append_iff.1 h with ⟨z, rfl, hz⟩ | ⟨z, rfl, hz⟩
    · cases z with
      | nil => exact .inl ⟨(List.append_nil a).symm, (List.cons.inj hz).2⟩
      | cons y x =>
        obtain ⟨rfl, hb⟩ := List.cons.inj hz
        exact .inr (.inl ⟨x, rfl, hb⟩)
    · cases z with
      | nil => exact .inl ⟨List.append_nil a', (List.cons.inj hz).2.symm⟩
      | cons y x =>
        obtain ⟨rfl, hb⟩ := List.cons.inj hz
        exact .inr (.inr ⟨x, rfl, hb⟩)
  · rintro (⟨rfl, rfl⟩ | ⟨x, rfl, rfl⟩ | ⟨x, rfl, rfl⟩)
    · rfl
    · simp
    · simp

theorem joined_eq_iff : joined c group name = joined c group' name' ↔
    (group = group' ∧ name = name') ∨ Resplits c group name group' name' ∨ Resplits c group' name' group name := by
  cases group with
  | none =>
    cases group' with
    | none => simp [joined, Resplits]
    | some a' => simp [joined, Resplits]
  | some a =>
    cases group' with
    | none => simp [joined, Resplits, eq_comm]
    | some a' => simpa [joined, Resplits] using append_cons_eq_iff

theorem Resplits.ne (h : Resplits c group name group' name') : ¬ (group = group' ∧ name = name') := by
  rintro ⟨rfl, rfl⟩
  cases group with
  | none =>
    obtain ⟨x, hx, -⟩ := h
    cases hx
  | some a =>
    obtain ⟨x, hx, -⟩ := h
    have := congrArg List.length (Option.some.inj hx)
    simp at this

/-- Joining tells two pairs apart exactly if neither is the other split at a different separator. -/
theorem joined_identifies_iff : (joined c group name = joined c group' name' ↔ group = group' ∧ name = name') ↔
    ¬ (Resplits c group name group' name' ∨ Resplits c group' name' group name) := by
  rw [joined_eq_iff]
  constructor
  · rintro h (hr | hr)
    · exact hr.ne (h.1 (.inr (.inl hr)))
    · obtain ⟨hg, hn⟩ := h.1 (.inr (.inr hr))
      exact hr.ne ⟨hg.symm, hn.symm⟩
  · intro h
    exact ⟨fun he => he.resolve_right h, .inl⟩

end Joined

end Lib
