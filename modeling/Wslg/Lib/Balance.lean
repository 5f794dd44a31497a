import Mathlib.Data.List.Basic
import Mathlib.Tactic.Common
/-!
# What is taken and given back

Each event of a history changes how much is held, by one or not at all. A history
is balanced if at most one thing is held at any time and none at its end: then each
one that was taken was given back once, before the next one.
-/

namespace Lib

variable {E : Type} {change : E → Int}

/-- How much is held after a history that starts with nothing. -/
def held (change : E → Int) : List E → Int
  | [] => 0
  | e :: l => change e + held change l

structure Balanced (change : E → Int) (l : List E) : Prop where
  atMostOne : ∀ before after, l = before ++ after → held change before = 0 ∨ held change before = 1
  none_left : held change l = 0

@[simp] theorem held_nil : held change [] = 0 := rfl

@[simp] theorem held_cons (e : E) (l : List E) : held change (e :: l) = change e + held change l := rfl

@[simp] theorem held_append (l l' : List E) : held change (l ++ l') = held change l + held change l' := by
  induction l with
  | nil => simp
  | cons e l ih =>
    rw [List.cons_append, held_cons, held_cons, ih]
    omega

/-- Nothing is taken and nothing given back. -/
theorem held_of_neutral {l : List E} (h : ∀ e ∈ l, change e = 0) : held change l = 0 := by
  induction l with
  | nil => rfl
  | cons e l ih =>
    obtain ⟨he, hl⟩ := List.forall_mem_cons.1 h
    rw [held_cons, he, ih hl]
    rfl

theorem balanced_of_neutral {l : List E} (h : ∀ e ∈ l, change e = 0) : Balanced change l := by
  refine ⟨fun before after hl => .inl (held_of_neutral fun e he => h e ?_), held_of_neutral h⟩
  rw [hl]
  exact List.mem_append_left _ he

/-- Taken, and given back at once. -/
theorem balanced_pair {a b : E} (ha : change a = 1) (hb : change b = -1) : Balanced change [a, b] := by
  have hnone : held change [a, b] = 0 := by
    rw [held_cons, held_cons, held_nil, ha, hb]
    rfl
  refine ⟨fun before after hl => ?_, hnone⟩
  match before, hl with
  | [], _ => exact .inl rfl
  | [_], rfl =>
    right
    rw [held_cons, ha, held_nil]
    rfl
  | [_, _], rfl => exact .inl hnone

theorem Balanced.append {l l' : List E} (h : Balanced change l) (h' : Balanced change l') : Balanced change (l ++ l') := by
  refine ⟨fun before after hl => ?_, by rw [held_append, h.none_left, h'.none_left]; rfl⟩
  rcases List.append_eq_append_iff.1 hl with ⟨w, rfl, hw⟩ | ⟨w, hw, -⟩
  -- all of `l` has passed
  · rw [held_append, h.none_left, Int.zero_add]
    exact h'.atMostOne w after hw
  · exact h.atMostOne before w hw

end Lib
