import Mathlib.Data.List.Basic
import Mathlib.Tactic.Common
/-!
# Histories

A history is a list of events, oldest first. `EveryAt P` says of every event
what came before and after it; it is proved along the history, one extension
at a time.
-/

namespace Lib

variable {E F : Type}

/-- Every event `e` of `l`, with `a` before and `b` after it, satisfies `P a e b`. -/
def EveryAt (P : List E → E → List E → Prop) (l : List E) : Prop := ∀ a e b, l = a ++ e :: b → P a e b

section EveryAt

variable {P Q : List E → E → List E → Prop} {l ext : List E}

theorem everyAt_nil : EveryAt P [] := fun a e b h => by simp at h

theorem EveryAt.mono (h : EveryAt P l) (hPQ : ∀ a e b, P a e b → Q a e b) : EveryAt Q l :=
  fun a e b he => hPQ a e b (h a e b he)

/-- An event of `l ++ ext` is an event of one of them, seen in the other's context. -/
theorem everyAt_append : EveryAt P (l ++ ext) ↔
    EveryAt (fun a e b => P a e (b ++ ext)) l ∧ EveryAt (fun a e b => P (l ++ a) e b) ext := by
  constructor
  · intro h
    exact ⟨fun a e b he => h a e (b ++ ext) (by simp [he]), fun a e b he => h (l ++ a) e b (by simp [he])⟩
  · rintro ⟨h₁, h₂⟩ a e b he
    rcases List.append_eq_append_iff.1 he with ⟨w, rfl, hw⟩ | ⟨w, hw, hb⟩
    · exact h₂ w e b hw
    · cases w with
      | nil =>
        rw [List.append_nil] at hw
        rw [List.nil_append] at hb
        subst hw
        simpa using h₂ [] e b hb.symm
      | cons x w =>
        obtain ⟨rfl, rfl⟩ := List.cons.inj hb
        exact h₁ a e w hw

/-- What does not depend on the context may be looked at apart. -/
theorem EveryAt.append (hl : ∀ x a e b, P a e b → P (x ++ a) e b) (hr : ∀ y a e b, P a e b → P a e (b ++ y))
    (h : EveryAt P l) (h' : EveryAt P ext) : EveryAt P (l ++ ext) :=
  everyAt_append.2 ⟨h.mono fun a e b => hr ext a e b, h'.mono fun a e b => hl l a e b⟩

/-- Nothing is said about the events of `l`. -/
theorem everyAt_of_forall (h : ∀ e ∈ l, ∀ a b, P a e b) : EveryAt P l :=
  fun a e b he => h e (by simp [he]) a b

theorem everyAt_singleton {e : E} : EveryAt P [e] ↔ P [] e [] := by
  constructor
  · exact fun h => h [] e [] rfl
  · intro h a e' b he
    rw [List.singleton_eq_append_iff] at he
    rcases he with ⟨rfl, he⟩ | ⟨-, he⟩
    · obtain ⟨rfl, rfl⟩ := List.cons.inj he
      exact h
    · cases he

theorem everyAt_cons {e : E} : EveryAt P (e :: l) ↔ P [] e l ∧ EveryAt (fun a e' b => P (e :: a) e' b) l := by
  rw [← List.singleton_append, everyAt_append, everyAt_singleton]
  rfl

theorem EveryAt.at {a b : List E} {e : E} (h : EveryAt P (a ++ e :: b)) : P a e b := h a e b rfl

end EveryAt

end Lib
