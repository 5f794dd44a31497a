import Mathlib.Data.List.Basic
import Mathlib.Data.List.Induction
import Mathlib.Tactic.Common
/-!
# Systems that take steps

A system is a relation between states, each step with a label. A `Run` is a
sequence of steps; what holds throughout one is an invariant, and what holds from
some step on is established by that step and kept by those that follow.
-/

namespace Lib

variable {S A : Type}

inductive Run (step : S → A → S → Prop) : S → List A → S → Prop
  | nil (s : S) : Run step s [] s
  | cons {s t u : S} {a : A} {as : List A} : step s a t → Run step t as u → Run step s (a :: as) u

/-- Where the steps of a function lead, as far as they are allowed. -/
def follow (next : S → A → Option S) (ok : S → A → Bool) (s : S) (as : List A) : Option S :=
  as.foldlM (fun s a => if ok s a then next s a else none) s

namespace Run

variable {step : S → A → S → Prop} {s t u : S} {a : A} {as bs : List A}

theorem one (h : step s a t) : Run step s [a] t := .cons h (.nil t)

theorem append (h : Run step s as t) (h' : Run step t bs u) : Run step s (as ++ bs) u := by
  induction h with
  | nil => exact h'
  | cons hstep _ ih => exact .cons hstep (ih h')

theorem append_iff : Run step s (as ++ bs) u ↔ ∃ t, Run step s as t ∧ Run step t bs u := by
  constructor
  · intro h
    induction as generalizing s with
    | nil => exact ⟨s, .nil s, h⟩
    | cons a as ih =>
      cases h with
      | cons hstep hrest =>
        obtain ⟨t, h₁, h₂⟩ := ih hrest
        exact ⟨t, .cons hstep h₁, h₂⟩
  · rintro ⟨t, h, h'⟩
    exact h.append h'

/-- A run taken apart at one of its steps. -/
theorem split (h : Run step s (as ++ a :: bs) u) :
    ∃ t t', Run step s as t ∧ step t a t' ∧ Run step t' bs u := by
  obtain ⟨t, h₁, h₂⟩ := append_iff.1 h
  cases h₂ with
  | cons hstep hrest => exact ⟨t, _, h₁, hstep, hrest⟩

theorem mono {step' : S → A → S → Prop} (hstep : ∀ s a t, step s a t → step' s a t) (h : Run step s as t) :
    Run step' s as t := by
  induction h with
  | nil s => exact .nil s
  | cons h _ ih => exact .cons (hstep _ _ _ h) ih

/-- A run with these labels only. -/
theorem restrict {P : A → Prop} (h : Run step s as t) (hP : ∀ a ∈ as, P a) : Run (fun s a t => step s a t ∧ P a) s as t := by
  induction h with
  | nil s => exact .nil s
  | cons ha _ ih =>
    obtain ⟨hhead, htail⟩ := List.forall_mem_cons.1 hP
    exact .cons ⟨ha, hhead⟩ (ih htail)

theorem of_follow {next : S → A → Option S} {ok : S → A → Bool} (h : follow next ok s as = some t) :
    Run (fun s a t => next s a = some t ∧ ok s a) s as t := by
  induction as generalizing s with
  | nil =>
    cases h
    exact .nil _
  | cons a as ih =>
    unfold follow at h
    rw [List.foldlM_cons] at h
    obtain ⟨u, hu, hrest⟩ := Option.bind_eq_some_iff.1 h
    split at hu
    · exact .cons ⟨hu, ‹_›⟩ (ih hrest)
    · cases hu

/-- A run that is computed, and what holds at its end. -/
theorem exists_of_follow {next : S → A → Option S} {ok : S → A → Bool} {P : S → Bool}
    (h : (follow next ok s as).any P) : ∃ t, Run (fun s a t => next s a = some t ∧ ok s a) s as t ∧ P t := by
  obtain ⟨t, ht, hP⟩ := (Option.any_eq_true _ _).1 h
  exact ⟨t, .of_follow ht, hP⟩

/-- What every step keeps holds at the end. -/
theorem invariant {I : S → Prop} (hstep : ∀ s a t, I s → step s a t → I t) (h : Run step s as t) (hs : I s) : I t := by
  induction h with
  | nil => exact hs
  | cons ha _ ih => exact ih (hstep _ _ _ hs ha)

/-- A system that keeps `I` and takes the steps of another one, or none, takes its runs. -/
theorem simulates {S' A' : Type} {step' : S' → A' → S' → Prop} {I : S → Prop} {abs : S → S'} {label : A → Option A'}
    (hstep : ∀ s a t, I s → step s a t → I t ∧ ∀ b, label a = some b → step' (abs s) b (abs t))
    (hstutter : ∀ s a t, I s → step s a t → label a = none → abs t = abs s) (h : Run step s as t) (hs : I s) :
    I t ∧ Run step' (abs s) (as.filterMap label) (abs t) := by
  induction h with
  | nil => exact ⟨hs, .nil _⟩
  | cons ha _ ih =>
    obtain ⟨hI, hlabel⟩ := hstep _ _ _ hs ha
    obtain ⟨ht, hrun⟩ := ih hI
    refine ⟨ht, ?_⟩
    cases hl : label _ with
    | none =>
      rw [List.filterMap_cons_none hl, ← hstutter _ _ _ hs ha hl]
      exact hrun
    | some b =>
      rw [List.filterMap_cons_some hl]
      exact .cons (hlabel b hl) hrun

/-- The same for what speaks of the labels so far. -/
theorem history {I : List A → S → Prop} (hstep : ∀ as s a t, I as s → step s a t → I (as ++ [a]) t)
    (h : Run step s as t) (hs : I [] s) : I as t := by
  suffices hgen : ∀ before, I before s → I (before ++ as) t from hgen [] hs
  clear hs
  induction h with
  | nil => exact fun before hb => by rwa [List.append_nil]
  | cons ha _ ih =>
    intro before hb
    have h := ih (before ++ [_]) (hstep _ _ _ _ hb ha)
    rwa [List.append_assoc] at h

theorem invariant_of_labels {I : S → Prop} {P : A → Prop} (hstep : ∀ s a t, I s → P a → step s a t → I t)
    (h : Run step s as t) (hP : ∀ a ∈ as, P a) (hs : I s) : I t := by
  induction h with
  | nil => exact hs
  | cons ha _ ih =>
    obtain ⟨hhead, htail⟩ := List.forall_mem_cons.1 hP
    exact ih htail (hstep _ _ _ hs hhead ha)

/-- If just the good steps keep `I`, it holds throughout the runs that have no other steps. -/
theorem throughout_iff {I : S → Prop} {P : A → Prop} (hstep : ∀ s a t, I s → step s a t → (I t ↔ P a))
    (h : Run step s as u) (hs : I s) :
    (∀ a ∈ as, P a) ↔ ∀ bs cs t, as = bs ++ cs → Run step s bs t → Run step t cs u → I t := by
  constructor
  · rintro hP bs cs t rfl hbs -
    exact hbs.invariant_of_labels (P := P) (fun _ _ _ hI ha h => (hstep _ _ _ hI h).2 ha)
      (fun a ha => hP a (List.mem_append_left _ ha)) hs
  · intro hall a ha
    obtain ⟨bs, cs, rfl⟩ := List.append_of_mem ha
    obtain ⟨t, t', hbs, hat, hcs⟩ := h.split
    have ht := hall bs (a :: cs) t rfl hbs (.cons hat hcs)
    exact (hstep _ _ _ ht hat).1 (hall (bs ++ [a]) cs t' (by simp) (hbs.append (.one hat)) hcs)

/-- The same where a step is good or not in its state. -/
theorem throughout_iff_of_state {I : S → Prop} {P : S → A → Prop} (hstep : ∀ s a t, I s → step s a t → (I t ↔ P s a))
    (hs : I s) :
    (∀ bs a cs t, as = bs ++ a :: cs → Run step s bs t → Run step t (a :: cs) u → P t a) ↔
      ∀ bs cs t, as = bs ++ cs → Run step s bs t → Run step t cs u → I t := by
  constructor
  · intro hP bs
    induction bs using List.reverseRecOn with
    | nil =>
      intro cs t has hbs hcs
      cases hbs
      exact hs
    | append_singleton bs a ih =>
      intro cs t has hbs hcs
      obtain ⟨t', hbs', hat⟩ := append_iff.1 hbs
      have hrest := hat.append hcs
      rw [List.append_assoc] at has
      have ht' := ih (a :: cs) t' has hbs' hrest
      cases hat with
      | cons hat hnil =>
        cases hnil
        exact (hstep _ _ _ ht' hat).2 (hP bs a cs t' has hbs' hrest)
  · intro hall bs a cs t has hbs hcs
    have ht := hall bs (a :: cs) t has hbs hcs
    cases hcs with
    | @cons _ t' _ _ _ hat hrest =>
      exact (hstep _ _ _ ht hat).1 (hall (bs ++ [a]) cs t' (by simp [has]) (hbs.append (.one hat)) hrest)

/-- What an invariant forbids is no label of the run. -/
theorem labels {I : S → Prop} {P : A → Prop} (hstep : ∀ s a t, I s → step s a t → I t ∧ P a) (h : Run step s as t)
    (hs : I s) : ∀ a ∈ as, P a := by
  induction h with
  | nil => simp
  | cons ha _ ih =>
    obtain ⟨ht, hp⟩ := hstep _ _ _ hs ha
    exact List.forall_mem_cons.2 ⟨hp, ih ht⟩

/-- Once `b`, then `P` from then on. -/
theorem after {I J : S → Prop} {P : A → Prop} {b : A} (hI : ∀ s a t, I s → step s a t → I t)
    (hb : ∀ s t, I s → step s b t → J t) (hJ : ∀ s a t, I s → J s → step s a t → J t ∧ P a)
    (h : Run step s (as ++ b :: bs) u) (hs : I s) : ∀ a ∈ bs, P a := by
  obtain ⟨t, t', h₁, hbt, h₂⟩ := h.split
  have ht := h₁.invariant hI hs
  refine h₂.labels (I := fun s => I s ∧ J s) (fun s a t h ha => ?_) ⟨hI _ _ _ ht hbt, hb _ _ ht hbt⟩
  obtain ⟨hj, hp⟩ := hJ _ _ _ h.1 h.2 ha
  exact ⟨⟨hI _ _ _ h.1 ha, hj⟩, hp⟩

end Run

end Lib
