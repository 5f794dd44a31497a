import Mathlib.Order.Defs.Unbundled
/-!
# Programs that may stop early

`EStateM ε σ α` programs return a value or stop with an `ε`, and the state
survives either way. `Ends` is the postcondition of one run.
-/

namespace Lib

variable {ε σ α β : Type}

/-- `x`, run from `s`, returns into `Q` or stops early into `E`. -/
def Ends (x : EStateM ε σ α) (s : σ) (Q : α → σ → Prop) (E : ε → σ → Prop) : Prop :=
  match x s with
  | .ok a t => Q a t
  | .error e t => E e t

/-- The state a run ends in. -/
def finalState : EStateM.Result ε σ α → σ
  | .ok _ t => t
  | .error _ t => t

@[simp] theorem finalState_ok (a : α) (t : σ) : finalState (.ok a t : EStateM.Result ε σ α) = t := rfl
@[simp] theorem finalState_error (e : ε) (t : σ) : finalState (.error e t : EStateM.Result ε σ α) = t := rfl

def succeeded : EStateM.Result ε σ α → Bool
  | .ok _ _ => true
  | .error _ _ => false

theorem succeeded_iff {r : EStateM.Result ε σ α} : succeeded r = true ↔ ∃ a t, r = .ok a t := by
  cases r <;> simp [succeeded]

theorem failed_iff {r : EStateM.Result ε σ α} : succeeded r = false ↔ ∃ e, r = .error e (finalState r) := by
  cases r <;> simp [succeeded]

namespace Ends

variable {x : EStateM ε σ α} {s : σ} {Q Q' : α → σ → Prop} {E E' : ε → σ → Prop}

theorem of_ok {a : α} {t : σ} (h : x s = .ok a t) : Ends x s Q E ↔ Q a t := by
  simp [Ends, h]

theorem of_error {e : ε} {t : σ} (h : x s = .error e t) : Ends x s Q E ↔ E e t := by
  simp [Ends, h]

theorem ok {a : α} {t : σ} (h : Ends x s Q E) (hx : x s = .ok a t) : Q a t := (of_ok hx).1 h

theorem error {e : ε} {t : σ} (h : Ends x s Q E) (hx : x s = .error e t) : E e t := (of_error hx).1 h

/-- What a run does it does. -/
theorem self (x : EStateM ε σ α) (s : σ) : Ends x s (fun a t => x s = .ok a t) (fun e t => x s = .error e t) := by
  unfold Ends
  split <;> assumption

theorem final {P : σ → Prop} (h : Ends x s (fun _ => P) (fun _ => P)) : P (finalState (x s)) := by
  unfold Ends at h
  split at h <;> simp_all

/-- The same with the way it ended. -/
theorem final_of {P : Bool → σ → Prop} (h : Ends x s (fun _ => P true) (fun _ => P false)) :
    P (succeeded (x s)) (finalState (x s)) := by
  unfold Ends at h
  split at h <;> simp_all [succeeded]

theorem mono (h : Ends x s Q E) (hQ : ∀ a t, Q a t → Q' a t) (hE : ∀ e t, E e t → E' e t) :
    Ends x s Q' E' := by
  unfold Ends at h ⊢
  split at h
  · exact hQ _ _ h
  · exact hE _ _ h

theorem and (h : Ends x s Q E) (h' : Ends x s Q' E') :
    Ends x s (fun a t => Q a t ∧ Q' a t) (fun e t => E e t ∧ E' e t) := by
  unfold Ends at *
  cases hx : x s <;> simp only [hx] at h h' ⊢ <;> exact ⟨h, h'⟩

@[simp] theorem pure_iff {a : α} : Ends (pure a) s Q E ↔ Q a s := Iff.rfl

@[simp] theorem bind_iff {f : α → EStateM ε σ β} {Q : β → σ → Prop} :
    Ends (x >>= f) s Q E ↔ Ends x s (fun a t => Ends (f a) t Q E) E := by
  show (match EStateM.bind x f s with | .ok a t => Q a t | .error e t => E e t) ↔ _
  unfold EStateM.bind Ends
  cases x s <;> rfl

/-- Run `x` by its own postcondition, then go on from there. -/
theorem bind {f : α → EStateM ε σ β} {P : α → σ → Prop} {F : ε → σ → Prop} {Q : β → σ → Prop}
    (h : Ends x s P F) (hf : ∀ a t, P a t → Ends (f a) t Q E) (hE : ∀ e t, F e t → E e t) :
    Ends (x >>= f) s Q E :=
  bind_iff.2 (h.mono hf hE)

end Ends

/-! ## Relations every run respects -/

/-- However `x` ends, it moves the state along `R`; if it stops early, then into `E`. -/
def Moves (R : σ → σ → Prop) (E : ε → σ → Prop) (x : EStateM ε σ α) : Prop :=
  ∀ s, Ends x s (fun _ => R s) fun e t => R s t ∧ E e t

namespace Moves

variable {R R' : σ → σ → Prop} {E : ε → σ → Prop} {x y : EStateM ε σ α}

theorem mono (h : Moves R E x) (hR : ∀ s t, R s t → R' s t) : Moves R' E x :=
  fun s => (h s).mono (fun _ _ => hR _ _) fun _ _ => And.imp_left (hR _ _)

theorem pure [Std.Refl R] (a : α) : Moves R E (pure a : EStateM ε σ α) := fun s => Ends.pure_iff.2 (refl_of R s)

theorem throw [Std.Refl R] {e : ε} (h : ∀ s, E e s) : Moves R E (throw e : EStateM ε σ α) := fun s => ⟨refl_of R s, h s⟩

theorem bind [IsTrans σ R] {f : α → EStateM ε σ β} (hx : Moves R E x) (hf : ∀ a, Moves R E (f a)) : Moves R E (x >>= f) :=
  fun s => (hx s).bind (fun a t h => (hf a t).mono (fun _ _ => trans_of R h) fun _ _ => And.imp_left (trans_of R h))
    fun _ _ h => h

theorem ite {c : Prop} [Decidable c] (hx : c → Moves R E x) (hy : ¬ c → Moves R E y) : Moves R E (if c then x else y) := by
  split
  · exact hx ‹_›
  · exact hy ‹_›

theorem forM [Std.Refl R] [IsTrans σ R] {ι : Type} {f : ι → EStateM ε σ PUnit} (hf : ∀ i, Moves R E (f i)) (l : List ι) :
    Moves R E (l.forM f) := by
  induction l with
  | nil => exact Moves.pure PUnit.unit
  | cons i l ih => exact (hf i).bind fun _ => ih

end Moves

end Lib
