import Wslg.Lib.Cursor
import Mathlib.Order.Defs.Unbundled
/-!
# What a reader does to its state

`Outcome r o Q E`: from the state `o`, wherever the cursor stands, `r` returns
into `Q` or stops early into `E`. There is one rule for each way to build a
reader; the cursor never shows.
-/

namespace Lib

variable {ε ε' σ τ α β : Type}

def Outcome (r : Reader ε σ α) (o : σ) (Q : α → σ → Prop) (E : ReadStop ε → σ → Prop) : Prop :=
  ∀ s : Reading σ, s.out = o → Ends r s (fun a t => Q a t.out) (fun e t => E e t.out)

namespace Outcome

variable {o : σ} {Q Q' : α → σ → Prop} {E E' : ReadStop ε → σ → Prop} {r : Reader ε σ α}

theorem mono (h : Outcome r o Q E) (hQ : ∀ a o', Q a o' → Q' a o') (hE : ∀ e o', E e o' → E' e o') :
    Outcome r o Q' E' := fun s hs => (h s hs).mono (fun a t => hQ a t.out) (fun e t => hE e t.out)

theorem and (h : Outcome r o Q E) (h' : Outcome r o Q' E') :
    Outcome r o (fun a o' => Q a o' ∧ Q' a o') (fun e o' => E e o' ∧ E' e o') :=
  fun s hs => (h s hs).and (h' s hs)

theorem final {P : σ → Prop} (h : Outcome r o (fun _ => P) (fun _ => P)) {s : Reading σ} (hs : s.out = o) :
    P (finalState (r s)).out := Ends.final (P := fun t : Reading σ => P t.out) (h s hs)

theorem of_ok (h : Outcome r o Q E) {s t : Reading σ} {a : α} (hs : s.out = o) (hr : r s = .ok a t) : Q a t.out :=
  (h s hs).ok hr

theorem of_accepts (h : Outcome r o Q E) {bs : List UInt8} {a : α} {o' : σ} (hr : Accepts r o bs a o') : Q a o' :=
  h.of_ok (t := .between ([] ++ bs) [] o') rfl (hr [] [])

theorem of_error (h : Outcome r o Q E) {s t : Reading σ} {e : ReadStop ε} (hs : s.out = o) (hr : r s = .error e t) :
    E e t.out :=
  (h s hs).error hr

/-! ## Rules -/

theorem pure_iff {a : α} : Outcome (pure a : Reader ε σ α) o Q E ↔ Q a o :=
  ⟨fun h => h (.between [] [] o) rfl, fun h s hs => by subst hs; exact h⟩

theorem reject_iff {e : ε} : Outcome (reject e : Reader ε σ α) o Q E ↔ E (.reject e) o :=
  ⟨fun h => h (.between [] [] o) rfl, fun h s hs => by subst hs; exact h⟩

theorem act_iff {f : σ → α × σ} : Outcome (act f : Reader ε σ α) o Q E ↔ Q (f o).1 (f o).2 :=
  ⟨fun h => h (.between [] [] o) rfl, fun h s hs => by subst hs; exact h⟩

theorem update_iff {f : σ → σ} {Q : PUnit → σ → Prop} :
    Outcome (update f : Reader ε σ PUnit) o Q E ↔ Q ⟨⟩ (f o) := act_iff

theorem bind {f : α → Reader ε σ β} {Q : β → σ → Prop}
    (h : Outcome r o (fun a o' => Outcome (f a) o' Q E) E) : Outcome (r >>= f) o Q E := fun s hs =>
  Ends.bind_iff.2 ((h s hs).mono (fun _ t ht => ht t rfl) (fun _ _ ht => ht))

/-- A step that only changes the state, and what follows. -/
theorem act_bind {f : σ → α × σ} {k : α → Reader ε σ β} {Q : β → σ → Prop}
    (h : Outcome (k (f o).1) (f o).2 Q E) : Outcome (act f >>= k) o Q E :=
  bind (act_iff.2 h)

theorem ite {c : Prop} [Decidable c] {r' : Reader ε σ α} (h : c → Outcome r o Q E) (h' : ¬ c → Outcome r' o Q E) :
    Outcome (if c then r else r') o Q E := by
  split
  · exact h ‹_›
  · exact h' ‹_›

theorem store {f : σ → Option σ} {Q : PUnit → σ → Prop} (hQ : ∀ o', f o = some o' → Q ⟨⟩ o')
    (hE : f o = none → E .fault o) : Outcome (store f : Reader ε σ PUnit) o Q E := by
  rintro s rfl
  unfold Ends Lib.store
  cases h : f s.out with
  | none => exact hE h
  | some o' => exact hQ o' h

theorem takeBytes {e : ε} {n : Nat} {Q : List UInt8 → σ → Prop} (hQ : ∀ bs, Q bs o) (hE : ∀ x, E x o) :
    Outcome (takeBytes e n) o Q E := by
  rintro s rfl
  unfold Ends Lib.takeBytes
  split
  · rename_i h
    split at h <;> try split at h
    all_goals simp only [EStateM.Result.ok.injEq, reduceCtorEq] at h
    obtain ⟨-, rfl⟩ := h
    exact hQ _
  · rename_i h
    split at h <;> try split at h
    all_goals simp only [EStateM.Result.error.injEq, reduceCtorEq] at h
    all_goals
      obtain ⟨-, rfl⟩ := h
      exact hE _

theorem readInto {e : ε} {n : Nat} {f : List UInt8 → σ → Option σ} {Q : PUnit → σ → Prop}
    (hQ : ∀ bs o', f bs o = some o' → Q ⟨⟩ o') (hE : ∀ x, E x o) : Outcome (readInto e n f) o Q E := by
  rw [readInto_eq]
  exact bind (takeBytes (fun bs => store (hQ bs) fun _ => hE _) hE)

theorem onCopy (h : Outcome r o Q E) : Outcome (onCopy r) o Q E := by
  intro s hs
  have := h s hs
  unfold Ends Lib.onCopy at *
  cases hr : r s <;> simp_all

theorem orUndo {f : σ → σ} (h : Outcome r o Q (fun e o' => (e = .fault → E e o') ∧ (e ≠ .fault → E e (f o')))) :
    Outcome (orUndo r f) o Q E := by
  intro s hs
  have := h s hs
  unfold Ends Lib.orUndo at *
  rcases hr : r s with _ | ⟨_ | _, _⟩ <;> simp_all

theorem onPart {err : ε' → ε} {get : σ → τ} {put : τ → σ → σ} {r : Reader ε' τ α} {P : α → τ → Prop}
    {F : ReadStop ε' → τ → Prop} (h : Outcome r (get o) P F) (hQ : ∀ a p, P a p → Q a (put p o))
    (hE : ∀ x x' p, F x' p → E x (put p o)) : Outcome (onPart err get put r) o Q E := by
  rintro s rfl
  have := h { buf := s.buf, cur := s.cur, len := s.len, out := get s.out } rfl
  unfold Ends at *
  simp only [Lib.onPart]
  rcases hr : r { buf := s.buf, cur := s.cur, len := s.len, out := get s.out } with _ | ⟨_ | _, _⟩ <;>
    simp only [hr] at this ⊢
  · exact hQ _ _ this
  · exact hE _ _ _ this
  · exact hE _ _ _ this

/-- Reading into a local variable leaves the state alone. -/
theorem onLocal {err : ε' → ε} {q : τ} {r : Reader ε' τ α} {Q : τ → σ → Prop} (hQ : ∀ p, Q p o) (hE : ∀ e, E e o) :
    Outcome (onLocal err q r : Reader ε σ τ) o Q E := by
  rintro s rfl
  unfold Ends
  simp only [Lib.onLocal]
  rcases hr : r { buf := s.buf, cur := s.cur, len := s.len, out := q } with _ | ⟨_ | _, _⟩
  · exact hQ _
  · exact hE _
  · exact hE _

theorem trivial (r : Reader ε σ α) (o : σ) : Outcome r o (fun _ _ => True) (fun _ _ => True) := fun s _ => by
  unfold Ends
  split <;> trivial

end Outcome

/-! ## Relations between before and after -/

/-- Whatever way `r` ends, the states before and after are related. -/
def Preserves (R : σ → σ → Prop) (r : Reader ε σ α) : Prop := ∀ o, Outcome r o (fun _ => R o) (fun _ => R o)

namespace Preserves

variable {R R' : σ → σ → Prop} {r : Reader ε σ α}

theorem final (h : Preserves R r) (s : Reading σ) : R s.out (finalState (r s)).out := (h s.out).final rfl

theorem mono (h : Preserves R r) (hR : ∀ o o', R o o' → R' o o') : Preserves R' r :=
  fun o => (h o).mono (fun _ o' => hR o o') (fun _ o' => hR o o')

theorem pure [Std.Refl R] (a : α) : Preserves R (pure a : Reader ε σ α) := fun o => Outcome.pure_iff.2 (refl_of R o)

theorem reject [Std.Refl R] (e : ε) : Preserves R (reject e : Reader ε σ α) :=
  fun o => Outcome.reject_iff.2 (refl_of R o)

theorem act {f : σ → α × σ} (h : ∀ o, R o (f o).2) : Preserves R (act f : Reader ε σ α) :=
  fun o => Outcome.act_iff.2 (h o)

theorem update {f : σ → σ} (h : ∀ o, R o (f o)) : Preserves R (update f : Reader ε σ PUnit) :=
  fun o => Outcome.update_iff.2 (h o)

theorem bind [IsTrans σ R] {f : α → Reader ε σ β} (hr : Preserves R r) (hf : ∀ a, Preserves R (f a)) :
    Preserves R (r >>= f) := fun o =>
  Outcome.bind ((hr o).mono (fun a o' h => (hf a o').mono (fun _ _ => trans_of R h) (fun _ _ => trans_of R h))
    (fun _ _ h => h))

theorem ite {c : Prop} [Decidable c] {r' : Reader ε σ α} (h : c → Preserves R r) (h' : ¬ c → Preserves R r') :
    Preserves R (if c then r else r') := fun o => Outcome.ite (fun hc => h hc o) (fun hc => h' hc o)

theorem onCopy (h : Preserves R r) : Preserves R (onCopy r) := fun o => Outcome.onCopy (h o)

theorem onLocal [Std.Refl R] {err : ε' → ε} {q : τ} {r : Reader ε' τ α} :
    Preserves R (onLocal err q r : Reader ε σ τ) :=
  fun o => Outcome.onLocal (fun _ => refl_of R o) (fun _ => refl_of R o)

theorem takeBytes [Std.Refl R] (e : ε) (n : Nat) : Preserves R (takeBytes e n) :=
  fun o => Outcome.takeBytes (fun _ => refl_of R o) (fun _ => refl_of R o)

theorem store [Std.Refl R] {f : σ → Option σ} (h : ∀ o o', f o = some o' → R o o') :
    Preserves R (store f : Reader ε σ PUnit) := fun o => Outcome.store (h o) fun _ => refl_of R o

theorem onPart {err : ε' → ε} {get : σ → τ} {put : τ → σ → σ} {r : Reader ε' τ α} (h : ∀ o p, R o (put p o)) :
    Preserves R (onPart err get put r) := fun o =>
  Outcome.onPart (Outcome.trivial r _) (fun _ p _ => h o p) (fun _ _ p _ => h o p)

theorem orUndo {f : σ → σ} (h : Preserves R r) (hf : ∀ o o', R o o' → R o (f o')) : Preserves R (orUndo r f) :=
  fun o => Outcome.orUndo ((h o).mono (fun _ _ h => h) (fun _ o' h => ⟨fun _ => h, fun _ => hf o o' h⟩))

end Preserves

/-- The relation of a property that stays true. -/
def Stays (P : σ → Prop) (o o' : σ) : Prop := P o → P o'

instance {P : σ → Prop} : Std.Refl (Stays P) := ⟨fun _ h => h⟩
instance {P : σ → Prop} : IsTrans σ (Stays P) := ⟨fun _ _ _ h h' hp => h' (h hp)⟩

end Lib
