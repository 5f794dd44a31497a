import Mathlib.Order.Defs.Unbundled
import Mathlib.Tactic.Common
/-!
# Calls to the outside with a trace

Code that never fails itself but calls an outside world `W` and leaves a trace
of events `E`. `Keeps R` bounds what it does to both, `Appends P` what it adds to
the trace.
-/

namespace Lib

structure Traced (W E : Type) where
  world : W
  trace : List E

def TraceM (W E α : Type) := Traced W E → α × Traced W E

variable {W E α β : Type}

namespace TraceM

instance : Monad (TraceM W E) where
  pure a s := (a, s)
  bind m f s := f (m s).1 (m s).2

@[simp] theorem pure_run (a : α) (s : Traced W E) : (pure a : TraceM W E α) s = (a, s) := rfl

@[simp] theorem bind_run (m : TraceM W E α) (f : α → TraceM W E β) (s : Traced W E) :
    (m >>= f) s = f (m s).1 (m s).2 := rfl

def call (f : W → α × W) : TraceM W E α := fun s => ((f s.world).1, { s with world := (f s.world).2 })

def emit (e : E) : TraceM W E PUnit := fun s => (⟨⟩, { s with trace := s.trace ++ [e] })

@[simp] theorem call_run (f : W → α × W) (s : Traced W E) :
    call f s = ((f s.world).1, { s with world := (f s.world).2 }) := rfl

@[simp] theorem emit_run (e : E) (s : Traced W E) : emit e s = (⟨⟩, { s with trace := s.trace ++ [e] }) := rfl

theorem ite_run {c : Prop} [Decidable c] (x y : TraceM W E α) (s : Traced W E) :
    (if c then x else y) s = if c then x s else y s := by
  split <;> rfl

end TraceM

/-! ## What a run returns -/

def Gives (m : TraceM W E α) (s : Traced W E) (P : α → Prop) : Prop := P (m s).1

namespace Gives

variable {m : TraceM W E α} {s : Traced W E} {P : α → Prop} {Q : β → Prop}

theorem pure {a : α} (h : P a) : Gives (pure a : TraceM W E α) s P := h

theorem bind {f : α → TraceM W E β} (h : ∀ a s, Gives (f a) s Q) : Gives (m >>= f) s Q := h _ _

theorem call_bind {c : W → α × W} {f : α → TraceM W E β}
    (h : Gives (f (c s.world).1) { s with world := (c s.world).2 } Q) : Gives (TraceM.call c >>= f) s Q := h

theorem ite {c : Prop} [Decidable c] {x y : TraceM W E α} (hx : c → Gives x s P) (hy : ¬ c → Gives y s P) :
    Gives (if c then x else y) s P := by
  split
  · exact hx ‹_›
  · exact hy ‹_›

end Gives

/-! ## Where a run ends -/

/-- From `s`, `m` returns a value and ends in a state that satisfy `P`. -/
def Yields (m : TraceM W E α) (s : Traced W E) (P : α → Traced W E → Prop) : Prop := P (m s).1 (m s).2

namespace Yields

variable {m : TraceM W E α} {s : Traced W E} {P P' : α → Traced W E → Prop} {Q : β → Traced W E → Prop}

theorem mono (h : Yields m s P) (hP : ∀ a t, P a t → P' a t) : Yields m s P' := hP _ _ h

theorem pure {a : α} (h : P a s) : Yields (pure a : TraceM W E α) s P := h

theorem bind {f : α → TraceM W E β} (h : Yields m s P) (hf : ∀ a t, P a t → Yields (f a) t Q) : Yields (m >>= f) s Q :=
  hf _ _ h

theorem call_bind {c : W → α × W} {f : α → TraceM W E β}
    (h : Yields (f (c s.world).1) { s with world := (c s.world).2 } Q) : Yields (TraceM.call c >>= f) s Q := h

theorem emit_bind {e : E} {f : PUnit → TraceM W E β} (h : Yields (f ⟨⟩) { s with trace := s.trace ++ [e] } Q) :
    Yields (TraceM.emit e >>= f) s Q := h

theorem ite {c : Prop} [Decidable c] {x y : TraceM W E α} (hx : c → Yields x s P) (hy : ¬ c → Yields y s P) :
    Yields (if c then x else y) s P := by
  split
  · exact hx ‹_›
  · exact hy ‹_›

theorem forM {ι : Type} {f : ι → TraceM W E PUnit} {I : List ι → Traced W E → Prop} {l : List ι}
    (hf : ∀ i l s, I (i :: l) s → Yields (f i) s fun _ t => I l t) (h : I l s) :
    Yields (l.forM f) s fun _ t => I [] t := by
  induction l generalizing s with
  | nil => exact h
  | cons i l ih => exact (hf i l s h).bind fun _ t ht => ih ht

end Yields

/-! ## Relations every run respects -/

/-- `m` moves world and trace along `R`. -/
def Keeps (R : Traced W E → Traced W E → Prop) (m : TraceM W E α) : Prop := ∀ s, R s (m s).2

namespace Keeps

variable {R R' : Traced W E → Traced W E → Prop} {m : TraceM W E α}

theorem mono (h : Keeps R m) (hR : ∀ s t, R s t → R' s t) : Keeps R' m := fun s => hR _ _ (h s)

theorem pure [Std.Refl R] (a : α) : Keeps R (pure a : TraceM W E α) := fun s => refl_of R s

theorem bind [IsTrans (Traced W E) R] {f : α → TraceM W E β} (hm : Keeps R m) (hf : ∀ a, Keeps R (f a)) :
    Keeps R (m >>= f) := fun s => trans_of R (hm s) (hf _ _)

/-- Of a call it is known what it returned. -/
theorem call_bind [IsTrans (Traced W E) R] {c : W → α × W} {f : α → TraceM W E β}
    (hc : Keeps R (TraceM.call c : TraceM W E α)) (hf : ∀ w, Keeps R (f (c w).1)) : Keeps R (TraceM.call c >>= f) :=
  fun s => trans_of R (hc s) (hf s.world _)

theorem ite {c : Prop} [Decidable c] {x y : TraceM W E α} (hx : c → Keeps R x) (hy : ¬ c → Keeps R y) :
    Keeps R (if c then x else y) := by
  split
  · exact hx ‹_›
  · exact hy ‹_›

end Keeps

/-! ## What is added to the trace -/

/-- `t` adds events that satisfy `P` to the trace of `s`. -/
def Appends (P : E → Prop) (s t : Traced W E) : Prop := ∃ ext, t.trace = s.trace ++ ext ∧ ∀ e ∈ ext, P e

section Appends

variable {P Q : E → Prop}

theorem Appends.mono {s t : Traced W E} (h : Appends P s t) (hPQ : ∀ e, P e → Q e) : Appends Q s t := by
  obtain ⟨ext, he, hP⟩ := h
  exact ⟨ext, he, fun e he => hPQ e (hP e he)⟩

instance : Std.Refl (Appends (W := W) P) := ⟨fun _ => ⟨[], by simp, by simp⟩⟩

instance : IsTrans (Traced W E) (Appends P) := ⟨by
  rintro s t u ⟨ext, he, hP⟩ ⟨ext', he', hP'⟩
  refine ⟨ext ++ ext', by simp [he', he], fun e h => ?_⟩
  rcases List.mem_append.1 h with h | h
  · exact hP e h
  · exact hP' e h⟩

theorem appends_call (f : W → α × W) : Keeps (Appends P) (TraceM.call f : TraceM W E α) :=
  fun s => ⟨[], by simp, by simp⟩

theorem appends_emit {e : E} (h : P e) : Keeps (Appends P) (TraceM.emit e : TraceM W E PUnit) :=
  fun s => ⟨[e], rfl, by simpa using h⟩

end Appends

end Lib
