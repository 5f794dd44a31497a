import Mathlib.Algebra.Order.Group.Defs
import Mathlib.Algebra.Order.Group.Unbundled.Basic
import Mathlib.Data.List.Sublists
import Wslg.Lib.History
/-!
# Events in a window of time

`recent w now` keeps the times that are not older than `w`. A list that is pruned
at every event answers for the window as the whole history does, and if only
events are accepted that see at most `n` in their window, no window has more than
`n` accepted ones.
-/

namespace Lib

variable {T : Type} [AddCommGroup T] [LinearOrder T]

/-! ## Pruned lists -/

def recent (w now : T) (ts : List T) : List T := ts.filter (fun t => now - w ≤ t)

theorem recent_append (w now : T) (ts ts' : List T) : recent w now (ts ++ ts') = recent w now ts ++ recent w now ts' :=
  List.filter_append ..

/-- From `now` on the list `kept` answers for `ts`. -/
def Covers (w now : T) (kept ts : List T) : Prop := ∀ now', now ≤ now' → recent w now' kept = recent w now' ts

theorem covers_refl (w now : T) (ts : List T) : Covers w now ts ts := fun _ _ => rfl

theorem Covers.mono {w now now' : T} {kept ts : List T} (h : Covers w now kept ts) (hle : now ≤ now') :
    Covers w now' kept ts := fun _ hle' => h _ (hle.trans hle')

variable [IsOrderedAddMonoid T]

/-- What was pruned earlier would be pruned now. -/
theorem recent_recent (w : T) {now now' : T} (h : now ≤ now') (ts : List T) :
    recent w now' (recent w now ts) = recent w now' ts := by
  unfold recent
  rw [List.filter_filter]
  apply List.filter_congr
  intro t _
  have hle : now - w ≤ now' - w := sub_le_sub_right h w
  by_cases ht : now' - w ≤ t
  · simp [ht, hle.trans ht]
  · simp [ht]

/-- An event is noted at the end of the pruned list. -/
theorem Covers.note {w now t : T} {kept ts : List T} (h : Covers w now kept ts) (hle : now ≤ t) :
    Covers w t (recent w t kept ++ [t]) (ts ++ [t]) := by
  intro now' hle'
  rw [recent_append, recent_append, recent_recent w hle', h now' (hle.trans hle')]

/-! ## Accepted events -/

section Accepted

variable {E : Type} (time : E → T) (accepted : E → Bool) (w : T) (n : Nat)

/-- The events of the window that ends with `now`. -/
def inWindow (now : T) (es : List E) : List E := es.filter (fun e => now - w ≤ time e ∧ time e ≤ now)

variable {time accepted w n}

/-- The last accepted event of a window saw the others. -/
theorem accepted_in_window {es : List E} (hmono : es.Pairwise (fun a b => time a ≤ time b))
    (h : EveryAt (fun before e _ => accepted e = true → (inWindow time w (time e) (before ++ [e])).length ≤ n) es) (a : T) :
    (es.filter (fun e => accepted e ∧ a ≤ time e ∧ time e ≤ a + w)).length ≤ n := by
  induction es using List.reverseRecOn with
  | nil => exact Nat.zero_le n
  | append_singleton es e ih =>
    obtain ⟨hmono', -, hlast⟩ := List.pairwise_append.1 hmono
    by_cases he : accepted e = true ∧ a ≤ time e ∧ time e ≤ a + w
    · refine le_trans ?_ (EveryAt.at (b := []) h he.1)
      unfold inWindow
      rw [← List.countP_eq_length_filter, ← List.countP_eq_length_filter]
      apply List.countP_mono_left
      intro x hx hp
      obtain ⟨-, hax, -⟩ := of_decide_eq_true hp
      have hle : time x ≤ time e := by
        rcases List.mem_append.1 hx with hx | hx
        · exact hlast x hx e (by simp)
        · exact (List.mem_singleton.1 hx) ▸ le_refl _
      exact decide_eq_true ⟨(sub_le_iff_le_add.2 he.2.2).trans hax, hle⟩
    · rw [List.filter_append, List.filter_cons_of_neg (by simpa using he), List.filter_nil, List.append_nil]
      exact ih hmono' fun x y z hxyz => h x y (z ++ [e]) (by simp [hxyz])

end Accepted

end Lib
