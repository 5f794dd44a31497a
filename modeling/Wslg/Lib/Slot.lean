import Wslg.Lib.Balance
/-!
# A slot for a handle

Handles are opened and closed, and a slot remembers at most one that is open. It
accounts for the handles if whatever was opened and not closed is in it; it is backed
by them if at least what is in it was opened and not closed.
-/

namespace Lib

variable {H E : Type} [DecidableEq H] {opened closed : E → Option H} {slot : Option H} {l : List E}

/-- How an event changes the number of times that `h` is open. -/
def openings (opened closed : E → Option H) (h : H) (e : E) : Int :=
  (if opened e = some h then 1 else 0) - if closed e = some h then 1 else 0

def inSlot (slot : Option H) (h : H) : Int := if slot = some h then 1 else 0

@[simp] theorem inSlot_none (h : H) : inSlot none h = 0 := rfl

@[simp] theorem inSlot_self (h : H) : inSlot (some h) h = 1 := if_pos rfl

theorem inSlot_nonneg (slot : Option H) (h : H) : 0 ≤ inSlot slot h := by
  unfold inSlot
  split <;> decide

/-- Everything that is open is in the slot. -/
def Accounts (opened closed : E → Option H) (slot : Option H) (l : List E) : Prop :=
  ∀ h, held (openings opened closed h) l = inSlot slot h

/-- What is in the slot is open, and nothing was closed more often than opened. -/
def Backed (opened closed : E → Option H) (slot : Option H) (l : List E) : Prop :=
  ∀ h, inSlot slot h ≤ held (openings opened closed h) l

theorem Accounts.backed (hl : Accounts opened closed slot l) : Backed opened closed slot l := fun h => Int.le_of_eq (hl h).symm

theorem accounts_nil : Accounts opened closed none ([] : List E) := fun _ => rfl

/-- What happens next, the slot then, and whether something is lost. -/
inductive SlotStep (opened closed : E → Option H) (slot : Option H) : List E → Option H → Bool → Prop
  /-- Nothing that matters. -/
  | keeps {evs : List E} (hevs : ∀ e ∈ evs, opened e = none ∧ closed e = none) :
      SlotStep opened closed slot evs slot false
  /-- What is in the slot is closed. -/
  | closes {e : E} (ho : opened e = none) (hc : closed e = slot) : SlotStep opened closed slot [e] none false
  /-- The slot is written over, without a close. -/
  | overwrites {evs : List E} {slot' : Option H} (hevs : ∀ h, held (openings opened closed h) evs = inSlot slot' h) :
      SlotStep opened closed slot evs slot' slot.isSome

theorem held_closes {e : E} (ho : opened e = none) (hc : closed e = slot) (h : H) :
    held (openings opened closed h) [e] = -inSlot slot h := by
  simp [openings, ho, hc, inSlot]

theorem held_keeps {evs : List E} (hevs : ∀ e ∈ evs, opened e = none ∧ closed e = none) (h : H) :
    held (openings opened closed h) evs = 0 := by
  refine held_of_neutral fun e he => ?_
  obtain ⟨ho, hc⟩ := hevs e he
  simp [openings, ho, hc]

variable {evs : List E} {slot' : Option H} {lost : Bool}

theorem Backed.step (hl : Backed opened closed slot l) (h : SlotStep opened closed slot evs slot' lost) :
    Backed opened closed slot' (l ++ evs) := by
  intro x
  have hx := hl x
  have hpos := inSlot_nonneg slot x
  rw [held_append]
  cases h with
  | keeps hevs =>
    rw [held_keeps hevs]
    omega
  | closes ho hc =>
    rw [held_closes ho hc, inSlot_none]
    omega
  | overwrites hevs =>
    rw [hevs x]
    omega

/-- Everything stays accounted for unless something is lost. -/
theorem Accounts.step_iff (hl : Accounts opened closed slot l) (h : SlotStep opened closed slot evs slot' lost) :
    Accounts opened closed slot' (l ++ evs) ↔ lost = false := by
  cases h with
  | keeps hevs =>
    refine iff_of_true (fun x => ?_) rfl
    rw [held_append, hl x, held_keeps hevs]
    omega
  | closes ho hc =>
    refine iff_of_true (fun x => ?_) rfl
    rw [held_append, hl x, held_closes ho hc, inSlot_none]
    omega
  | overwrites hevs =>
    constructor
    · intro ht
      cases hslot : slot with
      | none => rfl
      | some x =>
        -- what was in the slot is open still, and nowhere
        have hx := ht x
        rw [held_append, hl x, hevs x, hslot, inSlot_self] at hx
        omega
    · intro hnone x
      have hslot : slot = none := by simpa using hnone
      rw [held_append, hl x, hevs x, hslot, inSlot_none]
      omega

end Lib
