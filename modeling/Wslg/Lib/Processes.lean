import Mathlib.Logic.Function.Basic
import Mathlib.Tactic.Common
/-!
# The children of a process

What the kernel keeps of the children of one process: whom each belongs to, whether
it is in the process group of its parent, and the status once it is a zombie. A
child is there until it is waited for.
-/

namespace Lib.Processes

variable {P O S : Type} [DecidableEq P]

structure Process (O S : Type) where
  owner : O
  inGroup : Bool
  /-- None as long as it runs. -/
  status : Option S

abbrev Table (P O S : Type) := P → Option (Process O S)

variable (t : Table P O S) (pid q : P)

def ownerOf : Option O := (t pid).map Process.owner

/-! ## What happens to them -/

/-- A new child is in the group of its parent. -/
def fork (o : O) : Table P O S := Function.update t pid (some ⟨o, true, none⟩)

/-- `setpgid` to a group of its own. -/
def leaveGroup : Table P O S := Function.update t pid ((t pid).map fun p => { p with inGroup := false })

def exit (status : S) : Table P O S := Function.update t pid ((t pid).map fun p => { p with status := some status })

def reap : Table P O S := Function.update t pid none

/-! ## Whose they are -/

@[simp]
theorem ownerOf_fork (o : O) : ownerOf (fork t pid o) q = if q = pid then some o else ownerOf t q := by
  unfold ownerOf fork
  rw [Function.update_apply]
  split <;> rfl

@[simp]
theorem ownerOf_leaveGroup : ownerOf (leaveGroup t pid) q = ownerOf t q := by
  unfold ownerOf leaveGroup
  rw [Function.update_apply]
  split
  · rename_i heq
    rw [heq, Option.map_map]
    rfl
  · rfl

@[simp]
theorem ownerOf_exit (status : S) : ownerOf (exit t pid status) q = ownerOf t q := by
  unfold ownerOf exit
  rw [Function.update_apply]
  split
  · rename_i heq
    rw [heq, Option.map_map]
    rfl
  · rfl

@[simp]
theorem ownerOf_reap : ownerOf (reap t pid) q = if q = pid then none else ownerOf t q := by
  unfold ownerOf reap
  rw [Function.update_apply]
  split <;> rfl

variable {t pid q}

omit [DecidableEq P] in
theorem ownerOf_eq {p : Process O S} (h : t pid = some p) : ownerOf t pid = some p.owner := by
  rw [ownerOf, h]
  rfl

omit [DecidableEq P] in
theorem ownerOf_eq_none (h : t pid = none) : ownerOf t pid = none := by
  rw [ownerOf, h]
  rfl

/-- A new process has a PID that no other has. -/
theorem ownerOf_fork_of {o o' : O} (hq : ownerOf t q = some o') (hfree : t pid = none) :
    ownerOf (fork t pid o) q = some o' := by
  rw [ownerOf_fork, if_neg, hq]
  rintro rfl
  rw [ownerOf_eq_none hfree] at hq
  cases hq

/-! ## Who leaves a zombie in the group -/

/-- The processes of these owners are out of the group when they end. -/
def OutOfGroup (own : O → Prop) (t : Table P O S) : Prop :=
  ∀ pid p, t pid = some p → own p.owner → p.status.isSome = true → p.inGroup = false

variable {own : O → Prop}

theorem OutOfGroup.fork (ht : OutOfGroup own t) (o : O) : OutOfGroup own (fork t pid o) := by
  intro q p hp ho hs
  unfold Processes.fork at hp
  rw [Function.update_apply] at hp
  split at hp
  · cases hp
    cases hs
  · exact ht q p hp ho hs

theorem OutOfGroup.leaveGroup (ht : OutOfGroup own t) : OutOfGroup own (leaveGroup t pid) := by
  intro q p hp ho hs
  unfold Processes.leaveGroup at hp
  rw [Function.update_apply] at hp
  split at hp
  · obtain ⟨p', -, rfl⟩ := Option.map_eq_some_iff.1 hp
    rfl
  · exact ht q p hp ho hs

/-- As long as none of them ends in the group. -/
theorem OutOfGroup.exit {p : Process O S} {status : S} (ht : OutOfGroup own t) (hpid : t pid = some p)
    (hout : own p.owner → p.inGroup = false) : OutOfGroup own (exit t pid status) := by
  intro q p' hp' ho hs
  unfold Processes.exit at hp'
  rw [Function.update_apply] at hp'
  split at hp'
  · rw [hpid] at hp'
    cases hp'
    exact hout ho
  · exact ht q p' hp' ho hs

theorem OutOfGroup.reap (ht : OutOfGroup own t) : OutOfGroup own (reap t pid) := by
  intro q p hp ho hs
  unfold Processes.reap at hp
  rw [Function.update_apply] at hp
  split at hp
  · cases hp
  · exact ht q p hp ho hs

end Lib.Processes
