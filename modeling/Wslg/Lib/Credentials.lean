import Mathlib.Data.Finset.Basic
import Mathlib.Data.Finset.Lattice.Lemmas
import Mathlib.Tactic.Common
/-!
# Credentials

What a process on Linux may do: its user and group IDs and its sets of
capabilities, and what the system calls do to them that a daemon makes before it
executes another program. The security bits are the default ones, but for the one
that keeps capabilities. `none` is a call that is not permitted.
-/

namespace Lib

variable {Cap : Type} [DecidableEq Cap]

/-- The sets that a process replaces by itself. -/
structure CapSets (Cap : Type) where
  permitted : Finset Cap
  effective : Finset Cap
  inheritable : Finset Cap
  deriving DecidableEq

structure Credentials (Cap : Type) [DecidableEq Cap] extends CapSets Cap where
  ruid : Nat
  euid : Nat
  suid : Nat
  rgid : Nat
  egid : Nat
  sgid : Nat
  groups : Finset Nat
  ambient : Finset Cap
  bounding : Finset Cap
  keepCaps : Bool
  effective_subset : effective ⊆ permitted
  ambient_subset : ambient ⊆ permitted ∩ inheritable

/-- The capabilities that the calls ask for. -/
structure AskedFor (Cap : Type) where
  CAP_SETGID : Cap
  CAP_SETUID : Cap
  CAP_SETPCAP : Cap

namespace Credentials

variable (known : AskedFor Cap) (c : Credentials Cap)

/-! ## Users and groups -/

/-- `prctl(PR_SET_KEEPCAPS, 1)` -/
def setKeepCaps : Credentials Cap := { c with keepCaps := true }

def setgid (gid : Nat) : Option (Credentials Cap) :=
  if known.CAP_SETGID ∈ c.effective then some { c with rgid := gid, egid := gid, sgid := gid }
  else if gid = c.rgid ∨ gid = c.sgid then some { c with egid := gid }
  else none

def setgroups (groups : Finset Nat) : Option (Credentials Cap) :=
  if known.CAP_SETGID ∈ c.effective then some { c with groups := groups } else none

/-- One of the IDs was root's, and none will be. -/
def LeavesRoot (ruid euid suid : Nat) : Prop :=
  (c.ruid = 0 ∨ c.euid = 0 ∨ c.suid = 0) ∧ ruid ≠ 0 ∧ euid ≠ 0 ∧ suid ≠ 0

instance (ruid euid suid : Nat) : Decidable (c.LeavesRoot ruid euid suid) := inferInstanceAs (Decidable (_ ∧ _))

/-- What is left of the permitted and the ambient set, and then of the effective one. -/
def permittedAfter (ruid euid suid : Nat) : Finset Cap :=
  if c.LeavesRoot ruid euid suid ∧ c.keepCaps = false then ∅ else c.permitted

def ambientAfter (ruid euid suid : Nat) : Finset Cap :=
  if c.LeavesRoot ruid euid suid then ∅ else c.ambient

def effectiveAfter (ruid euid suid : Nat) : Finset Cap :=
  if c.LeavesRoot ruid euid suid ∧ c.keepCaps = false then ∅
  else if c.euid = 0 ∧ euid ≠ 0 then ∅
  else if c.euid ≠ 0 ∧ euid = 0 then c.permitted
  else c.effective

/-- The IDs are replaced, and the capabilities with them. -/
def changeUids (ruid euid suid : Nat) : Credentials Cap where
  ruid := ruid
  euid := euid
  suid := suid
  rgid := c.rgid
  egid := c.egid
  sgid := c.sgid
  groups := c.groups
  permitted := c.permittedAfter ruid euid suid
  effective := c.effectiveAfter ruid euid suid
  inheritable := c.inheritable
  ambient := c.ambientAfter ruid euid suid
  bounding := c.bounding
  keepCaps := c.keepCaps
  effective_subset := by
    have h := c.effective_subset
    unfold effectiveAfter permittedAfter
    split_ifs <;> simp [h]
  ambient_subset := by
    have h := c.ambient_subset
    unfold ambientAfter permittedAfter
    by_cases hleaves : c.LeavesRoot ruid euid suid
    · simp [hleaves]
    · simpa [hleaves] using h

def setuid (uid : Nat) : Option (Credentials Cap) :=
  if known.CAP_SETUID ∈ c.effective then some (c.changeUids uid uid uid)
  else if uid = c.ruid ∨ uid = c.suid then some (c.changeUids c.ruid uid c.suid)
  else none

/-! ## Capabilities -/

/-- `capset` lets a process have less, and inherit what it has or may get. -/
def Settable (t : CapSets Cap) : Prop :=
  t.permitted ⊆ c.permitted ∧ t.effective ⊆ t.permitted ∧ t.inheritable ⊆ c.inheritable ∪ c.bounding ∧
    (known.CAP_SETPCAP ∈ c.effective ∨ t.inheritable ⊆ c.inheritable ∪ c.permitted)

instance (t : CapSets Cap) : Decidable (c.Settable known t) := inferInstanceAs (Decidable (_ ∧ _))

def capset (t : CapSets Cap) : Option (Credentials Cap) :=
  if h : c.Settable known t then some { c with
    toCapSets := t
    ambient := c.ambient ∩ (t.permitted ∩ t.inheritable)
    effective_subset := h.2.1
    ambient_subset := Finset.inter_subset_right }
  else none

def setAmbient (ambient : Finset Cap) (h : ambient ⊆ c.permitted ∩ c.inheritable) : Credentials Cap :=
  { c with ambient := ambient, ambient_subset := h }

/-- `prctl(PR_CAP_AMBIENT, PR_CAP_AMBIENT_RAISE, cap)` -/
def raiseAmbient (cap : Cap) : Option (Credentials Cap) :=
  if h : cap ∈ c.permitted ∩ c.inheritable then
    some (c.setAmbient (insert cap c.ambient) (Finset.insert_subset h c.ambient_subset))
  else none

/-! ## Programs -/

def ambientOfProgram : Finset Cap := if c.euid = c.ruid ∧ c.egid = c.rgid then c.ambient else ∅

def permittedOfProgram : Finset Cap :=
  (if c.euid = 0 ∨ c.ruid = 0 then c.inheritable ∪ c.bounding else ∅) ∪ c.ambientOfProgram

/-- What the program may do, of which the file has no capabilities and no bit that sets an ID. -/
def execPlain : Credentials Cap := { c with
  suid := c.euid
  sgid := c.egid
  permitted := c.permittedOfProgram
  effective := if c.euid = 0 then c.permittedOfProgram else c.ambientOfProgram
  ambient := c.ambientOfProgram
  keepCaps := false
  effective_subset := by
    split
    · exact Finset.Subset.rfl
    · exact Finset.subset_union_right
  ambient_subset := by
    refine Finset.subset_inter Finset.subset_union_right ?_
    unfold ambientOfProgram
    split
    · exact c.ambient_subset.trans Finset.inter_subset_right
    · exact Finset.empty_subset _ }

/-! ## To another user -/

/-- All IDs are these. -/
structure Is (uid gid : Nat) : Prop where
  ruid : c.ruid = uid
  euid : c.euid = uid
  suid : c.suid = uid
  rgid : c.rgid = gid
  egid : c.egid = gid
  sgid : c.sgid = gid

variable {known c}

theorem setgid_of_mem (h : known.CAP_SETGID ∈ c.effective) (gid : Nat) :
    c.setgid known gid = some { c with rgid := gid, egid := gid, sgid := gid } := if_pos h

theorem setgroups_of_mem (h : known.CAP_SETGID ∈ c.effective) (groups : Finset Nat) :
    c.setgroups known groups = some { c with groups := groups } := if_pos h

theorem setuid_of_mem (h : known.CAP_SETUID ∈ c.effective) (uid : Nat) :
    c.setuid known uid = some (c.changeUids uid uid uid) := if_pos h

theorem leavesRoot {uid : Nat} (hroot : c.euid = 0) (huid : uid ≠ 0) : c.LeavesRoot uid uid uid :=
  ⟨.inr (.inl hroot), huid, huid, huid⟩

theorem changeUids_permitted {uid : Nat} (hroot : c.euid = 0) (huid : uid ≠ 0) :
    (c.changeUids uid uid uid).permitted = if c.keepCaps then c.permitted else ∅ := by
  show c.permittedAfter uid uid uid = _
  cases h : c.keepCaps <;> simp [permittedAfter, leavesRoot hroot huid, h]

theorem changeUids_effective {uid : Nat} (hroot : c.euid = 0) (huid : uid ≠ 0) :
    (c.changeUids uid uid uid).effective = ∅ := by
  show c.effectiveAfter uid uid uid = _
  cases h : c.keepCaps <;> simp [effectiveAfter, leavesRoot hroot huid, hroot, huid, h]

theorem changeUids_ambient {uid : Nat} (hroot : c.euid = 0) (huid : uid ≠ 0) :
    (c.changeUids uid uid uid).ambient = ∅ := if_pos (leavesRoot hroot huid)

theorem setAmbient_congr {a b : Finset Cap} (h : a = b) (ha : a ⊆ c.permitted ∩ c.inheritable) :
    c.setAmbient a ha = c.setAmbient b (h ▸ ha) := by
  subst h
  rfl

/-- Raised one by one. -/
theorem raiseAmbient_all {caps : List Cap} (h : ∀ cap ∈ caps, cap ∈ c.permitted ∩ c.inheritable) :
    caps.foldlM raiseAmbient c = some (c.setAmbient (c.ambient ∪ caps.toFinset)
      (Finset.union_subset c.ambient_subset fun cap hcap => h cap (List.mem_toFinset.1 hcap))) := by
  induction caps generalizing c with
  | nil => exact congrArg some (setAmbient_congr (by simp) c.ambient_subset)
  | cons cap caps ih =>
    obtain ⟨hcap, hcaps⟩ := List.forall_mem_cons.1 h
    rw [List.foldlM_cons, raiseAmbient, dif_pos hcap]
    show caps.foldlM raiseAmbient (c.setAmbient (insert cap c.ambient) _) = _
    refine (ih (by exact hcaps)).trans ?_
    exact congrArg some (setAmbient_congr (by simp [setAmbient, Finset.insert_union, Finset.union_insert]) _)

/-- A program of a user that is not root has the ambient capabilities and no others. -/
theorem execPlain_of_user {uid gid : Nat} (h : c.Is uid gid) (huid : uid ≠ 0) :
    c.execPlain.permitted = c.ambient ∧ c.execPlain.effective = c.ambient ∧ c.execPlain.ambient = c.ambient := by
  simp [execPlain, permittedOfProgram, ambientOfProgram, h.ruid, h.euid, h.rgid, h.egid, huid]

theorem execPlain_is {uid gid : Nat} (h : c.Is uid gid) : c.execPlain.Is uid gid :=
  ⟨h.ruid, h.euid, h.euid, h.rgid, h.egid, h.egid⟩

end Credentials

end Lib
