import Mathlib.Data.List.Basic
import Mathlib.Tactic.Common
/-!
# Records in a buffer

Records of different sizes, one behind the other. A writer puts as many into a buffer
as it has room for, and a reader goes from one to the next by the size it finds in each.
-/

namespace Lib.Records

variable {R E B : Type}

/-! ## Writing -/

/-- How many of the records have room. -/
def fitting (size : R → Nat) : Nat → List R → Nat
  | _, [] => 0
  | room, r :: rs => if size r ≤ room then fitting size (room - size r) rs + 1 else 0

theorem fitting_le (size : R → Nat) (room : Nat) (rs : List R) : fitting size room rs ≤ rs.length := by
  induction rs generalizing room with
  | nil => exact Nat.le_refl 0
  | cons r rs ih =>
    unfold fitting
    split
    · exact Nat.succ_le_succ (ih _)
    · exact Nat.zero_le _

theorem fitting_pos {size : R → Nat} {room : Nat} {rs : List R} (hne : rs ≠ []) (h : ∀ r ∈ rs, size r ≤ room) :
    0 < fitting size room rs := by
  cases rs with
  | nil => exact (hne rfl).elim
  | cons r rs =>
    unfold fitting
    rw [if_pos (h r List.mem_cons_self)]
    exact Nat.succ_pos _

/-- They do have room. -/
theorem flatMap_fitting_le (write : R → List B) (room : Nat) (rs : List R) :
    ((rs.take (fitting (fun r => (write r).length) room rs)).flatMap write).length ≤ room := by
  induction rs generalizing room with
  | nil => exact Nat.zero_le _
  | cons r rs ih =>
    unfold fitting
    split
    · rename_i hfits
      have hrest := ih (room - (write r).length)
      rw [List.take_succ_cons, List.flatMap_cons, List.length_append]
      omega
    · exact Nat.zero_le _

/-! ## Reading -/

/-- Record by record; `next` gives what it makes of the one in front, and its size. -/
def walk (next : List B → Option (E × Nat)) : Nat → List B → Option (List E)
  | _, [] => some []
  | 0, _ :: _ => none
  | fuel + 1, b :: bs => do
    let r ← next (b :: bs)
    let rest ← walk next fuel ((b :: bs).drop r.2)
    return r.1 :: rest

/-- What was written is read, record by record. -/
theorem walk_flatMap {next : List B → Option (E × Nat)} {write : R → List B} {read : R → E}
    (hnext : ∀ r rest, next (write r ++ rest) = some (read r, (write r).length)) (hne : ∀ r, write r ≠ [])
    {rs : List R} {fuel : Nat} (hfuel : rs.length ≤ fuel) : walk next fuel (rs.flatMap write) = some (rs.map read) := by
  induction rs generalizing fuel with
  | nil => cases fuel <;> rfl
  | cons r rs ih =>
    cases fuel with
    | zero => cases hfuel
    | succ fuel =>
      have hrest := ih (Nat.le_of_succ_le_succ hfuel)
      have hstep := hnext r (rs.flatMap write)
      rw [List.flatMap_cons]
      -- a record is not empty, so the loop goes on
      cases hbytes : write r with
      | nil => exact (hne r hbytes).elim
      | cons b bs =>
        rw [hbytes] at hstep
        rw [List.cons_append] at hstep ⊢
        unfold walk
        rw [hstep, Option.bind_eq_bind, Option.bind_some, ← List.cons_append, List.drop_left' rfl, hrest]
        rfl

end Lib.Records
