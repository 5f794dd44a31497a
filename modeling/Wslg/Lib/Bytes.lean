import Mathlib.Tactic.Ring
import Mathlib.Algebra.Group.Nat.Even
/-!
# Little-endian bytes

Fixed-width little-endian numbers as byte lists, over `Nat`. The two directions
are inverse to each other for numbers that fit.
-/

namespace Lib

/-- The `n` low bytes of `v`, lowest first. -/
def leBytes : Nat → Nat → List UInt8
  | 0, _ => []
  | n + 1, v => UInt8.ofNat v :: leBytes n (v / 256)

/-- The number that bytes spell, lowest byte first. -/
def leValue : List UInt8 → Nat
  | [] => 0
  | b :: bs => b.toNat + 256 * leValue bs

@[simp] theorem leBytes_length (n v : Nat) : (leBytes n v).length = n := by
  induction n generalizing v with
  | zero => rfl
  | succ n ih => simp [leBytes, ih]

theorem leValue_lt (bs : List UInt8) : leValue bs < 256 ^ bs.length := by
  induction bs with
  | nil => simp [leValue]
  | cons b bs ih =>
    have := b.toNat_lt
    simp only [leValue, List.length_cons, pow_succ]
    omega

/-- Writing a number that fits and reading it back. -/
theorem leValue_leBytes (n v : Nat) (h : v < 256 ^ n) : leValue (leBytes n v) = v := by
  induction n generalizing v with
  | zero => simp at h; simp [leBytes, leValue, h]
  | succ n ih =>
    rw [pow_succ] at h
    simp only [leBytes, leValue, UInt8.toNat_ofNat']
    rw [ih (v / 256) (by omega)]
    omega

/-- Reading bytes and writing the number back. -/
theorem leBytes_leValue (bs : List UInt8) : leBytes bs.length (leValue bs) = bs := by
  induction bs with
  | nil => rfl
  | cons b bs ih =>
    have hb := b.toNat_lt
    have hdiv : (b.toNat + 256 * leValue bs) / 256 = leValue bs := by omega
    have hlow : UInt8.ofNat (b.toNat + 256 * leValue bs) = b := by
      apply UInt8.toNat_inj.1
      rw [UInt8.toNat_ofNat']
      omega
    simp only [List.length_cons, leBytes, leValue, hdiv, hlow, ih]

/-! ## Two and four byte fields -/

def le16 (v : UInt16) : List UInt8 := leBytes 2 v.toNat
def le32 (v : UInt32) : List UInt8 := leBytes 4 v.toNat

def read16 (bs : List UInt8) : UInt16 := UInt16.ofNat (leValue bs)
def read32 (bs : List UInt8) : UInt32 := UInt32.ofNat (leValue bs)

@[simp] theorem le16_length (v : UInt16) : (le16 v).length = 2 := leBytes_length _ _
@[simp] theorem le32_length (v : UInt32) : (le32 v).length = 4 := leBytes_length _ _

@[simp] theorem read16_le16 (v : UInt16) : read16 (le16 v) = v := by
  simp only [read16, le16]
  rw [leValue_leBytes 2 v.toNat (by have := v.toNat_lt; omega), UInt16.ofNat_toNat]

@[simp] theorem read32_le32 (v : UInt32) : read32 (le32 v) = v := by
  simp only [read32, le32]
  rw [leValue_leBytes 4 v.toNat (by have := v.toNat_lt; omega), UInt32.ofNat_toNat]

/-- Two bytes are the field they read as. -/
theorem le16_read16 {bs : List UInt8} (h : bs.length = 2) : le16 (read16 bs) = bs := by
  have hlt := leValue_lt bs
  rw [h] at hlt
  simp only [le16, read16, UInt16.toNat_ofNat']
  rw [Nat.mod_eq_of_lt (by omega), ← h, leBytes_leValue]

theorem le32_read32 {bs : List UInt8} (h : bs.length = 4) : le32 (read32 bs) = bs := by
  have hlt := leValue_lt bs
  rw [h] at hlt
  simp only [le32, read32, UInt32.toNat_ofNat']
  rw [Nat.mod_eq_of_lt (by omega), ← h, leBytes_leValue]

end Lib
