import Wslg.Lib.DirTree
/-!
# Watch descriptors

Which inodes are watched, and under which descriptor. An inode has one at most, and
a descriptor that was given away is never used again.
-/

namespace Lib

abbrev Wd := Nat

structure Watches where
  marks : List (Inode × Wd)
  next : Wd
  inode_unique : ∀ i w w', (i, w) ∈ marks → (i, w') ∈ marks → w = w'
  wd_unique : ∀ i i' w, (i, w) ∈ marks → (i', w) ∈ marks → i = i'
  used : ∀ i w, (i, w) ∈ marks → w < next

namespace Watches

variable {m : Watches} {i : Inode} {w : Wd}

def empty : Watches := ⟨[], 1, by simp, by simp, by simp⟩

def wdOf (m : Watches) (i : Inode) : Option Wd := (m.marks.find? (fun x => x.1 = i)).map Prod.snd

theorem wdOf_eq_some : m.wdOf i = some w ↔ (i, w) ∈ m.marks := by
  unfold wdOf
  constructor
  · intro h
    obtain ⟨⟨j, v⟩, hx, rfl⟩ := Option.map_eq_some_iff.1 h
    have hj : j = i := by simpa using List.find?_some hx
    exact hj ▸ List.mem_of_find?_eq_some hx
  · intro h
    cases hx : m.marks.find? (fun x => x.1 = i) with
    | none => exact absurd (List.find?_eq_none.1 hx _ h) (by simp)
    | some x =>
      obtain ⟨j, v⟩ := x
      have hj : j = i := by simpa using List.find?_some hx
      subst hj
      rw [m.inode_unique j w v h (List.mem_of_find?_eq_some hx)]
      rfl

theorem not_mem_of_wdOf (h : m.wdOf i = none) (w : Wd) : (i, w) ∉ m.marks := by
  intro hmem
  rw [wdOf_eq_some.2 hmem] at h
  cases h

/-- A new descriptor. -/
def add (m : Watches) (i : Inode) (h : m.wdOf i = none) : Watches where
  marks := (i, m.next) :: m.marks
  next := m.next + 1
  inode_unique j w w' hw hw' := by
    rcases List.mem_cons.1 hw with heq | hw <;> rcases List.mem_cons.1 hw' with heq' | hw'
    · cases heq
      cases heq'
      rfl
    · cases heq
      exact absurd hw' (not_mem_of_wdOf h w')
    · cases heq'
      exact absurd hw (not_mem_of_wdOf h w)
    · exact m.inode_unique j w w' hw hw'
  wd_unique j j' w hj hj' := by
    rcases List.mem_cons.1 hj with heq | hj <;> rcases List.mem_cons.1 hj' with heq' | hj'
    · cases heq
      cases heq'
      rfl
    · cases heq
      exact absurd (m.used _ _ hj') (Nat.lt_irrefl _)
    · cases heq'
      exact absurd (m.used _ _ hj) (Nat.lt_irrefl _)
    · exact m.wd_unique j j' w hj hj'
  used j w hj := by
    rcases List.mem_cons.1 hj with heq | hj
    · cases heq
      exact Nat.lt_succ_self _
    · exact Nat.lt_succ_of_lt (m.used j w hj)

theorem mem_add {h : m.wdOf i = none} {x : Inode × Wd} :
    x ∈ (m.add i h).marks ↔ x = (i, m.next) ∨ x ∈ m.marks := List.mem_cons

/-- Without some of the marks. -/
def keep (m : Watches) (p : Inode × Wd → Bool) : Watches where
  marks := m.marks.filter p
  next := m.next
  inode_unique j w w' hw hw' := m.inode_unique j w w' (List.mem_of_mem_filter hw) (List.mem_of_mem_filter hw')
  wd_unique j j' w hj hj' := m.wd_unique j j' w (List.mem_of_mem_filter hj) (List.mem_of_mem_filter hj')
  used j w hj := m.used j w (List.mem_of_mem_filter hj)

/-- By its descriptor. -/
def remove (m : Watches) (w : Wd) : Watches := m.keep (fun x => x.2 ≠ w)

/-- With its inode. -/
def drop (m : Watches) (i : Inode) : Watches := m.keep (fun x => x.1 ≠ i)

theorem mem_remove {x : Inode × Wd} : x ∈ (m.remove w).marks ↔ x ∈ m.marks ∧ x.2 ≠ w := by
  simp [remove, keep]

theorem mem_drop {x : Inode × Wd} : x ∈ (m.drop i).marks ↔ x ∈ m.marks ∧ x.1 ≠ i := by
  simp [drop, keep]

theorem drop_of_none (h : m.wdOf i = none) : m.drop i = m := by
  have hmarks : m.marks.filter (fun x => x.1 ≠ i) = m.marks := by
    refine List.filter_eq_self.2 fun x hx => decide_eq_true ?_
    rintro rfl
    exact not_mem_of_wdOf h x.2 hx
  unfold drop keep
  simp only [hmarks]

/-- What became of the watches: some went, and some have new descriptors. -/
def Later (m m' : Watches) : Prop := m.next ≤ m'.next ∧ ∀ x ∈ m'.marks, x ∈ m.marks ∨ m.next ≤ x.2

namespace Later

variable {m m' m'' : Watches} {i j : Inode} {w : Wd}

theorem refl (m : Watches) : Later m m := ⟨Nat.le_refl _, fun _ hx => .inl hx⟩

theorem trans (h : Later m m') (h' : Later m' m'') : Later m m'' := by
  refine ⟨Nat.le_trans h.1 h'.1, fun x hx => ?_⟩
  rcases h'.2 x hx with hx | hx
  · exact h.2 x hx
  · exact .inr (Nat.le_trans h.1 hx)

theorem add (m : Watches) (h : m.wdOf i = none) : Later m (m.add i h) := by
  refine ⟨Nat.le_succ _, fun x hx => ?_⟩
  rcases mem_add.1 hx with rfl | hx
  · exact .inr (Nat.le_refl _)
  · exact .inl hx

theorem remove (m : Watches) (w : Wd) : Later m (m.remove w) := ⟨Nat.le_refl _, fun _ hx => .inl (mem_remove.1 hx).1⟩

theorem drop (m : Watches) (i : Inode) : Later m (m.drop i) := ⟨Nat.le_refl _, fun _ hx => .inl (mem_drop.1 hx).1⟩

/-- A descriptor is never of two directories, not even one after the other. -/
theorem inode_eq (h : Later m m') (hj : (j, w) ∈ m.marks) (hi : (i, w) ∈ m'.marks) : j = i := by
  rcases h.2 _ hi with hi | hle
  · exact m.wd_unique j i w hj hi
  · exact absurd (m.used j w hj) (Nat.not_lt.2 hle)

end Later

end Watches

end Lib
