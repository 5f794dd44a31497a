import Mathlib.Data.List.Induction
import Mathlib.Data.List.Infix
import Mathlib.Data.List.Nodup
import Mathlib.Tactic.Common
/-!
# Directory trees

Directories are inodes, linked by names. A path starts at one of some roots, which
have no parent; every other directory has at most one, so no directory has two
paths.
-/

namespace Lib

abbrev Inode := Nat

structure DirLink (N : Type) where
  dir : Inode
  name : N
  target : Inode
  deriving DecidableEq

structure DirTree (R N : Type) where
  root : R → Option Inode
  links : List (DirLink N)
  /-- The inodes from here on were never used. -/
  next : Inode
  root_inj : ∀ r r' i, root r = some i → root r' = some i → r = r'
  root_used : ∀ r i, root r = some i → i < next
  root_free : ∀ r i, root r = some i → ∀ l ∈ links, l.target ≠ i
  unique : ∀ l ∈ links, ∀ l' ∈ links, l.dir = l'.dir → l.name = l'.name → l = l'
  parent : ∀ l ∈ links, ∀ l' ∈ links, l.target = l'.target → l = l'
  used : ∀ l ∈ links, l.dir < next ∧ l.target < next

namespace DirTree

variable {R N : Type} [DecidableEq N] {t : DirTree R N}

/-! ## Lookup -/

def child (t : DirTree R N) (i : Inode) (n : N) : Option Inode :=
  (t.links.find? (fun l => l.dir = i ∧ l.name = n)).map DirLink.target

theorem child_eq_some {i k : Inode} {n : N} : t.child i n = some k ↔ ⟨i, n, k⟩ ∈ t.links := by
  unfold child
  constructor
  · intro h
    obtain ⟨l, hl, rfl⟩ := Option.map_eq_some_iff.1 h
    have hmem := List.mem_of_find?_eq_some hl
    have hp := List.find?_some hl
    obtain ⟨rfl, rfl⟩ : l.dir = i ∧ l.name = n := by simpa using hp
    exact hmem
  · intro h
    cases hl : t.links.find? (fun l => l.dir = i ∧ l.name = n) with
    | none => exact absurd (List.find?_eq_none.1 hl _ h) (by simp)
    | some l =>
      have hp : l.dir = i ∧ l.name = n := by simpa using List.find?_some hl
      rw [t.unique l (List.mem_of_find?_eq_some hl) _ h hp.1 hp.2]
      rfl

/-- The names of the directories in a directory. -/
def names (t : DirTree R N) (i : Inode) : List N := (t.links.filter (fun l => l.dir = i)).map DirLink.name

omit [DecidableEq N] in
theorem mem_names {i : Inode} {n : N} : n ∈ t.names i ↔ ∃ k, ⟨i, n, k⟩ ∈ t.links := by
  unfold names
  rw [List.mem_map]
  constructor
  · rintro ⟨⟨i', n', k⟩, hl, rfl⟩
    obtain ⟨hmem, hi⟩ := List.mem_filter.1 hl
    obtain rfl : i' = i := of_decide_eq_true hi
    exact ⟨k, hmem⟩
  · rintro ⟨k, hk⟩
    exact ⟨⟨i, n, k⟩, List.mem_filter.2 ⟨hk, decide_eq_true rfl⟩, rfl⟩

/-- The directory at a path. -/
def resolve (t : DirTree R N) (r : R) (ns : List N) : Option Inode := (t.root r).bind (fun i => ns.foldlM t.child i)

@[simp] theorem resolve_nil (t : DirTree R N) (r : R) : t.resolve r [] = t.root r := by
  unfold resolve
  cases t.root r <;> rfl

theorem resolve_append (t : DirTree R N) (r : R) (ns ms : List N) :
    t.resolve r (ns ++ ms) = (t.resolve r ns).bind (fun i => ms.foldlM t.child i) := by
  unfold resolve
  cases t.root r with
  | none => rfl
  | some i => exact List.foldlM_append ..

theorem resolve_concat (t : DirTree R N) (r : R) (ns : List N) (n : N) :
    t.resolve r (ns ++ [n]) = (t.resolve r ns).bind (fun i => t.child i n) := by
  rw [resolve_append]
  cases t.resolve r ns with
  | none => rfl
  | some i =>
    rw [Option.bind_some, Option.bind_some, List.foldlM_cons]
    cases t.child i n <;> rfl

theorem resolve_concat_eq_some {r : R} {ns : List N} {n : N} {k : Inode} :
    t.resolve r (ns ++ [n]) = some k ↔ ∃ i, t.resolve r ns = some i ∧ ⟨i, n, k⟩ ∈ t.links := by
  simp only [resolve_concat, Option.bind_eq_some_iff, child_eq_some]

/-- A directory has one path. -/
theorem resolve_injective {r r' : R} {ns ns' : List N} {i : Inode} (h : t.resolve r ns = some i)
    (h' : t.resolve r' ns' = some i) : r = r' ∧ ns = ns' := by
  induction ns using List.reverseRecOn generalizing ns' i with
  | nil =>
    rw [resolve_nil] at h
    rcases List.eq_nil_or_concat ns' with rfl | ⟨ns', n', rfl⟩
    · exact ⟨t.root_inj _ _ _ h (resolve_nil t r' ▸ h'), rfl⟩
    · rw [List.concat_eq_append, resolve_concat_eq_some] at h'
      obtain ⟨j, -, hlink⟩ := h'
      -- a root is in no directory
      exact absurd rfl (t.root_free _ _ h _ hlink)
  | append_singleton ns n ih =>
    obtain ⟨j, hj, hlink⟩ := resolve_concat_eq_some.1 h
    rcases List.eq_nil_or_concat ns' with rfl | ⟨ns', n', rfl⟩
    · rw [resolve_nil] at h'
      exact absurd rfl (t.root_free _ _ h' _ hlink)
    · rw [List.concat_eq_append, resolve_concat_eq_some] at h'
      obtain ⟨j', hj', hlink'⟩ := h'
      cases t.parent _ hlink _ hlink' rfl
      obtain ⟨hr, rfl⟩ := ih hj hj'
      exact ⟨hr, (List.concat_eq_append ..).symm⟩

theorem resolve_mono {t' : DirTree R N} (hroot : t'.root = t.root) (hlinks : t.links ⊆ t'.links) {r : R} {ns : List N}
    {k : Inode} (h : t.resolve r ns = some k) : t'.resolve r ns = some k := by
  induction ns using List.reverseRecOn generalizing k with
  | nil => rwa [resolve_nil, hroot, ← resolve_nil]
  | append_singleton ns n ih =>
    obtain ⟨j, hj, hlink⟩ := resolve_concat_eq_some.1 h
    exact resolve_concat_eq_some.2 ⟨j, ih hj, hlinks hlink⟩

/-- What is neither a root nor in a directory is nowhere. -/
theorem resolve_ne {k : Inode} (hroot : ∀ r, t.root r ≠ some k) (hlinks : ∀ l ∈ t.links, l.target ≠ k) (r : R)
    (ns : List N) : t.resolve r ns ≠ some k := by
  intro h
  rcases List.eq_nil_or_concat ns with rfl | ⟨ns, n, rfl⟩
  · exact hroot r (by rwa [resolve_nil] at h)
  · rw [List.concat_eq_append, resolve_concat_eq_some] at h
    obtain ⟨i, -, hlink⟩ := h
    exact hlinks _ hlink rfl

/-- The path goes through that name in that directory. -/
def Passes (t : DirTree R N) (r : R) (ns : List N) (i : Inode) (n : N) : Prop :=
  ∃ above below, ns = above ++ n :: below ∧ t.resolve r above = some i

theorem Passes.append {r : R} {ns : List N} {i : Inode} {n : N} (h : t.Passes r ns i n) (ms : List N) :
    t.Passes r (ns ++ ms) i n := by
  obtain ⟨above, below, rfl, hi⟩ := h
  exact ⟨above, below ++ ms, by rw [List.append_assoc, List.cons_append], hi⟩

instance (r : R) (ns : List N) (i : Inode) (n : N) : Decidable (t.Passes r ns i n) := by
  refine decidable_of_iff (∃ above ∈ ns.inits, above ++ [n] <+: ns ∧ t.resolve r above = some i) ?_
  constructor
  · rintro ⟨above, -, ⟨below, rfl⟩, hi⟩
    exact ⟨above, below, (List.append_cons ..).symm, hi⟩
  · rintro ⟨above, below, rfl, hi⟩
    exact ⟨above, (List.mem_inits ..).2 (List.prefix_append ..), ⟨below, (List.append_cons ..).symm⟩, hi⟩

/-- Behind the name of an empty directory no path goes on. -/
theorem Passes.resolve_eq {r : R} {ns : List N} {i k k' : Inode} {n : N} (h : t.Passes r ns i n)
    (hlink : ⟨i, n, k⟩ ∈ t.links) (hempty : ∀ l ∈ t.links, l.dir ≠ k) (hk' : t.resolve r ns = some k') : k' = k := by
  obtain ⟨above, below, rfl, hi⟩ := h
  have hk : t.resolve r (above ++ [n]) = some k := resolve_concat_eq_some.2 ⟨i, hi, hlink⟩
  rw [List.append_cons, resolve_append, hk, Option.bind_some] at hk'
  cases below with
  | nil => exact (Option.some.inj hk').symm
  | cons m below =>
    rw [List.foldlM_cons] at hk'
    obtain ⟨j, hj, -⟩ := Option.bind_eq_some_iff.1 hk'
    exact absurd rfl (hempty _ (child_eq_some.1 hj))

/-! ## Changes -/

/-- Without one link. -/
def unlink (t : DirTree R N) (i : Inode) (n : N) : DirTree R N where
  root := t.root
  links := t.links.filter (fun l => ¬ (l.dir = i ∧ l.name = n))
  next := t.next
  root_inj := t.root_inj
  root_used := t.root_used
  root_free r i h l hl := t.root_free r i h l (List.mem_of_mem_filter hl)
  unique l hl l' hl' := t.unique l (List.mem_of_mem_filter hl) l' (List.mem_of_mem_filter hl')
  parent l hl l' hl' := t.parent l (List.mem_of_mem_filter hl) l' (List.mem_of_mem_filter hl')
  used l hl := t.used l (List.mem_of_mem_filter hl)

theorem mem_unlink {i : Inode} {n : N} {l : DirLink N} :
    l ∈ (t.unlink i n).links ↔ l ∈ t.links ∧ ¬ (l.dir = i ∧ l.name = n) := by
  simp only [unlink, List.mem_filter, decide_eq_true_eq]

/-- Without a link the paths that do not go through it lead where they led. -/
theorem resolve_unlink {i k : Inode} {n : N} {r : R} {ns : List N} (h : t.resolve r ns = some k) :
    (t.unlink i n).resolve r ns = some k ∨ t.Passes r ns i n := by
  induction ns using List.reverseRecOn generalizing k with
  | nil => exact .inl (by rwa [resolve_nil] at h ⊢)
  | append_singleton ns m ih =>
    obtain ⟨j, hj, hlink⟩ := resolve_concat_eq_some.1 h
    rcases ih hj with hj' | hpasses
    · by_cases hsame : j = i ∧ m = n
      · obtain ⟨rfl, rfl⟩ := hsame
        exact .inr ⟨ns, [], rfl, hj⟩
      · exact .inl (resolve_concat_eq_some.2 ⟨j, hj', mem_unlink.2 ⟨hlink, hsame⟩⟩)
    · exact .inr (hpasses.append [m])

/-- The name is free, and the target is a directory without a parent that is no root. -/
structure CanLink (t : DirTree R N) (l : DirLink N) : Prop where
  free : ∀ k, ⟨l.dir, l.name, k⟩ ∉ t.links
  orphan : ∀ l' ∈ t.links, l'.target ≠ l.target
  notRoot : ∀ r, t.root r ≠ some l.target
  used : l.dir < t.next ∧ l.target < t.next

omit [DecidableEq N] in
theorem CanLink.ne {l : DirLink N} (h : CanLink t l) {l' : DirLink N} (hl' : l' ∈ t.links) (hdir : l'.dir = l.dir) :
    l'.name ≠ l.name := by
  intro hname
  obtain ⟨i, n, k⟩ := l'
  exact h.free k (by rw [← hdir, ← hname]; exact hl')

def link (t : DirTree R N) (l : DirLink N) (h : CanLink t l) : DirTree R N where
  root := t.root
  links := l :: t.links
  next := t.next
  root_inj := t.root_inj
  root_used := t.root_used
  root_free r i hr l' hl' := by
    rcases List.mem_cons.1 hl' with rfl | hl'
    · exact fun heq => h.notRoot r (heq ▸ hr)
    · exact t.root_free r i hr l' hl'
  unique l₁ h₁ l₂ h₂ hdir hname := by
    rcases List.mem_cons.1 h₁ with heq | hm₁ <;> rcases List.mem_cons.1 h₂ with heq' | hm₂
    · rw [heq, heq']
    · subst heq
      exact absurd hname.symm (h.ne hm₂ hdir.symm)
    · subst heq'
      exact absurd hname (h.ne hm₁ hdir)
    · exact t.unique l₁ hm₁ l₂ hm₂ hdir hname
  parent l₁ h₁ l₂ h₂ htarget := by
    rcases List.mem_cons.1 h₁ with heq | hm₁ <;> rcases List.mem_cons.1 h₂ with heq' | hm₂
    · rw [heq, heq']
    · subst heq
      -- the target had no parent before
      exact absurd htarget.symm (h.orphan l₂ hm₂)
    · subst heq'
      exact absurd htarget (h.orphan l₁ hm₁)
    · exact t.parent l₁ hm₁ l₂ hm₂ htarget
  used l' hl' := by
    rcases List.mem_cons.1 hl' with rfl | hl'
    · exact h.used
    · exact t.used l' hl'

omit [DecidableEq N] in
theorem mem_link {l : DirLink N} {h : CanLink t l} {l' : DirLink N} :
    l' ∈ (t.link l h).links ↔ l' = l ∨ l' ∈ t.links := List.mem_cons

/-- A new inode. -/
def alloc (t : DirTree R N) : DirTree R N where
  root := t.root
  links := t.links
  next := t.next + 1
  root_inj := t.root_inj
  root_used r i h := Nat.lt_succ_of_lt (t.root_used r i h)
  root_free := t.root_free
  unique := t.unique
  parent := t.parent
  used l hl := ⟨Nat.lt_succ_of_lt (t.used l hl).1, Nat.lt_succ_of_lt (t.used l hl).2⟩

theorem CanLink.new {i : Inode} {n : N} (h : i < t.next ∧ t.child i n = none) : CanLink t.alloc ⟨i, n, t.next⟩ where
  free k hk := absurd (child_eq_some.2 hk) (by rw [show t.alloc.child i n = none from h.2]; simp)
  orphan l hl heq := absurd (t.used l hl).2 (by rw [heq]; exact Nat.lt_irrefl _)
  notRoot r hr := absurd (t.root_used r _ hr) (Nat.lt_irrefl _)
  used := ⟨Nat.lt_succ_of_lt h.1, Nat.lt_succ_self _⟩

/-- A new directory. -/
def mkdir (t : DirTree R N) (i : Inode) (n : N) (h : i < t.next ∧ t.child i n = none) : DirTree R N :=
  t.alloc.link ⟨i, n, t.next⟩ (.new h)

theorem mem_mkdir {i : Inode} {n : N} {h : i < t.next ∧ t.child i n = none} {l : DirLink N} :
    l ∈ (t.mkdir i n h).links ↔ l = ⟨i, n, t.next⟩ ∨ l ∈ t.links := List.mem_cons

theorem child_mkdir {i j : Inode} {n m : N} {h : i < t.next ∧ t.child i n = none} (hne : m ≠ n) :
    (t.mkdir i n h).child j m = t.child j m := by
  apply Option.ext
  intro k
  rw [child_eq_some, child_eq_some, mem_mkdir]
  exact or_iff_right fun heq => hne (by cases heq; rfl)

/-- What is there stays where it is. -/
theorem resolve_mkdir {i k : Inode} {n : N} {h : i < t.next ∧ t.child i n = none} {r : R} {ns : List N}
    (hk : t.resolve r ns = some k) : (t.mkdir i n h).resolve r ns = some k := by
  refine resolve_mono ?_ ?_ hk
  · rfl
  · exact fun l hl => mem_mkdir.2 (.inr hl)

theorem CanLink.moved {i j k : Inode} {n m : N} (h : t.child i n = some k ∧ j < t.next) :
    CanLink ((t.unlink i n).unlink j m) ⟨j, m, k⟩ where
  free k' hk' := (mem_unlink.1 hk').2 ⟨rfl, rfl⟩
  orphan l hl heq := by
    obtain ⟨hmem, hne⟩ := mem_unlink.1 (mem_unlink.1 hl).1
    obtain rfl := t.parent l hmem _ (child_eq_some.1 h.1) heq
    exact hne ⟨rfl, rfl⟩
  notRoot r hr := t.root_free r k hr _ (child_eq_some.1 h.1) rfl
  used := ⟨h.2, (t.used _ (child_eq_some.1 h.1)).2⟩

/-- The directory under another name, in place of what was there. -/
def move (t : DirTree R N) (i : Inode) (n : N) (j : Inode) (m : N) (k : Inode)
    (h : t.child i n = some k ∧ j < t.next) : DirTree R N :=
  ((t.unlink i n).unlink j m).link ⟨j, m, k⟩ (.moved h)

theorem mem_move {i j k : Inode} {n m : N} {h : t.child i n = some k ∧ j < t.next} {l : DirLink N} :
    l ∈ (t.move i n j m k h).links ↔
      l = ⟨j, m, k⟩ ∨ l ∈ t.links ∧ ¬ (l.dir = i ∧ l.name = n) ∧ ¬ (l.dir = j ∧ l.name = m) := by
  rw [move, mem_link, mem_unlink, mem_unlink, and_assoc]

/-- A directory and those above it, up to a depth. -/
def above (t : DirTree R N) : Nat → Inode → List Inode
  | 0, i => [i]
  | depth + 1, i =>
    match t.links.find? (fun l => l.target = i) with
    | none => [i]
    | some l => i :: t.above depth l.dir

end DirTree

end Lib
