import Wslg.Lib.Watches
/-!
# Mirrors of a directory tree

A mirror holds an entry for every directory it knows of, with the descriptor of its
watch, and follows the tree by what the watches report: an arrival makes it add the
directory and what is in it, a departure makes it drop one entry. The tree may
change between any two of its steps.

`Good` is kept by all of them, provided that no entry is dropped above another,
that no directory is watched under two paths and that no directory is replaced. A
good mirror at rest holds what is there.
-/

namespace Lib

variable {R N : Type}

abbrev Place (R N : Type) := R × List N

namespace Place

def sub (p : Place R N) (n : N) : Place R N := (p.1, p.2 ++ [n])

theorem sub_inj {p q : Place R N} {n m : N} (h : p.sub n = q.sub m) : p = q ∧ n = m := by
  obtain ⟨hr, hl⟩ := Prod.mk.inj h
  obtain ⟨hns, hn⟩ := List.append_inj' hl rfl
  exact ⟨Prod.ext hr hns, List.singleton_inj.1 hn⟩

theorem sub_ne_root {p : Place R N} {n : N} {r : R} : p.sub n ≠ (r, []) := by
  intro h
  have hl := congrArg Prod.snd h
  simp [sub] at hl

theorem sub_ne_self {p : Place R N} {n : N} : p.sub n ≠ p := by
  intro h
  have hl := congrArg (fun q => q.2.length) h
  simp [sub] at hl

/-- At the place or below it. -/
def Under (p a : Place R N) : Prop := ∃ ns, p = (a.1, a.2 ++ ns)

instance [DecidableEq R] [DecidableEq N] (p a : Place R N) : Decidable (Under p a) := by
  refine decidable_of_iff (p.1 = a.1 ∧ a.2 <+: p.2) ?_
  constructor
  · rintro ⟨hr, ns, hns⟩
    exact ⟨ns, Prod.ext hr hns.symm⟩
  · rintro ⟨ns, rfl⟩
    exact ⟨rfl, List.prefix_append ..⟩

theorem under_refl (p : Place R N) : Under p p := ⟨[], by rw [List.append_nil]⟩

theorem Under.sub {p a : Place R N} (h : Under p a) (n : N) : Under (p.sub n) a := by
  obtain ⟨ns, rfl⟩ := h
  exact ⟨ns ++ [n], by rw [Place.sub, List.append_assoc]⟩

theorem under_sub {p a : Place R N} {n : N} (h : Under p (a.sub n)) : Under p a := by
  obtain ⟨ns, rfl⟩ := h
  exact ⟨n :: ns, by simp [Place.sub]⟩

theorem under_root {r : R} {q : Place R N} (h : Under (r, []) q) : q = (r, []) := by
  obtain ⟨ns, heq⟩ := h
  obtain ⟨hr, hns⟩ := Prod.mk.inj heq
  exact Prod.ext hr.symm (List.append_eq_nil_iff.1 hns.symm).1

/-- What is above a place is the place itself or above its parent. -/
theorem Under.of_sub {p q : Place R N} {n : N} (h : Under (p.sub n) q) : q = p.sub n ∨ Under p q := by
  obtain ⟨ns, heq⟩ := h
  obtain ⟨hr, hns⟩ := Prod.mk.inj heq
  rcases List.eq_nil_or_concat ns with rfl | ⟨ns, m, rfl⟩
  · rw [List.append_nil] at hns
    exact .inl (Prod.ext hr.symm hns.symm)
  · rw [List.concat_eq_append, ← List.append_assoc] at hns
    exact .inr ⟨ns, Prod.ext hr (List.append_inj' hns rfl).1⟩

theorem not_under_sub {p : Place R N} {n : N} : ¬ Under p (p.sub n) := by
  rintro ⟨ns, heq⟩
  have hlength := congrArg (fun q => q.2.length) heq
  simp only [sub, List.length_append, List.length_singleton] at hlength
  omega

end Place

/-- A report: something arrived under the name, or it went. -/
structure Note (N : Type) where
  wd : Wd
  name : N
  arrives : Bool

/-- What the mirror is about to do. -/
inductive MirrorWork (R N : Type) where
  | idle
  | adding (p : Place R N)
  | opening (p : Place R N)

structure Mirror (R N : Type) where
  tree : DirTree R N
  watches : Watches
  notes : List (Note N)
  entry : Place R N → Option Wd
  work : MirrorWork R N
  /-- Roots yet to be added. -/
  starts : List (Place R N)
  /-- Directories that are read, with the names still to come. -/
  reading : List (Place R N × Inode × List N)

namespace Mirror

/-! ## What is good -/

section Good

variable (m : Mirror R N)

/-- The directory behind descriptor `w'` has one of that name, behind `w`. -/
def Linked (w' : Wd) (n : N) (w : Wd) : Prop :=
  ∃ i k, (i, w') ∈ m.watches.marks ∧ ⟨i, n, k⟩ ∈ m.tree.links ∧ (k, w) ∈ m.watches.marks

/-- A departure is reported, of this place or of one above it. -/
def Doomed (p : Place R N) : Prop :=
  ∃ (a : Place R N) (n : N) (w : Wd), p.Under (a.sub n) ∧ m.entry a = some w ∧ ⟨w, n, false⟩ ∈ m.notes

/-- The last report says that it arrived. -/
def Arrived (w : Wd) (n : N) : Prop := ∃ l₁ l₂, m.notes = l₁ ++ ⟨w, n, true⟩ :: l₂ ∧ ⟨w, n, false⟩ ∉ l₂

def Adding (p : Place R N) : Prop := m.work = .adding p ∨ p ∈ m.starts

/-- The directory of that name has an entry or will get one. -/
def Held (q : Place R N) (i : Inode) (n : N) : Prop :=
  m.entry (q.sub n) ≠ none ∨ m.Adding (q.sub n) ∨ m.work = .opening q ∨ ∃ unread, (q, i, unread) ∈ m.reading ∧ n ∈ unread

structure Good (wanted : Place R N → Prop) : Prop where
  wd_inj : ∀ p q w, m.entry p = some w → m.entry q = some w → p = q
  wd_used : ∀ p w, m.entry p = some w → w < m.watches.next
  note_used : ∀ x ∈ m.notes, x.wd < m.watches.next
  up : ∀ p n, m.entry (p.sub n) ≠ none → m.entry p ≠ none
  want : ∀ p, m.entry p ≠ none → wanted p
  root_at : ∀ r w, m.entry (r, []) = some w → ∃ i, m.tree.root r = some i ∧ (i, w) ∈ m.watches.marks
  root_in : ∀ r, wanted (r, []) → m.tree.root r ≠ none → m.entry (r, []) ≠ none ∨ m.Adding (r, [])
  adding_want : ∀ p, m.Adding p → wanted p
  adding_up : ∀ p n, m.Adding (p.sub n) → m.entry p ≠ none
  opening_in : ∀ p, m.work = .opening p → m.entry p ≠ none
  reading_in : ∀ p d unread, (p, d, unread) ∈ m.reading → m.entry p ≠ none ∧ ∀ n, wanted (p.sub n)
  linked : ∀ p n w w', m.entry p = some w' → m.entry (p.sub n) = some w → m.Linked w' n w ∨ m.Doomed (p.sub n)
  listed : ∀ q w i n k, m.entry q = some w → (i, w) ∈ m.watches.marks → ⟨i, n, k⟩ ∈ m.tree.links → wanted (q.sub n) →
    m.Arrived w n ∨ (⟨w, n, false⟩ ∉ m.notes ∧ m.Held q i n) ∨ m.Doomed q

end Good

section Facts

variable {m : Mirror R N} {wanted : Place R N → Prop}

theorem Doomed.sub {p : Place R N} (h : m.Doomed p) (n : N) : m.Doomed (p.sub n) := by
  obtain ⟨a, n', w, hu, ha, hn⟩ := h
  exact ⟨a, n', w, hu.sub n, ha, hn⟩

variable [DecidableEq N]

/-- An entry is of the directory at its place, or will go. -/
theorem Good.alive (h : m.Good wanted) {p : Place R N} {w : Wd} (hp : m.entry p = some w) :
    (∃ i, m.tree.resolve p.1 p.2 = some i ∧ (i, w) ∈ m.watches.marks) ∨ m.Doomed p := by
  obtain ⟨r, ns⟩ := p
  -- along the path from the root: each part is linked to the one above, or will go
  induction ns using List.reverseRecOn generalizing w with
  | nil =>
    obtain ⟨i, hi, hw⟩ := h.root_at r w hp
    exact .inl ⟨i, (DirTree.resolve_nil ..).trans hi, hw⟩
  | append_singleton ns n ih =>
    have hup : m.entry (r, ns) ≠ none := h.up (r, ns) n (by rw [Place.sub, hp]; exact Option.some_ne_none w)
    obtain ⟨w', hw'⟩ := Option.ne_none_iff_exists'.1 hup
    rcases ih hw' with ⟨i, hi, hiw⟩ | hdoomed
    · rcases h.linked (r, ns) n w w' hw' hp with ⟨i', k, hi', hlink, hk⟩ | hdoomed
      · obtain rfl := m.watches.wd_unique _ _ _ hiw hi'
        exact .inl ⟨k, DirTree.resolve_concat_eq_some.2 ⟨i, hi, hlink⟩, hk⟩
      · exact .inr hdoomed
    · exact .inr (hdoomed.sub n)

/-- At rest the entries are those of the directories that are wanted. -/
theorem Good.at_rest (h : m.Good wanted) (hup : ∀ p n, wanted (Place.sub p n) → wanted p) (hnotes : m.notes = [])
    (hwork : m.work = .idle) (hstarts : m.starts = []) (hreading : m.reading = []) (p : Place R N) :
    m.entry p ≠ none ↔ wanted p ∧ m.tree.resolve p.1 p.2 ≠ none := by
  -- with no report left nothing will go, and with nothing to do an entry is there or never will be
  have hdoomed : ∀ q, ¬ m.Doomed q := by
    rintro q ⟨a, n, w, -, -, hmem⟩
    rw [hnotes] at hmem
    cases hmem
  have hadding : ∀ q, ¬ m.Adding q := by
    rintro q (hq | hq)
    · rw [hwork] at hq
      cases hq
    · rw [hstarts] at hq
      cases hq
  constructor
  · intro hp
    obtain ⟨w, hw⟩ := Option.ne_none_iff_exists'.1 hp
    rcases h.alive hw with ⟨i, hi, -⟩ | hd
    · exact ⟨h.want p hp, by rw [hi]; exact Option.some_ne_none i⟩
    · exact (hdoomed p hd).elim
  · rintro ⟨hwanted, hres⟩
    obtain ⟨r, ns⟩ := p
    -- the parent has an entry first
    induction ns using List.reverseRecOn with
    | nil =>
      rcases h.root_in r hwanted (by rwa [DirTree.resolve_nil] at hres) with hin | hin
      · exact hin
      · exact (hadding _ hin).elim
    | append_singleton ns n ih =>
      obtain ⟨k, hk⟩ := Option.ne_none_iff_exists'.1 hres
      obtain ⟨i, hi, hlink⟩ := DirTree.resolve_concat_eq_some.1 hk
      have hq := ih (hup (r, ns) n hwanted) (by rw [hi]; exact Option.some_ne_none i)
      obtain ⟨w, hw⟩ := Option.ne_none_iff_exists'.1 hq
      rcases h.alive hw with ⟨i', hi', hiw⟩ | hd
      · obtain rfl : i = i' := Option.some.inj (hi.symm.trans hi')
        rcases h.listed (r, ns) w i n k hw hiw hlink hwanted with ⟨l₁, l₂, hl, -⟩ | ⟨-, hheld⟩ | hd
        · rw [hnotes] at hl
          exact absurd hl (by simp)
        · rcases hheld with hin | hin | hin | ⟨unread, hin, -⟩
          · exact hin
          · exact (hadding _ hin).elim
          · rw [hwork] at hin
            cases hin
          · rw [hreading] at hin
            cases hin
        · exact (hdoomed _ hd).elim
      · exact (hdoomed _ hd).elim

end Facts

end Mirror

end Lib
