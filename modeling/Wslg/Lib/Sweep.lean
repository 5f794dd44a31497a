import Mathlib.Data.Set.Insert
import Mathlib.Order.BooleanAlgebra.Set
import Mathlib.Logic.Relation
import Mathlib.Order.Defs.LinearOrder
import Mathlib.Tactic.Common
/-!
# Sweeping a tree of folders

Files are deleted in a fixed order. Whenever that leaves the folder of the file
empty the folder is removed too, but not the folder above it. So a folder goes
exactly if in it, and in every folder below it, the file deleted last is directly
in the folder.
-/

namespace Lib

variable {α : Type}

/-- The folders and the files that are there. -/
@[ext] structure FileTree (α : Type) where
  dirs : Set α
  files : Set α

namespace FileTree

variable (parent : α → Option α)

/-- `p` is somewhere below `d`. -/
def Under (d p : α) : Prop := Relation.TransGen (fun p d => parent p = some d) p d

def Empty (t : FileTree α) (d : α) : Prop := ∀ p, parent p = some d → p ∉ t.dirs ∧ p ∉ t.files

/-- What is in a folder is in one that is there. -/
def Closed (t : FileTree α) : Prop := ∀ p, p ∈ t.dirs ∨ p ∈ t.files → ∀ d, parent p = some d → d ∈ t.dirs

def without (t : FileTree α) (f : α) : FileTree α := { t with files := t.files \ {f} }

open Classical in
noncomputable def delete (t : FileTree α) (f : α) : FileTree α :=
  if f ∈ t.files then
    match parent f with
    | none => t.without f
    | some d => if (t.without f).Empty parent d then { t.without f with dirs := t.dirs \ {d} } else t.without f
  else t

noncomputable def sweep (t : FileTree α) (fs : List α) : FileTree α := fs.foldl (delete parent) t

/-! ## Below a folder -/

variable {parent} {t : FileTree α}

theorem under_of_parent {d p : α} (h : parent p = some d) : Under parent d p := .single h

theorem Under.trans {d e p : α} (h : Under parent d e) (h' : Under parent e p) : Under parent d p :=
  Relation.TransGen.trans h' h

/-- What is below `d` is in `d`, or below the one folder that is in `d`. -/
theorem Closed.under_cases (hc : t.Closed parent) {d p : α} (hp : p ∈ t.dirs ∨ p ∈ t.files) (h : Under parent d p) :
    parent p = some d ∨ ∃ e ∈ t.dirs, parent e = some d ∧ (p = e ∨ Under parent e p) := by
  induction h using Relation.TransGen.head_induction_on with
  | single h => exact .inl h
  | @head p q hpq hqd ih =>
    have hq : q ∈ t.dirs := hc p hp q hpq
    rcases ih (.inl hq) with h | ⟨e, he, hed, rfl | hqe⟩
    · exact .inr ⟨q, hq, h, .inr (under_of_parent hpq)⟩
    · exact .inr ⟨q, hq, hed, .inr (under_of_parent hpq)⟩
    · exact .inr ⟨e, he, hed, .inr (hqe.trans (under_of_parent hpq))⟩

/-- The file is in the folder, or in no folder below it. -/
theorem Under.of_parent {d e p : α} (h : Under parent e p) (hp : parent p = some d) : d = e ∨ Under parent e d := by
  rcases Relation.TransGen.head'_iff.1 h with ⟨q, hq, hqe⟩
  obtain rfl : d = q := Option.some.inj (hp.symm.trans hq)
  rcases Relation.reflTransGen_iff_eq_or_transGen.1 hqe with h | h
  · exact .inl h.symm
  · exact .inr h

/-! ## What a sweep removes -/

section Clears

variable [LinearOrder α] (parent t)

/-- The greatest of the files below `e` is directly in it. -/
def LastDirect (e : α) : Prop := ∃ f ∈ t.files, parent f = some e ∧ ∀ g ∈ t.files, Under parent e g → g ≤ f

/-- So it is in `d` and in every folder below it. -/
def Clears (d : α) : Prop := ∀ e ∈ t.dirs, e = d ∨ Under parent d e → t.LastDirect parent e

/-- What is left when the files in `gone` have been deleted in order. -/
def after (gone : Set α) : FileTree α where
  dirs := {d ∈ t.dirs | ¬ (t.Clears parent d ∧ ∀ g ∈ t.files, Under parent d g → g ∈ gone)}
  files := t.files \ gone

variable {parent t} {gone : Set α} {f : α}

theorem after_empty : t.after parent ∅ = t := by
  apply FileTree.ext
  · apply Set.ext
    intro d
    refine ⟨fun h => h.1, fun h => ⟨h, ?_⟩⟩
    rintro ⟨hclears, hgone⟩
    obtain ⟨g, hg, hgd, -⟩ := hclears d h (.inl rfl)
    exact hgone g hg (under_of_parent hgd)
  · exact Set.sdiff_empty

theorem after_insert_files : (t.after parent (insert f gone)).files = (t.after parent gone).files \ {f} := by
  apply Set.ext
  intro g
  simp only [after, Set.mem_sdiff, Set.mem_insert_iff, Set.mem_singleton_iff, not_or]
  tauto

/-- A file that is not there changes nothing. -/
theorem after_insert_of_notMem (hf : f ∉ t.files) : t.after parent (insert f gone) = t.after parent gone := by
  have hgone : ∀ g ∈ t.files, g ∈ insert f gone ↔ g ∈ gone := by
    intro g hg
    rw [Set.mem_insert_iff, or_iff_right]
    rintro rfl
    exact hf hg
  apply FileTree.ext
  · apply Set.ext
    intro d
    have hiff : (∀ g ∈ t.files, Under parent d g → g ∈ insert f gone) ↔ ∀ g ∈ t.files, Under parent d g → g ∈ gone :=
      forall₂_congr fun g hg => by rw [hgone g hg]
    simp only [after, Set.mem_ofPred_eq, hiff]
  · rw [after_insert_files]
    exact Set.sdiff_singleton_eq_self fun h => hf h.1

/-- The last file below a folder that clears is directly in it. -/
theorem parent_of_last (hlt : ∀ g ∈ gone, g < f) {d : α} (hd : d ∈ t.dirs) (hclears : t.Clears parent d)
    (hgone : ∀ g ∈ t.files, Under parent d g → g ∈ insert f gone) (hf : f ∈ t.files) (hfd : Under parent d f) :
    parent f = some d := by
  obtain ⟨g, hg, hgd, hmax⟩ := hclears d hd (.inl rfl)
  rcases Set.mem_insert_iff.1 (hgone g hg (under_of_parent hgd)) with rfl | h
  · exact hgd
  · exact absurd (hmax f hf hfd) (not_le_of_gt (hlt g h))

/-- Only the folder of the file can go with it. -/
theorem mem_after_insert_of_ne (hlt : ∀ g ∈ gone, g < f) (hf : f ∈ t.files) {d : α} (hd : parent f ≠ some d) :
    d ∈ (t.after parent (insert f gone)).dirs ↔ d ∈ (t.after parent gone).dirs := by
  refine and_congr_right fun hdt => not_congr (and_congr_right fun hclears => ⟨fun h g hg hgd => ?_, fun h g hg hgd => ?_⟩)
  · rcases Set.mem_insert_iff.1 (h g hg hgd) with rfl | hgone
    · exact absurd (parent_of_last hlt hdt hclears h hf hgd) hd
    · exact hgone
  · exact Set.mem_insert_of_mem f (h g hg hgd)

theorem all_of_empty (hc : t.Closed parent) {d : α} (hempty : ((t.after parent gone).without f).Empty parent d) :
    ∀ g ∈ t.files, Under parent d g → g ∈ insert f gone := by
  intro g hg hgd
  rcases hc.under_cases (.inr hg) hgd with h | ⟨e, he, hed, hge⟩
  · by_contra hn
    rw [Set.mem_insert_iff, not_or] at hn
    exact (hempty g h).2 ⟨⟨hg, hn.2⟩, hn.1⟩
  · -- the folder on the way to `g` has gone
    by_contra hn
    rw [Set.mem_insert_iff, not_or] at hn
    rcases hge with rfl | hge
    · exact (hempty g hed).2 ⟨⟨hg, hn.2⟩, hn.1⟩
    · exact (hempty e hed).1 ⟨he, fun h => hn.2 (h.2 g hg hge)⟩

theorem clears_of_empty (hc : t.Closed parent) (hlt : ∀ g ∈ gone, g < f) {d : α} (hf : f ∈ t.files)
    (hfd : parent f = some d) (hempty : ((t.after parent gone).without f).Empty parent d) : t.Clears parent d := by
  -- a folder that is left over keeps its parent from being empty
  have hdir : ∀ e ∈ t.dirs, parent e = some d → t.Clears parent e := by
    intro e he hed
    by_contra h
    exact (hempty e hed).1 ⟨he, fun hgone => h hgone.1⟩
  rintro e he (rfl | hed)
  -- `d` itself clears when `f` goes, the last of its files
  · refine ⟨f, hf, hfd, fun g hg hge => ?_⟩
    rcases Set.mem_insert_iff.1 (all_of_empty hc hempty g hg hge) with rfl | h
    · exact le_refl _
    · exact le_of_lt (hlt g h)
  · rcases hc.under_cases (.inl he) hed with h | ⟨e', he', hed', rfl | hee'⟩
    · exact hdir e he h e he (.inl rfl)
    · exact hdir e he hed' e he (.inl rfl)
    · exact hdir e' he' hed' e he (.inr hee')

theorem empty_of_clears (hacyclic : ∀ d, ¬ Under parent d d) {d : α} (hfd : parent f = some d)
    (hclears : t.Clears parent d) (hall : ∀ g ∈ t.files, Under parent d g → g ∈ insert f gone) :
    ((t.after parent gone).without f).Empty parent d := by
  intro p hp
  refine ⟨fun hdir => hdir.2 ⟨fun e he hep => ?_, fun g hg hgp => ?_⟩, fun hfile => ?_⟩
  -- every folder in it has cleared
  · refine hclears e he (.inr ?_)
    rcases hep with rfl | hep
    · exact under_of_parent hp
    · exact (under_of_parent hp).trans hep
  · rcases Set.mem_insert_iff.1 (hall g hg ((under_of_parent hp).trans hgp)) with rfl | h
    · -- the file would be below a folder of its own folder
      rcases hgp.of_parent hfd with rfl | h
      · exact absurd (under_of_parent hp) (hacyclic _)
      · exact absurd (h.trans (under_of_parent hp)) (hacyclic _)
    · exact h
  · obtain ⟨⟨hpt, hn⟩, hpf⟩ := hfile
    rcases Set.mem_insert_iff.1 (hall p hpt (under_of_parent hp)) with rfl | h
    · exact hpf rfl
    · exact hn h

/-- The folder of the file goes exactly if nothing else is left in it. -/
theorem mem_after_insert (hc : t.Closed parent) (hacyclic : ∀ d, ¬ Under parent d d) (hlt : ∀ g ∈ gone, g < f) {d : α}
    (hf : f ∈ t.files) (hfd : parent f = some d) {e : α} : e ∈ (t.after parent (insert f gone)).dirs ↔
      e ∈ (t.after parent gone).dirs ∧ ¬ (e = d ∧ ((t.after parent gone).without f).Empty parent d) := by
  by_cases he : e = d
  · subst he
    -- `f` is still below it
    have hd : e ∈ (t.after parent gone).dirs :=
      ⟨hc f (.inr hf) e hfd, fun h => lt_irrefl f (hlt f (h.2 f hf (under_of_parent hfd)))⟩
    have hempty : ((t.after parent gone).without f).Empty parent e ↔
        t.Clears parent e ∧ ∀ g ∈ t.files, Under parent e g → g ∈ insert f gone :=
      ⟨fun h => ⟨clears_of_empty hc hlt hf hfd h, all_of_empty hc h⟩, fun h => empty_of_clears hacyclic hfd h.1 h.2⟩
    rw [hempty]
    exact ⟨fun h => ⟨hd, fun h' => h.2 h'.2⟩, fun h => ⟨hd.1, fun h' => h.2 ⟨rfl, h'⟩⟩⟩
  · rw [mem_after_insert_of_ne hlt hf fun h => he (Option.some.inj (h.symm.trans hfd))]
    exact ⟨fun h => ⟨h, fun h' => he h'.1⟩, fun h => h.1⟩

/-- One deletion. -/
theorem delete_after (hc : t.Closed parent) (hacyclic : ∀ d, ¬ Under parent d d) (hlt : ∀ g ∈ gone, g < f) :
    (t.after parent gone).delete parent f = t.after parent (insert f gone) := by
  by_cases hf : f ∈ t.files
  · have hthere : f ∈ (t.after parent gone).files := ⟨hf, fun h => lt_irrefl f (hlt f h)⟩
    rw [delete, if_pos hthere]
    cases hfd : parent f with
    | none =>
      apply FileTree.ext
      · apply Set.ext
        intro d
        exact (mem_after_insert_of_ne hlt hf (by simp [hfd])).symm
      · exact after_insert_files.symm
    | some d =>
      simp only
      split
      -- the folder is empty now, and is removed
      · rename_i h
        apply FileTree.ext
        · apply Set.ext
          intro e
          rw [mem_after_insert hc hacyclic hlt hf hfd]
          exact ⟨fun h' => ⟨h'.1, fun he => h'.2 he.1⟩, fun h' => ⟨h'.1, fun he => h'.2 ⟨he, h⟩⟩⟩
        · exact after_insert_files.symm
      -- something is left in it
      · rename_i h
        apply FileTree.ext
        · apply Set.ext
          intro e
          rw [mem_after_insert hc hacyclic hlt hf hfd]
          exact ⟨fun h' => ⟨h', fun he => h he.2⟩, fun h' => h'.1⟩
        · exact after_insert_files.symm
  · rw [delete, if_neg fun h => hf h.1, after_insert_of_notMem hf]

/-- By induction on the files that are left to delete. -/
theorem sweep_after (hc : t.Closed parent) (hacyclic : ∀ d, ¬ Under parent d d) (fs : List α)
    (hs : fs.Pairwise (· < ·)) (hlt : ∀ g ∈ gone, ∀ f ∈ fs, g < f) :
    (t.after parent gone).sweep parent fs = t.after parent (gone ∪ {f | f ∈ fs}) := by
  induction fs generalizing gone with
  | nil => simp [sweep]
  | cons f fs ih =>
    rw [List.pairwise_cons] at hs
    have hgone : ∀ g ∈ insert f gone, ∀ f' ∈ fs, g < f' := by
      intro g hg f' hf'
      rcases Set.mem_insert_iff.1 hg with rfl | hg
      · exact hs.1 f' hf'
      · exact hlt g hg f' (List.mem_cons_of_mem f hf')
    have hstep := delete_after hc hacyclic fun g hg => hlt g hg f List.mem_cons_self
    have hunion : gone ∪ {f' | f' ∈ f :: fs} = insert f gone ∪ {f' | f' ∈ fs} := by
      apply Set.ext
      intro g
      simp only [Set.mem_union, Set.mem_ofPred_eq, List.mem_cons, Set.mem_insert_iff]
      tauto
    rw [hunion, ← ih hs.2 hgone, ← hstep]
    rfl

/-- Deleting all files in order removes the folders that clear, and no others. -/
theorem sweep_eq (hc : t.Closed parent) (hacyclic : ∀ d, ¬ Under parent d d) {fs : List α} (hs : fs.Pairwise (· < ·))
    (hall : ∀ f ∈ t.files, f ∈ fs) : t.sweep parent fs = ⟨{d ∈ t.dirs | ¬ t.Clears parent d}, ∅⟩ := by
  have hsweep := sweep_after hc hacyclic fs hs (by simp : ∀ g ∈ (∅ : Set α), ∀ f ∈ fs, g < f)
  rw [after_empty, Set.empty_union] at hsweep
  rw [hsweep]
  apply FileTree.ext
  · apply Set.ext
    intro d
    refine and_congr_right fun _ => not_congr ⟨fun h => h.1, fun h => ⟨h, fun g hg _ => hall g hg⟩⟩
  · exact Set.eq_empty_of_forall_notMem fun f hf => hf.2 (hall f hf.1)

end Clears

end FileTree

end Lib
