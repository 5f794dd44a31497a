import Wslg.Lib.Sweep
import Wslg.Scan
/-!
# Scanning a tree

What the scan finds in a tree of folders and files, and which folders it takes
away while it goes through it.
-/

open Lib Lib.TraceM

namespace Wslg

variable {W : Type}

/-! ## A tree of folders -/

theorem parentDir_iff {p d : WString} :
    WSLDVCFileDB.parentDir p = some d ↔ ∃ n, (92 : WCHAR) ∉ n ∧ p = d ++ L "\\" ++ n := by
  have hsplit : ∀ d n : WString, (92 : WCHAR) ∉ n → WSLDVCFileDB.parentDir (d ++ L "\\" ++ n) = some d := by
    intro d n hn
    have hdrop : (d ++ L "\\" ++ n).reverse.dropWhile (· ≠ 92) = 92 :: d.reverse := by
      rw [show (d ++ L "\\" ++ n).reverse = n.reverse ++ 92 :: d.reverse by simp [L],
        List.dropWhile_append_of_pos (by simpa using fun c hc (h : c = 92) => hn (h ▸ hc))]
      rfl
    rw [WSLDVCFileDB.parentDir, hdrop]
    simp
  constructor
  · intro h
    rcases split_last 92 p with hp | ⟨d', n, hn, rfl⟩
    · have hdrop : p.reverse.dropWhile (· ≠ 92) = [] := by
        rw [List.dropWhile_eq_nil_iff]
        intro c hc
        simpa using fun h : c = 92 => hp (h ▸ List.mem_reverse.1 hc)
      rw [WSLDVCFileDB.parentDir, hdrop] at h
      cases h
    · have hd := hsplit d' n hn
      rw [show d' ++ L "\\" ++ n = d' ++ 92 :: n by simp [L], h] at hd
      cases hd
      exact ⟨n, hn, by simp [L]⟩
  · rintro ⟨n, hn, rfl⟩
    exact hsplit d n hn

/-- The folder that something below `root` is in. -/
def folderIn (root p : WString) : Option WString := if p = root then none else WSLDVCFileDB.parentDir p

/-- The name of an entry, other than `.` and `..`. -/
def EntryName (n : WString) : Prop := (∀ c ∈ n, isSep c = false) ∧ n ≠ L "." ∧ n ≠ L ".."

theorem noSep_iff_all {n : WString} : n.all (fun c => !isSep c) = true ↔ ∀ c ∈ n, isSep c = false := by
  simp [List.all_eq_true]

instance : DecidablePred EntryName := fun n =>
  decidable_of_iff (n.all (fun c => !isSep c) = true ∧ n ≠ L "." ∧ n ≠ L "..") (and_congr_left' noSep_iff_all)

theorem EntryName.not_mem {n : WString} (h : EntryName n) : (92 : WCHAR) ∉ n := fun hc => by
  simpa [isSep] using h.1 92 hc

theorem entryName_unique {d d' n n' : WString} (hn : EntryName n) (hn' : EntryName n')
    (h : d ++ L "\\" ++ n = d' ++ L "\\" ++ n') : d = d' ∧ n = n' := by
  have hd : WSLDVCFileDB.parentDir (d ++ L "\\" ++ n) = some d := parentDir_iff.2 ⟨n, hn.not_mem, rfl⟩
  have hd' : WSLDVCFileDB.parentDir (d ++ L "\\" ++ n) = some d' := parentDir_iff.2 ⟨n', hn'.not_mem, h⟩
  obtain rfl : d = d' := Option.some.inj (hd.symm.trans hd')
  exact ⟨rfl, List.append_cancel_left h⟩

/-- The listing of the folder `d`. -/
structure Lists (t : FileTree WString) (d : WString) (entries : List FindData) : Prop where
  once : (entries.map FindData.cFileName).Nodup
  dots : L "." ∈ entries.map FindData.cFileName ∧ L ".." ∈ entries.map FindData.cFileName
  dir : ∀ n, EntryName n → ((∃ e ∈ entries, e.cFileName = n ∧ e.isDirectory = true) ↔ d ++ L "\\" ++ n ∈ t.dirs)
  file : ∀ n, EntryName n → ((∃ e ∈ entries, e.cFileName = n ∧ e.isDirectory = false) ↔ d ++ L "\\" ++ n ∈ t.files)

/-- The folders and files at and below `root`, under their full paths, and what the
calls of a scan do with them: reading changes nothing, and removing a folder takes
away that folder if it is empty, or nothing. -/
structure FolderTree (os : OS W) (root : WString) where
  tree : W → FileTree WString
  icon : WString → Option WString
  inFolder : ∀ w p, p ∈ (tree w).files ∨ (p ∈ (tree w).dirs ∧ p ≠ root) →
    ∃ d ∈ (tree w).dirs, ∃ n, EntryName n ∧ p = d ++ L "\\" ++ n
  lists : ∀ w, ∀ d ∈ (tree w).dirs, Lists (tree w) d (os.FindFirstFile (d ++ L "\\*") w).1
  isEmpty : ∀ w, ∀ d ∈ (tree w).dirs, (os.PathIsDirectoryEmptyW d w).1 = true ↔ (tree w).Empty (folderIn root) d
  iconOf : ∀ p w, (os.GetIconLocation p w).1 = icon p
  FindFirstFile : ∀ p w, tree (os.FindFirstFile p w).2 = tree w
  PathIsDirectoryEmptyW : ∀ p w, tree (os.PathIsDirectoryEmptyW p w).2 = tree w
  GetIconLocation : ∀ p w, tree (os.GetIconLocation p w).2 = tree w
  RemoveDirectory : ∀ p w, tree (os.RemoveDirectory p w).2 = tree w ∨ ((tree w).Empty (folderIn root) p ∧
    tree (os.RemoveDirectory p w).2 = { tree w with dirs := (tree w).dirs \ {p} })

namespace FolderTree

variable {os : OS W} {root : WString} (v : FolderTree os root) {w : W} {d p : WString}

/-- Empty folders can be removed. -/
def RemovesEmpty : Prop := ∀ p w, (v.tree w).Empty (folderIn root) p → p ∉ (v.tree (os.RemoveDirectory p w).2).dirs

/-- Files can be deleted, and what is not there below `root` cannot. -/
structure Deletes : Prop where
  tree : ∀ p w, v.tree (os.DeleteFileW p w).2 = (v.tree w).without p
  ok : ∀ p w, p ∈ (v.tree w).files → (os.DeleteFileW p w).1 = true
  failed : ∀ p w, Beneath 92 root p → p ∉ (v.tree w).files → (os.DeleteFileW p w).1 = false

/-- A file with the extension of a link. -/
def Link (w : W) (p : WString) : Prop :=
  p ∈ (v.tree w).files ∧ ∃ d n, EntryName n ∧ p = d ++ L "\\" ++ n ∧ WSLDVCFileDB.PathFindExtensionW n = L ".lnk"

/-- There is no link and no empty folder. -/
def Clean (w : W) : Prop :=
  (∀ p, ¬ v.Link w p) ∧ ∀ d ∈ (v.tree w).dirs, ¬ (v.tree w).Empty (folderIn root) d

theorem beneath_entry (d n : WString) : Beneath 92 d (d ++ L "\\" ++ n) := ⟨n, by simp [L]⟩

/-- By induction on the length. -/
theorem at_or_below (h : p ∈ (v.tree w).dirs ∨ p ∈ (v.tree w).files) : p = root ∨ Beneath 92 root p := by
  induction hlen : p.length using Nat.strong_induction_on generalizing p with
  | _ k ih =>
    by_cases hp : p = root
    · exact .inl hp
    · obtain ⟨d, hd, n, -, rfl⟩ := v.inFolder w p (h.symm.imp_right fun hd => ⟨hd, hp⟩)
      have hlt := (beneath_entry d n).length_lt
      rcases ih d.length (hlen ▸ hlt) (.inl hd) rfl with rfl | hb
      · exact .inr (beneath_entry d n)
      · exact .inr (hb.trans (beneath_entry d n))

theorem file_ne_root (h : p ∈ (v.tree w).files) : p ≠ root := by
  obtain ⟨d, hd, n, -, rfl⟩ := v.inFolder w p (.inl h)
  have hlt := (beneath_entry d n).length_lt
  rintro rfl
  rcases v.at_or_below (.inl hd) with h | h
  · exact (beneath_entry d n).ne h.symm
  · exact lt_irrefl _ (hlt.trans h.length_lt)

/-- A listing has one entry for each name. -/
theorem not_file_of_dir (h : p ∈ (v.tree w).dirs) : p ∉ (v.tree w).files := by
  intro hf
  obtain ⟨d, hd, n, hn, rfl⟩ := v.inFolder w p (.inl hf)
  have hlist := v.lists w d hd
  obtain ⟨e, he, rfl, hdir⟩ := (hlist.dir n hn).2 h
  obtain ⟨e', he', hname, hfile⟩ := (hlist.file _ hn).2 hf
  obtain rfl : e' = e := List.inj_on_of_nodup_map hlist.once he' he hname
  rw [hdir] at hfile
  cases hfile

theorem entry_folderIn {n : WString} (hn : EntryName n) (hd : d = root ∨ Beneath 92 root d) :
    folderIn root (d ++ L "\\" ++ n) = some d := by
  have hb : Beneath 92 root (d ++ L "\\" ++ n) := by
    rcases hd with rfl | hd
    · exact beneath_entry d n
    · exact hd.trans (beneath_entry d n)
  rw [folderIn, if_neg hb.ne, parentDir_iff]
  exact ⟨n, hn.not_mem, rfl⟩

theorem beneath_of_folderIn (h : folderIn root p = some d) : Beneath 92 d p := by
  rw [folderIn] at h
  split at h
  · cases h
  · obtain ⟨n, -, rfl⟩ := parentDir_iff.1 h
    exact beneath_entry d n

theorem folderIn_of_mem (h : p ∈ (v.tree w).files ∨ (p ∈ (v.tree w).dirs ∧ p ≠ root)) :
    ∃ d ∈ (v.tree w).dirs, folderIn root p = some d := by
  obtain ⟨d, hd, n, hn, rfl⟩ := v.inFolder w p h
  exact ⟨d, hd, entry_folderIn hn (v.at_or_below (.inl hd))⟩

theorem closed (w : W) : (v.tree w).Closed (folderIn root) := by
  intro p hp d hd
  have hne : p ≠ root := by
    rintro rfl
    rw [folderIn, if_pos rfl] at hd
    cases hd
  obtain ⟨d', hd', h⟩ := v.folderIn_of_mem (hp.symm.imp_right fun h => ⟨h, hne⟩)
  obtain rfl : d' = d := Option.some.inj (h.symm.trans hd)
  exact hd'

/-- What is below a folder as a string is below it in the tree. -/
theorem under_of_beneath (hd : d = root ∨ Beneath 92 root d) (h : Beneath 92 d p) : FileTree.Under (folderIn root) d p := by
  induction hlen : p.length using Nat.strong_induction_on generalizing p with
  | _ k ih =>
    obtain ⟨e, n, hn, rfl, he⟩ := h.parent
    have hroot : e ++ 92 :: n ≠ root := by
      rcases hd with rfl | hd
      · exact h.ne
      · exact (hd.trans h).ne
    have hparent : folderIn root (e ++ 92 :: n) = some e := by
      rw [folderIn, if_neg hroot, parentDir_iff]
      exact ⟨n, hn, by simp [L]⟩
    rcases he with rfl | he
    · exact FileTree.under_of_parent hparent
    · have hlt : e.length < k := by
        rw [← hlen]
        exact (beneath_child 92 e n).length_lt
      exact (ih e.length hlt he rfl).trans (FileTree.under_of_parent hparent)

theorem beneath_of_under (h : FileTree.Under (folderIn root) d p) : Beneath 92 d p := by
  induction h using Relation.TransGen.head_induction_on with
  | single h => exact beneath_of_folderIn h
  | head h _ ih => exact ih.trans (beneath_of_folderIn h)

theorem not_under_self (d : WString) : ¬ FileTree.Under (folderIn root) d d := fun h => (beneath_of_under h).ne rfl

/-- A folder that is empty has nothing below it. -/
theorem not_beneath_of_empty (hd : d ∈ (v.tree w).dirs) (he : (v.tree w).Empty (folderIn root) d)
    (hp : p ∈ (v.tree w).dirs ∨ p ∈ (v.tree w).files) : ¬ Beneath 92 d p := by
  intro hb
  rcases (v.closed w).under_cases hp (under_of_beneath (v.at_or_below (.inl hd)) hb) with h | ⟨e, hed, h, -⟩
  · exact hp.elim (he p h).1 (he p h).2
  · exact (he e h).1 hed

/-! ## What a scan does -/

/-- What a scan of the part `Q` of the tree notes. -/
def Notes (Q : WString → Prop) (w : W) (e : Event) : Prop :=
  (∃ d ∈ (v.tree w).dirs, Q d ∧ (v.tree w).Empty (folderIn root) d ∧ e = .RemoveDirectory d) ∨
    ∃ lnk, v.Link w lnk ∧ e = .OnLnkFileAdded lnk (v.icon lnk)

/-- The scan of the part `Q` of the tree. -/
structure Scanned (Q : WString → Prop) (s : Sys W) (db : WSLDVCFileDB) (r : WSLDVCFileDB × Sys W) : Prop where
  files : (v.tree r.2.world).files = (v.tree s.world).files
  dirs : ∀ d ∈ (v.tree r.2.world).dirs, d ∈ (v.tree s.world).dirs
  removed : ∀ d ∈ (v.tree s.world).dirs, d ∉ (v.tree r.2.world).dirs → Q d ∧ (v.tree s.world).Empty (folderIn root) d
  removes : v.RemovesEmpty → ∀ d ∈ (v.tree s.world).dirs, Q d → (v.tree s.world).Empty (folderIn root) d →
    d ∉ (v.tree r.2.world).dirs
  keys : ∀ p, p ∈ r.1.keys ↔
    p ∈ db.keys ∨ ∃ lnk, v.Link s.world lnk ∧ Q lnk ∧ (p = lnk ∨ v.icon lnk = some p)
  trace : Appends (v.Notes Q s.world) s r.2

variable {v} {Q Q' : WString → Prop} {s : Sys W} {db : WSLDVCFileDB} {r r' : WSLDVCFileDB × Sys W}

/-- Only the part of the tree counts. -/
theorem Scanned.congr (h : v.Scanned Q s db r)
    (hQ : ∀ p, p ∈ (v.tree s.world).dirs ∨ p ∈ (v.tree s.world).files → (Q p ↔ Q' p)) : v.Scanned Q' s db r where
  files := h.files
  dirs := h.dirs
  removed d hd hr := ⟨(hQ d (.inl hd)).1 (h.removed d hd hr).1, (h.removed d hd hr).2⟩
  removes hv d hd hq := h.removes hv d hd ((hQ d (.inl hd)).2 hq)
  keys p := by
    rw [h.keys p]
    refine or_congr_right (exists_congr fun lnk => and_congr_right fun hl => ?_)
    rw [hQ lnk (.inr hl.1)]
  trace := h.trace.mono fun e he => he.imp_left fun ⟨d, hd, hq, hr⟩ => ⟨d, hd, (hQ d (.inl hd)).1 hq, hr⟩

theorem Scanned.link_iff (h : v.Scanned Q s db r) : v.Link r.2.world p ↔ v.Link s.world p := by
  rw [Link, Link, h.files]

/-- A folder none of whose entries was scanned is as empty as before. -/
theorem Scanned.empty_iff (h : v.Scanned Q s db r) (hd : ∀ p, folderIn root p = some d → ¬ Q p) :
    (v.tree r.2.world).Empty (folderIn root) d ↔ (v.tree s.world).Empty (folderIn root) d := by
  refine forall₂_congr fun p hp => and_congr (not_congr ⟨h.dirs p, fun hdir => ?_⟩) (by rw [h.files])
  by_contra hn
  exact hd p hp (h.removed p hdir hn).1

/-- One part after another; no entry of a folder in the second is in the first. -/
theorem Scanned.seq (h : v.Scanned Q s db r) (h' : v.Scanned Q' r.2 r.1 r')
    (hd : ∀ d, Q' d → ∀ p, folderIn root p = some d → ¬ Q p) :
    v.Scanned (fun p => Q p ∨ Q' p) s db r' where
  files := h'.files.trans h.files
  dirs d hd := h.dirs d (h'.dirs d hd)
  removed d hds hn := by
    -- a folder that went, went in the first part or in the second
    by_cases hdir : d ∈ (v.tree r.2.world).dirs
    · obtain ⟨hq, he⟩ := h'.removed d hdir hn
      exact ⟨.inr hq, (h.empty_iff (hd d hq)).1 he⟩
    · obtain ⟨hq, he⟩ := h.removed d hds hdir
      exact ⟨.inl hq, he⟩
  removes hv d hds hq he := by
    -- one of the second part is as empty as before the first
    by_cases hdir : d ∈ (v.tree r.2.world).dirs
    · rcases hq with hq | hq
      · exact (h.removes hv d hds hq he hdir).elim
      · exact h'.removes hv d hdir hq ((h.empty_iff (hd d hq)).2 he)
    · exact fun hn => hdir (h'.dirs d hn)
  keys p := by
    rw [h'.keys p, h.keys p, or_assoc]
    refine or_congr_right ?_
    simp only [h.link_iff]
    constructor
    · rintro (⟨lnk, hl, hq, hp⟩ | ⟨lnk, hl, hq, hp⟩)
      · exact ⟨lnk, hl, .inl hq, hp⟩
      · exact ⟨lnk, hl, .inr hq, hp⟩
    · rintro ⟨lnk, hl, hq | hq, hp⟩
      · exact .inl ⟨lnk, hl, hq, hp⟩
      · exact .inr ⟨lnk, hl, hq, hp⟩
  trace := by
    refine trans_of (Appends _) (h.trace.mono fun e he => ?_) (h'.trace.mono fun e he => ?_)
    · exact he.imp_left fun ⟨d, hds, hq, hr⟩ => ⟨d, hds, .inl hq, hr⟩
    · rcases he with ⟨d, hds, hq, he, rfl⟩ | ⟨lnk, hl, rfl⟩
      · exact .inl ⟨d, h.dirs d hds, .inr hq, (h.empty_iff (hd d hq)).1 he, rfl⟩
      · exact .inr ⟨lnk, h.link_iff.1 hl, rfl⟩

/-- A call before it that only looks. -/
theorem Scanned.of_tree {s' : Sys W} (h : v.Scanned Q s' db r) (hw : v.tree s'.world = v.tree s.world)
    (ht : s'.trace = s.trace) : v.Scanned Q s db r := by
  have hlink : ∀ p, v.Link s'.world p ↔ v.Link s.world p := fun p => by rw [Link, Link, hw]
  obtain ⟨hfiles, hdirs, hremoved, hremoves, hkeys, hnotes⟩ := h
  simp only [Notes, Appends, hw, ht, hlink] at hfiles hdirs hremoved hremoves hkeys hnotes
  exact ⟨hfiles, hdirs, hremoved, hremoves, hkeys, hnotes⟩

/-- There is no link to find and no empty folder. -/
theorem scanned_nothing (hlink : ∀ p, Q p → ¬ v.Link s.world p)
    (hempty : ∀ p ∈ (v.tree s.world).dirs, Q p → ¬ (v.tree s.world).Empty (folderIn root) p) :
    v.Scanned Q s db (db, s) where
  files := rfl
  dirs _ hd := hd
  removed _ hd hn := (hn hd).elim
  removes _ d hd hq he := (hempty d hd hq he).elim
  keys _ := ⟨.inl, fun h => h.resolve_right fun ⟨lnk, hl, hq, _⟩ => hlink lnk hq hl⟩
  trace := refl_of (Appends _) s

/-! ### The entries of a folder -/

/-- An empty folder is removed, or at least tried. -/
theorem scanned_emptyFolder {sub : WString} (hsub : sub ∈ (v.tree s.world).dirs)
    (he : (v.tree s.world).Empty (folderIn root) sub) :
    v.Scanned (· = sub) s db ((Wslg.RemoveDirectory os sub >>= fun _ => pure db : SysM W WSLDVCFileDB) s) := by
  have hr := v.RemoveDirectory sub s.world
  refine ⟨?_, fun d hd => ?_, fun d hd hn => ?_, fun hv d _ hq he => ?_, fun p => ⟨.inl, fun h => ?_⟩, ?_⟩
  · show (v.tree (os.RemoveDirectory sub s.world).2).files = _
    rcases hr with h | ⟨-, h⟩
    · rw [h]
    · rw [h]
  · have hd : d ∈ (v.tree (os.RemoveDirectory sub s.world).2).dirs := hd
    rcases hr with h | ⟨-, h⟩
    · rwa [h] at hd
    · rw [h] at hd
      exact hd.1
  · have hn : d ∉ (v.tree (os.RemoveDirectory sub s.world).2).dirs := hn
    rcases hr with h | ⟨-, h⟩
    · rw [h] at hn
      exact (hn hd).elim
    · rw [h] at hn
      obtain rfl : d = sub := by
        by_contra hne
        exact hn ⟨hd, hne⟩
      exact ⟨rfl, he⟩
  · obtain rfl : d = sub := hq
    exact hv d s.world he
  -- a folder is no link
  · refine h.resolve_right ?_
    rintro ⟨lnk, ⟨hfile, -⟩, rfl, -⟩
    exact v.not_file_of_dir hsub hfile
  · exact ⟨[.RemoveDirectory sub], rfl, by simpa using .inl ⟨sub, hsub, rfl, he, rfl⟩⟩

/-- A folder that is not empty stays. -/
theorem scanned_self {sub : WString} (hsub : sub ∈ (v.tree s.world).dirs)
    (hempty : ¬ (v.tree s.world).Empty (folderIn root) sub) : v.Scanned (· = sub) s db (db, s) := by
  refine scanned_nothing ?_ ?_
  · rintro _ rfl hl
    exact v.not_file_of_dir hsub hl.1
  · rintro _ _ rfl
    exact hempty

/-- A link is recorded, and the icon file it names. -/
theorem OnLnkFileAdded_run (os : OS W) (db : WSLDVCFileDB) (lnkFile : WString) (s : Sys W) :
    ∃ db', WSLDVCFileDB.OnLnkFileAdded os db lnkFile s = (db', ⟨(os.GetIconLocation lnkFile s.world).2,
      s.trace ++ [.OnLnkFileAdded lnkFile (os.GetIconLocation lnkFile s.world).1]⟩) ∧
      ∀ p, p ∈ db'.keys ↔ p ∈ db.keys ∨ p = lnkFile ∨ (os.GetIconLocation lnkFile s.world).1 = some p := by
  simp only [WSLDVCFileDB.OnLnkFileAdded, GetIconFileFromShellLink, bind_run, call_run, emit_run]
  cases (os.GetIconLocation lnkFile s.world).1 with
  | none => exact ⟨_, rfl, fun p => by simp [KeyedSet.mem_keys_insert]⟩
  | some iconFile => exact ⟨_, rfl, fun p => by simp [KeyedSet.mem_keys_insert, or_assoc, eq_comm]⟩

/-- A file is added if it is a link. -/
theorem scanned_file {n : WString} (hn : EntryName n) (hfile : d ++ L "\\" ++ n ∈ (v.tree s.world).files) :
    v.Scanned (· = d ++ L "\\" ++ n) s db ((if WSLDVCFileDB.PathFindExtensionW n = L ".lnk" then
      WSLDVCFileDB.OnLnkFileAdded os db (d ++ L "\\" ++ n) else pure db : SysM W WSLDVCFileDB) s) := by
  have hnone : ∀ p ∈ (v.tree s.world).dirs, p ≠ d ++ L "\\" ++ n := by
    rintro p hp rfl
    exact v.not_file_of_dir hp hfile
  have hlink : v.Link s.world (d ++ L "\\" ++ n) ↔ WSLDVCFileDB.PathFindExtensionW n = L ".lnk" := by
    refine ⟨?_, fun hext => ⟨hfile, d, n, hn, rfl, hext⟩⟩
    rintro ⟨-, d', n', hn', he, hext⟩
    obtain ⟨-, rfl⟩ := entryName_unique hn hn' he
    exact hext
  split
  · rename_i hext
    obtain ⟨db', hrun, hkeys⟩ := OnLnkFileAdded_run os db (d ++ L "\\" ++ n) s
    have hw := v.GetIconLocation (d ++ L "\\" ++ n) s.world
    rw [v.iconOf] at hrun hkeys
    rw [hrun]
    refine ⟨by rw [hw], fun p hp => hw ▸ hp, fun p hp hnp => (hnp (hw ▸ hp)).elim,
      fun _ p hp hq => (hnone p hp hq).elim, fun p => ?_, ?_⟩
    · rw [hkeys]
      refine or_congr_right ⟨fun h => ⟨_, hlink.2 hext, rfl, h⟩, ?_⟩
      rintro ⟨lnk, -, rfl, h⟩
      exact h
    · refine ⟨[_], rfl, fun e he => .inr ⟨_, hlink.2 hext, List.mem_singleton.1 he⟩⟩
  · rename_i hext
    refine scanned_nothing ?_ fun p hp hq => (hnone p hp hq).elim
    rintro _ rfl hl
    exact hext (hlink.1 hl)

/-- What the entry `e` of the folder `d` stands for. -/
def Covers (d : WString) (e : FindData) (p : WString) : Prop :=
  EntryName e.cFileName ∧ (p = d ++ L "\\" ++ e.cFileName ∨
    e.isDirectory = true ∧ Beneath 92 (d ++ L "\\" ++ e.cFileName) p)

/-- What is listed is there. -/
def Listed (v : FolderTree os root) (w : W) (d : WString) (e : FindData) : Prop :=
  EntryName e.cFileName → d ++ L "\\" ++ e.cFileName ∈ if e.isDirectory then (v.tree w).dirs else (v.tree w).files

/-- A scan of the folders below `d`. -/
def ScansBelow (v : FolderTree os root) (d : WString) (scan : WString → WSLDVCFileDB → SysM W WSLDVCFileDB) : Prop :=
  ∀ sub db s, d.length < sub.length → sub ∈ (v.tree s.world).dirs → v.Scanned (Beneath 92 sub) s db (scan sub db s)

theorem scanned_addEntry {scan : WString → WSLDVCFileDB → SysM W WSLDVCFileDB} {e : FindData}
    (hscan : v.ScansBelow d scan) (he : v.Listed s.world d e) :
    v.Scanned (Covers d e) s db (WSLDVCFileDB.addEntry os scan d e db s) := by
  rw [WSLDVCFileDB.addEntry]
  by_cases hd : e.isDirectory = true
  · rw [if_pos hd]
    by_cases hdots : e.cFileName = L "." ∨ e.cFileName = L ".."
    · rw [if_pos hdots]
      have hnone : ∀ p, ¬ Covers d e p := fun p hp => hdots.elim hp.1.2.1 hp.1.2.2
      exact scanned_nothing (fun p hp => (hnone p hp).elim) fun p _ hp => (hnone p hp).elim
    · have hn : EntryName e.cFileName := ⟨e.noSep, fun h => hdots (.inl h), fun h => hdots (.inr h)⟩
      have hsub := he hn
      rw [if_pos hd] at hsub
      rw [if_neg hdots, bind_run, call_run, ite_run]
      have hread := v.PathIsDirectoryEmptyW (d ++ L "\\" ++ e.cFileName) s.world
      split
      · rename_i hempty
        -- its removal is tried, and nothing is below it
        have hempty := (v.isEmpty s.world _ hsub).1 hempty
        have hstep : v.Scanned _ _ db _ := scanned_emptyFolder (s := ⟨(os.PathIsDirectoryEmptyW
          (d ++ L "\\" ++ e.cFileName) s.world).2, s.trace⟩) (hread ▸ hsub) (hread ▸ hempty)
        refine (hstep.of_tree hread rfl).congr fun p hp => ⟨fun h => ⟨hn, .inl h⟩, fun h => ?_⟩
        exact h.2.resolve_right fun h => v.not_beneath_of_empty hsub hempty hp h.2
      · rename_i hempty
        -- it stays, and is scanned
        have hempty := fun h => hempty ((v.isEmpty s.world _ hsub).2 h)
        have hstep := hscan (d ++ L "\\" ++ e.cFileName) db ⟨(os.PathIsDirectoryEmptyW
          (d ++ L "\\" ++ e.cFileName) s.world).2, s.trace⟩ (beneath_entry _ _).length_lt (hread ▸ hsub)
        refine ((scanned_self hsub hempty).seq (hstep.of_tree hread rfl) ?_).congr fun p _ => ?_
        · rintro sub hb _ hp rfl
          exact (hb.trans (beneath_of_folderIn hp)).ne rfl
        · exact ⟨fun h => ⟨hn, h.imp_right fun h => ⟨hd, h⟩⟩, fun h => h.2.imp_right And.right⟩
  -- a file
  · have hn : EntryName e.cFileName := ⟨e.noSep, e.notDots (by simpa using hd)⟩
    have hfile := he hn
    rw [if_neg hd] at hfile ⊢
    refine (scanned_file hn hfile).congr fun p _ => ⟨fun h => ⟨hn, .inl h⟩, fun h => ?_⟩
    exact h.2.resolve_right fun h => hd h.1

/-- Entries of other names cover other parts of the tree. -/
theorem Covers.name_eq {e : FindData} {n q : WString} (hc : Covers d e q) (hn : EntryName n)
    (h : q = d ++ L "\\" ++ n ∨ Beneath 92 (d ++ L "\\" ++ n) q) : e.cFileName = n := by
  obtain ⟨he, hq⟩ := hc
  rw [List.append_assoc] at hq h
  exact beneath_disjoint he.not_mem hn.not_mem (hq.imp_right And.right) h

/-- By induction on the entries that are left. -/
theorem scanned_addEntries {scan : WString → WSLDVCFileDB → SysM W WSLDVCFileDB} (hscan : v.ScansBelow d scan)
    (entries : List FindData) (honce : (entries.map FindData.cFileName).Nodup)
    (hlisted : ∀ e ∈ entries, v.Listed s.world d e) : v.Scanned (fun p => ∃ e ∈ entries, Covers d e p) s db
      (WSLDVCFileDB.addEntries os scan d entries db s) := by
  induction entries generalizing s db with
  | nil => exact scanned_nothing (by simp) (by simp)
  | cons e rest ih =>
    rw [List.map_cons, List.nodup_cons] at honce
    rw [List.forall_mem_cons] at hlisted
    have hstep : v.Scanned (Covers d e) s db _ := scanned_addEntry hscan hlisted.1
    have hne : ∀ e' ∈ rest, e.cFileName ≠ e'.cFileName := fun e' he' h => honce.1 (h ▸ List.mem_map_of_mem he')
    -- what is listed later is still there: the first entry has another name
    have hrest : ∀ e' ∈ rest, v.Listed (WSLDVCFileDB.addEntry os scan d e db s).2.world d e' := by
      intro e' he' hn
      have h := hlisted.2 e' he' hn
      split at h
      · rename_i hd
        rw [if_pos hd]
        by_contra hgone
        exact hne e' he' ((hstep.removed _ h hgone).1.name_eq hn (.inl rfl))
      · rename_i hd
        rw [if_neg hd, hstep.files]
        exact h
    refine (hstep.seq (ih honce.2 hrest) ?_).congr fun p _ => by simp
    rintro p ⟨e', he', hn, hp⟩ q hq hc
    have hb := beneath_of_folderIn hq
    refine hne e' he' (hc.name_eq hn (.inr ?_))
    rcases hp with rfl | ⟨-, h⟩
    · exact hb
    · exact h.trans hb

/-! ### Whole folders -/

/-- The entries of a listing cover what is below the folder. -/
theorem covers_iff (hd : d ∈ (v.tree w).dirs) {entries : List FindData} (hl : Lists (v.tree w) d entries)
    (hp : p ∈ (v.tree w).dirs ∨ p ∈ (v.tree w).files) : (∃ e ∈ entries, Covers d e p) ↔ Beneath 92 d p := by
  constructor
  · rintro ⟨e, -, -, rfl | ⟨-, h⟩⟩
    · exact beneath_entry d _
    · exact (beneath_entry d _).trans h
  · intro hb
    have hroot := v.at_or_below (.inl hd)
    have hne : p ≠ root := by
      rcases hroot with rfl | h
      · exact hb.ne
      · exact (h.trans hb).ne
    -- what is directly in `d` is one of its entries
    have hdirect : ∀ q, q ∈ (v.tree w).dirs ∨ q ∈ (v.tree w).files → q ≠ root → folderIn root q = some d →
        ∃ n, EntryName n ∧ q = d ++ L "\\" ++ n := by
      intro q hq hqr hqd
      obtain ⟨d', hd', n, hn, rfl⟩ := v.inFolder w q (hq.symm.imp_right fun h => ⟨h, hqr⟩)
      rw [entry_folderIn hn (v.at_or_below (.inl hd'))] at hqd
      cases hqd
      exact ⟨n, hn, rfl⟩
    rcases (v.closed w).under_cases hp (under_of_beneath hroot hb) with h | ⟨q, hq, hqd, hpq⟩
    · obtain ⟨n, hn, rfl⟩ := hdirect p hp hne h
      rcases hp with hp | hp
      · obtain ⟨e, he, rfl, -⟩ := (hl.dir n hn).2 hp
        exact ⟨e, he, hn, .inl rfl⟩
      · obtain ⟨e, he, rfl, -⟩ := (hl.file n hn).2 hp
        exact ⟨e, he, hn, .inl rfl⟩
    -- below `d` through one of its folders
    · have hqb := beneath_of_folderIn hqd
      have hqr : q ≠ root := by
        rcases hroot with rfl | h
        · exact hqb.ne
        · exact (h.trans hqb).ne
      obtain ⟨n, hn, rfl⟩ := hdirect q (.inl hq) hqr hqd
      obtain ⟨e, he, rfl, hdir⟩ := (hl.dir n hn).2 hq
      exact ⟨e, he, hn, hpq.imp_right fun h => ⟨hdir, beneath_of_under h⟩⟩

theorem listed_of_lists {entries : List FindData} (hl : Lists (v.tree w) d entries) {e : FindData} (he : e ∈ entries) :
    v.Listed w d e := by
  intro hn
  cases hdir : e.isDirectory with
  | true => exact (hl.dir _ hn).1 ⟨e, he, rfl, hdir⟩
  | false => exact (hl.file _ hn).1 ⟨e, he, rfl, hdir⟩

variable (v) in
/-- What is there is listed, and long paths are not. -/
theorem path_length_le (hd : d ∈ (v.tree w).dirs) : d.length ≤ os.pathLimit := by
  by_contra h
  have hnil := os.FindFirstFile_long (d ++ L "\\*") w (by rw [List.length_append]; omega)
  have hdots := (v.lists w d hd).dots.1
  simp [hnil] at hdots

/-- By induction on the depth, which the length of the paths bounds. -/
theorem scanned_addAllSubFolderFiles (depth : Nat) (hd : d ∈ (v.tree s.world).dirs)
    (hdepth : os.pathLimit < depth + d.length) :
    v.Scanned (Beneath 92 d) s db (WSLDVCFileDB.addAllSubFolderFiles os depth d db s) := by
  induction depth generalizing d s db with
  | zero =>
    have := v.path_length_le hd
    omega
  | succ depth ih =>
    have hl := v.lists s.world d hd
    have hread := v.FindFirstFile (d ++ L "\\*") s.world
    have hentries : v.Scanned (Beneath 92 d) s db (WSLDVCFileDB.addEntries os
        (WSLDVCFileDB.addAllSubFolderFiles os depth) d (os.FindFirstFile (d ++ L "\\*") s.world).1 db
        ⟨(os.FindFirstFile (d ++ L "\\*") s.world).2, s.trace⟩) := by
      have hbelow : v.ScansBelow d (WSLDVCFileDB.addAllSubFolderFiles os depth) :=
        fun sub db s hlen hsub => ih hsub (by omega)
      have hlisted : ∀ e ∈ (os.FindFirstFile (d ++ L "\\*") s.world).1,
          v.Listed (os.FindFirstFile (d ++ L "\\*") s.world).2 d e := by
        intro e he
        rw [Listed, hread]
        exact listed_of_lists hl he
      have hscan : v.Scanned _ ⟨(os.FindFirstFile (d ++ L "\\*") s.world).2, s.trace⟩ db _ :=
        scanned_addEntries hbelow (os.FindFirstFile (d ++ L "\\*") s.world).1 hl.once hlisted
      exact (hscan.of_tree hread rfl).congr fun p hp => covers_iff hd hl hp
    rw [WSLDVCFileDB.addAllSubFolderFiles, bind_run, call_run]
    cases hcons : (os.FindFirstFile (d ++ L "\\*") s.world).1 with
    | nil =>
      -- a folder lists itself at least
      have hdots := hl.dots.1
      simp [hcons] at hdots
    | cons e rest =>
      rw [hcons] at hentries
      exact hentries

variable (v) in
theorem scanned_addAllFilesAsFileIdAt (hroot : root ∈ (v.tree s.world).dirs) (db : WSLDVCFileDB) :
    v.Scanned (Beneath 92 root) s db (WSLDVCFileDB.addAllFilesAsFileIdAt os db root s) :=
  scanned_addAllSubFolderFiles _ hroot (by omega)

end FolderTree

end Wslg
