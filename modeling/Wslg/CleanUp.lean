import Wslg.TreeDisk
/-!
# Scanning and cleaning up a tree

The scan finds every link. The clean-up that follows deletes them in the order of
their paths, and a folder goes only if the link deleted last from it or from below
it was directly in it.
-/

open Lib Lib.TraceM

namespace Wslg

variable {W : Type}

/-! ## The scan -/

/-- The scan adds the path of every link below the folder, at any depth, and the
icon files that they name. It removes only folders that were empty, and no file. -/
theorem scan_finds_every_link {os : OS W} {root : WString} (v : FolderTree os root) {s : Sys W}
    (hroot : root ∈ (v.tree s.world).dirs) (db : WSLDVCFileDB) :
    let r := WSLDVCFileDB.addAllFilesAsFileIdAt os db root s
    (∀ p, p ∈ r.1.keys ↔ p ∈ db.keys ∨ ∃ lnk, v.Link s.world lnk ∧ (p = lnk ∨ v.icon lnk = some p)) ∧
      (v.tree r.2.world).files = (v.tree s.world).files ∧ (v.tree r.2.world).dirs ⊆ (v.tree s.world).dirs ∧
      (∀ d ∈ (v.tree s.world).dirs, d ∉ (v.tree r.2.world).dirs → (v.tree s.world).Empty (folderIn root) d) ∧
      ∃ ext, r.2.trace = s.trace ++ ext ∧ (∀ d, .RemoveDirectory d ∈ ext →
        d ∈ (v.tree s.world).dirs ∧ (v.tree s.world).Empty (folderIn root) d) ∧ deletedPaths ext = [] := by
  intro r
  have h := v.scanned_addAllFilesAsFileIdAt hroot db
  have hbelow : ∀ lnk, v.Link s.world lnk → Beneath 92 root lnk := fun lnk hl =>
    (v.at_or_below (.inr hl.1)).resolve_left (v.file_ne_root hl.1)
  refine ⟨fun p => ?_, h.files, h.dirs, fun d hd hn => (h.removed d hd hn).2, ?_⟩
  · rw [h.keys p]
    refine or_congr_right (exists_congr fun lnk => ⟨fun ⟨hl, _, hp⟩ => ⟨hl, hp⟩, fun ⟨hl, hp⟩ => ⟨hl, hbelow lnk hl, hp⟩⟩)
  · obtain ⟨ext, ht, hext⟩ := h.trace
    refine ⟨ext, ht, fun d hd => ?_, ?_⟩
    · rcases hext _ hd with ⟨d', hd', -, he, hev⟩ | ⟨lnk, -, hev⟩
      · cases hev
        exact ⟨hd', he⟩
      · cases hev
    · rw [deletedPaths, List.filterMap_eq_nil_iff]
      intro e he
      rcases hext e he with ⟨d, -, -, -, rfl⟩ | ⟨lnk, -, rfl⟩
      · rfl
      · rfl

/-! ### On a disk -/

/-- Two links in the folder `A`, one of them in a folder below it, and a folder with nothing in it. -/
def twoLinks : TreeDisk (L "P") where
  dirs := [L "P", L "P\\A", L "P\\A\\B", L "P\\E"]
  files := [L "P\\A\\x.lnk", L "P\\A\\B\\y.lnk"]
  once := by decide
  properDir := by decide
  properFile := by decide
  short := by decide

/-- Every link names an icon file of its own. -/
def iconBeside (lnk : WString) : Option WString := some (lnk ++ L ".ico")

/-- The icon file of the link further down is found. -/
theorem scan_finds_every_link_on_disk : L "P\\A\\B\\y.lnk.ico" ∈
    (WSLDVCFileDB.addAllFilesAsFileIdAt (treeOS (L "P") iconBeside) .empty (L "P") ⟨twoLinks, []⟩).1.keys := by
  have hroot : L "P" ∈ ((folderTree (L "P") iconBeside).tree twoLinks).dirs := show L "P" ∈ twoLinks.dirs by decide
  have hlink : (folderTree (L "P") iconBeside).Link twoLinks (L "P\\A\\B\\y.lnk") :=
    ⟨show L "P\\A\\B\\y.lnk" ∈ twoLinks.files by decide, L "P\\A\\B", L "y.lnk", by decide, rfl, by decide⟩
  have hkeys := (scan_finds_every_link (folderTree (L "P") iconBeside) (s := ⟨twoLinks, []⟩) hroot .empty).1
  exact (hkeys _).2 (.inr ⟨_, hlink, .inr rfl⟩)

/-! ## The clean-up -/

namespace FolderTree

variable {os : OS W} {root : WString} {v : FolderTree os root}

theorem removeDirectory_empty (hrem : v.RemovesEmpty) {d : WString} {w : W} (h : (v.tree w).Empty (folderIn root) d) :
    v.tree (os.RemoveDirectory d w).2 = { v.tree w with dirs := (v.tree w).dirs \ {d} } := by
  rcases v.RemoveDirectory d w with hr | ⟨-, hr⟩
  · have hgone := hrem d w h
    rw [hr] at hgone ⊢
    apply FileTree.ext
    · exact (Set.sdiff_singleton_eq_self hgone).symm
    · rfl
  · exact hr

/-- Nothing happens to the tree when a path that is not of the tree goes. -/
theorem removeDirectory_outside {d : WString} {w : W} (h : d ∉ (v.tree w).dirs) :
    v.tree (os.RemoveDirectory d w).2 = v.tree w := by
  rcases v.RemoveDirectory d w with hr | ⟨-, hr⟩
  · exact hr
  · rw [hr]
    apply FileTree.ext
    · exact Set.sdiff_singleton_eq_self h
    · rfl

/-- What happens after a successful deletion. -/
theorem deleteFile_ok (os : OS W) {p d : WString} {s : Sys W} (hok : (os.DeleteFileW p s.world).1 = true)
    (hd : WSLDVCFileDB.parentDir p = some d) : (WSLDVCFileDB.deleteFile os p s).2.world =
      if (os.PathIsDirectoryEmptyW d (os.DeleteFileW p s.world).2).1 = true then
        (os.RemoveDirectory d (os.PathIsDirectoryEmptyW d (os.DeleteFileW p s.world).2).2).2
      else (os.PathIsDirectoryEmptyW d (os.DeleteFileW p s.world).2).2 := by
  have hfst : (DeleteFileW os p s).1 = true := hok
  rw [WSLDVCFileDB.deleteFile, bind_run, hfst, if_pos rfl, hd]
  dsimp only
  rw [bind_run]
  cases h : (os.PathIsDirectoryEmptyW d (os.DeleteFileW p s.world).2).1 with
  | true =>
    rw [if_pos (show (call (os.PathIsDirectoryEmptyW d) (DeleteFileW os p s).2).1 = true from h)]
    rfl
  | false =>
    rw [if_neg (show ¬ (call (os.PathIsDirectoryEmptyW d) (DeleteFileW os p s).2).1 = true from fun h' => by
      rw [show (call (os.PathIsDirectoryEmptyW d) (DeleteFileW os p s).2).1 = _ from h] at h'
      cases h')]
    rfl

theorem deleteFile_other (os : OS W) {p : WString} {s : Sys W}
    (h : (os.DeleteFileW p s.world).1 = false ∨ WSLDVCFileDB.parentDir p = none) :
    (WSLDVCFileDB.deleteFile os p s).2.world = (os.DeleteFileW p s.world).2 := by
  rw [WSLDVCFileDB.deleteFile, bind_run]
  cases hok : (DeleteFileW os p s).1 with
  | false => rfl
  | true =>
    have hok' : (os.DeleteFileW p s.world).1 = true := hok
    rw [if_pos rfl, h.resolve_left (by simp [hok'])]
    rfl

theorem tree_after_look (hdel : v.Deletes) (p d : WString) (w : W) :
    v.tree (os.PathIsDirectoryEmptyW d (os.DeleteFileW p w).2).2 = (v.tree w).without p :=
  (v.PathIsDirectoryEmptyW d _).trans (hdel.tree p w)

/-- A file goes, and its folder if that was the last entry. -/
theorem tree_deleteFile_of_mem (hdel : v.Deletes) (hrem : v.RemovesEmpty) {p : WString} {s : Sys W}
    (hf : p ∈ (v.tree s.world).files) :
    v.tree (WSLDVCFileDB.deleteFile os p s).2.world = (v.tree s.world).delete (folderIn root) p := by
  have htree := hdel.tree p s.world
  obtain ⟨d, hd, hin⟩ := v.folderIn_of_mem (.inl hf)
  have hparent : WSLDVCFileDB.parentDir p = some d := by rwa [folderIn, if_neg (v.file_ne_root hf)] at hin
  have hempty := v.isEmpty (os.DeleteFileW p s.world).2 d (htree ▸ hd)
  rw [htree] at hempty
  rw [deleteFile_ok os (hdel.ok p s.world hf) hparent, FileTree.delete, if_pos hf, hin]
  simp only
  split
  · rename_i h
    have hnow := hempty.1 h
    rw [if_pos hnow, removeDirectory_empty hrem (by rw [tree_after_look hdel]; exact hnow), tree_after_look hdel]
    rfl
  · rename_i h
    rw [if_neg (mt hempty.2 h), tree_after_look hdel]

/-- Otherwise nothing happens: where a deletion works, the path is not of the tree. -/
theorem tree_deleteFile_of_notMem (hdel : v.Deletes) {p : WString} {s : Sys W} (hf : p ∉ (v.tree s.world).files) :
    v.tree (WSLDVCFileDB.deleteFile os p s).2.world = (v.tree s.world).without p := by
  have htree := hdel.tree p s.world
  cases hparent : WSLDVCFileDB.parentDir p with
  | none => rw [deleteFile_other os (.inr hparent), htree]
  | some d =>
    cases hok : (os.DeleteFileW p s.world).1 with
    | false => rw [deleteFile_other os (.inl hok), htree]
    | true =>
      -- in a folder of the tree the deletion would have failed
      have hd : d ∉ ((v.tree s.world).without p).dirs := by
        intro hd
        obtain ⟨n, -, rfl⟩ := parentDir_iff.1 hparent
        have hb : Beneath 92 root (d ++ L "\\" ++ n) := by
          rcases v.at_or_below (.inl hd) with rfl | h
          · exact beneath_entry d n
          · exact h.trans (beneath_entry d n)
        rw [hdel.failed _ _ hb hf] at hok
        cases hok
      rw [deleteFile_ok os hok hparent]
      split
      · rw [removeDirectory_outside (by rw [tree_after_look hdel]; exact hd), tree_after_look hdel]
      · exact tree_after_look hdel p d s.world

/-- Deleting one path is one step of the sweep. -/
theorem tree_deleteFile (hdel : v.Deletes) (hrem : v.RemovesEmpty) (p : WString) (s : Sys W) :
    v.tree (WSLDVCFileDB.deleteFile os p s).2.world = (v.tree s.world).delete (folderIn root) p := by
  by_cases hf : p ∈ (v.tree s.world).files
  · exact tree_deleteFile_of_mem hdel hrem hf
  · have hsame : (v.tree s.world).without p = v.tree s.world := by
      apply FileTree.ext
      · rfl
      · exact Set.sdiff_singleton_eq_self hf
    rw [tree_deleteFile_of_notMem hdel hf, FileTree.delete, if_neg hf, hsame]

/-- By induction on the entries that are left. -/
theorem tree_deleteEntries (hdel : v.Deletes) (hrem : v.RemovesEmpty) (entries : List fileEntry) (db : WSLDVCFileDB)
    (s : Sys W) : v.tree (WSLDVCFileDB.deleteEntries os entries db s).2.world =
      (v.tree s.world).sweep (folderIn root) (entries.map fileEntry.m_fileId) := by
  induction entries generalizing db s with
  | nil => rfl
  | cons e rest ih =>
    rw [WSLDVCFileDB.deleteEntries, bind_run, ih, tree_deleteFile hdel hrem]
    rfl

/-- Directly in the folder is the link that comes last of all links below it. -/
def HoldsLast (v : FolderTree os root) (w : W) (d : WString) : Prop :=
  ∃ f ∈ (v.tree w).files, folderIn root f = some d ∧ ∀ g ∈ (v.tree w).files, Beneath 92 d g → g ≤ f

/-- So it is in `root`, and in every folder that is not empty. -/
def Clears (v : FolderTree os root) (w : W) : Prop :=
  ∀ d ∈ (v.tree w).dirs, d = root ∨ ¬ (v.tree w).Empty (folderIn root) d → v.HoldsLast w d

theorem lastDirect_iff {w : W} {t : FileTree WString} (hfiles : t.files = (v.tree w).files) {d : WString}
    (hd : d = root ∨ Beneath 92 root d) : t.LastDirect (folderIn root) d ↔ v.HoldsLast w d := by
  rw [FileTree.LastDirect, HoldsLast, hfiles]
  refine exists_congr fun f => and_congr_right fun _ => and_congr_right fun _ => forall₂_congr fun g _ => ?_
  exact imp_congr_left ⟨beneath_of_under, under_of_beneath hd⟩

/-- What the scan leaves clears exactly if the tree did. -/
theorem clears_scanned (hrem : v.RemovesEmpty) {s : Sys W} {db : WSLDVCFileDB} {r : WSLDVCFileDB × Sys W}
    (h : v.Scanned (Beneath 92 root) s db r) :
    (v.tree r.2.world).Clears (folderIn root) root ↔ v.Clears s.world := by
  have hroot : ∀ {d}, d ∈ (v.tree s.world).dirs → d = root ∨ Beneath 92 root d := fun hd => v.at_or_below (.inl hd)
  constructor
  · intro hc d hd hne
    -- the scan removes only empty folders
    have hleft : d ∈ (v.tree r.2.world).dirs := by
      by_contra hgone
      obtain ⟨hb, he⟩ := h.removed d hd hgone
      exact hne.elim hb.ne fun hne => hne he
    exact (lastDirect_iff h.files (hroot hd)).1 (hc d hleft ((hroot hd).imp_right (under_of_beneath (.inl rfl))))
  · intro hc d hd hroot'
    have hds := h.dirs d hd
    refine (lastDirect_iff h.files (hroot hds)).2 (hc d hds ?_)
    exact hroot'.imp_right fun hu he => h.removes hrem d hds (beneath_of_under hu) he hd

/-- A tree without files that has a folder has an empty one: one with the longest path. -/
theorem exists_empty {w : W} (hfiles : (v.tree w).files = ∅) {d : WString} (hd : d ∈ (v.tree w).dirs) :
    ∃ d ∈ (v.tree w).dirs, (v.tree w).Empty (folderIn root) d := by
  induction hn : os.pathLimit - d.length using Nat.strong_induction_on generalizing d with
  | _ n ih =>
    by_cases he : (v.tree w).Empty (folderIn root) d
    · exact ⟨d, hd, he⟩
    -- no file is left, so the entry is a folder with a longer path
    · have hsub : ∃ e ∈ (v.tree w).dirs, folderIn root e = some d := by
        by_contra hnone
        refine he fun p hp => ⟨fun hdir => hnone ⟨p, hdir, hp⟩, ?_⟩
        rw [hfiles]
        exact Set.notMem_empty p
      obtain ⟨e, hed, hin⟩ := hsub
      have hlt := (beneath_of_folderIn hin).length_lt
      have hshort := v.path_length_le hed
      exact ih (os.pathLimit - e.length) (by omega) hed rfl

/-- The links go in the order of their paths. What is left of the tree is clean
exactly if nothing is left of it. -/
theorem clean_deleteEntries (hdel : v.Deletes) (hrem : v.RemovesEmpty) {s : Sys W} {db : WSLDVCFileDB}
    (hroot : root ∈ (v.tree s.world).dirs) (hall : ∀ f ∈ (v.tree s.world).files, f ∈ db.keys) :
    v.Clean (WSLDVCFileDB.deleteAllFileIdFiles os db s).2.world ↔ (v.tree s.world).Clears (folderIn root) root := by
  have hsorted : (db.elems.map fileEntry.m_fileId).Pairwise (· < ·) := List.pairwise_map.2 db.sorted
  have htree := tree_deleteEntries hdel hrem db.elems db s
  rw [FileTree.sweep_eq (v.closed s.world) not_under_self hsorted hall] at htree
  rw [← WSLDVCFileDB.deleteAllFileIdFiles] at htree
  have hfiles := congrArg FileTree.files htree
  have hdirs : ∀ d, d ∈ (v.tree (WSLDVCFileDB.deleteAllFileIdFiles os db s).2.world).dirs ↔
      d ∈ (v.tree s.world).dirs ∧ ¬ (v.tree s.world).Clears (folderIn root) d := fun d => by rw [htree]; rfl
  constructor
  · rintro ⟨-, hclean⟩
    -- a root that does not clear stays, and some folder at or below it is empty
    by_contra hc
    obtain ⟨d, hd, he⟩ := exists_empty hfiles ((hdirs root).2 ⟨hroot, hc⟩)
    exact hclean d hd he
  · intro hc
    refine ⟨fun p hl => ?_, fun d hd => ?_⟩
    · rw [Link, hfiles] at hl
      exact hl.1
    · obtain ⟨hds, hnot⟩ := (hdirs d).1 hd
      refine (hnot fun e he hde => hc e he ?_).elim
      refine (v.at_or_below (.inl he)).imp_right (under_of_beneath (.inl rfl))

end FolderTree

/-- What removing a provider does below its folder. -/
def removeAll (os : OS W) (path : WString) : SysM W WSLDVCFileDB := do
  let db ← WSLDVCFileDB.addAllFilesAsFileIdAt os .empty path
  WSLDVCFileDB.deleteAllFileIdFiles os db

/-- A tree of folders and links is cleaned up exactly if its root and every folder
that was not empty have directly in them the last of the links below them. -/
theorem clean_up_iff {os : OS W} {root : WString} (v : FolderTree os root) (hdel : v.Deletes) (hrem : v.RemovesEmpty)
    {s : Sys W} (hroot : root ∈ (v.tree s.world).dirs) (honly : ∀ f ∈ (v.tree s.world).files, v.Link s.world f) :
    v.Clean (removeAll os root s).2.world ↔ v.Clears s.world := by
  have hscan := v.scanned_addAllFilesAsFileIdAt hroot .empty
  have hroot' : root ∈ (v.tree (WSLDVCFileDB.addAllFilesAsFileIdAt os .empty root s).2.world).dirs := by
    by_contra hgone
    exact (hscan.removed root hroot hgone).1.ne rfl
  rw [← FolderTree.clears_scanned hrem hscan, removeAll, bind_run]
  refine FolderTree.clean_deleteEntries hdel hrem hroot' fun f hf => (hscan.keys f).2 (.inr ?_)
  rw [hscan.files] at hf
  exact ⟨f, honly f hf, (v.at_or_below (.inr hf)).resolve_left (v.file_ne_root hf), .inl rfl⟩

/-! ### On a disk -/

def noIcon (_ : WString) : Option WString := none

theorem twoLinks_only_links : ∀ f ∈ ((folderTree (L "P") noIcon).tree twoLinks).files,
    (folderTree (L "P") noIcon).Link twoLinks f := by
  intro f hf
  refine ⟨hf, ?_⟩
  rcases List.mem_pair.1 (show f ∈ [L "P\\A\\x.lnk", L "P\\A\\B\\y.lnk"] from hf) with rfl | rfl
  · exact ⟨L "P\\A", L "x.lnk", by decide, rfl, by decide⟩
  · exact ⟨L "P\\A\\B", L "y.lnk", by decide, rfl, by decide⟩

theorem clean_up_iff_on_disk :
    (folderTree (L "P") noIcon).Clean (removeAll (treeOS (L "P") noIcon) (L "P") ⟨twoLinks, []⟩).2.world ↔
      (folderTree (L "P") noIcon).Clears twoLinks :=
  clean_up_iff (folderTree (L "P") noIcon) (folderTree_deletes _ _) (folderTree_removesEmpty _ _)
    (s := ⟨twoLinks, []⟩) (show L "P" ∈ twoLinks.dirs by decide) twoLinks_only_links

/-- The folders that hold a link at the end of the order go, the folder above them is left empty. -/
theorem folder_of_folders_stays :
    let v := folderTree (L "P") noIcon
    let w := (removeAll (treeOS (L "P") noIcon) (L "P") ⟨twoLinks, []⟩).2.world
    v.Deletes ∧ v.RemovesEmpty ∧ L "P" ∈ (v.tree twoLinks).dirs ∧ (∀ f ∈ (v.tree twoLinks).files, v.Link twoLinks f) ∧
      w.dirs = [L "P"] ∧ w.files = [] ∧ ¬ v.Clean w := by
  intro v w
  have hdirs : w.dirs = [L "P"] := by decide +kernel
  have hempty : w.isEmpty (L "P") = true := by decide +kernel
  refine ⟨folderTree_deletes _ _, folderTree_removesEmpty _ _, show L "P" ∈ twoLinks.dirs by decide,
    twoLinks_only_links, hdirs, by decide +kernel, fun hclean => ?_⟩
  exact hclean.2 (L "P") (show L "P" ∈ w.dirs by rw [hdirs]; exact List.mem_singleton_self _) (w.isEmpty_iff.1 hempty)

end Wslg
