import Wslg.FolderTree
import Wslg.Protocol
/-!
# A disk with folders

A small Windows whose folders and files at and below `root` are two lists of full
paths. Files and empty folders can be deleted, and nothing else happens.
-/

open Lib

namespace Wslg

/-- `p` is an entry of one of the folders. -/
def ProperEntry (root : WString) (dirs : List WString) (p : WString) : Prop :=
  ∃ d ∈ dirs, folderIn root p = some d ∧ p = d ++ L "\\" ++ p.drop (d.length + 1) ∧ EntryName (p.drop (d.length + 1))

instance (root : WString) (dirs : List WString) : DecidablePred (ProperEntry root dirs) :=
  fun _ => inferInstanceAs (Decidable (∃ _ ∈ dirs, _ ∧ _ ∧ _))

structure TreeDisk (root : WString) where
  dirs : List WString
  files : List WString
  once : (dirs ++ files).Nodup
  properDir : ∀ p ∈ dirs, p ≠ root → ProperEntry root dirs p
  properFile : ∀ p ∈ files, ProperEntry root dirs p
  short : ∀ d ∈ dirs, d.length + 2 ≤ MAX_PATH

namespace TreeDisk

variable {root : WString} (w : TreeDisk root)

def tree : FileTree WString := ⟨{d | d ∈ w.dirs}, {f | f ∈ w.files}⟩

def isEmpty (d : WString) : Bool := (w.dirs ++ w.files).all fun p => folderIn root p ≠ some d

theorem isEmpty_iff {d : WString} : w.isEmpty d = true ↔ w.tree.Empty (folderIn root) d := by
  simp only [isEmpty, List.all_eq_true, List.mem_append, decide_eq_true_eq]
  constructor
  · intro h p hp
    exact ⟨fun hd => h p (.inl hd) hp, fun hf => h p (.inr hf) hp⟩
  · rintro h p (hd | hf) hp
    · exact (h p hp).1 hd
    · exact (h p hp).2 hf

/-- The folder `d` without its entry `p`, if it is one. -/
def entry (isDirectory : Bool) (d p : WString) : Option FindData :=
  if h : p = d ++ L "\\" ++ p.drop (d.length + 1) ∧ EntryName (p.drop (d.length + 1)) then
    some ⟨p.drop (d.length + 1), isDirectory, h.2.1, fun _ => h.2.2⟩
  else none

def dots : List FindData :=
  [⟨L ".", true, noSep_iff_all.1 (by decide), fun h => by cases h⟩,
    ⟨L "..", true, noSep_iff_all.1 (by decide), fun h => by cases h⟩]

def list (d : WString) : List FindData := dots ++ w.dirs.filterMap (entry true d) ++ w.files.filterMap (entry false d)

theorem entry_eq_some {b : Bool} {d p : WString} {e : FindData} :
    entry b d p = some e ↔ EntryName e.cFileName ∧ e.isDirectory = b ∧ p = d ++ L "\\" ++ e.cFileName := by
  unfold entry
  constructor
  · intro h
    split at h
    · rename_i hp
      cases h
      exact ⟨hp.2, rfl, hp.1⟩
    · cases h
  · rintro ⟨hn, rfl, rfl⟩
    have hdrop : (d ++ L "\\" ++ e.cFileName).drop (d.length + 1) = e.cFileName := by
      rw [List.append_assoc, List.drop_append]
      simp [L]
    rw [dif_pos (by rw [hdrop]; exact ⟨rfl, hn⟩)]
    congr

/-! ## Listing -/

theorem entry_name (b : Bool) (d p : WString) :
    (entry b d p).map FindData.cFileName = (entry true d p).map FindData.cFileName := by
  unfold entry
  split <;> rfl

theorem names_list (d : WString) : (w.list d).map FindData.cFileName =
    [L ".", L ".."] ++ (w.dirs ++ w.files).filterMap fun p => (entry true d p).map FindData.cFileName := by
  simp only [list, dots, List.map_append, List.map_cons, List.map_nil, List.map_filterMap, entry_name false,
    List.filterMap_append, List.append_assoc]

/-- But for the dots, the entries are what is directly in the folder. -/
theorem mem_list_iff {d : WString} {e : FindData} (hn : EntryName e.cFileName) :
    e ∈ w.list d ↔ d ++ L "\\" ++ e.cFileName ∈ if e.isDirectory then w.dirs else w.files := by
  have hentry : ∀ b, entry b d (d ++ L "\\" ++ e.cFileName) = some e ↔ e.isDirectory = b := fun b =>
    entry_eq_some.trans ⟨fun h => h.2.1, fun h => ⟨hn, h, rfl⟩⟩
  have hdots : e ∉ dots := by
    intro he
    rcases List.mem_pair.1 he with rfl | rfl
    · exact hn.2.1 rfl
    · exact hn.2.2 rfl
  have hkind : ∀ (b : Bool) (ps : List WString), e ∈ ps.filterMap (entry b d) ↔
      e.isDirectory = b ∧ d ++ L "\\" ++ e.cFileName ∈ ps := by
    intro b ps
    rw [List.mem_filterMap]
    constructor
    · rintro ⟨p, hp, he⟩
      obtain ⟨-, hb, rfl⟩ := entry_eq_some.1 he
      exact ⟨hb, hp⟩
    · rintro ⟨hb, hp⟩
      exact ⟨_, hp, (hentry b).2 hb⟩
  rw [list, List.mem_append, List.mem_append, hkind, hkind]
  cases e.isDirectory <;> simp [hdots]

theorem once_list (d : WString) : ((w.list d).map FindData.cFileName).Nodup := by
  rw [names_list, List.nodup_append]
  refine ⟨by decide, w.once.filterMap fun p q n hp hq => ?_, fun n hdot m hm => ?_⟩
  · obtain ⟨e, he, rfl⟩ := Option.map_eq_some_iff.1 hp
    obtain ⟨e', he', hn⟩ := Option.map_eq_some_iff.1 hq
    obtain ⟨-, -, rfl⟩ := entry_eq_some.1 he
    obtain ⟨-, -, rfl⟩ := entry_eq_some.1 he'
    rw [hn]
  · rintro rfl
    obtain ⟨p, -, hp⟩ := List.mem_filterMap.1 hm
    obtain ⟨e, he, rfl⟩ := Option.map_eq_some_iff.1 hp
    obtain ⟨hn, -⟩ := entry_eq_some.1 he
    rcases List.mem_pair.1 hdot with h | h
    · exact hn.2.1 h
    · exact hn.2.2 h

theorem lists_list (d : WString) : Lists w.tree d (w.list d) where
  once := w.once_list d
  dots := by
    rw [names_list]
    exact ⟨by simp, by simp⟩
  dir n hn := by
    constructor
    · rintro ⟨e, he, rfl, hd⟩
      have hmem := (w.mem_list_iff hn).1 he
      rwa [hd] at hmem
    · intro h
      exact ⟨⟨n, true, hn.1, fun h => by cases h⟩, (w.mem_list_iff hn).2 h, rfl, rfl⟩
  file n hn := by
    constructor
    · rintro ⟨e, he, rfl, hd⟩
      have hmem := (w.mem_list_iff hn).1 he
      rwa [hd] at hmem
    · intro h
      exact ⟨⟨n, false, hn.1, fun _ => hn.2⟩, (w.mem_list_iff hn).2 h, rfl, rfl⟩

/-! ## Deleting -/

/-- What stays is in a folder that stays. -/
theorem proper_filter {d p : WString} (h : w.isEmpty d = true) (hp : p ∈ w.dirs ++ w.files)
    (hproper : ProperEntry root w.dirs p) : ProperEntry root (w.dirs.filter (· ≠ d)) p := by
  obtain ⟨d', hd', hin, hentry⟩ := hproper
  have hne : d' ≠ d := by
    rintro rfl
    rw [isEmpty, List.all_eq_true] at h
    simpa [hin] using h p hp
  exact ⟨d', List.mem_filter.2 ⟨hd', by simpa using hne⟩, hin, hentry⟩

def removeDir (d : WString) : TreeDisk root :=
  if h : w.isEmpty d = true then
    { dirs := w.dirs.filter (· ≠ d)
      files := w.files
      once := w.once.sublist (List.filter_sublist.append (List.Sublist.refl w.files))
      properDir := fun p hp hr =>
        have hp := (List.mem_filter.1 hp).1
        w.proper_filter h (List.mem_append_left _ hp) (w.properDir p hp hr)
      properFile := fun p hp => w.proper_filter h (List.mem_append_right _ hp) (w.properFile p hp)
      short := fun p hp => w.short p (List.mem_filter.1 hp).1 }
  else w

def removeFile (f : WString) : TreeDisk root where
  dirs := w.dirs
  files := w.files.filter (· ≠ f)
  once := w.once.sublist ((List.Sublist.refl w.dirs).append List.filter_sublist)
  properDir := w.properDir
  properFile p hp := w.properFile p (List.mem_filter.1 hp).1
  short := w.short

theorem removeDir_of_empty {d : WString} (h : w.tree.Empty (folderIn root) d) :
    (w.removeDir d).tree = { w.tree with dirs := w.tree.dirs \ {d} } := by
  rw [removeDir, dif_pos (w.isEmpty_iff.2 h)]
  apply FileTree.ext
  · apply Set.ext
    intro p
    simp [tree]
  · rfl

theorem removeFile_tree (f : WString) : (w.removeFile f).tree = w.tree.without f := by
  apply FileTree.ext
  · rfl
  · apply Set.ext
    intro p
    simp [removeFile, tree, FileTree.without]

end TreeDisk

/-! ## The system -/

def treeOS (root : WString) (icon : WString → Option WString) : OS (TreeDisk root) where
  SHGetKnownFolderPath w := (none, w)
  GetTempPathW _ w := ((0, []), w)
  CreateDirectoryW _ w := (.failed, w)
  RemoveDirectory d w := (decide (d ∈ w.dirs) && w.isEmpty d, w.removeDir d)
  DeleteFileW f w := (decide (f ∈ w.files), w.removeFile f)
  PathIsDirectoryEmptyW d w := (decide (d ∈ w.dirs) && w.isEmpty d, w)
  FindFirstFile p w := (if p.dropLast.dropLast ∈ w.dirs ∧ p.length ≤ MAX_PATH then w.list p.dropLast.dropLast else [], w)
  pathLimit := MAX_PATH
  FindFirstFile_long _ _ h := if_neg fun h' => absurd h'.2 (Nat.not_le.2 h)
  GetIconLocation p w := (icon p, w)
  SaveShellLink _ w := (false, w)
  CreateFileW _ w := (false, w)
  WriteFile _ _ w := (false, w)
  CLSIDFromString _ w := ((some .E_FAIL, ⟨0⟩), w)
  RegOpenKeyExW w := (some .E_FAIL, w)
  RegGetValueW _ w := ((some .E_FAIL, []), w)
  ExpandEnvironmentStringsW _ w := ((false, []), w)
  GetLocaleInfoA _ w := (none, w)
  ChannelWrite _ w := (some .E_FAIL, w)
  LocalAlloc _ w := (false, w)
  CreateInstance w := (none, w)
  EnumWindows w := ([], w)
  SHGetPropertyStoreForWindow _ w := (false, w)
  InitPropVariant _ w := (true, w)
  SetValue _ _ w := (false, w)

def folderTree (root : WString) (icon : WString → Option WString) : FolderTree (treeOS root icon) root where
  tree := TreeDisk.tree
  icon := icon
  inFolder w p h := by
    have hproper : ProperEntry root w.dirs p := by
      rcases h with h | ⟨h, hne⟩
      · exact w.properFile p h
      · exact w.properDir p h hne
    obtain ⟨d, hd, -, hp, hn⟩ := hproper
    exact ⟨d, hd, _, hn, hp⟩
  lists w d hd := by
    -- the pattern without its last two characters
    have hpattern : (d ++ L "\\*").dropLast.dropLast = d := by
      rw [show d ++ L "\\*" = d ++ [92] ++ [42] by simp [L], List.dropLast_concat, List.dropLast_concat]
    have hlist : ((treeOS root icon).FindFirstFile (d ++ L "\\*") w).1 = w.list d := by
      show (if (d ++ L "\\*").dropLast.dropLast ∈ w.dirs ∧ _ then w.list (d ++ L "\\*").dropLast.dropLast else []) = _
      have hlen : (d ++ L "\\*").length ≤ MAX_PATH := by
        rw [List.length_append]
        exact w.short d hd
      rw [hpattern, if_pos ⟨hd, hlen⟩]
    rw [hlist]
    exact w.lists_list d
  isEmpty w d hd := by
    show (decide (d ∈ w.dirs) && w.isEmpty d) = true ↔ _
    rw [Bool.and_eq_true, decide_eq_true_eq, w.isEmpty_iff]
    exact and_iff_right hd
  iconOf _ _ := rfl
  FindFirstFile _ _ := rfl
  PathIsDirectoryEmptyW _ _ := rfl
  GetIconLocation _ _ := rfl
  RemoveDirectory d w := by
    by_cases h : w.tree.Empty (folderIn root) d
    · exact .inr ⟨h, w.removeDir_of_empty h⟩
    · refine .inl ?_
      show (w.removeDir d).tree = _
      rw [TreeDisk.removeDir, dif_neg (mt w.isEmpty_iff.1 h)]

theorem folderTree_deletes (root : WString) (icon : WString → Option WString) : (folderTree root icon).Deletes where
  tree p w := w.removeFile_tree p
  ok _ _ h := decide_eq_true h
  failed _ _ _ h := decide_eq_false h

theorem folderTree_removesEmpty (root : WString) (icon : WString → Option WString) :
    (folderTree root icon).RemovesEmpty := by
  intro d w h hd
  have hd : d ∈ (w.removeDir d).tree.dirs := hd
  rw [w.removeDir_of_empty h] at hd
  exact hd.2 rfl

end Wslg
