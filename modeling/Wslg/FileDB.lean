import Wslg.Lib.KeyedSet
import Wslg.Utils
/-!
# The file database

`WSLDVCFileDB`: a set of entries ordered by file id. It holds the registered
apps, under keys made of group and id, and during a sync session the files that
may have to go, each under its own path.
-/

open Lib Lib.TraceM

namespace Wslg

instance : LinearOrder WCHAR where
  le_refl a := UInt16.le_refl a
  le_trans _ _ _ := UInt16.le_trans
  le_antisymm _ _ := UInt16.le_antisymm
  le_total a b := UInt16.le_total a b
  lt_iff_le_not_ge a b := by
    rw [UInt16.lt_iff_toNat_lt, UInt16.le_iff_toNat_le, UInt16.le_iff_toNat_le]
    omega
  toDecidableLE := inferInstance
  toDecidableLT := inferInstance
  toDecidableEq := inferInstance

variable {W : Type}

structure fileEntry where
  m_fileId : WString
  m_linkFilePath : WString := []
  m_iconFilePath : WString := []
  m_exeFilePath : WString := []
  m_exeFileArgs : WString := []
  deriving DecidableEq

abbrev WSLDVCFileDB := KeyedSet fileEntry.m_fileId

namespace WSLDVCFileDB

/-- The link, and the icon file it names. -/
def OnLnkFileAdded (os : OS W) (db : WSLDVCFileDB) (lnkFile : WString) : SysM W WSLDVCFileDB := do
  let db := db.insert { m_fileId := lnkFile }
  let iconFile ← GetIconFileFromShellLink os lnkFile
  emit (.OnLnkFileAdded lnkFile iconFile)
  match iconFile with
  | some iconFile => return db.insert { m_fileId := iconFile }
  | none => return db

/-- An entry that is already there stays; it must be the same one. -/
def OnFileAdded (db : WSLDVCFileDB) (e : fileEntry) : Option HRESULT × WSLDVCFileDB :=
  match db.find e.m_fileId with
  | none => (none, db.insert e)
  | some old =>
    if old.m_linkFilePath ≠ e.m_linkFilePath ∨ old.m_iconFilePath ≠ e.m_iconFilePath ∨
        old.m_exeFilePath ≠ e.m_exeFilePath ∨ old.m_exeFileArgs ≠ e.m_exeFileArgs then
      (some .E_FAIL, db.insert e)
    else (none, db.insert e)

theorem OnFileAdded_snd (db : WSLDVCFileDB) (e : fileEntry) : (db.OnFileAdded e).2 = db.insert e := by
  unfold OnFileAdded
  split
  · rfl
  · split <;> rfl

theorem OnFileAdded_eq_none (db : WSLDVCFileDB) (e : fileEntry) :
    (db.OnFileAdded e).1 = none ↔ ∀ old, db.find e.m_fileId = some old → old = e := by
  unfold OnFileAdded
  cases hf : db.find e.m_fileId with
  | none => simp
  | some old =>
    obtain ⟨-, hid⟩ := KeyedSet.find_eq_some.1 hf
    simp only
    split
    · rename_i hne
      refine iff_of_false (Option.some_ne_none _) fun h => ?_
      obtain rfl := h old rfl
      simp at hne
    · rename_i hsame
      push Not at hsame
      refine iff_of_true rfl fun a ha => ?_
      obtain rfl := Option.some.inj ha
      obtain ⟨id, link, icon, exe, args⟩ := old
      obtain ⟨rfl, rfl, rfl, rfl⟩ := hsame
      cases hid
      rfl

/-- A conflict leaves the database as it was. -/
theorem insert_of_conflict {db : WSLDVCFileDB} {e : fileEntry} (h : (db.OnFileAdded e).1 ≠ none) : db.insert e = db := by
  rw [ne_eq, OnFileAdded_eq_none] at h
  push Not at h
  obtain ⟨old, hold, -⟩ := h
  exact KeyedSet.insert_of_find hold

theorem find_insert_accepted {db : WSLDVCFileDB} {e : fileEntry} (h : (db.OnFileAdded e).1 = none) :
    (db.insert e).find = Function.update db.find e.m_fileId (some e) := by
  rw [KeyedSet.find_insert_eq]
  cases hf : db.find e.m_fileId with
  | none => rw [if_pos rfl]
  | some old =>
    obtain rfl := (OnFileAdded_eq_none db e).1 h old hf
    rw [if_neg (Option.some_ne_none old), ← hf, Function.update_eq_self]

def OnFileRemoved (db : WSLDVCFileDB) (key : WString) : Option HRESULT × WSLDVCFileDB :=
  match db.find key with
  | some _ => (none, db.erase key)
  | none => (some .E_FAIL, db)

/-- The strings `FindFiles` leaves in the caller's buffers. -/
structure Found where
  linkFilePath : WString := []
  iconFilePath : WString := []
  exeFilePath : WString := []
  exeFileArgs : WString := []

/-- Copy to a buffer of the given size, if there is one. -/
def copyOut (size : Option Nat) (src : WString) : Option WString :=
  match size with
  | none => some []
  | some size => wcscpy_s size src

/-- Look a key up and copy out what is asked for, up to the first string that does not fit. -/
def FindFiles (db : WSLDVCFileDB) (key : WString) (linkFilePathSize iconFilePathSize exeFilePathSize
    exeFileArgsSize : Option Nat) : Option HRESULT × Found :=
  match db.find key with
  | none => (some .E_FAIL, {})
  | some it =>
    match copyOut linkFilePathSize it.m_linkFilePath with
    | none => (some .E_FAIL, {})
    | some link =>
      match copyOut iconFilePathSize it.m_iconFilePath with
      | none => (some .E_FAIL, { linkFilePath := link })
      | some icon =>
        match copyOut exeFilePathSize it.m_exeFilePath with
        | none => (some .E_FAIL, { linkFilePath := link, iconFilePath := icon })
        | some exe =>
          match copyOut exeFileArgsSize it.m_exeFileArgs with
          | none => (some .E_FAIL, { linkFilePath := link, iconFilePath := icon, exeFilePath := exe })
          | some args => (none, ⟨link, icon, exe, args⟩)

def OnClose (_ : WSLDVCFileDB) : WSLDVCFileDB := .empty

/-! ## Cleaning up -/

/-- `path.substr(0, path.find_last_of(L"\\"))` -/
def parentDir (path : WString) : Option WString :=
  match path.reverse.dropWhile (· ≠ 92) with
  | [] => none
  | _ :: dir => some dir.reverse

def deleteFile (os : OS W) (path : WString) : SysM W PUnit := do
  if ← DeleteFileW os path then
    match parentDir path with
    | none => pure ⟨⟩
    | some dir =>
      if ← call (os.PathIsDirectoryEmptyW dir) then
        let _ ← RemoveDirectory os dir

/-- The loop erases each entry after its file. -/
def deleteEntries (os : OS W) : List fileEntry → WSLDVCFileDB → SysM W WSLDVCFileDB
  | [], db => pure db
  | it :: rest, db => do
    deleteFile os it.m_fileId
    deleteEntries os rest (db.erase it.m_fileId)

def deleteAllFileIdFiles (os : OS W) (db : WSLDVCFileDB) : SysM W WSLDVCFileDB := deleteEntries os db.elems db

/-! ## Scanning -/

/-- The suffix from the last dot on. -/
def PathFindExtensionW (name : WString) : WString :=
  if dot ∈ name then dot :: (name.reverse.takeWhile (· ≠ dot)).reverse else []

/-- One turn of the enumeration loop; `scan` is the call for a sub-folder. -/
def addEntry (os : OS W) (scan : WString → WSLDVCFileDB → SysM W WSLDVCFileDB) (path : WString) (data : FindData)
    (db : WSLDVCFileDB) : SysM W WSLDVCFileDB :=
  let sub := path ++ L "\\" ++ data.cFileName
  if data.isDirectory then
    if data.cFileName = L "." ∨ data.cFileName = L ".." then pure db
    else do
      if ← call (os.PathIsDirectoryEmptyW sub) then
        let _ ← RemoveDirectory os sub
        return db
      else scan sub db
  else if PathFindExtensionW data.cFileName = L ".lnk" then OnLnkFileAdded os db sub
  else pure db

def addEntries (os : OS W) (scan : WString → WSLDVCFileDB → SysM W WSLDVCFileDB) (path : WString) :
    List FindData → WSLDVCFileDB → SysM W WSLDVCFileDB
  | [], db => pure db
  | data :: rest, db => do
    let db ← addEntry os scan path data db
    addEntries os scan path rest db

/-- The body of the `do` loop runs once on zeroed data if the folder cannot be
listed. The first argument bounds the depth. -/
def addAllSubFolderFiles (os : OS W) : Nat → WString → WSLDVCFileDB → SysM W WSLDVCFileDB
  | 0, _, db => pure db
  | depth + 1, path, db => do
    match ← call (os.FindFirstFile (path ++ L "\\*")) with
    | [] => addEntries os (addAllSubFolderFiles os depth) path [.zero] db
    | entries => addEntries os (addAllSubFolderFiles os depth) path entries db

/-- Paths grow with the depth, so `pathLimit` bounds it. -/
def addAllFilesAsFileIdAt (os : OS W) (db : WSLDVCFileDB) (path : WString) : SysM W WSLDVCFileDB :=
  addAllSubFolderFiles os (os.pathLimit + 1) path db

end WSLDVCFileDB

end Wslg
