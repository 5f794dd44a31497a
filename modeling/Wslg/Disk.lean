import Wslg.Files
import Wslg.Wire
/-!
# A disk

A small Windows to run the plugin on. Names are compared as Windows does: case
does not count, both separators are the same and `.` and `..` are worked off. Every
call succeeds unless the file is missing or the GUID is none; folders are taken to
be there and to list the files directly in them.
-/

open Lib

namespace Wslg

/-! ## Names -/

def upcase (c : WCHAR) : WCHAR := if 97 ≤ c ∧ c ≤ 122 then c - 32 else c

/-- The file a path names. -/
def fileOf (path : WString) : List WString := (resolve isSep dot path).map (·.map upcase)

/-! ## Files -/

/-- A link or an icon file; a link names an icon file. -/
structure DiskFile where
  path : WString
  icon : WString := []
  deriving DecidableEq

abbrev Disk := List DiskFile

namespace Disk

/-- An existing file keeps its spelling. -/
def put (path icon : WString) (disk : Disk) : Disk :=
  if disk.any (fun f => fileOf f.path = fileOf path) then
    disk.map fun f => if fileOf f.path = fileOf path then ⟨f.path, icon⟩ else f
  else disk ++ [⟨path, icon⟩]

def remove (path : WString) (disk : Disk) : Disk := disk.filter fun f => fileOf f.path ≠ fileOf path

def lookup (path : WString) (disk : Disk) : Option DiskFile := disk.find? fun f => fileOf f.path = fileOf path

/-- The file as an entry of the folder, if it is directly in it. -/
def entry (folder : WString) (f : DiskFile) : Option FindData :=
  let name := (pathComponents f.path).getLastD []
  if h : name.all (fun c => !isSep c) ∧ name ≠ L "." ∧ name ≠ L ".." then
    if fileOf f.path = fileOf folder ++ fileOf name then some ⟨name, false, by simpa using h.1, fun _ => h.2⟩ else none
  else none

/-- What matches `folder\*`. -/
def list (pattern : WString) (disk : Disk) : List FindData :=
  if pattern.length ≤ MAX_PATH then disk.filterMap (entry pattern.dropLast) else []

def files (disk : Disk) : Set (List WString) := {n | ∃ f ∈ disk, fileOf f.path = n}

theorem mem_files_put {path icon : WString} {disk : Disk} {n : List WString} :
    n ∈ files (put path icon disk) ↔ n = fileOf path ∨ n ∈ files disk := by
  unfold put
  split
  · rename_i h
    obtain ⟨g, hg, he⟩ := by simpa using h
    have hname : ∀ f : DiskFile, fileOf (if fileOf f.path = fileOf path then (⟨f.path, icon⟩ : DiskFile) else f).path =
        fileOf f.path := fun f => by split <;> rfl
    constructor
    · rintro ⟨f, hf, rfl⟩
      obtain ⟨f', hf', rfl⟩ := List.mem_map.1 hf
      exact .inr ⟨f', hf', (hname f').symm⟩
    · rintro (rfl | ⟨f, hf, rfl⟩)
      · exact ⟨_, List.mem_map_of_mem hg, (hname g).trans he⟩
      · exact ⟨_, List.mem_map_of_mem hf, hname f⟩
  · simp [files, or_comm, eq_comm]

theorem mem_files_remove {path : WString} {disk : Disk} {n : List WString} :
    n ∈ files (remove path disk) ↔ n ∈ files disk ∧ n ≠ fileOf path := by
  simp only [files, remove, Set.mem_ofPred_eq, List.mem_filter, decide_eq_true_eq]
  constructor
  · rintro ⟨f, ⟨hf, hne⟩, rfl⟩
    exact ⟨⟨f, hf, rfl⟩, hne⟩
  · rintro ⟨⟨f, hf, rfl⟩, hne⟩
    exact ⟨f, ⟨hf, hne⟩, rfl⟩

end Disk

/-! ## GUIDs -/

def hexDigit (c : WCHAR) : Option UInt32 :=
  if 48 ≤ c ∧ c ≤ 57 then some (c.toUInt32 - 48)
  else if 65 ≤ c ∧ c ≤ 70 then some (c.toUInt32 - 55)
  else if 97 ≤ c ∧ c ≤ 102 then some (c.toUInt32 - 87)
  else none

/-- How a GUID is written, with `0` for each hexadecimal digit. -/
def guidForm : WString := L "\x7b00000000-0000-0000-0000-000000000000\x7d"

def isGuid (s : WString) : Bool :=
  s.length == guidForm.length && (s.zip guidForm).all fun (c, d) => if d = 48 then (hexDigit c).isSome else c == d

/-- The first eight digits are `Data1`. -/
def guidOf (s : WString) : GUID := ⟨((s.drop 1).take 8).foldl (fun n c => 16 * n + (hexDigit c).getD 0) 0⟩

def CO_E_CLASSSTRING : HRESULT := .os 0x800401F3

/-- What `CLSIDFromString` makes of a string that starts with a brace. -/
def clsidOf (s : WString) : Option HRESULT × GUID := if isGuid s then (none, guidOf s) else (some CO_E_CLASSSTRING, ⟨0⟩)

/-! ## The system -/

def diskOS : OS Disk where
  SHGetKnownFolderPath w := (some (L "C:\\S"), w)
  GetTempPathW _ w := ((5, L "C:\\T\\"), w)
  CreateDirectoryW _ w := (.created, w)
  RemoveDirectory _ w := (false, w)
  DeleteFileW p w := ((w.lookup p).isSome, w.remove p)
  PathIsDirectoryEmptyW _ w := (false, w)
  FindFirstFile p w := (Disk.list p w, w)
  pathLimit := MAX_PATH
  FindFirstFile_long p w h := by simp [Disk.list, Nat.not_le.2 h]
  GetIconLocation p w := ((w.lookup p).map (·.icon), w)
  SaveShellLink l w := (true, w.put l.pathLink (l.pathIcon.getD []))
  CreateFileW p w := (true, w.put p [])
  WriteFile _ _ w := (true, w)
  CLSIDFromString s w := (clsidOf s, w)
  RegOpenKeyExW w := (none, w)
  RegGetValueW _ w := ((none, L "C:\\W"), w)
  ExpandEnvironmentStringsW _ w := ((true, L "C:\\W"), w)
  GetLocaleInfoA _ w := (none, w)
  ChannelWrite _ w := (none, w)
  LocalAlloc _ w := (true, w)
  CreateInstance w := (none, w)
  EnumWindows w := ([], w)
  SHGetPropertyStoreForWindow _ w := (false, w)
  InitPropVariant _ w := (true, w)
  SetValue _ _ w := (true, w)

def diskFileSystem : FileSystem diskOS (List WString) where
  fileOf := fileOf
  files := Disk.files
  silent := by constructor <;> intros <;> exact fun _ => subset_rfl
  CreateDirectoryW _ _ := subset_rfl
  RemoveDirectory _ _ := subset_rfl
  DeleteFileW _ _ _ h := Disk.mem_files_remove.2 h
  SaveShellLink _ _ _ h := Disk.mem_files_put.2 (.inr h)
  SaveShellLink_ok _ _ _ := Disk.mem_files_put.2 (.inl rfl)
  CreateFileW _ _ _ h := Disk.mem_files_put.2 (.inr h)
  CreateFileW_ok _ _ _ := Disk.mem_files_put.2 (.inl rfl)
  WriteFile _ _ _ := subset_rfl
  ChannelWrite _ _ := subset_rfl
  LocalAlloc _ _ := subset_rfl
  SetValue _ _ _ := subset_rfl

/-! ## Messages -/

def utf16 (s : WString) : List BYTE := s.flatMap le16

/-- A unique id as providers have them. -/
def uniqueId : WString := L "1d3b7a52-8c46-4e0f-9b21-6f5d0c9e7a34"

example : clsidOf (L "\x7b" ++ uniqueId ++ L "\x7d") = (none, ⟨0x1d3b7a52⟩) ∧
    clsidOf (L "\x7b1\x7d") = (some CO_E_CLASSSTRING, ⟨0⟩) := by decide +kernel

def capsPayload (provider : WString) : List BYTE :=
  le16 4 ++ strBytes (utf16 provider) ++ strBytes (utf16 uniqueId)

def capsMessage (provider : WString) : List BYTE := packet RDPAPPLIST_CMDID_CAPS (capsPayload provider)

def updateMessage (hints : UInt32) (id desc : WString) : List BYTE :=
  packet RDPAPPLIST_CMDID_UPDATE_APPLIST
    (le32 (RDPAPPLIST_FIELD_ID ||| RDPAPPLIST_FIELD_EXECPATH ||| RDPAPPLIST_FIELD_DESC ||| hints) ++
      strBytes (utf16 id) ++ strBytes (utf16 (L "x")) ++ strBytes (utf16 desc))

def deleteMessage (id : WString) : List BYTE :=
  packet RDPAPPLIST_CMDID_DELETE_APPLIST (le32 RDPAPPLIST_FIELD_ID ++ strBytes (utf16 id))

/-! The same as the server has them. -/

def unicodeString (s : WString) : RAIL_UNICODE_STRING where
  string := (utf16 s).take (2 ^ 16 - 1)
  fits := by rw [List.length_take]; omega

def serverCaps (provider : WString) : Server.RDPAPPLIST_SERVER_CAPS_PDU :=
  ⟨4, unicodeString provider, unicodeString uniqueId⟩

def capsPDU (provider : WString) : Server.PDU := .caps (serverCaps provider)

def updatePDU (id desc : WString) : Server.PDU := .updateAppList {
  flags := RDPAPPLIST_FIELD_ID ||| RDPAPPLIST_FIELD_EXECPATH ||| RDPAPPLIST_FIELD_DESC
  appId := unicodeString id
  appGroup := unicodeString []
  appExecPath := unicodeString (L "x")
  appWorkingDir := unicodeString []
  appDesc := unicodeString desc
  appIcon := none }

/-- An icon of one pixel. -/
def pixelIcon : Server.RDPAPPLIST_ICON_DATA := ⟨0, 1, 1, 4, 32, 0, [1, 2, 3, 4], by decide⟩

def pixelUpdate (id desc : WString) : Server.RDPAPPLIST_UPDATE_APPLIST_PDU where
  flags := RDPAPPLIST_FIELD_ID ||| RDPAPPLIST_FIELD_EXECPATH ||| RDPAPPLIST_FIELD_DESC ||| RDPAPPLIST_FIELD_ICON
  appId := unicodeString id
  appGroup := unicodeString []
  appExecPath := unicodeString (L "x")
  appWorkingDir := unicodeString []
  appDesc := unicodeString desc
  appIcon := some pixelIcon

def deleteProviderPDU (flags : UInt32) (provider : WString) : Server.PDU :=
  .deleteAppListProvider ⟨flags, unicodeString provider⟩

def openWts : Server.Wts := ⟨fun _ => true, fun _ => true⟩

/-- A message that comes to `m`. -/
def arrives (message : List BYTE) (m : Machine Disk) : Reading (Machine Disk) := .between [] message m

def afterMessage (message : List BYTE) (m : Machine Disk) : Machine Disk :=
  (finalState (receive diskOS (arrives message m))).out

/-- A channel of the provider `U`. -/
def channelOfU : Machine Disk := afterMessage (capsMessage (L "U")) (.fresh [])

/-- A fresh channel receives the messages. -/
def runOn (disk : Disk) (messages : List (List BYTE)) : Machine Disk :=
  (OnDataReceived diskOS messages.flatten (.fresh disk)).machine

theorem reachable_runOn (disk : Disk) (messages : List (List BYTE)) :
    Reachable diskOS anyMessage (runOn disk messages) :=
  reachable_OnDataReceived _ (fun _ _ => trivial) (.fresh disk)

end Wslg
