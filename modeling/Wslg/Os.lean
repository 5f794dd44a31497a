import Wslg.Lib.Effects
import Wslg.Lib.Path
import Wslg.Protocol
/-!
# What the plugin asks of Windows

The Win32, shell and COM calls of the plugin are the fields of `OS`, over an
arbitrary world `W`: a call may answer anything and move the world in any way,
so a theorem for every `OS` covers every outcome of every call. What is known
of the answers whatever the system does is in their types.

The calls that matter to a claim leave an `Event`. The events from
`OnSyncStart` on are not calls: they mark what a handler has got to.
-/

open Lib

namespace Wslg

/-! ## Characters of paths -/

def isSep (c : WCHAR) : Bool := c == 92 || c == 47

def dot : WCHAR := 46

/-- Both separators, and the dot that `.` and `..` are made of. -/
abbrev pathComponents (p : WString) : List WString := components isSep p

/-! ## Answers -/

inductive CreateDirectoryResult where
  | created
  | ERROR_ALREADY_EXISTS
  | failed
  deriving DecidableEq

/-- One entry of a directory. A name has no separators, and only directories
are called `.` and `..`. -/
structure FindData where
  cFileName : WString
  isDirectory : Bool
  noSep : ∀ c ∈ cFileName, isSep c = false
  notDots : isDirectory = false → cFileName ≠ L "." ∧ cFileName ≠ L ".."

/-- `WIN32_FIND_DATA data = {}`. -/
def FindData.zero : FindData := ⟨[], false, by simp, fun _ => by decide⟩

structure GUID where
  Data1 : UInt32
  deriving DecidableEq

/-- What `CreateShellLink` stores in a `.lnk` file. -/
structure ShellLink where
  pathLink : WString
  pathObj : WString
  args : WString
  workingDir : WString
  desc : WString
  pathIcon : Option WString
  deriving DecidableEq

inductive LocaleInfo where
  | LOCALE_SISO639LANGNAME
  | LOCALE_SISO3166CTRYNAME
  deriving DecidableEq

abbrev HWND := Nat

inductive WindowProperty where
  | RelaunchDisplayNameResource (s : WString)
  | RelaunchIconResource (s : WString)
  | RelaunchCommand (s : WString)
  | PreventPinning
  deriving DecidableEq

/-! ## The system -/

/-- `Option HRESULT` is `none` on success. `GetTempPathW` and `RegGetValueW`
also return what they leave in the caller's buffer, whatever the outcome. A
directory is listed at once; no listing is given for a pattern longer than
`pathLimit`. -/
structure OS (W : Type) where
  SHGetKnownFolderPath : W → Option WString × W
  GetTempPathW : Nat → W → (Nat × WString) × W
  CreateDirectoryW : WString → W → CreateDirectoryResult × W
  RemoveDirectory : WString → W → Bool × W
  DeleteFileW : WString → W → Bool × W
  PathIsDirectoryEmptyW : WString → W → Bool × W
  FindFirstFile : WString → W → List FindData × W
  pathLimit : Nat
  FindFirstFile_long : ∀ p w, pathLimit < p.length → (FindFirstFile p w).1 = []
  GetIconLocation : WString → W → Option WString × W
  SaveShellLink : ShellLink → W → Bool × W
  CreateFileW : WString → W → Bool × W
  WriteFile : WString → List BYTE → W → Bool × W
  CLSIDFromString : WString → W → (Option HRESULT × GUID) × W
  RegOpenKeyExW : W → Option HRESULT × W
  RegGetValueW : WString → W → (Option HRESULT × WString) × W
  ExpandEnvironmentStringsW : WString → W → (Bool × WString) × W
  GetLocaleInfoA : LocaleInfo → W → Option (List BYTE) × W
  ChannelWrite : List BYTE → W → Option HRESULT × W
  LocalAlloc : Nat → W → Bool × W
  CreateInstance : W → Option HRESULT × W
  EnumWindows : W → List (HWND × UInt64) × W
  SHGetPropertyStoreForWindow : HWND → W → Bool × W
  InitPropVariant : WindowProperty → W → Bool × W
  SetValue : HWND → WindowProperty → W → Bool × W

/-! ## Events -/

/-- An update the client took over, with the roots its paths were built from. -/
structure AppUpdate where
  flags : UInt32
  key : WString
  linkPath : WString
  iconPath : WString
  hasLink : Bool
  hasIcon : Bool
  appMenuPath : WString
  iconRoot : WString
  deriving DecidableEq

inductive Event where
  | CreateDirectoryW (path : WString)
  | RemoveDirectory (path : WString)
  | DeleteFileW (path : WString) (ok : Bool)
  | CreateIconFile (path : WString) (data : List BYTE) (ok : Bool)
  | CreateShellLink (link : ShellLink) (ok : Bool)
  | ChannelWrite (bytes : List BYTE)
  | LocalAlloc (size : Nat) (ok : Bool)
  | LocalFree
  | SetValue (hwnd : HWND) (prop : WindowProperty)
  | OnSyncStart (path : WString)
  | OnLnkFileAdded (lnkFile : WString) (iconFile : Option WString)
  | OnSyncEnd (cleanupFiles : Bool)
  | syncClosed (left : List WString)
  | updated (u : AppUpdate)
  | deleted (key linkPath iconPath : WString)
  deriving DecidableEq

abbrev Sys (W : Type) := Traced W Event
abbrev SysM (W α : Type) := TraceM W Event α

open TraceM

variable {W : Type}

/-! ## The C runtime

`none` is an error return, after which the destination is the empty string. -/

def wcscpy_s (size : Nat) (src : WString) : Option WString := if src.length < size then some src else none

def wcscat_s (size : Nat) (dst src : WString) : Option WString :=
  if dst.length + src.length < size then some (dst ++ src) else none

/-- `swprintf_s` with the formatted string given. -/
def swprintf_s (size : Nat) (s : WString) : Option WString := if s.length < size then some s else none

/-- `wcsstr(s, t) != NULL` -/
def wcsstr (s t : WString) : Bool := decide (t <:+: s)

@[simp] theorem wcscpy_s_some {size : Nat} {src t : WString} :
    wcscpy_s size src = some t ↔ src.length < size ∧ t = src := by
  simp [wcscpy_s, eq_comm]

@[simp] theorem wcscat_s_some {size : Nat} {dst src t : WString} :
    wcscat_s size dst src = some t ↔ dst.length + src.length < size ∧ t = dst ++ src := by
  simp [wcscat_s, eq_comm]

@[simp] theorem swprintf_s_some {size : Nat} {s t : WString} :
    swprintf_s size s = some t ↔ s.length < size ∧ t = s := by
  simp [swprintf_s, eq_comm]

theorem wcscat_s_none {size : Nat} {dst src : WString} : wcscat_s size dst src = none ↔ size ≤ (dst ++ src).length := by
  simp [wcscat_s]

theorem swprintf_s_none {size : Nat} {s : WString} : swprintf_s size s = none ↔ size ≤ s.length := by simp [swprintf_s]

theorem wcsstr_iff {s t : WString} : wcsstr s t = true ↔ t <:+: s := by simp [wcsstr]

/-! ## Calls that leave an event -/

def CreateDirectoryW (os : OS W) (path : WString) : SysM W CreateDirectoryResult := do
  emit (.CreateDirectoryW path)
  call (os.CreateDirectoryW path)

def RemoveDirectory (os : OS W) (path : WString) : SysM W Bool := do
  emit (.RemoveDirectory path)
  call (os.RemoveDirectory path)

def DeleteFileW (os : OS W) (path : WString) : SysM W Bool := do
  let ok ← call (os.DeleteFileW path)
  emit (.DeleteFileW path ok)
  return ok

def LocalAlloc (os : OS W) (size : Nat) : SysM W Bool := do
  let ok ← call (os.LocalAlloc size)
  emit (.LocalAlloc size ok)
  return ok

@[simp] theorem LocalAlloc_fst (os : OS W) (size : Nat) (s : Sys W) :
    (LocalAlloc os size s).1 = (os.LocalAlloc size s.world).1 := rfl

def ChannelWrite (os : OS W) (bytes : List BYTE) : SysM W (Option HRESULT) := do
  emit (.ChannelWrite bytes)
  call (os.ChannelWrite bytes)

def SetValue (os : OS W) (hwnd : HWND) (prop : WindowProperty) : SysM W Bool := do
  emit (.SetValue hwnd prop)
  call (os.SetValue hwnd prop)

end Wslg
