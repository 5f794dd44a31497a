import Wslg.Os
/-!
# Helpers of the plugin

`utils.cpp`: shell links, icon files, the locale name, the two folders of a
provider and the task bar properties of a window.
-/

open Lib Lib.TraceM

namespace Wslg

variable {W : Type}

/-- An empty icon path counts as none. -/
def CreateShellLink (os : OS W) (link : ShellLink) : SysM W Bool := do
  let link := { link with pathIcon := link.pathIcon.filter (· ≠ []) }
  let ok ← call (os.SaveShellLink link)
  emit (.CreateShellLink link ok)
  return ok

theorem CreateShellLink_run (os : OS W) (link : ShellLink) (s : Sys W) :
    ∃ l, l.pathLink = link.pathLink ∧ CreateShellLink os link s =
      ((os.SaveShellLink l s.world).1, ⟨(os.SaveShellLink l s.world).2,
        s.trace ++ [.CreateShellLink l (os.SaveShellLink l s.world).1]⟩) :=
  ⟨{ link with pathIcon := link.pathIcon.filter (· ≠ []) }, rfl, rfl⟩

theorem CreateShellLink_trace (os : OS W) (link : ShellLink) (s : Sys W) :
    ∃ l, l.pathLink = link.pathLink ∧ (CreateShellLink os link s).2.trace =
      s.trace ++ [.CreateShellLink l (CreateShellLink os link s).1] := by
  obtain ⟨l, hl, hrun⟩ := CreateShellLink_run os link s
  exact ⟨l, hl, by rw [hrun]⟩

/-- The icon path is the empty string unless the link gives one. -/
def GetIconFileFromShellLink (os : OS W) (lnkPath : WString) : SysM W (Option WString) :=
  call (os.GetIconLocation lnkPath)

/-- Write to a file if it could be opened. -/
def writeOpened (os : OS W) (opened : Bool) (data : List BYTE) (file : WString) : SysM W Bool :=
  if opened then call (os.WriteFile file data) else pure false

def CreateIconFile (os : OS W) (data : List BYTE) (iconFile : WString) : SysM W Bool := do
  let opened ← call (os.CreateFileW iconFile)
  let ok ← writeOpened os opened data iconFile
  emit (.CreateIconFile iconFile data ok)
  return ok

theorem CreateIconFile_trace (os : OS W) (data : List BYTE) (iconFile : WString) (s : Sys W) :
    (CreateIconFile os data iconFile s).2.trace =
      s.trace ++ [.CreateIconFile iconFile data (CreateIconFile os data iconFile s).1] := by
  have h : ∀ opened s, (writeOpened os opened data iconFile s).2.trace = s.trace := fun opened s => by
    cases opened <;> rfl
  simp only [CreateIconFile, bind_run, emit_run, pure_run, h]
  rfl

/-- A file that cannot be opened is not written. -/
theorem CreateIconFile_closed {os : OS W} {iconFile : WString} {s : Sys W}
    (h : (os.CreateFileW iconFile s.world).1 = false) (data : List BYTE) :
    (CreateIconFile os data iconFile s).2 =
      ⟨(os.CreateFileW iconFile s.world).2, s.trace ++ [.CreateIconFile iconFile data false]⟩ := by
  simp [CreateIconFile, writeOpened, h]

theorem CreateIconFile_opened {os : OS W} {iconFile : WString} {s : Sys W}
    (h : (os.CreateFileW iconFile s.world).1 = true) (data : List BYTE) :
    (CreateIconFile os data iconFile s).2 =
      let written := os.WriteFile iconFile data (os.CreateFileW iconFile s.world).2
      ⟨written.2, s.trace ++ [.CreateIconFile iconFile data written.1]⟩ := by
  simp [CreateIconFile, writeOpened, h]

/-- Language and country code with `_` between; `none` if one is missing or they do not fit. -/
def GetLocaleName (os : OS W) (localeNameSize : Nat) : SysM W (Option (List BYTE)) := do
  match ← call (os.GetLocaleInfoA .LOCALE_SISO639LANGNAME) with
  | none => return none
  | some langCode =>
    if langCode.length + 1 < localeNameSize then
      match ← call (os.GetLocaleInfoA .LOCALE_SISO3166CTRYNAME) with
      | none => return none
      | some countryName =>
        if langCode.length + 1 + countryName.length < localeNameSize then
          return some (langCode ++ [95] ++ countryName)
        else return none
    else return none

/-- Create a directory that may be there already. -/
def EnsureDirectory (os : OS W) (path : WString) : SysM W (Option HRESULT) := do
  match ← CreateDirectoryW os path with
  | .failed => return some .E_FAIL
  | _ => return none

/-- The same if asked to. -/
def createIf (os : OS W) (isCreateDir : Bool) (path : WString) : SysM W (Option HRESULT) :=
  if isCreateDir then EnsureDirectory os path else pure none

/-- The result and what is left in `appMenuPath`. -/
def BuildMenuPath (os : OS W) (appMenuPathSize : Nat) (appMenuPath appProvider : WString) (isCreateDir : Bool) :
    SysM W (Option HRESULT × WString) := do
  match ← call os.SHGetKnownFolderPath with
  | none => return (some .E_FAIL, appMenuPath)
  | some knownFolderPath =>
    match swprintf_s appMenuPathSize (knownFolderPath ++ L "\\Programs\\" ++ appProvider) with
    | none => return (some .E_FAIL, [])
    | some path =>
      let hr ← createIf os isCreateDir path
      return (hr, path)

def iconPrefix : WString := L "WSLDVCPlugin\\"

/-- The result and what is left in `iconPath`. -/
def BuildIconPath (os : OS W) (iconPathSize : Nat) (appProvider : WString) (isCreateDir : Bool) :
    SysM W (Option HRESULT × WString) := do
  let (lenTempPath, tempPath) ← call (os.GetTempPathW iconPathSize)
  if lenTempPath = 0 then return (some .E_FAIL, tempPath)
  else if iconPathSize < lenTempPath + (iconPrefix.length + 1) + appProvider.length then
    return (some .E_FAIL, tempPath)
  else
    match wcscat_s iconPathSize tempPath iconPrefix with
    | none => return (some .E_FAIL, [])
    | some root =>
      match ← createIf os isCreateDir root with
      | some hr => return (some hr, root)
      | none =>
        match wcscat_s iconPathSize root appProvider with
        | none => return (some .E_FAIL, [])
        | some path =>
          let hr ← createIf os isCreateDir path
          return (hr, path)

/-- Set the properties in turn, up to the first that fails. -/
def SetValues (os : OS W) (hwnd : HWND) : List WindowProperty → SysM W PUnit
  | [] => pure ⟨⟩
  | p :: ps => do
    if ← call (os.InitPropVariant p) then
      if ← SetValue os hwnd p then SetValues os hwnd ps

def UpdateTaskBarInfo (os : OS W) (hwnd : HWND) (relaunchCmdline displayName iconPath : Option WString) :
    SysM W PUnit := do
  if ← call (os.SHGetPropertyStoreForWindow hwnd) then
    match relaunchCmdline, displayName, iconPath with
    | some cmdline, some name, some icon =>
      SetValues os hwnd [.RelaunchDisplayNameResource name, .RelaunchIconResource icon, .RelaunchCommand cmdline]
    | _, _, _ => SetValues os hwnd [.PreventPinning]

end Wslg
