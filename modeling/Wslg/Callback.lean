import Wslg.FileDB
import Wslg.Reader
/-!
# The channel callback

`WSLDVCCallback.cpp`: the handlers of the five messages, the receive loop and
`OnClose`. A handler reads the channel buffer through a cursor and changes the
`Machine`: the members of the callback and the system behind it. What it has
done before it fails stays done.
-/

open Lib Lib.TraceM

namespace Wslg

open Client

variable {W : Type}

/-! ## State -/

structure WSLDVCCallback where
  m_spFileDB : Option WSLDVCFileDB
  m_spFileDBSync : Option WSLDVCFileDB
  m_bChannelClosed : Bool
  m_handShakeComplated : Bool
  m_serverCaps : RDPAPPLIST_SERVER_CAPS_PDU
  m_appProviderGUID : GUID
  m_appProvider : WCharArray MAX_PATH
  m_appMenuPath : WString
  m_iconPath : WString
  m_expandedPathObj : WString
  m_expandedWorkingDir : WString
  m_clientLanguageId : List BYTE

structure Machine (W : Type) where
  this : WSLDVCCallback
  sys : Sys W

/-- Why a handler stops: a failed `HRESULT`, or a call through a null pointer. -/
inductive Stop where
  | hr (h : HRESULT)
  | nullPointer
  deriving DecidableEq

abbrev Handler (W α : Type) := Reader Stop (Machine W) α

/-- A channel after `RuntimeClassInitialize`. -/
def Machine.fresh (w : W) : Machine W where
  this := {
    m_spFileDB := some .empty
    m_spFileDBSync := none
    m_bChannelClosed := false
    m_handShakeComplated := false
    m_serverCaps := .zero
    m_appProviderGUID := ⟨0⟩
    m_appProvider := .zero _
    m_appMenuPath := []
    m_iconPath := []
    m_expandedPathObj := []
    m_expandedWorkingDir := []
    m_clientLanguageId := [] }
  sys := ⟨w, []⟩

/-! ## Steps of a handler -/

def getThis : Handler W WSLDVCCallback := act (fun m => (m.this, m))

def setThis (f : WSLDVCCallback → WSLDVCCallback) : Handler W PUnit := update (fun m => { m with this := f m.this })

/-- A call to the system. -/
def sys {α : Type} (x : SysM W α) : Handler W α := act (fun m => ((x m.sys).1, { m with sys := (x m.sys).2 }))

/-- `return E_FAIL` if `b`. -/
def failWhen (b : Bool) : Handler W PUnit := if b then reject (.hr .E_FAIL) else pure ⟨⟩

/-- `return hr` if it is a failure. -/
def check (hr : Option HRESULT) : Handler W PUnit :=
  match hr with
  | some hr => reject (.hr hr)
  | none => pure ⟨⟩

/-- `return E_FAIL` if a `_s` function reports an error. -/
def okOr {α : Type} (x : Option α) : Handler W α :=
  match x with
  | some a => pure a
  | none => reject (.hr .E_FAIL)

/-- The object behind a smart pointer. -/
def deref {α : Type} (x : Option α) : Handler W α :=
  match x with
  | some a => pure a
  | none => reject .nullPointer

/-! ## Icons -/

def freeIcon (m : Machine W) : Machine W := { m with sys := { m.sys with trace := m.sys.trace ++ [.LocalFree] } }

/-- The allocation and the bits; the block is freed if the bits are missing. -/
def ReadIconBits (os : OS W) (icon : RDPAPPLIST_ICON_DATA) : Handler W RDPAPPLIST_ICON_DATA :=
  if 2 ^ 32 ≤ icon.fileSize then reject (.hr .INTSAFE_E_ARITHMETIC_OVERFLOW)
  else do
    let ok ← sys (LocalAlloc os icon.fileSize)
    if ok then do
      let file ← orUndo (onLocal Stop.hr (.zero _) (ReadIconFile icon)) freeIcon
      return { icon with iconFileSize := UInt32.ofNat icon.fileSize, iconFileData := file.data }
    else reject (.hr .E_OUTOFMEMORY)

def ReadAppListIconData (os : OS W) : Handler W RDPAPPLIST_ICON_DATA := onCopy do
  let icon ← onLocal Stop.hr .zero ReadIconFields
  ReadIconBits os icon

/-! ## Sync sessions -/

def OnSyncStart (os : OS W) : Handler W PUnit := do
  let t ← getThis
  failWhen t.m_spFileDBSync.isSome
  let hr ← sys (call os.CreateInstance)
  check hr
  sys (emit (.OnSyncStart t.m_appMenuPath))
  let db ← sys (WSLDVCFileDB.addAllFilesAsFileIdAt os .empty t.m_appMenuPath)
  setThis (fun t => { t with m_spFileDBSync := some db })

def cleanUp (os : OS W) (cleanupFiles : Bool) (db : WSLDVCFileDB) : SysM W WSLDVCFileDB :=
  if cleanupFiles then WSLDVCFileDB.deleteAllFileIdFiles os db else pure db

/-- Clean up if asked to, empty the database and drop it. -/
def closeSync (os : OS W) (cleanupFiles : Bool) (db : WSLDVCFileDB) : SysM W PUnit := do
  emit (.OnSyncEnd cleanupFiles)
  let db ← cleanUp os cleanupFiles db
  emit (.syncClosed db.OnClose.keys)

def OnSyncEnd (os : OS W) (cleanupFiles : Bool) (m : Machine W) : Machine W :=
  match m.this.m_spFileDBSync with
  | none => m
  | some db => { this := { m.this with m_spFileDBSync := none }, sys := (closeSync os cleanupFiles db m.sys).2 }

/-! ## CAPS -/

def providerOk (provider : WString) : Bool :=
  !(wcsstr provider (L "..") || wcsstr provider (L "\"") || wcsstr provider (L " "))

def guidString (uniqueId : WString) : WString := L "\x7b" ++ uniqueId ++ L "\x7d"

/-- The provider name and its GUID. -/
def OnCapsProvider (os : OS W) : Handler W PUnit := do
  -- `memcpy` of as many bytes as were read: what the array held behind them stays
  store (fun m => (m.this.m_appProvider.copy (fieldBytes m.this.m_serverCaps.appListProviderName)).map
    (fun p => { m with this := { m.this with m_appProvider := p } }))
  let t ← getThis
  failWhen (!providerOk t.m_appProvider.str)
  -- servers before version 4 have no unique id
  if 4 ≤ t.m_serverCaps.version then do
    let s ← okOr (swprintf_s 40 (guidString t.m_serverCaps.appListProviderUniqueId.str))
    failWhen (s == [])
    let r ← sys (call (os.CLSIDFromString s))
    setThis (fun t => { t with m_appProviderGUID := r.2 })
    check r.1
  else pure ⟨⟩

/-- The two folders of the provider. -/
def OnCapsPaths (os : OS W) : Handler W PUnit := do
  let t ← getThis
  let r ← sys (BuildMenuPath os MAX_PATH t.m_appMenuPath t.m_appProvider.str true)
  setThis (fun t => { t with m_appMenuPath := r.2 })
  check r.1
  let r ← sys (BuildIconPath os MAX_PATH t.m_appProvider.str true)
  setThis (fun t => { t with m_iconPath := r.2 })
  check r.1

/-- The target of the links and the language to report. -/
def OnCapsEnvironment (os : OS W) : Handler W PUnit := do
  let hr ← sys (call os.RegOpenKeyExW)
  check hr
  let t ← getThis
  let r ← sys (call (os.RegGetValueW t.m_expandedPathObj))
  setThis (fun t => { t with m_expandedPathObj := r.2 })
  check r.1
  let exe := wcscat_s MAX_PATH r.2 (L "\\wslg.exe")
  -- `wcscat_s` empties the array if it has no room
  setThis (fun t => { t with m_expandedPathObj := exe.getD [] })
  failWhen exe.isNone
  let r ← sys (call (os.ExpandEnvironmentStringsW (L "%windir%\\system32")))
  setThis (fun t => { t with m_expandedWorkingDir := r.2 })
  failWhen (!r.1)
  let localeName ← sys (GetLocaleName os RDPAPPLIST_LANG_SIZE)
  -- "en_US"
  setThis (fun t => { t with m_clientLanguageId := localeName.getD [101, 110, 95, 85, 83] })

/-- `strncpy_s` to an array of 32, the rest zero. -/
def clientLanguageBytes (lang : List BYTE) : Option (List BYTE) :=
  if lang.length < RDPAPPLIST_LANG_SIZE then some (lang ++ List.replicate (RDPAPPLIST_LANG_SIZE - lang.length) 0)
  else none

def capsReply (lang : List BYTE) : List BYTE :=
  le32 RDPAPPLIST_CMDID_CAPS ++ le32 42 ++ le16 RDPAPPLIST_CHANNEL_VERSION ++ lang

/-- Answer the server; the handshake is complete if that worked. -/
def OnCapsReply (os : OS W) : Handler W PUnit := do
  let t ← getThis
  if RDPAPPLIST_CHANNEL_VERSION ≤ t.m_serverCaps.version then do
    let lang ← okOr (clientLanguageBytes t.m_clientLanguageId)
    let hr ← sys (ChannelWrite os (capsReply lang))
    setThis (fun t => { t with m_handShakeComplated := hr.isNone })
    check hr
  else do
    setThis (fun t => { t with m_handShakeComplated := false })
    reject (.hr .E_FAIL)

def setServerCaps (p : RDPAPPLIST_SERVER_CAPS_PDU) (m : Machine W) : Machine W :=
  { m with this := { m.this with m_serverCaps := p } }

/-- The read scope of OnCaps. -/
def readCaps : Handler W PUnit := onCopy (onPart Stop.hr (·.this.m_serverCaps) setServerCaps ReadAppListServerCaps)

/-- What OnCaps does behind it. -/
def answerCaps (os : OS W) : Handler W PUnit := do
  OnCapsProvider os
  OnCapsPaths os
  OnCapsEnvironment os
  OnCapsReply os

def OnCaps (os : OS W) : Handler W PUnit := do
  readCaps
  answerCaps os

/-! ## UPDATE_APPLIST -/

def readIcon (os : OS W) (flags : UInt32) : Handler W RDPAPPLIST_ICON_DATA :=
  if has flags RDPAPPLIST_FIELD_ICON then ReadAppListIconData os else pure .zero

/-- The message, with the icon if it has one. -/
def ReadUpdateMessage (os : OS W) : Handler W (RDPAPPLIST_UPDATE_APPLIST_PDU × RDPAPPLIST_ICON_DATA) := onCopy do
  let p ← onLocal Stop.hr .zero ReadAppListUpdate
  let icon ← readIcon os p.flags
  return (p, icon)

def startSync (os : OS W) (flags : UInt32) : Handler W PUnit :=
  if has flags RDPAPPLIST_HINT_SYNC_START then OnSyncStart os else pure ⟨⟩

/-- Start a session if asked to; one must be open if the message belongs to one. -/
def syncGate (os : OS W) (flags : UInt32) : Handler W PUnit := do
  startSync os flags
  let t ← getThis
  failWhen (has flags (RDPAPPLIST_HINT_SYNC ||| RDPAPPLIST_HINT_SYNC_END) && t.m_spFileDBSync.isNone)

/-- The substrings that the strings of an update must not have. -/
def fieldsOk (p : RDPAPPLIST_UPDATE_APPLIST_PDU) : Bool :=
  !(p.appGroup.length != 0 && (wcsstr p.appGroup.str (L "..") || wcsstr p.appGroup.str (L "\""))) &&
  !(wcsstr p.appId.str (L "..") || wcsstr p.appId.str (L "\"")) &&
  !(wcsstr p.appDesc.str (L "..") || wcsstr p.appDesc.str (L "\"")) &&
  !wcsstr p.appWorkingDir.str (L "\"")

/-- Create the folder, or stop. -/
def ensureDirectory (os : OS W) (path : WString) : Handler W PUnit := do
  let hr ← sys (EnsureDirectory os path)
  check hr

/-- The folder of the group, if there is one. -/
def enterGroup (os : OS W) (path : WString) (group : StringField) : Handler W WString :=
  if group.length ≠ 0 then do
    let path ← okOr (wcscat_s MAX_PATH path (L "\\"))
    let path ← okOr (wcscat_s MAX_PATH path group.str)
    ensureDirectory os path
    return path
  else pure path

/-- `root`, then `group`, each created, then `name` with extension `ext`. -/
def buildPath (os : OS W) (root : WString) (group : StringField) (name ext : WString) : Handler W WString := do
  let path ← okOr (wcscpy_s MAX_PATH root)
  ensureDirectory os path
  let path ← enterGroup os path group
  let path ← okOr (wcscat_s MAX_PATH path (L "\\"))
  let path ← okOr (wcscat_s MAX_PATH path name)
  okOr (wcscat_s MAX_PATH path ext)

/-- Empty without an icon. -/
def buildIconFilePath (os : OS W) (p : RDPAPPLIST_UPDATE_APPLIST_PDU) : Handler W WString := do
  let t ← getThis
  if has p.flags RDPAPPLIST_FIELD_ICON then buildPath os t.m_iconPath p.appGroup p.appId.str (L ".ico")
  else return []

/-- Links are named after the description. -/
def buildLinkPath (os : OS W) (p : RDPAPPLIST_UPDATE_APPLIST_PDU) : Handler W WString := do
  let t ← getThis
  buildPath os t.m_appMenuPath p.appGroup p.appDesc.str (L ".lnk")

/-- `-d <provider> --cd "<dir>" -- <command>` -/
def exeArgsOf (provider : WString) (p : RDPAPPLIST_UPDATE_APPLIST_PDU) : WString :=
  L "-d " ++ provider ++ L " --cd \"" ++ (if p.appWorkingDir.length ≠ 0 then p.appWorkingDir.str else L "~") ++
    L "\" -- " ++ p.appExecPath.str

def buildExeArgs (p : RDPAPPLIST_UPDATE_APPLIST_PDU) : Handler W WString := do
  let t ← getThis
  let args ← okOr (swprintf_s MAX_PATH (exeArgsOf t.m_appProvider.str p))
  failWhen (args == [])
  return args

def groupKey (group : StringField) : Handler W WString :=
  if group.length ≠ 0 then do
    let key ← okOr (wcscat_s MAX_PATH [] group.str)
    okOr (wcscat_s MAX_PATH key (L "\\"))
  else pure []

/-- `group\id`, or `id` alone. -/
def buildKey (group id : StringField) : Handler W WString := do
  let key ← groupKey group
  okOr (wcscat_s MAX_PATH key id.str)

/-- What `OnUpdateAppList` has in its local variables when it registers the app. -/
structure UpdateLocals where
  updateAppList : RDPAPPLIST_UPDATE_APPLIST_PDU
  iconData : RDPAPPLIST_ICON_DATA
  linkPath : WString
  iconPath : WString
  exeArgs : WString
  key : WString

/-- From the end of the read scope to the key. -/
def prepareUpdate (os : OS W) (p : RDPAPPLIST_UPDATE_APPLIST_PDU) (icon : RDPAPPLIST_ICON_DATA) :
    Handler W UpdateLocals := do
  syncGate os p.flags
  failWhen (!fieldsOk p)
  let iconPath ← buildIconFilePath os p
  let linkPath ← buildLinkPath os p
  let exeArgs ← buildExeArgs p
  let key ← buildKey p.appGroup p.appId
  return ⟨p, icon, linkPath, iconPath, exeArgs, key⟩

def registerApp (v : UpdateLocals) : Handler W PUnit := do
  let t ← getThis
  let db ← deref t.m_spFileDB
  let r := db.OnFileAdded ⟨v.key, v.linkPath, v.iconPath, t.m_expandedPathObj, v.exeArgs⟩
  setThis (fun t => { t with m_spFileDB := some r.2 })
  check r.1

def createIcon (os : OS W) (v : UpdateLocals) : SysM W Bool :=
  if has v.updateAppList.flags RDPAPPLIST_FIELD_ICON then CreateIconFile os v.iconData.iconFileData v.iconPath
  else pure false

/-- Write the icon file, if there is one, and the link; a failure of either is ignored. -/
def createFiles (os : OS W) (v : UpdateLocals) (t : WSLDVCCallback) : SysM W (Bool × Bool) := do
  let hasIcon ← createIcon os v
  let hasLink ← CreateShellLink os {
    pathLink := v.linkPath
    pathObj := t.m_expandedPathObj
    args := v.exeArgs
    workingDir := t.m_expandedWorkingDir
    desc := v.updateAppList.appDesc.str
    pathIcon := if hasIcon then some v.iconPath else none }
  return (hasLink, hasIcon)

/-- Spare the files of a reported app. -/
def spare (v : UpdateLocals) (hasIcon : Bool) (db : WSLDVCFileDB) : WSLDVCFileDB :=
  let db := (db.OnFileRemoved v.linkPath).2
  if hasIcon then (db.OnFileRemoved v.iconPath).2 else db

def spareReported (v : UpdateLocals) (hasIcon : Bool) : Handler W PUnit :=
  if has v.updateAppList.flags RDPAPPLIST_HINT_SYNC then
    setThis (fun t => { t with m_spFileDBSync := t.m_spFileDBSync.map (spare v hasIcon) })
  else pure ⟨⟩

def endSync (os : OS W) (flags : UInt32) : Handler W PUnit :=
  if has flags RDPAPPLIST_HINT_SYNC_END then update (OnSyncEnd os true) else pure ⟨⟩

/-- From the registration on nothing fails any more. -/
def finishUpdate (os : OS W) (v : UpdateLocals) : Handler W PUnit := do
  let t ← getThis
  let has ← sys (createFiles os v t)
  sys (emit (.updated
    ⟨v.updateAppList.flags, v.key, v.linkPath, v.iconPath, has.1, has.2, t.m_appMenuPath, t.m_iconPath⟩))
  spareReported v has.2
  endSync os v.updateAppList.flags

def OnUpdateAppList (os : OS W) : Handler W PUnit := do
  let msg ← ReadUpdateMessage os
  let v ← prepareUpdate os msg.1 msg.2
  registerApp v
  finishUpdate os v

/-! ## DELETE_APPLIST -/

/-- `wcscpy_s` of the group where `OnUpdateAppList` appends to the empty string. -/
def groupLookupKey (group : StringField) : Handler W WString :=
  if group.length ≠ 0 then do
    let key ← okOr (wcscpy_s MAX_PATH group.str)
    okOr (wcscat_s MAX_PATH key (L "\\"))
  else pure []

def buildLookupKey (group id : StringField) : Handler W WString := do
  let key ← groupLookupKey group
  okOr (wcscat_s MAX_PATH key id.str)

/-- A failure to delete is ignored. -/
def deleteRecorded (os : OS W) (path : WString) : SysM W PUnit := do
  if path ≠ [] then
    let _ ← DeleteFileW os path

def readDelete : Handler W RDPAPPLIST_DELETE_APPLIST_PDU := onCopy (onLocal Stop.hr .zero ReadAppListDelete)

def deleteApp (os : OS W) (p : RDPAPPLIST_DELETE_APPLIST_PDU) : Handler W PUnit := do
  let key ← buildLookupKey p.appGroup p.appId
  let t ← getThis
  let db ← deref t.m_spFileDB
  let r := db.FindFiles key (some MAX_PATH) (some MAX_PATH) none none
  failWhen r.1.isSome
  sys (deleteRecorded os r.2.linkFilePath)
  sys (deleteRecorded os r.2.iconFilePath)
  setThis (fun t => { t with m_spFileDB := some (db.OnFileRemoved key).2 })
  sys (emit (.deleted key r.2.linkFilePath r.2.iconFilePath))

def OnDeleteAppList (os : OS W) : Handler W PUnit := do
  let p ← readDelete
  deleteApp os p

/-! ## ASSOCIATE_WINDOW_ID -/

/-- `none` for the empty string. -/
def nonEmpty (s : WString) : Option WString := if s = [] then none else some s

/-- Enumerate the windows up to the one that has the id. -/
def FindWslgWindow (os : OS W) (windowId : UInt64) (relaunchCommandline displayName iconPath : Option WString) :
    List (HWND × UInt64) → SysM W PUnit
  | [] => pure ⟨⟩
  | (hwnd, id) :: rest =>
    if id = windowId then UpdateTaskBarInfo os hwnd relaunchCommandline displayName iconPath
    else FindWslgWindow os windowId relaunchCommandline displayName iconPath rest

/-- The command line to relaunch the app, from the registry or else from the message. -/
def relaunchPath (t : WSLDVCCallback) (p : RDPAPPLIST_ASSOCIATE_WINDOW_ID_PDU)
    (r : Option HRESULT × WSLDVCFileDB.Found) : Handler W WString :=
  if r.1.isNone then do
    let exePath ← okOr (swprintf_s MAX_PATH (r.2.exeFilePath ++ L " " ++ r.2.exeFileArgs))
    failWhen (exePath == [])
    return exePath
  -- the key is not there: the path on the server, started through `wslg.exe`
  else if p.appExecPath.str ≠ [] then do
    let exePath ← okOr (swprintf_s MAX_PATH (t.m_expandedPathObj ++ L " -d " ++ t.m_appProvider.str ++
      L " --cd \"~\" -- " ++ p.appExecPath.str))
    failWhen (exePath == [])
    return exePath
  else return []

def fullWindowId (guid : GUID) (appWindowId : UInt32) : UInt64 := guid.Data1.toUInt64 <<< 32 ||| appWindowId.toUInt64

def readAssociate : Handler W RDPAPPLIST_ASSOCIATE_WINDOW_ID_PDU :=
  onCopy (onLocal Stop.hr .zero ReadAssociateWindowId)

def associateWindow (os : OS W) (t : WSLDVCCallback) (p : RDPAPPLIST_ASSOCIATE_WINDOW_ID_PDU) : Handler W PUnit := do
  let windowId := fullWindowId t.m_appProviderGUID p.appWindowId
  failWhen (windowId == 0)
  let key ← buildLookupKey p.appGroup p.appId
  let db ← deref t.m_spFileDB
  let r := db.FindFiles key none (some MAX_PATH) (some MAX_PATH) (some MAX_PATH)
  let exePath ← relaunchPath t p r
  let windows ← sys (call os.EnumWindows)
  sys (FindWslgWindow os windowId (nonEmpty exePath) (nonEmpty p.appDesc.str) (nonEmpty r.2.iconFilePath) windows)

def OnAssociateWindowId (os : OS W) : Handler W PUnit := do
  let t ← getThis
  failWhen (t.m_serverCaps.version < 4)
  let p ← readAssociate
  associateWindow os t p

/-! ## The receive loop -/

/-- What follows the header. `DELETE_APPLIST_PROVIDER` is ignored. -/
def dispatch (os : OS W) (h : RDPAPPLIST_HEADER) : Handler W PUnit := do
  if h.cmdId = RDPAPPLIST_CMDID_CAPS then OnCaps os
  else do
    let t ← getThis
    -- the CAPS exchange comes before anything else
    failWhen (!t.m_handShakeComplated)
    if h.cmdId = RDPAPPLIST_CMDID_UPDATE_APPLIST then OnUpdateAppList os
    else if h.cmdId = RDPAPPLIST_CMDID_DELETE_APPLIST then OnDeleteAppList os
    else if h.cmdId = RDPAPPLIST_CMDID_DELETE_APPLIST_PROVIDER then pure ⟨⟩
    else if h.cmdId = RDPAPPLIST_CMDID_ASSOCIATE_WINDOW_ID then OnAssociateWindowId os
    else reject (.hr .E_FAIL)

def readHeader : Handler W RDPAPPLIST_HEADER := onLocal Stop.hr ⟨0, 0⟩ ReadAppListHeader

/-- One turn of the loop. -/
def receive (os : OS W) : Handler W PUnit := do
  let h ← readHeader
  dispatch os h

/-- A turn of the loop: where it started and the header it read. -/
structure Round where
  offset : Nat
  header : Option RDPAPPLIST_HEADER
  deriving DecidableEq

inductive Returned where
  | S_OK
  | failed (x : ReadStop Stop)
  | outOfFuel
  deriving DecidableEq

/-- How a call of `OnDataReceived` went. -/
structure Received (W : Type) where
  hr : Returned
  rounds : List Round
  machine : Machine W

def receiveLoop (os : OS W) : Nat → Reading (Machine W) → Received W
  | fuel, s =>
    if s.len ≠ 0 ∧ s.out.this.m_bChannelClosed = false then
      match fuel with
      | 0 => ⟨.outOfFuel, [], s.out⟩
      | fuel + 1 =>
        match readHeader s with
        | .error x t => ⟨.failed x, [⟨s.cur, none⟩], t.out⟩
        | .ok h t =>
          match dispatch os h t with
          | .error x u => ⟨.failed x, [⟨s.cur, some h⟩], u.out⟩
          | .ok _ u =>
            let r := receiveLoop os fuel u
            { r with rounds := ⟨s.cur, some h⟩ :: r.rounds }
    else ⟨.S_OK, [], s.out⟩

/-- The number of turns allowed is the size of the buffer. -/
def OnDataReceived (os : OS W) (pBuffer : List BYTE) (m : Machine W) : Received W :=
  if m.this.m_bChannelClosed then ⟨.S_OK, [], m⟩
  else receiveLoop os pBuffer.length ⟨pBuffer, 0, pBuffer.length, m⟩

/-- `none` if the database is gone already. -/
def OnClose (os : OS W) (m : Machine W) : Option (Machine W) :=
  -- an open session is cancelled, without clean-up
  let m := OnSyncEnd os false { m with this := { m.this with m_bChannelClosed := true } }
  match m.this.m_spFileDB with
  | none => none
  | some _ => some { m with this := { m.this with m_spFileDB := none } }

end Wslg
