import Wslg.Run
/-!
# What a handler leaves alone

`Frame T R` relates a machine to a later one: the members are related by `T`, the
system by `R`, for any `R` that the calls of the handler respect. OnCaps keeps
the databases, the other handlers keep everything else.
-/

open Lib Lib.TraceM

namespace Wslg

open Client

variable {W α : Type} {R : Sys W → Sys W → Prop}

/-! ## Calls -/

/-- The calls that leave no event respect `R`. -/
structure Silent (os : OS W) (R : Sys W → Sys W → Prop) : Prop where
  SHGetKnownFolderPath : Keeps R (call os.SHGetKnownFolderPath)
  GetTempPathW : ∀ n, Keeps R (call (os.GetTempPathW n))
  PathIsDirectoryEmptyW : ∀ p, Keeps R (call (os.PathIsDirectoryEmptyW p))
  FindFirstFile : ∀ p, Keeps R (call (os.FindFirstFile p))
  GetIconLocation : ∀ p, Keeps R (call (os.GetIconLocation p))
  CLSIDFromString : ∀ s, Keeps R (call (os.CLSIDFromString s))
  RegOpenKeyExW : Keeps R (call os.RegOpenKeyExW)
  RegGetValueW : ∀ s, Keeps R (call (os.RegGetValueW s))
  ExpandEnvironmentStringsW : ∀ s, Keeps R (call (os.ExpandEnvironmentStringsW s))
  GetLocaleInfoA : ∀ i, Keeps R (call (os.GetLocaleInfoA i))
  CreateInstance : Keeps R (call os.CreateInstance)
  EnumWindows : Keeps R (call os.EnumWindows)
  SHGetPropertyStoreForWindow : ∀ h, Keeps R (call (os.SHGetPropertyStoreForWindow h))
  InitPropVariant : ∀ p, Keeps R (call (os.InitPropVariant p))

theorem silent_appends (os : OS W) (P : Event → Prop) : Silent os (Appends P) where
  SHGetKnownFolderPath := appends_call _
  GetTempPathW _ := appends_call _
  PathIsDirectoryEmptyW _ := appends_call _
  FindFirstFile _ := appends_call _
  GetIconLocation _ := appends_call _
  CLSIDFromString _ := appends_call _
  RegOpenKeyExW := appends_call _
  RegGetValueW _ := appends_call _
  ExpandEnvironmentStringsW _ := appends_call _
  GetLocaleInfoA _ := appends_call _
  CreateInstance := appends_call _
  EnumWindows := appends_call _
  SHGetPropertyStoreForWindow _ := appends_call _
  InitPropVariant _ := appends_call _

/-! ### The events of a call -/

section Appends

variable {P : Event → Prop} (os : OS W)

theorem appends_CreateDirectoryW {path : WString} (h : P (.CreateDirectoryW path)) :
    Keeps (Appends P) (CreateDirectoryW os path) :=
  (appends_emit h).bind fun _ => appends_call _

theorem appends_RemoveDirectory {path : WString} (h : P (.RemoveDirectory path)) :
    Keeps (Appends P) (RemoveDirectory os path) :=
  (appends_emit h).bind fun _ => appends_call _

theorem appends_DeleteFileW {path : WString} (h : ∀ ok, P (.DeleteFileW path ok)) :
    Keeps (Appends P) (DeleteFileW os path) :=
  (appends_call _).bind fun _ => (appends_emit (h _)).bind fun _ => Keeps.pure _

theorem appends_LocalAlloc {size : Nat} (h : ∀ ok, P (.LocalAlloc size ok)) :
    Keeps (Appends P) (LocalAlloc os size) :=
  (appends_call _).bind fun _ => (appends_emit (h _)).bind fun _ => Keeps.pure _

theorem appends_ChannelWrite {bytes : List BYTE} (h : P (.ChannelWrite bytes)) :
    Keeps (Appends P) (ChannelWrite os bytes) :=
  (appends_emit h).bind fun _ => appends_call _

theorem appends_SetValue {hwnd : HWND} {prop : WindowProperty} (h : P (.SetValue hwnd prop)) :
    Keeps (Appends P) (SetValue os hwnd prop) :=
  (appends_emit h).bind fun _ => appends_call _

theorem appends_CreateIconFile {data : List BYTE} {file : WString} (h : ∀ ok, P (.CreateIconFile file data ok)) :
    Keeps (Appends P) (CreateIconFile os data file) :=
  (appends_call _).bind fun _ => (Keeps.ite (fun _ => appends_call _) fun _ => Keeps.pure _ :
    Keeps _ (writeOpened os _ data file)).bind fun _ => (appends_emit (h _)).bind fun _ => Keeps.pure _

theorem appends_CreateShellLink {link : ShellLink}
    (h : ∀ l ok, l.pathLink = link.pathLink → P (.CreateShellLink l ok)) :
    Keeps (Appends P) (CreateShellLink os link) :=
  (appends_call _).bind fun ok => Keeps.bind (appends_emit (by exact h _ ok rfl)) fun _ => Keeps.pure _

end Appends

/-! ## The helpers -/

section Helpers

variable [Std.Refl R] [IsTrans (Sys W) R] {os : OS W} (hs : Silent os R)

theorem keeps_EnsureDirectory {path : WString} (h : Keeps R (CreateDirectoryW os path)) :
    Keeps R (EnsureDirectory os path) :=
  h.bind fun r => by cases r <;> exact Keeps.pure _

theorem keeps_createIf {path : WString} (isCreateDir : Bool) (h : Keeps R (CreateDirectoryW os path)) :
    Keeps R (createIf os isCreateDir path) :=
  Keeps.ite (fun _ => keeps_EnsureDirectory h) fun _ => Keeps.pure _

include hs in
theorem keeps_BuildMenuPath (h : ∀ p, Keeps R (CreateDirectoryW os p)) (size : Nat) (path provider : WString)
    (isCreateDir : Bool) : Keeps R (BuildMenuPath os size path provider isCreateDir) :=
  hs.SHGetKnownFolderPath.bind fun r => by
    cases r with
    | none => exact Keeps.pure _
    | some folder =>
      simp only
      split
      · exact Keeps.pure _
      · exact (keeps_createIf _ (h _)).bind fun _ => Keeps.pure _

include hs in
theorem keeps_BuildIconPath (h : ∀ p, Keeps R (CreateDirectoryW os p)) (size : Nat) (provider : WString)
    (isCreateDir : Bool) : Keeps R (BuildIconPath os size provider isCreateDir) :=
  (hs.GetTempPathW _).bind fun r => by
    refine Keeps.ite (fun _ => Keeps.pure _) fun _ => Keeps.ite (fun _ => Keeps.pure _) fun _ => ?_
    split
    · exact Keeps.pure _
    · refine (keeps_createIf _ (h _)).bind fun hr => ?_
      cases hr with
      | some _ => exact Keeps.pure _
      | none =>
        simp only
        split
        · exact Keeps.pure _
        · exact (keeps_createIf _ (h _)).bind fun _ => Keeps.pure _

include hs in
theorem keeps_GetLocaleName (size : Nat) : Keeps R (GetLocaleName os size) :=
  (hs.GetLocaleInfoA _).bind fun r => by
    cases r with
    | none => exact Keeps.pure _
    | some lang =>
      refine Keeps.ite (fun _ => (hs.GetLocaleInfoA _).bind fun c => ?_) fun _ => Keeps.pure _
      cases c with
      | none => exact Keeps.pure _
      | some _ => exact Keeps.ite (fun _ => Keeps.pure _) fun _ => Keeps.pure _

include hs in
theorem keeps_SetValues (h : ∀ w p, Keeps R (SetValue os w p)) (hwnd : HWND) (ps : List WindowProperty) :
    Keeps R (SetValues os hwnd ps) := by
  induction ps with
  | nil => exact Keeps.pure _
  | cons p ps ih =>
    exact (hs.InitPropVariant _).bind fun _ => Keeps.ite
      (fun _ => (h _ _).bind fun _ => Keeps.ite (fun _ => ih) fun _ => Keeps.pure _) fun _ => Keeps.pure _

include hs in
theorem keeps_UpdateTaskBarInfo (h : ∀ w p, Keeps R (SetValue os w p)) (hwnd : HWND) (cmd name icon : Option WString) :
    Keeps R (UpdateTaskBarInfo os hwnd cmd name icon) :=
  (hs.SHGetPropertyStoreForWindow _).bind fun _ =>
    Keeps.ite (fun _ => by split <;> exact keeps_SetValues hs h _ _) fun _ => Keeps.pure _

include hs in
theorem keeps_FindWslgWindow (h : ∀ w p, Keeps R (SetValue os w p)) (id : UInt64) (cmd name icon : Option WString)
    (ws : List (HWND × UInt64)) : Keeps R (FindWslgWindow os id cmd name icon ws) := by
  induction ws with
  | nil => exact Keeps.pure _
  | cons w ws ih => exact Keeps.ite (fun _ => keeps_UpdateTaskBarInfo hs h _ _ _ _) fun _ => ih

/-! ### The file database -/

namespace WSLDVCFileDB

include hs in
theorem keeps_OnLnkFileAdded {lnkFile : WString} (hadd : ∀ i, Keeps R (emit (.OnLnkFileAdded lnkFile i) : SysM W PUnit))
    (db : WSLDVCFileDB) : Keeps R (OnLnkFileAdded os db lnkFile) :=
  (hs.GetIconLocation _).bind fun r => (hadd r).bind fun _ => by cases r <;> exact Keeps.pure _

include hs in
theorem keeps_addEntry (h : ∀ p, Keeps R (RemoveDirectory os p))
    (hadd : ∀ l i, Keeps R (emit (.OnLnkFileAdded l i) : SysM W PUnit)) {scan : WString → WSLDVCFileDB → SysM W WSLDVCFileDB}
    (hscan : ∀ p db, Keeps R (scan p db)) (path : WString) (data : FindData) (db : WSLDVCFileDB) :
    Keeps R (addEntry os scan path data db) :=
  Keeps.ite (fun _ => Keeps.ite (fun _ => Keeps.pure _) fun _ => (hs.PathIsDirectoryEmptyW _).bind fun _ =>
    Keeps.ite (fun _ => (h _).bind fun _ => Keeps.pure _) fun _ => hscan _ _)
    fun _ => Keeps.ite (fun _ => keeps_OnLnkFileAdded hs (hadd _) _) fun _ => Keeps.pure _

include hs in
theorem keeps_addEntries (h : ∀ p, Keeps R (RemoveDirectory os p))
    (hadd : ∀ l i, Keeps R (emit (.OnLnkFileAdded l i) : SysM W PUnit)) {scan : WString → WSLDVCFileDB → SysM W WSLDVCFileDB} (hscan : ∀ p db, Keeps R (scan p db)) (path : WString)
    (entries : List FindData) (db : WSLDVCFileDB) : Keeps R (addEntries os scan path entries db) := by
  induction entries generalizing db with
  | nil => exact Keeps.pure _
  | cons d ds ih => exact (keeps_addEntry hs h hadd hscan path d db).bind fun db => ih db

include hs in
/-- Scanning removes empty folders and notes links. -/
theorem keeps_addAllSubFolderFiles (h : ∀ p, Keeps R (RemoveDirectory os p))
    (hadd : ∀ l i, Keeps R (emit (.OnLnkFileAdded l i) : SysM W PUnit)) (depth : Nat) (path : WString)
    (db : WSLDVCFileDB) : Keeps R (addAllSubFolderFiles os depth path db) := by
  induction depth generalizing path db with
  | zero => exact Keeps.pure _
  | succ depth ih =>
    exact (hs.FindFirstFile _).bind fun entries => by cases entries <;> exact keeps_addEntries hs h hadd ih _ _ _

include hs in
theorem keeps_deleteFile {path : WString} (hd : Keeps R (DeleteFileW os path))
    (hr : ∀ p, Keeps R (RemoveDirectory os p)) : Keeps R (deleteFile os path) :=
  hd.bind fun _ => Keeps.ite (fun _ => by
    split
    · exact Keeps.pure _
    · exact (hs.PathIsDirectoryEmptyW _).bind fun _ => Keeps.ite (fun _ => (hr _).bind fun _ => Keeps.pure _)
        fun _ => Keeps.pure _) fun _ => Keeps.pure _

include hs in
theorem keeps_deleteAllFileIdFiles (hd : ∀ p, Keeps R (DeleteFileW os p)) (hr : ∀ p, Keeps R (RemoveDirectory os p))
    (db : WSLDVCFileDB) : Keeps R (deleteAllFileIdFiles os db) := by
  unfold deleteAllFileIdFiles
  generalize db.elems = entries
  induction entries generalizing db with
  | nil => exact Keeps.pure _
  | cons e es ih => exact (keeps_deleteFile hs (hd _) hr).bind fun _ => ih _

end WSLDVCFileDB

end Helpers

/-! ## Frames -/

def Frame (T : WSLDVCCallback → WSLDVCCallback → Prop) (R : Sys W → Sys W → Prop) (m m' : Machine W) : Prop :=
  T m.this m'.this ∧ R m.sys m'.sys

/-- The part `g` of the members is the same. -/
def SameOn {β : Type} (g : WSLDVCCallback → β) (t t' : WSLDVCCallback) : Prop := g t' = g t

instance {β : Type} (g : WSLDVCCallback → β) : Std.Refl (SameOn g) := ⟨fun _ => rfl⟩
instance {β : Type} (g : WSLDVCCallback → β) : IsTrans WSLDVCCallback (SameOn g) := ⟨fun _ _ _ h h' => h'.trans h⟩

/-- What is the same on `g` is the same on whatever `g` determines. -/
theorem SameOn.map {β γ : Type} {g : WSLDVCCallback → β} {f : WSLDVCCallback → γ} {t t' : WSLDVCCallback}
    (h : SameOn g t t') (k : β → γ) (hk : ∀ t, f t = k (g t)) : SameOn f t t' := by
  rw [SameOn, hk t, hk t', h]

/-! Members with some of them blanked out. -/

namespace WSLDVCCallback

def noDb (t : WSLDVCCallback) : WSLDVCCallback := { t with m_spFileDB := none, m_spFileDBSync := none }
def noServerCaps (t : WSLDVCCallback) : WSLDVCCallback := { t with m_serverCaps := .zero }
def noProvider (t : WSLDVCCallback) : WSLDVCCallback := { t with m_appProvider := .zero _, m_appProviderGUID := ⟨0⟩ }
def noPaths (t : WSLDVCCallback) : WSLDVCCallback := { t with m_appMenuPath := [], m_iconPath := [] }
def noEnvironment (t : WSLDVCCallback) : WSLDVCCallback :=
  { t with m_expandedPathObj := [], m_expandedWorkingDir := [], m_clientLanguageId := [] }
def noHandShake (t : WSLDVCCallback) : WSLDVCCallback := { t with m_handShakeComplated := false }
def noChannel (t : WSLDVCCallback) : WSLDVCCallback := { t.noDb with m_bChannelClosed := false }

/-- The members that OnCaps keeps. -/
def dbs (t : WSLDVCCallback) : Option WSLDVCFileDB × Option WSLDVCFileDB × Bool :=
  (t.m_spFileDB, t.m_spFileDBSync, t.m_bChannelClosed)

end WSLDVCCallback

open WSLDVCCallback

section Frame

variable {T : WSLDVCCallback → WSLDVCCallback → Prop}

instance [Std.Refl T] [Std.Refl R] : Std.Refl (Frame (W := W) T R) := ⟨fun m => ⟨refl_of T m.this, refl_of R m.sys⟩⟩

instance [IsTrans WSLDVCCallback T] [IsTrans (Sys W) R] : IsTrans (Machine W) (Frame T R) :=
  ⟨fun _ _ _ h h' => ⟨trans_of T h.1 h'.1, trans_of R h.2 h'.2⟩⟩

theorem Frame.mono {T' : WSLDVCCallback → WSLDVCCallback → Prop} {R' : Sys W → Sys W → Prop} {m m' : Machine W}
    (h : Frame T R m m') (hT : T m.this m'.this → T' m.this m'.this) (hR : R m.sys m'.sys → R' m.sys m'.sys) :
    Frame T' R' m m' := ⟨hT h.1, hR h.2⟩

variable [Std.Refl R]

theorem frame_setThis {β : Type} {g : WSLDVCCallback → β} {f : WSLDVCCallback → WSLDVCCallback}
    (h : ∀ t, g (f t) = g t := by exact fun _ => rfl) :
    Preserves (Frame (SameOn g) R) (setThis f : Handler W _) :=
  Preserves.update fun m => ⟨h m.this, refl_of R m.sys⟩

variable [Std.Refl T]

theorem frame_getThis : Preserves (Frame T R) (getThis : Handler W _) := Preserves.act fun m => refl_of (Frame T R) m

omit [Std.Refl R] in
theorem frame_sys {x : SysM W α} (h : Keeps R x) : Preserves (Frame T R) (sys x) :=
  Preserves.act fun m => ⟨refl_of T m.this, h m.sys⟩

theorem frame_failWhen (b : Bool) : Preserves (Frame T R) (failWhen b : Handler W _) :=
  Preserves.ite (fun _ => Preserves.reject _) fun _ => Preserves.pure _

theorem frame_check (hr : Option HRESULT) : Preserves (Frame T R) (check hr : Handler W _) := by
  cases hr
  · exact Preserves.pure _
  · exact Preserves.reject _

theorem frame_okOr (x : Option α) : Preserves (Frame T R) (okOr x : Handler W α) := by
  cases x
  · exact Preserves.reject _
  · exact Preserves.pure _

theorem frame_deref (x : Option α) : Preserves (Frame T R) (deref x : Handler W α) := by
  cases x
  · exact Preserves.reject _
  · exact Preserves.pure _

end Frame

/-! ## The handlers -/

section Handlers

variable [Std.Refl R] [IsTrans (Sys W) R] {os : OS W}

omit [IsTrans (Sys W) R] in
theorem frame_readCaps : Preserves (Frame (SameOn noServerCaps) R) (readCaps : Handler W _) :=
  (Preserves.onPart fun m _ => ⟨rfl, refl_of R m.sys⟩).onCopy

theorem frame_OnCapsProvider (hs : Silent os R) : Preserves (Frame (SameOn noProvider) R) (OnCapsProvider os) := by
  refine (Preserves.store fun m m' h => ?_).bind fun _ => frame_getThis.bind fun t => (frame_failWhen _).bind fun _ =>
    Preserves.ite (fun _ => (frame_okOr _).bind fun _ => (frame_failWhen _).bind fun _ =>
      (frame_sys (hs.CLSIDFromString _)).bind fun _ => (frame_setThis).bind fun _ => frame_check _)
      fun _ => Preserves.pure _
  obtain ⟨a, -, rfl⟩ := Option.map_eq_some_iff.1 h
  exact ⟨rfl, refl_of R m.sys⟩

theorem frame_OnCapsPaths (hs : Silent os R) (h : ∀ p, Keeps R (CreateDirectoryW os p)) :
    Preserves (Frame (SameOn noPaths) R) (OnCapsPaths os) :=
  frame_getThis.bind fun _ => (frame_sys (keeps_BuildMenuPath hs h _ _ _ _)).bind fun _ =>
    (frame_setThis).bind fun _ => (frame_check _).bind fun _ =>
      (frame_sys (keeps_BuildIconPath hs h _ _ _)).bind fun _ => (frame_setThis).bind fun _ => frame_check _

theorem frame_OnCapsEnvironment (hs : Silent os R) :
    Preserves (Frame (SameOn noEnvironment) R) (OnCapsEnvironment os) :=
  (frame_sys hs.RegOpenKeyExW).bind fun _ => (frame_check _).bind fun _ => frame_getThis.bind fun _ =>
    (frame_sys (hs.RegGetValueW _)).bind fun _ => (frame_setThis).bind fun _ =>
      (frame_check _).bind fun _ => (frame_setThis).bind fun _ => (frame_failWhen _).bind fun _ =>
        (frame_sys (hs.ExpandEnvironmentStringsW _)).bind fun _ => (frame_setThis).bind fun _ =>
          (frame_failWhen _).bind fun _ => (frame_sys (keeps_GetLocaleName hs _)).bind fun _ => frame_setThis

theorem frame_OnCapsReply (h : ∀ bs, Keeps R (ChannelWrite os bs)) :
    Preserves (Frame (SameOn noHandShake) R) (OnCapsReply os) :=
  frame_getThis.bind fun _ => Preserves.ite
    (fun _ => (frame_okOr _).bind fun _ => (frame_sys (h _)).bind fun _ => (frame_setThis).bind fun _ => frame_check _)
    fun _ => (frame_setThis).bind fun _ => Preserves.reject _

/-- A part of the members that the steps of OnCaps keep, OnCaps keeps. -/
theorem frame_OnCaps_of {β : Type} (hs : Silent os R) (hdir : ∀ p, Keeps R (CreateDirectoryW os p))
    (hwrite : ∀ bs, Keeps R (ChannelWrite os bs)) (g : WSLDVCCallback → β) (hread : ∀ t, g t = g t.noServerCaps)
    (hprovider : ∀ t, g t = g t.noProvider) (hpaths : ∀ t, g t = g t.noPaths)
    (henvironment : ∀ t, g t = g t.noEnvironment) (hreply : ∀ t, g t = g t.noHandShake) :
    Preserves (Frame (SameOn g) R) (OnCaps os) :=
  (frame_readCaps.mono fun _ _ h => h.mono (·.map g hread) id).bind fun _ =>
    ((frame_OnCapsProvider hs).mono fun _ _ h => h.mono (·.map g hprovider) id).bind fun _ =>
      ((frame_OnCapsPaths hs hdir).mono fun _ _ h => h.mono (·.map g hpaths) id).bind fun _ =>
        ((frame_OnCapsEnvironment hs).mono fun _ _ h => h.mono (·.map g henvironment) id).bind fun _ =>
          (frame_OnCapsReply hwrite).mono fun _ _ h => h.mono (·.map g hreply) id

/-- CAPS keeps the databases. -/
theorem frame_OnCaps (hs : Silent os R) (hdir : ∀ p, Keeps R (CreateDirectoryW os p))
    (hwrite : ∀ bs, Keeps R (ChannelWrite os bs)) : Preserves (Frame (SameOn dbs) R) (OnCaps os) :=
  frame_OnCaps_of hs hdir hwrite dbs (fun _ => rfl) (fun _ => rfl) (fun _ => rfl) (fun _ => rfl) fun _ => rfl

/-- Reading an update only allocates. -/
theorem frame_ReadUpdateMessage (halloc : ∀ n, Keeps R (LocalAlloc os n))
    (hfree : Keeps R (emit .LocalFree : SysM W PUnit)) : Preserves (Frame Eq R) (ReadUpdateMessage os) := by
  have hfree' : ∀ m m' : Machine W, Frame Eq R m m' → Frame Eq R m (freeIcon m') := fun m m' h =>
    ⟨h.1, trans_of R h.2 (hfree m'.sys)⟩
  have hbits : ∀ icon, Preserves (Frame Eq R) (ReadIconBits os icon) := fun icon =>
    Preserves.ite (fun _ => Preserves.reject _) fun _ => (frame_sys (halloc _)).bind fun _ =>
      Preserves.ite (fun _ => (Preserves.onLocal.orUndo hfree').bind fun _ => Preserves.pure _) fun _ =>
        Preserves.reject _
  have hicon : ∀ flags, Preserves (Frame Eq R) (readIcon os flags) := fun flags =>
    Preserves.ite (fun _ => (Preserves.onLocal.bind hbits).onCopy) fun _ => Preserves.pure _
  exact (Preserves.onLocal.bind fun _ => (hicon _).bind fun _ => Preserves.pure _).onCopy

section Update

variable {T : WSLDVCCallback → WSLDVCCallback → Prop} [Std.Refl T] [IsTrans WSLDVCCallback T]

theorem frame_ensureDirectory {path : WString} (h : Keeps R (CreateDirectoryW os path)) :
    Preserves (Frame T R) (ensureDirectory os path) :=
  (frame_sys (keeps_EnsureDirectory h)).bind fun _ => frame_check _

theorem frame_buildKey (group id : StringField) : Preserves (Frame T R) (buildKey group id : Handler W _) :=
  (Preserves.ite (fun _ => (frame_okOr _).bind fun _ => frame_okOr _) fun _ => Preserves.pure _ :
    Preserves _ (groupKey group : Handler W _)).bind fun _ => frame_okOr _

end Update

/-- DELETE keeps everything but the registry and deletes files. -/
theorem frame_OnDeleteAppList (hdel : ∀ p, Keeps R (DeleteFileW os p))
    (hmark : ∀ k l i, Keeps R (emit (.deleted k l i) : SysM W PUnit)) :
    Preserves (Frame (SameOn noDb) R) (OnDeleteAppList os) := by
  have hrec : ∀ path, Keeps R (deleteRecorded os path) := fun path =>
    Keeps.ite (fun _ => (hdel _).bind fun _ => Keeps.pure _) fun _ => Keeps.pure _
  exact Preserves.onLocal.onCopy.bind fun _ => (buildLookupKey_eq _ _ ▸ frame_buildKey _ _).bind fun _ =>
    frame_getThis.bind fun _ => (frame_deref _).bind fun _ => (frame_failWhen _).bind fun _ =>
      (frame_sys (hrec _)).bind fun _ => (frame_sys (hrec _)).bind fun _ => (frame_setThis).bind fun _ =>
        frame_sys (hmark _ _ _)

/-- ASSOCIATE_WINDOW_ID changes nothing but properties of windows. -/
theorem frame_OnAssociateWindowId (hs : Silent os R) (hset : ∀ w p, Keeps R (SetValue os w p)) :
    Preserves (Frame Eq R) (OnAssociateWindowId os) := by
  have hpath : ∀ t p r, Preserves (Frame Eq R) (relaunchPath t p r : Handler W _) := fun t p r =>
    Preserves.ite (fun _ => (frame_okOr _).bind fun _ => (frame_failWhen _).bind fun _ => Preserves.pure _) fun _ =>
      Preserves.ite (fun _ => (frame_okOr _).bind fun _ => (frame_failWhen _).bind fun _ => Preserves.pure _) fun _ =>
        Preserves.pure _
  exact frame_getThis.bind fun _ => (frame_failWhen _).bind fun _ => Preserves.onLocal.onCopy.bind fun _ =>
    (frame_failWhen _).bind fun _ => (buildLookupKey_eq _ _ ▸ frame_buildKey _ _).bind fun _ =>
      (frame_deref _).bind fun _ => (hpath _ _ _).bind fun _ => (frame_sys hs.EnumWindows).bind fun _ =>
        frame_sys (keeps_FindWslgWindow hs hset _ _ _ _ _)

end Handlers

/-! ## Whole messages -/

/-- What a handler notes that is no call, but for the start of a session. -/
def Mark : Event → Prop
  | .LocalFree | .OnLnkFileAdded _ _ | .OnSyncEnd _ | .syncClosed _ | .updated _ | .deleted _ _ _ => True
  | _ => False

/-- Every call and every such note respects `R`. -/
structure Respected (os : OS W) (R : Sys W → Sys W → Prop) : Prop extends Silent os R where
  CreateDirectoryW : ∀ p, Keeps R (CreateDirectoryW os p)
  RemoveDirectory : ∀ p, Keeps R (RemoveDirectory os p)
  DeleteFileW : ∀ p, Keeps R (DeleteFileW os p)
  CreateIconFile : ∀ data p, Keeps R (CreateIconFile os data p)
  CreateShellLink : ∀ link, Keeps R (CreateShellLink os link)
  ChannelWrite : ∀ bytes, Keeps R (ChannelWrite os bytes)
  LocalAlloc : ∀ n, Keeps R (LocalAlloc os n)
  SetValue : ∀ w p, Keeps R (SetValue os w p)
  mark : ∀ e, Mark e → Keeps R (emit e : SysM W PUnit)

/-- The same for what comes behind the reading of a message: no icon is allocated or freed. -/
structure BehindReading (os : OS W) (R : Sys W → Sys W → Prop) : Prop extends Silent os R where
  CreateDirectoryW : ∀ p, Keeps R (CreateDirectoryW os p)
  RemoveDirectory : ∀ p, Keeps R (RemoveDirectory os p)
  DeleteFileW : ∀ p, Keeps R (DeleteFileW os p)
  CreateIconFile : ∀ data p, Keeps R (CreateIconFile os data p)
  CreateShellLink : ∀ link, Keeps R (CreateShellLink os link)
  ChannelWrite : ∀ bytes, Keeps R (ChannelWrite os bytes)
  SetValue : ∀ w p, Keeps R (SetValue os w p)
  mark : ∀ e, Mark e → e ≠ .LocalFree → Keeps R (emit e : SysM W PUnit)

theorem Respected.behindReading {os : OS W} (h : Respected os R) : BehindReading os R :=
  { h with mark := fun e he _ => h.mark e he }

/-- The calls on files, which are all that an update makes behind its reading, respect `R`. -/
structure OnFiles (os : OS W) (R : Sys W → Sys W → Prop) : Prop extends Silent os R where
  CreateDirectoryW : ∀ p, Keeps R (CreateDirectoryW os p)
  RemoveDirectory : ∀ p, Keeps R (RemoveDirectory os p)
  DeleteFileW : ∀ p, Keeps R (DeleteFileW os p)
  CreateIconFile : ∀ data p, Keeps R (CreateIconFile os data p)
  CreateShellLink : ∀ link, Keeps R (CreateShellLink os link)
  mark : ∀ e, Mark e → e ≠ .LocalFree → Keeps R (emit e : SysM W PUnit)

theorem BehindReading.onFiles {os : OS W} (h : BehindReading os R) : OnFiles os R := { h with }

/-- Almost any event may be added. -/
theorem respected_appends (os : OS W) {P : Event → Prop} (h : ∀ e, (∀ path, e ≠ .OnSyncStart path) → P e) :
    Respected os (Appends P) where
  toSilent := silent_appends os P
  CreateDirectoryW _ := appends_CreateDirectoryW os (h _ (by simp))
  RemoveDirectory _ := appends_RemoveDirectory os (h _ (by simp))
  DeleteFileW _ := appends_DeleteFileW os fun _ => h _ (by simp)
  CreateIconFile _ _ := appends_CreateIconFile os fun _ => h _ (by simp)
  CreateShellLink _ := appends_CreateShellLink os fun _ _ _ => h _ (by simp)
  ChannelWrite _ := appends_ChannelWrite os (h _ (by simp))
  LocalAlloc _ := appends_LocalAlloc os fun _ => h _ (by simp)
  SetValue _ _ := appends_SetValue os (h _ (by simp))
  mark e he := appends_emit (h e fun path hp => by
    subst hp
    exact he)

/-- Any call may be made. -/
theorem anyCall (os : OS W) : Respected os (Appends fun _ => True) := respected_appends os fun _ _ => trivial

/-! Once the session is in order the rest of the preparation only builds paths. -/

/-- From the checks of the strings to the key. -/
def preparePaths (os : OS W) (p : RDPAPPLIST_UPDATE_APPLIST_PDU) (icon : RDPAPPLIST_ICON_DATA) :
    Handler W UpdateLocals := do
  failWhen (!fieldsOk p)
  let iconPath ← buildIconFilePath os p
  let linkPath ← buildLinkPath os p
  let exeArgs ← buildExeArgs p
  let key ← buildKey p.appGroup p.appId
  return ⟨p, icon, linkPath, iconPath, exeArgs, key⟩

theorem prepareUpdate_eq (os : OS W) (p : RDPAPPLIST_UPDATE_APPLIST_PDU) (icon : RDPAPPLIST_ICON_DATA) :
    prepareUpdate os p icon = syncGate os p.flags >>= fun _ => preparePaths os p icon := rfl

section Messages

variable [Std.Refl R] [IsTrans (Sys W) R] {os : OS W}

/-- A session starts under the menu path of the moment. -/
theorem frame_OnSyncStart (hs : Silent os R) (hrem : ∀ p, Keeps R (RemoveDirectory os p))
    (hadd : ∀ l i, Keeps R (emit (.OnLnkFileAdded l i) : SysM W PUnit)) {m : Machine W}
    (hstart : Keeps R (emit (.OnSyncStart m.this.m_appMenuPath) : SysM W PUnit)) :
    Outcome (OnSyncStart os) m (fun _ => Frame (SameOn noDb) R m) (fun _ => Frame (SameOn noDb) R m) :=
  Outcome.act_bind (((frame_failWhen _).bind fun _ => (frame_sys hs.CreateInstance).bind fun _ =>
    (frame_check _).bind fun _ => (frame_sys hstart).bind fun _ =>
      (frame_sys (WSLDVCFileDB.keeps_addAllSubFolderFiles hs hrem hadd _ _ _)).bind fun _ => frame_setThis) m)

/-- The gate only starts a session. -/
theorem frame_syncGate_of {m : Machine W} (hsync : Outcome (OnSyncStart os) m (fun _ => Frame (SameOn noDb) R m)
    fun _ => Frame (SameOn noDb) R m) (flags : UInt32) :
    Outcome (syncGate os flags) m (fun _ => Frame (SameOn noDb) R m) (fun _ => Frame (SameOn noDb) R m) := by
  have h : Outcome (startSync os flags) m (fun _ => Frame (SameOn noDb) R m) (fun _ => Frame (SameOn noDb) R m) :=
    Outcome.ite (fun _ => hsync) fun _ => Outcome.pure_iff.2 (refl_of _ m)
  have hgate : Preserves (Frame (SameOn noDb) R)
      (getThis >>= fun t => failWhen (has flags (RDPAPPLIST_HINT_SYNC ||| RDPAPPLIST_HINT_SYNC_END) &&
        t.m_spFileDBSync.isNone) : Handler W _) := frame_getThis.bind fun _ => frame_failWhen _
  exact Outcome.bind (h.mono (fun _ m' hm => (hgate m').mono (fun _ _ => trans_of _ hm) fun _ _ => trans_of _ hm)
    fun _ _ hm => hm)

theorem frame_syncGate (hs : Silent os R) (hrem : ∀ p, Keeps R (RemoveDirectory os p))
    (hadd : ∀ l i, Keeps R (emit (.OnLnkFileAdded l i) : SysM W PUnit)) {m : Machine W}
    (hstart : Keeps R (emit (.OnSyncStart m.this.m_appMenuPath) : SysM W PUnit)) (flags : UInt32) :
    Outcome (syncGate os flags) m (fun _ => Frame (SameOn noDb) R m) (fun _ => Frame (SameOn noDb) R m) :=
  frame_syncGate_of (frame_OnSyncStart hs hrem hadd hstart) flags

section Update

variable {T : WSLDVCCallback → WSLDVCCallback → Prop} [Std.Refl T] [IsTrans WSLDVCCallback T]

theorem frame_buildPath (hdir : ∀ p, Keeps R (CreateDirectoryW os p)) (root : WString) (group : StringField)
    (name ext : WString) : Preserves (Frame T R) (buildPath os root group name ext) := by
  have hgroup : ∀ path, Preserves (Frame T R) (enterGroup os path group) := fun path =>
    Preserves.ite (fun _ => (frame_okOr _).bind fun _ => (frame_okOr _).bind fun _ =>
      (frame_ensureDirectory (hdir _)).bind fun _ => Preserves.pure _) fun _ => Preserves.pure _
  exact (frame_okOr _).bind fun _ => (frame_ensureDirectory (hdir _)).bind fun _ => (hgroup _).bind fun _ =>
    (frame_okOr _).bind fun _ => (frame_okOr _).bind fun _ => frame_okOr _

theorem frame_registerApp (v : UpdateLocals) : Preserves (Frame (SameOn noDb) R) (registerApp v : Handler W _) :=
  frame_getThis.bind fun _ => (frame_deref _).bind fun _ => (frame_setThis).bind fun _ => frame_check _

theorem keeps_createFiles {v : UpdateLocals} (hicon : has v.updateAppList.flags RDPAPPLIST_FIELD_ICON = true →
    ∀ data, Keeps R (CreateIconFile os data v.iconPath))
    (hlink : ∀ link : ShellLink, link.pathLink = v.linkPath → Keeps R (CreateShellLink os link))
    (t : WSLDVCCallback) : Keeps R (createFiles os v t) :=
  (Keeps.ite (fun hi => hicon hi _) fun _ => Keeps.pure _ : Keeps R (createIcon os v)).bind fun _ =>
    (hlink _ rfl).bind fun _ => Keeps.pure _

section CleanUp

variable (hs : Silent os R) (hdel : ∀ p, Keeps R (DeleteFileW os p)) (hrem : ∀ p, Keeps R (RemoveDirectory os p))
  (hmark : ∀ e, Mark e → e ≠ .LocalFree → Keeps R (emit e : SysM W PUnit))

include hs hdel hrem hmark

theorem keeps_closeSync (cleanupFiles : Bool) (db : WSLDVCFileDB) : Keeps R (closeSync os cleanupFiles db) :=
  (hmark (.OnSyncEnd _) trivial (by simp)).bind fun _ => (Keeps.ite (fun _ =>
    WSLDVCFileDB.keeps_deleteAllFileIdFiles hs hdel hrem db) fun _ => Keeps.pure _ :
      Keeps R (cleanUp os cleanupFiles db)).bind fun _ => hmark (.syncClosed _) trivial (by simp)

theorem frame_OnSyncEnd (cleanupFiles : Bool) (m : Machine W) :
    Frame (SameOn noDb) R m (OnSyncEnd os cleanupFiles m) := by
  unfold OnSyncEnd
  cases m.this.m_spFileDBSync with
  | none => exact refl_of (Frame (SameOn noDb) R) m
  | some db => exact ⟨rfl, keeps_closeSync hs hdel hrem hmark cleanupFiles db m.sys⟩

theorem frame_finishUpdate {v : UpdateLocals} (hicon : has v.updateAppList.flags RDPAPPLIST_FIELD_ICON = true →
    ∀ data, Keeps R (CreateIconFile os data v.iconPath))
    (hlink : ∀ link : ShellLink, link.pathLink = v.linkPath → Keeps R (CreateShellLink os link)) :
    Preserves (Frame (SameOn noDb) R) (registerApp v >>= fun _ => finishUpdate os v) :=
  (frame_registerApp v).bind fun _ => frame_getThis.bind fun _ =>
    (frame_sys (keeps_createFiles hicon hlink _)).bind fun _ => (frame_sys (hmark (.updated _) trivial (by simp))).bind fun _ =>
      (Preserves.ite (fun _ => frame_setThis) fun _ => Preserves.pure _ : Preserves _ (spareReported v _)).bind
        fun _ => Preserves.ite (fun _ => Preserves.update (frame_OnSyncEnd hs hdel hrem hmark true))
          fun _ => Preserves.pure _

end CleanUp

end Update

/-- What follows the reading of an update keeps everything but the databases. -/
theorem frame_takeOver_of (h : OnFiles os R) {m : Machine W} (hsync : Outcome (OnSyncStart os) m
    (fun _ => Frame (SameOn noDb) R m) fun _ => Frame (SameOn noDb) R m) (p : RDPAPPLIST_UPDATE_APPLIST_PDU)
    (icon : RDPAPPLIST_ICON_DATA) :
    Outcome (prepareUpdate os p icon >>= fun v => registerApp v >>= fun _ => finishUpdate os v) m
      (fun _ => Frame (SameOn noDb) R m) (fun _ => Frame (SameOn noDb) R m) := by
  have hrest : Preserves (Frame (SameOn noDb) R) (preparePaths os p icon) :=
    (frame_failWhen _).bind fun _ => (frame_getThis.bind fun _ =>
      Preserves.ite (fun _ => frame_buildPath h.CreateDirectoryW _ _ _ _) fun _ => Preserves.pure _).bind fun _ =>
        (frame_getThis.bind fun _ => frame_buildPath h.CreateDirectoryW _ _ _ _).bind fun _ =>
          (frame_getThis.bind fun _ => (frame_okOr _).bind fun _ => (frame_failWhen _).bind fun _ =>
            Preserves.pure _).bind fun _ => (frame_buildKey _ _).bind fun _ => Preserves.pure _
  have hfinish : ∀ v, Preserves (Frame (SameOn noDb) R) (registerApp v >>= fun _ => finishUpdate os v) := fun v =>
    frame_finishUpdate h.toSilent h.DeleteFileW h.RemoveDirectory h.mark (fun _ _ => h.CreateIconFile _ _)
      fun _ _ => h.CreateShellLink _
  rw [prepareUpdate_eq, bind_assoc]
  refine Outcome.bind ((frame_syncGate_of hsync _).mono (fun _ m₁ h₁ => ?_) fun _ _ hm => hm)
  exact ((hrest.bind hfinish) m₁).mono (fun _ _ hm => trans_of _ h₁ hm) fun _ _ hm => trans_of _ h₁ hm

theorem frame_takeOver_files (h : OnFiles os R) {m : Machine W}
    (hstart : Keeps R (emit (.OnSyncStart m.this.m_appMenuPath) : SysM W PUnit)) (p : RDPAPPLIST_UPDATE_APPLIST_PDU)
    (icon : RDPAPPLIST_ICON_DATA) :
    Outcome (prepareUpdate os p icon >>= fun v => registerApp v >>= fun _ => finishUpdate os v) m
      (fun _ => Frame (SameOn noDb) R m) (fun _ => Frame (SameOn noDb) R m) :=
  frame_takeOver_of h (frame_OnSyncStart h.toSilent h.RemoveDirectory (fun _ _ => h.mark _ trivial (by simp)) hstart) p icon

theorem frame_takeOver (h : BehindReading os R) {m : Machine W}
    (hstart : Keeps R (emit (.OnSyncStart m.this.m_appMenuPath) : SysM W PUnit)) (p : RDPAPPLIST_UPDATE_APPLIST_PDU)
    (icon : RDPAPPLIST_ICON_DATA) :
    Outcome (prepareUpdate os p icon >>= fun v => registerApp v >>= fun _ => finishUpdate os v) m
      (fun _ => Frame (SameOn noDb) R m) (fun _ => Frame (SameOn noDb) R m) :=
  frame_takeOver_files h.onFiles hstart p icon

/-- UPDATE keeps everything but the databases. -/
theorem frame_OnUpdateAppList_of (h : Respected os R) {m : Machine W} (hsync : ∀ m₁ : Machine W, m₁.this = m.this →
    Outcome (OnSyncStart os) m₁ (fun _ => Frame (SameOn noDb) R m₁) fun _ => Frame (SameOn noDb) R m₁) :
    Outcome (OnUpdateAppList os) m (fun _ => Frame (SameOn noDb) R m) (fun _ => Frame (SameOn noDb) R m) := by
  refine Outcome.bind ((frame_ReadUpdateMessage h.LocalAlloc (h.mark _ trivial) m).mono (fun msg m₁ h₁ => ?_)
    fun _ _ hm => hm.mono (fun hm => by rw [SameOn, hm]) id)
  have hm₁ : Frame (SameOn noDb) R m m₁ := h₁.mono (fun hm => by rw [SameOn, hm]) id
  exact (frame_takeOver_of h.behindReading.onFiles (hsync m₁ h₁.1.symm) msg.1 msg.2).mono (fun _ _ hm => trans_of _ hm₁ hm)
    fun _ _ hm => trans_of _ hm₁ hm

theorem Respected.onSyncStart (h : Respected os R) {m : Machine W}
    (hstart : Keeps R (emit (.OnSyncStart m.this.m_appMenuPath) : SysM W PUnit)) (m₁ : Machine W) (hm : m₁.this = m.this) :
    Outcome (OnSyncStart os) m₁ (fun _ => Frame (SameOn noDb) R m₁) fun _ => Frame (SameOn noDb) R m₁ :=
  frame_OnSyncStart h.toSilent h.RemoveDirectory (fun _ _ => h.mark _ trivial) (hm ▸ hstart)

theorem frame_OnUpdateAppList (h : Respected os R) {m : Machine W}
    (hstart : Keeps R (emit (.OnSyncStart m.this.m_appMenuPath) : SysM W PUnit)) :
    Outcome (OnUpdateAppList os) m (fun _ => Frame (SameOn noDb) R m) (fun _ => Frame (SameOn noDb) R m) :=
  frame_OnUpdateAppList_of h (h.onSyncStart hstart)

/-- Any message but an update that is let in moves the system along `R`. -/
theorem keeps_dispatch (h : BehindReading os R) {hd : RDPAPPLIST_HEADER} {m : Machine W}
    (hcmd : hd.cmdId = RDPAPPLIST_CMDID_UPDATE_APPLIST → m.this.m_handShakeComplated = false) :
    Outcome (dispatch os hd) m (fun _ m' => R m.sys m'.sys) (fun _ m' => R m.sys m'.sys) := by
  refine outcome_dispatch os (refl_of R m.sys) (fun _ => ?_) (fun hc hk => ?_) (fun _ => ?_) fun _ => ?_
  · exact (frame_OnCaps h.toSilent h.CreateDirectoryW h.ChannelWrite m).mono (fun _ _ => And.right) fun _ _ => And.right
  · exact Bool.noConfusion (hk.symm.trans (hcmd hc))
  · exact (frame_OnDeleteAppList h.DeleteFileW (fun _ _ _ => h.mark _ trivial (by simp)) m).mono (fun _ _ => And.right)
      fun _ _ => And.right
  · exact (frame_OnAssociateWindowId h.toSilent h.SetValue m).mono (fun _ _ => And.right) fun _ _ => And.right

/-- Any message moves the system along `R`. -/
theorem keeps_receive_of (h : Respected os R) {m : Machine W} (hsync : ∀ m₁ : Machine W, m₁.this = m.this →
    Outcome (OnSyncStart os) m₁ (fun _ => Frame (SameOn noDb) R m₁) fun _ => Frame (SameOn noDb) R m₁) :
    Outcome (receive os) m (fun _ m' => R m.sys m'.sys) (fun _ m' => R m.sys m'.sys) := by
  refine outcome_receive os (refl_of R m.sys) ?_ (fun _ => ?_) (fun _ => ?_) fun _ => ?_
  · exact (frame_OnCaps h.toSilent h.CreateDirectoryW h.ChannelWrite m).mono (fun _ _ => And.right) fun _ _ => And.right
  · exact (frame_OnUpdateAppList_of h hsync).mono (fun _ _ => And.right) fun _ _ => And.right
  · exact (frame_OnDeleteAppList h.DeleteFileW (fun _ _ _ => h.mark _ trivial) m).mono (fun _ _ => And.right)
      fun _ _ => And.right
  · exact (frame_OnAssociateWindowId h.toSilent h.SetValue m).mono (fun _ _ => And.right) fun _ _ => And.right

theorem keeps_receive (h : Respected os R) {m : Machine W}
    (hstart : Keeps R (emit (.OnSyncStart m.this.m_appMenuPath) : SysM W PUnit)) :
    Outcome (receive os) m (fun _ m' => R m.sys m'.sys) (fun _ m' => R m.sys m'.sys) :=
  keeps_receive_of h (h.onSyncStart hstart)

theorem frame_OnClose (h : BehindReading os R) {m m' : Machine W} (hc : OnClose os m = some m') : R m.sys m'.sys := by
  have hend := (frame_OnSyncEnd h.toSilent h.DeleteFileW h.RemoveDirectory h.mark false
    { m with this := { m.this with m_bChannelClosed := true } }).2
  obtain ⟨_, _, rfl, -, rfl⟩ := OnClose_some hc
  exact hend

/-- A run moves the system along `R` from where it started. -/
theorem Reachable.keeps_of (h : Respected os R) (hsync : Preserves (Frame (SameOn noDb) R) (OnSyncStart os))
    {Ok : Reading (Machine W) → Prop} {m : Machine W} (hr : Reachable os Ok m) : ∃ w, R ⟨w, []⟩ m.sys :=
  hr.invariant (I := fun m => ∃ w, R ⟨w, []⟩ m.sys) (fun w => ⟨w, refl_of R _⟩)
    (fun _ _ _ _ ⟨w, hw⟩ => ⟨w, trans_of R hw ((keeps_receive_of h fun m₁ _ => hsync m₁).final rfl)⟩)
    fun _ _ hc ⟨w, hw⟩ => ⟨w, trans_of R hw (frame_OnClose h.behindReading hc)⟩

theorem Reachable.keeps (h : Respected os R) (hstart : ∀ p, Keeps R (emit (.OnSyncStart p) : SysM W PUnit))
    {Ok : Reading (Machine W) → Prop} {m : Machine W} (hr : Reachable os Ok m) : ∃ w, R ⟨w, []⟩ m.sys :=
  hr.keeps_of h fun _ => h.onSyncStart (hstart _) _ rfl

end Messages

/-! ## The members of the callback -/

/-- A message other than CAPS keeps everything but the databases. -/
theorem noDb_dispatch (os : OS W) {h : RDPAPPLIST_HEADER} (hcaps : h.cmdId ≠ RDPAPPLIST_CMDID_CAPS) :
    Preserves (fun m m' : Machine W => SameOn noDb m.this m'.this) (dispatch os h) := by
  intro m
  have hos := anyCall os
  refine outcome_dispatch os (P := fun m' => SameOn noDb m.this m'.this) rfl (fun hc => (hcaps hc).elim) (fun _ _ => ?_)
    (fun _ => ?_) fun _ => ?_
  · exact (frame_OnUpdateAppList hos (appends_emit trivial)).mono (fun _ _ => And.left) fun _ _ => And.left
  · exact (frame_OnDeleteAppList hos.DeleteFileW (fun _ _ _ => appends_emit trivial) m).mono (fun _ _ => And.left)
      fun _ _ => And.left
  · refine (frame_OnAssociateWindowId hos.toSilent hos.SetValue m).mono (fun _ _ hm => ?_) fun _ _ hm => ?_
    · rw [SameOn, hm.1]
    · rw [SameOn, hm.1]

theorem noDb_receive (os : OS W) {s : Reading (Machine W)}
    (hcaps : ∀ h t, readHeader s = .ok h t → h.cmdId ≠ RDPAPPLIST_CMDID_CAPS) :
    SameOn noDb s.out.this (finalState (receive os s)).out.this := by
  cases hh : readHeader s with
  | error x t =>
    rw [receive_error os hh]
    exact congrArg _ (congrArg _ (out_readHeader_error hh))
  | ok h t =>
    rw [receive_ok os hh, ← out_readHeader_ok hh]
    exact (noDb_dispatch os (hcaps h t hh) t.out).final rfl

/-- Handlers leave the channel as it is, open or closed. -/
theorem closed_dispatch (os : OS W) (h : RDPAPPLIST_HEADER) :
    Preserves (fun m m' : Machine W => m'.this.m_bChannelClosed = m.this.m_bChannelClosed) (dispatch os h) := by
  intro m
  by_cases hcaps : h.cmdId = RDPAPPLIST_CMDID_CAPS
  · have hos := anyCall os
    rw [dispatch, if_pos hcaps]
    exact (frame_OnCaps hos.toSilent hos.CreateDirectoryW hos.ChannelWrite m).mono
      (fun _ _ h => h.1.map (·.2.2) fun _ => rfl) fun _ _ h => h.1.map (·.2.2) fun _ => rfl
  · exact (noDb_dispatch os hcaps m).mono (fun _ _ h => h.map (·.m_bChannelClosed) fun _ => rfl)
      fun _ _ h => h.map (·.m_bChannelClosed) fun _ => rfl

theorem closed_receive (os : OS W) {s t : Reading (Machine W)} (h : receive os s = .ok ⟨⟩ t) :
    t.out.this.m_bChannelClosed = s.out.this.m_bChannelClosed := by
  cases hh : readHeader s with
  | error x u =>
    rw [receive_error os hh] at h
    cases h
  | ok hd u =>
    rw [receive_ok os hh] at h
    exact (closed_dispatch os hd s.out).of_ok (out_readHeader_ok hh) h

/-- Closing keeps everything but the databases and the flag of the channel. -/
theorem members_OnClose {m m' : Machine W} (hc : OnClose os m = some m') : SameOn noChannel m.this m'.this := by
  have hR := anyCall os
  have hend := (frame_OnSyncEnd hR.toSilent hR.DeleteFileW hR.RemoveDirectory hR.behindReading.mark false
    { m with this := { m.this with m_bChannelClosed := true } }).1
  have hend' := hend.map (fun t => { t with m_bChannelClosed := false }) (f := noChannel) fun _ => rfl
  obtain ⟨_, _, rfl, -, rfl⟩ := OnClose_some hc
  exact hend'

end Wslg
