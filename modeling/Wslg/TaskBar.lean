import Wslg.Database
import Wslg.Keys
import Wslg.Framing
import Wslg.IconBuffers
/-!
# The task bar

ASSOCIATE_WINDOW_ID tells a window how the app behind it is relaunched. The icon
comes from the registry and only from there, and so does the command line unless
the target of the link was longer than its array when the app was registered.
Whatever can be pinned to the task bar is an app with a link that the client
wrote itself.
-/

open Lib Lib.TraceM

namespace Wslg

open Client WSLDVCCallback

variable {W : Type}

/-! ## What a window is told -/

/-- What a window is told; without all three it is told not to be pinned. -/
def windowProperties (cmd desc icon : WString) : List WindowProperty :=
  if cmd = [] ∨ desc = [] ∨ icon = [] then [.PreventPinning]
  else [.RelaunchDisplayNameResource desc, .RelaunchIconResource icon, .RelaunchCommand cmd]

/-- The command line of the server, for an app without one here. -/
def serverCommand (t : WSLDVCCallback) (p : RDPAPPLIST_ASSOCIATE_WINDOW_ID_PDU) : WString :=
  if p.appExecPath.str = [] then [] else
    t.m_expandedPathObj ++ L " -d " ++ t.m_appProvider.str ++ L " --cd \"~\" -- " ++ p.appExecPath.str

/-- The command line that is built for the app. A target that was not terminated in its array is not copied out,
as if there were no entry. -/
def builtCommand (t : WSLDVCCallback) (e : Option fileEntry) (p : RDPAPPLIST_ASSOCIATE_WINDOW_ID_PDU) : WString :=
  match e with
  | some e => if e.m_exeFilePath.length < MAX_PATH then e.m_exeFilePath ++ L " " ++ e.m_exeFileArgs else serverCommand t p
  | none => serverCommand t p

/-- Only an app that is registered has an icon. -/
def entryIcon : Option fileEntry → WString
  | some e => e.m_iconFilePath
  | none => []

/-- Set the properties of the first window that has the id, up to the first that fails. -/
def tellWindow (os : OS W) (windowId : UInt64) (props : List WindowProperty) : SysM W PUnit := do
  let windows ← call os.EnumWindows
  match windows.find? (·.2 = windowId) with
  | none => pure ⟨⟩
  | some w => do
    if ← call (os.SHGetPropertyStoreForWindow w.1) then SetValues os w.1 props

theorem FindWslgWindow_eq (os : OS W) (windowId : UInt64) (cmd name icon : Option WString) (windows : List (HWND × UInt64)) :
    FindWslgWindow os windowId cmd name icon windows =
      match windows.find? (·.2 = windowId) with
      | none => pure ⟨⟩
      | some w => UpdateTaskBarInfo os w.1 cmd name icon := by
  induction windows with
  | nil => rfl
  | cons w windows ih =>
    obtain ⟨hwnd, id⟩ := w
    by_cases h : id = windowId
    · simp [FindWslgWindow, h]
    · simp [FindWslgWindow, h, ih]

theorem UpdateTaskBarInfo_eq (os : OS W) (hwnd : HWND) (cmd name icon : WString) :
    UpdateTaskBarInfo os hwnd (nonEmpty cmd) (nonEmpty name) (nonEmpty icon) = (do
      if ← call (os.SHGetPropertyStoreForWindow hwnd) then SetValues os hwnd (windowProperties cmd name icon)) := by
  unfold UpdateTaskBarInfo nonEmpty windowProperties
  by_cases hcmd : cmd = []
  · simp [hcmd]
  by_cases hname : name = []
  · simp [hname]
  by_cases hicon : icon = []
  · simp [hicon]
  · simp [hcmd, hname, hicon]

/-! ## The lookup -/

/-- The icon is copied out before the target, which may not fit. -/
theorem findForAssociate_some {db : WSLDVCFileDB} {key : WString} {e : fileEntry} (hfind : db.find key = some e)
    (h : e.FitsPaths) : findForAssociate db key =
      if e.m_exeFilePath.length < MAX_PATH then (none, ⟨[], e.m_iconFilePath, e.m_exeFilePath, e.m_exeFileArgs⟩)
      else (some .E_FAIL, ⟨[], e.m_iconFilePath, [], []⟩) := by
  obtain ⟨⟨-, hicon⟩, hargs⟩ := h
  unfold findForAssociate
  by_cases hexe : e.m_exeFilePath.length < MAX_PATH
  · simp [WSLDVCFileDB.FindFiles, hfind, WSLDVCFileDB.copyOut, wcscpy_s, hicon, hexe, hargs]
  · simp [WSLDVCFileDB.FindFiles, hfind, WSLDVCFileDB.copyOut, wcscpy_s, hicon, hexe]

theorem findForAssociate_none {db : WSLDVCFileDB} {key : WString} (hfind : db.find key = none) :
    findForAssociate db key = (some .E_FAIL, {}) := by
  simp [findForAssociate, WSLDVCFileDB.FindFiles, hfind]

theorem findForAssociate_icon {db : WSLDVCFileDB} {key : WString} (hfits : ∀ e, db.find key = some e → e.FitsPaths) :
    (findForAssociate db key).2.iconFilePath = entryIcon (db.find key) := by
  cases hfind : db.find key with
  | some e =>
    rw [findForAssociate_some hfind (hfits e hfind)]
    split <;> rfl
  | none =>
    rw [findForAssociate_none hfind]
    rfl

/-- The command line is built if it fits, and changes nothing. -/
theorem relaunchPath_run (t : WSLDVCCallback) (p : RDPAPPLIST_ASSOCIATE_WINDOW_ID_PDU) {db : WSLDVCFileDB} {key : WString}
    (hfits : ∀ e, db.find key = some e → e.FitsPaths) (s : Reading (Machine W)) :
    (relaunchPath t p (findForAssociate db key) : Handler W WString) s =
      if (builtCommand t (db.find key) p).length < MAX_PATH then .ok (builtCommand t (db.find key) p) s
      else .error (.reject (.hr .E_FAIL)) s := by
  have hbuilt : ∀ cmd : WString, cmd ≠ [] → (do
      let exePath ← okOr (swprintf_s MAX_PATH cmd)
      failWhen (exePath == [])
      return exePath : Handler W WString) s =
        if cmd.length < MAX_PATH then .ok cmd s else .error (.reject (.hr .E_FAIL)) s := by
    intro cmd hne
    have hempty : (cmd == []) = false := by simp [hne]
    rw [swprintf_s]
    split
    · show (failWhen (cmd == []) >>= fun _ => pure cmd : Handler W WString) s = _
      rw [hempty]
      rfl
    · rfl
  -- the lookup failed
  have hserver : ∀ found : WSLDVCFileDB.Found, (relaunchPath t p (some .E_FAIL, found) : Handler W WString) s =
      if (serverCommand t p).length < MAX_PATH then .ok (serverCommand t p) s else .error (.reject (.hr .E_FAIL)) s := by
    intro found
    unfold relaunchPath serverCommand
    by_cases hexec : p.appExecPath.str = []
    · simp [hexec, MAX_PATH]
      rfl
    · simp only [Option.isNone_some, Bool.false_eq_true, if_false, ne_eq, hexec, not_false_eq_true, if_true]
      exact hbuilt _ (by simp [L])
  unfold builtCommand
  cases hfind : db.find key with
  | some e =>
    rw [findForAssociate_some hfind (hfits e hfind)]
    by_cases hexe : e.m_exeFilePath.length < MAX_PATH
    · simp only [hexe, if_true]
      exact hbuilt _ (by simp [L])
    · simp only [hexe, if_false]
      exact hserver _
  | none =>
    rw [findForAssociate_none hfind]
    exact hserver _

/-! ## The message -/

/-- The id is not zero, and the key and the command line fit their buffers. -/
structure Associable (m : Machine W) (p : RDPAPPLIST_ASSOCIATE_WINDOW_ID_PDU) : Prop where
  windowId : fullWindowId m.this.m_appProviderGUID p.appWindowId ≠ 0
  key : (keyOf p.appGroup p.appId).length < MAX_PATH
  command : (builtCommand m.this (m.entry (keyOf p.appGroup p.appId)) p).length < MAX_PATH

/-- The machine whose window was told about its app. -/
def associated (os : OS W) (m : Machine W) (p : RDPAPPLIST_ASSOCIATE_WINDOW_ID_PDU) : Machine W :=
  { m with sys := (tellWindow os (fullWindowId m.this.m_appProviderGUID p.appWindowId)
      (windowProperties (builtCommand m.this (m.entry (keyOf p.appGroup p.appId)) p) p.appDesc.str
        (entryIcon (m.entry (keyOf p.appGroup p.appId)))) m.sys).2 }

/-- An app that is not registered is never pinned, whatever command line was built for it. -/
theorem windowProperties_none (cmd desc : WString) : windowProperties cmd desc (entryIcon none) = [.PreventPinning] := by
  simp [windowProperties, entryIcon]

/-- The window is looked for and told. -/
theorem FindWslgWindow_told (os : OS W) (windowId : UInt64) (cmd desc icon : WString) :
    (call os.EnumWindows >>= fun windows => FindWslgWindow os windowId (nonEmpty cmd) (nonEmpty desc) (nonEmpty icon) windows :
      SysM W PUnit) = tellWindow os windowId (windowProperties cmd desc icon) := by
  unfold tellWindow
  simp only [FindWslgWindow_eq, UpdateTaskBarInfo_eq]

/-- What follows the reading of the message. -/
theorem associateWindow_run (os : OS W) {m : Machine W} (hreg : Registered m) (hfits : m.AllEntries fileEntry.FitsPaths)
    (p : RDPAPPLIST_ASSOCIATE_WINDOW_ID_PDU) {s : Reading (Machine W)} (hs : s.out = m) [Decidable (Associable m p)] :
    associateWindow os m.this p s = if Associable m p then .ok ⟨⟩ { s with out := associated os m p }
      else .error (.reject (.hr .E_FAIL)) s := by
  obtain ⟨⟨db, hdb⟩, -⟩ := hreg
  have hentry : m.entry = db.find := Machine.entry_of_some hdb
  have hfind : ∀ e, db.find (keyOf p.appGroup p.appId) = some e → e.FitsPaths := fun e he => hfits _ e (hentry ▸ he)
  have hreject : ∀ {x : Handler W PUnit}, (failWhen true >>= fun _ => x) s = .error (.reject (.hr .E_FAIL)) s := rfl
  unfold associateWindow
  by_cases hid : fullWindowId m.this.m_appProviderGUID p.appWindowId = 0
  · rw [if_neg fun h => h.windowId hid, hid]
    exact hreject
  have hid' : (fullWindowId m.this.m_appProviderGUID p.appWindowId == 0) = false := by simp [hid]
  rw [hid', buildLookupKey_eq]
  show (buildKey p.appGroup p.appId >>= _) s = _
  rw [run_bind, buildKey_run]
  by_cases hkey : (keyOf p.appGroup p.appId).length < MAX_PATH
  · rw [if_pos hkey, hdb]
    show (relaunchPath m.this p (findForAssociate db _) >>= _) s = _
    rw [run_bind, relaunchPath_run m.this p hfind]
    by_cases hcmd : (builtCommand m.this (db.find (keyOf p.appGroup p.appId)) p).length < MAX_PATH
    · rw [if_pos hcmd, if_pos ⟨hid, hkey, hentry ▸ hcmd⟩, associated, hentry, ← findForAssociate_icon hfind, ← FindWslgWindow_told,
        ← hs]
      rfl
    · rw [if_neg hcmd, if_neg fun h => hcmd (hentry ▸ h.command)]
  · rw [if_neg hkey, if_neg fun h => hkey h.key]

theorem accepts_readAssociate {m m' : Machine W} {bs : List BYTE} {q : RDPAPPLIST_ASSOCIATE_WINDOW_ID_PDU} :
    Accepts readAssociate m bs q m' ↔ ∃ p : Server.RDPAPPLIST_ASSOCIATE_WINDOW_ID_PDU,
      bs = p.payload ∧ p.Readable ∧ q = p.received .zero ∧ m' = m := by
  unfold readAssociate
  rw [accepts_onCopy, accepts_onLocal local_ReadAssociateWindowId]
  constructor
  · rintro ⟨⟨_, h⟩, rfl⟩
    obtain ⟨p, hp, hreadable, hq⟩ := accepts_ReadAssociateWindowId.1 h
    exact ⟨p, hp, hreadable, hq, rfl⟩
  · rintro ⟨p, hp, hreadable, hq, rfl⟩
    exact ⟨⟨⟨⟩, accepts_ReadAssociateWindowId.2 ⟨p, hp, hreadable, hq⟩⟩, rfl⟩

theorem accepts_associateWindow (os : OS W) {m m' : Machine W} (hreg : Registered m)
    (hfits : m.AllEntries fileEntry.FitsPaths) {q : RDPAPPLIST_ASSOCIATE_WINDOW_ID_PDU} :
    Accepts (associateWindow os m.this q) m [] ⟨⟩ m' ↔ Associable m q ∧ m' = associated os m q := by
  classical
  constructor
  · intro h
    have heq := h [] []
    rw [associateWindow_run os hreg hfits q rfl] at heq
    split at heq
    · refine ⟨‹_›, ?_⟩
      cases heq
      rfl
    · cases heq
  · rintro ⟨hq, rfl⟩ pre post
    rw [associateWindow_run os hreg hfits q rfl, if_pos hq]
    simp [Reading.between]

theorem outcome_OnAssociateWindowId (os : OS W) {m : Machine W} (hreg : Registered m)
    (hfits : m.AllEntries fileEntry.FitsPaths) :
    Outcome (OnAssociateWindowId os) m (fun _ m' => ∃ q, m' = associated os m q) fun _ m' => m' = m := by
  classical
  refine outcome_getThis_bind (Outcome.bind (outcome_failWhen (fun _ => ?_) fun _ _ => rfl))
  refine Outcome.bind (Outcome.onCopy (Outcome.onLocal (fun q => ?_) fun _ => rfl))
  intro u hu
  unfold Ends
  rw [associateWindow_run os hreg hfits q hu]
  split <;> rename_i heq <;> split at heq <;> cases heq
  · exact ⟨q, rfl⟩
  · exact hu

/-- In every reachable state ASSOCIATE_WINDOW_ID is accepted exactly if it is readable, the version is new enough
and the id, the key and the command line are in order. Then the first window with the id is told what the
registry has for the app, and nothing else happens; a message that is rejected does nothing at all. -/
theorem associate_exact {os : OS W} {m : Machine W} (hr : Reachable os anyMessage m)
    (hopen : m.this.m_bChannelClosed = false) :
    (∀ bs m', Accepts (OnAssociateWindowId os) m bs ⟨⟩ m' ↔ 4 ≤ m.this.m_serverCaps.version ∧
      ∃ p : Server.RDPAPPLIST_ASSOCIATE_WINDOW_ID_PDU, bs = p.payload ∧ p.Readable ∧ Associable m (p.received .zero) ∧
        m' = associated os m (p.received .zero)) ∧
    ∀ s t x, s.out = m → OnAssociateWindowId os s = .error x t → t.out = m := by
  have hreg := hr.registered hopen
  have hfits := hr.fitsPaths
  refine ⟨fun bs m' => ?_, fun s t x hs h => ?_⟩
  · unfold OnAssociateWindowId
    rw [accepts_getThis_bind, accepts_failWhen_bind, accepts_bind_still local_readAssociate (still_associateWindow os _)]
    simp only [accepts_readAssociate, decide_eq_false_iff_not, UInt16.not_lt]
    refine and_congr_right fun _ => ⟨?_, ?_⟩
    · rintro ⟨q, m₁, ⟨p, hp, hreadable, rfl, rfl⟩, h⟩
      exact ⟨p, hp, hreadable, (accepts_associateWindow os hreg hfits).1 h⟩
    · rintro ⟨p, hp, hreadable, h⟩
      exact ⟨_, m, ⟨p, hp, hreadable, rfl, rfl⟩, (accepts_associateWindow os hreg hfits).2 h⟩
  · exact (outcome_OnAssociateWindowId os hreg hfits).of_error hs h

theorem associate_exact_on_disk :
    (∀ bs m', Accepts (OnAssociateWindowId diskOS) channelWithFoo bs ⟨⟩ m' ↔ 4 ≤ channelWithFoo.this.m_serverCaps.version ∧
      ∃ p : Server.RDPAPPLIST_ASSOCIATE_WINDOW_ID_PDU, bs = p.payload ∧ p.Readable ∧
        Associable channelWithFoo (p.received .zero) ∧ m' = associated diskOS channelWithFoo (p.received .zero)) ∧
    ∀ s t x, s.out = channelWithFoo → OnAssociateWindowId diskOS s = .error x t → t.out = channelWithFoo :=
  associate_exact (reachable_channelWithFoo trivial trivial) (by decide +kernel)

/-! ## Where it comes from -/

/-- Events that delete no app and tell no window anything. -/
def Unrelated : Event → Prop
  | .deleted _ _ _ | .SetValue _ _ => False
  | _ => True

/-- The app was taken over with this link, and not deleted since. -/
def LinkedSince (trace : List Event) (link : ShellLink) (u : AppUpdate) : Prop :=
  ∃ before ok after, trace = before ++ .CreateShellLink link ok :: .updated u :: after ∧ link.pathLink = u.linkPath ∧
    ∀ l i, .deleted u.key l i ∉ after

/-- What a window is told about how it is relaunched is the icon of an app that was taken over and not deleted
since, and right behind it the command line of the link of this app, whose target may be too long for it. -/
def Told (before : List Event) (hwnd : HWND) : WindowProperty → Prop
  | .RelaunchIconResource icon => ∃ link u, LinkedSince before link u ∧ u.iconPath = icon
  | .RelaunchCommand cmd => ∃ b link u, before = b ++ [.SetValue hwnd (.RelaunchIconResource u.iconPath)] ∧
      LinkedSince b link u ∧ (link.pathObj.length < MAX_PATH → cmd = link.pathObj ++ L " " ++ link.args)
  | _ => True

def AllTold (trace : List Event) : Prop :=
  EveryAt (fun before e _ => ∀ hwnd prop, e = .SetValue hwnd prop → Told before hwnd prop) trace

/-- Every entry of the registry is a link that was taken over. -/
def Backed (m : Machine W) : Prop := ∀ key e, m.entry key = some e → ∃ link u, LinkedSince m.sys.trace link u ∧ u.key = key ∧
  link.pathObj = e.m_exeFilePath ∧ link.args = e.m_exeFileArgs ∧ u.iconPath = e.m_iconFilePath

/-- The entries are backed, and so was what the windows were told. -/
structure Vouched (m : Machine W) : Prop where
  backed : Backed m
  told : AllTold m.sys.trace

theorem LinkedSince.append {trace evs : List Event} {link : ShellLink} {u : AppUpdate} (h : LinkedSince trace link u)
    (hevs : ∀ l i, .deleted u.key l i ∉ evs) : LinkedSince (trace ++ evs) link u := by
  obtain ⟨before, ok, after, rfl, hlink, hafter⟩ := h
  refine ⟨before, ok, after ++ evs, by simp, hlink, fun l i hmem => ?_⟩
  rcases List.mem_append.1 hmem with hmem | hmem
  · exact hafter l i hmem
  · exact hevs l i hmem

theorem AllTold.append {trace evs : List Event} (h : AllTold trace) (hevs : ∀ e ∈ evs, ∀ hwnd prop, e ≠ .SetValue hwnd prop) :
    AllTold (trace ++ evs) :=
  everyAt_append.2 ⟨h, everyAt_of_forall fun e he _ _ hwnd prop heq => (hevs e he hwnd prop heq).elim⟩

/-- Unrelated events, after which no entry is new. -/
theorem Vouched.unrelated {m m' : Machine W} (h : Vouched m) (hentry : ∀ key e, m'.entry key = some e → m.entry key = some e)
    (hsys : Appends Unrelated m.sys m'.sys) : Vouched m' := by
  obtain ⟨evs, htrace, hevs⟩ := hsys
  refine ⟨fun key e he => ?_, ?_⟩
  · obtain ⟨link, u, htaken, hkey, hfields⟩ := h.backed key e (hentry key e he)
    exact ⟨link, u, htrace ▸ htaken.append fun l i hmem => hevs _ hmem, hkey, hfields⟩
  · rw [htrace]
    refine h.told.append fun e he hwnd prop heq => ?_
    subst heq
    exact hevs _ he

/-! ### Updates -/

section Unrelated

variable (os : OS W)

theorem unrelated_CreateDirectoryW (path : WString) : Keeps (Appends Unrelated) (CreateDirectoryW os path) :=
  appends_CreateDirectoryW os trivial

theorem unrelated_prepareUpdate (p : RDPAPPLIST_UPDATE_APPLIST_PDU) (icon : RDPAPPLIST_ICON_DATA) (m : Machine W) :
    Outcome (prepareUpdate os p icon) m (fun _ m' => Appends Unrelated m.sys m'.sys) fun _ m' => Appends Unrelated m.sys m'.sys := by
  rw [prepareUpdate_eq]
  have hgate := frame_syncGate (m := m) (silent_appends os Unrelated) (fun _ => appends_RemoveDirectory os trivial)
    (fun _ _ => appends_emit trivial) (appends_emit trivial) p.flags
  refine Outcome.bind (hgate.mono (fun _ m₁ h₁ => ?_) fun _ _ h => h.2)
  refine (outcome_preparePaths (R := Appends Unrelated) (m := m₁) p icon fun _ path _ => unrelated_CreateDirectoryW os path).mono
    (fun _ _ h => ?_) fun _ _ h => ?_
  · exact trans_of _ h₁.2 h.2.2
  · exact trans_of _ h₁.2 h.2

theorem unrelated_OnSyncEnd (cleanupFiles : Bool) (m : Machine W) :
    Appends Unrelated m.sys (OnSyncEnd os cleanupFiles m).sys := by
  have hclose : ∀ db, Keeps (Appends Unrelated) (closeSync os cleanupFiles db) := fun db =>
    (appends_emit trivial).bind fun _ => (Keeps.ite (fun _ => WSLDVCFileDB.keeps_deleteAllFileIdFiles (silent_appends os _)
      (fun _ => appends_DeleteFileW os fun _ => trivial) (fun _ => appends_RemoveDirectory os trivial) db)
      fun _ => Keeps.pure _ : Keeps _ (cleanUp os cleanupFiles db)).bind fun _ => appends_emit trivial
  unfold OnSyncEnd
  cases m.this.m_spFileDBSync with
  | none => exact refl_of _ _
  | some db => exact hclose db m.sys

/-- The link is the last thing that is written. -/
theorem createFiles_trace (v : UpdateLocals) (t : WSLDVCCallback) (s : Sys W) : ∃ evs link ok,
    (createFiles os v t s).2.trace = s.trace ++ evs ++ [.CreateShellLink link ok] ∧ (∀ e ∈ evs, Unrelated e) ∧
      link.pathLink = v.linkPath ∧ link.pathObj = t.m_expandedPathObj ∧ link.args = v.exeArgs := by
  have hicon : Keeps (Appends Unrelated) (createIcon os v) :=
    Keeps.ite (fun _ => appends_CreateIconFile os fun _ => trivial) fun _ => Keeps.pure _
  obtain ⟨evs, htrace, hevs⟩ := hicon s
  have hlink : ∀ (l : ShellLink) (sys : Sys W), (CreateShellLink os l sys).2.trace = sys.trace ++
      [.CreateShellLink { l with pathIcon := l.pathIcon.filter (· ≠ []) } (os.SaveShellLink
        { l with pathIcon := l.pathIcon.filter (· ≠ []) } sys.world).1] := fun _ _ => rfl
  refine ⟨evs, ?_, ?_, ?_, hevs, ?_⟩
  rotate_left 2
  · rw [← htrace]
    exact hlink _ _
  · exact ⟨rfl, rfl, rfl⟩

end Unrelated

/-- A new entry is backed by the link that is written for it, and the others stay. -/
theorem vouched_finishUpdate (os : OS W) {v : UpdateLocals} {m : Machine W}
    (hbacked : ∀ key e, m.entry key = some e → key ≠ v.key → ∃ link u, LinkedSince m.sys.trace link u ∧ u.key = key ∧
      link.pathObj = e.m_exeFilePath ∧ link.args = e.m_exeFileArgs ∧ u.iconPath = e.m_iconFilePath)
    (hnew : ∀ e, m.entry v.key = some e → e.m_exeFilePath = m.this.m_expandedPathObj ∧ e.m_exeFileArgs = v.exeArgs ∧
      e.m_iconFilePath = v.iconPath)
    (htold : AllTold m.sys.trace) : Outcome (finishUpdate os v) m (fun _ => Vouched) fun _ _ => False := by
  obtain ⟨evs, link, ok, htrace, hevs, hpath, hobj, hargs⟩ := createFiles_trace os v m.this m.sys
  refine outcome_getThis_bind (outcome_sys_bind (outcome_sys_bind ?_))
  -- behind the note that the app is taken over
  generalize hm₁ : ({ m with sys := _ } : Machine W) = m₁
  have hentry : m₁.entry = m.entry := by
    subst hm₁
    rfl
  have htrace₁ : ∃ u : AppUpdate, m₁.sys.trace = m.sys.trace ++ evs ++ [.CreateShellLink link ok] ++ [.updated u] ∧
      u.key = v.key ∧ u.linkPath = v.linkPath ∧ u.iconPath = v.iconPath := by
    subst hm₁
    refine ⟨?_, ?_, ?_⟩
    rotate_left
    · rw [← htrace]
      rfl
    · exact ⟨rfl, rfl, rfl⟩
  obtain ⟨u, htrace₁, hkey, hlinkPath, hiconPath⟩ := htrace₁
  have hvouched : Vouched m₁ := by
    refine ⟨fun key e he => ?_, ?_⟩
    · rw [hentry] at he
      rw [htrace₁]
      by_cases hk : key = v.key
      · subst hk
        obtain ⟨hexe, heargs, hicon⟩ := hnew e he
        refine ⟨link, u, ⟨m.sys.trace ++ evs, ok, [], by simp, hpath.trans hlinkPath.symm, by simp⟩, hkey,
          hobj.trans hexe.symm, hargs.trans heargs.symm, hiconPath.trans hicon.symm⟩
      · obtain ⟨l, u', hlinked, hrest⟩ := hbacked key e he hk
        refine ⟨l, u', ?_, hrest⟩
        rw [List.append_assoc, List.append_assoc]
        refine hlinked.append fun l i hmem => ?_
        simp only [List.mem_append, List.mem_singleton, reduceCtorEq, or_false] at hmem
        exact hevs _ hmem
    · rw [htrace₁, List.append_assoc, List.append_assoc]
      refine htold.append fun e he hwnd prop heq => ?_
      subst heq
      simp only [List.mem_append, List.mem_singleton, reduceCtorEq, or_false, or_self] at he
      exact hevs _ he
  -- sparing and cleaning up changes neither
  have hspare : Outcome (spareReported v (createFiles os v m.this m.sys).1.2) m₁
      (fun _ m' => m'.this.m_spFileDB = m₁.this.m_spFileDB ∧ m'.sys = m₁.sys) fun _ _ => False :=
    Outcome.ite (fun _ => Outcome.update_iff.2 ⟨rfl, rfl⟩) fun _ => Outcome.pure_iff.2 ⟨rfl, rfl⟩
  refine Outcome.bind (hspare.mono (fun _ m₂ h₂ => ?_) fun _ _ h => h)
  have hsame : ∀ m' : Machine W, m'.this.m_spFileDB = m₁.this.m_spFileDB → ∀ key e, m'.entry key = some e →
      m₁.entry key = some e := by
    intro m' hdb key e he
    rwa [Machine.entry_of_same hdb] at he
  refine Outcome.ite (fun _ => Outcome.update_iff.2 ?_) fun _ => Outcome.pure_iff.2 ?_
  · have hend := unrelated_OnSyncEnd os true m₂
    have hdb : (OnSyncEnd os true m₂).this.m_spFileDB = m₂.this.m_spFileDB :=
      (noSync_OnSyncEnd os true m₂).map (·.m_spFileDB) fun _ => rfl
    rw [h₂.2] at hend
    exact hvouched.unrelated (hsame _ (hdb.trans h₂.1)) hend
  · exact hvouched.unrelated (hsame _ h₂.1) (h₂.2 ▸ refl_of _ _)

/-- An app is registered if the registry has no other entry under its key. -/
theorem vouched_registerApp (os : OS W) {v : UpdateLocals} {m : Machine W} (h : Vouched m) :
    Outcome (registerApp v >>= fun _ => finishUpdate os v) m (fun _ => Vouched) fun _ => Vouched := by
  refine Outcome.bind (outcome_getThis_bind (Outcome.bind (outcome_deref (fun db hdb => ?_) fun _ _ => h)))
  have hentry : m.entry = db.find := Machine.entry_of_some hdb
  refine Outcome.bind (Outcome.update_iff.2 ?_)
  rw [WSLDVCFileDB.OnFileAdded_snd]
  refine outcome_check (fun hadded => ?_) fun hrefused _ => ?_
  · have hfind := WSLDVCFileDB.find_insert_accepted hadded
    refine Outcome.mono (vouched_finishUpdate os (fun key e he hk => ?_) (fun e he => ?_) ?_) (fun _ _ h => h)
      fun _ _ h => h.elim
    · refine h.backed key e ?_
      rw [Machine.entry, Option.bind_some, hfind, Function.update_of_ne hk] at he
      exact hentry ▸ he
    · rw [Machine.entry, Option.bind_some, hfind, Function.update_self] at he
      cases he
      exact ⟨rfl, rfl, rfl⟩
    · exact h.told
  -- a registry that refuses the entry is as before
  · refine ⟨fun key e he => h.backed key e ?_, h.told⟩
    rw [Machine.entry, Option.bind_some, WSLDVCFileDB.insert_of_conflict hrefused] at he
    exact hentry ▸ he

theorem Vouched.frame {m m' : Machine W} (h : Vouched m) (hdb : m'.this.m_spFileDB = m.this.m_spFileDB)
    (hsys : Appends Unrelated m.sys m'.sys) : Vouched m' := by
  refine h.unrelated (fun key e he => ?_) hsys
  rwa [Machine.entry_of_same hdb] at he

theorem vouched_OnUpdateAppList (os : OS W) {m : Machine W} (h : Vouched m) :
    Outcome (OnUpdateAppList os) m (fun _ => Vouched) fun _ => Vouched := by
  have hread := frame_ReadUpdateMessage (R := Appends Unrelated) (fun _ => appends_LocalAlloc os fun _ => trivial)
    (appends_emit trivial) m
  refine Outcome.bind (hread.mono (fun msg m₁ h₁ => ?_) fun _ m₁ h₁ => h.frame (h₁.1 ▸ rfl) h₁.2)
  have hm₁ : Vouched m₁ := h.frame (h₁.1 ▸ rfl) h₁.2
  have hprep := (unrelated_prepareUpdate os msg.1 msg.2 m₁).and (outcome_prepareUpdate os msg.1 msg.2 m₁)
  refine Outcome.bind (hprep.mono (fun v m₂ h₂ => ?_) fun _ m₂ h₂ => ?_)
  · exact vouched_registerApp os (hm₁.frame (h₂.2.2.map (·.m_spFileDB) fun _ => rfl) h₂.1)
  · exact hm₁.frame (h₂.2.map (·.m_spFileDB) fun _ => rfl) h₂.1

/-! ### The other messages -/

/-- An app that is deleted backs nothing any more. -/
theorem Vouched.deletes {os : OS W} {m m' : Machine W} (h : Vouched m) {p : RDPAPPLIST_DELETE_APPLIST_PDU}
    (hdel : Deletes os m p m') : Vouched m' := by
  obtain ⟨db, e, hdb, -, rfl⟩ := hdel
  have hentry : m.entry = db.find := Machine.entry_of_some hdb
  have hfile : ∀ path, Keeps (Appends Unrelated) (deleteRecorded os path : SysM W PUnit) := fun path =>
    Keeps.ite (fun _ => (appends_DeleteFileW os fun _ => trivial).bind fun _ => Keeps.pure _) fun _ => Keeps.pure _
  obtain ⟨evs, htrace, hevs⟩ := ((hfile e.m_linkFilePath).bind fun _ => hfile e.m_iconFilePath) m.sys
  generalize keyOf p.appGroup p.appId = key at *
  have htrace' : (deleteEntry os key e m.sys).2.trace = m.sys.trace ++ (evs ++ [.deleted key e.m_linkFilePath e.m_iconFilePath]) := by
    rw [← List.append_assoc, ← htrace]
    rfl
  refine ⟨fun k a ha => ?_, ?_⟩
  · rw [Machine.entry, Option.bind_some, KeyedSet.find_erase_eq, Function.update_apply] at ha
    split at ha
    · cases ha
    · rename_i hne
      obtain ⟨link, u, hlinked, hkey, hfields⟩ := h.backed k a (hentry ▸ ha)
      refine ⟨link, u, ?_, hkey, hfields⟩
      show LinkedSince (deleteEntry os key e m.sys).2.trace link u
      rw [htrace']
      refine hlinked.append fun l i hmem => ?_
      rcases List.mem_append.1 hmem with hmem | hmem
      · exact hevs _ hmem
      · cases List.mem_singleton.1 hmem
        exact hne hkey.symm
  · show AllTold (deleteEntry os key e m.sys).2.trace
    rw [htrace']
    refine h.told.append fun x hx hwnd prop heq => ?_
    subst heq
    simp only [List.mem_append, List.mem_singleton, reduceCtorEq, or_false] at hx
    exact hevs _ hx

theorem SetValues_trace (os : OS W) (hwnd : HWND) (props : List WindowProperty) (s : Sys W) :
    Yields (SetValues os hwnd props) s fun _ t => ∃ told, told <+: props ∧ t.trace = s.trace ++ told.map (.SetValue hwnd) := by
  induction props generalizing s with
  | nil => exact ⟨[], List.nil_prefix, by simp [SetValues]⟩
  | cons prop props ih =>
    have hset : Yields (SetValue os hwnd prop >>= fun ok => if ok = true then SetValues os hwnd props else pure ⟨⟩)
        (call (os.InitPropVariant prop) s).2 fun _ t => ∃ told, told <+: prop :: props ∧
          t.trace = s.trace ++ told.map (.SetValue hwnd) := by
      have hone : Yields (SetValue os hwnd prop) (call (os.InitPropVariant prop) s).2 fun _ t =>
          t.trace = s.trace ++ [.SetValue hwnd prop] := rfl
      refine hone.bind fun ok t ht => Yields.ite (fun _ => ?_) fun _ => ?_
      · refine (ih t).mono fun _ u h => ?_
        obtain ⟨told, hpre, htrace⟩ := h
        exact ⟨prop :: told, (List.prefix_cons_inj prop).2 hpre, by simpa [ht] using htrace⟩
      · exact Yields.pure ⟨[prop], (List.prefix_cons_inj prop).2 List.nil_prefix, ht⟩
    exact Yields.call_bind (Yields.ite (fun _ => hset) fun _ => Yields.pure ⟨[], List.nil_prefix, by simp⟩)

theorem tellWindow_trace (os : OS W) (windowId : UInt64) (props : List WindowProperty) (s : Sys W) :
    Yields (tellWindow os windowId props) s fun _ t => ∃ hwnd told, told <+: props ∧
      t.trace = s.trace ++ told.map (.SetValue hwnd) := by
  have hnone : ∀ (hwnd : HWND) (w : W), ∃ hwnd told, told <+: props ∧ (⟨w, s.trace⟩ : Sys W).trace = s.trace ++
      told.map (.SetValue hwnd) := fun hwnd _ => ⟨hwnd, [], List.nil_prefix, by simp⟩
  refine Yields.call_bind ?_
  generalize (os.EnumWindows s.world).1.find? (·.2 = windowId) = found
  cases found with
  | none => exact Yields.pure (hnone 0 _)
  | some w =>
    refine Yields.call_bind (Yields.ite (fun _ => ?_) fun _ => Yields.pure (hnone w.1 _))
    exact (SetValues_trace os w.1 props _).mono fun _ _ h => ⟨w.1, h⟩

theorem builtCommand_some {t : WSLDVCCallback} {e : fileEntry} {p : RDPAPPLIST_ASSOCIATE_WINDOW_ID_PDU}
    (h : e.m_exeFilePath.length < MAX_PATH) : builtCommand t (some e) p = e.m_exeFilePath ++ L " " ++ e.m_exeFileArgs := if_pos h

/-- What the window is told is vouched for by the entry. -/
theorem told_properties {trace : List Event} {e : Option fileEntry} (htold : AllTold trace)
    (hbacked : ∀ a, e = some a → ∃ link u, LinkedSince trace link u ∧ link.pathObj = a.m_exeFilePath ∧
      link.args = a.m_exeFileArgs ∧ u.iconPath = a.m_iconFilePath) {t : WSLDVCCallback}
    {p : RDPAPPLIST_ASSOCIATE_WINDOW_ID_PDU} {desc : WString} {told : List WindowProperty}
    (hpre : told <+: windowProperties (builtCommand t e p) desc (entryIcon e)) (hwnd : HWND) :
    AllTold (trace ++ told.map (.SetValue hwnd)) := by
  obtain ⟨rest, hrest⟩ := hpre
  have hall : EveryAt (fun a x _ => ∀ hwnd prop, x = .SetValue hwnd prop → Told (trace ++ a) hwnd prop)
      ((windowProperties (builtCommand t e p) desc (entryIcon e)).map (.SetValue hwnd)) := by
    have hpin : EveryAt (fun a x _ => ∀ hwnd prop, x = .SetValue hwnd prop → Told (trace ++ a) hwnd prop)
        [Event.SetValue hwnd .PreventPinning] := by
      refine everyAt_singleton.2 fun h prop heq => ?_
      cases heq
      trivial
    cases e with
    | none =>
      rw [windowProperties_none]
      exact hpin
    | some a =>
      obtain ⟨link, u, hlinked, hobj, hargs, hicon⟩ := hbacked a rfl
      unfold windowProperties
      rw [entryIcon]
      split
      · exact hpin
      -- the name, the icon and the command line, in this order
      · refine everyAt_cons.2 ⟨fun h prop heq => ?_, everyAt_cons.2 ⟨fun h prop heq => ?_, everyAt_singleton.2 fun h prop heq => ?_⟩⟩
        · cases heq
          trivial
        · cases heq
          exact ⟨link, u, hlinked.append (by simp), hicon⟩
        · cases heq
          refine ⟨trace ++ [.SetValue hwnd (.RelaunchDisplayNameResource desc)], link, u, ?_, hlinked.append (by simp), fun hlen => ?_⟩
          · simp [hicon]
          · rw [hobj] at hlen ⊢
            rw [builtCommand_some hlen, hargs]
  refine everyAt_append.2 ⟨htold.mono fun _ _ _ h => h, fun a x b hsplit => hall a x (b ++ rest.map (.SetValue hwnd)) ?_⟩
  rw [← hrest, List.map_append, hsplit, List.append_assoc, List.cons_append]

theorem Vouched.associated {os : OS W} {m : Machine W} (h : Vouched m) (p : RDPAPPLIST_ASSOCIATE_WINDOW_ID_PDU) :
    Vouched (associated os m p) := by
  obtain ⟨hwnd, told, hpre, htrace⟩ := tellWindow_trace os (fullWindowId m.this.m_appProviderGUID p.appWindowId)
    (windowProperties (builtCommand m.this (m.entry (keyOf p.appGroup p.appId)) p) p.appDesc.str
      (entryIcon (m.entry (keyOf p.appGroup p.appId)))) m.sys
  have hsys : (Wslg.associated os m p).sys.trace = m.sys.trace ++ told.map (.SetValue hwnd) := htrace
  refine ⟨fun key e he => ?_, ?_⟩
  · obtain ⟨link, u, hlinked, hrest⟩ := h.backed key e he
    exact ⟨link, u, hsys ▸ hlinked.append (by simp), hrest⟩
  · rw [hsys]
    refine told_properties h.told (fun a ha => ?_) hpre hwnd
    obtain ⟨link, u, hlinked, -, hrest⟩ := h.backed _ a ha
    exact ⟨link, u, hlinked, hrest⟩

/-! ### The run -/

theorem vouched_receive {os : OS W} {m : Machine W} (hreg : Registered m) (hfits : m.AllEntries fileEntry.FitsPaths)
    (h : Vouched m) : Outcome (receive os) m (fun _ => Vouched) fun _ => Vouched := by
  refine outcome_receive os h ?_ (fun _ => vouched_OnUpdateAppList os h) (fun _ => ?_) fun _ => ?_
  · have hcaps := frame_OnCaps (silent_appends os Unrelated) (unrelated_CreateDirectoryW os)
      (fun _ => appends_ChannelWrite os trivial) m
    have hsame : ∀ m' : Machine W, Frame (SameOn dbs) (Appends Unrelated) m m' → Vouched m' := fun m' hm =>
      h.frame (hm.1.map (·.1) fun _ => rfl) hm.2
    exact hcaps.mono (fun _ => hsame) fun _ => hsame
  · exact (outcome_OnDeleteAppList os m).mono (fun _ _ ⟨_, hdel⟩ => h.deletes hdel) fun _ _ hm => hm ▸ h
  · exact (outcome_OnAssociateWindowId os hreg hfits).mono (fun _ _ ⟨q, hq⟩ => hq ▸ h.associated q) fun _ _ hm => hm ▸ h

theorem Vouched.closed {os : OS W} {m m' : Machine W} (h : Vouched m) (hclose : OnClose os m = some m') : Vouched m' := by
  obtain ⟨_, db, rfl, -, rfl⟩ := OnClose_some hclose
  refine h.unrelated (fun key e he => ?_) (unrelated_OnSyncEnd os false { m with this := { m.this with m_bChannelClosed := true } })
  cases he

theorem Reachable.vouched {os : OS W} {m : Machine W} (h : Reachable os anyMessage m) : Vouched m := by
  induction h with
  | fresh w => exact ⟨fun _ _ he => (by cases he), everyAt_nil⟩
  | message hr _ hopen _ ih => exact (vouched_receive (hr.registered hopen) hr.fitsPaths ih).final rfl
  | close _ hclose ih => exact ih.closed hclose

/-- Whatever messages arrive, in whatever order, a window is only ever told the icon of an app that was taken over
and not deleted since, and behind it the command line of the link that was written for this app, if its target fits. -/
theorem relaunch_from_link {os : OS W} {m : Machine W} (hr : Reachable os anyMessage m)
    {before after : List Event} {hwnd : HWND} {prop : WindowProperty} (h : m.sys.trace = before ++ .SetValue hwnd prop :: after) :
    Told before hwnd prop :=
  hr.vouched.told before _ after h hwnd prop rfl

/-- The disk, with a window on the desktop. -/
def desktopOS : OS Disk := { diskOS with
  EnumWindows := fun w => ([(7, fullWindowId ⟨0x1d3b7a52⟩ 5)], w)
  SHGetPropertyStoreForWindow := fun _ w => (true, w) }

def associateMessage (windowId : UInt32) (id desc : WString) : List BYTE :=
  packet RDPAPPLIST_CMDID_ASSOCIATE_WINDOW_ID
    (le32 (RDPAPPLIST_FIELD_WINDOW_ID ||| RDPAPPLIST_FIELD_ID ||| RDPAPPLIST_FIELD_DESC) ++ le32 windowId ++
      strBytes (utf16 id) ++ strBytes (utf16 desc))

def desktopRun : Machine Disk :=
  (OnDataReceived desktopOS (capsMessage (L "U") ++ iconMessage ++ associateMessage 5 (L "a") (L "foo")) (.fresh [])).machine

theorem reachable_desktopRun : Reachable desktopOS anyMessage desktopRun :=
  reachable_OnDataReceived _ (fun _ _ => trivial) (.fresh [])

/-- The last thing that the window is told is the command line. -/
theorem relaunch_from_link_on_desktop : ∃ before cmd, desktopRun.sys.trace = before ++ [.SetValue 7 (.RelaunchCommand cmd)] ∧
    Told before 7 (.RelaunchCommand cmd) := by
  have hlast : desktopRun.sys.trace.getLast? =
      some (.SetValue 7 (.RelaunchCommand (L "C:\\W\\wslg.exe -d U --cd \"~\" -- x"))) := by decide +kernel
  obtain ⟨before, htrace⟩ := List.getLast?_eq_some_iff.1 hlast
  exact ⟨before, _, htrace, relaunch_from_link reachable_desktopRun htrace⟩

end Wslg
