import Wslg.Registry
/-!
# The registry and the server

The registry keeps what it has for a key: an update that says something else of
a registered app is rejected. So it follows the server as long as the updates of
registered apps repeat what is registered.
-/

open Lib Lib.TraceM

namespace Wslg

open Client WSLDVCCallback

variable {W : Type}

/-! ## What the server means -/

/-- A message about an app. -/
inductive AppMessage where
  | update (p : RDPAPPLIST_UPDATE_APPLIST_PDU)
  | delete (p : RDPAPPLIST_DELETE_APPLIST_PDU)

def AppMessage.key : AppMessage → WString
  | .update p => keyOf p.appGroup p.appId
  | .delete p => keyOf p.appGroup p.appId

/-- What an update says of its app. -/
def entryOf (t : WSLDVCCallback) (p : RDPAPPLIST_UPDATE_APPLIST_PDU) : fileEntry where
  m_fileId := keyOf p.appGroup p.appId
  m_linkFilePath := t.m_appMenuPath ++ pathSuffix p.appGroup p.appDesc.str (L ".lnk")
  m_iconFilePath :=
    if has p.flags RDPAPPLIST_FIELD_ICON then t.m_iconPath ++ pathSuffix p.appGroup p.appId.str (L ".ico") else []
  m_exeFilePath := t.m_expandedPathObj
  m_exeFileArgs := exeArgsOf t.m_appProvider.str p

/-- Create or update, and delete. -/
def follow (t : WSLDVCCallback) (registry : WString → Option fileEntry) : AppMessage → WString → Option fileEntry
  | .update p => Function.update registry (keyOf p.appGroup p.appId) (some (entryOf t p))
  | .delete p => Function.update registry (keyOf p.appGroup p.appId) none

/-- The last update of an app counts if no message about it follows. -/
theorem foldl_follow_last (t : WSLDVCCallback) (registry : WString → Option fileEntry) (before after : List AppMessage)
    (p : RDPAPPLIST_UPDATE_APPLIST_PDU) (h : ∀ x ∈ after, x.key ≠ keyOf p.appGroup p.appId) :
    (before ++ .update p :: after).foldl (follow t) registry (keyOf p.appGroup p.appId) = some (entryOf t p) := by
  have hkeep : ∀ (r : WString → Option fileEntry) (xs : List AppMessage), (∀ x ∈ xs, x.key ≠ keyOf p.appGroup p.appId) →
      xs.foldl (follow t) r (keyOf p.appGroup p.appId) = r (keyOf p.appGroup p.appId) := by
    intro r xs hxs
    induction xs generalizing r with
    | nil => rfl
    | cons x xs ih =>
      obtain ⟨hx, hxs⟩ := List.forall_mem_cons.1 hxs
      rw [List.foldl_cons, ih _ hxs]
      cases x with
      | update q => exact Function.update_of_ne hx.symm _ _
      | delete q => exact Function.update_of_ne hx.symm _ _
  rw [List.foldl_append, List.foldl_cons, hkeep _ _ h]
  exact Function.update_self _ _ _

/-- An update of an app that `registry` has says the same again. -/
def Repeats (t : WSLDVCCallback) (registry : WString → Option fileEntry) : AppMessage → Prop
  | .update p => ∀ e, registry (keyOf p.appGroup p.appId) = some e → e = entryOf t p
  | .delete _ => True

/-! ## The members other than the sync database -/

def WSLDVCCallback.noSync (t : WSLDVCCallback) : WSLDVCCallback := { t with m_spFileDBSync := none }

theorem SameOn.noDb_of_noSync {t t' : WSLDVCCallback} (h : SameOn noSync t t') : SameOn noDb t t' :=
  h.map noDb fun _ => rfl

theorem entry_of_noSync {m m' : Machine W} (h : SameOn noSync m.this m'.this) : m'.entry = m.entry := by
  have hdb : m'.this.m_spFileDB = m.this.m_spFileDB := h.map (·.m_spFileDB) fun _ => rfl
  exact Machine.entry_of_same hdb

theorem noSync_OnSyncStart (os : OS W) : Preserves (fun m m' : Machine W => SameOn noSync m.this m'.this) (OnSyncStart os) := by
  have h := anyCall os
  refine (?_ : Preserves (Frame (SameOn noSync) (Appends fun _ => True)) (OnSyncStart os)).mono fun _ _ => And.left
  exact frame_getThis.bind fun _ => (frame_failWhen _).bind fun _ => (frame_sys h.CreateInstance).bind fun _ =>
    (frame_check _).bind fun _ => (frame_sys (appends_emit trivial)).bind fun _ =>
      (frame_sys (WSLDVCFileDB.keeps_addAllSubFolderFiles h.toSilent h.RemoveDirectory
        (fun _ _ => h.mark _ trivial) _ _ _)).bind fun _ => frame_setThis

theorem noSync_OnSyncEnd (os : OS W) (cleanupFiles : Bool) (m : Machine W) :
    SameOn noSync m.this (OnSyncEnd os cleanupFiles m).this := by
  unfold OnSyncEnd
  cases m.this.m_spFileDBSync <;> rfl

theorem noSync_syncGate (os : OS W) (flags : UInt32) :
    Preserves (fun m m' : Machine W => SameOn noSync m.this m'.this) (syncGate os flags) := by
  have hrefl : ∀ m : Machine W, SameOn noSync m.this m.this := fun m => refl_of (SameOn noSync) m.this
  intro m
  refine Outcome.bind (Outcome.mono (Q := fun _ m' => SameOn noSync m.this m'.this)
    (Outcome.ite (fun _ => noSync_OnSyncStart os m) fun _ => Outcome.pure_iff.2 (hrefl m)) (fun _ m' h => ?_) fun _ _ h => h)
  exact outcome_getThis_bind (outcome_failWhen (fun _ => h) fun _ _ => h)

/-! ## Updates -/

/-- What `FindFiles` can copy out again. -/
def Fits (e : fileEntry) : Prop := e.m_linkFilePath.length < MAX_PATH ∧ e.m_iconFilePath.length < MAX_PATH

theorem fits_buildPath (os : OS W) (root : WString) (group : StringField) (name ext : WString) (m : Machine W) :
    Outcome (buildPath os root group name ext) m (fun q _ => q.length < MAX_PATH) fun _ _ => True := by
  refine Outcome.bind ((Outcome.trivial _ m).mono (fun _ m₁ _ => ?_) fun _ _ h => h)
  refine Outcome.bind ((Outcome.trivial _ m₁).mono (fun _ m₂ _ => ?_) fun _ _ h => h)
  refine Outcome.bind ((Outcome.trivial _ m₂).mono (fun _ m₃ _ => ?_) fun _ _ h => h)
  refine Outcome.bind ((Outcome.trivial _ m₃).mono (fun _ m₄ _ => ?_) fun _ _ h => h)
  refine Outcome.bind ((Outcome.trivial _ m₄).mono (fun path m₅ _ => ?_) fun _ _ h => h)
  exact outcome_okOr (fun q hq => by
    obtain ⟨hlen, rfl⟩ := wcscat_s_some.1 hq
    rwa [List.length_append]) fun _ _ => trivial

theorem fits_preparePaths (os : OS W) (p : RDPAPPLIST_UPDATE_APPLIST_PDU) (icon : RDPAPPLIST_ICON_DATA) (m : Machine W) :
    Outcome (preparePaths os p icon) m (fun v _ => v.linkPath.length < MAX_PATH ∧ v.iconPath.length < MAX_PATH)
      fun _ _ => True := by
  have hicon : Outcome (buildIconFilePath os p) m (fun q _ => q.length < MAX_PATH) fun _ _ => True :=
    outcome_getThis_bind (Outcome.ite (fun _ => fits_buildPath os _ _ _ _ m) fun _ => Outcome.pure_iff.2 (by decide))
  refine Outcome.bind (outcome_failWhen (fun _ => ?_) fun _ _ => trivial)
  refine Outcome.bind (hicon.mono (fun iconPath m₁ hi => ?_) fun _ _ h => h)
  have hlink : Outcome (buildLinkPath os p) m₁ (fun q _ => q.length < MAX_PATH) fun _ _ => True :=
    outcome_getThis_bind (fits_buildPath os _ _ _ _ m₁)
  refine Outcome.bind (hlink.mono (fun linkPath m₂ hl => ?_) fun _ _ h => h)
  refine Outcome.bind ((Outcome.trivial _ m₂).mono (fun _ m₃ _ => ?_) fun _ _ h => h)
  refine Outcome.bind ((Outcome.trivial _ m₃).mono (fun _ m₄ _ => ?_) fun _ _ h => h)
  exact Outcome.pure_iff.2 ⟨hl, hi⟩

/-- The local variables of an update that is ready to be registered. -/
def Ready (t : WSLDVCCallback) (p : RDPAPPLIST_UPDATE_APPLIST_PDU) (v : UpdateLocals) : Prop :=
  (⟨v.key, v.linkPath, v.iconPath, t.m_expandedPathObj, v.exeArgs⟩ : fileEntry) = entryOf t p ∧ Fits (entryOf t p)

theorem outcome_prepareUpdate (os : OS W) (p : RDPAPPLIST_UPDATE_APPLIST_PDU) (icon : RDPAPPLIST_ICON_DATA)
    (m : Machine W) : Outcome (prepareUpdate os p icon) m
      (fun v m' => Ready m'.this p v ∧ SameOn noSync m.this m'.this) fun _ m' => SameOn noSync m.this m'.this := by
  rw [prepareUpdate_eq]
  refine Outcome.bind ((noSync_syncGate os _ m).mono (fun _ m₁ h₁ => ?_) fun _ _ h => h)
  have hpaths := outcome_preparePaths (R := Appends fun _ => True) (m := m₁) p icon fun _ _ _ =>
    appends_CreateDirectoryW os trivial
  refine (hpaths.and (fits_preparePaths os p icon m₁)).mono (fun v m₂ h => ?_) fun _ m₂ h => h.1.1 ▸ h₁
  obtain ⟨⟨hv, hframe⟩, hfits⟩ := h
  rw [← hframe.1]
  refine ⟨⟨?_, ?_⟩, h₁⟩
  · rw [entryOf, hv.key, hv.linkPath, hv.iconPath, hv.exeArgs]
  · rw [hv.linkPath, hv.iconPath] at hfits
    exact hfits

/-- The registry is there, and what it records fits. -/
def Registered (m : Machine W) : Prop :=
  (∃ db, m.this.m_spFileDB = some db) ∧ ∀ key e, m.entry key = some e → Fits e

theorem Registered.of_noSync {m m' : Machine W} (h : Registered m) (hs : SameOn noSync m.this m'.this) : Registered m' := by
  obtain ⟨⟨db, hdb⟩, hfits⟩ := h
  have hsame : m'.this.m_spFileDB = m.this.m_spFileDB := hs.map (·.m_spFileDB) fun _ => rfl
  exact ⟨⟨db, hsame.trans hdb⟩, entry_of_noSync hs ▸ hfits⟩

/-- A message about an app leaves the members other than the databases. -/
def After (m : Machine W) (x : AppMessage) (accepted : Bool) (m' : Machine W) : Prop :=
  SameOn noDb m.this m'.this ∧ Registered m' ∧ (accepted = true ↔ Repeats m.this m.entry x) ∧
    (accepted = true → m'.entry = follow m.this m.entry x)

theorem After.andThen {m m' m'' : Machine W} {x : AppMessage} {accepted : Bool} (h : After m x accepted m')
    (hs : SameOn noSync m'.this m''.this) : After m x accepted m'' := by
  obtain ⟨hsame, hreg, hiff, hentry⟩ := h
  exact ⟨trans_of (SameOn noDb) hsame hs.noDb_of_noSync, hreg.of_noSync hs, hiff, fun ha =>
    (entry_of_noSync hs).trans (hentry ha)⟩

theorem entryOf_same {t t' : WSLDVCCallback} (h : SameOn noDb t t') (p : RDPAPPLIST_UPDATE_APPLIST_PDU) :
    entryOf t' p = entryOf t p := by
  have hmenu : t'.m_appMenuPath = t.m_appMenuPath := h.map (·.m_appMenuPath) fun _ => rfl
  have hicon : t'.m_iconPath = t.m_iconPath := h.map (·.m_iconPath) fun _ => rfl
  have hexe : t'.m_expandedPathObj = t.m_expandedPathObj := h.map (·.m_expandedPathObj) fun _ => rfl
  have hprovider : t'.m_appProvider = t.m_appProvider := h.map (·.m_appProvider) fun _ => rfl
  rw [entryOf, entryOf, hmenu, hicon, hexe, hprovider]

theorem follow_same {t t' : WSLDVCCallback} (h : SameOn noDb t t') (registry : WString → Option fileEntry)
    (x : AppMessage) : follow t' registry x = follow t registry x := by
  cases x with
  | update p => rw [follow, entryOf_same h, follow]
  | delete p => rfl

theorem repeats_same {t t' : WSLDVCCallback} (h : SameOn noDb t t') (registry : WString → Option fileEntry)
    (x : AppMessage) : Repeats t' registry x ↔ Repeats t registry x := by
  cases x with
  | update p => rw [Repeats, entryOf_same h, Repeats]
  | delete p => rfl

theorem After.of_noSync {m₀ m m' : Machine W} {x : AppMessage} {accepted : Bool} (h : After m x accepted m')
    (hs : SameOn noSync m₀.this m.this) : After m₀ x accepted m' := by
  obtain ⟨hsame, hreg, hiff, hentry⟩ := h
  rw [entry_of_noSync hs, repeats_same hs.noDb_of_noSync] at hiff
  rw [entry_of_noSync hs, follow_same hs.noDb_of_noSync] at hentry
  exact ⟨trans_of (SameOn noDb) hs.noDb_of_noSync hsame, hreg, hiff, hentry⟩

/-- What is found after an insertion. -/
theorem find_insert_some (db : WSLDVCFileDB) (e : fileEntry) {key : WString} {a : fileEntry}
    (h : (db.insert e).find key = some a) : a = e ∨ db.find key = some a := by
  rw [KeyedSet.find_insert] at h
  split at h
  · exact .inl (Option.some.inj h).symm
  · exact .inr h

/-- The registry takes an entry exactly if it has no other under its key. -/
theorem after_registerApp {m : Machine W} {p : RDPAPPLIST_UPDATE_APPLIST_PDU} {v : UpdateLocals}
    (hv : Ready m.this p v) (hm : Registered m) :
    Outcome (registerApp v) m (fun _ => After m (.update p) true) (fun _ => After m (.update p) false) := by
  obtain ⟨⟨db, hdb⟩, hfits⟩ := hm
  obtain ⟨he, hnew⟩ := hv
  have hentry : m.entry = db.find := Machine.entry_of_some hdb
  have hreg : ∀ m' : Machine W, m'.this.m_spFileDB = some (db.insert (entryOf m.this p)) → Registered m' := by
    intro m' hm'
    refine ⟨⟨_, hm'⟩, fun key a ha => ?_⟩
    rw [Machine.entry, hm', Option.bind_some] at ha
    rcases find_insert_some db _ ha with rfl | ha
    · exact hnew
    · exact hfits key a (hentry ▸ ha)
  refine outcome_getThis_bind (Outcome.bind (outcome_deref (fun db' hdb' => ?_) fun h => by simp [hdb] at h))
  obtain rfl : db = db' := Option.some.inj (hdb.symm.trans hdb')
  refine Outcome.bind (Outcome.update_iff.2 ?_)
  rw [he, WSLDVCFileDB.OnFileAdded_snd]
  have hrepeats : (db.OnFileAdded (entryOf m.this p)).1 = none ↔ Repeats m.this m.entry (.update p) := by
    rw [WSLDVCFileDB.OnFileAdded_eq_none, hentry]
    rfl
  refine outcome_check (fun h => ⟨rfl, hreg _ rfl, iff_of_true rfl (hrepeats.1 h), fun _ => ?_⟩)
    fun h _ => ⟨rfl, hreg _ rfl, iff_of_false (by decide) (mt hrepeats.2 h), fun h => by cases h⟩
  funext key
  rw [Machine.entry, Option.bind_some, WSLDVCFileDB.find_insert_accepted h, hentry]
  rfl

theorem noSync_finishUpdate (os : OS W) (v : UpdateLocals) (m : Machine W) :
    Outcome (finishUpdate os v) m (fun _ m' => SameOn noSync m.this m'.this) fun _ _ => False := by
  have hend : ∀ m' : Machine W, SameOn noSync m.this m'.this → Outcome (endSync os v.updateAppList.flags) m'
      (fun _ m'' => SameOn noSync m.this m''.this) fun _ _ => False := fun m' h => Outcome.ite
    (fun _ => Outcome.update_iff.2 (trans_of (SameOn noSync) h (noSync_OnSyncEnd os true m')))
    fun _ => Outcome.pure_iff.2 h
  refine outcome_getThis_bind (outcome_sys_bind (outcome_sys_bind (Outcome.bind (Outcome.mono
    (Q := fun _ m' => SameOn noSync m.this m'.this) (E := fun _ _ => False) ?_ (fun _ => hend) fun _ _ h => h))))
  exact Outcome.ite (fun _ => Outcome.update_iff.2 rfl) fun _ => Outcome.pure_iff.2 rfl

/-- An update that is ready is accepted exactly if it says nothing new of an app that is registered. -/
theorem after_update (os : OS W) {m : Machine W} {p : RDPAPPLIST_UPDATE_APPLIST_PDU} {v : UpdateLocals}
    (hv : Ready m.this p v) (hm : Registered m) : Outcome (registerApp v >>= fun _ => finishUpdate os v) m
      (fun _ => After m (.update p) true) (fun _ => After m (.update p) false) := by
  refine Outcome.bind ((after_registerApp hv hm).mono (fun _ m₁ h₁ => ?_) fun _ _ h => h)
  exact (noSync_finishUpdate os v m₁).mono (fun _ _ h => h₁.andThen h) fun _ _ h => h.elim

/-! ## Deletions -/

theorem after_erase {m m' : Machine W} {p : RDPAPPLIST_DELETE_APPLIST_PDU} {db : WSLDVCFileDB} (hm : Registered m)
    (hdb : m.this.m_spFileDB = some db)
    (ht : m'.this = { m.this with m_spFileDB := some (db.erase (keyOf p.appGroup p.appId)) }) :
    After m (.delete p) true m' := by
  have hentry : m'.entry = follow m.this m.entry (.delete p) := by
    funext key
    rw [Machine.entry, ht, Option.bind_some, KeyedSet.find_erase, follow, Function.update_apply, Machine.entry, hdb,
      Option.bind_some]
    split <;> rfl
  refine ⟨by rw [ht]; rfl, ⟨⟨_, by rw [ht]⟩, fun key e he => ?_⟩, iff_of_true rfl trivial, fun _ => hentry⟩
  rw [hentry, follow, Function.update_apply] at he
  split at he
  · cases he
  · exact hm.2 key e he

theorem FindFiles_fits {db : WSLDVCFileDB} {key : WString} {e : fileEntry} (he : db.find key = some e) (hfits : Fits e) :
    (db.FindFiles key (some MAX_PATH) (some MAX_PATH) none none).1 = none := by
  have hlink : WSLDVCFileDB.copyOut (some MAX_PATH) e.m_linkFilePath = some e.m_linkFilePath :=
    wcscpy_s_some.2 ⟨hfits.1, rfl⟩
  have hicon : WSLDVCFileDB.copyOut (some MAX_PATH) e.m_iconFilePath = some e.m_iconFilePath :=
    wcscpy_s_some.2 ⟨hfits.2, rfl⟩
  simp only [WSLDVCFileDB.FindFiles, he, hlink, hicon]
  rfl

/-- A DELETE of a registered app is accepted if its key can be built. -/
theorem after_deleteApp (os : OS W) {u w : Reading (Machine W)} {p : RDPAPPLIST_DELETE_APPLIST_PDU} {key : WString}
    (hm : Registered u.out) (he : u.out.entry (keyOf p.appGroup p.appId) ≠ none)
    (hkey : buildLookupKey p.appGroup p.appId u = .ok key w) :
    Ends (deleteApp os p) u (fun _ t => After u.out (.delete p) true t.out) fun _ _ => False := by
  obtain ⟨rfl, hout⟩ := (outcome_buildKey p.appGroup p.appId).of_ok rfl (buildLookupKey_eq p.appGroup p.appId ▸ hkey)
  obtain ⟨db, hdb⟩ := hm.1
  obtain ⟨e, he⟩ := Option.ne_none_iff_exists'.1 he
  have hfind : db.find (keyOf p.appGroup p.appId) = some e := by
    rw [← he, Machine.entry_of_some hdb]
  have hbind : Ends (buildLookupKey p.appGroup p.appId) u (fun a t => a = keyOf p.appGroup p.appId ∧ t = w) fun _ _ => False := by
    unfold Ends
    rw [hkey]
    exact ⟨rfl, rfl⟩
  refine Ends.bind hbind (fun _ t h => ?_) fun _ _ h => h
  obtain ⟨rfl, rfl⟩ := h
  rw [← hout]
  refine (?_ : Outcome _ t.out (fun _ m' => After t.out (.delete p) true m') fun _ _ => False) t rfl
  refine outcome_getThis_bind (Outcome.bind (outcome_deref (fun db' hdb' => ?_) fun h => by simp [hout, hdb] at h))
  obtain rfl : db = db' := Option.some.inj ((hout ▸ hdb).symm.trans hdb')
  have hfound := FindFiles_fits hfind (hm.2 _ _ he)
  refine Outcome.bind (Outcome.ite (fun h => by simp [hfound] at h) fun _ => Outcome.pure_iff.2 ?_)
  rw [OnFileRemoved_eq]
  exact outcome_sys_bind (outcome_sys_bind (outcome_setThis_bind (outcome_sys (after_erase (hout ▸ hm) hdb' rfl))))

/-! ## Every reachable state -/

theorem registered_OnUpdateAppList (os : OS W) {m : Machine W} (hm : Registered m) :
    Outcome (OnUpdateAppList os) m (fun _ => Registered) (fun _ => Registered) := by
  have hread := frame_ReadUpdateMessage (R := Appends fun _ => True) (anyCall os).LocalAlloc ((anyCall os).mark _ trivial) m
  refine Outcome.bind (hread.mono (fun msg m₁ h₁ => ?_) fun _ m₁ h₁ => hm.of_noSync (h₁.1 ▸ rfl))
  have hm₁ : Registered m₁ := hm.of_noSync (h₁.1 ▸ rfl)
  refine Outcome.bind ((outcome_prepareUpdate os msg.1 msg.2 m₁).mono (fun v m₂ h₂ => ?_) fun _ _ h => hm₁.of_noSync h)
  exact (after_update os h₂.1 (hm₁.of_noSync h₂.2)).mono (fun _ _ h => h.2.1) fun _ _ h => h.2.1

theorem registered_OnCaps (os : OS W) {m : Machine W} (hm : Registered m) :
    Outcome (OnCaps os) m (fun _ => Registered) (fun _ => Registered) := by
  have hdbs : ∀ m' : Machine W, SameOn dbs m.this m'.this → Registered m' := by
    intro m' h
    have hdb : m'.this.m_spFileDB = m.this.m_spFileDB := h.map (·.1) fun _ => rfl
    obtain ⟨⟨db, hsome⟩, hfits⟩ := hm
    refine ⟨⟨db, hdb.trans hsome⟩, fun key e he => hfits key e ?_⟩
    rwa [Machine.entry_of_same hdb] at he
  have h := anyCall os
  exact (frame_OnCaps h.toSilent h.CreateDirectoryW h.ChannelWrite m).mono (fun _ _ h => hdbs _ h.1) fun _ _ h => hdbs _ h.1

theorem registered_dispatch (os : OS W) (h : RDPAPPLIST_HEADER) {m : Machine W} (hm : Registered m) :
    Outcome (dispatch os h) m (fun _ => Registered) (fun _ => Registered) := by
  refine outcome_dispatch os hm (fun _ => registered_OnCaps os hm) (fun _ _ => registered_OnUpdateAppList os hm)
    (fun _ => ?_) fun _ => ?_
  · refine (outcome_OnDeleteAppList os m).mono (fun _ m' h => ?_) fun _ _ h => h ▸ hm
    obtain ⟨p, db, e, hdb, -, rfl⟩ := h
    exact (after_erase hm hdb rfl).2.1
  · exact (frame_OnAssociateWindowId (R := Appends fun _ => True) (anyCall os).toSilent (anyCall os).SetValue m).mono
      (fun _ _ h => hm.of_noSync (h.1 ▸ rfl)) fun _ _ h => hm.of_noSync (h.1 ▸ rfl)

theorem registered_receive (os : OS W) {m : Machine W} (hm : Registered m) :
    Outcome (receive os) m (fun _ => Registered) (fun _ => Registered) :=
  Outcome.bind ((outcome_readHeader m).mono (fun h _ hm' => hm' ▸ registered_dispatch os h hm) fun _ _ hm' => hm' ▸ hm)

theorem closed_OnClose {os : OS W} {m m' : Machine W} (h : OnClose os m = some m') : m'.this.m_bChannelClosed = true := by
  have hend := noSync_OnSyncEnd os false { m with this := { m.this with m_bChannelClosed := true } }
  obtain ⟨_, _, rfl, -, rfl⟩ := OnClose_some h
  exact hend.map (·.m_bChannelClosed) fun _ => rfl

/-- As long as the channel is open there is a registry. -/
theorem Reachable.registered {os : OS W} {m : Machine W} (h : Reachable os anyMessage m)
    (hopen : m.this.m_bChannelClosed = false) : Registered m := by
  refine h.invariant (I := fun m => m.this.m_bChannelClosed = false → Registered m) (fun w _ => ?_)
    (fun s _ hc _ hm _ => (registered_receive os (hm hc)).final rfl) (fun m m' hc _ ho => ?_) hopen
  · exact ⟨⟨_, rfl⟩, fun key e he => by cases he⟩
  -- behind `OnClose` the channel is closed
  · simp [closed_OnClose hc] at ho

/-! ## One message -/

/-- The message at `s` passes all the checks of its handler; a DELETE names a registered key. -/
inductive Passes (os : OS W) (s : Reading (Machine W)) : AppMessage → Prop
  | update {h t p icon u v w} : readHeader s = .ok h t → h.cmdId = RDPAPPLIST_CMDID_UPDATE_APPLIST →
      ReadUpdateMessage os t = .ok (p, icon) u → prepareUpdate os p icon u = .ok v w → Passes os s (.update p)
  | delete {h t p u key w} : readHeader s = .ok h t → h.cmdId = RDPAPPLIST_CMDID_DELETE_APPLIST →
      readDelete t = .ok p u → buildLookupKey p.appGroup p.appId u = .ok key w →
      s.out.entry (keyOf p.appGroup p.appId) ≠ none → Passes os s (.delete p)

/-- What a message that passes leaves, whether it is accepted or not. -/
theorem after_receive (os : OS W) {s : Reading (Machine W)} {x : AppMessage} (hm : Registered s.out)
    (hs : s.out.this.m_handShakeComplated = true) (h : Passes os s x) :
    After s.out x (succeeded (receive os s)) (finalState (receive os s)).out := by
  cases h with
  | @update h t p icon u v w hh hc hmsg hprep =>
    have ht := out_readHeader_ok hh
    have hu := (frame_ReadUpdateMessage (R := Appends fun _ => True) (anyCall os).LocalAlloc
      ((anyCall os).mark _ trivial) t.out).of_ok rfl hmsg
    obtain ⟨hready, hw⟩ := (outcome_prepareUpdate os p icon u.out).of_ok rfl hprep
    rw [← hu.1, ht] at hw
    have hrun : receive os s = (registerApp v >>= fun _ => finishUpdate os v) w := by
      rw [receive_handshake hh (by rw [hc]; decide) (by rw [ht, hs]), hc, if_pos rfl, OnUpdateAppList, run_bind, hmsg]
      exact (run_bind _ _ _).trans (by rw [hprep])
    have hafter := (after_update os hready (hm.of_noSync hw) w rfl).final_of (P := fun b (t : Reading (Machine W)) => After w.out _ b t.out)
    rw [hrun]
    exact hafter.of_noSync hw
  | @delete h t p u key w hh hc hmsg hkey he =>
    have ht := out_readHeader_ok hh
    have hu : u.out = t.out := (Outcome.onCopy (Outcome.onLocal (fun _ => rfl) fun _ => rfl) :
      Outcome readDelete t.out (fun _ o => o = t.out) (fun _ o => o = t.out)).of_ok rfl hmsg
    have hout := hu.trans ht
    have hrun : receive os s = deleteApp os p u := by
      rw [receive_handshake hh (by rw [hc]; decide) (by rw [ht, hs]), hc, if_neg (by decide), if_pos rfl,
        OnDeleteAppList, run_bind, hmsg]
    have hafter := after_deleteApp os (hout ▸ hm) (hout ▸ he) hkey
    rw [hrun, ← hout]
    exact (hafter.mono (fun _ _ h => h) fun _ _ h => h.elim).final_of (P := fun b (t : Reading (Machine W)) => After u.out _ b t.out)

/-! ## Sequences of messages -/

/-- From `m` to `m'` by messages that pass all checks, each with whether it was accepted. -/
inductive Follows (os : OS W) : Machine W → List (AppMessage × Bool) → Machine W → Prop
  | nil (m : Machine W) : Follows os m [] m
  | cons {s : Reading (Machine W)} {x xs m'} : s.Valid → Passes os s x →
      Follows os (finalState (receive os s)).out xs m' → Follows os s.out ((x, succeeded (receive os s)) :: xs) m'

/-- Every update says the same of its app as the last one, if the app was not deleted since. -/
def OnlyRepeats (t : WSLDVCCallback) (registry : WString → Option fileEntry) (xs : List AppMessage) : Prop :=
  ∀ before x after, xs = before ++ x :: after → Repeats t (before.foldl (follow t) registry) x

theorem onlyRepeats_nil (t : WSLDVCCallback) (registry : WString → Option fileEntry) : OnlyRepeats t registry [] := by
  intro before x after h
  simp at h

theorem onlyRepeats_cons {t : WSLDVCCallback} {registry : WString → Option fileEntry} {x : AppMessage}
    {xs : List AppMessage} : OnlyRepeats t registry (x :: xs) ↔
      Repeats t registry x ∧ OnlyRepeats t (follow t registry x) xs := by
  constructor
  · intro h
    exact ⟨h [] x xs rfl, fun before y after hxs => h (x :: before) y after (by rw [hxs]; rfl)⟩
  · rintro ⟨hx, hxs⟩ before y after h
    rcases List.cons_eq_append_iff.1 h with ⟨rfl, h⟩ | ⟨rest, rfl, h⟩
    · obtain ⟨rfl, -⟩ := List.cons.inj h
      exact hx
    · exact hxs rest y after (List.cons.inj h).2

/-- The members of the callback that the messages do not change. -/
theorem onlyRepeats_same {t t' : WSLDVCCallback} (h : SameOn noDb t t') (registry : WString → Option fileEntry)
    (xs : List AppMessage) : OnlyRepeats t' registry xs ↔ OnlyRepeats t registry xs := by
  have hfollow : follow t' = follow t := by
    funext r x
    exact follow_same h r x
  unfold OnlyRepeats
  rw [hfollow]
  simp only [repeats_same h]

theorem handShake_of_noDb {t t' : WSLDVCCallback} (h : SameOn noDb t t') : t'.m_handShakeComplated = t.m_handShakeComplated :=
  h.map (·.m_handShakeComplated) fun _ => rfl

/-- By induction on the messages: as long as all are accepted the registry is what the server means. -/
theorem follows_spec {os : OS W} {m m' : Machine W} {xs : List (AppMessage × Bool)} (h : Follows os m xs m')
    (hm : Registered m) (hs : m.this.m_handShakeComplated = true) :
    ((∀ x ∈ xs, x.2 = true) ↔ OnlyRepeats m.this m.entry (xs.map Prod.fst)) ∧
      ((∀ x ∈ xs, x.2 = true) → m'.entry = (xs.map Prod.fst).foldl (follow m.this) m.entry) := by
  induction h with
  | nil m => exact ⟨iff_of_true (by simp) (onlyRepeats_nil _ _), fun _ => rfl⟩
  | @cons s x xs m' hv hpass _ ih =>
    obtain ⟨hsame, hreg, hiff, hentry⟩ := after_receive os hm hs hpass
    obtain ⟨ihiff, ihentry⟩ := ih hreg ((handShake_of_noDb hsame).trans hs)
    have hfollow : follow (finalState (receive os s)).out.this = follow s.out.this := by
      funext r y
      exact follow_same hsame r y
    rw [onlyRepeats_same hsame] at ihiff
    rw [hfollow] at ihentry
    simp only [List.forall_mem_cons, List.map_cons, onlyRepeats_cons, List.foldl_cons]
    constructor
    · constructor
      · rintro ⟨ha, hall⟩
        exact ⟨hiff.1 ha, hentry ha ▸ ihiff.1 hall⟩
      -- accepted, so the rest starts from what the server means
      · rintro ⟨hx, hrest⟩
        have ha := hiff.2 hx
        exact ⟨ha, ihiff.2 (hentry ha ▸ hrest)⟩
    · rintro ⟨ha, hall⟩
      rw [ihentry hall, hentry ha]

/-- `s` holds a CAPS message that is accepted and leads to `t`. -/
def CapsAccepted (os : OS W) (s t : Reading (Machine W)) : Prop :=
  ∃ h u, readHeader s = .ok h u ∧ h.cmdId = RDPAPPLIST_CMDID_CAPS ∧ OnCaps os u = .ok ⟨⟩ t

theorem handShake_OnCaps (os : OS W) (m : Machine W) :
    Outcome (OnCaps os) m (fun _ m' => m'.this.m_handShakeComplated = true) fun _ _ => True := by
  refine Outcome.bind ((Outcome.trivial _ m).mono (fun _ m₁ _ => ?_) fun _ _ h => h)
  refine Outcome.bind ((Outcome.trivial _ m₁).mono (fun _ m₂ _ => ?_) fun _ _ h => h)
  refine Outcome.bind ((Outcome.trivial _ m₂).mono (fun _ m₃ _ => ?_) fun _ _ h => h)
  refine Outcome.bind ((Outcome.trivial _ m₃).mono (fun _ m₄ _ => ?_) fun _ _ h => h)
  -- only the reply sets the flag, with what the write returned
  refine outcome_getThis_bind (Outcome.ite (fun _ => ?_) fun _ => outcome_setThis_bind (Outcome.reject_iff.2 trivial))
  refine Outcome.bind (outcome_okOr (fun lang _ => ?_) fun _ _ => trivial)
  exact outcome_sys_bind (outcome_setThis_bind (outcome_check (fun h => by simp [h]) fun _ _ => trivial))

/-- After a CAPS message the registry is what the server means and every message is
accepted, exactly if the updates of registered apps repeat what is registered. -/
theorem registry_follows {os : OS W} {s t : Reading (Machine W)} {m : Machine W} {xs : List (AppMessage × Bool)}
    (hr : Reachable os anyMessage s.out) (hopen : s.out.this.m_bChannelClosed = false) (hcaps : CapsAccepted os s t)
    (h : Follows os t.out xs m) :
    ((∀ x ∈ xs, x.2 = true) ∧ m.entry = (xs.map Prod.fst).foldl (follow t.out.this) t.out.entry) ↔
      OnlyRepeats t.out.this t.out.entry (xs.map Prod.fst) := by
  obtain ⟨hd, u, hh, -, hok⟩ := hcaps
  have hu : u.out = s.out := out_readHeader_ok hh
  have hreg : Registered t.out := (registered_OnCaps os (hu ▸ hr.registered hopen)).of_ok rfl hok
  have hflag := (handShake_OnCaps os u.out).of_ok rfl hok
  obtain ⟨hiff, hentry⟩ := follows_spec h hreg hflag
  exact ⟨fun ha => hiff.1 ha.1, fun ho => ⟨hiff.2 ho, hentry (hiff.2 ho)⟩⟩

/-! ### On the disk -/

/-- `s` holds an UPDATE that passes, and this is what it says of its app. -/
def passesUpdate (t : WSLDVCCallback) (e : fileEntry) (s : Reading (Machine Disk)) : Bool :=
  match readHeader s with
  | .error _ _ => false
  | .ok h u =>
    match ReadUpdateMessage diskOS u with
    | .error _ _ => false
    | .ok (p, icon) v => h.cmdId == RDPAPPLIST_CMDID_UPDATE_APPLIST && succeeded (prepareUpdate diskOS p icon v) &&
        entryOf t p == e

theorem passes_of_passesUpdate {t : WSLDVCCallback} {e : fileEntry} {s : Reading (Machine Disk)}
    (h : passesUpdate t e s = true) : ∃ p, Passes diskOS s (.update p) ∧ entryOf t p = e := by
  unfold passesUpdate at h
  split at h
  · cases h
  · rename_i hd u hh
    split at h
    · cases h
    · rename_i p icon v hmsg
      simp only [Bool.and_eq_true, beq_iff_eq] at h
      obtain ⟨⟨hc, hprep⟩, he⟩ := h
      obtain ⟨_, _, hprep⟩ := succeeded_iff.1 hprep
      exact ⟨p, .update hh hc hmsg hprep, he⟩

/-- `s` holds a CAPS message that is accepted. -/
def acceptsCaps (s : Reading (Machine Disk)) : Bool :=
  match readHeader s with
  | .error _ _ => false
  | .ok h u => h.cmdId == RDPAPPLIST_CMDID_CAPS && succeeded (OnCaps diskOS u)

theorem capsAccepted_of_acceptsCaps {s : Reading (Machine Disk)} (h : acceptsCaps s = true) :
    CapsAccepted diskOS s (finalState (receive diskOS s)) := by
  unfold acceptsCaps at h
  split at h
  · cases h
  · rename_i hd u hh
    simp only [Bool.and_eq_true, beq_iff_eq] at h
    obtain ⟨hc, hok⟩ := h
    obtain ⟨_, t, hok⟩ := succeeded_iff.1 hok
    refine ⟨hd, u, hh, hc, ?_⟩
    rw [receive_ok diskOS hh, dispatch, if_pos hc, hok]
    rfl

/-- The channel of the provider `U` with an app. -/
def channelWithFoo : Machine Disk := afterMessage (updateMessage 0 (L "a") (L "foo")) channelOfU

theorem capsAccepted_channelOfU : CapsAccepted diskOS (arrives (capsMessage (L "U")) (.fresh []))
    (finalState (receive diskOS (arrives (capsMessage (L "U")) (.fresh [])))) :=
  capsAccepted_of_acceptsCaps (by decide +kernel)

theorem reachable_channelOfU : Reachable diskOS anyMessage channelOfU :=
  .message (s := arrives (capsMessage (L "U")) (.fresh [])) (.fresh []) (Reading.between_valid _ _ _) rfl trivial

/-- What the two updates say of the app `a`. -/
def appNamed (link : WString) : fileEntry := ⟨L "a", link, [], L "C:\\W\\wslg.exe", L "-d U --cd \"~\" -- x"⟩

theorem passes_foo : ∃ p, Passes diskOS (arrives (updateMessage 0 (L "a") (L "foo")) channelOfU) (.update p) ∧
    entryOf channelOfU.this p = appNamed (L "C:\\S\\Programs\\U\\foo.lnk") :=
  passes_of_passesUpdate (by decide +kernel)

theorem follows_arrives {message : List BYTE} {m m' : Machine Disk} {x : AppMessage} {accepted : Bool}
    {xs : List (AppMessage × Bool)} (hp : Passes diskOS (arrives message m) x)
    (ha : succeeded (receive diskOS (arrives message m)) = accepted)
    (h : Follows diskOS (afterMessage message m) xs m') : Follows diskOS m ((x, accepted) :: xs) m' := by
  have hcons : Follows diskOS (arrives message m).out _ m' := .cons (Reading.between_valid [] message m) hp h
  rw [ha] at hcons
  exact hcons

theorem accepted_foo : succeeded (receive diskOS (arrives (updateMessage 0 (L "a") (L "foo")) channelOfU)) = true := by
  decide +kernel

/-- `s` holds a DELETE of a registered app that passes, and this is its key. -/
def passesDelete (key : WString) (s : Reading (Machine Disk)) : Bool :=
  match readHeader s with
  | .error _ _ => false
  | .ok h t =>
    match readDelete t with
    | .error _ _ => false
    | .ok p u => h.cmdId == RDPAPPLIST_CMDID_DELETE_APPLIST && succeeded (buildLookupKey p.appGroup p.appId u) &&
        keyOf p.appGroup p.appId == key && (s.out.entry key).isSome

theorem passes_of_passesDelete {key : WString} {s : Reading (Machine Disk)} (h : passesDelete key s = true) :
    ∃ p, Passes diskOS s (.delete p) ∧ keyOf p.appGroup p.appId = key := by
  unfold passesDelete at h
  split at h
  · cases h
  · rename_i hd t hh
    split at h
    · cases h
    · rename_i p u hmsg
      simp only [Bool.and_eq_true, beq_iff_eq] at h
      obtain ⟨⟨⟨hc, hkey⟩, hid⟩, he⟩ := h
      obtain ⟨_, _, hkey⟩ := succeeded_iff.1 hkey
      refine ⟨p, .delete hh hc hmsg hkey ?_, hid⟩
      rw [hid]
      exact Option.isSome_iff_ne_none.1 he

/-- The same update again. -/
def channelWithFooTwice : Machine Disk := afterMessage (updateMessage 0 (L "a") (L "foo")) channelWithFoo

def channelWithoutFoo : Machine Disk := afterMessage (deleteMessage (L "a")) channelWithFooTwice

/-- An update that was repeated, its app deleted and registered anew with another link. -/
theorem registry_follows_on_disk : ∃ p q d r,
    let xs := [.update p, .update q, .delete d, .update r]
    Follows diskOS channelOfU (xs.map fun x => (x, true)) (afterMessage (updateMessage 0 (L "a") (L "bar")) channelWithoutFoo) ∧
      OnlyRepeats channelOfU.this channelOfU.entry xs ∧
        (afterMessage (updateMessage 0 (L "a") (L "bar")) channelWithoutFoo).entry =
          xs.foldl (follow channelOfU.this) channelOfU.entry := by
  obtain ⟨p, hp, hpe⟩ := passes_foo
  obtain ⟨q, hq, hqe⟩ : ∃ q, Passes diskOS (arrives (updateMessage 0 (L "a") (L "foo")) channelWithFoo) (.update q) ∧
      entryOf channelOfU.this q = appNamed (L "C:\\S\\Programs\\U\\foo.lnk") :=
    passes_of_passesUpdate (by decide +kernel)
  obtain ⟨d, hd, hdkey⟩ : ∃ d, Passes diskOS (arrives (deleteMessage (L "a")) channelWithFooTwice) (.delete d) ∧
      keyOf d.appGroup d.appId = L "a" := passes_of_passesDelete (by decide +kernel)
  obtain ⟨r, hr, hre⟩ : ∃ r, Passes diskOS (arrives (updateMessage 0 (L "a") (L "bar")) channelWithoutFoo) (.update r) ∧
      entryOf channelOfU.this r = appNamed (L "C:\\S\\Programs\\U\\bar.lnk") :=
    passes_of_passesUpdate (by decide +kernel)
  have h : Follows diskOS channelOfU [(.update p, true), (.update q, true), (.delete d, true), (.update r, true)]
      (afterMessage (updateMessage 0 (L "a") (L "bar")) channelWithoutFoo) :=
    follows_arrives hp accepted_foo <| follows_arrives hq (by decide +kernel) <|
      follows_arrives hd (by decide +kernel) <| follows_arrives hr (by decide +kernel) (.nil _)
  have hkey : ∀ {p : RDPAPPLIST_UPDATE_APPLIST_PDU} {link : WString}, entryOf channelOfU.this p = appNamed link →
      keyOf p.appGroup p.appId = L "a" := fun h => congrArg fileEntry.m_fileId h
  have hnew : channelOfU.entry (L "a") = none := by decide +kernel
  have hgone : ∀ registry, follow channelOfU.this registry (.delete d) (L "a") = none := fun registry => by
    rw [follow, hdkey, Function.update_self]
  have hrepeats : OnlyRepeats channelOfU.this channelOfU.entry [.update p, .update q, .delete d, .update r] := by
    refine onlyRepeats_cons.2 ⟨fun e he => ?_, onlyRepeats_cons.2 ⟨fun e he => ?_, onlyRepeats_cons.2 ⟨trivial,
      onlyRepeats_cons.2 ⟨fun e he => ?_, onlyRepeats_nil _ _⟩⟩⟩⟩
    · rw [hkey hpe, hnew] at he
      cases he
    -- the same strings again
    · rw [hkey hqe, follow, hkey hpe, Function.update_self, hpe] at he
      rw [hqe]
      exact (Option.some.inj he).symm
    -- the app is gone
    · rw [hkey hre, hgone] at he
      cases he
  exact ⟨p, q, d, r, h, hrepeats,
    ((registry_follows (.fresh []) rfl capsAccepted_channelOfU h).2 hrepeats).2⟩

/-- An update that changes the link of a registered app is rejected, and the registry keeps the old link. -/
theorem second_update_rejected : ∃ s t m p q,
    Reachable diskOS anyMessage s.out ∧ s.out.this.m_bChannelClosed = false ∧ CapsAccepted diskOS s t ∧
      Follows diskOS t.out [(.update p, true), (.update q, false)] m ∧
      m.entry (L "a") = some (appNamed (L "C:\\S\\Programs\\U\\foo.lnk")) ∧
      [AppMessage.update p, .update q].foldl (follow t.out.this) t.out.entry (L "a") =
        some (appNamed (L "C:\\S\\Programs\\U\\bar.lnk")) := by
  obtain ⟨p, hp, -⟩ := passes_foo
  obtain ⟨q, hq, he⟩ : ∃ q, Passes diskOS (arrives (updateMessage 0 (L "a") (L "bar")) channelWithFoo) (.update q) ∧
      entryOf channelOfU.this q = appNamed (L "C:\\S\\Programs\\U\\bar.lnk") :=
    passes_of_passesUpdate (by decide +kernel)
  have hsecond : succeeded (receive diskOS (arrives (updateMessage 0 (L "a") (L "bar")) channelWithFoo)) = false := by
    decide +kernel
  refine ⟨_, _, _, p, q, .fresh [], rfl, capsAccepted_channelOfU,
    follows_arrives hp accepted_foo (follows_arrives hq hsecond (.nil _)), by decide +kernel, ?_⟩
  have hkey : keyOf q.appGroup q.appId = L "a" := congrArg fileEntry.m_fileId he
  rw [← he, ← hkey]
  exact foldl_follow_last channelOfU.this _ [.update p] [] q (by simp)

end Wslg
