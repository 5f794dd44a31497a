import Wslg.Disk
import Wslg.Refine
/-!
# Sync sessions

What a sync session deletes, over every run: the files recorded at its start that
were not reported since, each once, and nothing if the channel closes first.
-/

open Lib Lib.TraceM

namespace Wslg

open Client WSLDVCCallback

variable {W : Type}

/-! ## Accepted updates -/

/-- The updates taken over, in order. -/
def updatesIn (evs : List Event) : List AppUpdate := evs.filterMap fun | .updated u => some u | _ => none

@[simp] theorem updatesIn_append (evs evs' : List Event) :
    updatesIn (evs ++ evs') = updatesIn evs ++ updatesIn evs' := List.filterMap_append

def NotUpdated (e : Event) : Prop := ∀ u, e ≠ .updated u

theorem mem_updatesIn {evs : List Event} {u : AppUpdate} : u ∈ updatesIn evs ↔ .updated u ∈ evs := by
  constructor
  · intro h
    obtain ⟨e, he, hu⟩ := List.mem_filterMap.1 h
    cases e <;> simp_all
  · exact fun h => List.mem_filterMap.2 ⟨_, h, rfl⟩

theorem updatesIn_eq_nil {evs : List Event} : updatesIn evs = [] ↔ ∀ e ∈ evs, NotUpdated e := by
  rw [List.eq_nil_iff_forall_not_mem]
  constructor
  · exact fun h e he u hu => h u (mem_updatesIn.2 (hu ▸ he))
  · exact fun h u hu => h _ (mem_updatesIn.1 hu) u rfl

/-- What is left of a session that was closed. -/
theorem OnSyncEnd_spec (os : OS W) (cleanupFiles : Bool) (m : Machine W) :
    ∃ evs, (OnSyncEnd os cleanupFiles m).sys.trace = m.sys.trace ++ evs ∧ updatesIn evs = [] ∧
      (cleanupFiles = false → deletedPaths evs = []) ∧ (OnSyncEnd os cleanupFiles m).this.m_spFileDBSync = none := by
  unfold OnSyncEnd
  cases hs : m.this.m_spFileDBSync with
  | none => exact ⟨[], by simp, rfl, fun _ => rfl, hs⟩
  | some db =>
    obtain ⟨block, ht, hclean⟩ := closeSync_spec os cleanupFiles db m.sys
    refine ⟨_, ht, updatesIn_eq_nil.2 fun e he => ?_, ?_, rfl⟩
    · rintro u rfl
      simp only [List.mem_cons, reduceCtorEq, List.mem_append, List.not_mem_nil, or_false, false_or] at he
      exact hclean.events _ he
    · rintro rfl
      have : deletedPaths block = [] := List.eq_nil_iff_forall_not_mem.2 fun p hp => by
        simpa using (hclean.deleted p).1 hp
      rw [← List.singleton_append, deletedPaths_append, deletedPaths_append, this]
      rfl

/-- The message `p` was taken over from `m` as `u`. -/
structure TakenOver (m : Machine W) (p : RDPAPPLIST_UPDATE_APPLIST_PDU) (u : AppUpdate) : Prop where
  flags : u.flags = p.flags
  linkPath : u.linkPath = m.this.m_appMenuPath ++ pathSuffix p.appGroup p.appDesc.str (L ".lnk")
  iconPath : u.iconPath =
    if has p.flags RDPAPPLIST_FIELD_ICON then m.this.m_iconPath ++ pathSuffix p.appGroup p.appId.str (L ".ico") else []
  appMenuPath : u.appMenuPath = m.this.m_appMenuPath
  iconRoot : u.iconRoot = m.this.m_iconPath

/-- `m'` has one update more than `m`. -/
def TookOver (m : Machine W) (p : RDPAPPLIST_UPDATE_APPLIST_PDU) (m' : Machine W) : Prop :=
  ∃ evs u, m'.sys.trace = m.sys.trace ++ evs ∧ updatesIn evs = [u] ∧ TakenOver m p u ∧
    (has p.flags RDPAPPLIST_HINT_SYNC_END → m'.this.m_spFileDBSync = none)

section Updates

variable (os : OS W)

theorem outcome_finishUpdate {m₀ m : Machine W} {p : RDPAPPLIST_UPDATE_APPLIST_PDU} {icon : RDPAPPLIST_ICON_DATA}
    {v : UpdateLocals} (h : Prepared m₀.this p icon v) (hm : Frame (SameOn noDb) (Appends NotUpdated) m₀ m) :
    Outcome (finishUpdate os v) m (fun _ => TookOver m₀ p) (fun _ _ => False) := by
  refine outcome_getThis_bind (Outcome.bind (outcome_sys (Outcome.bind (outcome_sys ?_))))
  have hc := keeps_createFiles (R := Appends NotUpdated) (v := v)
    (fun _ _ => appends_CreateIconFile os fun _ u => by simp)
    (fun _ _ => appends_CreateShellLink os fun _ _ _ u => by simp) m.this m.sys
  obtain ⟨evs, ht, hevs⟩ := trans_of _ hm.2 hc
  generalize createFiles os v m.this m.sys = r at *
  simp only [emit_run, ht]
  generalize hu : AppUpdate.mk v.updateAppList.flags v.key v.linkPath v.iconPath r.1.1 r.1.2 m.this.m_appMenuPath
    m.this.m_iconPath = u
  have htaken : TakenOver m₀ p u := by
    rw [← hu]
    exact ⟨by rw [h.message], h.linkPath, h.iconPath, hm.1.map (·.m_appMenuPath) fun _ => rfl,
      hm.1.map (·.m_iconPath) fun _ => rfl⟩
  have hone : updatesIn (evs ++ [.updated u]) = [u] := by
    rw [updatesIn_append, updatesIn_eq_nil.2 hevs]
    rfl
  refine Outcome.bind ((?_ : Outcome (spareReported v r.1.2) _ (fun _ (m' : Machine W) =>
    m'.sys.trace = m₀.sys.trace ++ (evs ++ [.updated u])) fun _ _ => False).mono (fun _ m' hm' => ?_) fun _ _ h => h)
  · exact Outcome.ite (fun _ => Outcome.update_iff.2 (List.append_assoc _ _ _))
      fun _ => Outcome.pure_iff.2 (List.append_assoc _ _ _)
  · rw [endSync, h.message]
    refine Outcome.ite (fun _ => Outcome.update_iff.2 ?_) fun hf => Outcome.pure_iff.2
      ⟨_, u, hm', hone, htaken, fun h => (hf h).elim⟩
    -- the session may end with this update: that deletes, but takes over nothing
    obtain ⟨evs', ht', hnil, -, hnone⟩ := OnSyncEnd_spec os true m'
    exact ⟨_, u, by rw [ht', hm', List.append_assoc], by rw [updatesIn_append, hone, hnil]; rfl, htaken, fun _ => hnone⟩

/-- An update is taken over exactly if it is accepted. -/
theorem outcome_takeOver (p : RDPAPPLIST_UPDATE_APPLIST_PDU) (icon : RDPAPPLIST_ICON_DATA) (m : Machine W) :
    Outcome (prepareUpdate os p icon >>= fun v => registerApp v >>= fun _ => finishUpdate os v) m
      (fun _ => TookOver m p) (fun _ m' => Appends NotUpdated m.sys m'.sys) := by
  have hs := silent_appends os NotUpdated
  rw [prepareUpdate_eq, bind_assoc]
  refine Outcome.bind ((frame_syncGate hs (fun _ => appends_RemoveDirectory os fun u => by simp)
    (fun _ _ => appends_emit fun u => by simp) (appends_emit fun u => by simp) _).mono (fun _ m₁ h₁ => ?_)
    fun _ _ h => h.2)
  refine Outcome.bind ((outcome_preparePaths (R := Appends NotUpdated) _ _ fun _ _ _ =>
    appends_CreateDirectoryW os fun u => by simp).mono (fun v m₂ h₂ => ?_) fun _ _ h => trans_of _ h₁.2 h.2)
  obtain ⟨hv, h₂⟩ := h₂
  have h₂ : Frame (SameOn noDb) (Appends NotUpdated) m m₂ :=
    trans_of _ h₁ (h₂.mono (fun h => by rw [SameOn, h]) id)
  -- up to the registration nothing is taken over
  refine Outcome.bind (((frame_registerApp (R := Appends NotUpdated) v) m₂).mono (fun _ m₃ h₃ => ?_)
    fun _ _ h => (trans_of _ h₂ h).2)
  have hv := hv.of_same h₁.1
  exact (outcome_finishUpdate os hv (trans_of _ h₂ h₃)).mono (fun _ _ h => h) fun _ _ h => h.elim

theorem OnUpdateAppList_ok {s t : Reading (Machine W)} (h : OnUpdateAppList os s = .ok ⟨⟩ t) :
    ∃ p icon r, ReadUpdateMessage os s = .ok (p, icon) r ∧ TookOver s.out p t.out := by
  rw [OnUpdateAppList, run_bind] at h
  cases hr : ReadUpdateMessage os s with
  | error x r => simp [hr] at h
  | ok msg r =>
    rw [hr] at h
    obtain ⟨hthis, evs₀, htrace₀, hevs₀⟩ := (frame_ReadUpdateMessage (R := Appends NotUpdated)
      (fun _ => appends_LocalAlloc os fun _ u => by simp) (appends_emit fun u => by simp) s.out).of_ok rfl hr
    obtain ⟨evs, u, htrace, hone, htaken, hend⟩ := (outcome_takeOver os msg.1 msg.2 r.out).of_ok rfl h
    refine ⟨msg.1, msg.2, r, rfl, evs₀ ++ evs, u, by rw [htrace, htrace₀, List.append_assoc],
      by rw [updatesIn_append, updatesIn_eq_nil.2 hevs₀, hone]; rfl, ?_, hend⟩
    exact ⟨htaken.flags, hthis ▸ htaken.linkPath, hthis ▸ htaken.iconPath, hthis ▸ htaken.appMenuPath,
      hthis ▸ htaken.iconRoot⟩

theorem OnUpdateAppList_error {s t : Reading (Machine W)} {x : ReadStop Stop} (h : OnUpdateAppList os s = .error x t) :
    Appends NotUpdated s.out.sys t.out.sys := by
  rw [OnUpdateAppList, run_bind] at h
  have hkeep : Preserves (Frame Eq (Appends NotUpdated)) (ReadUpdateMessage os) :=
    frame_ReadUpdateMessage (fun _ => appends_LocalAlloc os fun _ u => by simp) (appends_emit fun u => by simp)
  have hread := hkeep s.out
  cases hr : ReadUpdateMessage os s with
  | error x r =>
    rw [hr] at h
    obtain ⟨rfl, rfl⟩ := by simpa using h
    exact (hread.of_error rfl hr).2
  | ok msg r =>
    rw [hr] at h
    exact trans_of _ (hread.of_ok rfl hr).2 ((outcome_takeOver os msg.1 msg.2 r.out).of_error rfl h)

/-! Messages of any other kind take nothing over. -/

theorem notUpdated_OnCaps : Preserves (fun m m' : Machine W => Appends NotUpdated m.sys m'.sys) (OnCaps os) :=
  (frame_OnCaps (silent_appends os NotUpdated) (fun _ => appends_CreateDirectoryW os fun u => by simp)
    fun _ => appends_ChannelWrite os fun u => by simp).mono fun _ _ => And.right

theorem notUpdated_OnDeleteAppList :
    Preserves (fun m m' : Machine W => Appends NotUpdated m.sys m'.sys) (OnDeleteAppList os) :=
  (frame_OnDeleteAppList (fun _ => appends_DeleteFileW os fun _ u => by simp)
    fun _ _ _ => appends_emit fun u => by simp).mono fun _ _ => And.right

theorem notUpdated_OnAssociateWindowId :
    Preserves (fun m m' : Machine W => Appends NotUpdated m.sys m'.sys) (OnAssociateWindowId os) :=
  (frame_OnAssociateWindowId (silent_appends os NotUpdated) fun _ _ => appends_SetValue os fun u => by simp).mono
    fun _ _ => And.right

theorem notUpdated_dispatch {h : RDPAPPLIST_HEADER} (hcmd : h.cmdId ≠ RDPAPPLIST_CMDID_UPDATE_APPLIST) :
    Preserves (fun m m' : Machine W => Appends NotUpdated m.sys m'.sys) (dispatch os h) := by
  intro m
  exact outcome_dispatch os (P := fun m' => Appends NotUpdated m.sys m'.sys) (refl_of _ _)
    (fun _ => notUpdated_OnCaps os m) (fun hc => absurd hc hcmd) (fun _ => notUpdated_OnDeleteAppList os m)
    fun _ => notUpdated_OnAssociateWindowId os m

variable {os} in
/-- Closing the channel takes nothing over, deletes nothing and leaves no session. -/
theorem OnClose_spec {m m' : Machine W} (hc : OnClose os m = some m') : m'.this.m_spFileDBSync = none ∧
    ∃ evs, m'.sys.trace = m.sys.trace ++ evs ∧ deletedPaths evs = [] ∧ updatesIn evs = [] := by
  obtain ⟨evs, ht, hupd, hdel, hnone⟩ := OnSyncEnd_spec os false { m with this := { m.this with m_bChannelClosed := true } }
  obtain ⟨_, _, rfl, -, rfl⟩ := OnClose_some hc
  exact ⟨hnone, evs, ht, hdel rfl, hupd⟩

end Updates

/-! ## Sessions -/

/-- An event goes back to the message it was left by, and to the state before it. -/
theorem Reachable.origin {os : OS W} {Ok : Reading (Machine W) → Prop} {P : Machine W → Event → Prop}
    (hmessage : ∀ s : Reading (Machine W), Appends (P s.out) s.out.sys (finalState (receive os s)).out.sys)
    (hclose : ∀ m m', OnClose os m = some m' → Appends (P m) m.sys m'.sys) {m : Machine W} (h : Reachable os Ok m) :
    EveryAt (fun pre e _ => ∃ m₀, Reachable os Ok m₀ ∧ m₀.sys.trace <+: pre ∧ P m₀ e) m.sys.trace := by
  have hextend : ∀ {m m' : Machine W}, Reachable os Ok m → Appends (P m) m.sys m'.sys →
      EveryAt (fun pre e _ => ∃ m₀, Reachable os Ok m₀ ∧ m₀.sys.trace <+: pre ∧ P m₀ e) m.sys.trace →
      EveryAt (fun pre e _ => ∃ m₀, Reachable os Ok m₀ ∧ m₀.sys.trace <+: pre ∧ P m₀ e) m'.sys.trace := by
    rintro m m' hr ⟨evs, ht, hevs⟩ hm
    rw [ht]
    exact everyAt_append.2 ⟨hm, everyAt_of_forall fun e he pre _ =>
      ⟨m, hr, List.prefix_append _ _, hevs e he⟩⟩
  induction h with
  | fresh w => exact everyAt_nil
  | @message s hr _ _ _ ih => exact hextend hr (hmessage s) ih
  | close hr hc ih => exact hextend hr (hclose _ _ hc) ih

/-- Behind `pre` a message that was being handled started a session, and `path` was the menu path when it came. -/
def StartsSession (os : OS W) (Ok : Reading (Machine W) → Prop) (pre : List Event) (path : WString) : Prop :=
  ∃ s : Reading (Machine W), Reachable os Ok s.out ∧ s.out.sys.trace <+: pre ∧
    pre ++ [.OnSyncStart path] <+: (finalState (receive os s)).out.sys.trace ∧ path = s.out.this.m_appMenuPath

/-- A session starts in a message, with the menu path at that time as the one whose folder is scanned. -/
theorem Reachable.started {os : OS W} {Ok : Reading (Machine W) → Prop} {m : Machine W} (h : Reachable os Ok m) :
    EveryAt (fun pre e _ => ∀ path, e = .OnSyncStart path → StartsSession os Ok pre path) m.sys.trace := by
  have hs : ∀ m : Machine W, Respected os (Appends fun e => ∀ path, e = .OnSyncStart path → path = m.this.m_appMenuPath) :=
    fun m => respected_appends os fun e he path hp => (he path hp).elim
  induction h with
  | fresh w => exact everyAt_nil
  | @message s hr _ _ _ ih =>
    obtain ⟨evs, ht, hevs⟩ : Appends _ s.out.sys (finalState (receive os s)).out.sys :=
      (keeps_receive (hs s.out) (appends_emit fun path hp => by cases hp; rfl)).final rfl
    rw [ht]
    refine everyAt_append.2 ⟨ih.mono fun _ _ _ h => h, fun a e b hsplit path hpath => ?_⟩
    subst hpath
    refine ⟨s, hr, List.prefix_append _ _, ?_, hevs _ (by simp [hsplit]) path rfl⟩
    exact ⟨b, by rw [ht, hsplit]; simp⟩
  | close _ hc ih =>
    obtain ⟨evs, ht, hevs⟩ := frame_OnClose (R := Appends fun e => ∀ path, e ≠ .OnSyncStart path)
      (respected_appends os fun e he => he).behindReading hc
    rw [ht]
    refine everyAt_append.2 ⟨ih.mono fun _ _ _ h => h, everyAt_of_forall fun e he _ _ path hpath => ?_⟩
    exact absurd hpath (hevs e he path)

/-- The sync sessions of a run that has come to `m`. -/
structure SyncSessions (os : OS W) (m : Machine W) : Prop where
  /-- A session that ended deleted, each once, what was recorded and not reported, if it was to clean up. -/
  ended : ∀ pre post cleanupFiles, m.sys.trace = pre ++ .OnSyncEnd cleanupFiles :: post →
    ∃ before path scan mid block after, pre = before ++ .OnSyncStart path :: (scan ++ mid) ∧
      (∀ e ∈ scan, ScanEvent path e) ∧ (∀ e ∈ mid, ¬ SessionEvent e) ∧
      post = block ++ .syncClosed [] :: after ∧ (∀ e ∈ block, CleanUpEvent e) ∧ (deletedPaths block).Nodup ∧
      ∀ p, p ∈ deletedPaths block ↔ cleanupFiles = true ∧ Recorded scan p ∧ ¬ Spared mid p
  /-- A session that is open still has the rest. -/
  current : ∀ db, m.this.m_spFileDBSync = some db → ∃ before path scan mid,
    m.sys.trace = before ++ .OnSyncStart path :: (scan ++ mid) ∧ (∀ e ∈ scan, ScanEvent path e) ∧
      (∀ e ∈ mid, ¬ SessionEvent e) ∧ ∀ p, p ∈ db.keys ↔ Recorded scan p ∧ ¬ Spared mid p
  /-- Right after its end it is closed and empty. -/
  closed : ∀ before left, m.sys.trace = before ++ [.syncClosed left] → m.this.m_spFileDBSync = none ∧ left = []
  /-- An update that is accepted counts once, and may end the session. -/
  accepted : ∀ s t : Reading (Machine W), s.out = m → OnUpdateAppList os s = .ok ⟨⟩ t →
    ∃ p icon r, ReadUpdateMessage os s = .ok (p, icon) r ∧ TookOver m p t.out
  rejected : ∀ (s t : Reading (Machine W)) x, s.out = m → OnUpdateAppList os s = .error x t →
    Appends NotUpdated m.sys t.out.sys
  others : ∀ (s : Reading (Machine W)) h, s.out = m → h.cmdId ≠ RDPAPPLIST_CMDID_UPDATE_APPLIST →
    Appends NotUpdated m.sys (finalState (dispatch os h s)).out.sys
  /-- Closing the channel ends the session without deleting anything. -/
  onClose : ∀ m', OnClose os m = some m' → m'.this.m_spFileDBSync = none ∧
    ∃ evs, m'.sys.trace = m.sys.trace ++ evs ∧ deletedPaths evs = [] ∧ updatesIn evs = []

/-- Right behind the end of a session no session is open. -/
theorem not_open_of_closed {l : Ledger} {before : List Event} {left : List WString} {files : Set WString}
    {path : WString} {scan mid : List Event} (ht : l.trace = before ++ [.syncClosed left])
    (h : Ledger.Open l.trace files path scan mid) : False := by
  obtain ⟨pre, hpre⟩ := h.split
  have hlast := congrArg List.getLast? (ht.symm.trans hpre)
  rw [List.getLast?_concat, List.getLast?_append, List.getLast?_cons] at hlast
  simp only [Option.some_or, Option.some.injEq] at hlast
  rcases List.eq_nil_or_concat (scan ++ mid) with h0 | ⟨es, e, he⟩
  · simp [h0] at hlast
  · rw [List.concat_eq_append] at he
    simp only [he, List.getLast?_concat, Option.getD_some] at hlast
    have hmem : Event.syncClosed left ∈ scan ++ mid := by simp [he, hlast]
    rcases List.mem_append.1 hmem with hmem | hmem
    · exact h.scanned _ hmem
    · exact h.quiet _ hmem trivial

theorem Reachable.ended {os : OS W} {Ok : Reading (Machine W) → Prop} {m : Machine W} (h : Reachable os Ok m)
    {pre post : List Event} {cleanupFiles : Bool} (ht : m.sys.trace = pre ++ .OnSyncEnd cleanupFiles :: post) :
    ∃ before path scan mid block after, pre = before ++ .OnSyncStart path :: (scan ++ mid) ∧
      (∀ e ∈ scan, ScanEvent path e) ∧ (∀ e ∈ mid, ¬ SessionEvent e) ∧
      post = block ++ .syncClosed [] :: after ∧ (∀ e ∈ block, CleanUpEvent e) ∧ (deletedPaths block).Nodup ∧
      ∀ p, p ∈ deletedPaths block ↔ cleanupFiles = true ∧ Recorded scan p ∧ ¬ Spared mid p := by
  obtain ⟨files, path, scan, mid, block, after, hopen, rfl, hclean⟩ := h.steps.sessions.ends pre _ post ht _ rfl
  obtain ⟨before, rfl⟩ := hopen.split
  refine ⟨before, path, scan, mid, block, after, rfl, hopen.scanned, hopen.quiet, rfl, hclean.events, hclean.nodup,
    fun p => ?_⟩
  rw [hclean.deleted, hopen.left]

/-- In every run the sync sessions delete exactly what they should. -/
theorem sync_session_deletes (os : OS W) {m : Machine W} (h : Reachable os anyMessage m) : SyncSessions os m where
  ended pre post c ht := h.ended ht
  current db hdb := by
    have hnow := h.steps.sessions.now
    rw [Machine.ledger, hdb] at hnow
    obtain ⟨path, scan, mid, hopen⟩ := hnow
    obtain ⟨before, ht⟩ := hopen.split
    exact ⟨before, path, scan, mid, ht, hopen.scanned, hopen.quiet, hopen.left⟩
  closed before left ht := by
    refine ⟨?_, h.steps.left_eq_nil (by rw [Machine.ledger, ht]; simp)⟩
    have hnow := h.steps.sessions.now
    cases hdb : m.this.m_spFileDBSync with
    | none => rfl
    | some db =>
      rw [Machine.ledger, hdb] at hnow
      obtain ⟨path, scan, mid, hopen⟩ := hnow
      exact (not_open_of_closed (l := m.ledger) ht hopen).elim
  accepted s t hs ht := hs ▸ OnUpdateAppList_ok os ht
  rejected s t x hs ht := hs ▸ OnUpdateAppList_error os ht
  others s hd hs hcmd := hs ▸ (notUpdated_dispatch os hcmd).final s
  onClose _ hc := OnClose_spec hc

/-- On a disk with one old link, a session that reports two apps deletes the link and the icon file it names. -/
theorem sync_session_deletes_on_disk :
    let m := runOn [⟨L "C:\\S\\Programs\\U\\old.lnk", L "C:\\T\\WSLDVCPlugin\\U\\old.ico"⟩]
      [capsMessage (L "U"),
        updateMessage (RDPAPPLIST_HINT_SYNC_START ||| RDPAPPLIST_HINT_SYNC) (L "a") (L "foo"),
        updateMessage (RDPAPPLIST_HINT_SYNC ||| RDPAPPLIST_HINT_SYNC_END) (L "b") (L "bar")]
    SyncSessions diskOS m ∧ .OnSyncEnd true ∈ m.sys.trace ∧ (updatesIn m.sys.trace).map (·.key) = [L "a", L "b"] ∧
      deletedPaths m.sys.trace = [L "C:\\S\\Programs\\U\\old.lnk", L "C:\\T\\WSLDVCPlugin\\U\\old.ico"] :=
  ⟨sync_session_deletes diskOS (reachable_runOn _ _), by decide +kernel⟩

/-- What the end of a session deleted lies below the menu path in force at its
start, or is the icon file that a link below it named when it was scanned. -/
def CleansUpBelow (os : OS W) (pre post : List Event) : Prop :=
  ∃ before path scan mid block after, pre = before ++ .OnSyncStart path :: (scan ++ mid) ∧
    (∀ e ∈ scan, ScanEvent path e) ∧ (∀ e ∈ mid, ¬ SessionEvent e) ∧
    post = block ++ .syncClosed [] :: after ∧ (∀ e ∈ block, CleanUpEvent e) ∧ StartsSession os anyMessage before path ∧
    ∀ p ∈ deletedPaths block, StrictlyBelow isSep dot path p ∨
      ∃ lnkFile, StrictlyBelow isSep dot path lnkFile ∧ .OnLnkFileAdded lnkFile (some p) ∈ scan

/-- A session only deletes links below its menu path and the icon files they named. -/
theorem sync_cleanup_confined (os : OS W) {m : Machine W} (h : Reachable os anyMessage m) {pre post : List Event}
    (ht : m.sys.trace = pre ++ .OnSyncEnd true :: post) : CleansUpBelow os pre post := by
  obtain ⟨before, path, scan, mid, block, after, rfl, hscan, hmid, rfl, hblock, -, hdel⟩ := h.ended ht
  have hstart := h.started before (.OnSyncStart path) _ (by simpa using ht) path rfl
  refine ⟨before, path, scan, mid, block, after, rfl, hscan, hmid, rfl, hblock, hstart, fun p hp => ?_⟩
  obtain ⟨-, ⟨lnkFile, iconFile, hmem, hor⟩, -⟩ := (hdel p).1 hp
  have hbelow : StrictlyBelow isSep dot path lnkFile := hscan _ hmem
  rcases hor with rfl | rfl
  · exact .inl hbelow
  · exact .inr ⟨lnkFile, hbelow, hmem⟩

/-- A picture of the user, and a link in the menu that borrows it as its icon. -/
def borrowedIcon : Disk := [⟨L "C:\\Pictures\\x.ico", []⟩, ⟨L "C:\\S\\Programs\\U\\old.lnk", L "C:\\Pictures\\x.ico"⟩]

def wholeSession : List BYTE :=
  updateMessage (RDPAPPLIST_HINT_SYNC_START ||| RDPAPPLIST_HINT_SYNC ||| RDPAPPLIST_HINT_SYNC_END) (L "a") (L "foo")

theorem sync_cleanup_confined_borrowed_icon : ∃ pre post,
    (runOn borrowedIcon [capsMessage (L "U"), wholeSession]).sys.trace = pre ++ .OnSyncEnd true :: post ∧
      CleansUpBelow diskOS pre post := by
  have hmem : .OnSyncEnd true ∈ (runOn borrowedIcon [capsMessage (L "U"), wholeSession]).sys.trace := by decide +kernel
  obtain ⟨pre, post, ht⟩ := List.append_of_mem hmem
  exact ⟨pre, post, ht, sync_cleanup_confined diskOS (reachable_runOn _ _) ht⟩

/-- The session deletes the link, and the picture with it. -/
theorem sync_cleanup_deletes_borrowed_icon :
    let m₀ := runOn borrowedIcon [capsMessage (L "U")]
    let m := (OnDataReceived diskOS wholeSession m₀).machine
    (Reachable diskOS anyMessage m₀ ∧ Reachable diskOS anyMessage m) ∧ m₀.this.m_spFileDBSync.isNone ∧
      deletedPaths m₀.sys.trace = [] ∧ .OnSyncEnd true ∈ m.sys.trace ∧
      .DeleteFileW (L "C:\\Pictures\\x.ico") true ∈ m.sys.trace ∧
      (m₀.sys.world.lookup (L "C:\\Pictures\\x.ico")).isSome ∧ (m.sys.world.lookup (L "C:\\Pictures\\x.ico")).isNone ∧
      ¬ StrictlyBelow isSep dot m₀.this.m_appMenuPath (L "C:\\Pictures\\x.ico") ∧
      ¬ StrictlyBelow isSep dot m₀.this.m_iconPath (L "C:\\Pictures\\x.ico") :=
  ⟨⟨reachable_runOn _ _, reachable_OnDataReceived _ (fun _ _ => trivial) (reachable_runOn _ _)⟩, by decide +kernel⟩

end Wslg
