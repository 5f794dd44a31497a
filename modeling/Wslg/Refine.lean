import Wslg.Scan
import Wslg.Update
/-!
# The handlers and the ledger

What a message or a close does to the machine is a sequence of steps of the
ledger, whatever the message and however the system answers. So every run of the
plugin is a run of the ledger.
-/

open Lib Lib.TraceM Relation

namespace Wslg

open Client WSLDVCCallback

variable {W : Type}

/-! ## The ledger of a machine -/

/-- The apps in a database. -/
def appsOf (db : WSLDVCFileDB) (key : WString) : Option App :=
  (db.find key).map fun e => ⟨e.m_linkFilePath, e.m_iconFilePath⟩

def Machine.ledger (m : Machine W) : Ledger where
  registry key := m.this.m_spFileDB.bind (appsOf · key)
  sync := m.this.m_spFileDBSync.map fun db => {p | p ∈ db.keys}
  trace := m.sys.trace

/-- From `m` to `m'` in steps of the ledger. -/
def Moves (m m' : Machine W) : Prop := Ledger.Steps m.ledger m'.ledger

instance : Std.Refl (Moves (W := W)) := ⟨fun _ => .refl⟩
instance : IsTrans (Machine W) Moves := ⟨fun _ _ _ h h' => h.trans h'⟩

theorem moves_of_eq {m m' : Machine W} (h : m'.ledger = m.ledger) : Moves m m' := by
  rw [Moves, h]

theorem moves_of_step {m m' : Machine W} {l : Ledger} (h : Ledger.Step m.ledger l) (hl : m'.ledger = l) :
    Moves m m' := by
  rw [Moves, hl]
  exact .single h

/-- The two databases. -/
def WSLDVCCallback.both (t : WSLDVCCallback) : Option WSLDVCFileDB × Option WSLDVCFileDB :=
  (t.m_spFileDB, t.m_spFileDBSync)

theorem moves_of_quiet {m m' : Machine W} (h : Frame (SameOn both) (Appends Quiet) m m') : Moves m m' := by
  obtain ⟨hthis, evs, ht, hq⟩ := h
  refine moves_of_step (.quiet hq) ?_
  rw [SameOn, both, both, Prod.mk.injEq] at hthis
  rw [Machine.ledger, hthis.1, hthis.2, ht]
  rfl

theorem moves_of_quiet_eq {m m' : Machine W} (h : Frame Eq (Appends Quiet) m m') : Moves m m' :=
  moves_of_quiet (h.mono (fun h => by rw [SameOn, h]) id)

/-! ## Sessions -/

theorem moves_OnSyncEnd (os : OS W) (cleanupFiles : Bool) (m : Machine W) : Moves m (OnSyncEnd os cleanupFiles m) := by
  unfold OnSyncEnd
  cases hs : m.this.m_spFileDBSync with
  | none => exact refl_of Moves m
  | some db =>
    obtain ⟨block, ht, hclean⟩ := closeSync_spec os cleanupFiles db m.sys
    exact moves_of_step (.close (by rw [Machine.ledger, hs]; rfl) hclean) (by rw [Machine.ledger, ht]; rfl)

theorem moves_OnSyncStart (os : OS W) : Preserves Moves (OnSyncStart os) := by
  intro m
  have hrefl : Moves m m := refl_of Moves m
  refine outcome_getThis_bind (Outcome.bind (outcome_failWhen (fun hnone => ?_) fun _ _ => hrefl))
  refine Outcome.bind (outcome_sys (Outcome.bind (outcome_check (fun _ => ?_) fun _ _ => hrefl)))
  refine Outcome.bind (outcome_sys (Outcome.bind (outcome_sys (Outcome.update_iff.2 ?_))))
  obtain ⟨scan, ht, hscan, hk⟩ := WSLDVCFileDB.addAllFilesAsFileIdAt_spec os m.this.m_appMenuPath
    ⟨(os.CreateInstance m.sys.world).2, m.sys.trace ++ [.OnSyncStart m.this.m_appMenuPath]⟩
  refine moves_of_step (.start ?_ hscan) ?_
  · rw [Machine.ledger, Option.map_eq_none_iff]
    exact Option.isNone_iff_eq_none.1 (by simpa using hnone)
  · simp only [Machine.ledger, Option.map_some, Ledger.mk.injEq, true_and, Option.some.injEq]
    exact ⟨Set.ext hk, by simpa using ht⟩

theorem moves_syncGate (os : OS W) (flags : UInt32) : Preserves Moves (syncGate os flags) :=
  (Preserves.ite (fun _ => moves_OnSyncStart os) fun _ => Preserves.pure _ : Preserves _ (startSync os flags)).bind
    fun _ => (Preserves.act fun m => refl_of Moves m).bind fun _ =>
      Preserves.ite (fun _ => Preserves.reject _) fun _ => Preserves.pure _

/-! ## Updates -/

/-- Registering an app changes nothing if another one has its key. -/
theorem outcome_registerApp (v : UpdateLocals) (m : Machine W) :
    Outcome (registerApp v) m (fun _ m' => ∃ db e, m.this.m_spFileDB = some db ∧
        e = ⟨v.key, v.linkPath, v.iconPath, m.this.m_expandedPathObj, v.exeArgs⟩ ∧
        (∀ a, appsOf db v.key = some a → a = ⟨v.linkPath, v.iconPath⟩) ∧
        m' = { m with this := { m.this with m_spFileDB := some (db.insert e) } })
      (fun _ m' => m'.ledger = m.ledger) := by
  refine outcome_getThis_bind (Outcome.bind (outcome_deref (fun db hdb => ?_) fun _ _ => rfl))
  refine Outcome.bind (Outcome.update_iff.2 ?_)
  rw [WSLDVCFileDB.OnFileAdded_snd]
  refine outcome_check (fun h => ⟨db, _, hdb, rfl, fun a ha => ?_, rfl⟩) fun h _ => ?_
  · obtain ⟨old, hold, rfl⟩ := Option.map_eq_some_iff.1 ha
    rw [(WSLDVCFileDB.OnFileAdded_eq_none _ _).1 h old hold]
  · rw [WSLDVCFileDB.insert_of_conflict h, ← hdb]

/-- What is in the registry once an app is registered. -/
theorem appsOf_insert {db : WSLDVCFileDB} {e : fileEntry} {a : App} (ha : a = ⟨e.m_linkFilePath, e.m_iconFilePath⟩)
    (h : ∀ b, appsOf db e.m_fileId = some b → b = a) :
    appsOf (db.insert e) = Function.update (appsOf db) e.m_fileId (some a) := by
  funext key
  rw [appsOf, KeyedSet.find_insert, Function.update_apply]
  by_cases hk : key = e.m_fileId
  · subst hk
    cases hf : db.find e.m_fileId with
    | none => simp [ha]
    | some old => simpa [hf] using h _ (by rw [appsOf, hf]; rfl)
  · simp [hk, appsOf]

/-- The files that `createFiles` writes, with what it reports of them. -/
theorem createFiles_spec (os : OS W) (v : UpdateLocals) (t : WSLDVCCallback) (s : Sys W) {u : AppUpdate}
    (hlink : u.linkPath = v.linkPath) (hicon : u.iconPath = v.iconPath)
    (hhas : (u.hasLink, u.hasIcon) = (createFiles os v t s).1) :
    ∃ files, (createFiles os v t s).2.trace = s.trace ++ files ∧ Ledger.Creation u files := by
  unfold createFiles createIcon at *
  by_cases hi : has v.updateAppList.flags RDPAPPLIST_FIELD_ICON = true
  · simp only [if_pos hi, bind_run, pure_run, Prod.mk.injEq] at hhas ⊢
    obtain ⟨l, hl, ht⟩ := CreateShellLink_trace os _ (CreateIconFile os v.iconData.iconFileData v.iconPath s).2
    refine ⟨_, by rw [ht, CreateIconFile_trace, List.append_assoc], ?_⟩
    rw [← hhas.1, ← hhas.2, ← hicon]
    exact .icon (hl.trans hlink.symm)
  · simp only [if_neg hi, bind_run, pure_run, Prod.mk.injEq] at hhas ⊢
    obtain ⟨l, hl, ht⟩ := CreateShellLink_trace os _ s
    refine ⟨_, ht, ?_⟩
    rw [← hhas.1]
    exact .link (hl.trans hlink.symm) hhas.2

theorem mem_keys_OnFileRemoved {db : WSLDVCFileDB} {key p : WString} :
    p ∈ (db.OnFileRemoved key).2.keys ↔ p ∈ db.keys ∧ p ≠ key := by
  unfold WSLDVCFileDB.OnFileRemoved
  cases hf : db.find key with
  | some _ => simp [KeyedSet.keys_erase]
  | none => exact ⟨fun h => ⟨h, fun he => KeyedSet.find_eq_none.1 hf (he ▸ h)⟩, And.left⟩

theorem mem_keys_spare {v : UpdateLocals} {hasIcon : Bool} {db : WSLDVCFileDB} {p : WString} :
    p ∈ (spare v hasIcon db).keys ↔ p ∈ db.keys ∧ ¬ (p = v.linkPath ∨ hasIcon ∧ p = v.iconPath) := by
  unfold spare
  cases hasIcon <;> simp [mem_keys_OnFileRemoved, and_assoc]

/-- From the registration on: the app is in the registry, and the session may end. -/
theorem moves_finishUpdate (os : OS W) {p : RDPAPPLIST_UPDATE_APPLIST_PDU} {icon : RDPAPPLIST_ICON_DATA}
    {v : UpdateLocals} {m : Machine W} (h : Prepared m.this p icon v) :
    Outcome (registerApp v >>= fun _ => finishUpdate os v) m (fun _ => Moves m) (fun _ => Moves m) := by
  refine Outcome.bind ((outcome_registerApp v m).mono (fun _ m' hm => ?_) fun _ _ hm => moves_of_eq hm)
  obtain ⟨db, e, hdb, he, hsame, rfl⟩ := hm
  refine outcome_getThis_bind (Outcome.bind (outcome_sys (Outcome.bind (outcome_sys ?_))))
  simp only [emit_run]
  generalize hr : createFiles os v _ m.sys = r
  let u : AppUpdate := ⟨v.updateAppList.flags, v.key, v.linkPath, v.iconPath, r.1.1, r.1.2, m.this.m_appMenuPath,
    m.this.m_iconPath⟩
  obtain ⟨files, ht, hfiles⟩ := createFiles_spec os v _ m.sys (u := u) rfl rfl (by rw [hr])
  rw [hr] at ht
  have hstep : Ledger.Step m.ledger _ := .report (u := u) ⟨h.confined_link, h.confined_icon.imp_right And.right⟩
    (fun a ha => hsame a (by simpa [Machine.ledger, hdb] using ha)) hfiles
  -- the registry gains the app, unless it had the very same entry
  have happs : appsOf (db.insert e) = Function.update (appsOf db) v.key (some u.app) := by
    subst he
    exact appsOf_insert rfl hsame
  have hend : ∀ m' : Machine W, Moves m m' → Outcome (endSync os v.updateAppList.flags) m' (fun _ => Moves m)
      (fun _ => Moves m) := fun m' hm => Outcome.ite
    (fun _ => Outcome.update_iff.2 (trans_of Moves hm (moves_OnSyncEnd os true m'))) fun _ => Outcome.pure_iff.2 hm
  refine Outcome.bind ((?_ : Outcome _ _ (fun _ => Moves m) (fun _ => Moves m)).mono (fun _ => hend) fun _ _ h => h)
  unfold spareReported
  split
  · rename_i hf
    -- during a sync the files of the app are spared
    refine Outcome.update_iff.2 (moves_of_step hstep ?_)
    rw [if_pos hf]
    simp only [Machine.ledger, Option.bind_some, happs, hdb, ht, List.append_assoc, Option.map_map, Ledger.mk.injEq]
    refine ⟨rfl, ?_, rfl⟩
    congr 1
    funext d
    exact Set.ext fun p => mem_keys_spare
  · rename_i hf
    refine Outcome.pure_iff.2 (moves_of_step hstep ?_)
    rw [if_neg hf]
    simp only [Machine.ledger, Option.bind_some, happs, hdb, ht, List.append_assoc]
    rfl

theorem moves_OnUpdateAppList (os : OS W) : Preserves Moves (OnUpdateAppList os) := by
  have hread : Preserves Moves (ReadUpdateMessage os) :=
    (frame_ReadUpdateMessage (fun _ => appends_LocalAlloc os fun _ => trivial) (appends_emit trivial)).mono
      fun _ _ => moves_of_quiet_eq
  refine hread.bind fun msg m => ?_
  rw [prepareUpdate_eq, bind_assoc]
  refine Outcome.bind ((moves_syncGate os _ m).mono (fun _ m₁ h₁ => ?_) fun _ _ h => h)
  refine Outcome.bind ((outcome_preparePaths (R := Appends Quiet) _ _ fun _ _ _ =>
    appends_CreateDirectoryW os trivial).mono (fun v m₂ h₂ => ?_) fun _ _ h => trans_of Moves h₁ (moves_of_quiet_eq h))
  obtain ⟨hv, h₂⟩ := h₂
  have hm : Moves m m₂ := trans_of Moves h₁ (moves_of_quiet_eq h₂)
  rw [h₂.1] at hv
  exact (moves_finishUpdate os hv).mono (fun _ _ h => trans_of Moves hm h) fun _ _ h => trans_of Moves hm h

/-! ## Deletions -/

theorem deleteRecorded_spec (os : OS W) (path : WString) (s : Sys W) :
    ∃ evs, (deleteRecorded os path s).2.trace = s.trace ++ evs ∧ Ledger.DeletedIf path evs := by
  unfold deleteRecorded
  split
  · exact ⟨[.DeleteFileW path _], rfl, .deleted ‹_›⟩
  · rename_i h
    exact ⟨[], by simp, .empty (by simpa using h)⟩

theorem copyOut_some {size : Nat} {src t : WString} (h : WSLDVCFileDB.copyOut (some size) src = some t) : t = src :=
  (wcscpy_s_some.1 h).2

/-- `FindFiles` finds what is recorded. -/
theorem FindFiles_found {db : WSLDVCFileDB} {key : WString}
    (h : (db.FindFiles key (some MAX_PATH) (some MAX_PATH) none none).1 = none) :
    ∃ e, db.find key = some e ∧ e.m_linkFilePath =
        (db.FindFiles key (some MAX_PATH) (some MAX_PATH) none none).2.linkFilePath ∧
      e.m_iconFilePath = (db.FindFiles key (some MAX_PATH) (some MAX_PATH) none none).2.iconFilePath := by
  unfold WSLDVCFileDB.FindFiles at *
  cases hf : db.find key with
  | none => simp [hf] at h
  | some e =>
    refine ⟨e, rfl, ?_⟩
    simp only [hf] at h ⊢
    cases hl : WSLDVCFileDB.copyOut (some MAX_PATH) e.m_linkFilePath with
    | none => simp [hl] at h
    | some link =>
      simp only [hl] at h ⊢
      cases hi : WSLDVCFileDB.copyOut (some MAX_PATH) e.m_iconFilePath with
      | none => simp [hi] at h
      | some icon => exact ⟨(copyOut_some hl).symm, (copyOut_some hi).symm⟩

theorem OnFileRemoved_eq {db : WSLDVCFileDB} {key : WString} : (db.OnFileRemoved key).2 = db.erase key := by
  unfold WSLDVCFileDB.OnFileRemoved
  cases hf : db.find key with
  | some _ => rfl
  | none => exact (KeyedSet.erase_of_not_mem (KeyedSet.find_eq_none.1 hf)).symm

/-- Delete the two files of an entry. -/
def deleteEntry (os : OS W) (key : WString) (e : fileEntry) : SysM W PUnit := do
  deleteRecorded os e.m_linkFilePath
  deleteRecorded os e.m_iconFilePath
  emit (.deleted key e.m_linkFilePath e.m_iconFilePath)

/-- What a DELETE `p` does that is accepted: the entry of its key goes, and the recorded files with it. -/
def Deletes (os : OS W) (m : Machine W) (p : RDPAPPLIST_DELETE_APPLIST_PDU) (m' : Machine W) : Prop :=
  ∃ db e, m.this.m_spFileDB = some db ∧ db.find (keyOf p.appGroup p.appId) = some e ∧ m' = {
    this := { m.this with m_spFileDB := some (db.erase (keyOf p.appGroup p.appId)) }
    sys := (deleteEntry os (keyOf p.appGroup p.appId) e m.sys).2 }

/-- A DELETE that is rejected does nothing. -/
theorem ends_OnDeleteAppList (os : OS W) (s : Reading (Machine W)) : Ends (OnDeleteAppList os) s
    (fun _ t => ∃ p r, readDelete s = .ok p r ∧ Deletes os s.out p t.out) (fun _ t => t.out = s.out) := by
  have hread : Ends readDelete s (fun _ r => r.out = s.out) (fun _ r => r.out = s.out) :=
    (Outcome.onCopy (Outcome.onLocal (fun _ => rfl) fun _ => rfl) :
      Outcome readDelete s.out (fun _ o => o = s.out) (fun _ o => o = s.out)) s rfl
  refine Ends.bind_iff.2 (((Ends.self readDelete s).and hread).mono (fun p r h => ?_) fun _ _ h => h.2)
  obtain ⟨hp, hr⟩ := h
  rw [← hr]
  refine Ends.mono ((?_ : Outcome _ r.out (fun _ m' => Deletes os r.out p m') (fun _ m' => m' = r.out)) r rfl)
    (fun _ _ h => ⟨p, r, hp, h⟩) fun _ _ h => h
  rw [deleteApp, buildLookupKey_eq]
  refine Outcome.bind ((outcome_buildKey _ _).mono (fun k m' h => ?_) fun _ _ h => h)
  obtain ⟨rfl, rfl⟩ := h
  refine outcome_getThis_bind (Outcome.bind (outcome_deref (fun db hdb => ?_) fun _ _ => rfl))
  refine Outcome.bind (outcome_failWhen (fun hf => ?_) fun _ _ => rfl)
  obtain ⟨e, he, hl, hi⟩ := FindFiles_found (Option.isNone_iff_eq_none.1 (by simpa using hf))
  rw [← hl, ← hi, OnFileRemoved_eq]
  exact Outcome.bind (outcome_sys (Outcome.bind (outcome_sys (Outcome.bind (Outcome.update_iff.2 (outcome_sys
    ⟨db, e, hdb, he, rfl⟩))))))

theorem outcome_OnDeleteAppList (os : OS W) (m : Machine W) :
    Outcome (OnDeleteAppList os) m (fun _ m' => ∃ p, Deletes os m p m') (fun _ m' => m' = m) := fun s hs =>
  (ends_OnDeleteAppList os s).mono (fun _ _ ⟨p, _, _, h⟩ => ⟨p, hs ▸ h⟩) fun _ _ h => h.trans hs

theorem appsOf_erase (db : WSLDVCFileDB) (key : WString) :
    appsOf (db.erase key) = Function.update (appsOf db) key none := by
  funext k
  rw [appsOf, KeyedSet.find_erase, Function.update_apply]
  split <;> rfl

theorem moves_OnDeleteAppList (os : OS W) : Preserves Moves (OnDeleteAppList os) := by
  refine fun m => (outcome_OnDeleteAppList os m).mono (fun _ m' h => ?_) fun _ m' h => moves_of_eq (by rw [h])
  obtain ⟨p, db, e, hdb, he, rfl⟩ := h
  obtain ⟨link, hlt, hlink⟩ := deleteRecorded_spec os e.m_linkFilePath m.sys
  obtain ⟨icon, hit, hicon⟩ := deleteRecorded_spec os e.m_iconFilePath (deleteRecorded os e.m_linkFilePath m.sys).2
  have hreg : m.ledger.registry (keyOf p.appGroup p.appId) = some ⟨e.m_linkFilePath, e.m_iconFilePath⟩ := by
    simp [Machine.ledger, hdb, appsOf, he]
  refine moves_of_step (.delete hreg hlink hicon) ?_
  simp [Machine.ledger, hdb, appsOf_erase, deleteEntry, hit, hlt]

/-! ## Runs -/

theorem moves_OnCaps (os : OS W) : Preserves Moves (OnCaps os) :=
  (frame_OnCaps (silent_appends os Quiet) (fun _ => appends_CreateDirectoryW os trivial)
    fun _ => appends_ChannelWrite os trivial).mono fun _ _ h =>
      moves_of_quiet (h.mono (fun h => SameOn.map h (fun x => (x.1, x.2.1)) fun _ => rfl) id)

theorem moves_OnAssociateWindowId (os : OS W) : Preserves Moves (OnAssociateWindowId os) :=
  (frame_OnAssociateWindowId (silent_appends os Quiet) fun _ _ => appends_SetValue os trivial).mono
    fun _ _ => moves_of_quiet_eq

theorem moves_receive (os : OS W) : Preserves Moves (receive os) := fun m =>
  outcome_receive os (refl_of Moves m) (moves_OnCaps os m) (fun _ => moves_OnUpdateAppList os m)
    (fun _ => moves_OnDeleteAppList os m) fun _ => moves_OnAssociateWindowId os m

theorem moves_OnClose {os : OS W} {m m' : Machine W} (h : OnClose os m = some m') : Moves m m' := by
  have hend : Moves m _ := trans_of Moves (moves_of_eq rfl)
    (moves_OnSyncEnd os false { m with this := { m.this with m_bChannelClosed := true } })
  obtain ⟨_, _, rfl, -, rfl⟩ := OnClose_some h
  exact trans_of Moves hend (moves_of_step .shut rfl)

/-- Every run of the plugin is a run of the ledger. -/
theorem Reachable.steps {os : OS W} {Ok : Reading (Machine W) → Prop} {m : Machine W} (h : Reachable os Ok m) :
    Ledger.Steps .empty m.ledger :=
  h.invariant (I := fun m => Ledger.Steps .empty m.ledger) (fun _ => .refl)
    (fun s _ _ _ hs => hs.trans ((moves_receive os).final s)) fun _ _ hclose hm => hm.trans (moves_OnClose hclose)

end Wslg
