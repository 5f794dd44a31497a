import Wslg.Sync
/-!
# Messages stay below the folders

Whatever the strings of a message are, an update creates nothing outside the two
folders of the provider, and a deletion only deletes what an update created
under the same key.
-/

open Lib Lib.TraceM

namespace Wslg

open Client WSLDVCCallback

variable {W : Type}

/-! ## Updates -/

/-- What is created is in one of the two folders. -/
def InFolders (t : WSLDVCCallback) : Event → Prop
  | .CreateDirectoryW path | .CreateIconFile path _ _ => Confined t.m_appMenuPath path ∨ Confined t.m_iconPath path
  | .CreateShellLink link _ => Confined t.m_appMenuPath link.pathLink ∨ Confined t.m_iconPath link.pathLink
  | _ => True

theorem confined_self (root : WString) : Confined root root := ⟨[], by simp, by decide⟩

theorem confined_folder {t : WSLDVCCallback} {p : RDPAPPLIST_UPDATE_APPLIST_PDU} {path : WString}
    (hp : fieldsOk p = true) (h : UpdateFolder t p path) :
    Confined t.m_appMenuPath path ∨ Confined t.m_iconPath path := by
  obtain ⟨root, hroot, hpath⟩ := h
  have hc : Confined root path := by
    rcases hpath with rfl | rfl
    · exact confined_self _
    · exact ⟨_, rfl, groupPart_not_climbing hp⟩
  rcases hroot with rfl | rfl
  · exact .inl hc
  · exact .inr hc

/-- An update creates nothing outside the folders, whether it is accepted or not. -/
theorem inFolders_OnUpdateAppList (os : OS W) (m : Machine W) : Outcome (OnUpdateAppList os) m
    (fun _ m' => Appends (InFolders m.this) m.sys m'.sys) (fun _ m' => Appends (InFolders m.this) m.sys m'.sys) := by
  have hs := silent_appends os (InFolders m.this)
  have hrem : ∀ p, Keeps (Appends (InFolders m.this)) (RemoveDirectory os p) := fun _ => appends_RemoveDirectory os trivial
  have hmark : ∀ e, Mark e → e ≠ .LocalFree → Keeps (Appends (InFolders m.this)) (emit e : SysM W PUnit) := fun e he _ =>
    appends_emit (by cases e <;> first | exact trivial | exact he.elim)
  refine Outcome.bind ((frame_ReadUpdateMessage (R := Appends (InFolders m.this))
    (fun _ => appends_LocalAlloc os fun _ => trivial) (appends_emit trivial) m).mono (fun msg m₁ h₁ => ?_) fun _ _ h => h.2)
  rw [prepareUpdate_eq, bind_assoc]
  refine Outcome.bind ((frame_syncGate hs hrem (fun _ _ => appends_emit trivial) (appends_emit trivial) _).mono
    (fun _ m₂ h₂ => ?_) fun _ _ h => trans_of _ h₁.2 h.2)
  have hm₂ : Frame (SameOn noDb) (Appends (InFolders m.this)) m m₂ :=
    trans_of _ (h₁.mono (fun h => by rw [SameOn, h]) id) h₂
  have hmenu : m₂.this.m_appMenuPath = m.this.m_appMenuPath := hm₂.1.map (·.m_appMenuPath) fun _ => rfl
  have hicon : m₂.this.m_iconPath = m.this.m_iconPath := hm₂.1.map (·.m_iconPath) fun _ => rfl
  refine Outcome.bind ((outcome_preparePaths (R := Appends (InFolders m.this)) _ _ fun hf path hpath =>
    appends_CreateDirectoryW os (by simpa [InFolders, hmenu, hicon] using confined_folder hf hpath)).mono (fun v m₃ h₃ => ?_)
    fun _ _ h => trans_of _ hm₂.2 h.2)
  obtain ⟨hv, h₃⟩ := h₃
  have hm₃ := trans_of _ hm₂.2 h₃.2
  refine ((frame_finishUpdate hs (fun _ => appends_DeleteFileW os fun _ => trivial) hrem hmark (fun hi data =>
    appends_CreateIconFile os fun _ => ?_) (fun link hl => appends_CreateShellLink os fun l _ hl' => ?_)) m₃).mono
    (fun _ _ h => trans_of _ hm₃ h.2) fun _ _ h => trans_of _ hm₃ h.2
  -- the icon file
  · rw [hv.message] at hi
    refine .inr ⟨_, hicon ▸ hv.iconPath.trans (if_pos hi), ?_⟩
    exact pathSuffix_not_climbing hv.fields (not_climbing_of_fieldsOk hv.fields).2.1 (.inr rfl)
  -- the link
  · refine .inl ?_
    rw [hl', hl, ← hmenu]
    exact hv.confined_link

/-! ## Deletions -/

/-- An app was taken over by a message, in the state the run had come to. -/
theorem Reachable.taken {os : OS W} {Ok : Reading (Machine W) → Prop} {m : Machine W} (h : Reachable os Ok m) :
    EveryAt (fun pre e _ => ∃ m₀, Reachable os Ok m₀ ∧ m₀.sys.trace <+: pre ∧
      ∀ u, e = .updated u → ∃ p, TakenOver m₀ p u) m.sys.trace := by
  have hnone : ∀ m m' : Machine W, Appends NotUpdated m.sys m'.sys →
      Appends (fun e => ∀ u, e = .updated u → ∃ p, TakenOver m p u) m.sys m'.sys := fun _ _ h =>
    h.mono fun _ he u hu => (he u hu).elim
  refine h.origin (P := fun m e => ∀ u, e = .updated u → ∃ p, TakenOver m p u) (fun s => ?_) fun m m' hc => ?_
  · refine (outcome_receive os (m := s.out) (P := fun m' => Appends _ s.out.sys m'.sys) (refl_of _ _)
      ((notUpdated_OnCaps os s.out).mono (fun _ => hnone _) fun _ => hnone _) (fun _ => ?_)
      (fun _ => (notUpdated_OnDeleteAppList os s.out).mono (fun _ => hnone _) fun _ => hnone _)
      fun _ => (notUpdated_OnAssociateWindowId os s.out).mono (fun _ => hnone _) fun _ => hnone _).final rfl
    refine fun r hr => (Ends.self (OnUpdateAppList os) r).mono (fun _ t ht => ?_) fun _ t ht => ?_
    · obtain ⟨p, _, _, -, evs, u, htrace, hone, htaken, -⟩ := OnUpdateAppList_ok os ht
      rw [← hr]
      refine ⟨evs, htrace, fun e he v hv => ⟨p, ?_⟩⟩
      have hmem := mem_updatesIn.2 (hv ▸ he)
      rw [hone, List.mem_singleton] at hmem
      exact hmem ▸ htaken
    · exact hr ▸ hnone _ _ (OnUpdateAppList_error os ht)
  · obtain ⟨-, evs, ht, -, hupd⟩ := OnClose_spec hc
    exact hnone m m' ⟨evs, ht, updatesIn_eq_nil.1 hupd⟩

/-- The paths of messages in a run that has come to `m`. -/
structure StaysInFolders (os : OS W) (m : Machine W) : Prop where
  /-- An update creates only in the folders of the moment, below which it does not climb. -/
  update : ∀ s : Reading (Machine W), s.out = m →
    Appends (InFolders m.this) m.sys (finalState (OnUpdateAppList os s)).out.sys
  /-- A deletion deletes only what an update with its key made in the folders of its time. -/
  delete : ∀ s t : Reading (Machine W), s.out = m → OnDeleteAppList os s = .ok ⟨⟩ t →
    ∃ p r evs, readDelete s = .ok p r ∧ t.out.sys.trace = m.sys.trace ++ evs ∧
      ∀ path ok, .DeleteFileW path ok ∈ evs → ∃ m₀ q u, Reachable os anyMessage m₀ ∧ TakenOver m₀ q u ∧
        .updated u ∈ m.sys.trace ∧ u.key = keyOf p.appGroup p.appId ∧
        (path = u.linkPath ∧ Confined m₀.this.m_appMenuPath path ∨ path = u.iconPath ∧ Confined m₀.this.m_iconPath path)
  /-- One that is rejected deletes nothing. -/
  rejected : ∀ (s t : Reading (Machine W)) x, s.out = m → OnDeleteAppList os s = .error x t → t.out = m

/-- The strings of a message cannot lead out of the folders of the provider. -/
theorem message_fields_stay_in_folders (os : OS W) {m : Machine W} (h : Reachable os anyMessage m) :
    StaysInFolders os m where
  update s hs := hs ▸ (inFolders_OnUpdateAppList os s.out).final rfl
  rejected s t x hs ht := hs ▸ (ends_OnDeleteAppList os s).error ht
  delete s t hs ht := by
    subst hs
    obtain ⟨p, r, hp, db, e, hdb, he, ht⟩ := (ends_OnDeleteAppList os s).ok ht
    obtain ⟨link, hlt, hlink⟩ := deleteRecorded_spec os e.m_linkFilePath s.out.sys
    obtain ⟨icon, hit, hicon⟩ :=
      deleteRecorded_spec os e.m_iconFilePath (deleteRecorded os e.m_linkFilePath s.out.sys).2
    have htrace : t.out.sys.trace = s.out.sys.trace ++ (link ++ icon ++
        [.deleted (keyOf p.appGroup p.appId) e.m_linkFilePath e.m_iconFilePath]) := by
      rw [ht]
      simp [deleteEntry, hit, hlt]
    refine ⟨p, r, _, hp, htrace, fun path ok hmem => ?_⟩
    -- the entry comes from an update earlier in the run, whose folders are those of its time
    have hreg : s.out.ledger.registry (keyOf p.appGroup p.appId) = some ⟨e.m_linkFilePath, e.m_iconFilePath⟩ := by
      simp [Machine.ledger, hdb, appsOf, he]
    obtain ⟨u, hu, hkey, happ⟩ := h.steps.registered hreg
    obtain ⟨hl, hi⟩ := App.mk.injEq .. ▸ happ
    obtain ⟨pre, post, hsplit⟩ := List.append_of_mem hu
    obtain ⟨m₀, hm₀, -, htaken⟩ := h.taken pre _ post hsplit
    obtain ⟨q, hq⟩ := htaken u rfl
    have hconf := h.steps.confined hu
    refine ⟨m₀, q, u, hm₀, hq, hu, hkey, ?_⟩
    rw [List.mem_append, List.mem_append] at hmem
    rcases hmem with (hmem | hmem) | hmem
    · obtain ⟨-, _, heq⟩ := hlink.events _ hmem
      cases heq
      exact .inl ⟨hl.symm, hl ▸ hq.appMenuPath ▸ hconf.link⟩
    · obtain ⟨hne, _, heq⟩ := hicon.events _ hmem
      cases heq
      exact .inr ⟨hi.symm, hi ▸ hq.iconRoot ▸ hconf.icon.resolve_left (hi ▸ hne)⟩
    · simp at hmem

theorem message_fields_stay_in_folders_on_disk :
    StaysInFolders diskOS (runOn [] [capsMessage (L "U"), updateMessage 0 (L "a") (L "foo")]) ∧
      (updatesIn (runOn [] [capsMessage (L "U"), updateMessage 0 (L "a") (L "foo")]).sys.trace).map (·.linkPath) =
        [L "C:\\S\\Programs\\U\\foo.lnk"] :=
  ⟨message_fields_stay_in_folders diskOS (reachable_runOn _ _), by decide +kernel⟩

end Wslg
