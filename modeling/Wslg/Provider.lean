import Wslg.Handshake
/-!
# The folders of a provider

They are built from the name in a CAPS message once it has passed a check. They
lie below the folders that all providers share exactly if the name has a
component that names something.
-/

open Lib Lib.TraceM

namespace Wslg

open Client WSLDVCCallback

variable {W : Type}

/-! ## The folders -/

/-- An accepted CAPS message: what was read, and what was built from it. -/
theorem OnCaps_ok {os : OS W} {s t : Reading (Machine W)} (h : OnCaps os s = .ok ⟨⟩ t) : ∃ r,
    readCaps s = .ok ⟨⟩ r ∧ providerOk (capsProvider r.out.this).str = true ∧
      t.out.this.m_appProvider = capsProvider r.out.this ∧
      ∃ startMenu temp, Folders os (capsProvider r.out.this).str startMenu temp t.out.this := by
  have key : Ends (OnCaps os) s (fun _ t => ∃ r, readCaps s = .ok ⟨⟩ r ∧ providerOk (capsProvider r.out.this).str = true ∧
      t.out.this.m_appProvider = capsProvider r.out.this ∧
      ∃ startMenu temp, Folders os (capsProvider r.out.this).str startMenu temp t.out.this) fun _ _ => True := by
    unfold OnCaps
    refine Ends.bind (Ends.self readCaps s) (fun _ r hr => ?_) fun _ _ _ => trivial
    refine Ends.bind (outcome_OnCapsProvider os r.out r rfl) (fun _ u hu => ?_) fun _ _ _ => trivial
    refine Ends.bind (outcome_OnCapsPaths os u.out u rfl) (fun _ v hv => ?_) fun _ _ _ => trivial
    refine Ends.bind (outcome_OnCapsEnvironment os v.out v rfl) (fun _ w hw => ?_) fun _ _ _ => trivial
    refine (outcome_OnCapsReply os w.out w rfl).mono (fun _ t ht => ?_) fun _ _ _ => trivial
    obtain ⟨-, hname, hok, -⟩ := hu
    obtain ⟨hpaths, hmenu, hicon, -⟩ := hv
    have hprovider : t.out.this.m_appProvider = capsProvider r.out.this :=
      (ht.1.map (·.m_appProvider) fun _ => rfl).trans <| (hw.map (·.m_appProvider) fun _ => rfl).trans <|
        (hpaths.map (·.m_appProvider) fun _ => rfl).trans hname
    have hmenuPath : t.out.this.m_appMenuPath = v.out.this.m_appMenuPath :=
      (ht.1.map (·.m_appMenuPath) fun _ => rfl).trans (hw.map (·.m_appMenuPath) fun _ => rfl)
    have hiconPath : t.out.this.m_iconPath = v.out.this.m_iconPath :=
      (ht.1.map (·.m_iconPath) fun _ => rfl).trans (hw.map (·.m_iconPath) fun _ => rfl)
    refine ⟨r, hr, hok, hprovider, folders_iff.2 ?_⟩
    rw [hmenuPath, hiconPath, ← hname]
    exact ⟨hmenu, hicon⟩
  exact key.ok h

/-- The name that was read. -/
theorem readCaps_name {s r : Reading (Machine W)} (hs : s.Valid) (hr : readCaps s = .ok ⟨⟩ r) :
    ∃ (name : RAIL_UNICODE_STRING) (f : StringField), nameBytes s.rest = name.string ∧ Readable true name.string ∧
      r.out.this.m_serverCaps.appListProviderName = f.put name.string ∧
      r.out.this.m_appProvider = s.out.this.m_appProvider := by
  obtain ⟨p, ⟨rst, hrest⟩, hp, hout⟩ := readCaps_ok hs hr
  refine ⟨p.appListProviderName, s.out.this.m_serverCaps.appListProviderName, ?_, hp.name, ?_, ?_⟩
  · rw [← hrest, nameBytes_taken]
  · rw [hout]
    rfl
  · rw [hout]
    rfl

/-- What a CAPS message leaves on a fresh channel, in terms of its bytes. -/
theorem OnCaps_ok_fresh {os : OS W} {w : W} {s t : Reading (Machine W)} (hs : s.Valid) (hw : s.out = .fresh w)
    (h : OnCaps os s = .ok ⟨⟩ t) : providerOk (providerName s.rest) = true ∧
      ∃ startMenu temp, Folders os (providerName s.rest) startMenu temp t.out.this := by
  obtain ⟨r, hr, hok, -, hfolders⟩ := OnCaps_ok h
  obtain ⟨name, f, hbytes, hread, hfield, hold⟩ := readCaps_name hs hr
  have hname : (capsProvider r.out.this).str = providerName s.rest := by
    rw [providerName_eq, hbytes]
    refine str_capsProvider hread hfield ?_
    rw [hold, hw]
    rfl
  rw [hname] at hok hfolders
  exact ⟨hok, hfolders⟩

/-- A component that names something. -/
def NamesFolder (provider : WString) : Prop := ∃ n ∈ pathComponents provider, Named dot n

theorem strictlyBelow_provider {provider : WString} (h : providerOk provider = true) (root : WString) :
    StrictlyBelow isSep dot root (root ++ 92 :: provider) ↔ NamesFolder provider :=
  strictlyBelow_append rfl (not_mem_components (providerOk_iff.1 h (L "..") (by simp)))

/-- The folders built on a fresh channel lie strictly below the shared ones
exactly if some component of the name is neither empty nor `.`. -/
theorem provider_owns_sub_folder (os : OS W) {w : W} {s t : Reading (Machine W)} (hs : s.Valid) (hw : s.out = .fresh w)
    (h : OnCaps os s = .ok ⟨⟩ t) : ∃ startMenu temp, Folders os (providerName s.rest) startMenu temp t.out.this ∧
      (StrictlyBelow isSep dot (startMenu ++ L "\\Programs") t.out.this.m_appMenuPath ∧
        StrictlyBelow isSep dot (temp ++ L "WSLDVCPlugin") t.out.this.m_iconPath ↔ NamesFolder (providerName s.rest)) := by
  obtain ⟨hok, startMenu, temp, hf⟩ := OnCaps_ok_fresh hs hw h
  have hmenu : t.out.this.m_appMenuPath = (startMenu ++ L "\\Programs") ++ 92 :: providerName s.rest := by
    rw [hf.menu]
    simp [L]
  have hicon : t.out.this.m_iconPath = (temp ++ L "WSLDVCPlugin") ++ 92 :: providerName s.rest := by
    rw [hf.icon]
    simp [L, iconPrefix]
  refine ⟨startMenu, temp, hf, ?_⟩
  -- both folders end in the name, and the name does not climb
  rw [hmenu, hicon, strictlyBelow_provider hok, strictlyBelow_provider hok, and_self_iff]

theorem provider_owns_sub_folder_on_disk : ∃ t, OnCaps diskOS (.between [] (capsPayload (L "U")) (.fresh [])) = .ok ⟨⟩ t ∧
    ∃ startMenu temp, Folders diskOS (L "U") startMenu temp t.out.this ∧
      StrictlyBelow isSep dot (startMenu ++ L "\\Programs") t.out.this.m_appMenuPath ∧
        StrictlyBelow isSep dot (temp ++ L "WSLDVCPlugin") t.out.this.m_iconPath := by
  have hok : succeeded (OnCaps diskOS (.between [] (capsPayload (L "U")) (.fresh []))) = true := by decide +kernel
  obtain ⟨⟨⟩, t, ht⟩ := succeeded_iff.1 hok
  obtain ⟨startMenu, temp, hf, hiff⟩ := provider_owns_sub_folder diskOS (by simp) rfl ht
  have hname : providerName (capsPayload (L "U")) = L "U" := by decide +kernel
  rw [Reading.between_rest, hname] at hf hiff
  exact ⟨t, ht, startMenu, temp, hf, hiff.2 ⟨L "U", by decide +kernel⟩⟩

/-- The name `.` is accepted, and a session then deletes a link of the user. -/
theorem provider_dot_owns_programs :
    (∃ t, OnCaps diskOS (.between [] (capsPayload (L ".")) (.fresh [])) = .ok ⟨⟩ t ∧
      resolve isSep dot t.out.this.m_appMenuPath = resolve isSep dot (L "C:\\S\\Programs") ∧
        ¬ StrictlyBelow isSep dot (L "C:\\S\\Programs") t.out.this.m_appMenuPath) ∧
    L "C:\\S\\Programs\\.\\mine.lnk" ∈ deletedPaths (runOn [⟨L "C:\\S\\Programs\\mine.lnk", []⟩] [capsMessage (L "."),
      updateMessage (RDPAPPLIST_HINT_SYNC_START ||| RDPAPPLIST_HINT_SYNC ||| RDPAPPLIST_HINT_SYNC_END) (L "a") (L "foo")]).sys.trace := by
  refine ⟨?_, by decide +kernel⟩
  have hok : succeeded (OnCaps diskOS (.between [] (capsPayload (L ".")) (.fresh []))) = true := by decide +kernel
  have hmenu : (finalState (OnCaps diskOS (.between [] (capsPayload (L ".")) (.fresh [])))).out.this.m_appMenuPath =
      L "C:\\S\\Programs\\." := by decide +kernel
  obtain ⟨⟨⟩, t, ht⟩ := succeeded_iff.1 hok
  rw [ht, finalState_ok] at hmenu
  exact ⟨t, ht, by rw [hmenu]; decide +kernel, by rw [hmenu]; decide +kernel⟩

end Wslg
