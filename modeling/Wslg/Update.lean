import Wslg.Frame
import Wslg.Ledger
/-!
# What an update does

`OnUpdateAppList` in four steps: the message is read, a session is started if
asked to, the paths are built and the app is registered, and the files are
created. Each step has one specification.
-/

open Lib Lib.TraceM

namespace Wslg

open Client WSLDVCCallback

variable {W α : Type} {R : Sys W → Sys W → Prop}

/-! ## Outcomes of single steps -/

section Steps

variable {m : Machine W} {Q : α → Machine W → Prop} {E : ReadStop Stop → Machine W → Prop}

theorem outcome_getThis_bind {k : WSLDVCCallback → Handler W α} (h : Outcome (k m.this) m Q E) :
    Outcome (getThis >>= k) m Q E := Outcome.act_bind h

theorem outcome_setThis_bind {f : WSLDVCCallback → WSLDVCCallback} {k : PUnit → Handler W α}
    (h : Outcome (k ⟨⟩) { m with this := f m.this } Q E) : Outcome (setThis f >>= k) m Q E :=
  Outcome.bind (Outcome.update_iff.2 h)

theorem outcome_sys_bind {β : Type} {x : SysM W β} {k : β → Handler W α}
    (h : Outcome (k (x m.sys).1) { m with sys := (x m.sys).2 } Q E) : Outcome (sys x >>= k) m Q E := Outcome.act_bind h

theorem outcome_sys {x : SysM W α} (h : Q (x m.sys).1 { m with sys := (x m.sys).2 }) : Outcome (sys x) m Q E :=
  Outcome.act_iff.2 h

theorem outcome_okOr {x : Option α} (hQ : ∀ a, x = some a → Q a m) (hE : x = none → ∀ e, E e m) :
    Outcome (okOr x) m Q E := by
  cases x with
  | none => exact Outcome.reject_iff.2 (hE rfl _)
  | some a => exact Outcome.pure_iff.2 (hQ a rfl)

theorem outcome_deref {x : Option α} (hQ : ∀ a, x = some a → Q a m) (hE : x = none → ∀ e, E e m) :
    Outcome (deref x) m Q E := by
  cases x with
  | none => exact Outcome.reject_iff.2 (hE rfl _)
  | some a => exact Outcome.pure_iff.2 (hQ a rfl)

theorem outcome_failWhen {b : Bool} {Q : PUnit → Machine W → Prop} (hQ : b = false → Q ⟨⟩ m)
    (hE : b = true → ∀ e, E e m) : Outcome (failWhen b) m Q E :=
  Outcome.ite (fun h => Outcome.reject_iff.2 (hE h _)) fun h => Outcome.pure_iff.2 (hQ (by simpa using h))

theorem outcome_check {hr : Option HRESULT} {Q : PUnit → Machine W → Prop} (hQ : hr = none → Q ⟨⟩ m)
    (hE : hr ≠ none → ∀ e, E e m) : Outcome (check hr) m Q E := by
  cases hr with
  | none => exact Outcome.pure_iff.2 (hQ rfl)
  | some _ => exact Outcome.reject_iff.2 (hE (by simp) _)

end Steps

/-! ## Paths and keys -/

/-- What the group adds to a path. -/
def groupPart (group : StringField) : WString := if group.length ≠ 0 then L "\\" ++ group.str else []

/-- What the message adds to a root: the group, the name and the extension. -/
def pathSuffix (group : StringField) (name ext : WString) : WString := groupPart group ++ L "\\" ++ name ++ ext

def keyOf (group id : StringField) : WString := (if group.length ≠ 0 then group.str ++ L "\\" else []) ++ id.str

/-! ### They do not climb -/

theorem not_climbing_of_fieldsOk {p : RDPAPPLIST_UPDATE_APPLIST_PDU} (h : fieldsOk p = true) :
    (p.appGroup.length ≠ 0 → ¬ L ".." <:+: p.appGroup.str) ∧ ¬ L ".." <:+: p.appId.str ∧
      ¬ L ".." <:+: p.appDesc.str := by
  simp only [fieldsOk, Bool.and_eq_true, Bool.not_eq_true', Bool.and_eq_false_iff, Bool.or_eq_false_iff,
    bne_eq_false_iff_eq, wcsstr, decide_eq_false_iff_not] at h
  obtain ⟨⟨⟨hgroup, hid⟩, hdesc⟩, -⟩ := h
  exact ⟨fun hg => (hgroup.resolve_left hg).1, hid.1, hdesc.1⟩

theorem climbs_sep {q : WString} : L ".." ∈ pathComponents (L "\\" ++ q) ↔ L ".." ∈ pathComponents q := by
  have : pathComponents (L "\\" ++ q) = pathComponents [] ++ pathComponents q := components_append (x := []) rfl
  rw [this, List.mem_append]
  exact or_iff_right (by decide)

theorem climbs_append_sep {q r : WString} :
    L ".." ∈ pathComponents (q ++ L "\\" ++ r) ↔ L ".." ∈ pathComponents q ∨ L ".." ∈ pathComponents r := by
  have : pathComponents (q ++ L "\\" ++ r) = pathComponents q ++ pathComponents r := by
    rw [List.append_assoc]
    exact components_append rfl
  rw [this, List.mem_append]

theorem groupPart_not_climbing {p : RDPAPPLIST_UPDATE_APPLIST_PDU} (h : fieldsOk p = true) :
    L ".." ∉ pathComponents (groupPart p.appGroup) := by
  unfold groupPart
  split
  · rw [climbs_sep]
    exact not_mem_components ((not_climbing_of_fieldsOk h).1 ‹_›)
  · decide

/-- `..` cannot arise where the name and the extension meet. -/
theorem pathSuffix_not_climbing {p : RDPAPPLIST_UPDATE_APPLIST_PDU} (h : fieldsOk p = true) {name ext : WString}
    (hname : ¬ L ".." <:+: name) (hext : ext = L ".lnk" ∨ ext = L ".ico") :
    L ".." ∉ pathComponents (pathSuffix p.appGroup name ext) := by
  rw [pathSuffix, List.append_assoc _ name, climbs_append_sep]
  refine not_or.2 ⟨groupPart_not_climbing h, ?_⟩
  rcases hext with rfl | rfl
  · exact not_mem_components_append hname (by simp [L, isSep]) (by decide) (by decide) (by decide)
  · exact not_mem_components_append hname (by simp [L, isSep]) (by decide) (by decide) (by decide)

section Paths

variable [Std.Refl R] [IsTrans (Sys W) R] {os : OS W} {m : Machine W}

theorem outcome_enterGroup {path : WString} {group : StringField}
    (h : Keeps R (CreateDirectoryW os (path ++ groupPart group))) :
    Outcome (enterGroup os path group) m (fun q m' => q = path ++ groupPart group ∧ Frame Eq R m m')
      (fun _ => Frame Eq R m) := by
  unfold enterGroup groupPart at *
  split
  · rename_i hg
    rw [if_pos hg] at h
    refine Outcome.bind (outcome_okOr (fun q₁ h₁ => ?_) fun _ _ => refl_of (Frame Eq R) m)
    refine Outcome.bind (outcome_okOr (fun q₂ h₂ => ?_) fun _ _ => refl_of (Frame Eq R) m)
    obtain ⟨-, rfl⟩ := wcscat_s_some.1 h₁
    obtain ⟨-, rfl⟩ := wcscat_s_some.1 h₂
    rw [List.append_assoc]
    refine Outcome.bind ((frame_ensureDirectory h m).mono (fun _ m' hm => ?_) fun _ _ hm => hm)
    exact Outcome.pure_iff.2 ⟨rfl, hm⟩
  · exact Outcome.pure_iff.2 ⟨by simp, refl_of (Frame Eq R) m⟩

/-- A path that is built is the root with the suffix; only its two folders are created. -/
theorem outcome_buildPath {root : WString} {group : StringField} {name ext : WString}
    (hroot : Keeps R (CreateDirectoryW os root)) (hgroup : Keeps R (CreateDirectoryW os (root ++ groupPart group))) :
    Outcome (buildPath os root group name ext) m
      (fun q m' => q = root ++ pathSuffix group name ext ∧ Frame Eq R m m') (fun _ => Frame Eq R m) := by
  unfold buildPath
  refine Outcome.bind (outcome_okOr (fun q₁ h₁ => ?_) fun _ _ => refl_of (Frame Eq R) m)
  obtain ⟨-, rfl⟩ := wcscpy_s_some.1 h₁
  refine Outcome.bind ((frame_ensureDirectory hroot m).mono (fun _ m₁ hm₁ => ?_) fun _ _ hm => hm)
  refine Outcome.bind ((outcome_enterGroup hgroup).mono (fun q m₂ hm₂ => ?_) fun _ _ hm => trans_of (Frame Eq R) hm₁ hm)
  obtain ⟨rfl, hm₂⟩ := hm₂
  have hm : Frame Eq R m m₂ := trans_of (Frame Eq R) hm₁ hm₂
  refine Outcome.bind (outcome_okOr (fun q₂ h₂ => ?_) fun _ _ => hm)
  refine Outcome.bind (outcome_okOr (fun q₃ h₃ => ?_) fun _ _ => hm)
  refine outcome_okOr (fun q₄ h₄ => ?_) fun _ _ => hm
  obtain ⟨-, rfl⟩ := wcscat_s_some.1 h₂
  obtain ⟨-, rfl⟩ := wcscat_s_some.1 h₃
  obtain ⟨-, rfl⟩ := wcscat_s_some.1 h₄
  exact ⟨by simp [pathSuffix], hm⟩

omit [Std.Refl R] [IsTrans (Sys W) R] in
theorem outcome_buildKey (group id : StringField) :
    Outcome (buildKey group id : Handler W _) m (fun k m' => k = keyOf group id ∧ m' = m) (fun _ m' => m' = m) := by
  have hgroup : Outcome (groupKey group : Handler W _) m
      (fun k m' => k = (if group.length ≠ 0 then group.str ++ L "\\" else []) ∧ m' = m) (fun _ m' => m' = m) := by
    unfold groupKey
    split
    · refine Outcome.bind (outcome_okOr (fun k₁ h₁ => ?_) fun _ _ => rfl)
      refine outcome_okOr (fun k₂ h₂ => ?_) fun _ _ => rfl
      obtain ⟨-, rfl⟩ := wcscat_s_some.1 h₁
      obtain ⟨-, rfl⟩ := wcscat_s_some.1 h₂
      exact ⟨rfl, rfl⟩
    · exact Outcome.pure_iff.2 ⟨rfl, rfl⟩
  refine Outcome.bind (hgroup.mono (fun k m' hk => ?_) fun _ _ hm => hm)
  obtain ⟨rfl, rfl⟩ := hk
  refine outcome_okOr (fun k h => ?_) fun _ _ => rfl
  obtain ⟨-, rfl⟩ := wcscat_s_some.1 h
  exact ⟨rfl, rfl⟩

end Paths

/-! ## Preparation -/

/-- The local variables of an update whose message passed all the checks. -/
structure Prepared (t : WSLDVCCallback) (p : RDPAPPLIST_UPDATE_APPLIST_PDU) (icon : RDPAPPLIST_ICON_DATA)
    (v : UpdateLocals) : Prop where
  message : v.updateAppList = p
  iconData : v.iconData = icon
  fields : fieldsOk p = true
  linkPath : v.linkPath = t.m_appMenuPath ++ pathSuffix p.appGroup p.appDesc.str (L ".lnk")
  iconPath : v.iconPath =
    if has p.flags RDPAPPLIST_FIELD_ICON then t.m_iconPath ++ pathSuffix p.appGroup p.appId.str (L ".ico") else []
  exeArgs : v.exeArgs = exeArgsOf t.m_appProvider.str p
  key : v.key = keyOf p.appGroup p.appId

/-- Only the folders and the provider of the callback matter. -/
theorem Prepared.of_same {t t' : WSLDVCCallback} {p : RDPAPPLIST_UPDATE_APPLIST_PDU} {icon : RDPAPPLIST_ICON_DATA}
    {v : UpdateLocals} (h : Prepared t p icon v) (hs : SameOn noDb t' t) : Prepared t' p icon v := by
  have hmenu : t.m_appMenuPath = t'.m_appMenuPath := hs.map (·.m_appMenuPath) fun _ => rfl
  have hicon : t.m_iconPath = t'.m_iconPath := hs.map (·.m_iconPath) fun _ => rfl
  have hprovider : t.m_appProvider = t'.m_appProvider := hs.map (·.m_appProvider) fun _ => rfl
  exact ⟨h.message, h.iconData, h.fields, hmenu ▸ h.linkPath, hicon ▸ h.iconPath, hprovider ▸ h.exeArgs, h.key⟩

theorem Prepared.confined_link {t : WSLDVCCallback} {p : RDPAPPLIST_UPDATE_APPLIST_PDU} {icon : RDPAPPLIST_ICON_DATA}
    {v : UpdateLocals} (h : Prepared t p icon v) : Confined t.m_appMenuPath v.linkPath :=
  ⟨_, h.linkPath, pathSuffix_not_climbing h.fields (not_climbing_of_fieldsOk h.fields).2.2 (.inl rfl)⟩

theorem Prepared.confined_icon {t : WSLDVCCallback} {p : RDPAPPLIST_UPDATE_APPLIST_PDU} {icon : RDPAPPLIST_ICON_DATA}
    {v : UpdateLocals} (h : Prepared t p icon v) :
    v.iconPath = [] ∨ has p.flags RDPAPPLIST_FIELD_ICON = true ∧ Confined t.m_iconPath v.iconPath := by
  have := h.iconPath
  split at this
  · exact .inr ⟨‹_›, _, this, pathSuffix_not_climbing h.fields (not_climbing_of_fieldsOk h.fields).2.1 (.inr rfl)⟩
  · exact .inl this

/-- The folders an update may create. -/
def UpdateFolder (t : WSLDVCCallback) (p : RDPAPPLIST_UPDATE_APPLIST_PDU) (path : WString) : Prop :=
  ∃ root, (root = t.m_appMenuPath ∨ root = t.m_iconPath) ∧ (path = root ∨ path = root ++ groupPart p.appGroup)

section Prepare

variable [Std.Refl R] [IsTrans (Sys W) R] {os : OS W} {m : Machine W}

theorem outcome_preparePaths (p : RDPAPPLIST_UPDATE_APPLIST_PDU) (icon : RDPAPPLIST_ICON_DATA)
    (h : fieldsOk p = true → ∀ path, UpdateFolder m.this p path → Keeps R (CreateDirectoryW os path)) :
    Outcome (preparePaths os p icon) m (fun v m' => Prepared m.this p icon v ∧ Frame Eq R m m')
      (fun _ => Frame Eq R m) := by
  have hrefl : Frame Eq R m m := refl_of _ m
  refine Outcome.bind (outcome_failWhen (fun hf => ?_) fun _ _ => hrefl)
  replace hf : fieldsOk p = true := by simpa using hf
  replace h := h hf
  -- the path of the icon file, which is empty without an icon
  have hicon : Outcome (buildIconFilePath os p) m (fun q m' => (q =
      if has p.flags RDPAPPLIST_FIELD_ICON then m.this.m_iconPath ++ pathSuffix p.appGroup p.appId.str (L ".ico")
      else []) ∧ Frame Eq R m m') (fun _ => Frame Eq R m) := by
    refine outcome_getThis_bind (Outcome.ite (fun hi => ?_) fun hi => ?_)
    · rw [if_pos hi]
      exact outcome_buildPath (h _ ⟨_, .inr rfl, .inl rfl⟩) (h _ ⟨_, .inr rfl, .inr rfl⟩)
    · rw [if_neg hi]
      exact Outcome.pure_iff.2 ⟨rfl, hrefl⟩
  refine Outcome.bind (hicon.mono (fun iconPath m₁ h₁ => ?_) fun _ _ hm => hm)
  obtain ⟨hi, hm₁⟩ := h₁
  -- the path of the link
  have hlink : Outcome (buildLinkPath os p) m₁ (fun q m' =>
      q = m.this.m_appMenuPath ++ pathSuffix p.appGroup p.appDesc.str (L ".lnk") ∧ Frame Eq R m₁ m')
      (fun _ => Frame Eq R m₁) := by
    refine outcome_getThis_bind ?_
    rw [← hm₁.1]
    exact outcome_buildPath (h _ ⟨_, .inl rfl, .inl rfl⟩) (h _ ⟨_, .inl rfl, .inr rfl⟩)
  refine Outcome.bind (hlink.mono (fun linkPath m₂ h₂ => ?_) fun _ _ hm => trans_of (Frame Eq R) hm₁ hm)
  obtain ⟨hl, hm₂⟩ := h₂
  have hm : Frame Eq R m m₂ := trans_of (Frame Eq R) hm₁ hm₂
  refine Outcome.bind (Outcome.act_bind (Outcome.bind (outcome_okOr (fun a ha => ?_) fun _ _ => hm)))
  refine Outcome.bind (outcome_failWhen (fun _ => Outcome.pure_iff.2 ?_) fun _ _ => hm)
  -- the arguments fit into their buffer
  obtain ⟨-, rfl⟩ := swprintf_s_some.1 ha
  refine Outcome.bind ((outcome_buildKey _ _).mono (fun k m₃ h₃ => ?_) fun _ _ h => h ▸ hm)
  obtain ⟨rfl, rfl⟩ := h₃
  exact Outcome.pure_iff.2 ⟨⟨rfl, rfl, hf, hl, hi, by rw [hm.1], rfl⟩, hm⟩

end Prepare

end Wslg
