import Wslg.Disk
import Wslg.Prefix
import Wslg.Update
import Wslg.ProviderName
/-!
# The handshake

CAPS may come again at any time, and OnCaps changes the members one after the
other with a return after most steps. The flag keeps its promise as long as a
CAPS message that comes after it was set does not stop halfway; whether it does
depends on what it says and on what the system answers.
-/

open Lib Lib.TraceM

namespace Wslg

open Client WSLDVCCallback

variable {W : Type}

/-! ## The promise -/

/-- The two folders are those of `provider` below two answers of the system. -/
structure Folders (os : OS W) (provider startMenu temp : WString) (t : WSLDVCCallback) : Prop where
  knownFolder : ∃ w, (os.SHGetKnownFolderPath w).1 = some startMenu
  tempPath : ∃ w n, n ≠ 0 ∧ (os.GetTempPathW MAX_PATH w).1 = (n, temp)
  menu : t.m_appMenuPath = startMenu ++ L "\\Programs\\" ++ provider
  icon : t.m_iconPath = temp ++ iconPrefix ++ provider

/-- What `m_handShakeComplated` stands for. -/
structure Handshake (os : OS W) (t : WSLDVCCallback) : Prop where
  version : RDPAPPLIST_CHANNEL_VERSION ≤ t.m_serverCaps.version
  provider : ∀ s ∈ [L "..", L "\"", L " "], ¬ s <:+: t.m_appProvider.str
  folders : ∃ startMenu temp, Folders os t.m_appProvider.str startMenu temp t

theorem providerOk_iff {provider : WString} :
    providerOk provider = true ↔ ∀ s ∈ [L "..", L "\"", L " "], ¬ s <:+: provider := by
  have h : providerOk provider = true ↔ ¬ (wcsstr provider (L "..") ∨ wcsstr provider (L "\"") ∨ wcsstr provider (L " ")) := by
    simp [providerOk, and_assoc]
  simp only [h, wcsstr_iff, not_or, List.forall_mem_cons, List.not_mem_nil, false_imp_iff, implies_true, and_true]

/-! ## The steps of OnCaps -/

/-! ### The message -/

section Version

variable {σ : Type} {R : σ → σ → Prop} [Std.Refl R] [IsTrans σ R]

omit [IsTrans σ R] in
theorem preserves_ReadUINT16 : Preserves R (ReadUINT16 : Reader HRESULT σ UInt16) := fun _ =>
  Outcome.bind (Outcome.takeBytes (fun _ => Outcome.pure_iff.2 (refl_of R _)) fun _ => refl_of R _)

/-- A string changes nothing but its field. -/
theorem preserves_ReadSTRING {o : Field σ} (h : ∀ f out, R out (o.set f out)) (required : Bool) :
    Preserves R (ReadSTRING o required) := by
  refine preserves_ReadUINT16.bind fun n => (Preserves.update fun out => h _ out).bind fun _ => Preserves.ite
    (fun _ => Preserves.reject _) fun _ => Preserves.ite (fun _ => Preserves.bind (fun out => ?_) fun _ => ?_) fun _ =>
      Preserves.ite (fun _ => Preserves.reject _) fun _ => Preserves.pure _
  · refine Outcome.readInto (fun bs out' hc => ?_) fun _ => refl_of R out
    obtain ⟨c, -, rfl⟩ := Option.map_eq_some_iff.1 hc
    exact h _ _
  · refine Preserves.store fun out out' ht => ?_
    obtain ⟨c, -, rfl⟩ := Option.map_eq_some_iff.1 ht
    exact h _ _

def SameVersion (c c' : RDPAPPLIST_SERVER_CAPS_PDU) : Prop := c'.version = c.version

instance : Std.Refl SameVersion := ⟨fun _ => rfl⟩
instance : IsTrans _ SameVersion := ⟨fun _ _ _ h h' => h'.trans h⟩

/-- What follows the version. -/
def ReadCapsStrings (version : UInt16) : Reader HRESULT RDPAPPLIST_SERVER_CAPS_PDU PUnit := do
  ReadSTRING RDPAPPLIST_SERVER_CAPS_PDU.name true
  if 4 ≤ version then ReadSTRING RDPAPPLIST_SERVER_CAPS_PDU.uniqueId true else pure ⟨⟩

theorem ReadAppListServerCaps_eq : ReadAppListServerCaps = onCopy (do
    let version ← ReadUINT16
    update (fun c => { c with version := version })
    ReadCapsStrings version) := rfl

theorem sameVersion_ReadCapsStrings (version : UInt16) : Preserves SameVersion (ReadCapsStrings version) :=
  (preserves_ReadSTRING (fun _ _ => rfl) true).bind fun _ =>
    Preserves.ite (fun _ => preserves_ReadSTRING (fun _ _ => rfl) true) fun _ => Preserves.pure _

/-- A message that is rejected leaves the version, or has brought another. -/
theorem version_of_rejected {c t : Reading RDPAPPLIST_SERVER_CAPS_PDU} {x : ReadStop HRESULT} (hc : c.Valid)
    (h : ReadAppListServerCaps c = .error x t) :
    t.out.version = c.out.version ∨ ∃ v, le16 v <+: c.rest ∧ t.out.version = v := by
  have hu := preserves_ReadUINT16.final (R := Eq) c
  rw [ReadAppListServerCaps_eq, onCopy, run_bind] at h
  cases hv : (ReadUINT16 : Reader HRESULT RDPAPPLIST_SERVER_CAPS_PDU _) c with
  | error y u =>
    rw [hv] at h hu
    cases h
    exact .inl (congrArg _ hu).symm
  | ok v u =>
    obtain ⟨tk, hb, hacc, -⟩ := local_ReadUINT16.of_ok hc hv
    obtain ⟨rfl, -⟩ := accepts_ReadUINT16.1 hacc
    refine .inr ⟨v, ⟨u.rest, hb.symm⟩, ?_⟩
    have ht := (sameVersion_ReadCapsStrings v).final { u with out := { u.out with version := v } }
    simp only [hv, run_update_bind] at h
    split at h
    · cases h
    · rename_i hw
      rw [hw] at ht
      cases h
      exact ht

end Version

/-- What a message that is read says, and what is left of it. -/
theorem readCaps_ok {s t : Reading (Machine W)} (hs : s.Valid) (h : readCaps s = .ok ⟨⟩ t) :
    ∃ p : Server.RDPAPPLIST_SERVER_CAPS_PDU, p.taken <+: s.rest ∧ p.Readable ∧
      t.out = setServerCaps (p.received s.out.this.m_serverCaps) s.out := by
  obtain ⟨tk, hrest, hacc, -⟩ := local_readCaps.of_ok hs h
  obtain ⟨c, hc, hout⟩ := (accepts_onPart local_ReadAppListServerCaps).1 (accepts_onCopy.1 hacc)
  obtain ⟨p, rfl, hp, rfl⟩ := accepts_ReadAppListServerCaps.1 hc
  exact ⟨p, ⟨_, hrest.symm⟩, hp, hout⟩

/-- A message that starts with a readable one is read. -/
theorem readCaps_of_taken {s : Reading (Machine W)} (hs : s.Valid) {p : Server.RDPAPPLIST_SERVER_CAPS_PDU}
    (htaken : p.taken <+: s.rest) (hp : p.Readable) : succeeded (readCaps s) = true := by
  obtain ⟨rst, hrst⟩ := htaken
  have hacc : Accepts readCaps s.out p.taken ⟨⟩ (setServerCaps (p.received s.out.this.m_serverCaps) s.out) :=
    accepts_onCopy.2 (onPart_accepts (accepts_ReadAppListServerCaps.2 ⟨p, rfl, hp, rfl⟩))
  exact succeeded_iff.2 ⟨_, _, hacc.run hs hrst.symm⟩

/-- A CAPS message that cannot be read changes `m_serverCaps` alone. -/
theorem readCaps_error {s t : Reading (Machine W)} {x : ReadStop Stop} (hs : s.Valid) (h : readCaps s = .error x t) :
    SameOn noServerCaps s.out.this t.out.this ∧ (t.out.this.m_serverCaps.version = s.out.this.m_serverCaps.version ∨
      ∃ v, le16 v <+: s.rest ∧ t.out.this.m_serverCaps.version = v) := by
  unfold readCaps onCopy onPart at h
  have hv := fun x t => version_of_rejected (c := { buf := s.buf, cur := s.cur, len := s.len, out := s.out.this.m_serverCaps })
    (x := x) (t := t) hs
  split at h
  · cases h
  · rename_i hr
    split at hr
    · cases hr
    · rename_i hr'
      cases hr
      cases h
      exact ⟨rfl, hv _ _ hr'⟩
    · rename_i hr'
      cases hr
      cases h
      exact ⟨rfl, hv _ _ hr'⟩

/-! ### The provider -/

/-- Whether a unique id is a GUID, and the world behind the answer. Before version 4 there is none to ask for. -/
def guidAnswer (os : OS W) (version : UInt16) (uniqueId : WString) (w : W) : Bool × W :=
  if version < 4 then (true, w)
  else if 40 ≤ (guidString uniqueId).length then (false, w)
  else ((os.CLSIDFromString (guidString uniqueId) w).1.1.isNone, (os.CLSIDFromString (guidString uniqueId) w).2)

theorem version_of_guidAnswer {os : OS W} {version : UInt16} {uniqueId : WString} {w : W}
    (h : (guidAnswer os version uniqueId w).1 = false) : 4 ≤ version := by
  by_contra hv
  rw [guidAnswer, if_pos (UInt16.not_le.1 hv)] at h
  cases h

/-- The answer that the message in `m_serverCaps` gets. -/
def Machine.guidAnswer (os : OS W) (m : Machine W) : Bool × W :=
  Wslg.guidAnswer os m.this.m_serverCaps.version m.this.m_serverCaps.appListProviderUniqueId.str m.sys.world

/-- The name is checked before the GUID, and only a version from 4 on has one. -/
theorem outcome_OnCapsProvider (os : OS W) (m : Machine W) : Outcome (OnCapsProvider os) m
    (fun _ m' => SameOn noProvider m.this m'.this ∧ m'.this.m_appProvider = capsProvider m.this ∧
      providerOk (capsProvider m.this).str = true ∧ m.guidAnswer os = (true, m'.sys.world))
    fun _ m' => SameOn noProvider m.this m'.this ∧ m'.this.m_appProvider = capsProvider m.this ∧
      (providerOk (capsProvider m.this).str = true → (m.guidAnswer os).1 = false) := by
  refine Outcome.bind (Outcome.store (fun m' h => ?_) fun h => ?_)
  · rw [copy_capsProvider, Option.map_some, Option.some.injEq] at h
    subst h
    refine outcome_getThis_bind (Outcome.bind (outcome_failWhen (fun hok => ?_) fun hbad _ => ?_))
    · replace hok : providerOk (capsProvider m.this).str = true := by simpa using hok
      refine Outcome.ite (fun hv => ?_) fun hv => Outcome.pure_iff.2 ⟨rfl, rfl, hok, if_pos (UInt16.not_le.1 hv)⟩
      have hv' : ¬ m.this.m_serverCaps.version < 4 := UInt16.not_lt.2 hv
      refine Outcome.bind (outcome_okOr (fun s hs => ?_) fun hnone _ => ?_)
      · obtain ⟨hlen, rfl⟩ := swprintf_s_some.1 hs
        have hanswer : m.guidAnswer os = _ := (if_neg hv').trans (if_neg (Nat.not_le.2 hlen))
        refine Outcome.bind (outcome_failWhen (fun _ => outcome_sys_bind (outcome_setThis_bind (outcome_check
          (fun hguid => ?_) fun hguid _ => ?_))) fun hempty _ => by simp [guidString, L] at hempty)
        · exact ⟨rfl, rfl, hok, hanswer.trans (Prod.ext (Option.isNone_iff_eq_none.2 hguid) rfl)⟩
        · refine ⟨rfl, rfl, fun _ => ?_⟩
          rw [hanswer]
          exact Option.isNone_eq_false_iff.2 (Option.isSome_iff_ne_none.2 hguid)
      · exact ⟨rfl, rfl, fun _ => congrArg Prod.fst ((if_neg hv').trans (if_pos (swprintf_s_none.1 hnone)))⟩
    · exact ⟨rfl, rfl, fun hok => by simp_all⟩
  · rw [copy_capsProvider] at h
    cases h

/-! ### The folders -/

/-- A menu path of the provider. -/
def IsMenuPath (os : OS W) (provider path : WString) : Prop :=
  ∃ w startMenu, (os.SHGetKnownFolderPath w).1 = some startMenu ∧ path = startMenu ++ L "\\Programs\\" ++ provider

/-- An icon path of the provider. -/
def IsIconPath (os : OS W) (provider path : WString) : Prop :=
  ∃ w n temp, n ≠ 0 ∧ (os.GetTempPathW MAX_PATH w).1 = (n, temp) ∧ path = temp ++ iconPrefix ++ provider

theorem folders_iff {os : OS W} {provider : WString} {t : WSLDVCCallback} :
    (∃ startMenu temp, Folders os provider startMenu temp t) ↔
      IsMenuPath os provider t.m_appMenuPath ∧ IsIconPath os provider t.m_iconPath := by
  constructor
  · rintro ⟨startMenu, temp, ⟨w, hmenu⟩, ⟨w', n, hn, htemp⟩, hm, hi⟩
    exact ⟨⟨w, startMenu, hmenu, hm⟩, w', n, temp, hn, htemp, hi⟩
  · rintro ⟨⟨w, startMenu, hmenu, hm⟩, w', n, temp, hn, htemp, hi⟩
    exact ⟨startMenu, temp, ⟨w, hmenu⟩, ⟨w', n, hn, htemp⟩, hm, hi⟩

/-- What the array of a path is left with: what it held, the path that was to be built,
with its folder created or not, or something else. -/
inductive PathLeft where
  | old
  | other
  | built (created : Bool)
  deriving DecidableEq

/-- `r` was returned and left in an array that held `before`, where a path as in `IsPath` was to be built. -/
def PathLeft.Leaves (before : WString) (IsPath : WString → Prop) (r : Option HRESULT × WString) : PathLeft → Prop
  | .old => r.1 ≠ none ∧ r.2 = before
  | .other => r.1 ≠ none
  | .built created => (r.1 = none ↔ created = true) ∧ IsPath r.2

/-- The path is built, and the system asked for its folder. -/
def folderLeft (os : OS W) (path : WString) (w : W) : PathLeft × W :=
  (.built ((os.CreateDirectoryW path w).1 ≠ .failed), (os.CreateDirectoryW path w).2)

/-- What the answers of the system leave of the menu path, and the world behind them. -/
def menuLeft (os : OS W) (provider : WString) (w : W) : PathLeft × W :=
  match os.SHGetKnownFolderPath w with
  | (none, w) => (.old, w)
  | (some startMenu, w) =>
    if MAX_PATH ≤ (startMenu ++ L "\\Programs\\" ++ provider).length then (.other, w)
    else folderLeft os (startMenu ++ L "\\Programs\\" ++ provider) w

/-- The same for the icon path, in the folder `root` of all providers. Without a name the two are the same. -/
def iconLeftIn (os : OS W) (root provider : WString) (w : W) : PathLeft × W :=
  if MAX_PATH ≤ root.length then (.other, w)
  else if (os.CreateDirectoryW root w).1 = .failed then
    (if provider = [] then .built false else .other, (os.CreateDirectoryW root w).2)
  else if MAX_PATH ≤ (root ++ provider).length then (.other, (os.CreateDirectoryW root w).2)
  else folderLeft os (root ++ provider) (os.CreateDirectoryW root w).2

def iconLeft (os : OS W) (provider : WString) (w : W) : PathLeft × W :=
  match os.GetTempPathW MAX_PATH w with
  | ((n, temp), w) =>
    if n = 0 ∨ MAX_PATH < n + (iconPrefix.length + 1) + provider.length then (.other, w)
    else iconLeftIn os (temp ++ iconPrefix) provider w

theorem createIf_run (os : OS W) (path : WString) (s : Sys W) : ∃ trace,
    createIf os true path s = (if (os.CreateDirectoryW path s.world).1 = .failed then some .E_FAIL else none,
      ⟨(os.CreateDirectoryW path s.world).2, trace⟩) := by
  cases h : (os.CreateDirectoryW path s.world).1 <;>
    simp [createIf, EnsureDirectory, CreateDirectoryW, h]

/-- `left` is what a builder whose array held `before` returns, leaves and does to the world. -/
def Builds (before : WString) (IsPath : WString → Prop) (x : SysM W (Option HRESULT × WString)) (s : Sys W)
    (left : PathLeft × W) : Prop :=
  Yields x s fun r t => t.world = left.2 ∧ left.1.Leaves before IsPath r

theorem builds_error {before path : WString} {IsPath : WString → Prop} (s : Sys W) (hr : HRESULT) :
    Builds before IsPath (pure (some hr, path)) s (.other, s.world) :=
  Yields.pure ⟨rfl, by simp [PathLeft.Leaves]⟩

theorem builds_folder {os : OS W} {before path : WString} {IsPath : WString → Prop} (h : IsPath path) (s : Sys W) :
    Builds before IsPath (createIf os true path >>= fun hr => pure (hr, path)) s (folderLeft os path s.world) := by
  obtain ⟨trace, hrun⟩ := createIf_run os path s
  unfold Builds Yields
  rw [bind_run, hrun]
  exact ⟨rfl, by simp, h⟩

theorem builds_BuildMenuPath (os : OS W) (before provider : WString) (s : Sys W) :
    Builds before (IsMenuPath os provider) (BuildMenuPath os MAX_PATH before provider true) s
      (menuLeft os provider s.world) := by
  refine Yields.call_bind ?_
  rcases hfolder : os.SHGetKnownFolderPath s.world with ⟨_ | startMenu, w⟩
  · exact Yields.pure ⟨by simp [menuLeft, hfolder], by simp [menuLeft, hfolder, PathLeft.Leaves]⟩
  · have hleft : menuLeft os provider s.world = if MAX_PATH ≤ (startMenu ++ L "\\Programs\\" ++ provider).length then (.other, w)
        else folderLeft os (startMenu ++ L "\\Programs\\" ++ provider) w := by rw [menuLeft, hfolder]
    rw [hleft]
    simp only
    split
    · rename_i hfull
      rw [if_pos (swprintf_s_none.1 hfull)]
      exact builds_error _ _
    · rename_i path hpath
      obtain ⟨hlen, rfl⟩ := swprintf_s_some.1 hpath
      rw [if_neg (Nat.not_le.2 hlen)]
      exact builds_folder ⟨s.world, startMenu, congrArg Prod.fst hfolder, rfl⟩ ⟨w, s.trace⟩

theorem builds_BuildIconPath (os : OS W) (before provider : WString) (s : Sys W) :
    Builds before (IsIconPath os provider) (BuildIconPath os MAX_PATH provider true) s (iconLeft os provider s.world) := by
  refine Yields.call_bind ?_
  rcases htemp : os.GetTempPathW MAX_PATH s.world with ⟨⟨n, temp⟩, w⟩
  rw [iconLeft, htemp]
  simp only
  refine Yields.ite (fun hn => ?_) fun hn => Yields.ite (fun hlong => ?_) fun hlong => ?_
  · rw [if_pos (.inl hn)]
    exact builds_error _ _
  · rw [if_pos (.inr hlong)]
    exact builds_error _ _
  · rw [if_neg (not_or.2 ⟨hn, hlong⟩), iconLeftIn]
    have htemp' : (os.GetTempPathW MAX_PATH s.world).1 = (n, temp) := congrArg Prod.fst htemp
    split
    · rename_i hfull
      rw [if_pos (wcscat_s_none.1 hfull)]
      exact builds_error _ _
    · rename_i root hroot
      obtain ⟨hlen, rfl⟩ := wcscat_s_some.1 hroot
      rw [if_neg (by rw [List.length_append]; omega)]
      obtain ⟨trace, hrun⟩ := createIf_run os (temp ++ iconPrefix) ⟨w, s.trace⟩
      unfold Yields
      rw [bind_run, hrun]
      by_cases hmade : (os.CreateDirectoryW (temp ++ iconPrefix) w).1 = .failed
      -- the folder of all providers is in the array
      · rw [if_pos hmade, if_pos hmade]
        by_cases hnil : provider = []
        · rw [if_pos hnil]
          exact ⟨rfl, by simp, s.world, n, temp, hn, htemp', by rw [hnil, List.append_nil]; rfl⟩
        · rw [if_neg hnil]
          exact builds_error ⟨_, trace⟩ _
      · rw [if_neg hmade, if_neg hmade]
        cases hpath : wcscat_s MAX_PATH (temp ++ iconPrefix) provider with
        | none =>
          rw [if_pos (wcscat_s_none.1 hpath)]
          exact builds_error ⟨_, trace⟩ _
        | some path =>
          obtain ⟨hlen', rfl⟩ := wcscat_s_some.1 hpath
          rw [if_neg (by rw [List.length_append]; omega)]
          exact builds_folder ⟨s.world, n, temp, hn, htemp', rfl⟩ ⟨_, trace⟩

/-- What becomes of the menu path of the provider that is in the members. -/
def Machine.menuLeft (os : OS W) (m : Machine W) : PathLeft × W := Wslg.menuLeft os m.this.m_appProvider.str m.sys.world

/-- Its icon path, for which the menu path must be built. -/
def Machine.iconLeft (os : OS W) (m : Machine W) : PathLeft × W :=
  Wslg.iconLeft os m.this.m_appProvider.str (m.menuLeft os).2

/-- Where OnCaps stops at the folders, and what the two paths are then. -/
inductive PathsStop (os : OS W) (m m' : Machine W) : Prop
  | menu (hr : Option HRESULT) : (m.menuLeft os).1 ≠ .built true →
      (m.menuLeft os).1.Leaves m.this.m_appMenuPath (IsMenuPath os m.this.m_appProvider.str) (hr, m'.this.m_appMenuPath) →
      m'.this.m_iconPath = m.this.m_iconPath → PathsStop os m m'
  | icon (hr : Option HRESULT) : (m.menuLeft os).1 = .built true →
      IsMenuPath os m.this.m_appProvider.str m'.this.m_appMenuPath → (m.iconLeft os).1 ≠ .built true →
      (m.iconLeft os).1.Leaves m.this.m_iconPath (IsIconPath os m.this.m_appProvider.str) (hr, m'.this.m_iconPath) →
      PathsStop os m m'

theorem PathLeft.Leaves.of_none {before : WString} {IsPath : WString → Prop} {r : Option HRESULT × WString}
    {left : PathLeft} (h : left.Leaves before IsPath r) (hr : r.1 = none) : left = .built true ∧ IsPath r.2 := by
  cases left with
  | old => exact absurd hr h.1
  | other => exact absurd hr h
  | built created => exact ⟨congrArg _ (h.1.1 hr), h.2⟩

theorem PathLeft.Leaves.of_some {before : WString} {IsPath : WString → Prop} {r : Option HRESULT × WString}
    {left : PathLeft} (h : left.Leaves before IsPath r) (hr : r.1 ≠ none) : left ≠ .built true := by
  rintro rfl
  exact hr (h.1.2 rfl)

/-- What worked has built both folders. -/
theorem outcome_OnCapsPaths (os : OS W) (m : Machine W) : Outcome (OnCapsPaths os) m
    (fun _ m' => SameOn noPaths m.this m'.this ∧ IsMenuPath os m.this.m_appProvider.str m'.this.m_appMenuPath ∧
      IsIconPath os m.this.m_appProvider.str m'.this.m_iconPath ∧ (m.menuLeft os).1 = .built true ∧
      m.iconLeft os = (.built true, m'.sys.world))
    fun _ m' => SameOn noPaths m.this m'.this ∧ PathsStop os m m' := by
  have hmenu := builds_BuildMenuPath os m.this.m_appMenuPath m.this.m_appProvider.str m.sys
  refine outcome_getThis_bind (outcome_sys_bind (outcome_setThis_bind (Outcome.bind (outcome_check (fun hm => ?_)
    fun hm _ => ⟨rfl, .menu _ (hmenu.2.of_some hm) hmenu.2 rfl⟩))))
  obtain ⟨hbuilt, hmenuPath⟩ := hmenu.2.of_none hm
  have hicon := builds_BuildIconPath os m.this.m_iconPath m.this.m_appProvider.str
    (BuildMenuPath os MAX_PATH m.this.m_appMenuPath m.this.m_appProvider.str true m.sys).2
  rw [hmenu.1] at hicon
  refine outcome_sys_bind (outcome_setThis_bind (outcome_check (fun hi => ?_) fun hi _ => ?_))
  · obtain ⟨hbuilt', hiconPath⟩ := hicon.2.of_none hi
    exact ⟨rfl, hmenuPath, hiconPath, hbuilt, Prod.ext hbuilt' hicon.1.symm⟩
  · exact ⟨rfl, .icon _ hbuilt hmenuPath (hicon.2.of_some hi) hicon.2⟩

/-! ### The reply -/

/-- Windows tells where the program is, which is to have room, and where its own folder is. `path` is in the array
that the registry is asked to fill. -/
def environmentOk (os : OS W) (path : WString) (w : W) : Bool :=
  let key := os.RegOpenKeyExW w
  let value := os.RegGetValueW path key.2
  key.1.isNone && value.1.1.isNone && decide (value.1.2.length + (L "\\wslg.exe").length < MAX_PATH) &&
    (os.ExpandEnvironmentStringsW (L "%windir%\\system32") value.2).1.1

/-- An answer that stops the handler is one that is asked for. -/
theorem environmentOk_of_stop (os : OS W) (m : Machine W) : Outcome (OnCapsEnvironment os) m (fun _ _ => True)
    fun _ _ => environmentOk os m.this.m_expandedPathObj m.sys.world = false := by
  have hfail : ∀ {x : Option HRESULT}, x ≠ none → x.isNone = false :=
    fun h => Option.isNone_eq_false_iff.2 (Option.isSome_iff_ne_none.2 h)
  let key := os.RegOpenKeyExW m.sys.world
  let value := os.RegGetValueW m.this.m_expandedPathObj key.2
  refine outcome_sys_bind (Outcome.bind (outcome_check (fun _ => outcome_getThis_bind ?_) fun hkey _ => ?_))
  · refine outcome_sys_bind (outcome_setThis_bind (Outcome.bind (outcome_check (fun _ => ?_) fun hvalue _ => ?_)))
    · refine outcome_setThis_bind (Outcome.bind (outcome_failWhen (fun _ => ?_) fun hexe _ => ?_))
      · refine outcome_sys_bind (outcome_setThis_bind (Outcome.bind (outcome_failWhen (fun _ => ?_) fun hdir _ => ?_)))
        · exact outcome_sys_bind (Outcome.update_iff.2 trivial)
        · have hanswer : (os.ExpandEnvironmentStringsW (L "%windir%\\system32") value.2).1.1 = false := by
            simpa using hdir
          exact Bool.and_eq_false_iff.2 (.inr hanswer)
      · have hfull : MAX_PATH ≤ (value.1.2 ++ L "\\wslg.exe").length := wcscat_s_none.1 (Option.isNone_iff_eq_none.1 hexe)
        rw [List.length_append] at hfull
        exact Bool.and_eq_false_iff.2 (.inl (Bool.and_eq_false_iff.2 (.inr (decide_eq_false (Nat.not_lt.2 hfull)))))
    · have hanswer : value.1.1.isNone = false := hfail hvalue
      exact Bool.and_eq_false_iff.2 (.inl (Bool.and_eq_false_iff.2 (.inl (Bool.and_eq_false_iff.2 (.inr hanswer)))))
  · have hanswer : key.1.isNone = false := hfail hkey
    exact Bool.and_eq_false_iff.2 (.inl (Bool.and_eq_false_iff.2 (.inl (Bool.and_eq_false_iff.2 (.inl hanswer)))))

theorem outcome_OnCapsEnvironment (os : OS W) (m : Machine W) :
    Outcome (OnCapsEnvironment os) m (fun _ m' => SameOn noEnvironment m.this m'.this)
      fun _ m' => SameOn noEnvironment m.this m'.this ∧ environmentOk os m.this.m_expandedPathObj m.sys.world = false :=
  ((frame_OnCapsEnvironment (silent_appends os fun _ => True) m).and (environmentOk_of_stop os m)).mono
    (fun _ _ h => h.1.1) fun _ _ h => ⟨h.1.1, h.2⟩

/-- From version 4 on the members stay, and below it the flag is cleared. -/
theorem outcome_OnCapsReply (os : OS W) (m : Machine W) : Outcome (OnCapsReply os) m
    (fun _ m' => SameOn noHandShake m.this m'.this ∧ RDPAPPLIST_CHANNEL_VERSION ≤ m.this.m_serverCaps.version)
    fun _ m' => SameOn noHandShake m.this m'.this ∧ (RDPAPPLIST_CHANNEL_VERSION ≤ m.this.m_serverCaps.version ∨
      m'.this.m_handShakeComplated = false) := by
  refine outcome_getThis_bind (Outcome.ite (fun hv => ?_) fun _ => ?_)
  · refine Outcome.bind (outcome_okOr (fun lang _ => ?_) fun _ _ => ⟨rfl, .inl hv⟩)
    exact outcome_sys_bind (outcome_setThis_bind (outcome_check (fun _ => ⟨rfl, hv⟩) fun _ _ => ⟨rfl, .inl hv⟩))
  · exact outcome_setThis_bind (Outcome.reject_iff.2 ⟨rfl, .inr rfl⟩)

/-! ## One message -/

section Message

variable (os : OS W) (p : Server.RDPAPPLIST_SERVER_CAPS_PDU) (m : Machine W)

/-- The name that the message `p` leaves in the provider. -/
def capsName : WString := nameOver m.this p.appListProviderName.string

/-- What the system answers to `p`, and what that leaves of the two paths. -/
def capsGuid : Bool × W := guidAnswer os p.version (wstring p.appListProviderUniqueId.string) m.sys.world

def capsMenu : PathLeft × W := menuLeft os (capsName p m) (capsGuid os p m).2

def capsIcon : PathLeft × W := iconLeft os (capsName p m) (capsMenu os p m).2

/-- With the message `p` OnCaps gets to its reply, or what it has changed before it returns makes no difference. -/
structure CapsKeeps : Prop where
  /-- The name is a good one. -/
  name : providerOk (capsName p m) = true
  /-- If the unique id is no GUID, the name is the one that is there. -/
  guid : (capsGuid os p m).1 = false → capsName p m = m.this.m_appProvider.str
  /-- So it is if the folder of the menu path cannot be found or created, and the version is not an old one;
  a menu path that is too long is lost. -/
  menu : (capsGuid os p m).1 = true → (capsMenu os p m).1 ≠ .built true → (capsMenu os p m).1 ≠ .other ∧
    capsName p m = m.this.m_appProvider.str ∧ RDPAPPLIST_CHANNEL_VERSION ≤ p.version
  /-- At most creating the folder of the icon path fails, for a version that is not an old one. -/
  icon : (capsGuid os p m).1 = true → (capsMenu os p m).1 = .built true → (capsIcon os p m).1 ≠ .built true →
    (capsIcon os p m).1 = .built false ∧ RDPAPPLIST_CHANNEL_VERSION ≤ p.version
  /-- With an old version the registry and the environment answer. -/
  environment : (capsGuid os p m).1 = true → (capsMenu os p m).1 = .built true → (capsIcon os p m).1 = .built true →
    RDPAPPLIST_CHANNEL_VERSION ≤ p.version ∨ environmentOk os m.this.m_expandedPathObj (capsIcon os p m).2 = true

end Message

/-- The CAPS message in `payload` does not stop halfway. -/
structure CapsCompletes (os : OS W) (payload : List BYTE) (m : Machine W) : Prop where
  /-- If it cannot be read, it brings no old version. -/
  unreadable : (∀ p : Server.RDPAPPLIST_SERVER_CAPS_PDU, p.taken <+: payload → ¬ p.Readable) →
    ∀ v, le16 v <+: payload → RDPAPPLIST_CHANNEL_VERSION ≤ v
  readable : ∀ p : Server.RDPAPPLIST_SERVER_CAPS_PDU, p.taken <+: payload → p.Readable → CapsKeeps os p m

/-- The flag is clear, or keeps its promise. -/
def Promised (os : OS W) (t : WSLDVCCallback) : Prop := t.m_handShakeComplated = true → Handshake os t

/-- What the promise speaks of. -/
def WSLDVCCallback.pledged (t : WSLDVCCallback) : UInt16 × WCharArray MAX_PATH × WString × WString :=
  (t.m_serverCaps.version, t.m_appProvider, t.m_appMenuPath, t.m_iconPath)

theorem handshake_iff {os : OS W} {t : WSLDVCCallback} : Handshake os t ↔
    RDPAPPLIST_CHANNEL_VERSION ≤ t.m_serverCaps.version ∧ providerOk t.m_appProvider.str = true ∧
      IsMenuPath os t.m_appProvider.str t.m_appMenuPath ∧ IsIconPath os t.m_appProvider.str t.m_iconPath := by
  rw [providerOk_iff, ← folders_iff]
  exact ⟨fun h => ⟨h.version, h.provider, h.folders⟩, fun h => ⟨h.1, h.2.1, h.2.2⟩⟩

theorem Handshake.same {os : OS W} {t t' : WSLDVCCallback} (h : Handshake os t) (hs : SameOn pledged t t') :
    Handshake os t' := by
  obtain ⟨hv, hn, hm, hi⟩ : t'.m_serverCaps.version = t.m_serverCaps.version ∧ t'.m_appProvider = t.m_appProvider ∧
      t'.m_appMenuPath = t.m_appMenuPath ∧ t'.m_iconPath = t.m_iconPath := by simpa [SameOn, pledged] using hs
  rw [handshake_iff, hv, hn, hm, hi]
  exact handshake_iff.1 h

/-! ### Step by step -/

/-- The members that only the end of OnCaps changes, and the paths. -/
def WSLDVCCallback.untilFolders (t : WSLDVCCallback) : Bool × WString × WString × WString :=
  (t.m_handShakeComplated, t.m_expandedPathObj, t.m_appMenuPath, t.m_iconPath)

/-- `p` is in `m_serverCaps` and its name in the provider. -/
structure NameCopied (p : Server.RDPAPPLIST_SERVER_CAPS_PDU) (m m' : Machine W) : Prop where
  version : m'.this.m_serverCaps.version = p.version
  provider : m'.this.m_appProvider.str = capsName p m
  others : SameOn untilFolders m.this m'.this

section Steps

variable {os : OS W} {p : Server.RDPAPPLIST_SERVER_CAPS_PDU} {m : Machine W}

theorem guidAnswer_received (os : OS W) (hp : p.Readable) (m : Machine W) :
    (setServerCaps (p.received m.this.m_serverCaps) m).guidAnswer os = capsGuid os p m := by
  unfold Machine.guidAnswer capsGuid guidAnswer
  by_cases hv : p.version < 4
  · exact (if_pos hv).trans (if_pos hv).symm
  · have hv' : 4 ≤ p.version := UInt16.not_lt.1 hv
    have hid : ((setServerCaps (p.received m.this.m_serverCaps) m).this.m_serverCaps.appListProviderUniqueId).str =
        wstring p.appListProviderUniqueId.string := by
      rw [← str_put (f := m.this.m_serverCaps.appListProviderUniqueId) (hp.uniqueId hv')]
      simp only [setServerCaps, Server.RDPAPPLIST_SERVER_CAPS_PDU.received, if_pos hv']
    rw [hid]
    rfl

theorem copied_OnCapsProvider (os : OS W) (hp : p.Readable) (m : Machine W) :
    Outcome (OnCapsProvider os) (setServerCaps (p.received m.this.m_serverCaps) m)
      (fun _ m' => NameCopied p m m' ∧ providerOk (capsName p m) = true ∧ capsGuid os p m = (true, m'.sys.world))
      fun _ m' => NameCopied p m m' ∧ (providerOk (capsName p m) = true → (capsGuid os p m).1 = false) := by
  have hname : (capsProvider (setServerCaps (p.received m.this.m_serverCaps) m).this).str = capsName p m :=
    str_capsProvider_over hp.name rfl
  have hcopied : ∀ m' : Machine W, SameOn noProvider (setServerCaps (p.received m.this.m_serverCaps) m).this m'.this →
      m'.this.m_appProvider = capsProvider (setServerCaps (p.received m.this.m_serverCaps) m).this → NameCopied p m m' :=
    fun m' hsame hprovider => ⟨hsame.map (·.m_serverCaps.version) fun _ => rfl, hprovider ▸ hname,
      hsame.map untilFolders fun _ => rfl⟩
  refine (outcome_OnCapsProvider os _).mono (fun _ m' h => ?_) fun _ m' h => ?_
  · rw [hname, guidAnswer_received os hp] at h
    exact ⟨hcopied m' h.1 h.2.1, h.2.2⟩
  · rw [hname, guidAnswer_received os hp] at h
    exact ⟨hcopied m' h.1 h.2.1, h.2.2⟩

section Folders

variable {m₁ : Machine W} (hcopied : NameCopied p m m₁) (hguid : capsGuid os p m = (true, m₁.sys.world))

include hcopied hguid

/-- The paths are those of the name that was copied. -/
theorem NameCopied.menuLeft : m₁.menuLeft os = capsMenu os p m := by
  rw [Machine.menuLeft, capsMenu, hcopied.provider, hguid]

theorem NameCopied.iconLeft : m₁.iconLeft os = capsIcon os p m := by
  rw [Machine.iconLeft, capsIcon, hcopied.provider, hcopied.menuLeft hguid]

end Folders

variable (h : Promised os m.this) (hk : m.this.m_handShakeComplated = true → CapsKeeps os p m)

include h hk

/-- The name or the GUID is bad. -/
theorem promised_guid {m' : Machine W} (hcopied : NameCopied p m m')
    (hguid : providerOk (capsName p m) = true → (capsGuid os p m).1 = false) : Promised os m'.this := fun hflag => by
  obtain ⟨hf, -, hm, hi⟩ := by simpa [SameOn, untilFolders] using hcopied.others
  rw [hf] at hflag
  have hfalse := hguid (hk hflag).name
  have hsame := (hk hflag).guid hfalse
  obtain ⟨-, hname, hmenu, hicon⟩ := handshake_iff.1 (h hflag)
  rw [handshake_iff, hcopied.version, hcopied.provider, hm, hi, hsame]
  exact ⟨version_of_guidAnswer hfalse, hname, hmenu, hicon⟩

/-- The folders cannot be built. -/
theorem promised_folders {m₁ m' : Machine W} (hcopied : NameCopied p m m₁) (hguid : capsGuid os p m = (true, m₁.sys.world))
    (hsame : SameOn noPaths m₁.this m'.this) (hstop : PathsStop os m₁ m') : Promised os m'.this := fun hflag => by
  obtain ⟨hf, -, hm, hi⟩ := by simpa [SameOn, untilFolders] using hcopied.others
  have hmenuLeft := hcopied.menuLeft hguid
  have hiconLeft := hcopied.iconLeft hguid
  have hprovider : m'.this.m_appProvider.str = capsName p m :=
    (hsame.map (·.m_appProvider.str) fun _ => rfl).trans hcopied.provider
  have hversion : m'.this.m_serverCaps.version = p.version :=
    (hsame.map (·.m_serverCaps.version) fun _ => rfl).trans hcopied.version
  have hflag' : m'.this.m_handShakeComplated = m.this.m_handShakeComplated :=
    (hsame.map (·.m_handShakeComplated) fun _ => rfl).trans hf
  rw [hflag'] at hflag
  have hkeeps := hk hflag
  obtain ⟨-, hname, hmenu, hicon⟩ := handshake_iff.1 (h hflag)
  have hg : (capsGuid os p m).1 = true := congrArg Prod.fst hguid
  rw [handshake_iff, hversion, hprovider]
  cases hstop with
  | menu hr hnot hleaves hold =>
    rw [hmenuLeft] at hnot hleaves
    obtain ⟨hother, hsameName, hv⟩ := hkeeps.menu hg hnot
    rw [hold, hi, hsameName]
    refine ⟨hv, hname, ?_, hicon⟩
    rw [hcopied.provider, hsameName, hm] at hleaves
    -- the menu path is as it was, or the same again
    cases hleft : (capsMenu os p m).1 with
    | old =>
      have hpath : m'.this.m_appMenuPath = m.this.m_appMenuPath := (hleft ▸ hleaves).2
      rw [hpath]
      exact hmenu
    | other => exact absurd hleft hother
    | built created => exact (hleft ▸ hleaves).2
  | icon hr hbuilt hmenuPath hnot hleaves =>
    rw [hmenuLeft] at hbuilt
    rw [hiconLeft] at hnot hleaves
    obtain ⟨hleft, hv⟩ := hkeeps.icon hg hbuilt hnot
    rw [hcopied.provider] at hmenuPath hleaves
    exact ⟨hv, hkeeps.name, hmenuPath, (hleft ▸ hleaves).2⟩

omit h in
/-- What was built for a good name keeps the promise, unless an old version stops before the reply. -/
theorem promised_reply {m₁ m₂ : Machine W} (hcopied : NameCopied p m m₁) (hguid : capsGuid os p m = (true, m₁.sys.world))
    (hsame : SameOn noPaths m₁.this m₂.this) (hmenu : IsMenuPath os m₁.this.m_appProvider.str m₂.this.m_appMenuPath)
    (hicon : IsIconPath os m₁.this.m_appProvider.str m₂.this.m_iconPath) (hbuilt : (m₁.menuLeft os).1 = .built true)
    (hbuilt' : m₁.iconLeft os = (.built true, m₂.sys.world)) (hname : providerOk (capsName p m) = true) :
    Outcome (OnCapsEnvironment os >>= fun _ => OnCapsReply os) m₂ (fun _ m' => Promised os m'.this)
      fun _ m' => Promised os m'.this := by
  obtain ⟨hf, hexe, -, -⟩ := by simpa [SameOn, untilFolders] using hcopied.others
  have hmenuLeft := hcopied.menuLeft hguid
  have hiconLeft := hcopied.iconLeft hguid
  rw [hmenuLeft] at hbuilt
  rw [hiconLeft] at hbuilt'
  have hprovider : m₂.this.m_appProvider = m₁.this.m_appProvider := hsame.map (·.m_appProvider) fun _ => rfl
  have hversion : m₂.this.m_serverCaps.version = p.version :=
    (hsame.map (·.m_serverCaps.version) fun _ => rfl).trans hcopied.version
  have hkeep : RDPAPPLIST_CHANNEL_VERSION ≤ m₂.this.m_serverCaps.version → Handshake os m₂.this := fun hv =>
    handshake_iff.2 ⟨hv, by rw [hprovider, hcopied.provider]; exact hname, hprovider ▸ hmenu, hprovider ▸ hicon⟩
  refine Outcome.bind ((outcome_OnCapsEnvironment os m₂).mono (fun _ m₃ h₃ => ?_) fun _ m₃ h₃ hflag => ?_)
  · have hversion' : m₃.this.m_serverCaps = m₂.this.m_serverCaps := h₃.map (·.m_serverCaps) fun _ => rfl
    refine (outcome_OnCapsReply os m₃).mono (fun _ m₄ h₄ _ => ?_) fun _ m₄ h₄ hflag => ?_
    · exact ((hkeep (hversion' ▸ h₄.2)).same (h₃.map pledged fun _ => rfl)).same (h₄.1.map pledged fun _ => rfl)
    · rcases h₄.2 with hv | hclear
      · exact ((hkeep (hversion' ▸ hv)).same (h₃.map pledged fun _ => rfl)).same (h₄.1.map pledged fun _ => rfl)
      · simp [hclear] at hflag
  · have hflag' : m₃.this.m_handShakeComplated = m.this.m_handShakeComplated :=
      (h₃.1.map (·.m_handShakeComplated) fun _ => rfl).trans ((hsame.map (·.m_handShakeComplated) fun _ => rfl).trans hf)
    have hobj : m₂.this.m_expandedPathObj = m.this.m_expandedPathObj :=
      (hsame.map (·.m_expandedPathObj) fun _ => rfl).trans hexe
    rw [hflag'] at hflag
    refine (hkeep ?_).same (h₃.1.map pledged fun _ => rfl)
    rw [hversion]
    refine ((hk hflag).environment (congrArg Prod.fst hguid) hbuilt (congrArg Prod.fst hbuilt')).resolve_right fun hok => ?_
    rw [hbuilt', ← hobj, h₃.2] at hok
    cases hok

/-- What follows the read of a good message. -/
theorem promised_answerCaps (hp : p.Readable) : Outcome (answerCaps os) (setServerCaps (p.received m.this.m_serverCaps) m)
    (fun _ m' => Promised os m'.this) fun _ m' => Promised os m'.this := by
  unfold answerCaps
  refine Outcome.bind ((copied_OnCapsProvider os hp m).mono (fun _ m₁ h₁ => ?_) fun _ m' h' => promised_guid h hk h'.1 h'.2)
  obtain ⟨hcopied, hname, hguid⟩ := h₁
  refine Outcome.bind ((outcome_OnCapsPaths os m₁).mono (fun _ m₂ h₂ => ?_) fun _ m' h' =>
    promised_folders h hk hcopied hguid h'.1 h'.2)
  obtain ⟨hsame, hmenu, hicon, hbuilt, hbuilt'⟩ := h₂
  exact promised_reply hk hcopied hguid hsame hmenu hicon hbuilt hbuilt' hname

end Steps

/-- One CAPS message that does not stop halfway keeps the promise. -/
theorem promised_OnCaps (os : OS W) {s : Reading (Machine W)} (hs : s.Valid) (h : Promised os s.out.this)
    (hc : s.out.this.m_handShakeComplated = true → CapsCompletes os s.rest s.out) :
    Ends (OnCaps os) s (fun _ t => Promised os t.out.this) fun _ t => Promised os t.out.this := by
  unfold OnCaps
  refine Ends.bind (Ends.self readCaps s) (fun _ t hr => ?_) fun x t hr hflag => ?_
  · obtain ⟨p, htaken, hp, hout⟩ := readCaps_ok hs hr
    exact promised_answerCaps h (fun hflag => (hc hflag).readable p htaken hp) hp t hout
  -- the message is cut off
  · obtain ⟨hsame, hv⟩ := readCaps_error hs hr
    have hflag' : t.out.this.m_handShakeComplated = s.out.this.m_handShakeComplated :=
      hsame.map (·.m_handShakeComplated) fun _ => rfl
    rw [hflag'] at hflag
    obtain ⟨hversion, hname, hmenu, hicon⟩ := handshake_iff.1 (h hflag)
    have hprovider : t.out.this.m_appProvider = s.out.this.m_appProvider := hsame.map (·.m_appProvider) fun _ => rfl
    have hpaths : t.out.this.m_appMenuPath = s.out.this.m_appMenuPath ∧ t.out.this.m_iconPath = s.out.this.m_iconPath :=
      ⟨hsame.map (·.m_appMenuPath) fun _ => rfl, hsame.map (·.m_iconPath) fun _ => rfl⟩
    rw [handshake_iff, hprovider, hpaths.1, hpaths.2]
    refine ⟨?_, hname, hmenu, hicon⟩
    rcases hv with hv | ⟨v, hb, hv⟩
    · rwa [hv]
    · rw [hv]
      refine (hc hflag).unreadable (fun p htaken hp => ?_) v hb
      have hok := readCaps_of_taken hs htaken hp
      simp [hr, succeeded] at hok

/-! ## Runs -/

/-- A CAPS message that comes when the handshake is complete does not stop halfway. -/
def KeepsHandshake (os : OS W) (s : Reading (Machine W)) : Prop :=
  s.out.this.m_handShakeComplated = true → ∀ length payload,
    s.rest = headerBytes ⟨RDPAPPLIST_CMDID_CAPS, length⟩ ++ payload → CapsCompletes os payload s.out

/-- What keeps all but the databases and the channel keeps the promise. -/
theorem Promised.noChannel {os : OS W} {t t' : WSLDVCCallback} (h : Promised os t) (hs : SameOn noChannel t t') :
    Promised os t' := fun hflag => by
  have hflag' : t'.m_handShakeComplated = t.m_handShakeComplated := hs.map (·.m_handShakeComplated) fun _ => rfl
  exact (h (hflag'.symm.trans hflag)).same (hs.map pledged fun _ => rfl)

theorem promised_receive {os : OS W} {s : Reading (Machine W)} (hs : s.Valid) (h : Promised os s.out.this)
    (hok : KeepsHandshake os s) : Promised os (finalState (receive os s)).out.this := by
  by_cases hcaps : ∃ hd t, readHeader s = .ok hd t ∧ hd.cmdId = RDPAPPLIST_CMDID_CAPS
  · obtain ⟨hd, t, hh, hcmd⟩ := hcaps
    have ht := out_readHeader_ok hh
    have hvalid : t.Valid := (readHeader_spec hs hh).1
    have hrest : s.rest = headerBytes ⟨RDPAPPLIST_CMDID_CAPS, hd.length⟩ ++ t.rest := by
      rw [← hcmd]
      exact readHeader_rest hs hh
    rw [receive_ok os hh, dispatch, if_pos hcmd]
    exact (promised_OnCaps os hvalid (ht ▸ h) fun hflag => ht ▸ hok (ht ▸ hflag) hd.length t.rest hrest).final
  · have hsame := noDb_receive os fun hd t hh hcmd => hcaps ⟨hd, t, hh, hcmd⟩
    exact h.noChannel (hsame.map (fun t => { t with m_bChannelClosed := false }) fun _ => rfl)

/-- In a run whose CAPS messages do not stop halfway, the flag keeps its promise. -/
theorem handshake_invariant (os : OS W) {m : Machine W} (h : Reachable os (KeepsHandshake os) m)
    (hflag : m.this.m_handShakeComplated = true) : Handshake os m.this :=
  h.invariant (I := fun m => Promised os m.this) (fun _ hf => by cases hf)
    (fun _ hs _ hok hi => promised_receive hs hi hok) (fun _ _ hc hi => hi.noChannel (members_OnClose hc)) hflag

/-! ### On the disk -/

/-- What is asked of a message is asked of one that the payload starts with. -/
theorem capsCompletes_of_taken {os : OS W} {m : Machine W} {p : Server.RDPAPPLIST_SERVER_CAPS_PDU} {payload : List BYTE}
    (htaken : p.taken <+: payload) (hp : p.Readable) (hk : CapsKeeps os p m) : CapsCompletes os payload m where
  unreadable hno := absurd hp (hno p htaken)
  readable q hq _ := by
    obtain ⟨r, hr⟩ := htaken
    obtain ⟨r', hr'⟩ := hq
    have hsame : q.Same p := Server.RDPAPPLIST_SERVER_CAPS_PDU.same_of_append (hr'.trans hr.symm)
    have hname : capsName q m = capsName p m := congrArg (nameOver m.this) hsame.name
    have hguid : capsGuid os q m = capsGuid os p m := by
      unfold capsGuid guidAnswer
      rw [hsame.version]
      split
      · rfl
      · rw [hsame.uniqueId (UInt16.not_lt.1 ‹_›)]
    have hmenu : capsMenu os q m = capsMenu os p m := by rw [capsMenu, hname, hguid, capsMenu]
    have hicon : capsIcon os q m = capsIcon os p m := by rw [capsIcon, hname, hmenu, capsIcon]
    obtain ⟨h₁, h₂, h₃, h₄, h₅⟩ := hk
    rw [← hname] at h₁ h₂ h₃
    rw [← hguid] at h₂ h₃ h₄ h₅
    rw [← hmenu] at h₃ h₄ h₅
    rw [← hicon] at h₄ h₅
    rw [← hsame.version] at h₃ h₄ h₅
    exact ⟨h₁, h₂, h₃, h₄, h₅⟩

/-- A second CAPS message, for the provider `V`, when the handshake is complete. -/
theorem handshake_invariant_on_disk :
    let m := afterMessage (capsMessage (L "V")) channelOfU
    channelOfU.this.m_handShakeComplated = true ∧ m.this.m_handShakeComplated = true ∧ m.this.m_appProvider.str = L "V" ∧
      Handshake diskOS m.this := by
  have hflag : (afterMessage (capsMessage (L "V")) channelOfU).this.m_handShakeComplated = true := by decide +kernel
  have hfirst : Reachable diskOS (KeepsHandshake diskOS) channelOfU :=
    .message (s := arrives (capsMessage (L "U")) (.fresh [])) (.fresh []) (Reading.between_valid _ _ _) rfl fun h => by cases h
  have hkeeps : CapsKeeps diskOS (serverCaps (L "V")) channelOfU :=
    ⟨by decide +kernel, by decide +kernel, by decide +kernel, by decide +kernel, by decide +kernel⟩
  have hread : (serverCaps (L "V")).Readable := ⟨by unfold Readable; decide +kernel, by unfold Readable; decide +kernel⟩
  have hstart : (serverCaps (L "V")).taken = capsPayload (L "V") := by decide +kernel
  refine ⟨by decide +kernel, hflag, by decide +kernel, handshake_invariant diskOS (.message
    (s := arrives (capsMessage (L "V")) channelOfU) hfirst (Reading.between_valid _ _ _) (by decide +kernel)
    fun _ length payload h => ?_) hflag⟩
  have hbytes : headerBytes (packetHeader RDPAPPLIST_CMDID_CAPS (capsPayload (L "V"))) ++ capsPayload (L "V") =
      headerBytes ⟨RDPAPPLIST_CMDID_CAPS, length⟩ ++ payload := (Reading.between_rest _ _ _).symm.trans h
  have hpayload : capsPayload (L "V") = payload := (List.append_inj hbytes (by simp)).2
  exact capsCompletes_of_taken (hpayload ▸ hstart ▸ List.prefix_rfl) hread hkeeps

/-- A second CAPS message whose name has a space. -/
theorem handshake_not_invariant : ¬ ∀ m : Machine Disk, Reachable diskOS anyMessage m →
    m.this.m_handShakeComplated = true → Handshake diskOS m.this := fun h => by
  have hm := h (runOn [] [capsMessage (L "U"), capsMessage (L "a b")]) (reachable_runOn _ _) (by decide +kernel)
  exact hm.provider (L " ") (by simp) (by decide +kernel)

end Wslg
