import Wslg.Follow
/-!
# The file database as a map

Underneath a set of entries ordered by their key; seen from outside a map from
keys to four strings, where an entry that is there is not replaced.
-/

open Lib Lib.TraceM

namespace Wslg

open Client WSLDVCCallback

variable {W : Type}

/-! ## The map -/

structure AppFiles where
  linkFilePath : WString := []
  iconFilePath : WString := []
  exeFilePath : WString := []
  exeFileArgs : WString := []
  deriving DecidableEq

def fileEntry.files (e : fileEntry) : AppFiles :=
  ⟨e.m_linkFilePath, e.m_iconFilePath, e.m_exeFilePath, e.m_exeFileArgs⟩

namespace WSLDVCFileDB

abbrev Contents := WString → Option AppFiles

def contents (db : WSLDVCFileDB) : Contents := fun key => (db.find key).map fileEntry.files

def Contents.addAbsent (m : Contents) (key : WString) (files : AppFiles) : Contents :=
  if m key = none then Function.update m key (some files) else m

theorem contents_eq_none {db : WSLDVCFileDB} {key : WString} : db.contents key = none ↔ db.find key = none := by
  simp [contents]

/-- Updating the set updates the map. -/
theorem map_update (f : WString → Option fileEntry) (key : WString) (e : Option fileEntry) :
    (fun k => (Function.update f key e k).map fileEntry.files) =
      Function.update (fun k => (f k).map fileEntry.files) key (e.map fileEntry.files) := by
  funext k
  by_cases hk : k = key
  · rw [hk, Function.update_self, Function.update_self]
  · rw [Function.update_of_ne hk, Function.update_of_ne hk]

theorem contents_insert (db : WSLDVCFileDB) (e : fileEntry) :
    contents (db.insert e) = db.contents.addAbsent e.m_fileId e.files := by
  unfold Contents.addAbsent
  by_cases h : db.find e.m_fileId = none
  · rw [if_pos (contents_eq_none.2 h)]
    show (fun k => ((db.insert e).find k).map fileEntry.files) = _
    rw [KeyedSet.find_insert_eq, if_pos h, map_update]
    rfl
  · rw [if_neg (mt contents_eq_none.1 h)]
    show (fun k => ((db.insert e).find k).map fileEntry.files) = _
    rw [KeyedSet.find_insert_eq, if_neg h]
    rfl

theorem contents_erase (db : WSLDVCFileDB) (key : WString) :
    contents (db.erase key) = Function.update db.contents key none := by
  unfold contents
  rw [KeyedSet.find_erase_eq, map_update]
  rfl

/-! ## Calls -/

/-- The sizes of the buffers, `none` where no string is asked for. -/
structure BufferSizes where
  linkFilePathSize : Option Nat
  iconFilePathSize : Option Nat
  exeFilePathSize : Option Nat
  exeFileArgsSize : Option Nat

inductive Call where
  | OnFileAdded (key : WString) (files : AppFiles)
  | OnLnkFileAdded (lnkFile : WString)
  | OnFileRemoved (key : WString)
  | FindFiles (key : WString) (sizes : BufferSizes)
  | OnClose

structure Answer where
  hr : Option HRESULT
  found : Found := {}

def Call.run (os : OS W) (db : WSLDVCFileDB) : Call → SysM W (Answer × WSLDVCFileDB)
  | .OnFileAdded key f =>
    let r := db.OnFileAdded ⟨key, f.linkFilePath, f.iconFilePath, f.exeFilePath, f.exeFileArgs⟩
    pure ({ hr := r.1 }, r.2)
  | .OnLnkFileAdded lnkFile => do
    let db ← WSLDVCFileDB.OnLnkFileAdded os db lnkFile
    return ({ hr := none }, db)
  | .OnFileRemoved key =>
    let r := db.OnFileRemoved key
    pure ({ hr := r.1 }, r.2)
  | .FindFiles key n =>
    let r := db.FindFiles key n.linkFilePathSize n.iconFilePathSize n.exeFilePathSize n.exeFileArgsSize
    pure (⟨r.1, r.2⟩, db)
  | .OnClose => pure ({ hr := none }, db.OnClose)

/-- The calls with their answers, and the database after them. -/
def runCalls (os : OS W) : List Call → WSLDVCFileDB → SysM W (List (Call × Answer) × WSLDVCFileDB)
  | [], db => pure ([], db)
  | c :: cs, db => do
    let r ← c.run os db
    let rest ← runCalls os cs r.2
    return ((c, r.1) :: rest.1, rest.2)

/-! ## What they mean -/

def FitsIn (size : Option Nat) (s : WString) : Prop := ∀ n, size = some n → s.length < n

def BufferSizes.Take (n : BufferSizes) (f : AppFiles) : Prop :=
  FitsIn n.linkFilePathSize f.linkFilePath ∧ FitsIn n.iconFilePathSize f.iconFilePath ∧
    FitsIn n.exeFilePathSize f.exeFilePath ∧ FitsIn n.exeFileArgsSize f.exeFileArgs

def requested (size : Option Nat) (s : WString) : WString := if size.isSome then s else []

def BufferSizes.hold (n : BufferSizes) (f : AppFiles) : Found :=
  ⟨requested n.linkFilePathSize f.linkFilePath, requested n.iconFilePathSize f.iconFilePath,
    requested n.exeFilePathSize f.exeFilePath, requested n.exeFileArgsSize f.exeFileArgs⟩

/-- A link is added with the icon file it names. -/
def Contents.addLink (m : Contents) (lnkFile : WString) : Option WString → Contents
  | some iconFile => (m.addAbsent lnkFile {}).addAbsent iconFile {}
  | none => m.addAbsent lnkFile {}

/-- When a call succeeds, and what a successful call does. -/
def Meets (os : OS W) (m : Contents) (a : Answer) (m' : Contents) : Call → Prop
  | .OnFileAdded key f => (a.hr = none ↔ m key = none ∨ m key = some f) ∧
      (a.hr = none → m' = Function.update m key (some f))
  | .OnLnkFileAdded lnkFile => a.hr = none ∧ ∃ w, m' = m.addLink lnkFile (os.GetIconLocation lnkFile w).1
  | .OnFileRemoved key => (a.hr = none ↔ m key ≠ none) ∧ (a.hr = none → m' = Function.update m key none)
  | .FindFiles key n => (a.hr = none ↔ ∃ f, m key = some f ∧ n.Take f) ∧
      (a.hr = none → m' = m ∧ ∃ f, m key = some f ∧ a.found = n.hold f)
  | .OnClose => a.hr = none ∧ m' = fun _ => none

/-- A history of calls on the map; what fails changes nothing. -/
inductive Behaves (os : OS W) : Contents → List (Call × Answer) → Contents → Prop
  | nil (m : Contents) : Behaves os m [] m
  | cons {m m' m'' c a log} : Meets os m a m' c → (a.hr ≠ none → m' = m) → Behaves os m' log m'' →
      Behaves os m ((c, a) :: log) m''

/-! ### Each call -/

theorem addAbsent_of_none {m : Contents} {key : WString} (h : m key = none) (f : AppFiles) :
    m.addAbsent key f = Function.update m key (some f) := if_pos h

/-- An entry that is there with the same strings might as well be replaced. -/
theorem addAbsent_of_some {m : Contents} {key : WString} {f g : AppFiles} (h : m key = some g) :
    m.addAbsent key f = m := if_neg (by rw [h]; exact Option.some_ne_none g)

theorem OnFileAdded_hr (db : WSLDVCFileDB) (e : fileEntry) :
    (db.OnFileAdded e).1 = none ↔ db.contents e.m_fileId = none ∨ db.contents e.m_fileId = some e.files := by
  rw [OnFileAdded_eq_none, contents]
  cases h : db.find e.m_fileId with
  | none => simp
  | some old =>
    obtain ⟨-, hid⟩ := KeyedSet.find_eq_some.1 h
    simp only [Option.map_some, reduceCtorEq, Option.some.injEq, false_or, forall_eq', fileEntry.files, AppFiles.mk.injEq]
    obtain ⟨id, link, icon, exe, args⟩ := old
    obtain rfl : id = e.m_fileId := hid
    rw [fileEntry.mk.injEq]
    exact and_iff_right rfl

theorem meets_OnFileAdded (os : OS W) (db : WSLDVCFileDB) (key : WString) (f : AppFiles) (s : Sys W) :
    let r := ((Call.OnFileAdded key f).run os db s).1
    Meets os db.contents r.1 r.2.contents (.OnFileAdded key f) ∧ (r.1.hr ≠ none → r.2.contents = db.contents) := by
  intro r
  let e : fileEntry := ⟨key, f.linkFilePath, f.iconFilePath, f.exeFilePath, f.exeFileArgs⟩
  have hhr : r.1.hr = none ↔ db.contents key = none ∨ db.contents key = some f := OnFileAdded_hr db e
  have hdb : r.2.contents = db.contents.addAbsent key f := by
    show contents (db.OnFileAdded e).2 = _
    rw [OnFileAdded_snd, contents_insert]
    rfl
  refine ⟨⟨hhr, fun h => ?_⟩, fun h => ?_⟩
  · rcases hhr.1 h with h | h
    · rw [hdb, addAbsent_of_none h]
    · rw [hdb, addAbsent_of_some h, ← h, Function.update_eq_self]
  · rw [ne_eq, hhr, not_or] at h
    obtain ⟨g, hg⟩ := Option.ne_none_iff_exists'.1 h.1
    rw [hdb, addAbsent_of_some hg]

theorem meets_OnLnkFileAdded (os : OS W) (db : WSLDVCFileDB) (lnkFile : WString) (s : Sys W) :
    let r := ((Call.OnLnkFileAdded lnkFile).run os db s).1
    Meets os db.contents r.1 r.2.contents (.OnLnkFileAdded lnkFile) := by
  refine ⟨rfl, s.world, ?_⟩
  simp only [Call.run, WSLDVCFileDB.OnLnkFileAdded, GetIconFileFromShellLink, bind_run, call_run, emit_run, pure_run]
  cases (os.GetIconLocation lnkFile s.world).1 with
  | none => exact contents_insert db _
  | some iconFile =>
    refine (contents_insert _ _).trans ?_
    rw [contents_insert]
    rfl

theorem meets_OnFileRemoved (os : OS W) (db : WSLDVCFileDB) (key : WString) (s : Sys W) :
    let r := ((Call.OnFileRemoved key).run os db s).1
    Meets os db.contents r.1 r.2.contents (.OnFileRemoved key) ∧ (r.1.hr ≠ none → r.2.contents = db.contents) := by
  simp only [Call.run, pure_run, WSLDVCFileDB.OnFileRemoved, Meets, ne_eq, contents_eq_none]
  cases h : db.find key with
  | none => simp
  | some e => simp [contents_erase]

theorem copyOut_eq_none {size : Option Nat} {s : WString} : copyOut size s = none ↔ ¬ FitsIn size s := by
  cases size <;> simp [copyOut, wcscpy_s, FitsIn]

theorem copyOut_of_fits {size : Option Nat} {s : WString} (h : FitsIn size s) : copyOut size s = some (requested size s) := by
  cases size with
  | none => rfl
  | some n => exact if_pos (h n rfl)

/-- The strings are copied one after the other up to the first that does not fit. -/
theorem FindFiles_of_find {db : WSLDVCFileDB} {key : WString} {e : fileEntry} (he : db.find key = some e) (n : BufferSizes) :
    let r := db.FindFiles key n.linkFilePathSize n.iconFilePathSize n.exeFilePathSize n.exeFileArgsSize
    (r.1 = none ↔ n.Take e.files) ∧ (r.1 = none → r.2 = n.hold e.files) := by
  simp only [FindFiles, he, BufferSizes.Take, BufferSizes.hold, fileEntry.files]
  by_cases h₁ : FitsIn n.linkFilePathSize e.m_linkFilePath
  · by_cases h₂ : FitsIn n.iconFilePathSize e.m_iconFilePath
    · by_cases h₃ : FitsIn n.exeFilePathSize e.m_exeFilePath
      · by_cases h₄ : FitsIn n.exeFileArgsSize e.m_exeFileArgs
        · simp [copyOut_of_fits, h₁, h₂, h₃, h₄]
        · simp [copyOut_of_fits, h₁, h₂, h₃, h₄, copyOut_eq_none.2 h₄]
      · simp [copyOut_of_fits, h₁, h₂, h₃, copyOut_eq_none.2 h₃]
    · simp [copyOut_of_fits, h₁, h₂, copyOut_eq_none.2 h₂]
  · simp [h₁, copyOut_eq_none.2 h₁]

theorem meets_FindFiles (os : OS W) (db : WSLDVCFileDB) (key : WString) (n : BufferSizes) (s : Sys W) :
    let r := ((Call.FindFiles key n).run os db s).1
    Meets os db.contents r.1 r.2.contents (.FindFiles key n) ∧ (r.1.hr ≠ none → r.2.contents = db.contents) := by
  simp only [Call.run, pure_run, Meets, contents]
  cases h : db.find key with
  | none => simp [FindFiles, h]
  | some e =>
    have hfound := FindFiles_of_find h n
    simp only [Option.map_some, Option.some.injEq, exists_eq_left', implies_true, and_true]
    exact ⟨hfound.1, fun hr => ⟨trivial, hfound.2 hr⟩⟩

theorem meets_run (os : OS W) (c : Call) (db : WSLDVCFileDB) (s : Sys W) :
    let r := (c.run os db s).1
    Meets os db.contents r.1 r.2.contents c ∧ (r.1.hr ≠ none → r.2.contents = db.contents) := by
  cases c with
  | OnFileAdded key f => exact meets_OnFileAdded os db key f s
  | OnLnkFileAdded lnkFile => exact ⟨meets_OnLnkFileAdded os db lnkFile s, fun h => (h rfl).elim⟩
  | OnFileRemoved key => exact meets_OnFileRemoved os db key s
  | FindFiles key n => exact meets_FindFiles os db key n s
  | OnClose => exact ⟨⟨rfl, rfl⟩, fun h => (h rfl).elim⟩

/-- By induction on the calls. -/
theorem behaves_runCalls (os : OS W) (cs : List Call) (db : WSLDVCFileDB) (s : Sys W) :
    Behaves os db.contents (runCalls os cs db s).1.1 (runCalls os cs db s).1.2.contents := by
  induction cs generalizing db s with
  | nil => exact .nil _
  | cons c cs ih =>
    obtain ⟨hmeets, hfailed⟩ := meets_run os c db s
    exact .cons hmeets hfailed (ih _ _)

end WSLDVCFileDB

/-! ## What the channel records -/

/-- All strings of an entry but the target of the link fit the buffers they are copied to. -/
def fileEntry.FitsPaths (e : fileEntry) : Prop := Fits e ∧ e.m_exeFileArgs.length < MAX_PATH

def Machine.AllEntries (P : fileEntry → Prop) (m : Machine W) : Prop := ∀ key e, m.entry key = some e → P e

theorem Machine.AllEntries.of_entry {P : fileEntry → Prop} {m m' : Machine W} (h : m.AllEntries P)
    (hentry : ∀ key e, m'.entry key = some e → m.entry key = some e) : m'.AllEntries P :=
  fun key e he => h key e (hentry key e he)

theorem Machine.AllEntries.of_same {P : fileEntry → Prop} {m m' : Machine W} (h : m.AllEntries P)
    (hs : SameOn noSync m.this m'.this) : m'.AllEntries P :=
  h.of_entry fun key e he => by rwa [entry_of_noSync hs] at he

/-! ### UPDATE -/

theorem exeArgs_preparePaths (os : OS W) (p : RDPAPPLIST_UPDATE_APPLIST_PDU) (icon : RDPAPPLIST_ICON_DATA) (m : Machine W) :
    Outcome (preparePaths os p icon) m (fun v _ => v.exeArgs.length < MAX_PATH) fun _ _ => True := by
  refine Outcome.bind (outcome_failWhen (fun _ => ?_) fun _ _ => trivial)
  refine Outcome.bind ((Outcome.trivial _ m).mono (fun _ m₁ _ => ?_) fun _ _ h => h)
  refine Outcome.bind ((Outcome.trivial _ m₁).mono (fun _ m₂ _ => ?_) fun _ _ h => h)
  have hargs : Outcome (buildExeArgs p) m₂ (fun q _ => q.length < MAX_PATH) fun _ _ => True := by
    refine outcome_getThis_bind (Outcome.bind (outcome_okOr (fun q hq => ?_) fun _ _ => trivial))
    obtain ⟨hlen, rfl⟩ := swprintf_s_some.1 hq
    exact Outcome.bind (outcome_failWhen (fun _ => Outcome.pure_iff.2 hlen) fun _ _ => trivial)
  refine Outcome.bind (hargs.mono (fun exeArgs m₃ h => ?_) fun _ _ h => h)
  exact Outcome.bind ((Outcome.trivial _ m₃).mono (fun _ m₄ _ => Outcome.pure_iff.2 h) fun _ _ h => h)

theorem exeArgs_prepareUpdate (os : OS W) (p : RDPAPPLIST_UPDATE_APPLIST_PDU) (icon : RDPAPPLIST_ICON_DATA) (m : Machine W) :
    Outcome (prepareUpdate os p icon) m (fun v _ => v.exeArgs.length < MAX_PATH) fun _ _ => True := by
  rw [prepareUpdate_eq]
  exact Outcome.bind ((Outcome.trivial _ m).mono (fun _ m₁ _ => exeArgs_preparePaths os p icon m₁) fun _ _ h => h)

/-- What may be recorded: entries with the target that the links have now. -/
def Records (P : fileEntry → Prop) (t : WSLDVCCallback) : Prop :=
  ∀ e : fileEntry, e.FitsPaths → e.m_exeFilePath = t.m_expandedPathObj → P e

theorem Records.of_same {P : fileEntry → Prop} {t t' : WSLDVCCallback} (h : Records P t) (hs : SameOn noSync t t') :
    Records P t' := by
  have hexe : t'.m_expandedPathObj = t.m_expandedPathObj := hs.map (·.m_expandedPathObj) fun _ => rfl
  rw [Records, hexe]
  exact h

theorem allEntries_registerApp {P : fileEntry → Prop} {m : Machine W} {p : RDPAPPLIST_UPDATE_APPLIST_PDU} {v : UpdateLocals}
    (hm : m.AllEntries P) (hnew : Records P m.this) (hv : Ready m.this p v) (hargs : v.exeArgs.length < MAX_PATH) :
    Outcome (registerApp v) m (fun _ => Machine.AllEntries P) (fun _ => Machine.AllEntries P) := by
  obtain ⟨he, hfits⟩ := hv
  refine outcome_getThis_bind (Outcome.bind (outcome_deref (fun db hdb => ?_) fun _ _ => hm))
  have hentry : m.entry = db.find := Machine.entry_of_some hdb
  refine outcome_setThis_bind ?_
  have hafter : Machine.AllEntries P { m with this := { m.this with m_spFileDB := some (db.insert
      ⟨v.key, v.linkPath, v.iconPath, m.this.m_expandedPathObj, v.exeArgs⟩) } } := by
    intro key e h
    rcases find_insert_some db _ h with rfl | h
    · exact hnew _ ⟨he ▸ hfits, hargs⟩ rfl
    · exact hm key e (hentry ▸ h)
  rw [WSLDVCFileDB.OnFileAdded_snd]
  exact outcome_check (fun _ => hafter) fun _ _ => hafter

theorem allEntries_OnUpdateAppList (os : OS W) {P : fileEntry → Prop} {m : Machine W} (hm : m.AllEntries P)
    (hnew : Records P m.this) :
    Outcome (OnUpdateAppList os) m (fun _ => Machine.AllEntries P) (fun _ => Machine.AllEntries P) := by
  have hread := frame_ReadUpdateMessage (R := Appends fun _ => True) (anyCall os).LocalAlloc ((anyCall os).mark _ trivial) m
  refine Outcome.bind (hread.mono (fun msg m₁ h₁ => ?_) fun _ m₁ h₁ => hm.of_same (h₁.1 ▸ rfl))
  have hm₁ : m₁.AllEntries P := hm.of_same (h₁.1 ▸ rfl)
  have hprep := (outcome_prepareUpdate os msg.1 msg.2 m₁).and (exeArgs_prepareUpdate os msg.1 msg.2 m₁)
  refine Outcome.bind (hprep.mono (fun v m₂ h₂ => ?_) fun _ _ h => hm₁.of_same h.1)
  obtain ⟨⟨hready, hsame⟩, hargs⟩ := h₂
  have hnew₂ : Records P m₂.this := (hnew.of_same (h₁.1 ▸ rfl)).of_same hsame
  refine Outcome.bind ((allEntries_registerApp (hm₁.of_same hsame) hnew₂ hready hargs).mono (fun _ m₃ h₃ => ?_) fun _ _ h => h)
  exact (noSync_finishUpdate os v m₃).mono (fun _ _ h => h₃.of_same h) fun _ _ h => h.elim

/-! ### Every reachable state -/

/-- Only an UPDATE records anything. -/
theorem allEntries_dispatch (os : OS W) (h : RDPAPPLIST_HEADER) {P : fileEntry → Prop} {m : Machine W} (hm : m.AllEntries P)
    (hnew : h.cmdId = RDPAPPLIST_CMDID_UPDATE_APPLIST → Records P m.this) :
    Outcome (dispatch os h) m (fun _ => Machine.AllEntries P) (fun _ => Machine.AllEntries P) := by
  have hsystem := anyCall os
  refine outcome_dispatch os hm (fun _ => ?_) (fun hcmd _ => allEntries_OnUpdateAppList os hm (hnew hcmd)) (fun _ => ?_) fun _ => ?_
  · have hdb : ∀ m' : Machine W, Frame (SameOn dbs) (Appends fun _ => True) m m' → m'.AllEntries P := by
      intro m' hframe
      refine hm.of_entry fun key e he => ?_
      have hsame : m'.this.m_spFileDB = m.this.m_spFileDB := hframe.1.map (·.1) fun _ => rfl
      rwa [Machine.entry_of_same hsame] at he
    exact (frame_OnCaps hsystem.toSilent hsystem.CreateDirectoryW hsystem.ChannelWrite m).mono (fun _ _ => hdb _) fun _ _ => hdb _
  · refine (outcome_OnDeleteAppList os m).mono (fun _ m' h => ?_) fun _ _ h => h ▸ hm
    obtain ⟨p, db, e, hdb, -, rfl⟩ := h
    refine hm.of_entry fun key a ha => ?_
    rw [Machine.entry, Option.bind_some, KeyedSet.find_erase] at ha
    rw [Machine.entry_of_some hdb]
    split at ha
    · cases ha
    · exact ha
  · exact (frame_OnAssociateWindowId (R := Appends fun _ => True) hsystem.toSilent hsystem.SetValue m).mono
      (fun _ _ h => hm.of_same (h.1 ▸ rfl)) fun _ _ h => hm.of_same (h.1 ▸ rfl)

/-- An UPDATE arrives at `s` only where it may record what it records. -/
def UpdatesRecord (P : fileEntry → Prop) (s : Reading (Machine W)) : Prop :=
  ∀ length payload, s.rest = headerBytes ⟨RDPAPPLIST_CMDID_UPDATE_APPLIST, length⟩ ++ payload → Records P s.out.this

theorem allEntries_receive (os : OS W) {P : fileEntry → Prop} {s : Reading (Machine W)} (hs : s.Valid)
    (hm : s.out.AllEntries P) (hnew : UpdatesRecord P s) : (finalState (receive os s)).out.AllEntries P := by
  unfold receive
  refine (Ends.bind (Ends.self readHeader s) (fun h t hh => ?_) fun _ t hh => out_readHeader_error hh ▸ hm).final
  have hout : t.out = s.out := out_readHeader_ok hh
  refine allEntries_dispatch os h hm (fun hcmd => hnew h.length t.rest ?_) t hout
  rw [← hcmd]
  exact readHeader_rest hs hh

theorem Reachable.allEntries {os : OS W} {P : fileEntry → Prop} {Ok : Reading (Machine W) → Prop}
    (hok : ∀ s, Ok s → UpdatesRecord P s) {m : Machine W} (h : Reachable os Ok m) : m.AllEntries P := by
  refine h.invariant (I := Machine.AllEntries P) (fun w key e he => (by cases he))
    (fun s hs _ hk hm => allEntries_receive os hs hm (hok s hk)) fun m m' hc hm => ?_
  -- `OnClose` resets the registry
  have hdb : m'.this.m_spFileDB = none := by
    obtain ⟨_, _, -, -, rfl⟩ := OnClose_some hc
    rfl
  intro key e he
  rw [Machine.entry, hdb] at he
  cases he

/-- The target of a link is the one member of an entry that nothing bounds. -/
theorem Reachable.fitsPaths {os : OS W} {Ok : Reading (Machine W) → Prop} {m : Machine W} (h : Reachable os Ok m) :
    m.AllEntries fileEntry.FitsPaths := h.allEntries fun _ _ _ _ _ _ he _ => he

/-- An UPDATE comes when the array with the target of the links holds a string. -/
def UpdatesTerminated (s : Reading (Machine W)) : Prop :=
  ∀ length payload, s.rest = headerBytes ⟨RDPAPPLIST_CMDID_UPDATE_APPLIST, length⟩ ++ payload →
    s.out.this.m_expandedPathObj.length < MAX_PATH

/-! ### The lookups of the handlers -/

open WSLDVCFileDB

/-- The lookup of OnDeleteAppList -/
def findForDelete (db : WSLDVCFileDB) (key : WString) : Option HRESULT × Found :=
  db.FindFiles key (some MAX_PATH) (some MAX_PATH) none none

/-- The lookup of OnAssociateWindowId -/
def findForAssociate (db : WSLDVCFileDB) (key : WString) : Option HRESULT × Found :=
  db.FindFiles key none (some MAX_PATH) (some MAX_PATH) (some MAX_PATH)

theorem fitsIn_some {size : Nat} {s : WString} : FitsIn (some size) s ↔ s.length < size := by simp [FitsIn]

theorem fitsIn_none (s : WString) : FitsIn none s := by simp [FitsIn]

theorem findForDelete_of_fits {db : WSLDVCFileDB} {key : WString} {e : fileEntry} (he : db.find key = some e) (h : Fits e) :
    (findForDelete db key).1 = none :=
  (FindFiles_of_find he ⟨some MAX_PATH, some MAX_PATH, none, none⟩).1.2
    ⟨fitsIn_some.2 h.1, fitsIn_some.2 h.2, fitsIn_none _, fitsIn_none _⟩

theorem findForAssociate_iff {db : WSLDVCFileDB} {key : WString} {e : fileEntry} (he : db.find key = some e)
    (h : e.FitsPaths) : (findForAssociate db key).1 = none ↔ e.m_exeFilePath.length < MAX_PATH := by
  have hfind := (FindFiles_of_find he ⟨none, some MAX_PATH, some MAX_PATH, some MAX_PATH⟩).1
  refine hfind.trans ⟨fun hn => fitsIn_some.1 hn.2.2.1, fun hexe => ?_⟩
  exact ⟨fitsIn_none _, fitsIn_some.2 h.1.2, fitsIn_some.2 hexe, fitsIn_some.2 h.2⟩

/-- The database is a map in which entries are added if they are absent: what
calls succeed, what they do to it, and one entry for each key. In every
reachable state a DELETE finds every key of the registry, and an
ASSOCIATE_WINDOW_ID those whose target fits a buffer; in a run whose UPDATEs
find the target terminated these are all. -/
theorem database_is_map (os : OS W) :
    (∀ (cs : List Call) (db : WSLDVCFileDB) (s : Sys W),
      Behaves os db.contents (runCalls os cs db s).1.1 (runCalls os cs db s).1.2.contents ∧
        (runCalls os cs db s).1.2.keys.Nodup) ∧
    (∀ m, Reachable os anyMessage m → ∀ db, m.this.m_spFileDB = some db → ∀ e ∈ db.elems,
      (findForDelete db e.m_fileId).1 = none ∧
        ((findForAssociate db e.m_fileId).1 = none ↔ e.m_exeFilePath.length < MAX_PATH)) ∧
    ∀ m, Reachable os UpdatesTerminated m → ∀ db, m.this.m_spFileDB = some db → ∀ key ∈ db.keys,
      (findForDelete db key).1 = none ∧ (findForAssociate db key).1 = none := by
  have hlookup : ∀ {m : Machine W} {db : WSLDVCFileDB} {e : fileEntry}, m.this.m_spFileDB = some db → e ∈ db.elems →
      db.find e.m_fileId = some e ∧ m.entry e.m_fileId = some e := by
    intro m db e hdb he
    have hfind : db.find e.m_fileId = some e := KeyedSet.find_eq_some.2 ⟨he, rfl⟩
    exact ⟨hfind, by rw [Machine.entry_of_some hdb, hfind]⟩
  refine ⟨fun cs db s => ⟨behaves_runCalls os cs db s, KeyedSet.keys_nodup _⟩, fun m hr db hdb e he => ?_,
    fun m hr db hdb key hkey => ?_⟩
  · obtain ⟨hfind, hentry⟩ := hlookup hdb he
    have hfits := hr.fitsPaths e.m_fileId e hentry
    exact ⟨findForDelete_of_fits hfind hfits.1, findForAssociate_iff hfind hfits⟩
  · obtain ⟨e, he, rfl⟩ := List.mem_map.1 hkey
    obtain ⟨hfind, hentry⟩ := hlookup hdb he
    have hall : m.AllEntries fun e => e.FitsPaths ∧ e.m_exeFilePath.length < MAX_PATH :=
      hr.allEntries fun s hs length payload h e hfits hexe => ⟨hfits, hexe ▸ hs length payload h⟩
    obtain ⟨hfits, hexe⟩ := hall e.m_fileId e hentry
    exact ⟨findForDelete_of_fits hfind hfits.1, (findForAssociate_iff hfind hfits).2 hexe⟩

/-! ### On the disk -/

theorem updatesTerminated_arrives {message : List BYTE} {m : Machine Disk} (h : m.this.m_expandedPathObj.length < MAX_PATH) :
    UpdatesTerminated (arrives message m) := fun _ _ _ => h

theorem reachable_channelWithFoo {Ok : Reading (Machine Disk) → Prop} (hcaps : Ok (arrives (capsMessage (L "U")) (.fresh [])))
    (hupdate : Ok (arrives (updateMessage 0 (L "a") (L "foo")) channelOfU)) : Reachable diskOS Ok channelWithFoo :=
  .message (s := arrives (updateMessage 0 (L "a") (L "foo")) channelOfU)
    (.message (s := arrives (capsMessage (L "U")) (.fresh [])) (.fresh []) (Reading.between_valid _ _ _) rfl hcaps)
    (Reading.between_valid _ _ _) (by decide +kernel) hupdate

/-- The app `a` is registered, and both lookups find it. -/
theorem database_is_map_on_disk : ∃ db, channelWithFoo.this.m_spFileDB = some db ∧ L "a" ∈ db.keys ∧
    (findForDelete db (L "a")).1 = none ∧ (findForAssociate db (L "a")).1 = none := by
  have hentry : channelWithFoo.entry (L "a") = some (appNamed (L "C:\\S\\Programs\\U\\foo.lnk")) := by decide +kernel
  obtain ⟨db, hdb, hfind⟩ := Option.bind_eq_some_iff.1 hentry
  have hkey : L "a" ∈ db.keys := by
    obtain ⟨he, hk⟩ := KeyedSet.find_eq_some.1 hfind
    exact hk ▸ List.mem_map_of_mem he
  have hr : Reachable diskOS UpdatesTerminated channelWithFoo :=
    reachable_channelWithFoo (updatesTerminated_arrives (by decide +kernel)) (updatesTerminated_arrives (by decide +kernel))
  exact ⟨db, hdb, hkey, (database_is_map diskOS).2.2 channelWithFoo hr db hdb (L "a") hkey⟩

def ERROR_MORE_DATA : HRESULT := .os 0x800700EA

/-- A disk on which the install location is longer than `MAX_PATH` once there is a link: `RegGetValueW` fails and
leaves the array full, with no end before that of the working directory behind it. -/
def movedOS : OS Disk := { diskOS with
  RegGetValueW := fun _ w =>
    if w.isEmpty then ((none, L "C:\\W"), w) else ((some ERROR_MORE_DATA, List.replicate MAX_PATH 65 ++ L "C:\\W"), w) }

/-- An app, a second CAPS message that fails at the registry with the flag still set, and another app. -/
def movedRun : Machine Disk :=
  [capsMessage (L "U") ++ updateMessage 0 (L "a") (L "foo"), capsMessage (L "U"), updateMessage 0 (L "b") (L "bar")].foldl
    (fun m pBuffer => (OnDataReceived movedOS pBuffer m).machine) (.fresh [])

theorem reachable_movedRun : Reachable movedOS anyMessage movedRun :=
  reachable_OnDataReceived _ (fun _ _ => trivial) <| reachable_OnDataReceived _ (fun _ _ => trivial) <|
    reachable_OnDataReceived _ (fun _ _ => trivial) (.fresh [])

/-- The app `b` is registered, and an ASSOCIATE_WINDOW_ID does not find it. -/
theorem registered_key_not_found : ¬ ∀ m : Machine Disk, Reachable movedOS anyMessage m → ∀ db, m.this.m_spFileDB = some db →
    ∀ key ∈ db.keys, (findForDelete db key).1 = none ∧ (findForAssociate db key).1 = none := fun h => by
  have hfails : (movedRun.this.m_spFileDB.any fun db =>
      (db.find (L "b")).isSome && (findForAssociate db (L "b")).1.isSome) = true := by decide +kernel
  obtain ⟨db, hdb, hb⟩ := (Option.any_eq_true _ _).1 hfails
  obtain ⟨hfind, hfail⟩ := Bool.and_eq_true_iff.1 hb
  have hkey : L "b" ∈ db.keys := by
    obtain ⟨e, he⟩ := Option.isSome_iff_exists.1 hfind
    obtain ⟨he, hk⟩ := KeyedSet.find_eq_some.1 he
    exact hk ▸ List.mem_map_of_mem he
  have hfound := (h movedRun reachable_movedRun db hdb (L "b") hkey).2
  rw [hfound] at hfail
  cases hfail

end Wslg
