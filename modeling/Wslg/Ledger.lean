import Mathlib.Logic.Relation
import Wslg.Lib.History
import Wslg.FileDB
/-!
# What the plugin keeps

The plugin seen from the outside: the apps it knows, the files that a sync
session would clean up, and the history. A registry is a partial map and a sync
set is a set; how `WSLDVCFileDB` stores them does not show. There is one kind of
step for each thing that can happen to them.
-/

open Lib Relation

namespace Wslg

/-! ## Events -/

/-- Events that concern neither apps nor sessions. -/
def Quiet : Event → Prop
  | .CreateDirectoryW _ | .ChannelWrite _ | .LocalAlloc _ _ | .LocalFree | .SetValue _ _ => True
  | _ => False

/-- Events of the scan of `path`. -/
def ScanEvent (path : WString) : Event → Prop
  | .RemoveDirectory _ => True
  | .OnLnkFileAdded lnkFile _ => StrictlyBelow isSep dot path lnkFile
  | _ => False

def CleanUpEvent : Event → Prop
  | .RemoveDirectory _ | .DeleteFileW _ _ => True
  | _ => False

/-- Events that start, fill or end a session. -/
def SessionEvent : Event → Prop
  | .OnSyncStart _ | .OnLnkFileAdded _ _ | .OnSyncEnd _ | .syncClosed _ => True
  | _ => False

theorem Quiet.not_session {e : Event} (h : Quiet e) : ¬ SessionEvent e := by
  cases e <;> first | exact h.elim | exact id

def deletedPaths (evs : List Event) : List WString :=
  evs.filterMap fun | .DeleteFileW path _ => some path | _ => none

@[simp] theorem deletedPaths_append (evs evs' : List Event) :
    deletedPaths (evs ++ evs') = deletedPaths evs ++ deletedPaths evs' := List.filterMap_append

def deletedKeys (evs : List Event) : List WString := evs.filterMap fun | .deleted key _ _ => some key | _ => none

/-- `path` is a link the scan came across, or the icon file such a link names. -/
def Recorded (scan : List Event) (path : WString) : Prop :=
  ∃ lnkFile iconFile, .OnLnkFileAdded lnkFile iconFile ∈ scan ∧ (path = lnkFile ∨ iconFile = some path)

/-- `path` is the link of an app, or the icon file written for it. -/
def AppUpdate.Names (u : AppUpdate) (path : WString) : Prop := path = u.linkPath ∨ u.hasIcon ∧ path = u.iconPath

/-- `path` belongs to an app reported in a session. -/
def Spared (evs : List Event) (path : WString) : Prop :=
  ∃ u, .updated u ∈ evs ∧ has u.flags RDPAPPLIST_HINT_SYNC ∧ u.Names path

/-- `path` is `root` with a suffix that does not climb. -/
def Confined (root path : WString) : Prop := ∃ suffix, path = root ++ suffix ∧ L ".." ∉ pathComponents suffix

structure AppUpdate.Confined (u : AppUpdate) : Prop where
  link : Wslg.Confined u.appMenuPath u.linkPath
  icon : u.iconPath = [] ∨ Wslg.Confined u.iconRoot u.iconPath

/-! ## The ledger -/

structure App where
  linkPath : WString
  iconPath : WString

def AppUpdate.app (u : AppUpdate) : App := ⟨u.linkPath, u.iconPath⟩

structure Ledger where
  registry : WString → Option App
  sync : Option (Set WString)
  trace : List Event

namespace Ledger

def empty : Ledger := ⟨fun _ => none, none, []⟩

def log (l : Ledger) (evs : List Event) : Ledger := { l with trace := l.trace ++ evs }

/-- The files of an app are written: the icon if there is one, then the link. -/
inductive Creation (u : AppUpdate) : List Event → Prop
  | link {link : ShellLink} : link.pathLink = u.linkPath → u.hasIcon = false →
      Creation u [.CreateShellLink link u.hasLink]
  | icon {link : ShellLink} {data : List BYTE} : link.pathLink = u.linkPath →
      Creation u [.CreateIconFile u.iconPath data u.hasIcon, .CreateShellLink link u.hasLink]

/-- A recorded path is deleted unless it is empty. -/
inductive DeletedIf (path : WString) : List Event → Prop
  | empty : path = [] → DeletedIf path []
  | deleted {ok : Bool} : path ≠ [] → DeletedIf path [.DeleteFileW path ok]

/-- At the end of a session each file that is left is deleted once, or none is. -/
structure CleanedUp (files : Set WString) (cleanupFiles : Bool) (block : List Event) : Prop where
  events : ∀ e ∈ block, CleanUpEvent e
  nodup : (deletedPaths block).Nodup
  deleted : ∀ p, p ∈ deletedPaths block ↔ cleanupFiles = true ∧ p ∈ files

inductive Step : Ledger → Ledger → Prop
  | quiet {l : Ledger} {evs : List Event} : (∀ e ∈ evs, Quiet e) → Step l (l.log evs)
  /-- A session starts with what the scan finds. -/
  | start {l : Ledger} {path : WString} {scan : List Event} : l.sync = none → (∀ e ∈ scan, ScanEvent path e) →
      Step l { l with sync := some {p | Recorded scan p}, trace := l.trace ++ .OnSyncStart path :: scan }
  /-- An app is registered, unless another one has its key, and spared if it is reported. -/
  | report {l : Ledger} {u : AppUpdate} {files : List Event} : u.Confined →
      (∀ a, l.registry u.key = some a → a = u.app) → Creation u files →
      Step l {
        registry := Function.update l.registry u.key (some u.app)
        sync := if has u.flags RDPAPPLIST_HINT_SYNC then l.sync.map (· \ {p | u.Names p}) else l.sync
        trace := l.trace ++ (files ++ [.updated u]) }
  | delete {l : Ledger} {key : WString} {a : App} {link icon : List Event} : l.registry key = some a →
      DeletedIf a.linkPath link → DeletedIf a.iconPath icon →
      Step l { l with
        registry := Function.update l.registry key none
        trace := l.trace ++ (link ++ icon ++ [.deleted key a.linkPath a.iconPath]) }
  /-- A session ends, and deletes what is left if it is to clean up. -/
  | close {l : Ledger} {files : Set WString} {cleanupFiles : Bool} {block : List Event} : l.sync = some files →
      CleanedUp files cleanupFiles block →
      Step l { l with sync := none, trace := l.trace ++ .OnSyncEnd cleanupFiles :: (block ++ [.syncClosed []]) }
  | shut {l : Ledger} : Step l { l with registry := fun _ => none }

/-- Any number of steps. -/
abbrev Steps : Ledger → Ledger → Prop := ReflTransGen Step

/-! ## Sessions -/

/-- No session is open: the last one that started was closed. -/
def Closed (trace : List Event) : Prop :=
  EveryAt (fun _ e post => ∀ path, e = .OnSyncStart path → .syncClosed [] ∈ post) trace

/-- The session that is open: its scan, and what came after. The files left are
those recorded that were not reported; only a DELETE deletes any. -/
structure Open (trace : List Event) (files : Set WString) (path : WString) (scan mid : List Event) : Prop where
  split : ∃ before, trace = before ++ .OnSyncStart path :: (scan ++ mid)
  scanned : ∀ e ∈ scan, ScanEvent path e
  quiet : ∀ e ∈ mid, ¬ SessionEvent e
  left : ∀ p, p ∈ files ↔ Recorded scan p ∧ ¬ Spared mid p
  deletes : EveryAt (fun _ e post => ∀ path ok, e = .DeleteFileW path ok →
    ∃ key link icon, .deleted key link icon ∈ post ∧ path ≠ [] ∧ (path = link ∨ path = icon)) mid

/-- What happened around the end of a session. -/
def Ended (pre post : List Event) (cleanupFiles : Bool) : Prop :=
  ∃ files path scan mid block after, Open pre files path scan mid ∧ post = block ++ .syncClosed [] :: after ∧
    CleanedUp files cleanupFiles block

/-- Every session in the history ended as it should, and the one that is open has the right files. -/
structure Sessions (l : Ledger) : Prop where
  now : match l.sync with
    | none => Closed l.trace
    | some files => ∃ path scan mid, Open l.trace files path scan mid
  ends : EveryAt (fun pre e post => ∀ cleanupFiles, e = .OnSyncEnd cleanupFiles → Ended pre post cleanupFiles) l.trace

/-! ### Extending the history -/

section Extend

variable {t ext pre post : List Event} {path p : WString} {files files' : Set WString} {scan mid : List Event}

theorem spared_append : Spared (mid ++ ext) p ↔ Spared mid p ∨ Spared ext p := by
  constructor
  · rintro ⟨u, hu, h⟩
    exact (List.mem_append.1 hu).imp (fun hu => ⟨u, hu, h⟩) fun hu => ⟨u, hu, h⟩
  · rintro (⟨u, hu, h⟩ | ⟨u, hu, h⟩)
    · exact ⟨u, List.mem_append_left _ hu, h⟩
    · exact ⟨u, List.mem_append_right _ hu, h⟩

theorem not_spared (h : ∀ u, Event.updated u ∉ ext) : ¬ Spared ext p := fun ⟨u, hu, _⟩ => h u hu

theorem Ended.extend {cleanupFiles : Bool} (h : Ended pre post cleanupFiles) (ext : List Event) :
    Ended pre (post ++ ext) cleanupFiles := by
  obtain ⟨files, path, scan, mid, block, after, hopen, rfl, hclean⟩ := h
  exact ⟨files, path, scan, mid, block, after ++ ext, hopen, by simp, hclean⟩

theorem Closed.extend (h : Closed t) (hext : ∀ e ∈ ext, ¬ SessionEvent e) : Closed (t ++ ext) :=
  everyAt_append.2 ⟨h.mono fun _ _ _ hc path he => List.mem_append_left _ (hc path he),
    everyAt_of_forall fun e he _ _ _ hp => (hext e he (hp ▸ trivial)).elim⟩

/-- What only the events since the start decide. -/
theorem Open.extend (h : Open t files path scan mid) (hext : ∀ e ∈ ext, ¬ SessionEvent e)
    (hdel : EveryAt (fun _ e post => ∀ path ok, e = .DeleteFileW path ok →
      ∃ key link icon, .deleted key link icon ∈ post ∧ path ≠ [] ∧ (path = link ∨ path = icon)) ext)
    (hleft : ∀ p, p ∈ files' ↔ p ∈ files ∧ ¬ Spared ext p) : Open (t ++ ext) files' path scan (mid ++ ext) where
  split := by
    obtain ⟨before, rfl⟩ := h.split
    exact ⟨before, by simp⟩
  scanned := h.scanned
  quiet e he := (List.mem_append.1 he).elim (h.quiet e) (hext e)
  left p := by
    rw [hleft, h.left, spared_append]
    tauto
  deletes := by
    refine h.deletes.append (fun _ _ _ _ hP => hP) (fun y a e b hP path ok he => ?_) hdel
    obtain ⟨key, link, icon, hmem, hor⟩ := hP path ok he
    exact ⟨key, link, icon, List.mem_append_left _ hmem, hor⟩

/-- Events outside sessions keep the past. -/
theorem ends_extend (h : EveryAt (fun pre e post => ∀ c, e = .OnSyncEnd c → Ended pre post c) t)
    (hext : ∀ e ∈ ext, ∀ c, e ≠ .OnSyncEnd c) :
    EveryAt (fun pre e post => ∀ c, e = .OnSyncEnd c → Ended pre post c) (t ++ ext) :=
  everyAt_append.2 ⟨h.mono fun _ _ _ he c hc => (he c hc).extend ext,
    everyAt_of_forall fun e he _ _ c hc => absurd hc (hext e he c)⟩

end Extend

/-! ### The steps -/

section Steps

variable {l l' : Ledger}

theorem Creation.events {u : AppUpdate} {files : List Event} (h : Creation u files) :
    ∀ e ∈ files, ¬ SessionEvent e ∧ (∀ v, e ≠ .updated v) ∧ ∀ path ok, e ≠ .DeleteFileW path ok := by
  cases h <;> simp [SessionEvent]

theorem DeletedIf.events {path : WString} {evs : List Event} (h : DeletedIf path evs) :
    ∀ e ∈ evs, path ≠ [] ∧ ∃ ok, e = .DeleteFileW path ok := by
  cases h <;> simp_all

/-- Events in a step that leaves sessions alone, and what the step makes of the files. -/
theorem Sessions.extend (h : Sessions l) {ext : List Event} {registry : WString → Option App}
    {sync : Option (Set WString)} (hsync : ∀ files, l.sync = some files →
      ∃ files', sync = some files' ∧ ∀ p, p ∈ files' ↔ p ∈ files ∧ ¬ Spared ext p)
    (hnone : l.sync = none → sync = none) (hext : ∀ e ∈ ext, ¬ SessionEvent e)
    (hdel : EveryAt (fun _ e post => ∀ path ok, e = .DeleteFileW path ok →
      ∃ key link icon, .deleted key link icon ∈ post ∧ path ≠ [] ∧ (path = link ∨ path = icon)) ext) :
    Sessions ⟨registry, sync, l.trace ++ ext⟩ where
  now := by
    have := h.now
    cases hs : l.sync with
    | none =>
      rw [hs] at this
      rw [hnone hs]
      exact this.extend hext
    | some files =>
      rw [hs] at this
      obtain ⟨path, scan, mid, hopen⟩ := this
      obtain ⟨files', rfl, hleft⟩ := hsync files hs
      exact ⟨path, scan, mid ++ ext, hopen.extend hext hdel hleft⟩
  ends := ends_extend h.ends fun e he c hc => hext e he (hc ▸ trivial)

theorem Sessions.start (h : Sessions l) {path : WString} {scan : List Event} (hscan : ∀ e ∈ scan, ScanEvent path e) :
    Sessions { l with sync := some {p | Recorded scan p}, trace := l.trace ++ .OnSyncStart path :: scan } where
  now := by
    refine ⟨path, scan, [], ⟨l.trace, by simp⟩, hscan, by simp, fun p => ?_, everyAt_nil⟩
    have : ¬ Spared [] p := not_spared (by simp)
    rw [Set.mem_ofPred_eq]
    tauto
  ends := by
    refine ends_extend h.ends fun e he c hc => ?_
    subst hc
    exact (List.mem_cons.1 he).elim (by simp) fun he => hscan _ he

/-- The files of the app are spared if it is reported. -/
theorem Sessions.report (h : Sessions l) {u : AppUpdate} {files : List Event} {registry : WString → Option App}
    (hfiles : Creation u files) : Sessions {
      registry := registry
      sync := if has u.flags RDPAPPLIST_HINT_SYNC then l.sync.map (· \ {p | u.Names p}) else l.sync
      trace := l.trace ++ (files ++ [.updated u]) } := by
  have hsp : ∀ p, Spared (files ++ [.updated u]) p ↔ has u.flags RDPAPPLIST_HINT_SYNC ∧ u.Names p := fun p => by
    have : ¬ Spared files p := not_spared fun v hv => (hfiles.events _ hv).2.1 v rfl
    simp only [spared_append, this, false_or]
    simp [Spared]
  refine h.extend (fun files hs => ?_) (fun hs => by simp [hs]) (fun e he => ?_) ?_
  · by_cases hf : has u.flags RDPAPPLIST_HINT_SYNC = true
    · exact ⟨files \ {p | u.Names p}, by simp [hf, hs], fun p => by simp [hsp, hf]⟩
    · exact ⟨files, by simp [hf, hs], fun p => by simp [hsp, hf]⟩
  · rcases List.mem_append.1 he with he | he
    · exact (hfiles.events e he).1
    · obtain rfl := List.mem_singleton.1 he
      exact id
  · refine everyAt_of_forall fun e he _ _ path ok hp => ?_
    subst hp
    rcases List.mem_append.1 he with he | he
    · exact absurd rfl ((hfiles.events _ he).2.2 path ok)
    · simp at he

theorem Sessions.delete (h : Sessions l) {key : WString} {a : App} {link icon : List Event}
    {registry : WString → Option App} (hlink : DeletedIf a.linkPath link) (hicon : DeletedIf a.iconPath icon) :
    Sessions { l with
      registry := registry
      trace := l.trace ++ (link ++ icon ++ [.deleted key a.linkPath a.iconPath]) } := by
  have hdels : ∀ e ∈ link ++ icon, ∃ path ok, e = .DeleteFileW path ok ∧ path ≠ [] ∧
      (path = a.linkPath ∨ path = a.iconPath) := by
    intro e he
    rcases List.mem_append.1 he with he | he
    · obtain ⟨hne, ok, rfl⟩ := hlink.events e he
      exact ⟨_, ok, rfl, hne, .inl rfl⟩
    · obtain ⟨hne, ok, rfl⟩ := hicon.events e he
      exact ⟨_, ok, rfl, hne, .inr rfl⟩
  refine h.extend (fun files hs => ⟨files, hs, fun p => ?_⟩) id (fun e he => ?_) ?_
  · have : ¬ Spared (link ++ icon ++ [.deleted key a.linkPath a.iconPath]) p := not_spared fun u hu => by
      rcases List.mem_append.1 hu with hu | hu
      · obtain ⟨path, ok, he, -⟩ := hdels _ hu
        cases he
      · simp at hu
    tauto
  · rcases List.mem_append.1 he with he | he
    · obtain ⟨path, ok, rfl, -⟩ := hdels e he
      exact id
    · obtain rfl := List.mem_singleton.1 he
      exact id
  · refine everyAt_append.2 ⟨everyAt_of_forall fun e he _ _ path ok hp => ?_, everyAt_singleton.2 (by simp)⟩
    obtain ⟨path', ok', rfl, hor⟩ := hdels e he
    cases hp
    exact ⟨key, a.linkPath, a.iconPath, by simp, hor⟩

theorem Sessions.close (h : Sessions l) {files : Set WString} {cleanupFiles : Bool} {block : List Event}
    (hs : l.sync = some files) (hclean : CleanedUp files cleanupFiles block) : Sessions { l with
      sync := none
      trace := l.trace ++ .OnSyncEnd cleanupFiles :: (block ++ [.syncClosed []]) } := by
  have hnow := h.now
  rw [hs] at hnow
  obtain ⟨path, scan, mid, hopen⟩ := hnow
  have hblock : ∀ e ∈ block ++ [.syncClosed []], (∀ path, e ≠ .OnSyncStart path) ∧ ∀ c, e ≠ .OnSyncEnd c := by
    intro e he
    rcases List.mem_append.1 he with he | he
    · have := hclean.events e he
      cases e <;> simp_all [CleanUpEvent]
    · simp [List.mem_singleton.1 he]
  constructor
  · refine everyAt_append.2 ⟨?_, everyAt_of_forall fun e he _ _ path hp => ?_⟩
    · exact fun _ _ _ _ _ _ => by simp
    · subst hp
      exact (List.mem_cons.1 he).elim (by simp) fun he => absurd rfl ((hblock _ he).1 path)
  · refine everyAt_append.2 ⟨h.ends.mono fun _ _ _ he c hc => (he c hc).extend _, everyAt_cons.2 ⟨?_, ?_⟩⟩
    · rintro _ ⟨⟩
      rw [List.append_nil]
      exact ⟨files, path, scan, mid, block, [], hopen, rfl, hclean⟩
    · exact everyAt_of_forall fun e he _ _ c hc => absurd hc ((hblock e he).2 c)

theorem Step.sessions (hstep : Step l l') (h : Sessions l) : Sessions l' := by
  cases hstep with
  | @quiet evs hq =>
    refine h.extend (fun files hs => ⟨files, hs, fun p => ?_⟩) id (fun e he => (hq e he).not_session) ?_
    · have : ¬ Spared evs p := not_spared fun u hu => hq _ hu
      tauto
    · exact everyAt_of_forall fun e he _ _ path ok hp => (hp ▸ hq e he : Quiet (.DeleteFileW path ok)).elim
  | start _ hscan => exact h.start hscan
  | report _ _ hfiles => exact h.report hfiles
  | delete _ hlink hicon => exact h.delete hlink hicon
  | close hs hclean => exact h.close hs hclean
  | shut => exact ⟨h.now, h.ends⟩

theorem sessions_empty : Sessions empty := ⟨everyAt_nil, everyAt_nil⟩

theorem Steps.sessions (h : Steps empty l) : Sessions l := by
  induction h with
  | refl => exact sessions_empty
  | tail _ hstep ih => exact hstep.sessions ih

/-- What an event says for itself, when it is left by a step from `l`. -/
def Sound (l : Ledger) : Event → Prop
  | .syncClosed left => left = []
  | .updated u => u.Confined
  | .deleted key link icon => l.registry key = some ⟨link, icon⟩
  | _ => True

theorem Step.events (hstep : Step l l') : ∃ ext, l'.trace = l.trace ++ ext ∧ ∀ e ∈ ext, Sound l e := by
  cases hstep with
  | @quiet evs hq =>
    refine ⟨evs, rfl, fun e he => ?_⟩
    -- a quiet event says nothing
    have := hq e he
    cases e <;> first | exact trivial | exact this.elim
  | @start path scan _ hs =>
    refine ⟨_, rfl, List.forall_mem_cons.2 ⟨trivial, fun e he => ?_⟩⟩
    have := hs e he
    cases e <;> first | exact trivial | exact this.elim
  | @report u files hu _ hfiles =>
    refine ⟨_, rfl, List.forall_mem_append.2 ⟨?_, by simpa [Sound] using hu⟩⟩
    cases hfiles <;> simp [Sound]
  | @delete key a link icon ha hlink hicon =>
    refine ⟨_, rfl, List.forall_mem_append.2 ⟨List.forall_mem_append.2 ⟨?_, ?_⟩, by simpa [Sound] using ha⟩⟩
    · cases hlink <;> simp [Sound]
    · cases hicon <;> simp [Sound]
  | @close files c block _ hclean =>
    refine ⟨_, rfl, List.forall_mem_cons.2 ⟨trivial, List.forall_mem_append.2 ⟨fun e he => ?_, by simp [Sound]⟩⟩⟩
    have := hclean.events e he
    cases e <;> first | exact trivial | exact this.elim
  | shut => exact ⟨[], by simp, by simp⟩

theorem Steps.sound (h : Steps empty l) : ∀ e ∈ l.trace, ∃ l₀, Sound l₀ e := by
  induction h with
  | refl => simp [empty]
  | tail _ hstep ih =>
    obtain ⟨ext, ht, hext⟩ := hstep.events
    rw [ht]
    exact List.forall_mem_append.2 ⟨ih, fun e he => ⟨_, hext e he⟩⟩

theorem Steps.left_eq_nil (h : Steps empty l) {left : List WString} (he : .syncClosed left ∈ l.trace) : left = [] :=
  let ⟨_, hl⟩ := h.sound _ he
  hl

theorem Steps.confined (h : Steps empty l) {u : AppUpdate} (he : .updated u ∈ l.trace) : u.Confined :=
  let ⟨_, hl⟩ := h.sound _ he
  hl

/-- Whatever is registered was taken over under its key. -/
theorem Steps.registered (h : Steps empty l) {key : WString} {a : App} (ha : l.registry key = some a) :
    ∃ u, .updated u ∈ l.trace ∧ u.key = key ∧ u.app = a := by
  induction h generalizing key a with
  | refl => cases ha
  | @tail l₁ l₂ _ hstep ih =>
    obtain ⟨ext, ht, -⟩ := hstep.events
    -- what was registered before was taken over before
    have hold : l₁.registry key = some a → ∃ u, .updated u ∈ l₂.trace ∧ u.key = key ∧ u.app = a := fun ha => by
      obtain ⟨u, hu, h⟩ := ih ha
      exact ⟨u, ht ▸ List.mem_append_left _ hu, h⟩
    cases hstep with
    | quiet | start | close => exact hold ha
    | @report u files =>
      simp only [Function.update_apply] at ha
      split at ha
      · exact ⟨u, by simp, by simp_all⟩
      · exact hold ha
    | delete =>
      simp only [Function.update_apply] at ha
      split at ha
      · cases ha
      · exact hold ha
    | shut => cases ha

/-- The files of an app are written right before it counts as taken over. -/
theorem Steps.written (h : Steps empty l) : EveryAt (fun pre e _ => ∀ u, e = .updated u →
    ∃ before files, pre = before ++ files ∧ Creation u files) l.trace := by
  induction h with
  | refl => exact everyAt_nil
  | @tail l₁ l₂ _ hstep ih =>
    have hnone : ∀ ext, (∀ e ∈ ext, ∀ u, e ≠ .updated u) → EveryAt (fun pre e _ => ∀ u, e = .updated u →
        ∃ before files, pre = before ++ files ∧ Creation u files) (l₁.trace ++ ext) := fun ext hext =>
      everyAt_append.2 ⟨ih, everyAt_of_forall fun e he _ _ u hu => (hext e he u hu).elim⟩
    cases hstep with
    | quiet hq => exact hnone _ fun e he u hu => by simpa [hu, Quiet] using hq e he
    | start _ hs =>
      refine hnone _ (List.forall_mem_cons.2 ⟨by simp, fun e he u hu => ?_⟩)
      simpa [hu, ScanEvent] using hs e he
    | @report u files _ _ hfiles =>
      refine everyAt_append.2 ⟨ih, everyAt_append.2 ⟨?_, everyAt_singleton.2 ?_⟩⟩
      · exact everyAt_of_forall fun e he _ _ v hv => ((hfiles.events e he).2.1 v hv).elim
      -- the update itself: its files are what comes right before it
      · rintro _ ⟨⟩
        exact ⟨l₁.trace, files, by simp, hfiles⟩
    | delete _ hlink hicon =>
      refine hnone _ (List.forall_mem_append.2 ⟨List.forall_mem_append.2 ⟨fun e he u hu => ?_, fun e he u hu => ?_⟩,
        by simp⟩)
      · obtain ⟨-, ok, rfl⟩ := hlink.events e he
        cases hu
      · obtain ⟨-, ok, rfl⟩ := hicon.events e he
        cases hu
    | close _ hclean =>
      refine hnone _ (List.forall_mem_cons.2 ⟨by simp, List.forall_mem_append.2 ⟨fun e he u hu => ?_, by simp⟩⟩)
      simpa [hu, CleanUpEvent] using hclean.events e he
    | shut => exact ih

end Steps

end Ledger

end Wslg
