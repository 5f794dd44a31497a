import Wslg.Lib.MirrorSteps
import Wslg.Lib.System
import Wslg.FontMonitor
/-!
# The folders that are monitored

The monitor is a mirror of the directories: what it does, and what happens to the
directories, are steps of a mirror. So the map holds the directories that it
should whenever the monitor is at rest, in runs that keep the mirror good.
-/

open Lib

namespace Wslg.Wslgd

/-! ## Paths as strings -/

theorem takeWhile_slash {x rest : CharString} (hx : 0x2F ∉ x) (hrest : rest = [] ∨ ∃ y, rest = 0x2F :: y) :
    (x ++ rest).takeWhile (· ≠ 0x2F) = x := by
  have hpos : ∀ a ∈ x, decide (a ≠ 0x2F) = true := by
    intro a ha
    simp only [decide_eq_true_eq]
    rintro rfl
    exact hx ha
  rw [List.takeWhile_append_of_pos hpos]
  rcases hrest with rfl | ⟨y, rfl⟩
  · simp
  · simp

theorem flatMap_slash_inj {xs ys : List CharString} (hxs : ∀ x ∈ xs, 0x2F ∉ x) (hys : ∀ y ∈ ys, 0x2F ∉ y)
    (h : xs.flatMap (fun n => 0x2F :: n) = ys.flatMap (fun n => 0x2F :: n)) : xs = ys := by
  have hstart : ∀ zs : List CharString, zs.flatMap (fun n => 0x2F :: n) = [] ∨
      ∃ y, zs.flatMap (fun n => 0x2F :: n) = 0x2F :: y := by
    rintro (_ | ⟨z, zs⟩)
    · exact .inl rfl
    · exact .inr ⟨_, rfl⟩
  induction xs generalizing ys with
  | nil =>
    cases ys with
    | nil => rfl
    | cons y ys => cases h
  | cons x xs ih =>
    cases ys with
    | nil => cases h
    | cons y ys =>
      simp only [List.flatMap_cons, List.cons_append, List.cons.injEq, true_and] at h
      have hx := takeWhile_slash (hxs x List.mem_cons_self) (hstart xs)
      have hy := takeWhile_slash (hys y List.mem_cons_self) (hstart ys)
      obtain rfl : x = y := by rw [← hx, ← hy, h]
      rw [ih (fun z hz => hxs z (List.mem_cons_of_mem _ hz)) (fun z hz => hys z (List.mem_cons_of_mem _ hz))
        (List.append_cancel_left h)]

theorem Root.names_slash (r : Root) : ∀ x ∈ r.names, 0x2F ∉ x := by
  cases r <;> decide +kernel

/-- No path of one root is a path of the other. -/
theorem Root.names_append {r r' : Root} {xs ys : List CharString} (h : r.names ++ xs = r'.names ++ ys) : r = r' := by
  have hsixth := congrArg (fun zs => zs[5]?) h
  cases r <;> cases r'
  · rfl
  · exact absurd (Option.some.inj hsixth) (by decide +kernel)
  · exact absurd (Option.some.inj hsixth) (by decide +kernel)
  · rfl

theorem FolderPath.str_injective {p q : FolderPath} (h : p.str = q.str) : p = q := by
  have hslash : ∀ p : FolderPath, ∀ x ∈ p.root.names ++ p.below.map Name.bytes, 0x2F ∉ x := by
    intro p x hx
    rcases List.mem_append.1 hx with hx | hx
    · exact p.root.names_slash x hx
    · obtain ⟨n, -, rfl⟩ := List.mem_map.1 hx
      exact n.valid.2.1
  have hnames := flatMap_slash_inj (hslash p) (hslash q) h
  obtain ⟨r, ns⟩ := p
  obtain ⟨r', ns'⟩ := q
  obtain rfl := Root.names_append hnames
  have hinj : Function.Injective Name.bytes := by
    rintro ⟨b, hb⟩ ⟨b', hb'⟩ heq
    cases heq
    rfl
  obtain rfl : ns = ns' := hinj.list_map (List.append_cancel_left hnames)
  rfl

/-! ## The mirror -/

def FolderPath.place (p : FolderPath) : Place (Option Root) Name := (some p.root, p.below)

theorem FolderPath.place_injective {p q : FolderPath} (h : p.place = q.place) : p = q := by
  obtain ⟨r, ns⟩ := p
  obtain ⟨r', ns'⟩ := q
  cases h
  rfl

/-- What the monitor follows: of the mount path only `X11`, and whatever is below. -/
def Monitored (p : FolderPath) : Prop :=
  match p.root with
  | .ALT_DISTRO_FONT_PATH => True
  | .USER_DISTRO_FONT_PATH => p.below = [] ∨ p.below.head? = some X11

def FolderPath.isBelow (p q : FolderPath) : Bool := p.root = q.root ∧ q.below <+: p.below ∧ p ≠ q

def Wanted (p : Place (Option Root) Name) : Prop := ∃ q : FolderPath, Monitored q ∧ p = q.place

def inotify_event.note? (event : inotify_event) : Option (Note Name) :=
  match event.name with
  | none => none
  | some name =>
    if event.mask &&& IN_ISDIR ≠ 0 then
      if event.mask &&& (IN_CREATE ||| IN_MOVED_TO) ≠ 0 then some ⟨event.wd, name, true⟩
      else if event.mask &&& (IN_DELETE ||| IN_MOVED_FROM) ≠ 0 then some ⟨event.wd, name, false⟩
      else none
    else none

/-- What an event says of a `fonts.dir`: there is one, or it went. -/
def inotify_event.fontsDir? (event : inotify_event) : Option Bool :=
  match event.name with
  | none => none
  | some name =>
    if event.mask &&& IN_ISDIR ≠ 0 then none
    else if name = c_fontsdir then
      if event.mask &&& (IN_CREATE ||| IN_CLOSE_WRITE ||| IN_MOVED_TO) ≠ 0 then some true
      else if event.mask &&& (IN_DELETE ||| IN_MOVED_FROM) ≠ 0 then some false
      else none
    else none

def Work.view : Work → MirrorWork (Option Root) Name
  | .AddMonitorFolder path => .adding path.place
  | .access f => .adding f.m_path.place
  | .addPath f => .adding f.m_path.place
  | .addWatch f => .adding f.m_path.place
  | .openFolder path => .opening path.place
  | .rehash next => next.view
  | _ => .idle

def Frame.start? : Frame → Option (Place (Option Root) Name)
  | .start path => some path.place
  | .readFolder _ _ _ => none

def Frame.reading? : Frame → Option (Place (Option Root) Name × Inode × List Name)
  | .start _ => none
  | .readFolder path dir unread => some (path.place, dir, unread)

namespace FontState

def entryAt (folders : KeyedSet FontFolder.key) : Place (Option Root) Name → Option Wd
  | (some r, ns) => (folders.find (FolderPath.str ⟨r, ns⟩)).bind FontFolder.m_wd
  | (none, _) => none

def view (s : FontState) : Mirror (Option Root) Name where
  tree := s.tree
  watches := s.watches
  notes := s.queue.filterMap inotify_event.note?
  entry := entryAt s.m_fontMonitorFolders
  work := s.work.view
  starts := s.frames.filterMap Frame.start?
  reading := s.frames.filterMap Frame.reading?

end FontState

/-! ### Entries -/

section Entries

variable {folders : KeyedSet FontFolder.key} {f : FontFolder} {p q : FolderPath} {w : Wd}

theorem entryAt_place (folders : KeyedSet FontFolder.key) (p : FolderPath) :
    FontState.entryAt folders p.place = (folders.find p.str).bind FontFolder.m_wd := rfl

theorem find_path (h : folders.find p.str = some f) : f.m_path = p :=
  FolderPath.str_injective (KeyedSet.find_eq_some.1 h).2

theorem find_of_mem (hf : f ∈ folders.elems) : folders.find f.m_path.str = some f := KeyedSet.find_eq_some.2 ⟨hf, rfl⟩

theorem entryAt_eq_some {x : Place (Option Root) Name} :
    FontState.entryAt folders x = some w ↔ ∃ f ∈ folders.elems, f.m_path.place = x ∧ f.m_wd = some w := by
  constructor
  · intro h
    obtain ⟨_ | r, ns⟩ := x
    · cases h
    · obtain ⟨f, hf, hw⟩ := Option.bind_eq_some_iff.1 h
      exact ⟨f, (KeyedSet.find_eq_some.1 hf).1, by rw [find_path hf]; rfl, hw⟩
  · rintro ⟨f, hf, rfl, hw⟩
    rw [entryAt_place, find_of_mem hf]
    exact hw

/-- Another entry. -/
theorem entryAt_insert (hfree : folders.find f.m_path.str = none) :
    FontState.entryAt (folders.insert f) = Function.update (FontState.entryAt folders) f.m_path.place f.m_wd := by
  funext x
  rw [Function.update_apply]
  obtain ⟨_ | r, ns⟩ := x
  · rw [if_neg (by rintro ⟨⟩)]
    rfl
  · change ((folders.insert f).find (FolderPath.str ⟨r, ns⟩)).bind FontFolder.m_wd = _
    rw [KeyedSet.find_insert]
    by_cases heq : (⟨r, ns⟩ : FolderPath) = f.m_path
    · rw [if_pos ⟨by rw [heq]; rfl, by rw [heq, hfree]⟩, if_pos (by rw [← heq]; rfl)]
      rfl
    · have hne : ((some r, ns) : Place (Option Root) Name) ≠ f.m_path.place := fun h => heq (FolderPath.place_injective h)
      rw [if_neg fun h => heq (FolderPath.str_injective h.1), if_neg hne]
      rfl

theorem entryAt_erase (p : FolderPath) :
    FontState.entryAt (folders.erase p.str) = Function.update (FontState.entryAt folders) p.place none := by
  funext x
  rw [Function.update_apply]
  obtain ⟨_ | r, ns⟩ := x
  · rw [if_neg (by rintro ⟨⟩)]
    rfl
  · change ((folders.erase p.str).find (FolderPath.str ⟨r, ns⟩)).bind FontFolder.m_wd = _
    rw [KeyedSet.find_erase]
    by_cases heq : (⟨r, ns⟩ : FolderPath) = p
    · rw [if_pos (by rw [heq]), if_pos (by rw [← heq]; rfl)]
      rfl
    · have hne : ((some r, ns) : Place (Option Root) Name) ≠ p.place := fun h => heq (FolderPath.place_injective h)
      rw [if_neg fun h => heq (FolderPath.str_injective h), if_neg hne]
      rfl

/-- A folder put in the place of one that has its watch. -/
theorem entryAt_replace {g : FontFolder} (hf : folders.find f.m_path.str = some f) (hpath : g.m_path = f.m_path)
    (hwd : g.m_wd = f.m_wd) : FontState.entryAt ((folders.erase f.m_path.str).insert g) = FontState.entryAt folders := by
  have hfree : (folders.erase f.m_path.str).find g.m_path.str = none := by
    rw [KeyedSet.find_erase, hpath, if_pos rfl]
  rw [entryAt_insert hfree, entryAt_erase, hpath, Function.update_idem, hwd, Function.update_eq_self_iff, entryAt_place, hf]
  rfl

/-- The folder that an event is for. -/
theorem folderOf_eq_some {s : FontState} (h : s.folderOf w = some f) :
    f ∈ s.m_fontMonitorFolders.elems ∧ FontState.entryAt s.m_fontMonitorFolders f.m_path.place = some w := by
  have hw : f.m_wd = some w := by simpa using List.find?_some h
  exact ⟨List.mem_of_find?_eq_some h, entryAt_eq_some.2 ⟨f, List.mem_of_find?_eq_some h, rfl, hw⟩⟩

theorem folderOf_eq_none {s : FontState} (h : s.folderOf w = none) (x : Place (Option Root) Name) :
    FontState.entryAt s.m_fontMonitorFolders x ≠ some w := by
  intro hx
  obtain ⟨f, hf, -, hw⟩ := entryAt_eq_some.1 hx
  exact absurd (List.find?_eq_none.1 h f hf) (by simpa using hw)

end Entries

/-! ### What holds in every state -/

/-- The folder that is constructed. -/
def Work.building? : Work → Option FontFolder
  | .access f => some f
  | .addPath f => some f
  | .addWatch f => some f
  | .rehash next => next.building?
  | _ => none

/-- The folder that is destroyed. -/
def Work.leaving? : Work → Option FontFolder
  | .removePath f => some f
  | .removeWatch f => some f
  | .rehash next => next.leaving?
  | _ => none

structure Tracking (s : FontState) : Prop where
  good : s.view.Good Wanted
  wds : ∀ f ∈ s.m_fontMonitorFolders.elems, f.m_wd ≠ none
  building : ∀ f, s.work.building? = some f → f.m_wd = none ∧ s.m_fontMonitorFolders.find f.m_path.str = none
  leaving : ∀ f w, s.work.leaving? = some f → f.m_wd = some w → ∀ x, FontState.entryAt s.m_fontMonitorFolders x ≠ some w

theorem wanted_place {p : FolderPath} : Wanted p.place ↔ Monitored p := by
  constructor
  · rintro ⟨q, hq, heq⟩
    rwa [FolderPath.place_injective heq]
  · exact fun h => ⟨p, h, rfl⟩

/-- Whatever is below a folder that is monitored, but for the mount path. -/
theorem monitored_sub {p : FolderPath} {n : Name} (h : Monitored p) (hn : p = .mount → n = X11) : Monitored (p.sub n) := by
  obtain ⟨r, ns⟩ := p
  cases r with
  | ALT_DISTRO_FONT_PATH => trivial
  | USER_DISTRO_FONT_PATH =>
    refine .inr ?_
    rcases h with h | h
    · obtain rfl : ns = [] := h
      rw [hn rfl]
      rfl
    · obtain ⟨m, ms, rfl⟩ : ∃ m ms, ns = m :: ms := by
        cases ns with
        | nil => cases h
        | cons m ms => exact ⟨m, ms, rfl⟩
      exact h

theorem monitored_mount_sub {n : Name} (h : Monitored (FolderPath.mount.sub n)) : n = X11 := by
  rcases h with h | h
  · cases h
  · exact Option.some.inj h

theorem wanted_up {x : Place (Option Root) Name} {n : Name} (h : Wanted (x.sub n)) : Wanted x := by
  obtain ⟨⟨r, ns⟩, hq, heq⟩ := h
  obtain ⟨r', ns'⟩ := x
  obtain ⟨rfl, hns⟩ := Prod.mk.inj heq
  change ns' ++ [n] = ns at hns
  subst hns
  refine ⟨⟨r, ns'⟩, ?_, rfl⟩
  cases r with
  | ALT_DISTRO_FONT_PATH => trivial
  | USER_DISTRO_FONT_PATH =>
    rcases hq with hq | hq
    · exact absurd hq (by simp)
    · cases ns' with
      | nil => exact .inl rfl
      | cons m ms => exact .inr hq

theorem tracked_entry {s : FontState} (hs : Tracking s) {p : FolderPath} {f : FontFolder}
    (hf : s.m_fontMonitorFolders.find p.str = some f) : s.view.entry p.place ≠ none := by
  change FontState.entryAt s.m_fontMonitorFolders p.place ≠ none
  rw [entryAt_place, hf]
  exact hs.wds f (KeyedSet.find_eq_some.1 hf).1

theorem untracked_entry {s : FontState} {p : FolderPath} (hp : s.m_fontMonitorFolders.find p.str = none) :
    s.view.entry p.place = none := by
  change FontState.entryAt s.m_fontMonitorFolders p.place = none
  rw [entryAt_place, hp]
  rfl

theorem view_work {s : FontState} {work : Work} (hwork : s.work = work) : s.view.work = work.view :=
  congrArg Work.view hwork

/-- No folder below a path is in the map, so none is tracked. -/
theorem untracked_below {s : FontState} {p : FolderPath} {x : Place (Option Root) Name}
    (hnone : s.m_fontMonitorFolders.elems.all (fun g => ¬ g.m_path.isBelow p)) (hx : x.Under p.place) (hne : x ≠ p.place) :
    s.view.entry x = none := by
  obtain ⟨ns, rfl⟩ := hx
  by_contra hx
  obtain ⟨w, hw⟩ := Option.ne_none_iff_exists'.1 hx
  have hw' : FontState.entryAt s.m_fontMonitorFolders (FolderPath.place ⟨p.root, p.below ++ ns⟩) = some w := hw
  obtain ⟨g, hg, hplace, -⟩ := entryAt_eq_some.1 hw'
  have hpath := FolderPath.place_injective hplace
  have hbelow : g.m_path.isBelow p := by
    refine decide_eq_true ⟨by rw [hpath], by rw [hpath]; exact List.prefix_append .., ?_⟩
    intro heq
    exact hne (hplace.symm.trans (congrArg FolderPath.place heq))
  exact of_decide_eq_true (List.all_eq_true.1 hnone g hg) hbelow

/-! ## The monitor's steps -/

namespace FontState

/-- `inotify_add_watch` fails only if the directory is not there. -/
def reliable (s : FontState) : FontLabel → Bool
  | .change _ => true
  | .monitor a =>
    match s.work with
    | .addWatch _ => a = .ok
    | _ => true

/-- If the next event makes the monitor remove a folder, none below it is tracked. -/
def removesAlone (s : FontState) : Bool :=
  match s.work, s.frames, s.queue with
  | .idle, [], event :: _ =>
    match s.folderOf event.wd, event.note? with
    | some f, some ⟨_, name, false⟩ => s.m_fontMonitorFolders.elems.all (fun g => ¬ g.m_path.isBelow (f.m_path.sub name))
    | _, _ => true
  | _, _, _ => true

/-- A directory that is to be watched is not watched under another path. -/
def watchesNew (s : FontState) : Bool :=
  match s.work with
  | .addWatch f => (s.resolve f.m_path).all (fun i => s.watches.wdOf i = none)
  | _ => true

/-- A directory does not get the name of another one that is tracked. -/
def replacesNone (s : FontState) (j : Inode) (m : Name) : Bool :=
  match (s.watches.wdOf j).bind s.folderOf with
  | none => true
  | some f => s.tree.child j m = none ∨ s.m_fontMonitorFolders.find (f.m_path.sub m).str = none

/-- None of what goes wrong. -/
def careful (s : FontState) : FontLabel → Bool
  | .monitor _ => s.removesAlone ∧ s.watchesNew
  | .change (.rename _ _ j m) => s.replacesNone j m
  | .change _ => true

end FontState

def ReliableStep (s : FontState) (l : FontLabel) (t : FontState) : Prop := s.step l = some t ∧ s.reliable l

def CarefulStep (s : FontState) (l : FontLabel) (t : FontState) : Prop := ReliableStep s l t ∧ s.careful l

section Proceed

variable {s t : FontState} {f : FontFolder} {path : FolderPath} {a : Answer}

/-- What is neither constructed nor destroyed. -/
theorem Tracking.of_view (hs : Tracking s) (hgood : t.view.Good Wanted)
    (hfolders : t.m_fontMonitorFolders = s.m_fontMonitorFolders) (hbuilding : t.work.building? = none)
    (hleaving : t.work.leaving? = none) : Tracking t where
  good := hgood
  wds := hfolders ▸ hs.wds
  building f hf := by rw [hbuilding] at hf; cases hf
  leaving f w hf := by rw [hleaving] at hf; cases hf

theorem ModifyX11FontPath_folder {isAdd success : Bool} {fontPath fontPath' : List FolderPath} {next : FontFolder → Work}
    {g : FontFolder} {work : Work} (h : ModifyX11FontPath f isAdd success fontPath next = (g, fontPath', work)) :
    g.m_path = f.m_path ∧ g.m_wd = f.m_wd ∧ (work = next g ∨ work = .rehash (next g)) := by
  unfold ModifyX11FontPath at h
  split at h
  · cases h
    exact ⟨rfl, rfl, .inr rfl⟩
  · cases h
    exact ⟨rfl, rfl, .inl rfl⟩

theorem tracking_AddMonitorFolder (hs : Tracking s) (hwork : s.work = .AddMonitorFolder path) (h : s.proceed a = some t) :
    Tracking t := by
  unfold FontState.proceed at h
  rw [hwork] at h
  cases h
  have hview : s.view.work = .adding path.place := view_work hwork
  cases hfind : s.m_fontMonitorFolders.find path.str with
  | some f =>
    simp only [Option.isSome_some, if_true]
    exact hs.of_view (hs.good.added hview (.inl (tracked_entry hs hfind))) rfl rfl rfl
  | none =>
    simp only [Option.isSome_none, Bool.false_eq_true, if_false]
    -- the constructor runs; the folder is not in the map before it is watched
    refine ⟨?_, hs.wds, fun f hf => ?_, fun f w hf => by cases hf⟩
    · have hgood := hs.good
      have hsame : FontState.view { s with work := .access ⟨path, none, false⟩ } = s.view := by
        simp only [FontState.view, hwork, Work.view]
      rwa [hsame]
    · cases hf
      exact ⟨rfl, hfind⟩

/-- The constructor, up to the watch. -/
theorem proceed_construct (hwork : s.work = .access f ∨ s.work = .addPath f) (h : s.proceed a = some t) :
    ∃ g fontPath work, t = { s with fontPath := fontPath, work := work } ∧ g.m_path = f.m_path ∧ g.m_wd = f.m_wd ∧
      work.building? = some g ∧ work.leaving? = none ∧ work.view = .adding g.m_path.place := by
  unfold FontState.proceed at h
  rcases hwork with hwork | hwork
  · rw [hwork] at h
    cases h
    refine ⟨f, s.fontPath, _, rfl, rfl, rfl, ?_, ?_, ?_⟩
    · split <;> rfl
    · split <;> rfl
    · split <;> rfl
  · simp only [hwork] at h
    rcases hmodify : ModifyX11FontPath f true (a = .ok) s.fontPath .addWatch with ⟨g, fontPath, work⟩
    obtain ⟨hpath, hwd, hnext⟩ := ModifyX11FontPath_folder hmodify
    rw [hmodify] at h
    cases h
    refine ⟨g, fontPath, work, rfl, hpath, hwd, ?_, ?_, ?_⟩
    · rcases hnext with rfl | rfl <;> rfl
    · rcases hnext with rfl | rfl <;> rfl
    · rcases hnext with rfl | rfl <;> rfl

/-- The destructor, up to the watch. -/
theorem proceed_removePath (hwork : s.work = .removePath f) (h : s.proceed a = some t) :
    ∃ g fontPath work, t = { s with fontPath := fontPath, work := work } ∧ g.m_wd = f.m_wd ∧
      work.building? = none ∧ work.leaving? = some g ∧ work.view = .idle := by
  unfold FontState.proceed at h
  simp only [hwork] at h
  rcases hmodify : ModifyX11FontPath f false (a = .ok) s.fontPath .removeWatch with ⟨g, fontPath, work⟩
  obtain ⟨-, hwd, hnext⟩ := ModifyX11FontPath_folder hmodify
  rw [hmodify] at h
  cases h
  refine ⟨g, fontPath, work, rfl, hwd, ?_, ?_, ?_⟩
  · rcases hnext with rfl | rfl <;> rfl
  · rcases hnext with rfl | rfl <;> rfl
  · rcases hnext with rfl | rfl <;> rfl

/-- The flag of a tracked folder; its path and its watch stay. -/
theorem proceed_modify {isAdd : Bool} (hwork : s.work = .modify path isAdd) (h : s.proceed a = some t) :
    t = { s with work := .idle } ∨ ∃ f g fontPath work, s.m_fontMonitorFolders.find f.m_path.str = some f ∧
      g.m_path = f.m_path ∧ g.m_wd = f.m_wd ∧ work.building? = none ∧ work.leaving? = none ∧ work.view = .idle ∧
      t = { s with
        m_fontMonitorFolders := (s.m_fontMonitorFolders.erase f.m_path.str).insert g
        fontPath := fontPath
        work := work } := by
  unfold FontState.proceed at h
  rw [hwork] at h
  cases h
  unfold FontState.modify
  cases hfind : s.m_fontMonitorFolders.find path.str with
  | none => exact .inl rfl
  | some f =>
    obtain rfl := find_path hfind
    rcases hmodify : ModifyX11FontPath f isAdd (a = .ok) s.fontPath (fun _ => .idle) with ⟨g, fontPath, work⟩
    obtain ⟨hpath, hwd, hnext⟩ := ModifyX11FontPath_folder hmodify
    dsimp only
    rw [hmodify]
    refine .inr ⟨f, g, fontPath, work, hfind, hpath, hwd, ?_, ?_, ?_, rfl⟩
    · rcases hnext with rfl | rfl <;> rfl
    · rcases hnext with rfl | rfl <;> rfl
    · rcases hnext with rfl | rfl <;> rfl

theorem wds_replace {folders : KeyedSet FontFolder.key} {g : FontFolder} (hwds : ∀ f ∈ folders.elems, f.m_wd ≠ none)
    (hf : folders.find f.m_path.str = some f) (hwd : g.m_wd = f.m_wd) :
    ∀ f' ∈ ((folders.erase f.m_path.str).insert g).elems, f'.m_wd ≠ none := by
  intro f' hf'
  rcases KeyedSet.mem_insert.1 hf' with hf' | ⟨rfl, -⟩
  · exact hwds f' (KeyedSet.mem_erase.1 hf').1
  · rw [hwd]
    exact hwds f (KeyedSet.find_eq_some.1 hf).1

theorem tracking_construct (hs : Tracking s) (hwork : s.work = .access f ∨ s.work = .addPath f) (h : s.proceed a = some t) :
    Tracking t := by
  have hbuild : s.work.building? = some f := by rcases hwork with hwork | hwork <;> rw [hwork] <;> rfl
  have hview : s.work.view = .adding f.m_path.place := by rcases hwork with hwork | hwork <;> rw [hwork] <;> rfl
  obtain ⟨hnone, hfree⟩ := hs.building f hbuild
  obtain ⟨g, fontPath, work, rfl, hpath, hwd, hbuilding, hleaving, hview'⟩ := proceed_construct hwork h
  have hgood := hs.good
  unfold FontState.view at hgood
  rw [hview, ← hpath, ← hview'] at hgood
  refine ⟨hgood, hs.wds, fun g' hg' => ?_, fun f' w hf' => ?_⟩
  · rw [hbuilding] at hg'
    cases hg'
    exact ⟨hwd.trans hnone, by rw [hpath, hfree]⟩
  · rw [hleaving] at hf'
    cases hf'

/-- Between two works a folder starts, an open directory is read on or closed, or an event is handled. -/
theorem proceed_idle (hwork : s.work = .idle) (h : s.proceed a = some t) :
    (∃ path frames, s.frames = .start path :: frames ∧ t = { s with work := .AddMonitorFolder path, frames := frames }) ∨
    (∃ path dir unread name frames, s.frames = .readFolder path dir unread :: frames ∧
      t = { s with work := .AddMonitorFolder (path.sub name), frames := .readFolder path dir (unread.erase name) :: frames }) ∨
    (∃ path dir frames, s.frames = .readFolder path dir [] :: frames ∧ t = { s with work := .idle, frames := frames }) ∨
    ∃ event queue, s.frames = [] ∧ s.queue = event :: queue ∧
      t = ({ s with queue := queue } : FontState).handleEvent event := by
  obtain ⟨tree, fontsDir, watches, queue, fontPath, m_fontMonitorFolders, work, frames⟩ := s
  obtain rfl : work = .idle := hwork
  simp only [FontState.proceed] at h
  split at h
  case h_1 path frames =>
    cases h
    exact .inl ⟨path, frames, rfl, rfl⟩
  case h_2 path dir unread frames name =>
    cases h
    exact .inr (.inl ⟨path, dir, unread, name, frames, rfl, rfl⟩)
  case h_3 path dir unread frames _ =>
    -- `readdir` returns nothing only after all names
    split at h
    case isTrue hunread =>
      cases h
      exact .inr (.inr (.inl ⟨path, dir, frames, by rw [hunread], rfl⟩))
    case isFalse => cases h
  case h_4 =>
    cases queue with
    | nil => cases h
    | cons event queue =>
      cases h
      exact .inr (.inr (.inr ⟨event, queue, rfl, rfl, rfl⟩))

theorem tracking_addWatch (hs : Tracking s) (hwork : s.work = .addWatch f) (hreliable : s.reliable (.monitor a))
    (hnew : s.watchesNew) (h : s.proceed a = some t) : Tracking t := by
  unfold FontState.proceed at h
  rw [hwork] at h
  cases h
  simp only [FontState.reliable, hwork, decide_eq_true_eq] at hreliable
  subst hreliable
  obtain ⟨hnone, hfree⟩ := hs.building f (by rw [hwork]; rfl)
  have hview : s.view.work = .adding f.m_path.place := view_work hwork
  unfold FontState.addWatch
  simp only [if_true]
  cases hres : s.resolve f.m_path with
  | none =>
    -- not there: the constructor fails, and nothing is added
    refine ⟨hs.good.added hview (.inr hres), hs.wds, ?_, ?_⟩
    · intro g hg
      cases hg
    · intro g w hg hw
      cases hg
      rw [hnone] at hw
      cases hw
  | some i =>
    have hfresh : s.watches.wdOf i = none := by simpa [FontState.watchesNew, hwork, hres] using hnew
    dsimp only
    split
    · rename_i wd heq
      -- `inotify_add_watch` on a directory that has a watch returns its descriptor
      rw [hfresh] at heq
      cases heq
    · have hgood := hs.good.watch hview (untracked_entry hfree) hres hfresh
      have hentry := entryAt_insert (f := { f with m_wd := some s.watches.next }) hfree
      refine ⟨?_, ?_, ?_, ?_⟩
      · simp only [FontState.view, Work.view, hentry]
        exact hgood
      · intro g hg
        rcases KeyedSet.mem_insert.1 hg with hg | ⟨rfl, -⟩
        · exact hs.wds g hg
        · exact Option.some_ne_none _
      · intro g hg
        cases hg
      · intro g w hg
        cases hg

theorem tracking_openFolder (hs : Tracking s) (hwork : s.work = .openFolder path) (h : s.proceed a = some t) :
    Tracking t := by
  unfold FontState.proceed at h
  rw [hwork] at h
  cases h
  have hview : s.view.work = .opening path.place := view_work hwork
  have hmonitored : Monitored path := wanted_place.1 (hs.good.want _ (hs.good.opening_in _ hview))
  unfold FontState.openFolder
  -- of the mount path only `X11` is looked at; any other folder is read
  by_cases hmount : path = .mount
  · subst hmount
    rw [if_pos rfl]
    have honly : ∀ n', Wanted (FolderPath.mount.place.sub n') → n' = X11 :=
      fun n' hn' => monitored_mount_sub (wanted_place.1 hn')
    have hX11 : Wanted (FolderPath.mount.place.sub X11) := (wanted_place (p := FolderPath.mount.sub X11)).2 (Or.inr rfl)
    refine hs.of_view (hs.good.looked hview honly hX11 ?_) rfl ?_ ?_
    · change Work.view (if _ then _ else _) = _
      exact apply_ite Work.view ..
    · dsimp only
      split <;> rfl
    · dsimp only
      split <;> rfl
  · rw [if_neg hmount]
    have hsub : ∀ n, Wanted (path.place.sub n) :=
      fun n => (wanted_place (p := path.sub n)).2 (monitored_sub hmonitored fun heq => absurd heq hmount)
    cases hres : s.resolve path with
    | none =>
      have hnone : s.view.tree.resolve path.place.1 path.place.2 = none := hres
      exact hs.of_view (hs.good.opened hview hsub (by rw [hnone]; rfl)) rfl rfl rfl
    | some dir =>
      have hsome : s.view.tree.resolve path.place.1 path.place.2 = some dir := hres
      exact hs.of_view (hs.good.opened hview hsub (by rw [hsome]; rfl)) rfl rfl rfl

theorem tracking_removePath (hs : Tracking s) (hwork : s.work = .removePath f) (h : s.proceed a = some t) :
    Tracking t := by
  obtain ⟨g, fontPath, work, rfl, hwd, hbuilding, hleaving, hview⟩ := proceed_removePath hwork h
  -- the entry was erased already: only the watch is left
  have hidle : work.view = s.work.view := by rw [hview, hwork]; rfl
  have hgood := hs.good
  unfold FontState.view at hgood
  rw [← hidle] at hgood
  refine ⟨hgood, hs.wds, fun g' hg' => ?_, fun g' w hg' hw => ?_⟩
  · rw [hbuilding] at hg'
    cases hg'
  · rw [hleaving] at hg'
    cases hg'
    exact hs.leaving f w (by rw [hwork]; rfl) (hwd ▸ hw)

theorem tracking_removeWatch (hs : Tracking s) (hwork : s.work = .removeWatch f) (h : s.proceed a = some t) :
    Tracking t := by
  unfold FontState.proceed at h
  rw [hwork] at h
  cases h
  have hgood := hs.good
  simp only [FontState.view, hwork, Work.view] at hgood
  unfold FontState.removeWatch
  cases hwd : f.m_wd with
  | none => exact hs.of_view hgood rfl rfl rfl
  | some wd =>
    dsimp only
    split
    · have hentry := hs.leaving f wd (by rw [hwork]; rfl) hwd
      refine hs.of_view ?_ rfl rfl rfl
      simp only [FontState.view, List.filterMap_append]
      exact (List.append_nil (s.queue.filterMap inotify_event.note?)).symm ▸ hgood.unwatch hentry
    · exact hs.of_view hgood rfl rfl rfl

theorem tracking_checkFontsDir (hs : Tracking s) (hwork : s.work = .checkFontsDir path) (h : s.proceed a = some t) :
    Tracking t := by
  unfold FontState.proceed at h
  rw [hwork] at h
  cases h
  have hgood := hs.good
  simp only [FontState.view, hwork, Work.view] at hgood
  by_cases hreadable : s.readable path
  · rw [if_pos hreadable]
    exact hs.of_view hgood rfl rfl rfl
  · rw [if_neg hreadable]
    exact hs.of_view hgood rfl rfl rfl

theorem tracking_modify {isAdd : Bool} (hs : Tracking s) (hwork : s.work = .modify path isAdd)
    (h : s.proceed a = some t) : Tracking t := by
  have hgood := hs.good
  simp only [FontState.view, hwork, Work.view] at hgood
  rcases proceed_modify hwork h with rfl | ⟨f, g, fontPath, work, hfind, hpath, hwd, hbuilding, hleaving, hview, rfl⟩
  · exact hs.of_view hgood rfl rfl rfl
  · refine ⟨?_, wds_replace hs.wds hfind hwd, fun f' hf' => ?_, fun f' w hf' => ?_⟩
    · simp only [FontState.view, hview, entryAt_replace hfind hpath hwd]
      exact hgood
    · rw [hbuilding] at hf'
      cases hf'
    · rw [hleaving] at hf'
      cases hf'

theorem tracking_rehash {next : Work} (hs : Tracking s) (hwork : s.work = .rehash next) (h : s.proceed a = some t) :
    Tracking t := by
  unfold FontState.proceed at h
  rw [hwork] at h
  cases h
  obtain ⟨hgood, hwds, hbuilding, hleaving⟩ := hs
  simp only [FontState.view, hwork] at hgood hbuilding hleaving
  exact ⟨hgood, hwds, hbuilding, hleaving⟩

/-! ### Events -/

section Events

variable {event : inotify_event} {rest : List inotify_event} {name : Name} {w : Wd}

theorem note?_eq_some {x : Note Name} (h : event.note? = some x) :
    x.wd = event.wd ∧ event.name = some x.name ∧ event.mask &&& IN_ISDIR ≠ 0 ∧
      if x.arrives then event.mask &&& (IN_CREATE ||| IN_MOVED_TO) ≠ 0
      else ¬ event.mask &&& (IN_CREATE ||| IN_MOVED_TO) ≠ 0 ∧ event.mask &&& (IN_DELETE ||| IN_MOVED_FROM) ≠ 0 := by
  unfold inotify_event.note? at h
  cases hname : event.name with
  | none =>
    rw [hname] at h
    cases h
  | some name =>
    simp only [hname] at h
    split at h
    · split at h
      · cases h
        exact ⟨rfl, rfl, ‹_›, ‹_›⟩
      · split at h
        · cases h
          exact ⟨rfl, rfl, ‹_›, ‹_›, ‹_›⟩
        · cases h
    · cases h

theorem note?_arrives {mask : UInt32} (hdir : mask &&& IN_ISDIR ≠ 0) (harrives : mask &&& (IN_CREATE ||| IN_MOVED_TO) ≠ 0)
    (w : Wd) : inotify_event.note? ⟨w, mask, some name⟩ = some ⟨w, name, true⟩ :=
  (if_pos hdir).trans (if_pos harrives)

theorem note?_departs {mask : UInt32} (hdir : mask &&& IN_ISDIR ≠ 0) (harrives : ¬ mask &&& (IN_CREATE ||| IN_MOVED_TO) ≠ 0)
    (hdeparts : mask &&& (IN_DELETE ||| IN_MOVED_FROM) ≠ 0) (w : Wd) :
    inotify_event.note? ⟨w, mask, some name⟩ = some ⟨w, name, false⟩ :=
  (if_pos hdir).trans ((if_neg harrives).trans (if_pos hdeparts))

/-- An event that says nothing of a directory. -/
theorem handleEvent_of_none (h : event.note? = none) :
    s.handleEvent event = match event.fontsDir?, s.folderOf event.wd with
      | some true, some f => { s with work := .checkFontsDir f.m_path }
      | some false, some f => { s with work := .modify f.m_path false }
      | _, _ => s := by
  unfold inotify_event.note? at h
  unfold FontState.handleEvent inotify_event.fontsDir?
  cases hevent : event.name with
  | none => rfl
  | some name =>
    rw [hevent] at h
    dsimp only at h ⊢
    -- of a directory: a mask that says neither that it came nor that it went
    by_cases hdir : event.mask &&& IN_ISDIR ≠ 0
    · rw [if_pos hdir] at h
      rw [if_pos hdir, if_pos hdir]
      unfold FontState.HandleFolderEvent
      cases s.folderOf event.wd with
      | none => rfl
      | some f =>
        dsimp only
        split
        · rw [if_pos ‹_›] at h
          cases h
        · rw [if_neg ‹_›] at h
          split
          · rw [if_pos ‹_›] at h
            cases h
          · rfl
    · rw [if_neg hdir, if_neg hdir]
      by_cases hname : name = c_fontsdir
      · rw [if_pos hname, if_pos hname]
        unfold FontState.HandleFontsDirEvent
        cases s.folderOf event.wd with
        | none =>
          by_cases happears : event.mask &&& (IN_CREATE ||| IN_CLOSE_WRITE ||| IN_MOVED_TO) ≠ 0
          · rw [if_pos happears]
          · rw [if_neg happears]
            by_cases hgoes : event.mask &&& (IN_DELETE ||| IN_MOVED_FROM) ≠ 0
            · rw [if_pos hgoes]
            · rw [if_neg hgoes]
        | some f =>
          dsimp only
          split
          · rfl
          · split <;> rfl
      · rw [if_neg hname, if_neg hname]

theorem handleEvent_arrives (h : event.note? = some ⟨w, name, true⟩) :
    s.handleEvent event = match s.folderOf w with
      | none => s
      | some f => if f.m_path = .mount ∧ name ≠ X11 then s else { s with work := .AddMonitorFolder (f.m_path.sub name) } := by
  obtain ⟨rfl, hname, hdir, hmask⟩ := note?_eq_some h
  simp only [FontState.handleEvent, hname, FontState.HandleFolderEvent]
  rw [if_pos hdir]
  cases s.folderOf event.wd with
  | none => rfl
  | some f => exact if_pos hmask

theorem handleEvent_departs (h : event.note? = some ⟨w, name, false⟩) :
    s.handleEvent event = match s.folderOf w with
      | none => s
      | some f => s.RemoveMonitorFolder (f.m_path.sub name) := by
  obtain ⟨rfl, hname, hdir, hcreate, hdelete⟩ := note?_eq_some h
  simp only [FontState.handleEvent, hname, FontState.HandleFolderEvent]
  rw [if_pos hdir]
  cases s.folderOf event.wd with
  | none => rfl
  | some f => exact (if_neg hcreate).trans (if_pos hdelete)

theorem view_queue (hqueue : s.queue = event :: rest) : s.view.notes =
    match event.note? with
    | none => rest.filterMap inotify_event.note?
    | some x => x :: rest.filterMap inotify_event.note? := by
  unfold FontState.view
  rw [hqueue, List.filterMap_cons]
  cases event.note? <;> rfl

/-- The event of a directory that arrived. -/
theorem tracking_arrives (hs : Tracking s) (hwork : s.work = .idle) (hqueue : s.queue = event :: rest)
    (hnote : event.note? = some ⟨w, name, true⟩) : Tracking (({ s with queue := rest } : FontState).handleEvent event) := by
  have hview : s.view.work = .idle := view_work hwork
  have hnotes := view_queue hqueue
  rw [hnote] at hnotes
  rw [handleEvent_arrives hnote]
  cases hfolder : ({ s with queue := rest } : FontState).folderOf w with
  | none =>
    have hgood := hs.good.ignore hnotes fun q hq => absurd hq (folderOf_eq_none hfolder q)
    exact hs.of_view hgood rfl (by rw [hwork]; rfl) (by rw [hwork]; rfl)
  | some f =>
    have hentry : s.view.entry f.m_path.place = some w := (folderOf_eq_some hfolder).2
    have hmonitored : Monitored f.m_path := by
      refine wanted_place.1 (hs.good.want _ ?_)
      rw [hentry]
      exact Option.some_ne_none w
    dsimp only
    split
    · rename_i hmount
      refine hs.of_view (hs.good.ignore hnotes fun q hq hwanted => ?_) rfl (by rw [hwork]; rfl) (by rw [hwork]; rfl)
      obtain rfl := hs.good.wd_inj q f.m_path.place w hq hentry
      rw [hmount.1] at hwanted
      exact hmount.2 (monitored_mount_sub (wanted_place.1 hwanted))
    · rename_i hmount
      have hsub : Monitored (f.m_path.sub name) :=
        monitored_sub hmonitored fun heq => not_not.1 fun hne => hmount ⟨heq, hne⟩
      exact hs.of_view (hs.good.arrive hnotes hview hentry (wanted_place.2 hsub)) rfl rfl rfl

/-- The event of a directory that went. -/
theorem tracking_departs (hs : Tracking s) (hwork : s.work = .idle) (hframes : s.frames = []) (hqueue : s.queue = event :: rest)
    (hnote : event.note? = some ⟨w, name, false⟩) (halone : s.removesAlone) :
    Tracking (({ s with queue := rest } : FontState).handleEvent event) := by
  have hview : s.view.work = .idle := view_work hwork
  have hnotes := view_queue hqueue
  rw [hnote] at hnotes
  rw [handleEvent_departs hnote]
  cases hfolder : ({ s with queue := rest } : FontState).folderOf w with
  | none =>
    have hgood := hs.good.unknown hnotes (folderOf_eq_none hfolder)
    exact hs.of_view hgood rfl (by rw [hwork]; rfl) (by rw [hwork]; rfl)
  | some f =>
    have hentry : s.view.entry f.m_path.place = some w := (folderOf_eq_some hfolder).2
    obtain rfl : w = event.wd := (note?_eq_some hnote).1
    simp only [FontState.removesAlone, hwork, hframes, hqueue, hnote] at halone
    rw [show s.folderOf event.wd = some f from hfolder] at halone
    have hgood := hs.good.depart hnotes hview (by rw [FontState.view, hframes]; rfl) (by rw [FontState.view, hframes]; rfl)
      hentry fun x => untracked_below halone
    dsimp only
    unfold FontState.RemoveMonitorFolder
    cases hfind : s.m_fontMonitorFolders.find (f.m_path.sub name).str with
    | none =>
      -- nothing is tracked there
      rw [Function.update_eq_self_iff.2 (untracked_entry hfind).symm] at hgood
      exact hs.of_view hgood rfl (by rw [hwork]; rfl) (by rw [hwork]; rfl)
    | some g =>
      refine ⟨?_, ?_, ?_, ?_⟩
      · simp only [FontState.view, Work.view, entryAt_erase]
        rw [FontState.view, hwork] at hgood
        exact hgood
      · exact fun g' hg' => hs.wds g' (KeyedSet.mem_erase.1 hg').1
      · intro g' hg'
        cases hg'
      · intro g' v hg' hv x hx
        cases hg'
        rw [entryAt_erase, Function.update_apply] at hx
        split at hx
        · cases hx
        · rename_i hne
          -- the watch is of the folder that was erased, so no entry has it
          have hown : s.view.entry g.m_path.place = some v :=
            entryAt_eq_some.2 ⟨g, (KeyedSet.find_eq_some.1 hfind).1, rfl, hv⟩
          exact hne ((hs.good.wd_inj x g.m_path.place v hx hown).trans (congrArg FolderPath.place (find_path hfind)))

end Events

theorem tracking_event {event : inotify_event} {rest : List inotify_event} (hs : Tracking s) (hwork : s.work = .idle)
    (hframes : s.frames = []) (hqueue : s.queue = event :: rest) (halone : s.removesAlone) :
    Tracking (({ s with queue := rest } : FontState).handleEvent event) := by
  cases hnote : event.note? with
  | none =>
    have hgood := hs.good
    simp only [FontState.view, hwork, hqueue, List.filterMap_cons, hnote, Work.view] at hgood
    rw [handleEvent_of_none hnote]
    split
    · exact hs.of_view hgood rfl rfl rfl
    · exact hs.of_view hgood rfl rfl rfl
    · refine hs.of_view ?_ rfl (by rw [hwork]; rfl) (by rw [hwork]; rfl)
      simp only [FontState.view, hwork, Work.view]
      exact hgood
  | some x =>
    obtain ⟨w, name, arrives⟩ := x
    cases arrives with
    | true => exact tracking_arrives hs hwork hqueue hnote
    | false => exact tracking_departs hs hwork hframes hqueue hnote halone

theorem tracking_idle (hs : Tracking s) (hwork : s.work = .idle) (halone : s.removesAlone) (h : s.proceed a = some t) :
    Tracking t := by
  have hview : s.view.work = .idle := view_work hwork
  have hstarts : s.view.starts = s.frames.filterMap Frame.start? := rfl
  have hreading : s.view.reading = s.frames.filterMap Frame.reading? := rfl
  rcases proceed_idle hwork h with ⟨path, frames, hframes, rfl⟩ | ⟨path, dir, unread, name, frames, hframes, rfl⟩ |
    ⟨path, dir, frames, hframes, rfl⟩ | ⟨event, queue, hframes, hqueue, rfl⟩
  -- a folder starts
  · rw [hframes] at hstarts hreading
    have hgood := hs.good.begin hview hstarts
    rw [hreading] at hgood
    exact hs.of_view hgood rfl rfl rfl
  -- the next entry of a directory
  · rw [hframes] at hstarts hreading
    have hgood := hs.good.next hview hreading name
    rw [hstarts] at hgood
    exact hs.of_view hgood rfl rfl rfl
  -- a directory is read to its end
  · rw [hframes] at hstarts hreading
    have hgood := hs.good.close hview hreading
    rw [hstarts] at hgood
    exact hs.of_view hgood rfl rfl rfl
  · exact tracking_event hs hwork hframes hqueue halone

/-- Whatever the monitor does next. -/
theorem tracking_proceed (hs : Tracking s) (hreliable : s.reliable (.monitor a))
    (hcareful : s.careful (.monitor a)) (h : s.proceed a = some t) : Tracking t := by
  obtain ⟨halone, hnew⟩ : s.removesAlone ∧ s.watchesNew := of_decide_eq_true hcareful
  cases hwork : s.work with
  | idle => exact tracking_idle hs hwork halone h
  | AddMonitorFolder path => exact tracking_AddMonitorFolder hs hwork h
  | access f => exact tracking_construct hs (.inl hwork) h
  | addPath f => exact tracking_construct hs (.inr hwork) h
  | addWatch f => exact tracking_addWatch hs hwork hreliable hnew h
  | openFolder path => exact tracking_openFolder hs hwork h
  | removePath f => exact tracking_removePath hs hwork h
  | removeWatch f => exact tracking_removeWatch hs hwork h
  | checkFontsDir path => exact tracking_checkFontsDir hs hwork h
  | modify path isAdd => exact tracking_modify hs hwork h
  | rehash next => exact tracking_rehash hs hwork h

end Proceed

/-! ## Changes of the directories -/

section Changes

variable {s t : FontState} {i j k : Inode} {n m : Name} {mask : UInt32}

theorem Tracking.of_change (hs : Tracking s) (hgood : t.view.Good Wanted)
    (hfolders : t.m_fontMonitorFolders = s.m_fontMonitorFolders) (hwork : t.work = s.work) : Tracking t where
  good := hgood
  wds := hfolders ▸ hs.wds
  building := hwork ▸ hfolders ▸ hs.building
  leaving := hwork ▸ hfolders ▸ hs.leaving

@[simp] theorem notify_folders : (s.notify i mask n).m_fontMonitorFolders = s.m_fontMonitorFolders := by
  unfold FontState.notify
  split <;> rfl

@[simp] theorem notify_work : (s.notify i mask n).work = s.work := by
  unfold FontState.notify
  split <;> rfl

@[simp] theorem notify_tree : (s.notify i mask n).tree = s.tree := by
  unfold FontState.notify
  split <;> rfl

@[simp] theorem notify_watches : (s.notify i mask n).watches = s.watches := by
  unfold FontState.notify
  split <;> rfl

@[simp] theorem discard_folders : (s.discard i).m_fontMonitorFolders = s.m_fontMonitorFolders := by
  unfold FontState.discard
  split <;> rfl

@[simp] theorem discard_work : (s.discard i).work = s.work := by
  unfold FontState.discard
  split <;> rfl

theorem view_notify {arrives : Bool}
    (hnote : ∀ w, inotify_event.note? ⟨w, mask, some n⟩ = some ⟨w, n, arrives⟩) :
    (s.notify i mask n).view = { s.view with notes := s.view.notes ++ s.view.report i n arrives } := by
  unfold FontState.notify Mirror.report
  rw [show s.view.watches = s.watches from rfl]
  cases s.watches.wdOf i with
  | none =>
    dsimp only
    rw [List.append_nil]
  | some w =>
    simp only [FontState.view, List.filterMap_append, List.filterMap_cons, hnote, List.filterMap_nil]

theorem view_notify_none (hnote : ∀ w, inotify_event.note? ⟨w, mask, some n⟩ = none) : (s.notify i mask n).view = s.view := by
  unfold FontState.notify
  split
  · rfl
  · simp only [FontState.view, List.filterMap_append, List.filterMap_cons, hnote, List.filterMap_nil, List.append_nil]

theorem view_forget : (s.forget i n).view = { s.view with reading := s.view.reading.map (Mirror.forget i n) } := by
  have hstart : ∀ frame : Frame, (frame.forget i n).start? = frame.start? := by
    rintro (_ | _) <;> rfl
  have hreading : ∀ frame : Frame, (frame.forget i n).reading? = frame.reading?.map (Mirror.forget i n) := by
    rintro (_ | _) <;> rfl
  simp only [FontState.view, FontState.forget, List.filterMap_map, List.map_filterMap, Function.comp_def, hstart, hreading]

/-- A directory that is gone is not watched any more. -/
theorem good_discard (hgood : s.view.Good Wanted) (hroot : ∀ r, s.tree.root r ≠ some k)
    (hlinks : ∀ l ∈ s.tree.links, l.dir ≠ k ∧ l.target ≠ k) : (s.discard k).view.Good Wanted := by
  unfold FontState.discard
  split
  · exact hgood
  · simp only [FontState.view, List.filterMap_append]
    have hgone := hgood.gone hroot hlinks
    rw [← List.append_nil s.view.notes] at hgone
    exact hgone

theorem isEmpty_links (h : s.isEmpty k) : ∀ l ∈ s.tree.links, l.dir ≠ k := by
  rintro ⟨i, n, k'⟩ hl rfl
  have hnames : s.tree.names i = [] := (of_decide_eq_true h).1
  have hmem := DirTree.mem_names.2 ⟨k', hl⟩
  rw [hnames] at hmem
  cases hmem

theorem tracking_mkdir (hs : Tracking s) (h : s.change (.mkdir i n) = some t) : Tracking t := by
  simp only [FontState.change] at h
  split at h
  · cases h
    refine hs.of_change ?_ (by rw [notify_folders]) (by rw [notify_work])
    rw [view_notify (note?_arrives (by decide) (by decide))]
    rename_i hcan
    exact hs.good.grow.join ⟨i, n, s.tree.next⟩ (.new hcan.1)
  · cases h

theorem tracking_rmdir (hs : Tracking s) (h : s.change (.rmdir i n) = some t) : Tracking t := by
  simp only [FontState.change] at h
  cases hchild : s.tree.child i n with
  | none =>
    rw [hchild] at h
    cases h
  | some k =>
    simp only [hchild] at h
    split at h
    · cases h
      have hlink := DirTree.child_eq_some.1 hchild
      refine hs.of_change (good_discard ?_ (fun r hr => ?_) (fun l hl => ?_)) (by simp [FontState.forget]) (by simp [FontState.forget])
      · rw [view_notify (note?_departs (by decide) (by decide) (by decide)), view_forget]
        exact hs.good.cut i n (fun _ hx => hx) fun _ _ w _ hw _ _ => Mirror.mem_report.2 ⟨w, hw, rfl⟩
      -- what was linked is no root
      · rw [notify_tree] at hr
        exact s.tree.root_free r k hr _ hlink rfl
      · rw [notify_tree] at hl
        obtain ⟨hl, hne⟩ := DirTree.mem_unlink.1 hl
        refine ⟨isEmpty_links ‹_› l hl, fun heq => ?_⟩
        obtain rfl := s.tree.parent l hl _ hlink heq
        exact hne ⟨rfl, rfl⟩
    · cases h

/-- A cut, one that nobody hears of, and a join. -/
theorem good_moved (hs : Tracking s) (h : s.tree.child i n = some k ∧ j < s.tree.next)
    (hcareful : s.replacesNone j m) : (s.moved i n j m k h).view.Good Wanted := by
  have hquiet : ∀ k' p w, ⟨j, m, k'⟩ ∈ (s.tree.unlink i n).links → (j, w) ∈ s.watches.marks → s.view.entry p = some w →
      s.view.entry (p.sub m) = none := by
    intro k' p w hlink hmark hp
    unfold FontState.replacesNone at hcareful
    rw [Watches.wdOf_eq_some.2 hmark, Option.bind_some] at hcareful
    cases hfolder : s.folderOf w with
    | none => exact absurd hp (folderOf_eq_none hfolder p)
    | some f =>
      rw [hfolder] at hcareful
      -- whatever had the name is not tracked there, so nobody waits for its departure
      have hchild := DirTree.child_eq_some.2 (DirTree.mem_unlink.1 hlink).1
      have hfind := (of_decide_eq_true hcareful).resolve_left (by rw [hchild]; exact Option.some_ne_none k')
      obtain rfl := hs.good.wd_inj p f.m_path.place w hp (folderOf_eq_some hfolder).2
      exact untracked_entry hfind
  have hcut := hs.good.cut i n (fun _ hx => hx) fun _ _ w _ hw _ _ => Mirror.mem_report.2 ⟨w, hw, rfl⟩
  have hgood := (hcut.cut j m (List.nil_subset _) fun k' p w hl hw hp hpm => absurd (hquiet k' p w hl hw hp) hpm).join ⟨j, m, k⟩ (.moved h)
  unfold FontState.moved
  rw [view_notify (note?_arrives (by decide) (by decide)), view_notify (note?_departs (by decide) (by decide) (by decide)),
    view_forget, view_forget]
  unfold Mirror.join Mirror.cut at hgood
  simp only [List.append_nil] at hgood
  exact hgood

theorem tracking_rename (hs : Tracking s) (hcareful : s.careful (.change (.rename i n j m)))
    (h : s.change (.rename i n j m) = some t) : Tracking t := by
  simp only [FontState.change] at h
  split at h
  · cases h
  · rename_i k hchild
    split at h
    · rename_i hcan
      have hgood := good_moved hs ⟨hchild, hcan.1⟩ hcareful
      have hfolders : (s.moved i n j m k ⟨hchild, hcan.1⟩).m_fontMonitorFolders = s.m_fontMonitorFolders := by
        simp [FontState.moved, FontState.forget]
      have hwork : (s.moved i n j m k ⟨hchild, hcan.1⟩).work = s.work := by simp [FontState.moved, FontState.forget]
      have htree : (s.moved i n j m k ⟨hchild, hcan.1⟩).tree = s.tree.move i n j m k ⟨hchild, hcan.1⟩ := by
        simp [FontState.moved, FontState.forget]
      cases hreplaced : s.tree.child j m with
      | none =>
        rw [hreplaced] at h
        cases h
        exact hs.of_change hgood hfolders hwork
      | some k' =>
        rw [hreplaced] at h
        cases h
        have hlink' := DirTree.child_eq_some.1 hreplaced
        -- the directory that is replaced was empty, and is discarded
        have hempty := isEmpty_links (hcan.2.2.2.2.2 k' hreplaced)
        refine hs.of_change (good_discard hgood (fun r hr => ?_) (fun l hl => ?_)) (by rw [discard_folders, hfolders])
          (by rw [discard_work, hwork])
        · rw [htree] at hr
          exact s.tree.root_free r k' hr _ hlink' rfl
        · rw [htree, DirTree.mem_move] at hl
          rcases hl with rfl | ⟨hl, -, hne⟩
          -- the link of the renamed directory
          · refine ⟨hempty ⟨j, m, k'⟩ hlink', fun heq => ?_⟩
            cases s.tree.parent _ (DirTree.child_eq_some.1 hchild) _ hlink' heq
            exact hcan.2.2.2.1 rfl
          -- any other link
          · refine ⟨hempty l hl, fun heq => ?_⟩
            obtain rfl := s.tree.parent l hl _ hlink' heq
            exact hne ⟨rfl, rfl⟩
    · cases h

/-- What happens to a `fonts.dir` concerns no folder. -/
theorem tracking_setFontsDir {possible : Prop} [Decidable possible] {file : Option Bool} (hs : Tracking s)
    (hmask : ¬ mask &&& IN_ISDIR ≠ 0) (h : (if possible then some (s.setFontsDir i file mask) else none) = some t) :
    Tracking t := by
  split at h
  · cases h
    unfold FontState.setFontsDir
    refine hs.of_change ?_ (by rw [notify_folders]) (by rw [notify_work])
    rw [view_notify_none fun w => if_neg hmask]
    exact hs.good
  · cases h

theorem tracking_change {c : Change} (hs : Tracking s) (hcareful : s.careful (.change c)) (h : s.change c = some t) :
    Tracking t := by
  cases c with
  | mkdir i n => exact tracking_mkdir hs h
  | rmdir i n => exact tracking_rmdir hs h
  | rename i n j m => exact tracking_rename hs hcareful h
  | create i readable => exact tracking_setFontsDir hs (by decide) h
  | rewrite i => exact tracking_setFontsDir hs (by decide) h
  | remove i => exact tracking_setFontsDir hs (by decide) h
  | moveIn i readable => exact tracking_setFontsDir hs (by decide) h
  | moveOut i => exact tracking_setFontsDir hs (by decide) h

end Changes

/-! ## Runs -/

theorem mem_starts {tree : DirTree (Option Root) Name} {fontsDir : Inode → Option Bool} {p : Place (Option Root) Name} :
    p ∈ (FontState.start tree fontsDir).view.starts ↔ ∃ r, p = (some r, []) ∧ (tree.root (some r)).isSome := by
  simp only [FontState.view, FontState.start, List.filterMap_append, List.mem_append]
  constructor
  · rintro (h | h)
    · split at h
      · exact ⟨_, List.mem_singleton.1 h, ‹_›⟩
      · cases h
    · split at h
      · exact ⟨_, List.mem_singleton.1 h, ‹_›⟩
      · cases h
  · rintro ⟨r, rfl, hr⟩
    -- the two roots are tried one after the other
    cases r with
    | USER_DISTRO_FONT_PATH => exact .inl (by rw [if_pos hr]; exact List.mem_singleton_self _)
    | ALT_DISTRO_FONT_PATH => exact .inr (by rw [if_pos hr]; exact List.mem_singleton_self _)

theorem tracking_start (tree : DirTree (Option Root) Name) (fontsDir : Inode → Option Bool) :
    Tracking (.start tree fontsDir) := by
  have hadding : ∀ {p}, (FontState.start tree fontsDir).view.Adding p → ∃ r : Root, p = (some r, []) := by
    rintro p (hp | hp)
    · cases hp
    · obtain ⟨r, hr, -⟩ := mem_starts.1 hp
      exact ⟨r, hr⟩
  have hentry : ∀ p, (FontState.start tree fontsDir).view.entry p = none := by
    rintro ⟨_ | r, ns⟩ <;> rfl
  have hreading : (FontState.start tree fontsDir).view.reading = [] := by
    simp only [FontState.view, FontState.start, List.filterMap_append]
    split <;> split <;> rfl
  have hnone : ∀ {p w}, (FontState.start tree fontsDir).view.entry p ≠ some w := by
    intro p w hp
    rw [hentry] at hp
    cases hp
  exact {
    good :=
      { wd_inj := fun p q w hp => absurd hp hnone
        wd_used := fun p w hp => absurd hp hnone
        note_used := fun x hx => by cases hx
        up := fun p n hp => absurd (hentry _) hp
        want := fun p hp => absurd (hentry _) hp
        root_at := fun r w hr => absurd hr hnone
        root_in := by
          rintro r ⟨⟨r', ns⟩, -, heq⟩ hroot
          cases heq
          exact .inr (.inr (mem_starts.2 ⟨r', rfl, Option.isSome_iff_ne_none.2 hroot⟩))
        adding_want := by
          intro p hp
          obtain ⟨r, rfl⟩ := hadding hp
          refine (wanted_place (p := ⟨r, []⟩)).2 ?_
          cases r
          · exact .inl rfl
          · trivial
        adding_up := by
          intro p n hp
          obtain ⟨r, hr⟩ := hadding hp
          exact absurd hr Place.sub_ne_root
        opening_in := fun p hp => by cases hp
        reading_in := by
          intro p d unread hmem
          rw [hreading] at hmem
          cases hmem
        linked := fun p n w w' hp => absurd hp hnone
        listed := fun q w i n k hq => absurd hq hnone }
    wds := by simp [FontState.start]
    building := fun f hf => by cases hf
    leaving := fun f w hf => by cases hf }

theorem tracking_step {s t : FontState} {l : FontLabel} (hs : Tracking s)
    (h : CarefulStep s l t) : Tracking t := by
  obtain ⟨⟨hstep, hreliable⟩, hcareful⟩ := h
  cases l with
  | change c => exact tracking_change hs hcareful hstep
  | monitor a => exact tracking_proceed hs hreliable hcareful hstep

/-- The folders that should be tracked in the directories as they are. -/
def FontState.Converged (s : FontState) : Prop :=
  ∀ k, k ∈ s.m_fontMonitorFolders.keys ↔ ∃ p : FolderPath, k = p.str ∧ Monitored p ∧ (s.resolve p).isSome

theorem Tracking.converged {s : FontState} (hs : Tracking s) (hquiet : s.Quiet) : s.Converged := by
  obtain ⟨hqueue, hwork, hframes⟩ := hquiet
  have hrest := hs.good.at_rest (fun p n => wanted_up) (by rw [FontState.view, hqueue]; rfl) (by rw [FontState.view, hwork]; rfl)
    (by rw [FontState.view, hframes]; rfl) (by rw [FontState.view, hframes]; rfl)
  intro k
  constructor
  · intro hk
    obtain ⟨f, hf, rfl⟩ := List.mem_map.1 hk
    obtain ⟨hwanted, hres⟩ := (hrest f.m_path.place).1 (tracked_entry hs (find_of_mem hf))
    exact ⟨f.m_path, rfl, wanted_place.1 hwanted, Option.isSome_iff_ne_none.2 hres⟩
  · rintro ⟨p, rfl, hp, hres⟩
    have hin := (hrest p.place).2 ⟨wanted_place.2 hp, Option.isSome_iff_ne_none.1 hres⟩
    by_contra hk
    exact hin (untracked_entry (KeyedSet.find_eq_none.2 hk))

/-- At rest just the directories that are there are tracked. -/
theorem folders_converge {tree : DirTree (Option Root) Name} {fontsDir : Inode → Option Bool} {labels : List FontLabel}
    {s : FontState} (h : Run CarefulStep (.start tree fontsDir) labels s) (hquiet : s.Quiet) : s.Converged :=
  (h.invariant (I := Tracking) (fun _ _ _ hs hstep => tracking_step hs hstep) (tracking_start tree fontsDir)).converged hquiet

/-! ## A rename -/

/-- Only the alternative font path is there, and nothing in it. -/
def bareTree : DirTree (Option Root) Name where
  root r := if r = some .ALT_DISTRO_FONT_PATH then some 0 else none
  links := []
  next := 1
  root_inj r r' i h h' := by
    split at h <;> split at h' <;> simp_all
  root_used r i h := by
    split at h <;> simp_all
  root_free r i h l hl := by cases hl
  unique l hl := by cases hl
  parent l hl := by cases hl
  used l hl := by cases hl

def dirA : Name := ⟨bytes "a", by decide +kernel⟩

def dirB : Name := ⟨bytes "b", by decide +kernel⟩

def dirC : Name := ⟨bytes "c", by decide +kernel⟩

def monitorSteps (n : Nat) : List FontLabel := List.replicate n (.monitor .ok)

/-- `Start`, and a directory that is made and added. -/
def startAndMkdir : List FontLabel := monitorSteps 6 ++ .change (.mkdir 0 dirA) :: monitorSteps 6

theorem new_folder_is_tracked : ∃ s, Run CarefulStep (.start bareTree fun _ => none) startAndMkdir s ∧ s.Converged ∧
    s.m_fontMonitorFolders.keys = [FolderPath.str ⟨.ALT_DISTRO_FONT_PATH, []⟩, FolderPath.str ⟨.ALT_DISTRO_FONT_PATH, [dirA]⟩] := by
  have hend : (follow FontState.step (fun s l => s.reliable l ∧ s.careful l) (.start bareTree fun _ => none) startAndMkdir).any
      (fun s => s.Quiet ∧ s.m_fontMonitorFolders.keys =
        [FolderPath.str ⟨.ALT_DISTRO_FONT_PATH, []⟩, FolderPath.str ⟨.ALT_DISTRO_FONT_PATH, [dirA]⟩]) := by
    decide +kernel
  obtain ⟨s, h, hs⟩ := Run.exists_of_follow hend
  obtain ⟨hquiet, hkeys⟩ := of_decide_eq_true hs
  have hrun : Run CarefulStep (.start bareTree fun _ => none) startAndMkdir s :=
    h.mono fun s l t hstep => and_assoc.2 ⟨hstep.1, of_decide_eq_true hstep.2⟩
  exact ⟨s, hrun, folders_converge hrun hquiet, hkeys⟩

/-- `a` with a sub-folder becomes `c`. -/
def renameTracked : List FontLabel :=
  startAndMkdir ++ .change (.mkdir 1 dirB) :: monitorSteps 6 ++ .change (.rename 0 dirA 0 dirC) :: monitorSteps 8 ++
    .monitor (.entry dirB) :: monitorSteps 7

/-- Only the entry of `a` is erased; that of `a/b` stays. -/
theorem renamed_subfolder_stays : ∃ s, Run ReliableStep (.start bareTree fun _ => none) renameTracked s ∧ s.Quiet ∧
    ¬ s.Converged := by
  have hend : (follow FontState.step FontState.reliable (.start bareTree fun _ => none) renameTracked).any
      (fun s => s.Quiet ∧ FolderPath.str ⟨.ALT_DISTRO_FONT_PATH, [dirA, dirB]⟩ ∈ s.m_fontMonitorFolders.keys ∧
        s.resolve ⟨.ALT_DISTRO_FONT_PATH, [dirA, dirB]⟩ = none) := by
    decide +kernel
  obtain ⟨s, hrun, hs⟩ := Run.exists_of_follow hend
  obtain ⟨hquiet, hkey, hgone⟩ := of_decide_eq_true hs
  refine ⟨s, hrun, hquiet, fun hconverged => ?_⟩
  obtain ⟨p, hp, -, hres⟩ := (hconverged _).1 hkey
  rw [← FolderPath.str_injective hp, hgone] at hres
  cases hres

end Wslg.Wslgd
