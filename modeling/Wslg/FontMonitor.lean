import Wslg.Lib.KeyedSet
import Wslg.Lib.Watches
import Wslg.ProcessMonitor
/-!
# The font monitor

`FontMonitor.cpp` of WSLGd, with the directories it watches, inotify and the font
path of the X server. The monitor goes from system call to system call, and the
directories may change before each of them. Files other than `fonts.dir` and the
log are left out.
-/

open Lib

namespace Wslg.Wslgd

/-! ## Paths -/

instance : LinearOrder BYTE where
  le_refl a := UInt8.le_refl a
  le_trans _ _ _ := UInt8.le_trans
  le_antisymm _ _ := UInt8.le_antisymm
  le_total a b := UInt8.le_total a b
  lt_iff_le_not_ge a b := by
    rw [UInt8.lt_iff_toNat_lt, UInt8.le_iff_toNat_le, UInt8.le_iff_toNat_le]
    omega
  toDecidableLE := inferInstance
  toDecidableLT := inferInstance
  toDecidableEq := inferInstance

def bytes (s : String) : CharString := s.toList.map (fun c => c.toNat.toUInt8)

/-- A name in a directory, neither `.` nor `..`. -/
structure Name where
  bytes : CharString
  valid : bytes ≠ [] ∧ 0x2F ∉ bytes ∧ bytes ≠ [0x2E] ∧ bytes ≠ [0x2E, 0x2E]
  deriving DecidableEq

def X11 : Name := ⟨bytes "X11", by decide +kernel⟩

def c_fontsdir : Name := ⟨bytes "fonts.dir", by decide +kernel⟩

inductive Root where
  | USER_DISTRO_FONT_PATH
  | ALT_DISTRO_FONT_PATH
  deriving DecidableEq

def Root.names : Root → List CharString
  | .USER_DISTRO_FONT_PATH => ["mnt", "wslg", "distro", "usr", "share", "fonts"].map Wslgd.bytes
  | .ALT_DISTRO_FONT_PATH => ["mnt", "wslg", "distro", "usr", "share", "X11", "fonts"].map Wslgd.bytes

structure FolderPath where
  root : Root
  below : List Name
  deriving DecidableEq

namespace FolderPath

/-- `operator/=`, with one name. -/
def sub (p : FolderPath) (n : Name) : FolderPath := ⟨p.root, p.below ++ [n]⟩

def str (p : FolderPath) : CharString := (p.root.names ++ p.below.map Name.bytes).flatMap (fun n => 0x2F :: n)

def mount : FolderPath := ⟨.USER_DISTRO_FONT_PATH, []⟩

end FolderPath

/-! ## inotify -/

def IN_CLOSE_WRITE : UInt32 := 0x8
def IN_MOVED_FROM : UInt32 := 0x40
def IN_MOVED_TO : UInt32 := 0x80
def IN_CREATE : UInt32 := 0x100
def IN_DELETE : UInt32 := 0x200
def IN_IGNORED : UInt32 := 0x8000
def IN_ISDIR : UInt32 := 0x40000000

/-- Without a name `len` is 0. -/
structure inotify_event where
  wd : Wd
  mask : UInt32
  name : Option Name
  deriving DecidableEq

/-! ## The monitor's data -/

structure FontFolder where
  m_path : FolderPath
  /-- `none` is -1. -/
  m_wd : Option Wd
  m_isPathAdded : Bool
  deriving DecidableEq

def FontFolder.key (f : FontFolder) : CharString := f.m_path.str

/-- What the monitor does next. A folder that is constructed or destroyed is not in the map. -/
inductive Work where
  | idle
  | AddMonitorFolder (path : FolderPath)
  /-- `FontFolder::FontFolder`: `access`, `ModifyX11FontPath(true)`, `dup` and `inotify_add_watch`. -/
  | access (f : FontFolder)
  | addPath (f : FontFolder)
  | addWatch (f : FontFolder)
  /-- `AddMonitorFolder` once the folder is in the map. -/
  | openFolder (path : FolderPath)
  /-- `FontFolder::~FontFolder`: `ModifyX11FontPath(false)` and `inotify_rm_watch`. -/
  | removePath (f : FontFolder)
  | removeWatch (f : FontFolder)
  /-- `HandleFontsDirEvent` for a folder: `access` and `ModifyX11FontPath`. -/
  | checkFontsDir (path : FolderPath)
  | modify (path : FolderPath) (isAdd : Bool)
  /-- `xset fp rehash` -/
  | rehash (next : Work)
  deriving DecidableEq

/-- What it goes on with after that. -/
inductive Frame where
  /-- `Start` adds another root. -/
  | start (path : FolderPath)
  /-- `AddMonitorFolder` reads the directory; the names are still to come. -/
  | readFolder (path : FolderPath) (dir : Inode) (unread : List Name)
  deriving DecidableEq

structure FontState where
  /-- The roots of the monitor, and the rest of the file system. -/
  tree : DirTree (Option Root) Name
  /-- The `fonts.dir` of a directory, and whether it can be read. -/
  fontsDir : Inode → Option Bool
  watches : Watches
  /-- Read or not, the events not yet handled. -/
  queue : List inotify_event
  /-- What `xset +fp` put into the font path of the X server. -/
  fontPath : List FolderPath
  m_fontMonitorFolders : KeyedSet FontFolder.key
  work : Work
  frames : List Frame

namespace FontState

def resolve (s : FontState) (p : FolderPath) : Option Inode := s.tree.resolve (some p.root) p.below

/-- `access` of `fonts.dir` with `R_OK`; a directory of that name can be read. -/
def readable (s : FontState) (p : FolderPath) : Bool :=
  match s.resolve p with
  | none => false
  | some i => s.fontsDir i = some true || (s.tree.child i c_fontsdir).isSome

end FontState

/-! ## The monitor -/

/-- How a call went. -/
inductive Answer where
  | ok
  | fails
  /-- An entry of the directory. -/
  | entry (name : Name)
  deriving DecidableEq

/-- `xset` with `+fp` or `-fp` is called if it changes something, and `xset fp rehash` if it succeeded. -/
def ModifyX11FontPath (f : FontFolder) (isAdd success : Bool) (fontPath : List FolderPath) (next : FontFolder → Work) :
    FontFolder × List FolderPath × Work :=
  if f.m_isPathAdded ≠ isAdd ∧ success then
    let f := { f with m_isPathAdded := isAdd }
    (f, if isAdd then f.m_path :: fontPath else fontPath.filter (· ≠ f.m_path), .rehash (next f))
  else (f, fontPath, next f)

namespace FontState

/-- `dup` and `inotify_add_watch`, which answers with the descriptor an inode has already.
A folder without a watch is dropped again. -/
def addWatch (s : FontState) (f : FontFolder) (a : Answer) : FontState :=
  match if a = .ok then s.resolve f.m_path else none with
  | none => { s with work := .removePath f }
  | some i =>
    match h : s.watches.wdOf i with
    | some wd =>
      { s with
        m_fontMonitorFolders := s.m_fontMonitorFolders.insert { f with m_wd := some wd }
        work := .openFolder f.m_path }
    | none =>
      { s with
        watches := s.watches.add i h
        m_fontMonitorFolders := s.m_fontMonitorFolders.insert { f with m_wd := some s.watches.next }
        work := .openFolder f.m_path }

/-- Of the mount path only `X11` is tracked; else the directory is opened. -/
def openFolder (s : FontState) (path : FolderPath) : FontState :=
  if path = .mount then
    { s with work := if (s.resolve (path.sub X11)).isSome then .AddMonitorFolder (path.sub X11) else .idle }
  else
    match s.resolve path with
    | none => { s with work := .idle }
    | some dir => { s with work := .idle, frames := .readFolder path dir (s.tree.names dir) :: s.frames }

/-- `inotify_rm_watch`, if the inode of the descriptor is still there. -/
def removeWatch (s : FontState) (f : FontFolder) : FontState :=
  match f.m_wd with
  | none => { s with work := .idle }
  | some wd =>
    if s.watches.marks.any (fun x => x.2 = wd) then
      { s with
        watches := s.watches.remove wd
        queue := s.queue ++ [⟨wd, IN_IGNORED, none⟩]
        work := .idle }
    else { s with work := .idle }

def RemoveMonitorFolder (s : FontState) (path : FolderPath) : FontState :=
  match s.m_fontMonitorFolders.find path.str with
  | none => s
  | some f => { s with m_fontMonitorFolders := s.m_fontMonitorFolders.erase path.str, work := .removePath f }

/-- The first folder, in the order of the map, that has the descriptor. -/
def folderOf (s : FontState) (wd : Wd) : Option FontFolder :=
  s.m_fontMonitorFolders.elems.find? (fun f => f.m_wd = some wd)

def HandleFolderEvent (s : FontState) (event : inotify_event) (name : Name) : FontState :=
  match s.folderOf event.wd with
  | none => s
  | some f =>
    if event.mask &&& (IN_CREATE ||| IN_MOVED_TO) ≠ 0 then
      if f.m_path = .mount ∧ name ≠ X11 then s else { s with work := .AddMonitorFolder (f.m_path.sub name) }
    else if event.mask &&& (IN_DELETE ||| IN_MOVED_FROM) ≠ 0 then s.RemoveMonitorFolder (f.m_path.sub name)
    else s

def HandleFontsDirEvent (s : FontState) (event : inotify_event) : FontState :=
  match s.folderOf event.wd with
  | none => s
  | some f =>
    if event.mask &&& (IN_CREATE ||| IN_CLOSE_WRITE ||| IN_MOVED_TO) ≠ 0 then { s with work := .checkFontsDir f.m_path }
    else if event.mask &&& (IN_DELETE ||| IN_MOVED_FROM) ≠ 0 then { s with work := .modify f.m_path false }
    else s

def handleEvent (s : FontState) (event : inotify_event) : FontState :=
  match event.name with
  | none => s
  | some name =>
    if event.mask &&& IN_ISDIR ≠ 0 then s.HandleFolderEvent event name
    else if name = c_fontsdir then s.HandleFontsDirEvent event
    else s

/-- `ModifyX11FontPath` of a tracked folder. -/
def modify (s : FontState) (path : FolderPath) (isAdd success : Bool) : FontState :=
  match s.m_fontMonitorFolders.find path.str with
  | none => { s with work := .idle }
  | some f =>
    let (f, fontPath, next) := ModifyX11FontPath f isAdd success s.fontPath (fun _ => .idle)
    { s with
      m_fontMonitorFolders := (s.m_fontMonitorFolders.erase path.str).insert f
      fontPath := fontPath
      work := next }

/-- What the monitor does next, up to its next call. -/
def proceed (s : FontState) (a : Answer) : Option FontState :=
  match s.work with
  | .AddMonitorFolder path =>
    some { s with work := if (s.m_fontMonitorFolders.find path.str).isSome then .idle else .access ⟨path, none, false⟩ }
  | .access f => some { s with work := if s.readable f.m_path then .addPath f else .addWatch f }
  | .addPath f =>
    let (_, fontPath, next) := ModifyX11FontPath f true (a = .ok) s.fontPath .addWatch
    some { s with fontPath := fontPath, work := next }
  | .addWatch f => some (s.addWatch f a)
  | .openFolder path => some (s.openFolder path)
  | .removePath f =>
    let (_, fontPath, next) := ModifyX11FontPath f false (a = .ok) s.fontPath .removeWatch
    some { s with fontPath := fontPath, work := next }
  | .removeWatch f => some (s.removeWatch f)
  | .checkFontsDir path => some { s with work := if s.readable path then .modify path true else .idle }
  | .modify path isAdd => some (s.modify path isAdd (a = .ok))
  | .rehash next => some { s with work := next }
  | .idle =>
    match s.frames, a with
    | .start path :: frames, _ => some { s with work := .AddMonitorFolder path, frames := frames }
    | .readFolder path dir unread :: frames, .entry name =>
      some { s with work := .AddMonitorFolder (path.sub name), frames := .readFolder path dir (unread.erase name) :: frames }
    | .readFolder _ _ unread :: frames, _ => if unread = [] then some { s with frames := frames } else none
    | [], _ =>
      -- `read` of `FontMonitorThread`
      match s.queue with
      | [] => none
      | event :: queue => some ({ s with queue := queue }.handleEvent event)

end FontState

/-! ## The directories -/

inductive Change where
  | mkdir (dir : Inode) (name : Name)
  | rmdir (dir : Inode) (name : Name)
  | rename (dir : Inode) (name : Name) (dir' : Inode) (name' : Name)
  /-- Of `fonts.dir`: made, written and closed, removed, moved here and away. -/
  | create (dir : Inode) (readable : Bool)
  | rewrite (dir : Inode)
  | remove (dir : Inode)
  | moveIn (dir : Inode) (readable : Bool)
  | moveOut (dir : Inode)
  deriving DecidableEq

/-- An open directory need not return an entry that was removed. -/
def Frame.forget (dir : Inode) (name : Name) : Frame → Frame
  | .start path => .start path
  | .readFolder path d unread => .readFolder path d (if d = dir then unread.filter (· ≠ name) else unread)

namespace FontState

def notify (s : FontState) (dir : Inode) (mask : UInt32) (name : Name) : FontState :=
  match s.watches.wdOf dir with
  | none => s
  | some wd => { s with queue := s.queue ++ [⟨wd, mask, some name⟩] }

/-- A directory that is gone is not watched any more. -/
def discard (s : FontState) (dir : Inode) : FontState :=
  match s.watches.wdOf dir with
  | none => s
  | some wd => { s with watches := s.watches.drop dir, queue := s.queue ++ [⟨wd, IN_IGNORED, none⟩] }

def forget (s : FontState) (dir : Inode) (name : Name) : FontState :=
  { s with frames := s.frames.map (Frame.forget dir name) }

/-- A directory that was not removed. -/
def isDir (s : FontState) (i : Inode) : Bool :=
  s.tree.root none = some i ∨ s.tree.root (some .USER_DISTRO_FONT_PATH) = some i ∨
    s.tree.root (some .ALT_DISTRO_FONT_PATH) = some i ∨ s.tree.links.any (fun l => l.target = i)

/-- Nothing in it that the model knows of. -/
def isEmpty (s : FontState) (i : Inode) : Bool := s.tree.names i = [] ∧ s.fontsDir i = none

/-- Nothing else has the name. -/
def isFree (s : FontState) (dir : Inode) (name : Name) : Bool := name = c_fontsdir → s.fontsDir dir = none

def setFontsDir (s : FontState) (dir : Inode) (file : Option Bool) (mask : UInt32) : FontState :=
  { s with fontsDir := Function.update s.fontsDir dir file }.notify dir mask c_fontsdir

/-- The directory under its new name. -/
def moved (s : FontState) (i : Inode) (n : Name) (j : Inode) (m : Name) (k : Inode)
    (h : s.tree.child i n = some k ∧ j < s.tree.next) : FontState :=
  ((({ s with tree := s.tree.move i n j m k h }.forget i n).forget j m).notify i (IN_MOVED_FROM ||| IN_ISDIR) n).notify j
    (IN_MOVED_TO ||| IN_ISDIR) m

/-- A change of the directories, if it is possible. -/
def change (s : FontState) : Change → Option FontState
  | .mkdir i n =>
    if h : (i < s.tree.next ∧ s.tree.child i n = none) ∧ s.isDir i ∧ s.isFree i n then
      some ({ s with tree := s.tree.mkdir i n h.1 }.notify i (IN_CREATE ||| IN_ISDIR) n)
    else none
  | .rmdir i n =>
    match s.tree.child i n with
    | none => none
    | some k =>
      if s.isEmpty k then
        some ((({ s with tree := s.tree.unlink i n }.forget i n).notify i (IN_DELETE ||| IN_ISDIR) n).discard k)
      else none
  | .rename i n j m =>
    match hk : s.tree.child i n with
    | none => none
    | some k =>
      if h : j < s.tree.next ∧ s.isDir j ∧ s.isFree j m ∧ (i, n) ≠ (j, m) ∧ k ∉ s.tree.above s.tree.links.length j ∧
          ∀ k', s.tree.child j m = some k' → s.isEmpty k' then
        match s.tree.child j m with
        | none => some (s.moved i n j m k ⟨hk, h.1⟩)
        | some replaced => some ((s.moved i n j m k ⟨hk, h.1⟩).discard replaced)
      else none
  | .create i readable =>
    if s.isDir i ∧ s.fontsDir i = none ∧ s.tree.child i c_fontsdir = none then
      some (s.setFontsDir i (some readable) IN_CREATE)
    else none
  | .rewrite i => if (s.fontsDir i).isSome then some (s.setFontsDir i (s.fontsDir i) IN_CLOSE_WRITE) else none
  | .remove i => if (s.fontsDir i).isSome then some (s.setFontsDir i none IN_DELETE) else none
  | .moveIn i readable =>
    if s.isDir i ∧ s.tree.child i c_fontsdir = none then some (s.setFontsDir i (some readable) IN_MOVED_TO) else none
  | .moveOut i => if (s.fontsDir i).isSome then some (s.setFontsDir i none IN_MOVED_FROM) else none

end FontState

/-! ## Runs -/

inductive FontLabel where
  | change (c : Change)
  | monitor (a : Answer)
  deriving DecidableEq

def FontState.step (s : FontState) : FontLabel → Option FontState
  | .change c => s.change c
  | .monitor a => s.proceed a

/-- `Start`, once it has an inotify instance: the roots that exist are added. -/
def FontState.start (tree : DirTree (Option Root) Name) (fontsDir : Inode → Option Bool) : FontState where
  tree := tree
  fontsDir := fontsDir
  watches := .empty
  queue := []
  fontPath := []
  m_fontMonitorFolders := .empty
  work := .idle
  frames := (if (tree.root (some .USER_DISTRO_FONT_PATH)).isSome then [.start ⟨.USER_DISTRO_FONT_PATH, []⟩] else []) ++
    (if (tree.root (some .ALT_DISTRO_FONT_PATH)).isSome then [.start ⟨.ALT_DISTRO_FONT_PATH, []⟩] else [])

/-- The event queue is empty, and the monitor waits in `read`. -/
def FontState.Quiet (s : FontState) : Prop := s.queue = [] ∧ s.work = .idle ∧ s.frames = []

instance (s : FontState) : Decidable s.Quiet := inferInstanceAs (Decidable (_ ∧ _ ∧ _))

end Wslg.Wslgd
