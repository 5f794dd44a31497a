import Wslg.Folders
import Wslg.Lib.Effects
import Wslg.Lib.Path
/-!
# The font monitor, operation by operation

`FontMonitor.cpp` again, with whole operations in place of single system calls:
`Start`, `Stop`, the additions and removals and the handling of an event. A call
may answer anything; what it did for the monitor is an event of the trace. The
log and the pauses before `xset` are left out.
-/

open Lib Lib.TraceM

namespace Wslg.Wslgd.Operations

/-! ## Linux -/

abbrev Fd := Nat

/-- 0 is none. -/
abbrev pthread_t := Nat

def PATH_MAX : Nat := 4096

inductive AccessMode where
  | R_OK
  | X_OK

/-- Of the status that `waitpid` stores. -/
inductive Status where
  | exited (code : BYTE)
  | signaled

/-- `pthread_create` reports a failure by a positive number, and may leave anything
in the thread. -/
structure Created where
  error : Int
  nonneg : 0 ≤ error
  thread : pthread_t

def Created.success (thread : pthread_t) : Created := ⟨0, le_rfl, thread⟩

def Created.EAGAIN : Created := ⟨11, by decide, 0⟩

/-- `none` is -1, and an exception of `std::filesystem`. The directory iterator
gives the entries up to its end or its exception. -/
structure Linux (W : Type) where
  access : CharString → AccessMode → W → Bool × W
  pathExists : CharString → W → Option Bool × W
  is_directory : CharString → W → Option Bool × W
  directory_iterator : CharString → W → List Name × W
  inotify_init : W → Option Fd × W
  dup : Option Fd → W → Option Fd × W
  inotify_add_watch : Fd → CharString → UInt32 → W → Option Wd × W
  /-- `ENAMETOOLONG` -/
  inotify_add_watch_long : ∀ fd path mask w, PATH_MAX ≤ path.length → (inotify_add_watch fd path mask w).1 = none
  inotify_rm_watch : Option Fd → Wd → W → Bool × W
  /-- With `execvp` of the arguments in the child. -/
  fork : List CharString → W → Option pid_t × W
  setpgid : pid_t → W → Bool × W
  waitpid : pid_t → W → Option Status × W

/-- Where everything succeeds, with these directories. The world is the next descriptor. -/
def Linux.plain (names : CharString → List Name) : Linux Nat where
  access _ _ w := (true, w)
  pathExists _ w := (some true, w)
  is_directory _ w := (some true, w)
  directory_iterator path w := (names path, w)
  inotify_init w := (some w, w + 1)
  dup _ w := (some w, w + 1)
  inotify_add_watch _ path _ w := if path.length < PATH_MAX then (some w, w + 1) else (none, w)
  inotify_add_watch_long _ path _ w h := by rw [if_neg (not_lt.2 h)]
  inotify_rm_watch _ _ w := (true, w)
  fork _ w := (some 100, w)
  setpgid _ w := (true, w)
  waitpid _ w := (some (.exited 0), w)

/-! ## std::filesystem -/

/-- `operator/=`, with a relative path. -/
def slash (path name : CharString) : CharString :=
  if path = [] ∨ path.getLast? = some 0x2F then path ++ name else path ++ 0x2F :: name

/-- The elements below the root directory. The last is empty after a final separator. -/
def elements (path : CharString) : List CharString :=
  let names := (components (· = 0x2F) path).filter (· ≠ [])
  if names ≠ [] ∧ path.getLast? = some 0x2F then names ++ [[]] else names

/-- `path::compare` gives 0. -/
def samePath (p q : CharString) : Bool := (p.head? = some 0x2F ↔ q.head? = some 0x2F) ∧ elements p = elements q

/-! ## The monitor's data -/

def USER_DISTRO_MOUNT_PATH : CharString := bytes "/mnt/wslg/distro"
def USER_DISTRO_FONT_PATH : CharString := USER_DISTRO_MOUNT_PATH ++ bytes "/usr/share/fonts"
def ALT_DISTRO_FONT_PATH : CharString := USER_DISTRO_MOUNT_PATH ++ bytes "/usr/share/X11/fonts"

def c_xset : CharString := bytes "/usr/bin/xset"

structure FontFolder where
  m_fd : Option Fd
  m_wd : Option Wd
  m_path : CharString
  m_isPathAdded : Bool
  deriving DecidableEq

structure FontMonitor where
  m_fd : Option Fd
  m_fontMonitorFolders : KeyedSet FontFolder.m_path
  m_fontMonitorThread : pthread_t

def FontMonitor.new : FontMonitor := ⟨none, .empty, 0⟩

/-- What `xset` is asked for. -/
inductive Command where
  | fp (isAdd : Bool) (path : CharString)
  | rehash
  deriving DecidableEq

def Command.argv : Command → List CharString
  | fp isAdd path => [c_xset, bytes (if isAdd then "+fp" else "-fp"), path]
  | rehash => [c_xset, bytes "fp", bytes "rehash"]

inductive FontEvent where
  | xset (command : Command) (success : Bool)
  | opened (fd : Fd)
  | closed (fd : Fd)
  | created (thread : pthread_t)
  | joined (thread : pthread_t)
  | read (events : List inotify_event)
  deriving DecidableEq

abbrev FontM (W α : Type) := TraceM W FontEvent α

section Operations

variable {W : Type} (env : Linux W)

/-- `unique_fd::reset` -/
def resetFd : Option Fd → FontM W PUnit
  | none => pure ⟨⟩
  | some fd => emit (.closed fd)

/-! ## FontFolder -/

def ExecuteShellCommand (command : Command) : FontM W Bool := do
  match ← call (env.fork command.argv) with
  | none => pure false
  | some childPid =>
    let _ ← call (env.setpgid childPid)
    match ← call (env.waitpid childPid) with
    | some (.exited code) => pure (code = 0)
    | _ => pure false

/-- `ExecuteShellCommand`, and what came of it. -/
def xset (command : Command) : FontM W Bool := do
  let success ← ExecuteShellCommand env command
  emit (.xset command success)
  pure success

namespace FontFolder

def ModifyX11FontPath (f : FontFolder) (isAdd : Bool) : FontM W FontFolder := do
  if f.m_isPathAdded ≠ isAdd then
    let success ← xset env (.fp isAdd f.m_path)
    if success then
      let _ ← xset env .rehash
      pure { f with m_isPathAdded := isAdd }
    else pure f
  else pure f

/-- `dup` and `inotify_add_watch` of the constructor. -/
def watch (f : FontFolder) (fd : Option Fd) : FontM W FontFolder := do
  match ← call (env.dup fd) with
  | none => pure f
  | some fd =>
    emit (.opened fd)
    let wd ← call (env.inotify_add_watch fd f.m_path
      (IN_CREATE ||| IN_CLOSE_WRITE ||| IN_DELETE ||| IN_MOVED_TO ||| IN_MOVED_FROM))
    pure { f with m_fd := some fd, m_wd := wd }

/-- `FontFolder::FontFolder` -/
def new (fd : Option Fd) (path : CharString) : FontM W FontFolder := do
  let f : FontFolder := ⟨none, none, path, false⟩
  let readable ← call (env.access (slash path c_fontsdir.bytes) .R_OK)
  let f ← (if readable then f.ModifyX11FontPath env true else pure f : FontM W FontFolder)
  f.watch env fd

/-- `FontFolder::~FontFolder` -/
def destroy (f : FontFolder) : FontM W PUnit := do
  let _ ← f.ModifyX11FontPath env false
  match f.m_wd with
  | none => pure ⟨⟩
  | some wd =>
    let _ ← call (env.inotify_rm_watch f.m_fd wd)
  resetFd f.m_fd

end FontFolder

/-! ## FontMonitor -/

namespace FontMonitor

/-- The subdirectories among the entries of a directory. -/
def addEntries (add : FontMonitor → CharString → FontM W FontMonitor) (path : CharString) :
    List Name → FontMonitor → FontM W FontMonitor
  | [], m => pure m
  | name :: names, m => do
    match ← call (env.is_directory (slash path name.bytes)) with
    | none => pure m
    | some isDirectory =>
      let m ← (if isDirectory then add m (slash path name.bytes) else pure m : FontM W FontMonitor)
      addEntries add path names m

/-- Below the mount path only `X11`, if it is there. -/
def addBelow (add : FontMonitor → CharString → FontM W FontMonitor) (path : CharString) (m : FontMonitor) :
    FontM W FontMonitor := do
  if path = USER_DISTRO_FONT_PATH then
    match ← call (env.pathExists (USER_DISTRO_FONT_PATH ++ bytes "/X11")) with
    | some true => add m (USER_DISTRO_FONT_PATH ++ bytes "/X11")
    | _ => pure m
  else
    let names ← call (env.directory_iterator path)
    addEntries env add path names m

/-- Bounded in depth, as the paths get longer. -/
def addFolder : Nat → FontMonitor → CharString → FontM W FontMonitor
  | 0, m, _ => pure m
  | depth + 1, m, path => do
    if (m.m_fontMonitorFolders.find path).isSome then pure m
    else
      let f ← FontFolder.new env m.m_fd path
      if f.m_wd.isSome then
        addBelow env (addFolder depth) path { m with m_fontMonitorFolders := m.m_fontMonitorFolders.insert f }
      else
        f.destroy env
        pure m

/-- Past `PATH_MAX` nothing is watched. -/
def AddMonitorFolder (m : FontMonitor) (path : CharString) : FontM W FontMonitor :=
  addFolder env (PATH_MAX - path.length + 1) m path

def RemoveMonitorFolder (m : FontMonitor) (path : CharString) : FontM W FontMonitor :=
  match m.m_fontMonitorFolders.find path with
  | none => pure m
  | some f => do
    f.destroy env
    pure { m with m_fontMonitorFolders := m.m_fontMonitorFolders.erase path }

/-- The first folder, in the order of the map, that has the descriptor. -/
def folderOf (m : FontMonitor) (wd : Wd) : Option FontFolder :=
  m.m_fontMonitorFolders.elems.find? (fun f => f.m_wd = some wd)

def HandleFolderEvent (m : FontMonitor) (event : inotify_event) (name : Name) : FontM W FontMonitor :=
  match m.folderOf event.wd with
  | none => pure m
  | some f =>
    if event.mask &&& (IN_CREATE ||| IN_MOVED_TO) ≠ 0 then
      if samePath f.m_path USER_DISTRO_FONT_PATH ∧ name ≠ X11 then pure m
      else m.AddMonitorFolder env (slash f.m_path name.bytes)
    else if event.mask &&& (IN_DELETE ||| IN_MOVED_FROM) ≠ 0 then
      m.RemoveMonitorFolder env (slash f.m_path name.bytes)
    else pure m

/-- `ModifyX11FontPath` of a folder in the map. -/
def modify (m : FontMonitor) (f : FontFolder) (isAdd : Bool) : FontM W FontMonitor := do
  let f ← f.ModifyX11FontPath env isAdd
  pure { m with m_fontMonitorFolders := m.m_fontMonitorFolders.update f }

def HandleFontsDirEvent (m : FontMonitor) (event : inotify_event) (name : Name) : FontM W FontMonitor :=
  match m.folderOf event.wd with
  | none => pure m
  | some f =>
    if event.mask &&& (IN_CREATE ||| IN_CLOSE_WRITE ||| IN_MOVED_TO) ≠ 0 then do
      let readable ← call (env.access (slash f.m_path name.bytes) .R_OK)
      if readable then m.modify env f true else pure m
    else if event.mask &&& (IN_DELETE ||| IN_MOVED_FROM) ≠ 0 then m.modify env f false
    else pure m

/-- One event of the loop of `FontMonitorThread`. -/
def handleEvent (m : FontMonitor) (event : inotify_event) : FontM W FontMonitor :=
  match event.name with
  | none => pure m
  | some name =>
    if event.mask &&& IN_ISDIR ≠ 0 then m.HandleFolderEvent env event name
    else if name = c_fontsdir then m.HandleFontsDirEvent env event name
    else pure m

/-- `std::map::clear`, which goes from the last folder to the first. -/
def clear (m : FontMonitor) : FontM W FontMonitor := do
  m.m_fontMonitorFolders.elems.reverse.forM (FontFolder.destroy env)
  pure { m with m_fontMonitorFolders := .empty }

/-- `RemoveMonitorFolder` if it is there. -/
def removeRoot (m : FontMonitor) (path : CharString) : FontM W FontMonitor :=
  if (m.m_fontMonitorFolders.find path).isSome then m.RemoveMonitorFolder env path else pure m

def joinThread (m : FontMonitor) : FontM W FontMonitor :=
  if m.m_fontMonitorThread ≠ 0 then do
    emit (.joined m.m_fontMonitorThread)
    pure { m with m_fontMonitorThread := 0 }
  else pure m

def Stop (m : FontMonitor) : FontM W FontMonitor := do
  let m ← m.joinThread
  let m ← m.removeRoot env USER_DISTRO_FONT_PATH
  let m ← m.removeRoot env ALT_DISTRO_FONT_PATH
  let m ← m.clear env
  resetFd m.m_fd
  pure { m with m_fd := none }

def addRoot (m : FontMonitor) (isThere : Bool) (path : CharString) : FontM W FontMonitor :=
  if isThere then m.AddMonitorFolder env path else pure m

/-- `Start` from the inotify instance on: what was added, and whether it succeeded. -/
def startOn (m : FontMonitor) (fd : Fd) (user alt : Bool) (thread : Created) : FontM W (FontMonitor × Bool) := do
  emit (.opened fd)
  resetFd m.m_fd
  let m ← addRoot env { m with m_fd := some fd } user USER_DISTRO_FONT_PATH
  let m ← m.addRoot env alt ALT_DISTRO_FONT_PATH
  (if thread.error = 0 then emit (.created thread.thread) else pure ⟨⟩ : FontM W PUnit)
  pure ({ m with m_fontMonitorThread := thread.thread }, ¬ thread.error < 0)

/-- The `try` of `Start`. -/
def tryStart (m : FontMonitor) (thread : Created) : FontM W (FontMonitor × Bool) := do
  if ← call (env.access c_xset .X_OK) then
    match ← call (env.pathExists USER_DISTRO_MOUNT_PATH) with
    | some true =>
      match ← call (env.pathExists USER_DISTRO_FONT_PATH) with
      | none => pure (m, false)
      | some user =>
        match ← call (env.pathExists ALT_DISTRO_FONT_PATH) with
        | none => pure (m, false)
        | some alt =>
          if user || alt then
            match ← call env.inotify_init with
            | none => pure (m, false)
            | some fd => m.startOn env fd user alt thread
          else pure (m, false)
    | _ => pure (m, false)
  else pure (m, false)

def Start (m : FontMonitor) (thread : Created) : FontM W (FontMonitor × Int) := do
  let r ← m.tryStart env thread
  if r.2 then pure (r.1, 0)
  else
    let m ← r.1.Stop env
    pure (m, -1)

end FontMonitor

end Operations

/-! ## What a folder does -/

/-- `ModifyX11FontPath` makes the second folder of the first, with these events. -/
inductive Modified (f : FontFolder) (isAdd : Bool) : FontFolder → List FontEvent → Prop
  | same : f.m_isPathAdded = isAdd → Modified f isAdd f []
  | failed : f.m_isPathAdded ≠ isAdd → Modified f isAdd f [.xset (.fp isAdd f.m_path) false]
  | done (success : Bool) : f.m_isPathAdded ≠ isAdd → Modified f isAdd { f with m_isPathAdded := isAdd }
      [.xset (.fp isAdd f.m_path) true, .xset .rehash success]

def FontFolder.fresh (path : CharString) : FontFolder := ⟨none, none, path, false⟩

/-- The constructor of a folder, up to `dup`. -/
inductive Added (path : CharString) : FontFolder → List FontEvent → Prop
  | unreadable : Added path (.fresh path) []
  | readable {f : FontFolder} {ext : List FontEvent} : Modified (.fresh path) true f ext → Added path f ext

inductive Made (path : CharString) : FontFolder → List FontEvent → Prop
  | unwatched {f : FontFolder} {ext : List FontEvent} : Added path f ext → Made path f ext
  | watched {f : FontFolder} {ext : List FontEvent} (fd : Fd) (wd : Option Wd) : Added path f ext →
      (wd.isSome → path.length < PATH_MAX) → Made path { f with m_fd := some fd, m_wd := wd } (ext ++ [.opened fd])

section Made

variable {f f' : FontFolder} {isAdd : Bool} {path : CharString} {ext : List FontEvent}

theorem Modified.m_path (h : Modified f isAdd f' ext) : f'.m_path = f.m_path := by
  cases h <;> rfl

theorem Modified.m_wd (h : Modified f isAdd f' ext) : f'.m_wd = f.m_wd := by
  cases h <;> rfl

theorem Added.m_path (h : Added path f ext) : f.m_path = path := by
  cases h with
  | unreadable => rfl
  | readable hmodified => exact hmodified.m_path

theorem Made.m_path (h : Made path f ext) : f.m_path = path := by
  cases h with
  | unwatched hadded => exact hadded.m_path
  | watched fd wd hadded => exact hadded.m_path

end Made

def closing : Option Fd → List FontEvent
  | none => []
  | some fd => [.closed fd]

section Rules

variable {W : Type} {env : Linux W}

theorem resetFd_trace (fd : Option Fd) (s : Traced W FontEvent) : (resetFd fd s).2.trace = s.trace ++ closing fd := by
  cases fd with
  | none => exact (List.append_nil _).symm
  | some fd => rfl

theorem ExecuteShellCommand_yields (command : Command) (s : Traced W FontEvent) :
    Yields (ExecuteShellCommand env command) s fun _ t => t.trace = s.trace := by
  apply Yields.call_bind
  split
  · exact Yields.pure rfl
  · apply Yields.call_bind
    apply Yields.call_bind
    split <;> exact Yields.pure rfl

theorem xset_yields (command : Command) (s : Traced W FontEvent) :
    Yields (xset env command) s fun success t => t.trace = s.trace ++ [.xset command success] := by
  apply (ExecuteShellCommand_yields command s).bind
  intro success t ht
  apply Yields.emit_bind
  exact Yields.pure (by rw [ht])

namespace FontFolder

theorem ModifyX11FontPath_yields (f : FontFolder) (isAdd : Bool) (s : Traced W FontEvent) :
    Yields (f.ModifyX11FontPath env isAdd) s fun f' t => ∃ ext, t.trace = s.trace ++ ext ∧ Modified f isAdd f' ext := by
  apply Yields.ite
  · intro hne
    apply (xset_yields _ s).bind
    intro success t ht
    cases success with
    | false => exact ⟨_, ht, .failed hne⟩
    | true =>
      apply (xset_yields _ t).bind
      intro success u hu
      apply Yields.pure
      refine ⟨_, ?_, .done success hne⟩
      rw [hu, ht, List.append_assoc]
      rfl
  · intro heq
    exact ⟨[], (List.append_nil _).symm, .same (not_not.1 heq)⟩

theorem watch_yields {path : CharString} {f : FontFolder} {before ext : List FontEvent} (fd : Option Fd)
    {s : Traced W FontEvent} (hpath : f.m_path = path) (h : Added path f ext) (hs : s.trace = before ++ ext) :
    Yields (f.watch env fd) s fun f' t => ∃ ext', t.trace = before ++ ext' ∧ Made path f' ext' := by
  apply Yields.call_bind
  rcases (env.dup fd s.world).1 with _ | fd'
  · exact Yields.pure ⟨ext, hs, .unwatched h⟩
  · apply Yields.emit_bind
    apply Yields.call_bind
    apply Yields.pure
    refine ⟨ext ++ [.opened fd'], ?_, .watched fd' _ h ?_⟩
    · rw [← List.append_assoc, ← hs]
    · intro hwd
      by_contra hlong
      rw [env.inotify_add_watch_long _ _ _ _ (hpath ▸ not_lt.1 hlong)] at hwd
      cases hwd

theorem new_yields (fd : Option Fd) (path : CharString) (s : Traced W FontEvent) :
    Yields (FontFolder.new env fd path) s fun f t => ∃ ext, t.trace = s.trace ++ ext ∧ Made path f ext := by
  apply Yields.call_bind
  split
  · apply (ModifyX11FontPath_yields _ true _).bind
    rintro f t ⟨ext, ht, hmodified⟩
    refine watch_yields fd ?_ (.readable hmodified) ht
    cases hmodified <;> rfl
  · exact watch_yields fd rfl .unreadable (List.append_nil _).symm

theorem destroy_yields (f : FontFolder) (s : Traced W FontEvent) :
    Yields (f.destroy env) s fun _ t =>
      ∃ f' ext, t.trace = s.trace ++ (ext ++ closing f.m_fd) ∧ Modified f false f' ext := by
  apply (ModifyX11FontPath_yields f false s).bind
  rintro f' t ⟨ext, ht, hmodified⟩
  have hclosed : ∀ u : Traced W FontEvent, u.trace = t.trace →
      (resetFd f.m_fd u).2.trace = s.trace ++ (ext ++ closing f.m_fd) := by
    intro u hu
    rw [resetFd_trace, hu, ht, List.append_assoc]
  rcases hwd : f.m_wd with _ | wd
  · exact ⟨f', ext, hclosed _ rfl, hmodified⟩
  · exact ⟨f', ext, hclosed _ rfl, hmodified⟩

end FontFolder

/-! ## Depth -/

theorem Made.length_lt {path : CharString} {f : FontFolder} {ext : List FontEvent} (h : Made path f ext)
    (hf : f.m_wd.isSome) : path.length < PATH_MAX := by
  cases h with
  | unwatched hadded =>
    cases hadded with
    | unreadable => cases hf
    | readable hmodified => cases hmodified <;> cases hf
  | watched fd wd hadded hlt => exact hlt hf

namespace FontMonitor

theorem addEntries_congr {add add' : FontMonitor → CharString → FontM W FontMonitor} {path : CharString}
    (hadd : ∀ m (name : Name), add m (slash path name.bytes) = add' m (slash path name.bytes)) :
    addEntries env add path = addEntries env add' path := by
  funext names m
  induction names generalizing m with
  | nil => rfl
  | cons name names ih => simp only [addEntries, hadd, ih]

theorem slash_length (path : CharString) (name : Name) : path.length < (slash path name.bytes).length := by
  have hname := List.length_pos_of_ne_nil name.valid.1
  unfold slash
  split
  · rw [List.length_append]
    omega
  · rw [List.length_append, List.length_cons]
    omega

theorem addBelow_congr {add add' : FontMonitor → CharString → FontM W FontMonitor} {path : CharString}
    (hadd : ∀ m p, path.length < p.length → add m p = add' m p) (m : FontMonitor) :
    addBelow env add path m = addBelow env add' path m := by
  have hX11 : path = USER_DISTRO_FONT_PATH → path.length < (USER_DISTRO_FONT_PATH ++ bytes "/X11").length := by
    rintro rfl
    decide +kernel
  unfold addBelow
  split
  · rename_i hpath
    rw [hadd m _ (hX11 hpath)]
  · rw [addEntries_congr fun m name => hadd m _ (slash_length path name)]

/-- Enough depth is as good as more. -/
theorem addFolder_depth {depth depth' : Nat} {m : FontMonitor} {path : CharString} (h : PATH_MAX - path.length < depth)
    (h' : PATH_MAX - path.length < depth') : addFolder env depth m path = addFolder env depth' m path := by
  induction depth generalizing depth' m path with
  | zero => omega
  | succ depth ih =>
    obtain ⟨depth', rfl⟩ : ∃ d, depth' = d + 1 := ⟨depth' - 1, by omega⟩
    unfold addFolder
    split
    · rfl
    · funext s
      obtain ⟨ext, -, hmade⟩ : ∃ ext, _ ∧ Made path (FontFolder.new env m.m_fd path s).1 ext :=
        FontFolder.new_yields m.m_fd path s
      rw [bind_run, bind_run]
      split
      · rename_i hwd
        have hpath := hmade.length_lt hwd
        have hbelow : ∀ m (p : CharString), path.length < p.length → addFolder env depth m p = addFolder env depth' m p :=
          fun m p hp => ih (by omega) (by omega)
        rw [addBelow_congr hbelow]
      · rfl

/-- As the source has it. -/
theorem AddMonitorFolder_eq (m : FontMonitor) (path : CharString) :
    m.AddMonitorFolder env path =
      if (m.m_fontMonitorFolders.find path).isSome then pure m
      else (do
        let f ← FontFolder.new env m.m_fd path
        if f.m_wd.isSome then
          addBelow env (AddMonitorFolder env) path { m with m_fontMonitorFolders := m.m_fontMonitorFolders.insert f }
        else
          f.destroy env
          pure m) := by
  have hdepth : ∀ m, addFolder env (PATH_MAX - path.length + 2) m path = m.AddMonitorFolder env path :=
    fun m => addFolder_depth (by omega) (by omega)
  rw [← hdepth, addFolder]
  split
  · rfl
  · funext s
    rw [bind_run, bind_run]
    split
    · rw [addBelow_congr fun m p hp => addFolder_depth (by omega) (Nat.lt_succ_self _)]
      rfl
    · rfl

end FontMonitor

end Rules

/-! ## Runs -/

inductive Operation where
  | Start (thread : Created)
  | AddMonitorFolder (path : CharString)
  | RemoveMonitorFolder (path : CharString)
  /-- `read` of the thread, and then each of the events it gave. -/
  | read (events : List inotify_event)
  | event (event : inotify_event)
  | Stop

abbrev FontSys (W : Type) := Traced W FontEvent

structure FontMachine (W : Type) where
  monitor : FontMonitor
  sys : FontSys W

variable {W : Type}

def FontMachine.start (w : W) : FontMachine W := ⟨.new, ⟨w, []⟩⟩

def FontMonitor.operate (env : Linux W) (m : FontMonitor) : Operation → FontM W FontMonitor
  | .Start thread => do
    let r ← m.Start env thread
    pure r.1
  | .AddMonitorFolder path => m.AddMonitorFolder env path
  | .RemoveMonitorFolder path => m.RemoveMonitorFolder env path
  | .read events => do
    emit (.read events)
    pure m
  | .event event => m.handleEvent env event
  | .Stop => m.Stop env

def perform (env : Linux W) (s : FontMachine W) (a : Operation) : FontMachine W :=
  let r := s.monitor.operate env a s.sys
  ⟨r.1, r.2⟩

/-- Between two operations the world goes its own ways. -/
def Step (env : Linux W) (s : FontMachine W) (a : Operation) (t : FontMachine W) : Prop :=
  ∃ w, t = perform env ⟨s.monitor, { s.sys with world := w }⟩ a

theorem run_perform (env : Linux W) (s : FontMachine W) (as : List Operation) :
    Run (Step env) s as (as.foldl (perform env) s) := by
  induction as generalizing s with
  | nil => exact .nil s
  | cons a as ih => exact .cons ⟨s.sys.world, rfl⟩ (ih _)

end Wslg.Wslgd.Operations
