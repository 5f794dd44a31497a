import Wslg.FontRules
/-!
# Rehash

`xset fp rehash` is behind a flag: it is executed when a folder comes into the font
path or leaves it. A `fonts.dir` that is rewritten while its folder is in the font path
gives no rehash, unless it was removed in the meantime.
-/

open Lib Lib.TraceM

namespace Wslg.Wslgd.Operations

/-! ## Events of a fonts.dir -/

/-- An event of the `fonts.dir` of the folder with this descriptor. -/
structure OfFontsDir (wd : Wd) (event : inotify_event) : Prop where
  wd : event.wd = wd
  name : event.name = some c_fontsdir
  file : event.mask &&& IN_ISDIR = 0

/-- There is a new `fonts.dir`. -/
def isNew (event : inotify_event) : Bool := event.mask &&& (IN_CLOSE_WRITE ||| IN_MOVED_TO) ≠ 0

/-- What the event makes of the flag. -/
def flagAfter (flag : Bool) (event : inotify_event) : Bool := event.fontsDir?.getD flag

theorem fontsDir?_of_isNew {wd : Wd} {event : inotify_event} (h : OfFontsDir wd event) (hnew : isNew event) :
    event.fontsDir? = some true := by
  have hmask : event.mask &&& (IN_CREATE ||| IN_CLOSE_WRITE ||| IN_MOVED_TO) ≠ 0 := by
    intro hzero
    have hless : (IN_CREATE ||| IN_CLOSE_WRITE ||| IN_MOVED_TO) &&& (IN_CLOSE_WRITE ||| IN_MOVED_TO) =
      IN_CLOSE_WRITE ||| IN_MOVED_TO := by decide
    have hnone : event.mask &&& (IN_CLOSE_WRITE ||| IN_MOVED_TO) = 0 := by
      rw [← hless, ← UInt32.and_assoc, hzero, UInt32.zero_and]
    exact of_decide_eq_true hnew hnone
  unfold inotify_event.fontsDir?
  rw [h.name]
  dsimp only
  rw [if_neg (not_not.2 h.file), if_pos rfl, if_pos hmask]

/-! ## What is executed -/

/-- With the flag, one event makes `xset` do this. -/
def commands (path : CharString) (flag : Bool) (event : inotify_event) : List FontEvent :=
  if flagAfter flag event = flag then [] else [.xset (.fp (flagAfter flag event) path) true, .xset .rehash true]

def allCommands (path : CharString) : Bool → List inotify_event → List FontEvent
  | _, [] => []
  | flag, event :: events => commands path flag event ++ allCommands path (flagAfter flag event) events

theorem rehash_mem_commands {path : CharString} {flag : Bool} {event : inotify_event} :
    .xset .rehash true ∈ commands path flag event ↔ flagAfter flag event ≠ flag := by
  unfold commands
  split
  · rename_i h
    simp [h]
  · rename_i h
    simp [h]

/-- Up to a new `fonts.dir`, the flag changes if it is not set or is reset on the way. -/
theorem rehash_mem_allCommands {path : CharString} {flag : Bool} {events : List inotify_event} {event : inotify_event}
    (hnew : event.fontsDir? = some true) : .xset .rehash true ∈ allCommands path flag (events ++ [event]) ↔
      flag = false ∨ ∃ e ∈ events, e.fontsDir? = some false := by
  induction events generalizing flag with
  | nil =>
    rw [List.nil_append, allCommands, allCommands, List.append_nil, rehash_mem_commands, flagAfter, hnew]
    cases flag <;> simp
  | cons e events ih =>
    rw [List.cons_append, allCommands, List.mem_append, rehash_mem_commands, ih]
    rcases he : e.fontsDir? with _ | _ | _ <;> cases flag <;> simp [flagAfter, he]

section Runs

variable {W : Type} {env : Linux W}

def XsetSucceeds (env : Linux W) : Prop := ∀ command s, (xset env command s).1 = true

namespace FontFolder

def flagged (f : FontFolder) (flag : Bool) : FontFolder := { f with m_isPathAdded := flag }

theorem ModifyX11FontPath_succeeds (hxset : XsetSucceeds env) (f : FontFolder) (isAdd : Bool) (s : FontSys W) :
    Yields (f.ModifyX11FontPath env isAdd) s fun f' t => f' = f.flagged isAdd ∧
      t.trace = s.trace ++ if isAdd = f.m_isPathAdded then [] else [.xset (.fp isAdd f.m_path) true, .xset .rehash true] := by
  have hsucceeds : ∀ command t, Yields (xset env command) t fun success u =>
      success = true ∧ u.trace = t.trace ++ [.xset command true] := by
    intro command t
    have h : Yields (xset env command) t fun success u => u.trace = t.trace ++ [.xset command success] :=
      xset_yields command t
    unfold Yields at h ⊢
    rw [hxset] at h
    exact ⟨hxset command t, h⟩
  refine .ite (fun hne => ?_) fun heq => .pure ⟨?_, ?_⟩
  · apply (hsucceeds _ s).bind
    rintro - t ⟨rfl, ht⟩
    apply (hsucceeds _ t).bind
    rintro success u ⟨-, hu⟩
    refine .pure ⟨rfl, ?_⟩
    rw [hu, ht, if_neg fun h => hne h.symm, List.append_assoc]
    rfl
  · rw [flagged, ← not_not.1 heq]
  · rw [if_pos (not_not.1 heq).symm, List.append_nil]

end FontFolder

namespace FontMonitor

theorem modify_succeeds (hxset : XsetSucceeds env) {m : FontMonitor} {f : FontFolder} {wd : Wd} (isAdd : Bool)
    (hf : m.folderOf wd = some f) (s : FontSys W) :
    Yields (m.modify env f isAdd) s fun m' t => m'.folderOf wd = some (f.flagged isAdd) ∧
      t.trace = s.trace ++ if isAdd = f.m_isPathAdded then [] else [.xset (.fp isAdd f.m_path) true, .xset .rehash true] := by
  apply (f.ModifyX11FontPath_succeeds hxset isAdd s).bind
  rintro - t ⟨rfl, ht⟩
  exact .pure ⟨KeyedSet.find?_update hf rfl rfl, ht⟩

theorem handleEvent_eq {m : FontMonitor} {f : FontFolder} {wd : Wd} {event : inotify_event} (he : OfFontsDir wd event)
    (hf : m.folderOf wd = some f) : m.handleEvent env event = match event.fontsDir? with
      | none => pure m
      | some true => (do
        let readable ← call (env.access (slash f.m_path c_fontsdir.bytes) .R_OK)
        if readable then m.modify env f true else pure m)
      | some false => m.modify env f false := by
  unfold handleEvent inotify_event.fontsDir? HandleFontsDirEvent
  rw [he.name, he.wd, hf]
  dsimp only
  rw [if_neg (not_not.2 he.file), if_pos rfl, if_neg (not_not.2 he.file), if_pos rfl]
  split
  · rfl
  split
  · rfl
  · rfl

/-- The event is handled as its flag says. -/
theorem handleEvent_yields (hxset : XsetSucceeds env) {m : FontMonitor} {f : FontFolder} {wd : Wd} {event : inotify_event}
    (hreadable : ∀ w, (env.access (slash f.m_path c_fontsdir.bytes) .R_OK w).1 = true) (he : OfFontsDir wd event)
    (hf : m.folderOf wd = some f) (s : FontSys W) :
    Yields (m.handleEvent env event) s fun m' t =>
      m'.folderOf wd = some (f.flagged (flagAfter f.m_isPathAdded event)) ∧
        t.trace = s.trace ++ commands f.m_path f.m_isPathAdded event := by
  rw [handleEvent_eq he hf]
  unfold flagAfter commands
  rcases hevent : event.fontsDir? with _ | _ | _
  · refine .pure ⟨hf, ?_⟩
    simp [flagAfter, hevent]
  · simpa [flagAfter, hevent] using modify_succeeds hxset false hf s
  · apply Yields.call_bind
    rw [if_pos (hreadable s.world)]
    simpa [flagAfter, hevent] using modify_succeeds hxset true hf { s with world := _ }

end FontMonitor

/-! ## Runs -/

/-- A `read` and its events. -/
def turn (events : List inotify_event) : List Operation := .read events :: events.map .event

theorem run_events (hxset : XsetSucceeds env) {f : FontFolder} {wd : Wd} {events : List inotify_event}
    (hreadable : ∀ w, (env.access (slash f.m_path c_fontsdir.bytes) .R_OK w).1 = true)
    (hevents : ∀ e ∈ events, OfFontsDir wd e) {s t : FontMachine W} {flag : Bool}
    (hf : s.monitor.folderOf wd = some (f.flagged flag)) (h : Run (Step env) s (events.map .event) t) :
    t.monitor.folderOf wd = some (f.flagged (events.foldl flagAfter flag)) ∧
      t.sys.trace = s.sys.trace ++ allCommands f.m_path flag events := by
  induction events generalizing s flag with
  | nil =>
    cases h
    exact ⟨hf, (List.append_nil _).symm⟩
  | cons e events ih =>
    cases h with
    | cons hstep hrest =>
      obtain ⟨w, rfl⟩ := hstep
      have he := FontMonitor.handleEvent_yields (f := f.flagged flag) hxset hreadable (hevents e List.mem_cons_self) hf
        { s.sys with world := w }
      obtain ⟨hfolder, htrace⟩ := ih (fun e' he' => hevents e' (List.mem_cons_of_mem e he')) he.1 hrest
      refine ⟨hfolder, htrace.trans ?_⟩
      rw [allCommands, ← List.append_assoc]
      exact congrArg (· ++ _) he.2

theorem run_turns (hxset : XsetSucceeds env) {f : FontFolder} {wd : Wd} {batches : List (List inotify_event)}
    (hreadable : ∀ w, (env.access (slash f.m_path c_fontsdir.bytes) .R_OK w).1 = true)
    (hevents : ∀ b ∈ batches, ∀ e ∈ b, OfFontsDir wd e) {s t : FontMachine W} {flag : Bool}
    (hf : s.monitor.folderOf wd = some (f.flagged flag)) (h : Run (Step env) s (batches.flatMap turn) t) :
    t.monitor.folderOf wd = some (f.flagged (batches.flatten.foldl flagAfter flag)) := by
  induction batches generalizing s flag with
  | nil =>
    cases h
    exact hf
  | cons b batches ih =>
    obtain ⟨u, hb, hrest⟩ := Run.append_iff.1 h
    cases hb with
    | cons hread hhandled =>
      obtain ⟨w, rfl⟩ := hread
      have hu := run_events (s := perform env ⟨s.monitor, { s.sys with world := w }⟩ (.read b)) hxset hreadable
        (hevents b List.mem_cons_self) hf hhandled
      rw [List.flatten_cons, List.foldl_append]
      exact ih (fun b' hb' => hevents b' (List.mem_cons_of_mem b hb')) hu.1 hrest

/-! ## Rehashed or not -/

/-- When a new `fonts.dir` is handled, there was a rehash since its event was read. -/
def Rehashed (env : Linux W) (s : FontMachine W) (batches : List (List inotify_event)) : Prop :=
  ∀ before batch after handled event rest, batches = before ++ batch :: after → batch = handled ++ event :: rest →
    isNew event → ∀ t u, Run (Step env) s (before.flatMap turn) t →
      Run (Step env) t (.read batch :: (handled ++ [event]).map .event) u →
        ∃ ext, u.sys.trace = t.sys.trace ++ .read batch :: ext ∧ .xset .rehash true ∈ ext

/-- When the event of a new `fonts.dir` is read, the folder is not in the font path, or it
is taken out of it by an event that is read before it in the same batch. -/
def Unsuppressed (flag : Bool) (batches : List (List inotify_event)) : Prop :=
  ∀ before batch after handled event rest, batches = before ++ batch :: after → batch = handled ++ event :: rest →
    isNew event → before.flatten.foldl flagAfter flag = false ∨ ∃ e ∈ handled, e.fontsDir? = some false

theorem rehashed_iff (hxset : XsetSucceeds env) {s : FontMachine W} {f : FontFolder} {wd : Wd}
    (hf : s.monitor.folderOf wd = some f)
    (hreadable : ∀ w, (env.access (slash f.m_path c_fontsdir.bytes) .R_OK w).1 = true)
    {batches : List (List inotify_event)} (hevents : ∀ b ∈ batches, ∀ e ∈ b, OfFontsDir wd e) :
    Rehashed env s batches ↔ Unsuppressed f.m_isPathAdded batches := by
  -- what the run up to an event adds to the trace
  have hadded : ∀ before batch after handled event rest, batches = before ++ batch :: after →
      batch = handled ++ event :: rest → ∀ t u, Run (Step env) s (before.flatMap turn) t →
        Run (Step env) t (.read batch :: (handled ++ [event]).map .event) u →
          u.sys.trace = t.sys.trace ++ .read batch ::
            allCommands f.m_path (before.flatten.foldl flagAfter f.m_isPathAdded) (handled ++ [event]) := by
    rintro before batch after handled event rest hbatches rfl t u ht hu
    have htf := run_turns hxset hreadable (fun b hb => hevents b (hbatches ▸ List.mem_append_left _ hb)) hf ht
    cases hu with
    | cons hread hhandled =>
      obtain ⟨w, rfl⟩ := hread
      have hofs : ∀ e ∈ handled ++ [event], OfFontsDir wd e := by
        intro e he
        refine hevents _ (hbatches ▸ List.mem_append_right _ List.mem_cons_self) e ?_
        rcases List.mem_append.1 he with he | he
        · exact List.mem_append_left _ he
        · rw [List.mem_singleton.1 he]
          exact List.mem_append_right _ List.mem_cons_self
      have hu := (run_events (s := perform env ⟨t.monitor, { t.sys with world := w }⟩ (.read (handled ++ event :: rest)))
        hxset hreadable hofs htf hhandled).2
      exact hu.trans (List.append_assoc t.sys.trace [.read _] _)
  have hcondition : ∀ before batch after handled event rest, batches = before ++ batch :: after →
      batch = handled ++ event :: rest → isNew event →
        (.xset .rehash true ∈ allCommands f.m_path (before.flatten.foldl flagAfter f.m_isPathAdded) (handled ++ [event]) ↔
          before.flatten.foldl flagAfter f.m_isPathAdded = false ∨ ∃ e ∈ handled, e.fontsDir? = some false) := by
    rintro before batch after handled event rest hbatches rfl hnew
    have he : OfFontsDir wd event := hevents _ (hbatches ▸ List.mem_append_right _ List.mem_cons_self) event
      (List.mem_append_right _ List.mem_cons_self)
    exact rehash_mem_allCommands (fontsDir?_of_isNew he hnew)
  constructor
  · intro h before batch after handled event rest hbatches hbatch hnew
    have hu := run_perform env ((before.flatMap turn).foldl (perform env) s)
      (.read batch :: (handled ++ [event]).map .event)
    obtain ⟨ext, hext, hmem⟩ := h before batch after handled event rest hbatches hbatch hnew _ _ (run_perform env s _) hu
    have htrace := hadded before batch after handled event rest hbatches hbatch _ _ (run_perform env s _) hu
    rw [htrace] at hext
    obtain ⟨-, rfl⟩ := List.cons.inj (List.append_cancel_left hext)
    exact (hcondition before batch after handled event rest hbatches hbatch hnew).1 hmem
  · intro h before batch after handled event rest hbatches hbatch hnew t u ht hu
    exact ⟨_, hadded before batch after handled event rest hbatches hbatch t u ht hu,
      (hcondition before batch after handled event rest hbatches hbatch hnew).2
        (h before batch after handled event rest hbatches hbatch hnew)⟩

end Runs

/-! ## A rewritten fonts.dir -/

/-- The monitor after `Start`, with the mount font root and its `fonts.dir` in the font path. -/
def started : FontMachine Nat := perform (.plain fun _ => []) (.start 3) (.Start (.success 7))

def rewritten : inotify_event := ⟨5, IN_CLOSE_WRITE, some c_fontsdir⟩
def deleted : inotify_event := ⟨5, IN_DELETE, some c_fontsdir⟩

theorem started_folder : started.monitor.folderOf 5 = some ⟨some 4, some 5, USER_DISTRO_FONT_PATH, true⟩ := by
  decide +kernel

/-- A `fonts.dir` that is rewritten gives no rehash. -/
theorem rewritten_not_rehashed : XsetSucceeds (.plain fun _ => []) ∧
    (∀ path w, ((Linux.plain fun _ => []).access path .R_OK w).1 = true) ∧
      started.monitor.folderOf 5 = some ⟨some 4, some 5, USER_DISTRO_FONT_PATH, true⟩ ∧ OfFontsDir 5 rewritten ∧
        ¬ Rehashed (.plain fun _ => []) started [[rewritten]] := by
  refine ⟨fun _ _ => rfl, fun _ _ => rfl, started_folder, ⟨rfl, rfl, by decide⟩, fun h => ?_⟩
  obtain ⟨ext, hext, hmem⟩ := h [] [rewritten] [] [] rewritten [] rfl rfl (by decide) started _ (.nil _) (run_perform _ _ _)
  have htrace : ([.read [rewritten], .event rewritten].foldl (perform (.plain fun _ => [])) started).sys.trace =
      started.sys.trace ++ [.read [rewritten]] := by
    decide +kernel
  have hnil := List.append_cancel_left (htrace.symm.trans hext)
  obtain ⟨-, rfl⟩ := List.cons.inj hnil
  cases hmem

/-- The old file is deleted in the same batch, and the new one rehashed. -/
theorem rehashed_iff_deleted : Unsuppressed true [[deleted, rewritten]] ∧
    Rehashed (.plain fun _ => []) started [[deleted, rewritten]] := by
  have hunsuppressed : Unsuppressed true [[deleted, rewritten]] := by
    intro before batch after handled event rest hbatches hbatch hnew
    rcases List.append_eq_cons_iff.1 hbatches.symm with ⟨-, hafter⟩ | ⟨as, -, has⟩
    · obtain ⟨rfl, -⟩ := List.cons.inj hafter
      rcases List.append_eq_cons_iff.1 hbatch.symm with ⟨-, hrest⟩ | ⟨tail, rfl, -⟩
      · obtain ⟨rfl, -⟩ := List.cons.inj hrest
        exact absurd hnew (by decide)
      · exact .inr ⟨deleted, by simp, by decide⟩
    · simp at has
  refine ⟨hunsuppressed, (rehashed_iff (fun _ _ => rfl) started_folder (fun _ => rfl) ?_).2 hunsuppressed⟩
  intro b hb e he
  rw [List.mem_singleton.1 hb] at he
  rcases List.mem_pair.1 he with rfl | rfl
  · exact ⟨rfl, rfl, by decide⟩
  · exact ⟨rfl, rfl, by decide⟩

end Wslg.Wslgd.Operations
