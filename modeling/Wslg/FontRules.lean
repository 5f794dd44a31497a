import Wslg.FontOperations
/-!
# What every operation keeps

An invariant of the tracked folders and the trace goes through all operations of the
font monitor once it goes through four things a folder does: it is made and tracked,
made and dropped again, removed, or its flag is changed.
-/

open Lib Lib.TraceM

namespace Wslg.Wslgd.Operations

variable {W : Type}

abbrev Folders := KeyedSet FontFolder.m_path

/-- Nothing of `xset`, and no mark of `Start` and `read`. -/
def FontEvent.isQuiet : FontEvent → Bool
  | .opened _ | .closed _ | .joined _ => true
  | _ => false

/-- `I` speaks of the folders and the trace, and `Q` of the paths that are added:
all that is to be shown of `I` so that what is done to folders keeps it. -/
structure Kept (Q : CharString → Prop) (I : Folders → List FontEvent → Prop) : Prop where
  roots : Q USER_DISTRO_FONT_PATH ∧ Q ALT_DISTRO_FONT_PATH
  X11 : Q (USER_DISTRO_FONT_PATH ++ bytes "/X11")
  entry : ∀ path (name : Name), Q path → path ≠ USER_DISTRO_FONT_PATH → Q (slash path name.bytes)
  event : ∀ folders trace f (name : Name), I folders trace → f ∈ folders.elems →
    ¬ (samePath f.m_path USER_DISTRO_FONT_PATH ∧ name ≠ Wslgd.X11) → Q (slash f.m_path name.bytes)
  quiet : ∀ folders trace e, e.isQuiet → I folders trace → I folders (trace ++ [e])
  /-- A folder is made and tracked, or dropped again. -/
  tracked : ∀ folders trace path f ext, Q path → folders.find path = none → Made path f ext → I folders trace →
    I (folders.insert f) (trace ++ ext)
  dropped : ∀ folders trace path f ext f' ext', folders.find path = none → Made path f ext → Modified f false f' ext' →
    I folders trace → I folders (trace ++ ext ++ ext')
  removed : ∀ folders trace path f f' ext, folders.find path = some f → Modified f false f' ext → I folders trace →
    I (folders.erase path) (trace ++ ext)
  modified : ∀ folders trace f isAdd f' ext, f ∈ folders.elems → Modified f isAdd f' ext → I folders trace →
    I (folders.update f') (trace ++ ext)

/-- Every operation keeps it. -/
structure KeptByAll (Q : CharString → Prop) (I : Folders → List FontEvent → Prop) : Prop extends Kept Q I where
  created : ∀ folders trace thread, I folders trace → I folders (trace ++ [.created thread])
  read : ∀ folders trace events, I folders trace → I folders (trace ++ [.read events])

namespace Kept

variable {Q : CharString → Prop} {I : Folders → List FontEvent → Prop} {env : Linux W} (h : Kept Q I)
include h

theorem closing {folders : Folders} {trace : List FontEvent} (fd : Option Fd) (hI : I folders trace) :
    I folders (trace ++ closing fd) := by
  cases fd with
  | none => exact (List.append_nil trace).symm ▸ hI
  | some fd => exact h.quiet _ _ _ rfl hI

theorem resetFd {fd : Option Fd} (folders : Folders) {s : FontSys W} (hI : I folders s.trace) :
    Yields (Operations.resetFd fd) s fun _ t => I folders t.trace := by
  change I folders _
  rw [resetFd_trace]
  exact h.closing fd hI

omit h in
theorem addEntries {add : FontMonitor → CharString → FontM W FontMonitor} {path : CharString} {names : List Name}
    (hadd : ∀ m (name : Name) s, I m.m_fontMonitorFolders s.trace →
      Yields (add m (slash path name.bytes)) s fun m t => I m.m_fontMonitorFolders t.trace)
    {m : FontMonitor} {s : FontSys W} (hI : I m.m_fontMonitorFolders s.trace) :
    Yields (FontMonitor.addEntries env add path names m) s fun m t => I m.m_fontMonitorFolders t.trace := by
  induction names generalizing m s with
  | nil => exact hI
  | cons name names ih =>
    apply Yields.call_bind
    split
    · exact Yields.pure hI
    · refine Yields.bind (P := fun (m : FontMonitor) t => I m.m_fontMonitorFolders t.trace) ?_ fun m t ht => ih ht
      exact .ite (fun _ => hadd m name _ hI) fun _ => .pure hI

theorem addFolder {depth : Nat} {m : FontMonitor} {path : CharString} {s : FontSys W} (hpath : Q path)
    (hI : I m.m_fontMonitorFolders s.trace) :
    Yields (FontMonitor.addFolder env depth m path) s fun m t => I m.m_fontMonitorFolders t.trace := by
  induction depth generalizing m path s with
  | zero => exact hI
  | succ depth ih =>
    apply Yields.ite
    · exact fun _ => .pure hI
    · intro hfind
      have hnone := Option.not_isSome_iff_eq_none.1 hfind
      apply (FontFolder.new_yields m.m_fd path s).bind
      rintro f t ⟨ext, ht, hmade⟩
      apply Yields.ite
      · intro _
        have htracked : I (m.m_fontMonitorFolders.insert f) t.trace := ht ▸ h.tracked _ _ _ _ _ hpath hnone hmade hI
        apply Yields.ite
        · intro _
          apply Yields.call_bind
          split
          · exact ih h.X11 htracked
          · exact .pure htracked
        · intro hne
          apply Yields.call_bind
          exact addEntries (fun m name u hu => ih (h.entry _ _ hpath hne) hu) htracked
      · intro _
        apply (FontFolder.destroy_yields f t).bind
        rintro - u ⟨f', ext', hu, hmodified⟩
        apply Yields.pure
        rw [hu, ht, ← List.append_assoc]
        exact h.closing _ (h.dropped _ _ _ _ _ _ _ hnone hmade hmodified hI)

theorem destroy {folders : Folders} {f : FontFolder} {s : FontSys W} (hf : folders.find f.m_path = some f)
    (hI : I folders s.trace) : Yields (f.destroy env) s fun _ t => I (folders.erase f.m_path) t.trace := by
  apply (FontFolder.destroy_yields f s).mono
  rintro - t ⟨f', ext, ht, hmodified⟩
  rw [ht, ← List.append_assoc]
  exact h.closing _ (h.removed _ _ _ _ _ _ hf hmodified hI)

theorem RemoveMonitorFolder {m : FontMonitor} {path : CharString} {s : FontSys W}
    (hI : I m.m_fontMonitorFolders s.trace) :
    Yields (m.RemoveMonitorFolder env path) s fun m t => I m.m_fontMonitorFolders t.trace := by
  unfold FontMonitor.RemoveMonitorFolder
  split
  · exact .pure hI
  · rename_i f hf
    obtain ⟨-, rfl⟩ := KeyedSet.find_eq_some.1 hf
    exact (h.destroy hf hI).bind fun _ t ht => .pure ht

theorem modify {m : FontMonitor} {f : FontFolder} {isAdd : Bool} {s : FontSys W}
    (hf : f ∈ m.m_fontMonitorFolders.elems) (hI : I m.m_fontMonitorFolders s.trace) :
    Yields (m.modify env f isAdd) s fun m t => I m.m_fontMonitorFolders t.trace := by
  apply (FontFolder.ModifyX11FontPath_yields f isAdd s).bind
  rintro f' t ⟨ext, ht, hmodified⟩
  apply Yields.pure
  rw [ht]
  exact h.modified _ _ _ _ _ _ hf hmodified hI

theorem handleEvent {m : FontMonitor} {event : inotify_event} {s : FontSys W} (hI : I m.m_fontMonitorFolders s.trace) :
    Yields (m.handleEvent env event) s fun m t => I m.m_fontMonitorFolders t.trace := by
  unfold FontMonitor.handleEvent
  split
  · exact .pure hI
  · rename_i name hname
    apply Yields.ite
    · intro _
      unfold FontMonitor.HandleFolderEvent
      split
      · exact .pure hI
      · rename_i f hf
        have hmem := List.mem_of_find?_eq_some hf
        refine .ite (fun _ => .ite (fun _ => .pure hI) fun hnot => ?_) fun _ =>
          .ite (fun _ => h.RemoveMonitorFolder hI) fun _ => .pure hI
        exact h.addFolder (h.event _ _ _ _ hI hmem hnot) hI
    · intro _
      apply Yields.ite
      · intro _
        unfold FontMonitor.HandleFontsDirEvent
        split
        · exact .pure hI
        · rename_i f hf
          have hmem := List.mem_of_find?_eq_some hf
          refine .ite (fun _ => ?_) fun _ => .ite (fun _ => h.modify hmem hI) fun _ => .pure hI
          apply Yields.call_bind
          exact .ite (fun _ => h.modify hmem hI) fun _ => .pure hI
      · exact fun _ => .pure hI

theorem clear {m : FontMonitor} {s : FontSys W} (hI : I m.m_fontMonitorFolders s.trace) :
    Yields (m.clear env) s fun m' t => m' = { m with m_fontMonitorFolders := .empty } ∧ I .empty t.trace := by
  -- the folders that are left are those before the ones destroyed
  have hall := Yields.forM (f := FontFolder.destroy env) (s := s) (l := m.m_fontMonitorFolders.elems.reverse)
    (I := fun l t => ∃ folders : Folders, folders.elems = l.reverse ∧ I folders t.trace) ?_
    ⟨m.m_fontMonitorFolders, (List.reverse_reverse _).symm, hI⟩
  · apply hall.bind
    rintro - t ⟨folders, helems, ht⟩
    obtain rfl : folders = .empty := KeyedSet.ext' helems
    exact .pure ⟨rfl, ht⟩
  · rintro f l t ⟨folders, helems, ht⟩
    rw [List.reverse_cons] at helems
    have hf : folders.find f.m_path = some f := KeyedSet.find_eq_some.2 ⟨by simp [helems], rfl⟩
    exact (h.destroy hf ht).mono fun _ u hu => ⟨_, KeyedSet.elems_erase_last helems, hu⟩

/-- `Stop` leaves a monitor as it is made. -/
theorem Stop {m : FontMonitor} {s : FontSys W} (hI : I m.m_fontMonitorFolders s.trace) :
    Yields (m.Stop env) s fun m' t => m' = .new ∧ I .empty t.trace := by
  have hjoin : Yields m.joinThread s fun m t => m.m_fontMonitorThread = 0 ∧ I m.m_fontMonitorFolders t.trace := by
    apply Yields.ite
    · intro _
      apply Yields.emit_bind
      exact .pure ⟨rfl, h.quiet _ _ _ rfl hI⟩
    · exact fun hzero => .pure ⟨not_not.1 hzero, hI⟩
  have hroot : ∀ (m : FontMonitor) path (t : FontSys W), m.m_fontMonitorThread = 0 ∧ I m.m_fontMonitorFolders t.trace →
      Yields (m.removeRoot env path) t fun m u => m.m_fontMonitorThread = 0 ∧ I m.m_fontMonitorFolders u.trace := by
    rintro m path t ⟨hthread, ht⟩
    refine .ite (fun _ => ⟨?_, h.RemoveMonitorFolder ht⟩) fun _ => .pure ⟨hthread, ht⟩
    unfold FontMonitor.RemoveMonitorFolder
    cases m.m_fontMonitorFolders.find path <;> exact hthread
  apply hjoin.bind
  intro m t ht
  apply (hroot m USER_DISTRO_FONT_PATH t ht).bind
  intro m t ht
  apply (hroot m ALT_DISTRO_FONT_PATH t ht).bind
  rintro m t ⟨hthread, ht⟩
  apply (h.clear ht).bind
  rintro - u ⟨rfl, hu⟩
  apply (h.resetFd _ hu).bind
  rintro - v hv
  exact .pure ⟨by rw [FontMonitor.new, ← hthread], hv⟩

theorem addRoot {m : FontMonitor} {isThere : Bool} {path : CharString} {s : FontSys W} (hpath : Q path)
    (hI : I m.m_fontMonitorFolders s.trace) :
    Yields (m.addRoot env isThere path) s fun m t => I m.m_fontMonitorFolders t.trace :=
  .ite (fun _ => h.addFolder hpath hI) fun _ => .pure hI

end Kept

namespace KeptByAll

variable {Q : CharString → Prop} {I : Folders → List FontEvent → Prop} {env : Linux W} (h : KeptByAll Q I)
include h

theorem startOn {m : FontMonitor} {fd : Fd} {user alt : Bool} {thread : Created} {s : FontSys W}
    (hI : I m.m_fontMonitorFolders s.trace) :
    Yields (m.startOn env fd user alt thread) s fun r t => I r.1.m_fontMonitorFolders t.trace := by
  apply Yields.emit_bind
  apply (h.resetFd _ (h.quiet _ _ _ rfl hI)).bind
  rintro - t ht
  apply (h.addRoot (m := { m with m_fd := some fd }) h.roots.1 ht).bind
  intro m t ht
  apply (h.addRoot h.roots.2 ht).bind
  intro m t ht
  have hcreated : Yields (if thread.error = 0 then emit (.created thread.thread) else pure ⟨⟩ : FontM W PUnit) t
      fun _ u => I m.m_fontMonitorFolders u.trace :=
    .ite (fun _ => h.created _ _ _ ht) fun _ => .pure ht
  exact hcreated.bind fun _ _ hu => .pure hu

theorem tryStart {m : FontMonitor} {thread : Created} {s : FontSys W} (hI : I m.m_fontMonitorFolders s.trace) :
    Yields (m.tryStart env thread) s fun r t => I r.1.m_fontMonitorFolders t.trace := by
  apply Yields.call_bind
  refine .ite (fun _ => ?_) fun _ => .pure hI
  apply Yields.call_bind
  split
  · apply Yields.call_bind
    split
    · exact .pure hI
    apply Yields.call_bind
    split
    · exact .pure hI
    refine .ite (fun _ => ?_) fun _ => .pure hI
    apply Yields.call_bind
    split
    · exact .pure hI
    · exact h.startOn hI
  · exact .pure hI

theorem Start {m : FontMonitor} {thread : Created} {s : FontSys W} (hI : I m.m_fontMonitorFolders s.trace) :
    Yields (m.Start env thread) s fun r t => I r.1.m_fontMonitorFolders t.trace := by
  apply (h.tryStart hI).bind
  rintro r t ht
  apply Yields.ite
  · exact fun _ => .pure ht
  · intro _
    apply (h.Stop ht).bind
    rintro - u ⟨rfl, hu⟩
    exact .pure hu

/-- Every operation, if a path that is added by hand is one of `Q`. -/
theorem operate {m : FontMonitor} {a : Operation} {s : FontSys W} (ha : ∀ path, a = .AddMonitorFolder path → Q path)
    (hI : I m.m_fontMonitorFolders s.trace) :
    Yields (m.operate env a) s fun m t => I m.m_fontMonitorFolders t.trace := by
  cases a with
  | Start thread =>
    apply (h.Start hI).bind
    intro r t ht
    exact ht
  | AddMonitorFolder path => exact h.addFolder (ha path rfl) hI
  | RemoveMonitorFolder path => exact h.RemoveMonitorFolder hI
  | read events => exact h.read _ _ _ hI
  | event event => exact h.handleEvent hI
  | Stop =>
    apply (h.Stop hI).mono
    rintro - t ⟨rfl, ht⟩
    exact ht

theorem run {s t : FontMachine W} {as : List Operation} (ha : ∀ path, .AddMonitorFolder path ∈ as → Q path)
    (hI : I s.monitor.m_fontMonitorFolders s.sys.trace) (hrun : Run (Step env) s as t) :
    I t.monitor.m_fontMonitorFolders t.sys.trace := by
  refine hrun.invariant_of_labels (I := fun s => I s.monitor.m_fontMonitorFolders s.sys.trace)
    (P := fun a => ∀ path, a = .AddMonitorFolder path → Q path) ?_ ?_ hI
  · rintro s a - hI ha ⟨w, rfl⟩
    exact h.operate ha hI
  · rintro a hmem path rfl
    exact ha path hmem

end KeptByAll

end Wslg.Wslgd.Operations
