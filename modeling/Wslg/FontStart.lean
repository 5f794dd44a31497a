import Wslg.FontLedger
/-!
# Start

`Start` creates the thread or undoes everything, as long as `pthread_create` does not
fail. That reports its failure by a positive number, and `Start` waits for a negative
one.
-/

open Lib Lib.TraceM

namespace Wslg.Wslgd.Operations

variable {W : Type} {env : Linux W} {m : FontMonitor} {thread : Created}

/-! ## The checks -/

/-- The checks of `Start` succeed one after the other, and there is an inotify instance. -/
def Reaches (env : Linux W) (w : W) : Prop :=
  let installed := env.access c_xset .X_OK w
  let mounted := env.pathExists USER_DISTRO_MOUNT_PATH installed.2
  let user := env.pathExists USER_DISTRO_FONT_PATH mounted.2
  let alt := env.pathExists ALT_DISTRO_FONT_PATH user.2
  installed.1 = true ∧ mounted.1 = some true ∧ user.1.isSome ∧ alt.1.isSome ∧
    (user.1 = some true ∨ alt.1 = some true) ∧ (env.inotify_init alt.2).1.isSome

theorem tryStart_yields {s : FontSys W} {P : FontMonitor × Bool → FontSys W → Prop}
    (hreaches : Reaches env s.world → ∀ fd user alt w, Yields (m.startOn env fd user alt thread) { s with world := w } P)
    (hnot : ¬ Reaches env s.world → ∀ w, P (m, false) { s with world := w }) : Yields (m.tryStart env thread) s P := by
  apply Yields.call_bind
  refine .ite (fun hinstalled => ?_) fun hno => .pure (hnot (fun h => hno h.1) _)
  apply Yields.call_bind
  split
  · rename_i hmounted
    apply Yields.call_bind
    split
    · rename_i huser
      exact .pure (hnot (fun h => by simp [Reaches, huser] at h) _)
    rename_i user huser
    apply Yields.call_bind
    split
    · rename_i halt
      exact .pure (hnot (fun h => by simp [Reaches, halt] at h) _)
    rename_i alt halt
    refine .ite (fun hone => ?_) fun hno => .pure (hnot (fun h => ?_) _)
    · apply Yields.call_bind
      split
      · rename_i hinit
        exact .pure (hnot (fun h => by simp [Reaches, hinit] at h) _)
      · rename_i fd hinit
        have hreach : Reaches env s.world := by
          simpa [Reaches, hinstalled, hmounted, huser, halt, hinit] using hone
        exact hreaches hreach fd user alt _
    · have hone := h.2.2.2.2.1
      rw [huser, halt] at hone
      simp at hone hno
      simp [hno] at hone
  · rename_i hmounted
    exact .pure (hnot (fun h => hmounted h.2.1) _)

/-! ## With an inotify instance -/

section Unmarked

variable {f f' : FontFolder} {isAdd : Bool} {path : CharString} {ext : List FontEvent}

theorem Modified.not_created (h : Modified f isAdd f' ext) (thread : pthread_t) : .created thread ∉ ext := by
  cases h <;> simp

theorem Made.not_created (h : Made path f ext) (thread : pthread_t) : .created thread ∉ ext := by
  have hadded : ∀ {f ext}, Added path f ext → .created thread ∉ ext := by
    intro f ext h
    cases h with
    | unreadable => exact List.not_mem_nil
    | readable hmodified => exact hmodified.not_created thread
  cases h with
  | unwatched h => exact hadded h
  | watched fd wd h => simpa using hadded h

end Unmarked

/-- Since `before`, no thread was created. -/
def NoneCreated (before trace : List FontEvent) : Prop :=
  ∃ ext, trace = before ++ ext ∧ ∀ thread, .created thread ∉ ext

theorem NoneCreated.append {before trace ext : List FontEvent} (h : NoneCreated before trace)
    (hext : ∀ thread, .created thread ∉ ext) : NoneCreated before (trace ++ ext) := by
  obtain ⟨ext', rfl, hext'⟩ := h
  refine ⟨ext' ++ ext, List.append_assoc _ _ _, fun thread hmem => ?_⟩
  rcases List.mem_append.1 hmem with hmem | hmem
  · exact hext' thread hmem
  · exact hext thread hmem

theorem kept_noneCreated (before : List FontEvent) : Kept (fun _ => True) fun _ => NoneCreated before where
  roots := ⟨trivial, trivial⟩
  X11 := trivial
  entry _ _ _ _ := trivial
  event _ _ _ _ _ _ _ := trivial
  quiet _ _ e he h := h.append fun thread hmem => by
    rw [← List.mem_singleton.1 hmem] at he
    cases he
  tracked _ _ _ _ _ _ _ hmade h := h.append hmade.not_created
  dropped _ _ _ _ _ _ _ _ hmade hmodified h := (h.append hmade.not_created).append hmodified.not_created
  removed _ _ _ _ _ _ _ hmodified h := h.append hmodified.not_created
  modified _ _ _ _ _ _ _ hmodified h := h.append hmodified.not_created

/-- The failure of `pthread_create` is no negative number. -/
theorem startOn_yields {fd : Fd} {user alt : Bool} (s : FontSys W) :
    Yields (m.startOn env fd user alt thread) s fun r t => r.2 = true ∧
      ∃ ext, t.trace = s.trace ++ ext ∧ (.created thread.thread ∈ ext ↔ thread.error = 0) := by
  have h := kept_noneCreated s.trace
  have hs : NoneCreated s.trace s.trace := ⟨[], by simp⟩
  apply Yields.emit_bind
  apply (h.resetFd m.m_fontMonitorFolders (h.quiet m.m_fontMonitorFolders _ (.opened fd) rfl hs)).bind
  rintro - t ht
  apply (h.addRoot (m := { m with m_fd := some fd }) trivial ht).bind
  intro m t ht
  apply (h.addRoot trivial ht).bind
  rintro m t ⟨ext, ht, hext⟩
  have hcreated : Yields (if thread.error = 0 then emit (.created thread.thread) else pure ⟨⟩ : FontM W PUnit) t
      fun _ u => ∃ ext, u.trace = s.trace ++ ext ∧ (.created thread.thread ∈ ext ↔ thread.error = 0) := by
    refine .ite (fun herror => ⟨ext ++ [.created thread.thread], ?_, by simp [herror]⟩) fun herror =>
      .pure ⟨ext, ht, by simp [hext, herror]⟩
    rw [← List.append_assoc, ← ht]
    rfl
  exact hcreated.bind fun _ u hu => .pure ⟨decide_eq_true (not_lt.2 thread.nonneg), hu⟩

/-! ## All or nothing -/

/-- Of the result of `Start` and what it added to the trace: there is a thread, or no folder
and no descriptor, and the font path is as before. -/
def AllOrNothing (thread : Created) (r : FontMonitor × Int) (ext : List FontEvent) : Prop :=
  (r.2 = 0 ∧ .created thread.thread ∈ ext) ∨
    (r.2 = -1 ∧ r.1.m_fontMonitorFolders = .empty ∧ r.1.m_fd = none ∧
      (∀ fd, ext.count (.opened fd) ≤ ext.count (.closed fd)) ∧ fontPathOf ext = [])

/-- There is nothing to undo but the descriptor. -/
theorem Stop_of_stopped (hfolders : m.m_fontMonitorFolders = .empty) (hthread : m.m_fontMonitorThread = 0) (s : FontSys W) :
    m.Stop env s = (.new, { s with trace := s.trace ++ closing m.m_fd }) := by
  obtain ⟨fd, folders, thread⟩ := m
  cases hfolders
  cases hthread
  cases fd with
  | none =>
    change (FontMonitor.new, s) = (.new, { s with trace := s.trace ++ [] })
    rw [List.append_nil]
  | some fd => rfl

/-- Exactly where `pthread_create` is not reached or succeeds. -/
theorem start_all_or_nothing_iff (hfolders : m.m_fontMonitorFolders = .empty) (hthread : m.m_fontMonitorThread = 0)
    {s : FontSys W} {ext : List FontEvent} (hext : (m.Start env thread s).2.trace = s.trace ++ ext) :
    AllOrNothing thread (m.Start env thread s).1 ext ↔ (Reaches env s.world → thread.error = 0) := by
  suffices hstart : Yields (m.Start env thread) s fun r t => ∀ ext, t.trace = s.trace ++ ext →
      (AllOrNothing thread r ext ↔ (Reaches env s.world → thread.error = 0)) from hstart ext hext
  refine Yields.bind (tryStart_yields (P := fun r t =>
    (Reaches env s.world ∧ r.2 = true ∧ ∃ ext, t.trace = s.trace ++ ext ∧ (.created thread.thread ∈ ext ↔ thread.error = 0)) ∨
      (¬ Reaches env s.world ∧ r = (m, false) ∧ t.trace = s.trace)) ?_ ?_) ?_
  · intro hreaches fd user alt w
    exact (startOn_yields _).mono fun r t ht => .inl ⟨hreaches, ht⟩
  · exact fun hnot w => .inr ⟨hnot, rfl, rfl⟩
  rintro r t (⟨hreaches, hsucceeded, ext, ht, hcreated⟩ | ⟨hnot, rfl, ht⟩)
  · -- the thread is created exactly if `pthread_create` succeeds, and 0 is returned anyway
    refine .ite (fun _ => .pure ?_) fun hfailed => (hfailed hsucceeded).elim
    intro ext' ht'
    obtain rfl := List.append_cancel_left (ht.symm.trans ht')
    rw [imp_iff_right hreaches, ← hcreated]
    constructor
    · rintro (⟨-, h⟩ | ⟨h, -⟩)
      · exact h
      · cases h
    · exact fun h => .inl ⟨rfl, h⟩
  · -- nothing was done
    change ∀ ext', (m.Stop env t).2.trace = s.trace ++ ext' →
      (AllOrNothing thread ((m.Stop env t).1, -1) ext' ↔ (Reaches env s.world → thread.error = 0))
    rw [Stop_of_stopped hfolders hthread, ht]
    intro ext' ht'
    obtain rfl := List.append_cancel_left ht'
    refine iff_of_true (.inr ⟨rfl, rfl, rfl, ?_, ?_⟩) fun h => (hnot h).elim
    · intro fd
      cases m.m_fd <;> simp [closing]
    · cases m.m_fd <;> rfl

/-- `pthread_create` fails with `EAGAIN`, and `Start` returns 0 without a thread. -/
theorem start_without_thread :
    let run := FontMonitor.new.Start (.plain fun _ => []) .EAGAIN ⟨3, []⟩
    (∀ command s, (xset (.plain fun _ => []) command s).1 = true) ∧ run.1.2 = 0 ∧
      ¬ AllOrNothing .EAGAIN run.1 run.2.trace := by
  refine ⟨fun _ _ => rfl, by decide +kernel, ?_⟩
  rintro (⟨-, h⟩ | ⟨h, -⟩)
  · exact absurd h (by decide +kernel)
  · exact absurd h (by decide +kernel)

/-- With a thread it starts. -/
theorem start_all_or_nothing_iff_plain :
    let run := FontMonitor.new.Start (.plain fun _ => []) (.success 7) ⟨3, []⟩
    Reaches (.plain fun _ => []) 3 ∧ run.1.2 = 0 ∧ AllOrNothing (.success 7) run.1 run.2.trace :=
  ⟨by unfold Reaches; decide +kernel, by decide +kernel, (start_all_or_nothing_iff (s := ⟨3, []⟩) rfl rfl rfl).2 fun _ => rfl⟩

end Wslg.Wslgd.Operations
