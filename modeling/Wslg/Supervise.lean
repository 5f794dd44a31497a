import Wslg.Lib.Window
import Wslg.ProcessMonitor
/-!
# Supervised children

What one turn of the loop in `Run` does, and from it what holds in every run: the
children the monitor knows, with what they were launched with, and how often one
command is started again. An entry is lost if a child gets the PID of the one it
replaces.
-/

open Lib

namespace Wslg.Wslgd

/-! ## One turn -/

theorem lookup_insert_eq (m : Finmap fun _ : pid_t => ProcessInfo) (pid pid' : pid_t) (info : ProcessInfo) :
    (m.insert pid info).lookup pid' = if pid' = pid then some info else m.lookup pid' := by
  by_cases h : pid' = pid
  · subst h
    rw [Finmap.lookup_insert, if_pos rfl]
  · rw [Finmap.lookup_insert_of_ne _ h, if_neg h]

theorem lookup_erase_eq (m : Finmap fun _ : pid_t => ProcessInfo) (pid pid' : pid_t) :
    (m.erase pid).lookup pid' = if pid' = pid then none else m.lookup pid' := by
  by_cases h : pid' = pid
  · subst h
    rw [Finmap.lookup_erase, if_pos rfl]
  · rw [Finmap.lookup_erase_ne h, if_neg h]

theorem launchProcess_eq {s m : Monitor} {childPid : pid_t} {info : ProcessInfo} (h : LaunchProcess s childPid info = some m) :
    m = { s with m_children := s.m_children.insert childPid info } := by
  unfold LaunchProcess at h
  split at h
  · cases h
  · exact (Option.some.inj h).symm

/-- The entry of another PID: it was launched in this turn, or it was there. -/
def entryAfter (s : Monitor) (a : Answers) (launched : Option ProcessInfo) (pid : pid_t) : Option ProcessInfo :=
  if pid = a.pid then none
  else if launched.isSome = true ∧ pid = a.childPid then launched else s.m_children.lookup pid

/-- What a turn does, by what it found. -/
inductive Turn (s : Monitor) (a : Answers) (m : Monitor) (launched : Option ProcessInfo) : Prop
  | untracked (hfound : s.m_children.lookup a.pid = none) (hm : m = s) (hl : launched = none)
  | dropped (found : ProcessInfo) (hfound : s.m_children.lookup a.pid = some found) (hargv : found.argv = [])
      (hentry : ∀ pid, m.m_children.lookup pid = entryAfter s a launched pid) (hcrashes : m.crashes = s.crashes)
      (hl : launched = none)
  | exited (found : ProcessInfo) (hfound : s.m_children.lookup a.pid = some found) (hargv : found.argv ≠ [])
      (hentry : ∀ pid, m.m_children.lookup pid = entryAfter s a launched pid)
      (hcrashes : m.crashes =
        s.crashes.insert (joined found.argv) (crashTimestamps s (joined found.argv) a.now))
      (hl : launched = if (crashTimestamps s (joined found.argv) a.now).length ≤ 10 then some found else none)

theorem iterate_turn {s m : Monitor} {a : Answers} {launched : Option ProcessInfo}
    (h : iterate s a = some (m, launched)) : Turn s a m launched := by
  unfold iterate at h
  split at h
  · cases h
  cases hfound : s.m_children.lookup a.pid with
  | none =>
    rw [hfound] at h
    cases h
    exact .untracked hfound rfl rfl
  | some found =>
    simp only [hfound] at h
    by_cases hargv : found.argv = []
    -- a child without a command is only dropped
    · rw [if_neg (by simpa using hargv)] at h
      cases h
      exact .dropped found hfound hargv (fun pid => lookup_erase_eq ..) rfl rfl
    · rw [if_pos hargv] at h
      unfold handleExit at h
      by_cases hlen : (crashTimestamps s (joined found.argv) a.now).length ≤ 10
      · simp only [if_neg (Nat.not_lt.2 hlen)] at h
        -- launched again: the insertion comes before the erasure of the old PID
        cases hlaunch : LaunchProcess
            { m_children := s.m_children.insert a.pid ⟨[], [], []⟩,
              crashes := s.crashes.insert (joined found.argv) (crashTimestamps s (joined found.argv) a.now) }
            a.childPid found with
        | none =>
          rw [hlaunch] at h
          cases h
        | some m' =>
          rw [hlaunch] at h
          cases h
          rw [launchProcess_eq hlaunch]
          refine .exited found hfound hargv (fun pid => ?_) rfl (if_pos hlen).symm
          rw [lookup_erase_eq, lookup_insert_eq, lookup_insert_eq]
          by_cases hpid : pid = a.pid
          · rw [entryAfter, if_pos hpid, if_pos hpid]
          · rw [entryAfter, if_neg hpid, if_neg hpid, if_neg hpid]
            simp
      -- too many crashes: given up
      · simp only [if_pos (Nat.lt_of_not_le hlen)] at h
        cases h
        refine .exited found hfound hargv (fun pid => ?_) rfl (if_neg hlen).symm
        exact lookup_erase_eq ..

/-! ## The children that are known -/

/-- What the child with this PID was launched with, if it was launched. -/
def Supervision.infoOf (s : Supervision) (pid : pid_t) : Option ProcessInfo := (s.children pid).bind Child.info?

def Supervision.originOf (s : Supervision) (pid : pid_t) : Option ProcessInfo := (s.children pid).bind Child.origin?

/-- One entry for each launched child that was not reaped, with what it was launched with. -/
def Supervises (s : Supervision) : Prop := ∀ pid, s.monitor.m_children.lookup pid = s.infoOf pid

/-- The new child has the PID of the one it replaces. -/
def Iteration.Coincides (i : Iteration) : Prop := i.launched.isSome = true ∧ i.answers.childPid = i.answers.pid

/-- Entries are of children, and these were launched with what they were launched with at first. -/
structure Known (s : Supervision) : Prop where
  entries : ∀ pid info, s.monitor.m_children.lookup pid = some info → s.infoOf pid = some info
  origins : ∀ pid, s.originOf pid = s.infoOf pid

theorem known_start : Known .start := ⟨(fun pid info h => by cases h), fun _ => rfl⟩

theorem supervises_start : Supervises .start := fun _ => rfl

section Children

variable (m : Monitor) (children : pid_t → Option Child)

theorem infoOf_update (childPid : pid_t) (c : Child) (pid : pid_t) :
    (Supervision.mk m (Function.update children childPid (some c))).infoOf pid =
      if pid = childPid then c.info? else (Supervision.mk m children).infoOf pid := by
  simp only [Supervision.infoOf, Function.update_apply]
  split <;> rfl

theorem originOf_update (childPid : pid_t) (c : Child) (pid : pid_t) :
    (Supervision.mk m (Function.update children childPid (some c))).originOf pid =
      if pid = childPid then c.origin? else (Supervision.mk m children).originOf pid := by
  simp only [Supervision.originOf, Function.update_apply]
  split <;> rfl

theorem infoOf_forget (gone pid : pid_t) : (Supervision.mk m (Function.update children gone none)).infoOf pid =
    if pid = gone then none else (Supervision.mk m children).infoOf pid := by
  simp only [Supervision.infoOf, Function.update_apply]
  split <;> rfl

theorem originOf_forget (gone pid : pid_t) : (Supervision.mk m (Function.update children gone none)).originOf pid =
    if pid = gone then none else (Supervision.mk m children).originOf pid := by
  simp only [Supervision.originOf, Function.update_apply]
  split <;> rfl

end Children

/-! ### In one step -/

section Steps

variable {s t : Supervision} {a : Happened} {i : Iteration} {m : Monitor} {c : Child} {launched : Option ProcessInfo}

/-- Whatever was launched is what was found. -/
theorem Turn.launched_found {s m : Monitor} {a : Answers} (h : Turn s a m launched)
    {info : ProcessInfo} (hl : launched = some info) : s.m_children.lookup a.pid = some info := by
  cases h with
  | untracked _ _ hnone => cases hnone.symm.trans hl
  | dropped _ _ _ _ _ hnone => cases hnone.symm.trans hl
  | exited found hfound _ _ _ hif =>
    rw [hl] at hif
    split at hif
    · rw [hfound, ← hif]
    · cases hif

theorem Turn.entries {s m : Monitor} {a : Answers} (h : Turn s a m launched) (pid : pid_t) :
    m.m_children.lookup pid = entryAfter s a launched pid := by
  cases h with
  | untracked hfound hm hl =>
    rw [hm, hl]
    by_cases hpid : pid = a.pid
    · rw [entryAfter, if_pos hpid, hpid, hfound]
    · rw [entryAfter, if_neg hpid, if_neg (fun h => by cases h.1)]
  | dropped _ _ _ hentry => exact hentry pid
  | exited _ _ _ hentry => exact hentry pid

theorem passes_origin (hs : Known s) (hchild : s.children i.answers.pid = some c)
    (h : iterate s.monitor i.answers = some (m, i.launched)) (info : ProcessInfo) (hl : i.launched = some info) :
    c.origin? = some info := by
  have hinfo := hs.entries _ _ ((iterate_turn h).launched_found hl)
  rw [← hs.origins, Supervision.originOf, hchild] at hinfo
  exact hinfo

/-- What is known of a PID after a turn, but for the entry of the monitor. -/
theorem infoOf_reaped (s : Supervision) (m : Monitor) (i : Iteration) (c : Child) (pid : pid_t) :
    (Supervision.mk m (reaped s.children i c)).infoOf pid =
      if i.launched.isSome = true ∧ pid = i.answers.childPid then i.launched
      else if pid = i.answers.pid then none else s.infoOf pid := by
  unfold reaped
  cases i.launched with
  | none =>
    rw [if_neg (fun h => by cases h.1)]
    exact infoOf_forget m s.children _ pid
  | some info =>
    simp only [Option.isSome_some, true_and]
    rw [infoOf_update, infoOf_forget]
    rfl

theorem originOf_reaped (s : Supervision) (m : Monitor) (i : Iteration) {c : Child}
    (hc : ∀ info, i.launched = some info → c.origin? = some info) (pid : pid_t) :
    (Supervision.mk m (reaped s.children i c)).originOf pid =
      if i.launched.isSome = true ∧ pid = i.answers.childPid then i.launched
      else if pid = i.answers.pid then none else s.originOf pid := by
  unfold reaped
  cases hl : i.launched with
  | none =>
    rw [if_neg (fun h => by cases h.1)]
    exact originOf_forget m s.children _ pid
  | some info =>
    simp only [Option.isSome_some, true_and]
    rw [originOf_update, originOf_forget, Child.again, hc info hl]
    rfl

theorem known_step (hs : Known s) (h : SuperviseStep s a t) : Known t := by
  cases h with
  | @launch childPid info m hfresh h =>
    -- a launch adds its own entry
    rw [launchProcess_eq h]
    refine ⟨fun pid info' h => ?_, fun pid => ?_⟩
    · rw [lookup_insert_eq] at h
      rw [infoOf_update]
      split at h
      · rwa [if_pos ‹_›]
      · rw [if_neg ‹_›]
        exact hs.entries pid info' h
    · rw [infoOf_update, originOf_update]
      split
      · rfl
      · exact hs.origins pid
  | @adopt pid hfresh =>
    refine ⟨fun pid' info' h => ?_, fun pid' => ?_⟩
    -- a child that was adopted has no entry, and its PID was free
    · have hpid := hs.entries pid' info' h
      rw [infoOf_update, if_neg]
      · exact hpid
      · intro heq
        subst heq
        rw [Supervision.infoOf, hfresh.2] at hpid
        cases hpid
    · rw [infoOf_update, originOf_update]
      split
      · rfl
      · exact hs.origins pid'
  | @iteration i m c hchild hfound h hfresh =>
    -- a turn reaps one child, and passes on what it was launched with
    have horigin := passes_origin hs hchild h
    refine ⟨fun pid info' hlookup => ?_, fun pid => ?_⟩
    · rw [(iterate_turn h).entries, entryAfter] at hlookup
      rw [infoOf_reaped]
      split at hlookup
      · cases hlookup
      rename_i hpid
      split at hlookup
      · rwa [if_pos ‹_›]
      · rw [if_neg ‹_›, if_neg hpid]
        exact hs.entries pid info' hlookup
    · rw [infoOf_reaped, originOf_reaped s m i horigin, hs.origins]

/-- A step keeps every entry unless the PIDs coincide; then the new one is gone. -/
theorem supervises_step (hs : Supervises s) (h : SuperviseStep s a t) :
    Supervises t ↔ ∀ i, a = .iteration i → ¬ i.Coincides := by
  cases h with
  | @launch childPid info m hfresh h =>
    refine iff_of_true (fun pid => ?_) (fun i h => by cases h)
    rw [launchProcess_eq h, lookup_insert_eq, infoOf_update, hs pid]
    rfl
  | @adopt pid hfresh =>
    refine iff_of_true (fun pid' => ?_) (fun i h => by cases h)
    rw [infoOf_update]
    split
    · rename_i heq
      subst heq
      rw [hs, Supervision.infoOf, hfresh.2]
      rfl
    · exact hs pid'
  | @iteration i m c hchild hfound h hfresh =>
    have hentries := (iterate_turn h).entries
    constructor
    -- the erasure comes last, and takes the new entry with it
    · intro ht i' hi' hcoincides
      cases hi'
      have hpid := ht i.answers.pid
      rw [hentries, entryAfter, if_pos rfl, infoOf_reaped, if_pos ⟨hcoincides.1, hcoincides.2.symm⟩] at hpid
      have hsome := hcoincides.1
      rw [← hpid] at hsome
      cases hsome
    · intro hc pid
      rw [hentries, entryAfter, infoOf_reaped, hs]
      -- the new child, or one that was there
      by_cases hnew : i.launched.isSome = true ∧ pid = i.answers.childPid
      · have hne : pid ≠ i.answers.pid := fun heq => hc i rfl ⟨hnew.1, hnew.2.symm.trans heq⟩
        rw [if_neg hne, if_pos hnew, if_pos hnew]
      · rw [if_neg hnew, if_neg hnew]

end Steps

/-! ### In every run -/

theorem known_run {as : List Happened} {s : Supervision} (h : Run SuperviseStep .start as s) : Known s :=
  h.invariant (fun _ _ _ hs ha => known_step hs ha) known_start

/-- Every launched child is known, whenever a turn starts, just if none gets the PID
of the one it replaces. -/
theorem no_process_is_lost {as : List Happened} {s : Supervision} (h : Run SuperviseStep .start as s) :
    (∀ i, .iteration i ∈ as → ¬ i.Coincides) ↔
      ∀ bs cs t, as = bs ++ cs → Run SuperviseStep .start bs t → Run SuperviseStep t cs s →
        Supervises t ∧ ∀ i, cs.head? = some (.iteration i) → i.found = t.infoOf i.answers.pid := by
  have hiff := h.throughout_iff (I := Supervises) (fun _ _ _ hs ha => supervises_step hs ha) supervises_start
  constructor
  · intro hok bs cs t has hbs hcs
    have ht := hiff.1 (fun a ha i hi => hok i (hi ▸ ha)) bs cs t has hbs hcs
    refine ⟨ht, fun i hi => ?_⟩
    cases hcs with
    | nil => cases hi
    | cons hstep _ =>
      cases hi
      cases hstep with
      | iteration _ hfound _ _ => rw [← hfound, ht]
  · intro hall i hi
    exact hiff.2 (fun bs cs t has hbs hcs => (hall bs cs t has hbs hcs).1) _ hi i rfl

def weston : ProcessInfo where
  argv := [[0x77, 0x65, 0x73, 0x74, 0x6F, 0x6E]]
  capabilities := [21]
  env := []

/-- Launched as 5, and launched again after its exit at time 0. -/
def exitOf (childPid : pid_t) : Iteration := ⟨⟨5, 0, childPid⟩, some weston, some weston⟩

def launchAndExit (childPid : pid_t) : List Happened := [.launch 5 weston, .iteration (exitOf childPid)]

theorem run_launchAndExit {childPid : pid_t} {m : Monitor} (hpos : 0 < childPid)
    (hm : iterate ⟨(∅ : Finmap _).insert 5 weston, ∅⟩ ⟨5, 0, childPid⟩ = some (m, some weston)) :
    Run SuperviseStep .start (launchAndExit childPid)
      ⟨m, reaped (Function.update (fun _ => none) 5 (some (.launched weston weston))) (exitOf childPid)
        (.launched weston weston)⟩ := by
  refine .cons (.launch ⟨by decide, rfl⟩ rfl) (.one (.iteration rfl rfl hm fun _ => ⟨hpos, ?_⟩))
  simp [exitOf, Function.update_apply, Supervision.start]

theorem weston_is_known : ∃ s, Run SuperviseStep .start (launchAndExit 6) s ∧ Supervises s ∧ s.infoOf 6 = some weston := by
  have hrun : Run SuperviseStep .start (launchAndExit 6) _ := run_launchAndExit (by decide) rfl
  have hpids : ∀ i, .iteration i ∈ launchAndExit 6 → ¬ i.Coincides := by
    intro i hi hc
    simp only [launchAndExit, List.mem_cons, reduceCtorEq, false_or, List.not_mem_nil, or_false,
      Happened.iteration.injEq] at hi
    subst hi
    exact absurd hc.2 (by decide)
  exact ⟨_, hrun, ((no_process_is_lost hrun).1 hpids _ [] _ (by simp) hrun (.nil _)).1, rfl⟩

/-- A child that gets the PID of the one it replaces is not known. -/
theorem relaunched_child_is_lost : ∃ s, Run SuperviseStep .start (launchAndExit 5) s ∧
    s.monitor.m_children.lookup 5 = none ∧ s.infoOf 5 = some weston ∧ ¬ Supervises s := by
  refine ⟨_, run_launchAndExit (by decide) rfl, rfl, rfl, fun h => ?_⟩
  cases h 5

end Wslg.Wslgd
