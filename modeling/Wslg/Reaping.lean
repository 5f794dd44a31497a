import Wslg.FontOperations
import Wslg.Lib.Processes
import Wslg.Supervise
/-!
# Two threads that wait for children

`Run` of the process monitor waits for any child in the process group of WSLGd, and
`ExecuteShellCommand` of the font monitor waits for the `xset` it has started. The
child and the thread both call `setpgid`, so that the monitor does not get to see
`xset`. Here the two threads, the children and the kernel take their steps in any order.
-/

open Lib Lib.Processes

namespace Wslg.Wslgd

open Operations (Status Command)

/-! ## The threads -/

/-- Which thread started a process, and for what. -/
inductive Owner where
  | child (c : Child)
  | command (c : Command)

def Owner.child? : Owner → Option Child
  | .child c => some c
  | .command _ => none

/-- What is started again in place of this one. -/
def Owner.again : Owner → ProcessInfo → Child
  | .child c, info => c.again info
  | .command _, info => .launched info info

/-- Between `waitpid` and the end of the turn the child is gone, but for the monitor. -/
inductive MainThread where
  | launching
  | waiting
  | handling (pid : pid_t) (owner : Owner)

/-- In `ExecuteShellCommand`: before `fork`, before `setpgid` and before `waitpid`. -/
inductive FontThread where
  | idle
  | forked (childPid : pid_t) (command : Command)
  | waiting (childPid : pid_t) (command : Command)

structure Daemon where
  monitor : Monitor
  processes : Table pid_t Owner Status
  main : MainThread
  font : FontThread

def Daemon.start : Daemon := ⟨.new, fun _ => none, .launching, .idle⟩

/-- A step of a thread, of a child or of the kernel. -/
inductive Taken where
  | launch (childPid : pid_t) (info : ProcessInfo)
  | adopt (pid : pid_t)
  | run
  | setpgid (pid : pid_t)
  | exit (pid : pid_t) (p : Process Owner Status) (status : Status)
  | reap (pid : pid_t) (p : Process Owner Status)
  | turn (i : Iteration)
  | fontFork (childPid : pid_t) (command : Command)
  | fontSetpgid (childPid : pid_t) (success : Bool)
  | fontReap (command : Command) (p : Process Owner Status) (status : Status)
  | fontError

/-- The rest of a turn is one step: no other thread sees `m_children`. -/
inductive DaemonStep : Daemon → Taken → Daemon → Prop
  | launch {m m' : Monitor} {t : Table pid_t Owner Status} {f : FontThread} {childPid : pid_t} {info : ProcessInfo}
      (hpos : 0 < childPid) (hfree : t childPid = none) (h : LaunchProcess m childPid info = some m') :
      DaemonStep ⟨m, t, .launching, f⟩ (.launch childPid info)
        ⟨m', fork t childPid (.child (.launched info info)), .launching, f⟩
  /-- A child that comes to WSLGd when its own parent ends; it is older than the turn that goes on. -/
  | adopt {d : Daemon} {pid : pid_t} (hpos : 0 < pid) (hfree : d.processes pid = none)
      (hhandling : ∀ owner, d.main ≠ .handling pid owner) :
      DaemonStep d (.adopt pid) { d with processes := fork d.processes pid (.child .adopted) }
  | run {m : Monitor} {t : Table pid_t Owner Status} {f : FontThread} :
      DaemonStep ⟨m, t, .launching, f⟩ .run ⟨m, t, .waiting, f⟩
  /-- A process leaves the group: `xset` before it is executed, and any other when it likes. -/
  | setpgid {d : Daemon} {pid : pid_t} :
      DaemonStep d (.setpgid pid) { d with processes := leaveGroup d.processes pid }
  | exit {d : Daemon} {pid : pid_t} {p : Process Owner Status} {status : Status} (hpid : d.processes pid = some p)
      (hruns : p.status = none) :
      DaemonStep d (.exit pid p status) { d with processes := exit d.processes pid status }
  /-- `waitpid(0)` takes a zombie of the group. -/
  | reap {m : Monitor} {t : Table pid_t Owner Status} {f : FontThread} {pid : pid_t} {p : Process Owner Status}
      (hpid : t pid = some p) (hgroup : p.inGroup = true) (hzombie : p.status.isSome = true) :
      DaemonStep ⟨m, t, .waiting, f⟩ (.reap pid p) ⟨m, reap t pid, .handling pid p.owner, f⟩
  | turn {m m' : Monitor} {t : Table pid_t Owner Status} {f : FontThread} {owner : Owner} {i : Iteration}
      (hfound : m.m_children.lookup i.answers.pid = i.found) (h : iterate m i.answers = some (m', i.launched))
      (hfree : i.launched.isSome = true → 0 < i.answers.childPid ∧ t i.answers.childPid = none) :
      DaemonStep ⟨m, t, .handling i.answers.pid owner, f⟩ (.turn i)
        ⟨m', i.launched.elim t (fun info => fork t i.answers.childPid (.child (owner.again info))), .waiting, f⟩
  | fontFork {m : Monitor} {t : Table pid_t Owner Status} {main : MainThread} {childPid : pid_t} {command : Command}
      (hpos : 0 < childPid) (hfree : t childPid = none) :
      DaemonStep ⟨m, t, main, .idle⟩ (.fontFork childPid command)
        ⟨m, fork t childPid (.command command), main, .forked childPid command⟩
  /-- It fails once `xset` is executed; the thread goes on to wait all the same. -/
  | fontSetpgid {m : Monitor} {t : Table pid_t Owner Status} {main : MainThread} {childPid : pid_t} {command : Command}
      {success : Bool} :
      DaemonStep ⟨m, t, main, .forked childPid command⟩ (.fontSetpgid childPid success)
        ⟨m, if success then leaveGroup t childPid else t, main, .waiting childPid command⟩
  /-- `waitpid` of the child: whatever has its PID. -/
  | fontReap {m : Monitor} {t : Table pid_t Owner Status} {main : MainThread} {childPid : pid_t} {command : Command}
      {p : Process Owner Status} {status : Status} (hpid : t childPid = some p) (hzombie : p.status = some status) :
      DaemonStep ⟨m, t, main, .waiting childPid command⟩ (.fontReap command p status) ⟨m, reap t childPid, main, .idle⟩
  /-- `ECHILD` -/
  | fontError {m : Monitor} {t : Table pid_t Owner Status} {main : MainThread} {childPid : pid_t} {command : Command}
      (hgone : t childPid = none) :
      DaemonStep ⟨m, t, main, .waiting childPid command⟩ .fontError ⟨m, t, main, .idle⟩
/-! ## What the monitor sees -/

/-- The children but for the commands. -/
def present (t : Table pid_t Owner Status) : pid_t → Option Child := fun pid => (ownerOf t pid).bind Owner.child?

/-- With the child that is being handled. -/
def Daemon.children (d : Daemon) : pid_t → Option Child :=
  match d.main with
  | .handling pid owner => Function.update (present d.processes) pid owner.child?
  | _ => present d.processes

def Daemon.supervision (d : Daemon) : Supervision := ⟨d.monitor, d.children⟩

/-- What a step is for the monitor, if anything. -/
def Taken.happened? : Taken → Option Happened
  | .launch childPid info => some (.launch childPid info)
  | .adopt pid => some (.adopt pid)
  | .turn i => some (.iteration i)
  | _ => none

/-- A command ends before it has left the group. -/
def Taken.Early : Taken → Prop
  | .exit _ p _ => (∃ c, p.owner = .command c) ∧ p.inGroup = true
  | _ => False

/-- Each thread gets what it waits for. -/
def Taken.Proper : Taken → Prop
  | .reap _ p => ∃ c, p.owner = .child c
  | .fontReap command p status => p.owner = .command command ∧ p.status = some status
  | .fontError => False
  | _ => True

section Present

variable (t : Table pid_t Owner Status) (pid : pid_t)

theorem present_fork (o : Owner) : present (fork t pid o) = Function.update (present t) pid o.child? := by
  funext q
  unfold present
  rw [ownerOf_fork, Function.update_apply]
  split <;> rfl

theorem present_leaveGroup : present (leaveGroup t pid) = present t := by
  funext q
  rw [present, ownerOf_leaveGroup, present]

theorem present_exit (status : Status) : present (exit t pid status) = present t := by
  funext q
  rw [present, ownerOf_exit, present]

theorem present_reap : present (reap t pid) = Function.update (present t) pid none := by
  funext q
  unfold present
  rw [ownerOf_reap, Function.update_apply]
  split <;> rfl

variable {t pid}

theorem present_eq {p : Process Owner Status} (h : t pid = some p) : present t pid = p.owner.child? := by
  rw [present, ownerOf_eq h]
  rfl

theorem present_eq_none (h : t pid = none) : present t pid = none := by
  rw [present, ownerOf_eq_none h]
  rfl

/-- A command comes unseen. -/
theorem present_fork_command (hfree : t pid = none) (c : Command) : present (fork t pid (.command c)) = present t := by
  rw [present_fork, ← Function.update_eq_self pid (present t), present_eq_none hfree, Function.update_idem]
  rfl

/-- It goes unseen, too. -/
theorem present_reap_command {p : Process Owner Status} {c : Command} (h : t pid = some p) (howner : p.owner = .command c) :
    present (reap t pid) = present t := by
  rw [present_reap, Function.update_eq_self_iff, present_eq h, howner]
  rfl

end Present

/-! ## The invariant -/

def FontThread.child? : FontThread → Option (pid_t × Command)
  | .idle => none
  | .forked childPid command => some (childPid, command)
  | .waiting childPid command => some (childPid, command)

/-- The command that is waited for is there, commands leave the group before they end, and the PID of a child that is
being handled may be that of a command by now. -/
structure Apart (d : Daemon) : Prop where
  command : ∀ pid c, d.font.child? = some (pid, c) → ownerOf d.processes pid = some (.command c)
  group : OutOfGroup (fun o => ∃ c, o = Owner.command c) d.processes
  handled : ∀ pid owner, d.main = .handling pid owner →
    (∃ c, owner = .child c) ∧ present d.processes pid = none

theorem apart_start : Apart .start := by
  refine ⟨fun pid c h => ?_, fun pid p h => ?_, fun pid owner h => ?_⟩
  · cases h
  · cases h
  · cases h

/-- What changes no owner keeps the invariant, but for who has left the group. -/
theorem Apart.of_owners {s t : Daemon} (hs : Apart s) (howners : ∀ pid, ownerOf t.processes pid = ownerOf s.processes pid)
    (hgroup : OutOfGroup (fun o => ∃ c, o = Owner.command c) t.processes) (hfont : t.font.child? = s.font.child?)
    (hmain : t.main = s.main) : Apart t := by
  refine ⟨fun pid c h => ?_, hgroup, fun pid owner h => ?_⟩
  · rw [howners]
    exact hs.command pid c (hfont ▸ h)
  · rw [present, howners]
    exact hs.handled pid owner (hmain ▸ h)

theorem apart_step {s t : Daemon} {a : Taken} (hs : Apart s) (h : DaemonStep s a t) (hearly : ¬ a.Early) :
    Apart t ∧ a.Proper := by
  cases h with
  | @launch m m' table f childPid info hpos hfree h =>
    refine ⟨⟨fun pid c hc => ?_, hs.group.fork _, fun pid owner hmain => by cases hmain⟩, trivial⟩
    -- the command that is waited for keeps its PID
    exact ownerOf_fork_of (hs.command pid c hc) hfree
  | @adopt _ adopted hpos hfree hhandling =>
    refine ⟨⟨fun pid c hc => ?_, hs.group.fork _, fun pid owner hmain => ?_⟩, trivial⟩
    · exact ownerOf_fork_of (hs.command pid c hc) hfree
    · rw [present_fork, Function.update_apply, if_neg]
      · exact hs.handled pid owner hmain
      · rintro rfl
        exact hhandling owner hmain
  | run => exact ⟨⟨hs.command, hs.group, fun pid owner hmain => by cases hmain⟩, trivial⟩
  | setpgid => exact ⟨hs.of_owners (ownerOf_leaveGroup _ _) hs.group.leaveGroup rfl rfl, trivial⟩
  | @exit _ pid p status hpid hruns =>
    refine ⟨hs.of_owners (fun q => ownerOf_exit _ _ q _) (hs.group.exit hpid fun howner => ?_) rfl rfl, trivial⟩
    by_contra hin
    exact hearly ⟨howner, by simpa using hin⟩
  | @reap m table f pid p hpid hgroup hzombie =>
    -- a zombie in the group is no command
    have hchild : ∃ c, p.owner = .child c := by
      cases howner : p.owner with
      | child c => exact ⟨c, rfl⟩
      | command c =>
        rw [hs.group pid p hpid ⟨c, howner⟩ hzombie] at hgroup
        cases hgroup
    refine ⟨⟨fun pid' c hc => ?_, hs.group.reap, fun pid' owner hmain => ?_⟩, hchild⟩
    · have hpid' := hs.command pid' c hc
      rw [ownerOf_reap, if_neg, hpid']
      rintro rfl
      obtain ⟨c', hc'⟩ := hchild
      rw [ownerOf_eq hpid, hc'] at hpid'
      cases hpid'
    · cases hmain
      exact ⟨hchild, by rw [present_reap, Function.update_self]⟩
  | @turn m m' table f owner i hfound h hfree =>
    refine ⟨⟨fun pid c hc => ?_, ?_, fun pid owner hmain => by cases hmain⟩, trivial⟩
    · have hpid := hs.command pid c hc
      cases hl : i.launched with
      | none => exact hpid
      | some info => exact ownerOf_fork_of hpid (hfree (by rw [hl]; rfl)).2
    · cases hl : i.launched with
      | none => exact hs.group
      | some info => exact hs.group.fork _
  | @fontFork m table main childPid command hpos hfree =>
    refine ⟨⟨fun pid c hc => ?_, hs.group.fork _, fun pid owner hmain => ?_⟩, trivial⟩
    · cases hc
      rw [ownerOf_fork, if_pos rfl]
    -- the PID of the child that is being handled is free again
    · rw [present_fork_command hfree]
      exact hs.handled pid owner hmain
  | @fontSetpgid m table main childPid command success =>
    refine ⟨?_, trivial⟩
    cases success with
    | false => exact ⟨hs.command, hs.group, hs.handled⟩
    | true => exact hs.of_owners (ownerOf_leaveGroup _ _) hs.group.leaveGroup rfl rfl
  | @fontReap m table main childPid command p status hpid hzombie =>
    -- what has the PID is the command
    have howner := hs.command childPid command rfl
    rw [ownerOf_eq hpid] at howner
    refine ⟨⟨fun pid c hc => ?_, hs.group.reap, fun pid owner hmain => ?_⟩, Option.some.inj howner, hzombie⟩
    · cases hc
    · rw [present_reap_command hpid (Option.some.inj howner)]
      exact hs.handled pid owner hmain
  | @fontError m table main childPid command hgone =>
    have howner := hs.command childPid command rfl
    rw [ownerOf_eq_none hgone] at howner
    cases howner

/-! ## The monitor takes its own steps -/

theorem supervision_stutter {s t : Daemon} {a : Taken} (hs : Apart s) (h : DaemonStep s a t) (ha : a.happened? = none) :
    t.supervision = s.supervision := by
  cases h with
  | launch => cases ha
  | adopt => cases ha
  | turn => cases ha
  | run => rfl
  | setpgid =>
    unfold Daemon.supervision Daemon.children
    simp only [present_leaveGroup]
  | exit =>
    unfold Daemon.supervision Daemon.children
    simp only [present_exit]
  | reap hpid hgroup hzombie =>
    unfold Daemon.supervision Daemon.children
    simp only [present_reap, Function.update_idem]
    rw [← present_eq hpid, Function.update_eq_self]
  | fontFork hpos hfree =>
    unfold Daemon.supervision Daemon.children
    simp only [present_fork_command hfree]
  | @fontSetpgid m table main childPid command success =>
    unfold Daemon.supervision Daemon.children
    cases success with
    | false => rfl
    | true => simp only [if_true, present_leaveGroup]
  | @fontReap m table main childPid command p status hpid hzombie =>
    have howner := hs.command childPid command rfl
    rw [ownerOf_eq hpid] at howner
    unfold Daemon.supervision Daemon.children
    simp only [present_reap_command hpid (Option.some.inj howner)]
  | fontError => rfl

theorem supervision_step {s t : Daemon} {a : Taken} {b : Happened} (hs : Apart s) (h : DaemonStep s a t)
    (ha : a.happened? = some b) : SuperviseStep s.supervision b t.supervision := by
  cases h with
  | @launch m m' table f childPid info hpos hfree h =>
    cases ha
    have hfresh : Fresh (present table) childPid := ⟨hpos, present_eq_none hfree⟩
    have hstep := SuperviseStep.launch (s := ⟨m, present table⟩) hfresh h
    show SuperviseStep ⟨m, present table⟩ _ ⟨m', present (fork _ _ _)⟩
    rw [present_fork]
    exact hstep
  | @adopt _ adopted hpos hfree hhandling =>
    cases ha
    have hchildren : Daemon.children { s with processes := fork s.processes adopted (.child .adopted) } =
        Function.update s.children adopted (some .adopted) := by
      unfold Daemon.children
      simp only [present_fork]
      split
      · rename_i pid owner hmain
        have hne : pid ≠ adopted := by
          rintro rfl
          exact hhandling owner hmain
        exact (Function.update_comm hne _ _ _).symm
      · rfl
    have hnone : s.children adopted = none := by
      unfold Daemon.children
      cases hmain : s.main with
      | launching => exact present_eq_none hfree
      | waiting => exact present_eq_none hfree
      | handling pid owner =>
        show Function.update (present s.processes) pid owner.child? adopted = none
        rw [Function.update_apply, if_neg, present_eq_none hfree]
        rintro rfl
        exact hhandling owner hmain
    show SuperviseStep _ _ ⟨s.monitor, Daemon.children _⟩
    rw [hchildren]
    exact .adopt ⟨hpos, hnone⟩
  | @turn m m' table f owner i hfound h hfree =>
    cases ha
    obtain ⟨⟨c, rfl⟩, hnone⟩ := hs.handled i.answers.pid owner rfl
    let children := Function.update (present table) i.answers.pid (some c)
    -- without the child that was handled, what is there is what the kernel has
    have hrest : Function.update children i.answers.pid none = present table := by
      rw [Function.update_idem, Function.update_eq_self_iff]
      exact hnone.symm
    have hfresh : i.launched.isSome = true → Fresh (Function.update children i.answers.pid none) i.answers.childPid := by
      intro hl
      rw [hrest]
      exact ⟨(hfree hl).1, present_eq_none (hfree hl).2⟩
    have hreaped : reaped children i c =
        present (i.launched.elim table fun info => fork table i.answers.childPid (.child (c.again info))) := by
      unfold reaped
      cases i.launched with
      | none => exact hrest
      | some info =>
        simp only [hrest, Option.elim_some, present_fork]
        rfl
    have hstep := SuperviseStep.iteration (s := ⟨m, children⟩) (Function.update_self _ _ _) hfound h hfresh
    rw [hreaped] at hstep
    exact hstep
  | run => cases ha
  | setpgid => cases ha
  | exit => cases ha
  | reap => cases ha
  | fontFork => cases ha
  | fontSetpgid => cases ha
  | fontReap => cases ha
  | fontError => cases ha

/-! ## In any order of steps -/

/-- As long as every `xset` gets as far as its own process group, the two threads do not interfere, in whatever order
they, the children and the kernel take their steps: the monitor runs as if it were alone, neither thread takes a child
of the other, and `ExecuteShellCommand` always gets the status of its own command. -/
theorem threads_do_not_interfere {as : List Taken} {d : Daemon} (h : Run DaemonStep .start as d)
    (hearly : ∀ a ∈ as, ¬ a.Early) :
    Run SuperviseStep .start (as.filterMap Taken.happened?) d.supervision ∧ ∀ a ∈ as, a.Proper := by
  have hrun := h.restrict hearly
  constructor
  · exact (hrun.simulates (I := Apart)
      (fun s a t hs ha => ⟨(apart_step hs ha.1 ha.2).1, fun b hb => supervision_step hs ha.1 hb⟩)
      (fun s a t hs ha hnone => supervision_stutter hs ha.1 hnone) apart_start).2
  · exact hrun.labels (I := Apart) (fun s a t hs ha => apart_step hs ha.1 ha.2) apart_start

/-- Weston is started again while `xset` runs, and both get their status. -/
def interleaved : List Taken :=
  [.launch 5 weston, .run, .fontFork 6 .rehash, .exit 5 ⟨.child (.launched weston weston), true, none⟩ .signaled,
    .setpgid 6, .reap 5 ⟨.child (.launched weston weston), true, some .signaled⟩,
    .exit 6 ⟨.command .rehash, false, none⟩ (.exited 0), .fontSetpgid 6 false, .turn (exitOf 7),
    .fontReap .rehash ⟨.command .rehash, false, some (.exited 0)⟩ (.exited 0)]

theorem run_interleaved : ∃ d, Run DaemonStep .start interleaved d := by
  constructor
  apply Run.cons (.launch (by decide) rfl rfl)
  apply Run.cons .run
  apply Run.cons (.fontFork (by decide) rfl)
  apply Run.cons (.exit rfl rfl)
  apply Run.cons .setpgid
  apply Run.cons (.reap rfl rfl rfl)
  apply Run.cons (.exit rfl rfl)
  apply Run.cons .fontSetpgid
  apply Run.cons (.turn (i := exitOf 7) rfl rfl fun _ => ⟨by decide, rfl⟩)
  exact .one (.fontReap rfl rfl)

theorem threads_do_not_interfere_interleaved : ∃ d, Run DaemonStep .start interleaved d ∧
    Run SuperviseStep .start (launchAndExit 7) d.supervision ∧ ∀ a ∈ interleaved, a.Proper := by
  obtain ⟨d, hrun⟩ := run_interleaved
  have hearly : ∀ a ∈ interleaved, ¬ a.Early := by
    simp [interleaved, Taken.Early]
  exact ⟨d, hrun, threads_do_not_interfere hrun hearly⟩

/-- Once `xset` has ended too early, its PID may go to a child of the monitor while the other thread waits for it. -/
def endsEarly : List Taken :=
  [.launch 5 weston, .run, .fontFork 6 .rehash, .exit 6 ⟨.command .rehash, true, none⟩ .signaled,
    .reap 6 ⟨.command .rehash, true, some .signaled⟩, .turn ⟨⟨6, 0, 0⟩, none, none⟩,
    .exit 5 ⟨.child (.launched weston weston), true, none⟩ .signaled,
    .reap 5 ⟨.child (.launched weston weston), true, some .signaled⟩, .turn (exitOf 6), .fontSetpgid 6 true,
    .exit 6 ⟨.child (.launched weston weston), false, none⟩ .signaled,
    .fontReap .rehash ⟨.child (.launched weston weston), false, some .signaled⟩ .signaled]

/-- Then weston is gone, and the monitor does not start it again. -/
theorem early_end_takes_weston : ∃ d, Run DaemonStep .start endsEarly d ∧ d.processes 6 = none ∧
    d.monitor.m_children.lookup 6 = some weston := by
  constructor
  constructor
  · apply Run.cons (.launch (by decide) rfl rfl)
    apply Run.cons .run
    apply Run.cons (.fontFork (by decide) rfl)
    apply Run.cons (.exit rfl rfl)
    apply Run.cons (.reap rfl rfl rfl)
    apply Run.cons (.turn (i := ⟨⟨6, 0, 0⟩, none, none⟩) rfl rfl fun h => by cases h)
    apply Run.cons (.exit rfl rfl)
    apply Run.cons (.reap rfl rfl rfl)
    apply Run.cons (.turn (i := exitOf 6) rfl rfl fun _ => ⟨by decide, rfl⟩)
    apply Run.cons .fontSetpgid
    apply Run.cons (.exit rfl rfl)
    exact .one (.fontReap rfl rfl)
  · exact ⟨rfl, rfl⟩

end Wslg.Wslgd
