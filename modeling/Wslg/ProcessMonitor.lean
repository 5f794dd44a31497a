import Mathlib.Data.Finmap
import Wslg.Protocol
import Wslg.Lib.System
/-!
# The process monitor

`ProcessMonitor.cpp` of WSLGd: `LaunchProcess` starts a child and `Run` waits for
children and starts them again. What the system calls answer is given; the log is
left out.
-/

open Lib

namespace Wslg.Wslgd

abbrev pid_t := Int
abbrev time_t := Int
abbrev cap_value_t := Int

/-- A `std::string`; `c_str` ends at the first null. -/
abbrev CharString := List BYTE

def c_str (s : CharString) : CharString := s.takeWhile (· ≠ 0)

structure ProcessInfo where
  argv : List CharString
  capabilities : List cap_value_t
  env : List CharString
  deriving DecidableEq

/-! ## The child -/

structure passwd where
  pw_name : CharString
  pw_uid : Nat
  pw_gid : Nat
  pw_dir : CharString

inductive CapFlag where
  | CAP_PERMITTED
  | CAP_EFFECTIVE
  | CAP_INHERITABLE
  deriving DecidableEq

inductive ChildCall where
  | prctl_PR_SET_KEEPCAPS
  | setgid (gid : Nat)
  | initgroups (name : CharString) (gid : Nat)
  | setuid (uid : Nat)
  | chdir (dir : CharString)
  | cap_get_proc
  | cap_set_flag (flag : CapFlag) (caps : List cap_value_t)
  | cap_set_proc
  | cap_set_ambient (cap : cap_value_t)
  /-- The arrays end with a null pointer, which is left out. -/
  | execvpe (file : Option CharString) (argv envp : List CharString)
  deriving DecidableEq

/-- What the child calls, up to the first call that fails: then it exits. -/
def childCalls (m_user : passwd) (environ : List CharString) (info : ProcessInfo) : List ChildCall :=
  let arguments := info.argv.map c_str
  let environments := environ ++ (info.env.filter (· ≠ [])).map c_str
  (if info.capabilities ≠ [] then [.prctl_PR_SET_KEEPCAPS] else []) ++
    [.setgid m_user.pw_gid, .initgroups m_user.pw_name m_user.pw_gid, .setuid m_user.pw_uid, .chdir m_user.pw_dir] ++
    (if info.capabilities ≠ [] then
      [.cap_get_proc, .cap_set_flag .CAP_PERMITTED info.capabilities, .cap_set_flag .CAP_EFFECTIVE info.capabilities,
        .cap_set_flag .CAP_INHERITABLE info.capabilities, .cap_set_proc] ++ info.capabilities.map .cap_set_ambient
    else []) ++
    [.execvpe arguments.head? arguments environments]

/-! ## The monitor -/

/-- `m_children`, and `crashes` of `Run`. -/
structure Monitor where
  m_children : Finmap fun _ : pid_t => ProcessInfo
  crashes : Finmap fun _ : CharString => List time_t

def Monitor.new : Monitor := ⟨∅, ∅⟩

/-- `none` is an exception: `fork` answered less than 0. -/
def LaunchProcess (s : Monitor) (childPid : pid_t) (info : ProcessInfo) : Option Monitor :=
  if childPid < 0 then none else some { s with m_children := s.m_children.insert childPid info }

/-- Every argument and a blank. -/
def joined (argv : List CharString) : CharString := argv.flatMap (fun arg => c_str arg ++ [0x20])

/-- What `waitpid`, `time` and `fork` answer, should they be called. -/
structure Answers where
  pid : pid_t
  now : time_t
  childPid : pid_t

/-- `crashes[cmd]` with this exit, without those of more than 60 seconds ago. -/
def crashTimestamps (s : Monitor) (cmd : CharString) (now : time_t) : List time_t :=
  ((s.crashes.lookup cmd).getD []).filter (fun ts => ¬ ts < now - 60) ++ [now]

/-- The exit of a tracked child with arguments; also returned is what was launched. -/
def handleExit (s : Monitor) (a : Answers) (found : ProcessInfo) : Option (Monitor × Option ProcessInfo) :=
  let cmd := joined found.argv
  let timestamps := crashTimestamps s cmd a.now
  let s := { s with crashes := s.crashes.insert cmd timestamps }
  if timestamps.length > 10 then some (s, none)
  else do
    -- The vectors are moved out of the entry before the new one is written.
    let moved := { s with m_children := s.m_children.insert a.pid ⟨[], [], []⟩ }
    let s ← LaunchProcess moved a.childPid found
    return (s, some found)

/-- One turn of the loop in `Run`, and what it launched. -/
def iterate (s : Monitor) (a : Answers) : Option (Monitor × Option ProcessInfo) :=
  -- `waitpid` failed, which throws
  if a.pid ≤ 0 then none
  else
    match s.m_children.lookup a.pid with
    | none => some (s, none)
    | some found => do
      let r ← if found.argv ≠ [] then handleExit s a found else some (s, none)
      return ({ r.1 with m_children := r.1.m_children.erase a.pid }, r.2)

/-! ## The system -/

/-- A child of the monitor's process: launched by it, with this and for the first
time with the origin, or come to it otherwise. -/
inductive Child where
  | launched (origin info : ProcessInfo)
  | adopted
  deriving DecidableEq

def Child.origin? : Child → Option ProcessInfo
  | .launched origin _ => some origin
  | .adopted => none

def Child.info? : Child → Option ProcessInfo
  | .launched _ info => some info
  | .adopted => none

/-- A child that is started in place of this one. -/
def Child.again (c : Child) (info : ProcessInfo) : Child := .launched (c.origin?.getD info) info

/-- The monitor, and the children that were not reaped. -/
structure Supervision where
  monitor : Monitor
  children : pid_t → Option Child

def Supervision.start : Supervision := ⟨.new, fun _ => none⟩

/-- One turn of the loop: what was answered, the entry found and what was launched. -/
structure Iteration where
  answers : Answers
  found : Option ProcessInfo
  launched : Option ProcessInfo

inductive Happened where
  | launch (childPid : pid_t) (info : ProcessInfo)
  | adopt (pid : pid_t)
  | iteration (i : Iteration)

/-- The children once `c` was reaped and, perhaps, another one started for it. -/
def reaped (children : pid_t → Option Child) (i : Iteration) (c : Child) : pid_t → Option Child :=
  let rest := Function.update children i.answers.pid none
  match i.launched with
  | none => rest
  | some info => Function.update rest i.answers.childPid (some (c.again info))

/-- A new child has a PID that no child has which was not reaped. -/
def Fresh (children : pid_t → Option Child) (pid : pid_t) : Prop := 0 < pid ∧ children pid = none

inductive SuperviseStep : Supervision → Happened → Supervision → Prop
  | launch {s : Supervision} {childPid : pid_t} {info : ProcessInfo} {m : Monitor} (hfresh : Fresh s.children childPid)
      (h : LaunchProcess s.monitor childPid info = some m) :
      SuperviseStep s (.launch childPid info)
        ⟨m, Function.update s.children childPid (some (.launched info info))⟩
  | adopt {s : Supervision} {pid : pid_t} (hfresh : Fresh s.children pid) :
      SuperviseStep s (.adopt pid) ⟨s.monitor, Function.update s.children pid (some .adopted)⟩
  | iteration {s : Supervision} {i : Iteration} {m : Monitor} {c : Child} (hchild : s.children i.answers.pid = some c)
      (hfound : s.monitor.m_children.lookup i.answers.pid = i.found)
      (h : iterate s.monitor i.answers = some (m, i.launched))
      (hfresh : i.launched.isSome = true → Fresh (Function.update s.children i.answers.pid none) i.answers.childPid) :
      SuperviseStep s (.iteration i) ⟨m, reaped s.children i c⟩

end Wslg.Wslgd
