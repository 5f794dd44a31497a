import Wslg.Lib.Environ
import Wslg.FontMonitor
import Wslg.Supervise
import Wslg.Vsock
/-!
# The environment of weston

What `main` passes to `LaunchProcess` for weston, and the environment that weston
gets from it and from the one of WSLGd, which does not change after that. Three of
the variables have defaults that should give way to the user's settings.
-/

open Lib Lib.Environ

namespace Wslg.Wslgd

/-! ## The launch -/

def CAP_SYS_CHROOT : cap_value_t := 18
def CAP_SYS_PTRACE : cap_value_t := 19
def CAP_SYS_ADMIN : cap_value_t := 21

def hexDigit (d : Nat) : BYTE := (if d < 10 then 0x30 + d else 0x37 + d).toUInt8

/-- `%08X`, for 32 bits. -/
def hex8 (n : Nat) : CharString := (List.range 8).reverse.map (fun i => hexDigit (n / 16 ^ i % 16))

/-- The string is one character longer than what is printed. -/
def ToServiceId (port : Nat) : CharString := hex8 port ++ bytes "-FACB-11E6-BD58-64006A7986D3" ++ [0]

example : ToServiceId 1023 = bytes "000003FF-FACB-11E6-BD58-64006A7986D3" ++ [0] := by decide +kernel

def WLOG_APPENDER : CharString := bytes "WLOG_APPENDER"
def WLOG_FILEAPPENDER_OUTPUT_FILE_NAME : CharString := bytes "WLOG_FILEAPPENDER_OUTPUT_FILE_NAME"
def WLOG_FILEAPPENDER_OUTPUT_FILE_PATH : CharString := bytes "WLOG_FILEAPPENDER_OUTPUT_FILE_PATH"

/-- `'='` -/
abbrev eqSign : BYTE := 0x3D

def westonEnv (environ : List CharString) (v : Vsock) : List CharString :=
  [bytes "USE_VSOCK=" ++ bytes (toString v.socketFd),
    bytes "WSLG_SERVICE_ID=" ++ ToServiceId v.address.svm_port,
    bytes "WSLGD_NOTIFY_SOCKET=/mnt/wslg/weston-notify.sock",
    bytes "WESTON_DISABLE_ABSTRACT_FD=1",
    -- the value itself, and then the default in any case
    (getenv eqSign environ WLOG_APPENDER).getD [], bytes "WLOG_APPENDER=file",
    if (getenv eqSign environ WLOG_FILEAPPENDER_OUTPUT_FILE_NAME).isSome then []
      else bytes "WLOG_FILEAPPENDER_OUTPUT_FILE_NAME=wlog.log",
    if (getenv eqSign environ WLOG_FILEAPPENDER_OUTPUT_FILE_PATH).isSome then []
      else bytes "WLOG_FILEAPPENDER_OUTPUT_FILE_PATH=/mnt/wslg"]

def westonProcess (environ : List CharString) (v : Vsock) (westonArgs : CharString) : ProcessInfo where
  argv := [bytes "/usr/bin/sh", bytes "-c", westonArgs]
  capabilities := [CAP_SYS_ADMIN, CAP_SYS_CHROOT, CAP_SYS_PTRACE]
  env := westonEnv environ v

/-! ## What weston gets -/

/-- The environment that `execvpe` is called with. -/
def envpOf (calls : List ChildCall) : Option (List CharString) :=
  match calls.getLast? with
  | some (.execvpe _ _ envp) => some envp
  | _ => none

/-- `env` as it is appended to the environment. -/
def appended (env : List CharString) : List CharString := (env.filter (· ≠ [])).map c_str

theorem envpOf_childCalls (m_user : passwd) (environ : List CharString) (info : ProcessInfo) :
    envpOf (childCalls m_user environ info) = some (environ ++ appended info.env) := by
  unfold envpOf childCalls
  rw [List.getLast?_append_of_ne_nil _ (by simp)]
  rfl

/-- Only entries with a name, and one for each of the three. -/
structure UserSettingsWin (environ envp : List CharString) : Prop where
  entries : ∀ e ∈ envp, NameValue eqSign e
  appender : Settled eqSign environ envp WLOG_APPENDER (bytes "file")
  fileName : Settled eqSign environ envp WLOG_FILEAPPENDER_OUTPUT_FILE_NAME (bytes "wlog.log")
  filePath : Settled eqSign environ envp WLOG_FILEAPPENDER_OUTPUT_FILE_PATH (bytes "/mnt/wslg")

/-! ### Entry by entry -/

theorem appended_append (env env' : List CharString) : appended (env ++ env') = appended env ++ appended env' := by
  unfold appended
  rw [List.filter_append, List.map_append]

theorem c_str_entry {name : CharString} (h : 0 ∉ name) (value : CharString) :
    c_str (entry eqSign name value) = entry eqSign name (c_str value) := by
  have hall : ∀ c ∈ name, decide (c ≠ 0) = true := fun c hc => decide_eq_true fun h0 => h (h0 ▸ hc)
  unfold c_str entry
  rw [List.takeWhile_append_of_pos hall, List.takeWhile_cons_of_pos (by decide)]

theorem appended_entry {name : CharString} (h : 0 ∉ name) (value : CharString) :
    appended [entry eqSign name value] = [entry eqSign name (c_str value)] := by
  have hne : entry eqSign name value ≠ [] := by simp [entry]
  unfold appended
  rw [List.filter_cons_of_pos (by simpa using hne), List.filter_nil, List.map_singleton, c_str_entry h]

/-- The two entries whose value is put together. -/
def vsockEnv (v : Vsock) : List CharString :=
  [bytes "USE_VSOCK=" ++ bytes (toString v.socketFd), bytes "WSLG_SERVICE_ID=" ++ ToServiceId v.address.svm_port]

theorem appended_vsockEnv (v : Vsock) : appended (vsockEnv v) =
    [entry eqSign (bytes "USE_VSOCK") (c_str (bytes (toString v.socketFd))),
      entry eqSign (bytes "WSLG_SERVICE_ID") (c_str (ToServiceId v.address.svm_port))] := by
  have hsplit : bytes "USE_VSOCK=" = bytes "USE_VSOCK" ++ [eqSign] ∧
      bytes "WSLG_SERVICE_ID=" = bytes "WSLG_SERVICE_ID" ++ [eqSign] := by decide +kernel
  have hnull : 0 ∉ bytes "USE_VSOCK" ∧ 0 ∉ bytes "WSLG_SERVICE_ID" := by decide +kernel
  have hentries : vsockEnv v = [entry eqSign (bytes "USE_VSOCK") (bytes (toString v.socketFd))] ++
      [entry eqSign (bytes "WSLG_SERVICE_ID") (ToServiceId v.address.svm_port)] := by
    unfold vsockEnv entry
    rw [hsplit.1, hsplit.2, List.append_assoc, List.append_assoc]
    rfl
  rw [hentries, appended_append, appended_entry hnull.1, appended_entry hnull.2]
  rfl

def wlogNames : List CharString := [WLOG_APPENDER, WLOG_FILEAPPENDER_OUTPUT_FILE_NAME, WLOG_FILEAPPENDER_OUTPUT_FILE_PATH]

theorem vsockEnv_nameValue (v : Vsock) : ∀ e ∈ appended (vsockEnv v), NameValue eqSign e := by
  have hnames : (bytes "USE_VSOCK" ≠ [] ∧ eqSign ∉ bytes "USE_VSOCK") ∧
      bytes "WSLG_SERVICE_ID" ≠ [] ∧ eqSign ∉ bytes "WSLG_SERVICE_ID" := by decide +kernel
  rw [appended_vsockEnv]
  intro e he
  rcases List.mem_cons.1 he with rfl | he
  · exact ⟨_, _, hnames.1.1, hnames.1.2, rfl⟩
  · rw [List.mem_singleton.1 he]
    exact ⟨_, _, hnames.2.1, hnames.2.2, rfl⟩

theorem vsockEnv_wlogNames (v : Vsock) : ∀ name ∈ wlogNames, entriesOf eqSign (appended (vsockEnv v)) name = [] := by
  have hnames : ∀ name ∈ wlogNames, eqSign ∉ name ∧ name ≠ bytes "USE_VSOCK" ∧ name ≠ bytes "WSLG_SERVICE_ID" := by
    decide +kernel
  have heq : eqSign ∉ bytes "USE_VSOCK" ∧ eqSign ∉ bytes "WSLG_SERVICE_ID" := by decide +kernel
  intro name hname
  obtain ⟨hmem, hfd, hid⟩ := hnames name hname
  apply entriesOf_eq_nil
  rw [appended_vsockEnv]
  intro e he
  rcases List.mem_cons.1 he with rfl | he
  · exact hasName_other hmem heq.1 hfd _
  · rw [List.mem_singleton.1 he]
    exact hasName_other hmem heq.2 hid _

/-- The other entries, for the value of `WLOG_APPENDER` and whether the other two are set. -/
def wlogEnv (appender : CharString) (fileName filePath : Bool) : List CharString :=
  [bytes "WSLGD_NOTIFY_SOCKET=/mnt/wslg/weston-notify.sock", bytes "WESTON_DISABLE_ABSTRACT_FD=1",
    appender, bytes "WLOG_APPENDER=file",
    if fileName then [] else bytes "WLOG_FILEAPPENDER_OUTPUT_FILE_NAME=wlog.log",
    if filePath then [] else bytes "WLOG_FILEAPPENDER_OUTPUT_FILE_PATH=/mnt/wslg"]

theorem westonEnv_eq (environ : List CharString) (v : Vsock) : westonEnv environ v =
    vsockEnv v ++ wlogEnv ((getenv eqSign environ WLOG_APPENDER).getD [])
      (getenv eqSign environ WLOG_FILEAPPENDER_OUTPUT_FILE_NAME).isSome
      (getenv eqSign environ WLOG_FILEAPPENDER_OUTPUT_FILE_PATH).isSome := rfl

/-- With no appender set, every entry is as it should be. -/
theorem wlogEnv_unset (fileName filePath : Bool) :
    (∀ e ∈ appended (wlogEnv [] fileName filePath), NameValue eqSign e) ∧
      entriesOf eqSign (appended (wlogEnv [] fileName filePath)) WLOG_APPENDER = [entry eqSign WLOG_APPENDER (bytes "file")] ∧
      entriesOf eqSign (appended (wlogEnv [] fileName filePath)) WLOG_FILEAPPENDER_OUTPUT_FILE_NAME =
        (if fileName then [] else [entry eqSign WLOG_FILEAPPENDER_OUTPUT_FILE_NAME (bytes "wlog.log")]) ∧
      entriesOf eqSign (appended (wlogEnv [] fileName filePath)) WLOG_FILEAPPENDER_OUTPUT_FILE_PATH =
        (if filePath then [] else [entry eqSign WLOG_FILEAPPENDER_OUTPUT_FILE_PATH (bytes "/mnt/wslg")]) := by
  revert fileName filePath
  decide +kernel

/-- The default for the appender is among them whatever is set. -/
theorem wlogEnv_appender (appender : CharString) (fileName filePath : Bool) :
    entriesOf eqSign (appended (wlogEnv appender fileName filePath)) WLOG_APPENDER ≠ [] := by
  have hdefault : hasName eqSign WLOG_APPENDER (bytes "WLOG_APPENDER=file") = true ∧
      c_str (bytes "WLOG_APPENDER=file") = bytes "WLOG_APPENDER=file" ∧ bytes "WLOG_APPENDER=file" ≠ [] := by decide +kernel
  apply List.ne_nil_of_mem (a := bytes "WLOG_APPENDER=file")
  rw [entriesOf, List.mem_filter]
  refine ⟨?_, hdefault.1⟩
  rw [appended, List.mem_map]
  refine ⟨_, List.mem_filter.2 ⟨?_, by simpa using hdefault.2.2⟩, hdefault.2.1⟩
  simp [wlogEnv]

theorem entriesOf_westonEnv (environ : List CharString) (v : Vsock) {name : CharString} (h : name ∈ wlogNames) :
    entriesOf eqSign (appended (westonEnv environ v)) name =
      entriesOf eqSign (appended (wlogEnv ((getenv eqSign environ WLOG_APPENDER).getD [])
        (getenv eqSign environ WLOG_FILEAPPENDER_OUTPUT_FILE_NAME).isSome
        (getenv eqSign environ WLOG_FILEAPPENDER_OUTPUT_FILE_PATH).isSome)) name := by
  rw [westonEnv_eq, appended_append, entriesOf_append, vsockEnv_wlogNames v name h, List.nil_append]

/-! ### The three settings -/

/-- No appender is set, and the other two at most once. -/
structure SetOnce (environ : List CharString) : Prop where
  appender : getenv eqSign environ WLOG_APPENDER = none
  fileName : (entriesOf eqSign environ WLOG_FILEAPPENDER_OUTPUT_FILE_NAME).length ≤ 1
  filePath : (entriesOf eqSign environ WLOG_FILEAPPENDER_OUTPUT_FILE_PATH).length ≤ 1

theorem userSettingsWin_iff {environ : List CharString} (henv : ∀ e ∈ environ, NameValue eqSign e) (v : Vsock) :
    UserSettingsWin environ (environ ++ appended (westonEnv environ v)) ↔ SetOnce environ := by
  have happender : WLOG_APPENDER ∈ wlogNames := by simp [wlogNames]
  have hname : WLOG_FILEAPPENDER_OUTPUT_FILE_NAME ∈ wlogNames := by simp [wlogNames]
  have hpath : WLOG_FILEAPPENDER_OUTPUT_FILE_PATH ∈ wlogNames := by simp [wlogNames]
  constructor
  · intro h
    have hdefault := List.length_pos_iff.2 (wlogEnv_appender ((getenv eqSign environ WLOG_APPENDER).getD [])
      (getenv eqSign environ WLOG_FILEAPPENDER_OUTPUT_FILE_NAME).isSome
      (getenv eqSign environ WLOG_FILEAPPENDER_OUTPUT_FILE_PATH).isSome)
    rw [← entriesOf_westonEnv environ v happender] at hdefault
    have hone := h.appender.length_le
    -- the default is the one entry, so the user has none
    refine ⟨getenv_eq_none.2 (List.length_eq_zero_iff.1 (by omega)), ?_, ?_⟩
    · have hone := h.fileName.length_le
      omega
    · have hone := h.filePath.length_le
      omega
  · intro h
    obtain ⟨hall, hdefault, hfileName, hfilePath⟩ := wlogEnv_unset
      (getenv eqSign environ WLOG_FILEAPPENDER_OUTPUT_FILE_NAME).isSome
      (getenv eqSign environ WLOG_FILEAPPENDER_OUTPUT_FILE_PATH).isSome
    have hentries := fun {name : CharString} => @entriesOf_westonEnv environ v name
    rw [h.appender, Option.getD_none] at hentries
    refine ⟨fun e he => ?_, ?_, ?_, ?_⟩
    · rw [westonEnv_eq, h.appender, Option.getD_none, appended_append, List.mem_append, List.mem_append] at he
      rcases he with he | he | he
      · exact henv e he
      · exact vsockEnv_nameValue v e he
      · exact hall e he
    · refine settled_of_default ?_ ?_
      · rw [hentries happender, hdefault, h.appender]
        rfl
      · rw [getenv_eq_none.1 h.appender]
        exact Nat.zero_le 1
    · exact settled_of_default ((hentries hname).trans hfileName) h.fileName
    · exact settled_of_default ((hentries hpath).trans hfilePath) h.filePath

/-! ## Every launch -/

/-- The user's settings win, for weston and whenever it is started again, exactly if
they leave the appender alone and name nothing twice. -/
theorem user_settings_win_iff {environ : List CharString} (henv : ∀ e ∈ environ, NameValue eqSign e) {as : List Happened}
    {s : Supervision} (h : Run SuperviseStep .start as s) (m_user : passwd) (v : Vsock) (westonArgs : CharString)
    {pid : pid_t} (hpid : s.originOf pid = some (westonProcess environ v westonArgs)) :
    ∃ info envp, s.infoOf pid = some info ∧ envpOf (childCalls m_user environ info) = some envp ∧
      (UserSettingsWin environ envp ↔ SetOnce environ) := by
  have hinfo : s.infoOf pid = some (westonProcess environ v westonArgs) := by rw [← (known_run h).origins, hpid]
  exact ⟨_, _, hinfo, envpOf_childCalls .., userSettingsWin_iff henv v⟩

/-! ### Weston launched twice -/

/-- Launched as 5, and again as 6 after its exit. -/
def relaunch (info : ProcessInfo) : List Happened := [.launch 5 info, .iteration ⟨⟨5, 0, 6⟩, some info, some info⟩]

theorem run_relaunch (info : ProcessInfo) (hargv : info.argv ≠ []) :
    ∃ s, Run SuperviseStep .start (relaunch info) s ∧ s.originOf 6 = some info := by
  have hturn : ∃ m, iterate ⟨(∅ : Finmap _).insert 5 info, ∅⟩ ⟨5, 0, 6⟩ = some (m, some info) := by
    simp [iterate, handleExit, crashTimestamps, LaunchProcess, Finmap.lookup_insert, hargv]
  obtain ⟨m, hm⟩ := hturn
  have hpid : (0 : pid_t) < 6 := by decide
  refine ⟨_, .cons (.launch ⟨by decide, rfl⟩ rfl) (.one (.iteration rfl ?_ hm fun _ => ⟨hpid, ?_⟩)), rfl⟩
  · exact Finmap.lookup_insert _
  · simp [Supervision.start]

def wslgUser : passwd := ⟨bytes "wslg", 1000, 1000, bytes "/home/wslg"⟩

/-- Bound to the second port. -/
def boundVsock : Vsock := ⟨3, ⟨AF_VSOCK, 2, VMADDR_CID_ANY⟩, some 2⟩

def westonIn (environ : List CharString) : ProcessInfo := westonProcess environ boundVsock (bytes "/usr/bin/weston")

def fileNameEnviron : List CharString := [bytes "HOME=/home/wslg", bytes "WLOG_FILEAPPENDER_OUTPUT_FILE_NAME=my.log"]

theorem file_name_wins : ∃ s, Run SuperviseStep .start (relaunch (westonIn fileNameEnviron)) s ∧
    ∃ info envp, s.infoOf 6 = some info ∧ envpOf (childCalls wslgUser fileNameEnviron info) = some envp ∧
      UserSettingsWin fileNameEnviron envp := by
  have henv : (∀ e ∈ fileNameEnviron, NameValue eqSign e) ∧ getenv eqSign fileNameEnviron WLOG_APPENDER = none ∧
      (entriesOf eqSign fileNameEnviron WLOG_FILEAPPENDER_OUTPUT_FILE_NAME).length ≤ 1 ∧
      (entriesOf eqSign fileNameEnviron WLOG_FILEAPPENDER_OUTPUT_FILE_PATH).length ≤ 1 := by decide +kernel
  obtain ⟨s, hrun, horigin⟩ := run_relaunch (westonIn fileNameEnviron) (List.cons_ne_nil _ _)
  obtain ⟨info, envp, hinfo, henvp, hiff⟩ := user_settings_win_iff henv.1 hrun wslgUser boundVsock _ horigin
  exact ⟨s, hrun, info, envp, hinfo, henvp, hiff.2 ⟨henv.2.1, henv.2.2.1, henv.2.2.2⟩⟩

def consoleEnviron : List CharString := [bytes "WLOG_APPENDER=console"]

/-- The value of the appender becomes an entry without a name, and the default comes on top. -/
theorem appender_is_set_twice : (∀ e ∈ consoleEnviron, NameValue eqSign e) ∧
    ∃ s, Run SuperviseStep .start (relaunch (westonIn consoleEnviron)) s ∧
      s.originOf 6 = some (westonIn consoleEnviron) ∧ ∃ info envp, s.infoOf 6 = some info ∧
        envpOf (childCalls wslgUser consoleEnviron info) = some envp ∧ bytes "console" ∈ envp ∧
        entriesOf eqSign envp WLOG_APPENDER = [bytes "WLOG_APPENDER=console", bytes "WLOG_APPENDER=file"] ∧
        ¬ UserSettingsWin consoleEnviron envp := by
  have henv : (∀ e ∈ consoleEnviron, NameValue eqSign e) ∧ ¬ NameValue eqSign (bytes "console") := by decide +kernel
  have henvp : bytes "console" ∈ consoleEnviron ++ appended (westonIn consoleEnviron).env ∧
      entriesOf eqSign (consoleEnviron ++ appended (westonIn consoleEnviron).env) WLOG_APPENDER =
        [bytes "WLOG_APPENDER=console", bytes "WLOG_APPENDER=file"] := by decide +kernel
  obtain ⟨s, hrun, horigin⟩ := run_relaunch (westonIn consoleEnviron) (List.cons_ne_nil _ _)
  have hinfo : s.infoOf 6 = some (westonIn consoleEnviron) := by rw [← (known_run hrun).origins, horigin]
  refine ⟨henv.1, s, hrun, horigin, _, _, hinfo, envpOf_childCalls .., henvp.1, henvp.2, fun h => ?_⟩
  exact henv.2 (h.entries _ henvp.1)

end Wslg.Wslgd
